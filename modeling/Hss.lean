import Hss.Lib.Runs
import Hss.Lib.Turns
import Hss.Lib.Outcome
import Hss.Lib.ByteMemory
import Hss.Lib.ByteLayout
import Hss.Lib.XorLinear
import Hss.Lib.SlotTable
import Hss.Lib.PriorityRegions
import Hss.Lib.BitStream
import Hss.Lib.Hits
import Hss.Lib.Fallback
import Hss.Lib.BlockStore
import Hss.Lib.Checked
import Hss.Lib.Regions
import Hss.Types
import Hss.Ipi.Bus
import Hss.Ipi.Polling
import Hss.Ipi.AckRouting
import Hss.Ipi.Delivery
import Hss.Ipi.Slots
import Hss.Ipi.Requests
import Hss.Ipi.Send
import Hss.Ipi.Jump
import Hss.Ipi.Order
import Hss.StateMachine
import Hss.Discipline
import Hss.Usbdmsc
import Hss.Tinycli
import Hss.Resolution
import Hss.Lines.Getline
import Hss.Boot.Image
import Hss.Boot.Pmp
import Hss.Boot.Gpt
import Hss.Boot.Crc32
import Hss.Boot.Reboots
import Hss.Boot.Entries
import Hss.Boot.Partitions
import Hss.Boot.BootPartition
import Hss.Boot.PartitionList
import Hss.Boot.Signing
import Hss.Boot.State
import Hss.Boot.Service
import Hss.Boot.System
import Hss.Boot.Restart
import Hss.Boot.Init
import Hss.Boot.FpgaFlash
import Hss.Boot.FpgaFlashWrite
import Hss.Boot.Providers
import Hss.Boot.MmcTransfers
import Hss.Boot.Fallback
import Hss.Boot.Sources
import Hss.Boot.Decompression
import Hss.Boot.Callbacks
import Hss.Boot.Messages
import Hss.Boot.Control
import Hss.Boot.Tables
import Hss.Boot.Memory
import Hss.Boot.Confinement
import Hss.Boot.Registration
import Hss.Boot.Rounds
import Hss.Boot.Acks
import Hss.Boot.Slots
import Hss.Boot.Timeouts
import Hss.Boot.Rproc
import Hss.Tools.Header
import Hss.Tools.Payload
import Hss.Tools.Bin2chunks
import Hss.Tools.Layout
import Hss.Tools.Bookkeeping
import Hss.Tools.ZeroInit
import Hss.Tools.ConfigRange
import Hss.Telemetry.Packet
import Hss.Telemetry.CcsdsCrc
import Hss.Telemetry.RoundTrip
import Hss.Telemetry.Mailbox
import Hss.Telemetry.BootStatus
import Hss.Telemetry.Serializers
import Hss.Telemetry.Sizes
import Hss.Telemetry.Finalize
import Hss.Telemetry.Hex20
import Hss.Telemetry.Adcs
import Hss.Telemetry.Report
import Hss.Ipi.Scans
import Hss.Lib.Tour
import Hss.Scrub
import Hss.Healthmon
import Hss.Beu
import Hss.FlashDrive
import Hss.Ecalls
import Hss.Crypto
import Hss.Sgdma.Service
import Hss.Sgdma.Transfer
import Hss.Qspi.Cache
import Hss.Qspi.Blocks
import Hss.Qspi.BadBlockMap
import Hss.Qspi.Coherence
import Hss.Qspi.Durability
import Hss.Qspi.Rescan
import Hss.Qspi.Uncached
import Hss.Qspi.Failures
import Hss.Qspi.ChipErase
import Hss.W25n.Driver
import Hss.W25n.Reports
import Hss.W25n.Device
import Hss.W25n.RoundTrip
import Hss.W25n.BadBlockLut
import Hss.Scai.Fpga
import Hss.Scai.Fifo
import Hss.Scai.Mt29f
import Hss.Scai.Failures
import Hss.Scai.Device
import Hss.Scai.Commands
import Hss.Scai.Places
import Hss.Scai.Ranges
import Hss.Scai.Words
import Hss.Scai.Transfer
import Hss.Scai.Selection
import Hss.Scai.BadBlocks
import Hss.Scai.W25n
import Hss.FpgaQspi.Frames
import Hss.Buffer
import Hss.Lib.Pieces
import Hss.Lib.Polling
import Hss.Ymodem.Receive
import Hss.Ymodem.Turns
import Hss.Ymodem.Frames
import Hss.Ymodem.Checksum
import Hss.Ymodem.Session
import Hss.Ymodem.Delivery
import Hss.Ymodem.Outcome
import Hss.Ymodem.Bounds
import Hss.Ymodem.Reads
import Hss.Ymodem.Capacity
import Hss.Ymodem.Loader
import Hss.Memtest.Test
import Hss.Memtest.Walks
import Hss.Memtest.Passes
import Hss.Memtest.Soundness
import Hss.Boot.Loader
import Hss.Boot.Custom
import Hss.MivIhc.Block
import Hss.MivIhc.Driver
import Hss.MivIhc.Delivery
import Hss.MivIhc.OneWay
import Hss.Boot.Loading
import Hss.Tools.Booted
import Hss.Nand.Marks
import Hss.Nand.Requests
import Hss.Nand.Commands
import Hss.Nand.Transfers
