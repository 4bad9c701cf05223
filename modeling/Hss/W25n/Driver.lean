import Hss.Buffer
import Hss.Lib.Pieces

/-! The driver of the Winbond W25N01GV flash, over any device on the bus of the QSPI controller. -/

namespace Hss

open Pieces

/-! ### The bus -/

/-- What is on the bus: a frame of bytes is sent, with a number of idle cycles after it, and the bytes
that are read come back. -/
structure QspiBus (σ : Type) where
  transfer : σ → Bytes → ℕ → σ × (ℕ → BitVec 8)

/-- `mss_qspi_io_format` -/
inductive MssQspiIoFormat
  | normal | dualExRo | quadExRo | dualExRw | quadExRw | dualFull | quadFull
  deriving DecidableEq, Repr

def numPagesPerBlock : ℕ := 64
def numBlocksPerDie : ℕ := 1024
def pageLength : ℕ := 2048

def statusReg1 : BitVec 8 := 0xA0
def statusReg3 : BitVec 8 := 0xC0

def statusReg3Ecc1 : BitVec 8 := 1 <<< 5
def statusReg3Ecc0 : BitVec 8 := 1 <<< 4
def statusReg3Pfail : BitVec 8 := 1 <<< 3
def statusReg3Efail : BitVec 8 := 1 <<< 2
def statusReg3Wel : BitVec 8 := 1 <<< 1
def statusReg3Busy : BitVec 8 := 1 <<< 0

def readStatusRegOpcode : BitVec 8 := 0x05
def writeStatusRegOpcode : BitVec 8 := 0x01
def writeEnableOpcode : BitVec 8 := 0x06
def pageDataReadOpcode : BitVec 8 := 0x13
def fastReadOpcode : BitVec 8 := 0x0B
def blockEraseOpcode : BitVec 8 := 0xD8
def loadProgramDataOpcode : BitVec 8 := 0x02
def randomLoadProgramDataOpcode : BitVec 8 := 0x84
def programExecuteOpcode : BitVec 8 := 0x10
def fastReadDualOutputOpcode : BitVec 8 := 0x3B
def fastReadQuadIoOpcode : BitVec 8 := 0xEB

/-- `MSS_QSPI_CMDBYTES_LIMIT` -/
def mssQspiCmdbytesLimit : ℕ := 511 - 3

/-- `MAX_SPIN_COUNT` -/
def maxSpinCount : ℕ := 0x01000000

/-- `(n >> 8) & 0xFF` and `n & 0xFF` -/
def highByte (n : ℕ) : BitVec 8 := BitVec.ofNat 8 (n >>> 8)
def lowByte (n : ℕ) : BitVec 8 := BitVec.ofNat 8 n

/-- A buffer that begins with the bytes `bytes`. -/
def ofBytes (bytes : Bytes) : ℕ → BitVec 8 := writeBuffer (fun _ => 0) 0 bytes

variable {σ : Type}

namespace QspiBus

variable (bus : QspiBus σ)

/-- `MSS_QSPI_polled_transfer_block`: an opcode, the address and the data are sent from one buffer. -/
def polledTransferBlock (numAddrBytes : ℕ) (txBuffer : ℕ → BitVec 8)
    (txByteSize rdByteSize numIdleCycles : ℕ) (s : σ) : σ × Bytes :=
  let (s, rdBuffer) :=
    bus.transfer s (firstBytes txBuffer (1 + txByteSize + numAddrBytes)) numIdleCycles
  (s, firstBytes rdBuffer rdByteSize)

/-! ### Status registers -/

/-- `write_statusreg` -/
def writeStatusreg (address value : BitVec 8) (s : σ) : σ :=
  (bus.polledTransferBlock 0 (ofBytes [writeStatusRegOpcode, address, value]) 2 0 0 s).1

/-- `read_statusreg` -/
def readStatusreg (statusRegAddress : BitVec 8) (s : σ) : σ × BitVec 8 :=
  let (s, rdBuf) :=
    bus.polledTransferBlock 1 (ofBytes [readStatusRegOpcode, statusRegAddress]) 0 1 0 s
  (s, rdBuf.headD 0)

/-- A loop that reads status register 3, at least once and as often as there are polls left, as long as
`again` holds of it: the status that was read last. -/
def spin (again : BitVec 8 → Bool) : ℕ → σ → σ × BitVec 8
  | 0, s => (s, 0)
  | polls + 1, s =>
      let (s, statusReg) := bus.readStatusreg statusReg3 s
      if polls ≠ 0 && again statusReg then spin again polls s else (s, statusReg)

/-- `wait_if_busy` -/
def waitIfBusy (s : σ) : σ :=
  (bus.spin (fun statusReg => statusReg3Busy &&& statusReg ≠ 0) maxSpinCount s).1

/-- `wait_for_wel` -/
def waitForWel (s : σ) : σ :=
  (bus.spin (fun statusReg => statusReg3Wel &&& statusReg = 0) maxSpinCount s).1

/-- `wait_if_busy_or_wel` -/
def waitIfBusyOrWel (s : σ) : σ × BitVec 8 :=
  bus.spin (fun statusReg => statusReg3Busy &&& statusReg ≠ 0 || statusReg3Wel &&& statusReg ≠ 0)
    maxSpinCount s

/-- `send_write_enable_command` -/
def sendWriteEnableCommand (s : σ) : σ :=
  bus.waitForWel (bus.polledTransferBlock 0 (ofBytes [writeEnableOpcode]) 0 0 0 s).1

/-- `disable_write_protect` -/
def disableWriteProtect (s : σ) : σ := bus.writeStatusreg statusReg1 0 s

/-! ### Pages -/

/-- The opcode of a read and its dummy cycles. -/
def readCommand : MssQspiIoFormat → BitVec 8 × ℕ
  | .quadFull | .quadExRo | .quadExRw => (fastReadQuadIoOpcode, 4)
  | .dualFull | .dualExRo | .dualExRw => (fastReadDualOutputOpcode, 8)
  | .normal => (fastReadOpcode, 8)

/-- `read_page` up to the status of the page: the bytes at the destination, and the status register
that is read last. -/
def readPageStatus (ioFormat : MssQspiIoFormat) (page column readLen : ℕ) (s : σ) :
    σ × Bytes × BitVec 8 :=
  let s := bus.waitIfBusy s
  let commandBuf := ofBytes [pageDataReadOpcode, 0, highByte page, lowByte page]
  let (s, _) := bus.polledTransferBlock 0 commandBuf 3 0 0 s
  let s := bus.waitIfBusy s
  let (opcode, numDummyCycles) := readCommand ioFormat
  let commandBuf := ofBytes [opcode, highByte column, lowByte column, lowByte page]
  let length := if readLen > pageLength then pageLength else readLen
  let (s, rxBuf) := bus.polledTransferBlock 2 commandBuf 0 length numDummyCycles s
  let (s, status) := bus.readStatusreg statusReg3 s
  (s, rxBuf, status)

/-- `read_page` -/
def readPage (ioFormat : MssQspiIoFormat) (page column readLen : ℕ) (s : σ) :
    σ × Bytes × BitVec 8 :=
  let (s, rxBuf, status) := bus.readPageStatus ioFormat page column readLen s
  (s, rxBuf, status &&& (statusReg3Ecc1 &&& statusReg3Ecc0))

/-- `is_bad_block` -/
def isBadBlock (ioFormat : MssQspiIoFormat) (blockIndex : ℕ) (s : σ) : σ × Bool :=
  let (s, receiveBuf, _) := bus.readPage ioFormat (blockIndex * numPagesPerBlock) pageLength 2 s
  (s, receiveBuf.getD 0 0 ≠ 0xFF || receiveBuf.getD 1 0 ≠ 0xFF)

/-- The subpages of a page, from the buffer of the caller over that of the commands.  The first one is
loaded so that the rest of the page is reset. -/
def loadSubpages (txBuf : ℕ → BitVec 8) :
    List (ℕ × ℕ) → (ℕ → BitVec 8) → σ → (ℕ → BitVec 8) × σ
  | [], commandBuf, s => (commandBuf, s)
  | (column, subpageLength) :: rest, commandBuf, s =>
      let opcode := if column = 0 then loadProgramDataOpcode else randomLoadProgramDataOpcode
      let commandBuf := writeBuffer commandBuf 0 [opcode, highByte column, lowByte column]
      let commandBuf :=
        writeBuffer commandBuf 3 (firstBytes (fun idx => txBuf (column + idx)) subpageLength)
      let s := bus.sendWriteEnableCommand s
      let (s, _) := bus.polledTransferBlock 2 commandBuf subpageLength 0 0 s
      loadSubpages txBuf rest commandBuf s

/-- `program_page` up to the status of the page: the status register that is read last. -/
def programPageStatus (txBuf : ℕ → BitVec 8) (page wrLen : ℕ) (s : σ) : σ × BitVec 8 :=
  let (commandBuf, s) := bus.loadSubpages txBuf (pieces mssQspiCmdbytesLimit 0 wrLen) (fun _ => 0) s
  let commandBuf := writeBuffer commandBuf 0 [programExecuteOpcode, 0, highByte page, lowByte page]
  let s := bus.sendWriteEnableCommand s
  let (s, _) := bus.polledTransferBlock 0 commandBuf 3 0 0 s
  bus.waitIfBusyOrWel s

/-- `program_page` -/
def programPage (txBuf : ℕ → BitVec 8) (page wrLen : ℕ) (s : σ) : σ × BitVec 8 :=
  let (s, status) := bus.programPageStatus txBuf page wrLen s
  (s, (statusReg3Ecc1 ||| statusReg3Pfail) &&& status)

/-- `erase_block` up to the status of the block: none for a bad block, which is not erased, or the
status register that is read last. -/
def eraseBlockStatus (ioFormat : MssQspiIoFormat) (blockIndex : ℕ) (s : σ) :
    Except Halt (σ × Option (BitVec 8)) :=
  let (s, bad) := bus.isBadBlock ioFormat blockIndex s
  if bad then .ok (s, none)
  else do
    let page := blockIndex * numPagesPerBlock
    let commandBuf := ofBytes [blockEraseOpcode, 0, highByte page, lowByte page]
    let (s, status) := bus.readStatusreg statusReg1 s
    assert (status = 0) .flashUnprotected
    let s := bus.waitIfBusy s
    let s := bus.sendWriteEnableCommand s
    let (s, _) := bus.polledTransferBlock 0 commandBuf 3 0 0 s
    let (s, status) := bus.waitIfBusyOrWel s
    return (s, some status)

/-- `erase_block` -/
def eraseBlock (ioFormat : MssQspiIoFormat) (blockIndex : ℕ) (s : σ) :
    Except Halt (σ × BitVec 8) := do
  let (s, status) ← bus.eraseBlockStatus ioFormat blockIndex s
  return (s, match status with
    | none => statusReg3Efail
    | some status => statusReg3Efail &&& status)

/-! ### The interface of the driver -/

/-- The loop of `Flash_read` from the page `firstPage` on, over the pieces that are left. -/
def readPages (ioFormat : MssQspiIoFormat) (firstPage : ℕ) :
    List (ℕ × ℕ) → (ℕ → BitVec 8) → σ → σ × (ℕ → BitVec 8) × BitVec 8
  | [], dst, s => (s, dst, 0)
  | (offset, length) :: rest, dst, s =>
      let (s, bytes, result) := bus.readPage ioFormat (firstPage + offset / pageLength) 0 length s
      let dst := writeBuffer dst offset bytes
      if result ≠ 0 then (s, dst, result) else readPages ioFormat firstPage rest dst s

/-- `Flash_read`: the destination and the result.  The length is counted down as a signed number. -/
def flashRead (ioFormat : MssQspiIoFormat) (dst : ℕ → BitVec 8) (srcAddr len : ℕ) (s : σ) :
    Except Halt (σ × (ℕ → BitVec 8) × BitVec 8) := do
  assert (srcAddr % pageLength = 0) .flashPageBoundary
  let remainingLength := if len < 2 ^ 31 then len else 0
  return bus.readPages ioFormat (srcAddr / pageLength) (pieces pageLength 0 remainingLength) dst s

/-- The loop of `Flash_program` from the page `firstPage` on, with the status so far. -/
def programPages (buf : ℕ → BitVec 8) (firstPage : ℕ) :
    List (ℕ × ℕ) → BitVec 8 → σ → σ × BitVec 8
  | [], status, s => (s, status)
  | (offset, length) :: rest, _, s =>
      let (s, status) :=
        bus.programPage (fun i => buf (offset + i)) (firstPage + offset / pageLength) length s
      programPages buf firstPage rest status s

/-- `Flash_program` -/
def flashProgram (buf : ℕ → BitVec 8) (addr len : ℕ) (s : σ) : σ × BitVec 8 :=
  bus.programPages buf (addr / pageLength) (pieces pageLength 0 len) 0xFF (bus.disableWriteProtect s)

/-- `Flash_erase_block` -/
def flashEraseBlock (ioFormat : MssQspiIoFormat) (blockIndex : ℕ) (s : σ) :
    Except Halt (σ × BitVec 8) :=
  bus.eraseBlock ioFormat blockIndex (bus.disableWriteProtect s)

/-- The loop of `Flash_erase` over the blocks that are left, with the status so far. -/
def eraseBlocks (ioFormat : MssQspiIoFormat) : List ℕ → BitVec 8 → σ → Except Halt (σ × BitVec 8)
  | [], status, s => .ok (s, status)
  | blockIndex :: rest, _, s => do
      let (s, status) ← bus.eraseBlock ioFormat blockIndex s
      eraseBlocks ioFormat rest status s

/-- `Flash_erase` -/
def flashErase (ioFormat : MssQspiIoFormat) (s : σ) : Except Halt (σ × BitVec 8) :=
  bus.eraseBlocks ioFormat (List.range numBlocksPerDie) 0xFF (bus.disableWriteProtect s)

end QspiBus

end Hss
