import Hss.W25n.Driver

/-! The QSPI controller in the FPGA fabric: transactions over its registers and FIFOs. -/

namespace Hss

def scaiFpgaFifoTimeout : ℕ := 100000
def scaiFpgaFifoLength : ℕ := 64

/-- `Scai_Qspi_Ctrl_1_Reg_t`: the data mode is set for words, the lane width for four lanes. -/
structure ScaiQspiCtrl1 where
  chipEnable : Bool
  nwp : Bool
  dataMode : Bool
  laneWidth : Bool
  start : Bool
  txCount : BitVec 11
  rxCount : BitVec 11

def idleCtrl1 : ScaiQspiCtrl1 := ⟨false, false, false, false, false, 0, 0⟩

/-- The counters of `Scai_Qspi_Status_2_Reg_t`: the elements in each FIFO. -/
structure ScaiQspiStatus2 where
  txFifoWrCnt : ℕ
  rxFifoRdCnt : ℕ
  txFifoWrCnt_le : txFifoWrCnt ≤ scaiFpgaFifoLength

def ScaiQspiStatus2.txFifoFull (status2 : ScaiQspiStatus2) : Bool :=
  status2.txFifoWrCnt = scaiFpgaFifoLength

def ScaiQspiStatus2.rxFifoEmpty (status2 : ScaiQspiStatus2) : Bool := status2.rxFifoRdCnt = 0

/-- The registers of the controller, over the state of whatever is behind them. -/
structure ScaiQspi (σ : Type) where
  setCtrl1 : ScaiQspiCtrl1 → σ → σ
  setData : BitVec 32 → σ → σ
  getData : σ → σ × BitVec 32
  getIdle : σ → σ × Bool
  getStatus2 : σ → σ × ScaiQspiStatus2

/-- `scai_fpga_channel_t`, with the controller at its base address. -/
structure ScaiFpgaChannel (σ : Type) where
  ctrl1State : ScaiQspiCtrl1
  format : MssQspiIoFormat
  hardware : σ

/-- `scai_fpga_transaction_t`: the bytes to transmit, and the place in memory of those received. -/
structure ScaiFpgaTransaction where
  txBuffer : ℕ → BitVec 8 := fun _ => 0
  txLen : ℕ := 0
  rxBuffer : ℕ := 0
  rxLen : ℕ := 0
  keepCeActive : Bool := false
  dataSizeIsWord : Bool := false

/-- An element of a buffer as the FIFO takes it: a word of four bytes, or a byte on top of ones. -/
def txElement (dataSizeIsWord : Bool) (buffer : ℕ → BitVec 8) (i : ℕ) : BitVec 32 :=
  if dataSizeIsWord then
    buffer (4 * i + 3) ++ buffer (4 * i + 2) ++ buffer (4 * i + 1) ++ buffer (4 * i)
  else buffer i ++ (0xFFFFFF : BitVec 24)

/-- The bytes of a word in memory. -/
def wordBytes (value : BitVec 32) : Bytes :=
  [value.extractLsb' 0 8, value.extractLsb' 8 8, value.extractLsb' 16 8, value.extractLsb' 24 8]

/-- An element from the FIFO stored as element `i` of the buffer at `rxBuffer`. -/
def storeElement (dataSizeIsWord : Bool) (rxBuffer i : ℕ) (value : BitVec 32)
    (memory : ℕ → BitVec 8) : ℕ → BitVec 8 :=
  if dataSizeIsWord then writeBuffer memory (rxBuffer + 4 * i) (wordBytes value)
  else writeBuffer memory (rxBuffer + i) [value.extractLsb' 0 8]

variable {σ : Type}

namespace ScaiQspi

variable (qspi : ScaiQspi σ)

/-! ### FIFOs -/

/-- The loop that waits for space in the FIFO, until the timeout. -/
def waitTxSpace : ℕ → σ → σ × Option ScaiQspiStatus2
  | 0, s => (s, none)
  | timeoutCounter + 1, s =>
      let (s, status2) := qspi.getStatus2 s
      if status2.txFifoFull then waitTxSpace timeoutCounter s else (s, some status2)

/-- `chunkSize` elements from number `i` on. -/
def writeChunk (element : ℕ → BitVec 32) : ℕ → ℕ → σ → σ
  | 0, _, s => s
  | chunkSize + 1, i, s => writeChunk element chunkSize (i + 1) (qspi.setData (element i) s)

/-- `qspi_fpga_fifo_write` after `elementsWritten`, with the number of elements written.  A FIFO that
is not full takes an element, so there are no more rounds than elements. -/
def fifoWrite (element : ℕ → BitVec 32) (txLen : ℕ) : ℕ → ℕ → σ → σ × ℕ
  | 0, elementsWritten, s => (s, elementsWritten)
  | rounds + 1, elementsWritten, s =>
      if txLen ≤ elementsWritten then (s, elementsWritten)
      else
        match qspi.waitTxSpace scaiFpgaFifoTimeout s with
        | (s, none) => (s, elementsWritten)
        | (s, some status2) =>
            let freeSpaceWords := scaiFpgaFifoLength - status2.txFifoWrCnt
            let chunkSize := min (txLen - elementsWritten) freeSpaceWords
            fifoWrite element txLen rounds (elementsWritten + chunkSize)
              (qspi.writeChunk element chunkSize elementsWritten s)

/-- The loop that waits for data in the FIFO, until the timeout. -/
def waitRxData : ℕ → σ → σ × Option ScaiQspiStatus2
  | 0, s => (s, none)
  | timeoutCounter + 1, s =>
      let (s, status2) := qspi.getStatus2 s
      if status2.rxFifoEmpty then waitRxData timeoutCounter s else (s, some status2)

/-- `chunkSize` elements stored from number `i` on. -/
def readChunk (store : ℕ → BitVec 32 → (ℕ → BitVec 8) → ℕ → BitVec 8) :
    ℕ → ℕ → (ℕ → BitVec 8) → σ → σ × (ℕ → BitVec 8)
  | 0, _, memory, s => (s, memory)
  | chunkSize + 1, i, memory, s =>
      let (s, value) := qspi.getData s
      readChunk store chunkSize (i + 1) (store i value memory) s

/-- The loop of `qspi_fpga_fifo_read` after `elementsRead`. -/
def fifoReadLoop (store : ℕ → BitVec 32 → (ℕ → BitVec 8) → ℕ → BitVec 8) (rxLen : ℕ) :
    ℕ → ℕ → (ℕ → BitVec 8) → σ → σ × (ℕ → BitVec 8) × ℕ
  | 0, elementsRead, memory, s => (s, memory, elementsRead)
  | rounds + 1, elementsRead, memory, s =>
      if rxLen ≤ elementsRead then (s, memory, elementsRead)
      else
        match qspi.waitRxData scaiFpgaFifoTimeout s with
        | (s, none) => (s, memory, elementsRead)
        | (s, some status2) =>
            let chunkSize := min (rxLen - elementsRead) status2.rxFifoRdCnt
            let (s, memory) := qspi.readChunk store chunkSize elementsRead memory s
            fifoReadLoop store rxLen rounds (elementsRead + chunkSize) memory s

/-- The elements that are left in the FIFO are read and dropped. -/
def dropElements : ℕ → σ → σ
  | 0, s => s
  | words + 1, s => dropElements words (qspi.getData s).1

/-- `qspi_fpga_fifo_read`: the memory, and the number of elements read.  After a timeout the FIFO is
not cleaned up. -/
def fifoRead (store : ℕ → BitVec 32 → (ℕ → BitVec 8) → ℕ → BitVec 8) (rxLen : ℕ)
    (memory : ℕ → BitVec 8) (s : σ) : σ × (ℕ → BitVec 8) × ℕ :=
  let (s, memory, elementsRead) := qspi.fifoReadLoop store rxLen rxLen 0 memory s
  if elementsRead < rxLen then (s, memory, elementsRead)
  else
    let (s, status2) := qspi.getStatus2 s
    (qspi.dropElements status2.rxFifoRdCnt s, memory, elementsRead)

/-- `qspi_fpga_wait_idle` -/
def waitIdle : ℕ → σ → σ × Bool
  | 0, s => (s, false)
  | timeoutCounter + 1, s =>
      let (s, idle) := qspi.getIdle s
      if idle then (s, true) else waitIdle timeoutCounter s

end ScaiQspi

/-! ### Transactions -/

namespace ScaiFpgaChannel

/-- `qspi_fpga_update_ctrl1` at the start: the counts have 11 bits. -/
def started (params : ScaiFpgaTransaction) (ctrl1 : ScaiQspiCtrl1) : ScaiQspiCtrl1 :=
  { ctrl1 with
    txCount := BitVec.ofNat 11 params.txLen
    rxCount := BitVec.ofNat 11 params.rxLen
    start := true
    chipEnable := true }

/-- `qspi_fpga_update_ctrl1` at the end -/
def finalized (params : ScaiFpgaTransaction) (ctrl1 : ScaiQspiCtrl1) : ScaiQspiCtrl1 :=
  { ctrl1 with
    start := false
    txCount := 0
    rxCount := 0
    chipEnable := if params.keepCeActive then ctrl1.chipEnable else false }

variable (qspi : ScaiQspi σ)

/-- `set_ctrl_1` -/
def setCtrl1 (channel : ScaiFpgaChannel σ) : ScaiFpgaChannel σ :=
  { channel with hardware := qspi.setCtrl1 channel.ctrl1State channel.hardware }

/-- `scai_fpga_transaction`, with the memory that it stores to. -/
def transaction (params : ScaiFpgaTransaction) (memory : ℕ → BitVec 8)
    (channel : ScaiFpgaChannel σ) : ScaiFpgaChannel σ × (ℕ → BitVec 8) :=
  let channel :=
    setCtrl1 qspi { channel with ctrl1State := started params channel.ctrl1State }
  let s :=
    if params.txLen > 0 then
      (qspi.fifoWrite (txElement params.dataSizeIsWord params.txBuffer) params.txLen params.txLen 0
        channel.hardware).1
    else channel.hardware
  let (s, memory) :=
    if params.rxLen > 0 then
      let (s, memory, _) :=
        qspi.fifoRead (storeElement params.dataSizeIsWord params.rxBuffer) params.rxLen memory s
      (s, memory)
    else (s, memory)
  let (s, _) := qspi.waitIdle scaiFpgaFifoTimeout s
  let channel := { channel with ctrl1State := finalized params channel.ctrl1State, hardware := s }
  (setCtrl1 qspi channel, memory)

variable (channel : ScaiFpgaChannel σ)

def setWordMode : ScaiFpgaChannel σ :=
  { channel with ctrl1State := { channel.ctrl1State with dataMode := true } }

def setByteMode : ScaiFpgaChannel σ :=
  { channel with ctrl1State := { channel.ctrl1State with dataMode := false } }

def setQspiMode : ScaiFpgaChannel σ :=
  { channel with ctrl1State := { channel.ctrl1State with laneWidth := true } }

def setSpiMode : ScaiFpgaChannel σ :=
  { channel with ctrl1State := { channel.ctrl1State with laneWidth := false } }

/-- `scai_fpga_disable_write_protect` -/
def disableWriteProtect : ScaiFpgaChannel σ :=
  setCtrl1 qspi { channel with ctrl1State := { channel.ctrl1State with nwp := true } }

/-- `scai_fpga_enable_write_protect` -/
def enableWriteProtect : ScaiFpgaChannel σ :=
  setCtrl1 qspi { channel with ctrl1State := { channel.ctrl1State with nwp := false } }

end ScaiFpgaChannel

end Hss
