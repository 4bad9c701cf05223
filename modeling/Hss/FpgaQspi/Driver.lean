import Hss.Lib.Fuel
import Mathlib.Data.BitVec

/-! The driver of the QSPI controller in the FPGA fabric that serves the SPI NAND, with a record of its
accesses to the registers of the controller and to the data of the caller.  What the code does where C
leaves it undefined (an access outside a local object, a shift by the width or more, a signed overflow)
is no result. -/

namespace Hss.FpgaQspi

open Fuel

/-! ### Operations -/

/-- `enum spi_mem_data_dir` -/
inductive DataDir
  | noData
  | dataIn
  | dataOut
  deriving DecidableEq, Repr

structure OpCmd where
  nbytes : BitVec 8
  buswidth : BitVec 8
  opcode : BitVec 16

structure OpAddr where
  nbytes : BitVec 8
  buswidth : BitVec 8
  val : BitVec 64

structure OpDummy where
  nbytes : BitVec 8

/-- The data of an operation; `out` is what the buffer holds that is sent. -/
structure OpData where
  buswidth : BitVec 8
  dir : DataDir
  nbytes : BitVec 32
  out : ℕ → BitVec 8

/-- `struct spi_mem_op` -/
structure SpiMemOp where
  cmd : OpCmd
  addr : OpAddr
  dummy : OpDummy
  data : OpData

def maxDataCmdLen : BitVec 32 := 0x440

/-- `scai_fpgaqspi_adjust_op_size` -/
def adjustOpSize (op : SpiMemOp) : SpiMemOp :=
  if op.data.dir = .dataOut ∧ maxDataCmdLen < op.data.nbytes then
    { op with data := { op.data with nbytes := maxDataCmdLen } }
  else op

/-- `scai_fpgaqspi_supports_op` -/
def supportsOp (op : SpiMemOp) : Bool :=
  if (op.data.buswidth = 2 ∨ op.data.buswidth = 4) ∧ (op.cmd.buswidth = 1 ∧ op.addr.buswidth ≤ 1) ∧
      op.data.dir = .dataOut then false
  else true

/-! ### The controller -/

/-- The registers that an operation uses; `CTRL1` and `STATUS1` are at one address. -/
inductive Register
  | data
  | ctrl1
  | status1
  | status2
  deriving DecidableEq, Repr

/-- An access to a register, or to the buffer of the operation. -/
inductive Access
  | readl (reg : Register) (value : BitVec 32)
  | writel (value : BitVec 32) (reg : Register)
  | load (offset : ℕ)
  | store (offset : ℕ) (byte : BitVec 8)
  deriving DecidableEq, Repr

/-- The accesses made, the last one first. -/
abbrev History := List Access

/-- A controller: what its registers read as after the accesses so far. -/
structure Controller where
  readl : Register → History → BitVec 32

def ctrl1ChipEnable : BitVec 32 := 1
def ctrl1DataModeWord : BitVec 32 := 1 <<< 3
def ctrl1LaneWidthX4 : BitVec 32 := 1 <<< 4
def ctrl1Start : BitVec 32 := 1 <<< 9
def ctrl1TxCount (n : BitVec 32) : BitVec 32 := (n &&& 0x7FF) <<< 10
def ctrl1RxCount (n : BitVec 32) : BitVec 32 := (n &&& 0x7FF) <<< 21

def status1Idle : BitVec 32 := 1
def status2RxFifoEmpty : BitVec 32 := 1 <<< 1
def status2TxFifoFull : BitVec 32 := 1 <<< 16

/-- `TIMEOUT_MS` -/
def timeoutMs : ℕ := 1000 * 500

/-- `ETIMEDOUT` -/
def etimedout : ℤ := 116

/-- What an operation works on: the copy of `CTRL1` that the driver keeps, and the accesses so far. -/
structure State where
  ctrl1SwCopy : BitVec 32
  history : History

section
variable (c : Controller)

/-- `readl` -/
def readl (reg : Register) (h : History) : BitVec 32 × History :=
  (c.readl reg h, .readl reg (c.readl reg h) :: h)

/-- The loop of `scai_fpgaqspi_wait_for_ready`. -/
def pollIdle : ℕ → History → ℤ × History
  | 0, h => (-etimedout, h)
  | count + 1, h =>
      let status := readl c .status1 h
      if status.1 &&& status1Idle ≠ 0 then (0, status.2) else pollIdle count status.2

/-- `scai_fpgaqspi_wait_for_ready` -/
def waitForReady (h : History) : ℤ × History := pollIdle c timeoutMs h

/-- `do status = readl(STATUS2); while (status & mask);` -/
def waitStatus2 (mask : BitVec 32) (fuel : ℕ) (h : History) : Result History := do
  let last ← whileLoop (fun s => s.1 &&& mask != 0) (fun s => .ok (readl c .status2 s.2)) fuel
    (readl c .status2 h)
  return last.2

/-- `scai_fpgaqspi_set_operate_mode` -/
def setOperateMode (word : Bool) (s : State) : State :=
  let ctrl := s.ctrl1SwCopy &&& ~~~(ctrl1LaneWidthX4 ||| ctrl1DataModeWord)
  { s with ctrl1SwCopy := if word then ctrl ||| (ctrl1LaneWidthX4 ||| ctrl1DataModeWord) else ctrl }

def writeCtrl1 (ctrl : BitVec 32) (s : State) : State := ⟨ctrl, .writel ctrl .ctrl1 :: s.history⟩

/-- `scai_fpgaqspi_start_transaction` -/
def startTransaction (txLen rxLen : BitVec 32) (s : State) : State :=
  let ctrl := s.ctrl1SwCopy &&& ~~~(ctrl1TxCount 0x7FF ||| ctrl1RxCount 0x7FF)
  let ctrl := ctrl ||| (ctrl1TxCount txLen ||| ctrl1RxCount rxLen)
  writeCtrl1 (ctrl ||| (ctrl1Start ||| ctrl1ChipEnable)) s

/-- `scai_fpgaqspi_finish_transaction` -/
def finishTransaction (keepCe : Bool) (s : State) : State :=
  let ctrl1 := s.ctrl1SwCopy &&& ~~~(ctrl1Start ||| ctrl1TxCount 0x7FF ||| ctrl1RxCount 0x7FF)
  writeCtrl1 (if keepCe then ctrl1 else ctrl1 &&& ~~~ctrl1ChipEnable) s

/-! ### Moving elements -/

/-- What `tx_buf` points at: a local object with its bytes, or the data of the operation. -/
inductive TxBuf
  | stack (object : List (BitVec 8))
  | data (out : ℕ → BitVec 8)

def TxBuf.load : TxBuf → ℕ → History → Result (BitVec 8 × History)
  | .stack object, offset, h =>
      match object[offset]? with
      | some byte => .ok (byte, h)
      | none => .error .undefined
  | .data out, offset, h => .ok (out offset, .load offset :: h)

/-- `*(uint32_t *)tx_buf` -/
def TxBuf.loadWord (buf : TxBuf) (offset : ℕ) (h : History) : Result (BitVec 32 × History) := do
  let b0 ← buf.load offset h
  let b1 ← buf.load (offset + 1) b0.2
  let b2 ← buf.load (offset + 2) b1.2
  let b3 ← buf.load (offset + 3) b2.2
  return (b3.1 ++ b2.1 ++ b1.1 ++ b0.1, b3.2)

/-- `*(uint32_t *)rx_buf = data` -/
def storeWord (offset : ℕ) (data : BitVec 32) (h : History) : History :=
  .store (offset + 3) (data.extractLsb' 24 8) :: .store (offset + 2) (data.extractLsb' 16 8) ::
    .store (offset + 1) (data.extractLsb' 8 8) :: .store offset (data.extractLsb' 0 8) :: h

/-- `__swap32` -/
def swap32 (data : BitVec 32) : BitVec 32 :=
  data.extractLsb' 0 8 ++ data.extractLsb' 8 8 ++ data.extractLsb' 16 8 ++ data.extractLsb' 24 8

/-- A byte as it is written to the FIFO. -/
def txByte (byte : BitVec 8) : BitVec 32 :=
  (byte.setWidth 32 <<< 24 &&& 0xFF000000) ||| ~~~0xFF000000

/-- A loop in progress: the place in the buffer, `tx_len` or `rx_len`, and the accesses so far. -/
structure Transfer where
  offset : ℕ
  len : ℤ
  history : History

/-- `len - n`, of type `int` -/
def subtract (len n : ℤ) : Result ℤ :=
  if -2 ^ 31 ≤ len - n then .ok (len - n) else .error .undefined

/-- A turn of the loop over bytes of `scai_fpgaqspi_write_op`. -/
def writeByteTurn (buf : TxBuf) (fuel : ℕ) (t : Transfer) : Result Transfer := do
  let len ← subtract t.len 1
  let h ← waitStatus2 c status2TxFifoFull fuel t.history
  let byte ← buf.load t.offset h
  return ⟨t.offset + 1, len, .writel (txByte byte.1) .data :: byte.2⟩

/-- A turn of the loop over words of `scai_fpgaqspi_write_op`. -/
def writeWordTurn (buf : TxBuf) (fuel : ℕ) (t : Transfer) : Result Transfer := do
  let h ← waitStatus2 c status2TxFifoFull fuel t.history
  let data ← buf.loadWord t.offset h
  let len ← subtract t.len 4
  return ⟨t.offset + 4, len, .writel data.1 .data :: data.2⟩

/-- A turn of the loop over bytes of `scai_fpgaqspi_read_op`. -/
def readByteTurn (fuel : ℕ) (t : Transfer) : Result Transfer := do
  let len ← subtract t.len 1
  let h ← waitStatus2 c status2RxFifoEmpty fuel t.history
  let data := readl c .data h
  return ⟨t.offset + 1, len, .store t.offset (data.1.setWidth 8) :: data.2⟩

/-- A turn of the loop over words of `scai_fpgaqspi_read_op`. -/
def readWordTurn (fuel : ℕ) (t : Transfer) : Result Transfer := do
  let h ← waitStatus2 c status2RxFifoEmpty fuel t.history
  let data := readl c .data h
  let len ← subtract t.len 4
  return ⟨t.offset + 4, len, storeWord t.offset (swap32 data.1) data.2⟩

/-- `while (len)` over the turns of a transfer, from the start of its buffer. -/
def transfer (turn : ℕ → Transfer → Result Transfer) (len : ℤ) (fuel : ℕ) (h : History) :
    Result History := do
  let last ← whileLoop (fun t => t.len != 0) (turn fuel) fuel ⟨0, len, h⟩
  return last.history

/-- `scai_fpgaqspi_write_op`, which always returns 0. -/
def writeOp (buf : TxBuf) (txLen : ℤ) (word : Bool) (fuel : ℕ) (h : History) : Result History :=
  transfer (if word then writeWordTurn c buf else writeByteTurn c buf) txLen fuel h

/-- `scai_fpgaqspi_read_op`, with what it returns. -/
def readOp (rxLen : ℤ) (word : Bool) (fuel : ℕ) (h : History) : Result (ℤ × History) :=
  if rxLen = 0 then .ok (-1, h)
  else do
    let h ← transfer (if word then readWordTurn c else readByteTurn c) rxLen fuel h
    return (0, h)

/-! ### An operation -/

/-- `total_tx_bytes` -/
def totalTxBytes (op : SpiMemOp) : BitVec 32 :=
  let header := op.cmd.nbytes.setWidth 32 + op.addr.nbytes.setWidth 32 + op.dummy.nbytes.setWidth 32
  if op.data.dir = .dataOut then header + op.data.nbytes else header

/-- `total_rx_bytes` -/
def totalRxBytes (op : SpiMemOp) : BitVec 32 :=
  let received := if op.data.buswidth = 1 then op.data.nbytes else 0
  if op.data.dir = .dataOut then received - op.data.nbytes else received

def sendOpcode (op : SpiMemOp) (fuel : ℕ) (h : History) : Result History :=
  if op.cmd.opcode ≠ 0 then
    writeOp c (.stack [op.cmd.opcode.setWidth 8]) op.cmd.nbytes.toNat false fuel h
  else .ok h

/-- The loop that sets `opaddr`, with so many bytes left to set. -/
def opaddrLoop (address : BitVec 32) (nbytes : ℕ) :
    ℕ → List (BitVec 8) → Result (List (BitVec 8))
  | 0, opaddr => .ok opaddr
  | left + 1, opaddr =>
      let i := nbytes - (left + 1)
      let shift := 8 * (nbytes - i - 1)
      if shift < 32 ∧ i < opaddr.length then
        opaddrLoop address nbytes left (opaddr.set i ((address >>> shift).setWidth 8))
      else .error .undefined

/-- `uint8_t opaddr[32]`, after its `memset` -/
def opaddrZero : List (BitVec 8) := List.replicate 32 0

def sendAddress (op : SpiMemOp) (fuel : ℕ) (h : History) : Result History :=
  if op.addr.nbytes ≠ 0 then do
    let opaddr ← opaddrLoop (op.addr.val.setWidth 32) op.addr.nbytes.toNat op.addr.nbytes.toNat opaddrZero
    writeOp c (.stack opaddr) op.addr.nbytes.toNat false fuel h
  else .ok h

def sendDummy (op : SpiMemOp) (fuel : ℕ) (h : History) : Result History :=
  if op.dummy.nbytes ≠ 0 then writeOp c (.stack opaddrZero) op.dummy.nbytes.toNat false fuel h
  else .ok h

/-- The data of an operation, in bytes or in words.  Nobody looks at what `scai_fpgaqspi_read_op`
returns. -/
def moveData (op : SpiMemOp) (word : Bool) (fuel : ℕ) (h : History) : Result History :=
  match op.data.dir with
  | .dataOut => writeOp c (.data op.data.out) op.data.nbytes.toInt word fuel h
  | .dataIn => do
      let read ← readOp c op.data.nbytes.toInt word fuel h
      return read.2
  | .noData => .ok h

def byteData (op : SpiMemOp) (fuel : ℕ) (h : History) : Result History :=
  if op.data.nbytes ≠ 0 ∧ op.data.buswidth = 1 then moveData c op false fuel h else .ok h

/-- `__do_exec_byte_op` -/
def execByteOp (op : SpiMemOp) (fuel : ℕ) (s : State) : Result State := do
  let s := startTransaction (totalTxBytes op) (totalRxBytes op) (setOperateMode false s)
  let h ← sendOpcode c op fuel s.history
  let h ← sendAddress c op fuel h
  let h ← sendDummy c op fuel h
  let h ← byteData c op fuel h
  return finishTransaction true { s with history := h }

/-- `__do_exec_word_op` -/
def execWordOp (op : SpiMemOp) (fuel : ℕ) (s : State) : Result State :=
  if op.data.buswidth = 4 then do
    let words := (op.data.nbytes + 3) / 4
    let s := startTransaction (if op.data.dir = .dataOut then words else 0)
      (if op.data.dir = .dataOut then 0 else words) (setOperateMode true s)
    let h ← moveData c op true fuel s.history
    return finishTransaction false { s with history := h }
  else .ok (finishTransaction false s)

/-- `scai_fpgaqspi_exec_op` -/
def execOp (op : SpiMemOp) (fuel : ℕ) (s : State) : Result (ℤ × State) :=
  let ready := waitForReady c s.history
  if ready.1 ≠ 0 then .ok (ready.1, { s with history := ready.2 })
  else do
    let s ← execByteOp c op fuel { s with history := ready.2 }
    let s ← execWordOp c op fuel s
    return (0, s)

end

end Hss.FpgaQspi
