import Hss.W25n.Driver

/-! A W25N01GV flash without faults, on the bus of its driver, and what each command of the driver
does to it. -/

namespace Hss

open Pieces

/-- What the flash holds: its pages, the page buffer, the write enable latch, the protection register,
and for how many more readings of its status it is busy. -/
structure W25n where
  array : ℕ → ℕ → BitVec 8
  buffer : ℕ → BitVec 8
  wel : Bool
  protection : BitVec 8
  busy : ℕ

/-- For how many readings of its status the flash is busy with a page or a block: fewer than the driver
waits. -/
structure W25nDelay where
  polls : ℕ
  polls_lt : polls < maxSpinCount

/-- An address or a page number of two bytes. -/
def twoBytes (high low : BitVec 8) : ℕ := high.toNat * 256 + low.toNat

theorem twoBytes_eq {n : ℕ} (less : n < 65536) : twoBytes (highByte n) (lowByte n) = n := by
  simp only [twoBytes, highByte, lowByte, BitVec.toNat_ofNat, Nat.shiftRight_eq_div_pow]
  omega

theorem QspiBus.spin_once {σ : Type} {bus : QspiBus σ} {again : BitVec 8 → Bool} {s : σ} (polls : ℕ)
    (enough : again (bus.readStatusreg statusReg3 s).2 = false) :
    bus.spin again (polls + 1) s = bus.readStatusreg statusReg3 s := by
  simp [QspiBus.spin, enough]

/-- A loop that waits until a device has counted down to zero, one with each reading of its status. -/
theorem QspiBus.spin_counted {σ : Type} {bus : QspiBus σ} {again : BitVec 8 → Bool} (state : ℕ → σ)
    {status : ℕ → BitVec 8}
    (reads : ∀ busy, bus.readStatusreg statusReg3 (state busy) = (state (busy - 1), status busy))
    (waits : ∀ busy, again (status busy) = decide (busy ≠ 0)) {busy polls : ℕ} (less : busy < polls) :
    bus.spin again polls (state busy) = (state 0, status 0) := by
  induction polls generalizing busy with
  | zero => exact absurd less (Nat.not_lt_zero _)
  | succ polls ih =>
    rw [QspiBus.spin, reads]
    dsimp only
    rw [waits]
    cases busy with
    | zero => simp
    | succ left =>
      rw [if_pos (by simp; omega)]
      exact ih (by omega)

namespace W25n

/-- A status register: of the third one, the bits of a device that does not fail. -/
def statusRegister (s : W25n) (address : BitVec 8) : BitVec 8 :=
  if address = statusReg1 then s.protection
  else if address = statusReg3 then
    (if s.wel then statusReg3Wel else 0) ||| (if s.busy ≠ 0 then statusReg3Busy else 0)
  else 0

/-- The opcodes of the reads from the page buffer, each with its dummy cycles. -/
def bufferReads : List (BitVec 8 × ℕ) :=
  [(fastReadOpcode, 8), (fastReadDualOutputOpcode, 8), (fastReadQuadIoOpcode, 4)]

/-- A frame on the bus.  The controller sends at most 511 bytes, and while the flash is busy it
accepts nothing but a reading of its status. -/
def transfer (delay : W25nDelay) (s : W25n) (frame : Bytes) (numIdleCycles : ℕ) :
    W25n × (ℕ → BitVec 8) :=
  let opcode := frame.headD 0
  let column := twoBytes (frame.getD 1 0) (frame.getD 2 0)
  let page := twoBytes (frame.getD 2 0) (frame.getD 3 0)
  let nothing : ℕ → BitVec 8 := fun _ => 0
  if 511 < frame.length then (s, nothing)
  else if opcode = readStatusRegOpcode then
    ({ s with busy := s.busy - 1 }, fun _ => s.statusRegister (frame.getD 1 0))
  else if s.busy ≠ 0 then (s, nothing)
  else if opcode = writeEnableOpcode then ({ s with wel := true }, nothing)
  else if opcode = writeStatusRegOpcode then
    ({ s with protection :=
      if frame.getD 1 0 = statusReg1 then frame.getD 2 0 else s.protection }, nothing)
  else if opcode = pageDataReadOpcode then
    ({ s with buffer := s.array page, wel := false, busy := delay.polls }, nothing)
  else if (opcode, numIdleCycles) ∈ bufferReads then (s, fun i => s.buffer (column + i))
  else if s.wel = false then (s, nothing)
  -- A load resets the buffer, a random load does not.
  else if opcode = loadProgramDataOpcode then
    ({ s with buffer := writeBuffer (fun _ => 0xFF) column (frame.drop 3) }, nothing)
  else if opcode = randomLoadProgramDataOpcode then
    ({ s with buffer := writeBuffer s.buffer column (frame.drop 3) }, nothing)
  else if s.protection ≠ 0 then (s, nothing)
  -- Programming clears bits, so that an erased page comes to hold what is in the buffer.
  else if opcode = programExecuteOpcode then
    ({ s with
      array := Function.update s.array page fun column => s.array page column &&& s.buffer column
      wel := false
      busy := delay.polls }, nothing)
  else if opcode = blockEraseOpcode then
    ({ s with
      array := fun p => if p / numPagesPerBlock = page / numPagesPerBlock then fun _ => 0xFF
        else s.array p
      wel := false
      busy := delay.polls }, nothing)
  else (s, nothing)

/-- The bus with the flash on it. -/
def bus (delay : W25nDelay) : QspiBus W25n := ⟨transfer delay⟩

variable {d : W25nDelay} {s : W25n}

theorem statusRegister_three : s.statusRegister statusReg3 =
    (if s.wel then statusReg3Wel else 0) ||| (if s.busy ≠ 0 then statusReg3Busy else 0) := by
  rw [statusRegister, if_neg (by decide), if_pos rfl]

theorem polledTransferBlock_eq (numAddrBytes : ℕ) (txBuffer : ℕ → BitVec 8)
    (txByteSize rdByteSize numIdleCycles : ℕ) :
    (bus d).polledTransferBlock numAddrBytes txBuffer txByteSize rdByteSize numIdleCycles s =
      let frame := firstBytes txBuffer (1 + txByteSize + numAddrBytes)
      ((transfer d s frame numIdleCycles).1,
        firstBytes (transfer d s frame numIdleCycles).2 rdByteSize) :=
  rfl

theorem readStatusreg_eq (address : BitVec 8) :
    (bus d).readStatusreg address s = ({ s with busy := s.busy - 1 }, s.statusRegister address) :=
  rfl

theorem disableWriteProtect_eq (ready : s.busy = 0) :
    (bus d).disableWriteProtect s = { s with protection := 0 } := by
  show (transfer d s [writeStatusRegOpcode, statusReg1, 0] 0).1 = _
  simp [transfer, ready, writeStatusRegOpcode, readStatusRegOpcode, writeEnableOpcode]

/-! ### Waits -/

theorem spin_once {again : BitVec 8 → Bool} (polls : ℕ)
    (enough : again (s.statusRegister statusReg3) = false) :
    (bus d).spin again (polls + 1) s =
      ({ s with busy := s.busy - 1 }, s.statusRegister statusReg3) :=
  QspiBus.spin_once polls enough

/-- A loop that waits for as long as the flash is busy. -/
theorem spin_busy {again : BitVec 8 → Bool} {polls : ℕ} (less : s.busy < polls)
    (waits : ∀ busy, again (statusRegister { s with busy := busy } statusReg3) = decide (busy ≠ 0)) :
    (bus d).spin again polls s =
      ({ s with busy := 0 }, statusRegister { s with busy := 0 } statusReg3) :=
  QspiBus.spin_counted (fun busy => { s with busy := busy }) (fun _ => rfl) waits less

theorem waitIfBusy_eq (less : s.busy < maxSpinCount) :
    (bus d).waitIfBusy s = { s with busy := 0 } := by
  rw [QspiBus.waitIfBusy, spin_busy less]
  intro busy
  rw [statusRegister_three]
  cases s.wel <;> by_cases none : busy = 0 <;> simp [none] <;> decide

theorem waitIfBusyOrWel_eq (less : s.busy < maxSpinCount) (off : s.wel = false) :
    (bus d).waitIfBusyOrWel s = ({ s with busy := 0 }, 0) := by
  rw [QspiBus.waitIfBusyOrWel, spin_busy less]
  · rw [statusRegister_three]
    simp [off]
  · intro busy
    rw [statusRegister_three]
    by_cases none : busy = 0 <;> simp [off, none]
    decide

theorem sendWriteEnableCommand_eq (ready : s.busy = 0) :
    (bus d).sendWriteEnableCommand s = { s with wel := true } := by
  have enable : (transfer d s [writeEnableOpcode] 0).1 = { s with wel := true } := by
    simp [transfer, ready, writeEnableOpcode, readStatusRegOpcode]
  show (bus d).waitForWel (transfer d s [writeEnableOpcode] 0).1 = _
  rw [enable, QspiBus.waitForWel, show maxSpinCount = 0xFFFFFF + 1 from rfl, spin_once]
  · simp [ready]
  · rw [statusRegister_three]
    simp [ready]
    decide

/-! ### Commands -/

/-- A load at a column, after which the page buffer holds the data there; a first load resets it. -/
theorem transfer_load (ready : s.busy = 0) (enabled : s.wel = true) {column : ℕ}
    (less : column < 65536) {data : Bytes} (short : data.length ≤ mssQspiCmdbytesLimit) :
    (transfer d s ((if column = 0 then loadProgramDataOpcode else randomLoadProgramDataOpcode) ::
        highByte column :: lowByte column :: data) 0).1 =
      { s with buffer := writeBuffer (if column = 0 then fun _ => 0xFF else s.buffer) column data } := by
  have fits : ¬ 511 < data.length + 1 + 1 + 1 := by
    rw [mssQspiCmdbytesLimit] at short
    omega
  have place := twoBytes_eq less
  by_cases first : column = 0
  · subst first
    simp [transfer, ready, enabled, fits, place, loadProgramDataOpcode, writeEnableOpcode,
      readStatusRegOpcode, writeStatusRegOpcode, pageDataReadOpcode, bufferReads, fastReadOpcode,
      fastReadDualOutputOpcode, fastReadQuadIoOpcode]
  · simp [transfer, ready, enabled, fits, place, first, loadProgramDataOpcode, writeEnableOpcode,
      readStatusRegOpcode, writeStatusRegOpcode, pageDataReadOpcode, bufferReads, fastReadOpcode,
      fastReadDualOutputOpcode, fastReadQuadIoOpcode, randomLoadProgramDataOpcode]

theorem transfer_programExecute (ready : s.busy = 0) (enabled : s.wel = true)
    (unprotected : s.protection = 0) {page : ℕ} (less : page < 65536) :
    (transfer d s [programExecuteOpcode, 0, highByte page, lowByte page] 0).1 =
      { s with
        array := Function.update s.array page fun column => s.array page column &&& s.buffer column
        wel := false
        busy := d.polls } := by
  simp [transfer, ready, enabled, unprotected, twoBytes_eq less, programExecuteOpcode,
    loadProgramDataOpcode, writeEnableOpcode, readStatusRegOpcode, writeStatusRegOpcode,
    pageDataReadOpcode, bufferReads, fastReadOpcode, fastReadDualOutputOpcode, fastReadQuadIoOpcode,
    randomLoadProgramDataOpcode]

theorem transfer_pageDataRead (ready : s.busy = 0) {page : ℕ} (less : page < 65536) :
    (transfer d s [pageDataReadOpcode, 0, highByte page, lowByte page] 0).1 =
      { s with buffer := s.array page, wel := false, busy := d.polls } := by
  simp [transfer, ready, twoBytes_eq less, writeEnableOpcode, readStatusRegOpcode,
    writeStatusRegOpcode, pageDataReadOpcode]

/-- The reads of each format, with the dummy cycles that they take. -/
theorem transfer_bufferRead (ready : s.busy = 0) (ioFormat : MssQspiIoFormat) {column : ℕ}
    (less : column < 65536) :
    transfer d s [(QspiBus.readCommand ioFormat).1, highByte column, lowByte column]
        (QspiBus.readCommand ioFormat).2 =
      (s, fun i => s.buffer (column + i)) := by
  cases ioFormat <;>
    simp [transfer, ready, twoBytes_eq less, QspiBus.readCommand, bufferReads, writeEnableOpcode,
      readStatusRegOpcode, writeStatusRegOpcode, pageDataReadOpcode, fastReadOpcode,
      fastReadDualOutputOpcode, fastReadQuadIoOpcode]

end W25n

end Hss
