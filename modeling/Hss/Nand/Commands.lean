import Hss.FpgaQspi.Frames
import Hss.Nand.SpiNand

/-! The commands of a SPI NAND as the driver gives them: operations of the controller in the fabric.  A
chip that does by its frames what data sheets say is a SPI NAND behind the controller. -/

namespace Hss.Nand

open FpgaQspi

/-! ### Operations -/

/-- `SPI_MEM_OP_NO_DATA` -/
def noData : OpData where
  buswidth := 0
  dir := .noData
  nbytes := 0
  out _ := 0

/-- `SPI_MEM_OP` with the macros for its parts, without dummy bytes. -/
def spiMemOp (opcode : BitVec 16) (addr : OpAddr) (data : OpData) : SpiMemOp where
  cmd := { nbytes := 1, buswidth := 1, opcode := opcode }
  addr := addr
  dummy := { nbytes := 0 }
  data := data

/-- `SPINAND_WR_EN_DIS_OP` -/
def wrEnDisOp (enable : Bool) : SpiMemOp :=
  spiMemOp (if enable then 0x06 else 0x04) { nbytes := 0, buswidth := 0, val := 0 } noData

/-- `SPINAND_SET_FEATURE_OP` -/
def setFeatureOp (reg : BitVec 64) (val : BitVec 8) : SpiMemOp :=
  spiMemOp 0x1F { nbytes := 1, buswidth := 1, val := reg }
    { buswidth := 1, dir := .dataOut, nbytes := 1, out := fun _ => val }

/-- `SPINAND_PAGE_READ_OP` -/
def pageReadOp (row : BitVec 32) : SpiMemOp :=
  spiMemOp 0x13 { nbytes := 3, buswidth := 1, val := row.setWidth 64 } noData

/-- `SPINAND_PROG_EXEC_OP` -/
def progExecOp (row : BitVec 32) : SpiMemOp :=
  spiMemOp 0x10 { nbytes := 3, buswidth := 1, val := row.setWidth 64 } noData

/-- `SPINAND_PAGE_READ_FROM_CACHE_X4_OP`, with one dummy byte. -/
def pageReadFromCacheX4Op (column : BitVec 16) (len : BitVec 32) : SpiMemOp where
  cmd := { nbytes := 1, buswidth := 1, opcode := 0x6B }
  addr := { nbytes := 2, buswidth := 1, val := column.setWidth 64 }
  dummy := { nbytes := 1 }
  data := { buswidth := 4, dir := .dataIn, nbytes := len, out := fun _ => 0 }

/-- `SPINAND_PROG_LOAD` -/
def progLoadOp (reset : Bool) (column : BitVec 16) (bytes : Bytes) : SpiMemOp :=
  spiMemOp (if reset then 0x02 else 0x84) { nbytes := 2, buswidth := 1, val := column.setWidth 64 }
    { buswidth := 1, dir := .dataOut, nbytes := BitVec.ofNat 32 bytes.length, out := (bytes.getD · 0) }

def rowBytes (row : BitVec 24) : List (BitVec 8) :=
  [row.extractLsb' 16 8, row.extractLsb' 8 8, row.extractLsb' 0 8]

def columnBytes (column : BitVec 16) : List (BitVec 8) :=
  [column.extractLsb' 8 8, column.extractLsb' 0 8]

theorem addressByte {w : ℕ} (address : BitVec w) (shift : ℕ) (le : w ≤ 32) :
    ((address.setWidth 64).setWidth 32 >>> shift).setWidth 8 = address.extractLsb' shift 8 := by
  apply BitVec.eq_of_getLsbD_eq
  intro i less
  simp only [BitVec.getLsbD_setWidth, BitVec.getLsbD_ushiftRight, BitVec.getLsbD_extractLsb']
  by_cases inside : shift + i < w
  · simp [less, show shift + i < 32 by omega, show shift + i < 64 by omega]
  · simp [BitVec.getLsbD_of_ge address (shift + i) (by omega)]

theorem extractLsb'_setWidth {w : ℕ} (v : BitVec w) {n i : ℕ} (inside : i + 8 ≤ n) :
    (v.setWidth n).extractLsb' i 8 = v.extractLsb' i 8 := by
  apply BitVec.eq_of_getLsbD_eq
  intro j less
  simp only [BitVec.getLsbD_setWidth, BitVec.getLsbD_extractLsb']
  simp [show i + j < n by omega]

theorem frameBytes_wrEnDisOp : frameBytes (adjustOpSize (wrEnDisOp true)) = [0x06] := rfl

theorem frameBytes_getFeatureOp (reg : BitVec 8) :
    frameBytes (adjustOpSize (getFeatureOp (reg.setWidth 64))) = [0x0F, reg] := by
  show [(0x0F : BitVec 8), ((reg.setWidth 64).setWidth 32 >>> 0).setWidth 8] = _
  rw [addressByte reg 0 (by decide), BitVec.extractLsb'_eq_self]

theorem frameBytes_setFeatureOp (reg val : BitVec 8) :
    frameBytes (adjustOpSize (setFeatureOp (reg.setWidth 64) val)) = [0x1F, reg, val] := by
  show [(0x1F : BitVec 8), ((reg.setWidth 64).setWidth 32 >>> 0).setWidth 8, val] = _
  rw [addressByte reg 0 (by decide), BitVec.extractLsb'_eq_self]

theorem addressSent_row {op : SpiMemOp} {row : BitVec 32}
    (addr : op.addr = { nbytes := 3, buswidth := 1, val := row.setWidth 64 }) :
    addressSent op = rowBytes (row.setWidth 24) := by
  rw [addressSent, addr]
  show [((row.setWidth 64).setWidth 32 >>> 16).setWidth 8,
    ((row.setWidth 64).setWidth 32 >>> 8).setWidth 8,
    ((row.setWidth 64).setWidth 32 >>> 0).setWidth 8] = _
  simp only [addressByte row _ (show 32 ≤ 32 by decide), rowBytes]
  rw [extractLsb'_setWidth row (by decide), extractLsb'_setWidth row (by decide),
    extractLsb'_setWidth row (by decide)]

theorem addressSent_column {op : SpiMemOp} {column : BitVec 16}
    (addr : op.addr = { nbytes := 2, buswidth := 1, val := column.setWidth 64 }) :
    addressSent op = columnBytes column := by
  rw [addressSent, addr]
  show [((column.setWidth 64).setWidth 32 >>> 8).setWidth 8,
    ((column.setWidth 64).setWidth 32 >>> 0).setWidth 8] = _
  rw [addressByte column _ (by decide), addressByte column _ (by decide), columnBytes]

theorem frameBytes_pageReadOp (row : BitVec 32) :
    frameBytes (adjustOpSize (pageReadOp row)) = 0x13 :: rowBytes (row.setWidth 24) := by
  rw [frameBytes, addressSent_row (show _ = (⟨3, 1, row.setWidth 64⟩ : OpAddr) from rfl)]
  rfl

theorem frameBytes_progExecOp (row : BitVec 32) :
    frameBytes (adjustOpSize (progExecOp row)) = 0x10 :: rowBytes (row.setWidth 24) := by
  rw [frameBytes, addressSent_row (show _ = (⟨3, 1, row.setWidth 64⟩ : OpAddr) from rfl)]
  rfl

theorem frameBytes_pageReadFromCacheX4Op (column : BitVec 16) (len : BitVec 32) :
    frameBytes (adjustOpSize (pageReadFromCacheX4Op column len)) =
      0x6B :: (columnBytes column ++ [0]) := by
  rw [frameBytes, addressSent_column (show _ = (⟨2, 1, column.setWidth 64⟩ : OpAddr) from rfl)]
  rfl

theorem frameBytes_progLoadOp (reset : Bool) (column : BitVec 16) (bytes : Bytes) :
    frameBytes (adjustOpSize (progLoadOp reset column bytes)) =
      (if reset then 0x02 else 0x84) ::
        (columnBytes column ++ dataSent (adjustOpSize (progLoadOp reset column bytes))) := by
  have header (op : SpiMemOp) : (adjustOpSize op).cmd = op.cmd ∧ (adjustOpSize op).addr = op.addr ∧
      (adjustOpSize op).dummy = op.dummy := by
    rw [adjustOpSize]
    split <;> exact ⟨rfl, rfl, rfl⟩
  obtain ⟨cmd, addr, dummy⟩ := header (progLoadOp reset column bytes)
  have sent : addressSent (adjustOpSize (progLoadOp reset column bytes)) = columnBytes column :=
    addressSent_column addr
  rw [frameBytes, sent, opcodeSent, cmd, dummy]
  cases reset <;> rfl

theorem dataSent_progLoadOp (reset : Bool) (column : BitVec 16) {bytes : Bytes}
    (held : bytes.length ≤ maxDataCmdLen.toNat) :
    dataSent (adjustOpSize (progLoadOp reset column bytes)) = bytes := by
  have length : (BitVec.ofNat 32 bytes.length).toNat = bytes.length := by
    rw [BitVec.toNat_ofNat, Nat.mod_eq_of_lt (held.trans_lt (by decide))]
  rw [adjustOpSize, if_neg]
  · show (List.range (BitVec.ofNat 32 bytes.length).toNat).map (bytes.getD · 0) = bytes
    rw [length]
    refine List.ext_getElem (by simp) fun i _ less => ?_
    simp [List.getD_eq_getElem?_getD, less]
  · intro both
    have more : maxDataCmdLen.toNat < (BitVec.ofNat 32 bytes.length).toNat := both.2
    omega

/-! ### A chip and its frames -/

/-- What a SPI NAND holds: its cells and caches, whether writes are enabled, for how many readings of
the status it is still busy, whether the last program failed, and the configuration register. -/
structure ChipState where
  cells : BitVec 24 → ℕ → BitVec 8
  cache : ℕ → ℕ → BitVec 8
  enabled : Bool
  busy : ℕ
  progFailed : Bool
  cfg : BitVec 8

/-- A SPI NAND: how many bits of a column are a place in a cache, which plane a row is in, for how many
readings of the status a read of a page and a program take, and the rows that are worn. -/
structure Chip where
  columnBits : ℕ
  plane : BitVec 24 → ℕ
  readTurns : BitVec 24 → ℕ
  programTurns : BitVec 24 → ℕ
  worn : BitVec 24 → Bool

namespace Chip

variable (chip : Chip)

/-- The status register: busy, write enabled, program failed. -/
def status (s : ChipState) : BitVec 8 :=
  (if s.busy ≠ 0 then 0x01 else 0) ||| (if s.enabled then 0x02 else 0) |||
    if s.progFailed then 0x08 else 0

def pageRead (row : BitVec 24) (s : ChipState) : ChipState :=
  { s with cache := Function.update s.cache (chip.plane row) (s.cells row), busy := chip.readTurns row }

/-- Bytes are loaded to a cache, which is blank then but for them, or stays as it was. -/
def load (reset : Bool) (column : BitVec 16) (bytes : Bytes) (s : ChipState) : ChipState :=
  let plane := column.toNat / 2 ^ chip.columnBits
  let start := column.toNat % 2 ^ chip.columnBits
  if s.enabled then
    { s with cache := Function.update s.cache plane fun c =>
        if start ≤ c ∧ c < start + bytes.length then bytes.getD (c - start) 0
        else if reset then 0xFF
        else s.cache plane c }
  else s

/-- Bits that are clear in the cache are cleared in the row, unless it is worn. -/
def program (row : BitVec 24) (s : ChipState) : ChipState :=
  if s.enabled then
    { s with
      cells := if chip.worn row then s.cells
        else Function.update s.cells row fun c => s.cells row c &&& s.cache (chip.plane row) c
      enabled := false
      busy := chip.programTurns row
      progFailed := chip.worn row }
  else s

/-- What the chip answers to what it was sent, byte by byte. -/
def answer (sent : List (BitVec 8)) (n : ℕ) (s : ChipState) : BitVec 8 :=
  match sent with
  | [opcode, reg] =>
      if opcode = 0x0F ∧ reg = 0xC0 then status s
      else if opcode = 0x0F ∧ reg = 0xB0 then s.cfg
      else 0
  | [opcode, high, low, _] =>
      if opcode = 0x6B ∧ s.busy = 0 then
        s.cache ((high ++ low).toNat / 2 ^ chip.columnBits)
          ((high ++ low).toNat % 2 ^ chip.columnBits + n)
      else 0
  | _ => 0

/-- What a command does that the chip takes. -/
def command (sent : List (BitVec 8)) (s : ChipState) : ChipState :=
  match sent with
  | [opcode] =>
      if opcode = 0x06 then { s with enabled := true }
      else if opcode = 0x04 then { s with enabled := false }
      else s
  | opcode :: first :: second :: rest =>
      if opcode = 0x1F ∧ first = 0xB0 then { s with cfg := second }
      else if opcode = 0x02 then chip.load true (first ++ second) rest s
      else if opcode = 0x84 then chip.load false (first ++ second) rest s
      else
        match rest with
        | [third] =>
            if opcode = 0x13 then chip.pageRead (first ++ second ++ third) s
            else if opcode = 0x10 then chip.program (first ++ second ++ third) s
            else s
        | _ => s
  | _ => s

/-- What the chip does when it is deselected.  While it is busy, only its status can be asked for. -/
def execute (sent : List (BitVec 8)) (s : ChipState) : ChipState :=
  if sent = [0x0F, 0xC0] then { s with busy := s.busy - 1 }
  else if s.busy = 0 then chip.command sent s
  else s

def device : Device where
  State := ChipState
  answer := chip.answer
  execute := chip.execute

end Chip

section
variable {chip : Chip} {s : ChipState}

theorem append_rowBytes (row : BitVec 24) :
    row.extractLsb' 16 8 ++ row.extractLsb' 8 8 ++ row.extractLsb' 0 8 = row := by
  apply BitVec.eq_of_getLsbD_eq
  intro i less
  simp only [BitVec.getLsbD_append, BitVec.getLsbD_extractLsb']
  interval_cases i <;> simp

theorem append_columnBytes (column : BitVec 16) :
    column.extractLsb' 8 8 ++ column.extractLsb' 0 8 = column := by
  apply BitVec.eq_of_getLsbD_eq
  intro i less
  simp only [BitVec.getLsbD_append, BitVec.getLsbD_extractLsb']
  interval_cases i <;> simp

theorem execute_status : chip.execute [0x0F, 0xC0] s = { s with busy := s.busy - 1 } := if_pos rfl

theorem execute_of_ready {sent : List (BitVec 8)} (other : sent ≠ [0x0F, 0xC0])
    (ready : s.busy = 0) : chip.execute sent s = chip.command sent s := by
  rw [Chip.execute, if_neg other, if_pos ready]

/-- What a command leaves as it is the chip leaves, busy or not. -/
theorem execute_keeps {α : Type} {f : ChipState → α} {sent : List (BitVec 8)}
    (other : sent ≠ [0x0F, 0xC0]) (keeps : f (chip.command sent s) = f s) :
    f (chip.execute sent s) = f s := by
  rw [Chip.execute, if_neg other]
  split
  · exact keeps
  · rfl

theorem command_writeEnable : chip.command [0x06] s = { s with enabled := true } := rfl

theorem command_pageRead (row : BitVec 24) :
    chip.command (0x13 :: rowBytes row) s = chip.pageRead row s := by
  show chip.pageRead (_ ++ _ ++ _) s = _
  rw [append_rowBytes]

theorem command_program (row : BitVec 24) :
    chip.command (0x10 :: rowBytes row) s = chip.program row s := by
  show chip.program (_ ++ _ ++ _) s = _
  rw [append_rowBytes]

theorem command_load (reset : Bool) (column : BitVec 16) (bytes : Bytes) :
    chip.command ((if reset then 0x02 else 0x84) :: (columnBytes column ++ bytes)) s =
      chip.load reset column bytes s := by
  cases reset
  · show chip.load false (_ ++ _) bytes s = _
    rw [append_columnBytes]
  · show chip.load true (_ ++ _) bytes s = _
    rw [append_columnBytes]

theorem load_opcode {reset : Bool} {rest : List (BitVec 8)} :
    (if reset then 0x02 else 0x84) :: rest ≠ [(0x0F : BitVec 8), 0xC0] := by
  cases reset <;> simp

theorem load_cells (reset : Bool) (column : BitVec 16) (bytes : Bytes) :
    (chip.load reset column bytes s).cells = s.cells := by
  rw [Chip.load]
  split <;> rfl

theorem load_enabled (reset : Bool) (column : BitVec 16) (bytes : Bytes) :
    (chip.load reset column bytes s).enabled = s.enabled := by
  rw [Chip.load]
  split <;> rfl

theorem load_busy (reset : Bool) (column : BitVec 16) (bytes : Bytes) :
    (chip.load reset column bytes s).busy = s.busy := by
  rw [Chip.load]
  split <;> rfl

theorem program_cells_ne {row row' : BitVec 24} (other : row' ≠ row) :
    (chip.program row s).cells row' = s.cells row' := by
  rw [Chip.program]
  split
  · dsimp only
    split
    · rfl
    · exact Function.update_of_ne other _ _
  · rfl

theorem program_cells {row : BitVec 24} (enabled : s.enabled = true)
    (passed : (chip.program row s).progFailed = false) :
    (chip.program row s).cells row = fun c => s.cells row c &&& s.cache (chip.plane row) c := by
  rw [Chip.program, if_pos enabled] at passed ⊢
  dsimp only at passed ⊢
  rw [if_neg (Bool.eq_false_iff.mp passed)]
  exact Function.update_self _ _ _

theorem getLsbD_status : (Chip.status s).getLsbD 3 = s.progFailed ∧
    (Chip.status s).getLsbD 0 = (s.busy != 0) := by
  rw [Chip.status]
  by_cases busy : s.busy = 0
  · cases s.enabled <;> cases s.progFailed <;> simp [busy]
  · cases s.enabled <;> cases s.progFailed <;> simp [busy]

theorem answer_status : chip.answer [0x0F, 0xC0] 0 s = Chip.status s := rfl

theorem answer_readCache (ready : s.busy = 0) (column : BitVec 16) (n : ℕ) :
    chip.answer (0x6B :: (columnBytes column ++ [0])) n s =
      s.cache (column.toNat / 2 ^ chip.columnBits) (column.toNat % 2 ^ chip.columnBits + n) := by
  show (if _ then _ else _) = _
  rw [if_pos ⟨rfl, ready⟩, append_columnBytes]

end

/-! ### The chip behind the controller -/

/-- The driver of a chip that is behind a controller: the state of the controller's driver, `cfg_cache`,
and that between operations the chip is not selected. -/
structure Wired (chip : Chip) (c : Controller) (start : ChipState) where
  controller : FpgaQspi.State
  cfgCache : BitVec 8
  deselected : ∃ s, chip.device.after start controller.history = ⟨[], 0, s⟩

namespace Wired

variable {chip : Chip} {c : Controller} {start : ChipState}

def state (w : Wired chip c start) : ChipState := (chip.device.after start w.controller.history).device

theorem after_eq (w : Wired chip c start) :
    chip.device.after start w.controller.history = ⟨[], 0, w.state⟩ := by
  obtain ⟨s, here⟩ := w.deselected
  rw [state, here]

theorem deselected_execOp (behind : chip.device.Behind c start) {op : SpiMemOp}
    (fits : Fits (adjustOpSize op)) {fuel : ℕ} (w : Wired chip c start) {err : ℤ} {s : FpgaQspi.State}
    (ran : execOp c (adjustOpSize op) fuel w.controller = .ok (err, s)) :
    ∃ t, chip.device.after start s.history = ⟨[], 0, t⟩ := by
  by_cases late : err = 0
  · subst late
    exact ⟨_, (execOp_frame behind fits w.after_eq ran).1⟩
  · exact ⟨_, (execOp_late late ran).trans w.after_eq⟩

/-- An operation by `scai_fpgaqspi_exec_op`.  One that does not fit, or has no result with so much fuel,
is counted as a failure. -/
def exec (behind : chip.device.Behind c start) (fuel : ℕ) (op : SpiMemOp) (w : Wired chip c start) :
    ℤ × Wired chip c start :=
  if fits : Fits (adjustOpSize op) then
    match ran : execOp c (adjustOpSize op) fuel w.controller with
    | .ok (err, s) => (err, ⟨s, w.cfgCache, deselected_execOp behind fits w ran⟩)
    | .error _ => (-einval, w)
  else (-einval, w)

variable {behind : chip.device.Behind c start} {fuel : ℕ} {op : SpiMemOp} {w : Wired chip c start}

theorem exec_of_result {err : ℤ} {s : FpgaQspi.State} (fits : Fits (adjustOpSize op))
    (ran : execOp c (adjustOpSize op) fuel w.controller = .ok (err, s)) :
    w.exec behind fuel op = (err, ⟨s, w.cfgCache, deselected_execOp behind fits w ran⟩) := by
  rw [exec, dif_pos fits]
  split
  next ran' =>
    cases ran.symm.trans ran'
    rfl
  next stopped => cases ran.symm.trans stopped

/-- An operation fails and the chip does not see it, or it succeeds and is a frame to the chip, with
what the chip answers in the buffer. -/
theorem exec_cases (behind : chip.device.Behind c start) (fuel : ℕ) (op : SpiMemOp)
    (w : Wired chip c start) :
    (w.exec behind fuel op).1 < 0 ∧ (w.exec behind fuel op).2.state = w.state ∨
    (w.exec behind fuel op).1 = 0 ∧ Fits (adjustOpSize op) ∧
      (w.exec behind fuel op).2.state = chip.execute (frameBytes (adjustOpSize op)) w.state ∧
      ((adjustOpSize op).data.dir = .dataIn →
        (adjustOpSize op).data.buswidth = 1 ∨ (adjustOpSize op).data.buswidth = 4 →
        ∀ i < (adjustOpSize op).data.nbytes.toNat,
          stored (w.exec behind fuel op).2.controller.history i =
            chip.answer (frameBytes (adjustOpSize op)) i w.state) := by
  by_cases fits : Fits (adjustOpSize op)
  · cases ran : execOp c (adjustOpSize op) fuel w.controller with
    | ok r =>
      obtain ⟨err, s⟩ := r
      rw [exec_of_result fits ran]
      by_cases late : err = 0
      · subst late
        obtain ⟨after, read⟩ := execOp_frame behind fits w.after_eq ran
        exact .inr ⟨rfl, fits, congrArg Frame.device after, read⟩
      · exact .inl ⟨lt_of_le_of_ne ((execOp_err ran).trans_le (pollIdle_le ..)) late,
          congrArg Frame.device (execOp_late late ran)⟩
    | error stop =>
      have failed : w.exec behind fuel op = (-einval, w) := by
        rw [exec, dif_pos fits]
        split
        next ran' => cases ran.symm.trans ran'
        next => rfl
      rw [failed]
      exact .inl ⟨(by decide : -einval < 0), rfl⟩
  · have failed : w.exec behind fuel op = (-einval, w) := by rw [exec, dif_neg fits]
    rw [failed]
    exact .inl ⟨(by decide : -einval < 0), rfl⟩

theorem exec_le : (w.exec behind fuel op).1 ≤ 0 := by
  rcases exec_cases behind fuel op w with ⟨negative, -⟩ | ⟨zero, -⟩
  · exact negative.le
  · exact zero.le

theorem exec_state (ran : (w.exec behind fuel op).1 = 0) :
    (w.exec behind fuel op).2.state = chip.execute (frameBytes (adjustOpSize op)) w.state := by
  rcases exec_cases behind fuel op w with ⟨negative, -⟩ | ⟨-, -, state, -⟩
  · exact absurd ran negative.ne
  · exact state

/-- What a command does that succeeds while the chip is not busy. -/
theorem exec_command {sent : List (BitVec 8)} (frame : frameBytes (adjustOpSize op) = sent)
    (other : sent ≠ [0x0F, 0xC0]) (ready : w.state.busy = 0) (ran : (w.exec behind fuel op).1 = 0) :
    (w.exec behind fuel op).2.state = chip.command sent w.state := by
  rw [exec_state ran, frame, execute_of_ready other ready]

/-- What a frame leaves as it is an operation leaves, whether it fails or not. -/
theorem exec_keeps {α : Type} (f : ChipState → α)
    (keeps : f (chip.execute (frameBytes (adjustOpSize op)) w.state) = f w.state) :
    f (w.exec behind fuel op).2.state = f w.state := by
  rcases exec_cases behind fuel op w with ⟨-, same⟩ | ⟨-, -, state, -⟩
  · rw [same]
  · rw [state, keeps]

theorem exec_command_keeps {α : Type} (f : ChipState → α) {sent : List (BitVec 8)}
    (frame : frameBytes (adjustOpSize op) = sent) (other : sent ≠ [0x0F, 0xC0])
    (keeps : f (chip.command sent w.state) = f w.state) :
    f (w.exec behind fuel op).2.state = f w.state :=
  exec_keeps f (by rw [frame]; exact execute_keeps other keeps)

/-- `spinand_set_cfg` -/
def spinandSetCfg (behind : chip.device.Behind c start) (fuel : ℕ) (cfg : BitVec 8)
    (w : Wired chip c start) : ℤ × Wired chip c start :=
  if w.cfgCache = cfg then (0, w)
  else
    let set := w.exec behind fuel (setFeatureOp 0xB0 cfg)
    if set.1 ≠ 0 then set else (0, { set.2 with cfgCache := cfg })

/-- `spinand_upd_cfg` -/
def spinandUpdCfg (behind : chip.device.Behind c start) (fuel : ℕ) (mask val : BitVec 8)
    (w : Wired chip c start) : ℤ × Wired chip c start :=
  spinandSetCfg behind fuel (w.cfgCache &&& ~~~mask ||| val) w

/-- `CFG_ECC_ENABLE` -/
def cfgEccEnable : BitVec 8 := 1 <<< 4

theorem spinandUpdCfg_le {mask val : BitVec 8} : (w.spinandUpdCfg behind fuel mask val).1 ≤ 0 := by
  rw [spinandUpdCfg, spinandSetCfg]
  split
  · exact Int.le_refl 0
  · dsimp only
    split
    · exact exec_le
    · exact Int.le_refl 0

/-- The cells and how long the chip is busy do not depend on the configuration. -/
theorem spinandUpdCfg_keeps {α : Type} (f : ChipState → α) {mask val : BitVec 8}
    (keeps : ∀ s cfg, f { s with cfg := cfg } = f s) :
    f (w.spinandUpdCfg behind fuel mask val).2.state = f w.state := by
  have kept (cfg : BitVec 8) : f (w.exec behind fuel (setFeatureOp 0xB0 cfg)).2.state = f w.state :=
    exec_command_keeps f (frameBytes_setFeatureOp 0xB0 cfg) (by simp) (keeps w.state cfg)
  rw [spinandUpdCfg, spinandSetCfg]
  split
  · rfl
  · dsimp only
    split
    · exact kept _
    · exact kept _

theorem setWidth_row (row : BitVec 24) : (row.setWidth 32).setWidth 24 = row := by
  rw [BitVec.setWidth_setWidth_of_le _ (by decide), BitVec.setWidth_eq]

theorem frameBytes_status : frameBytes (adjustOpSize (getFeatureOp 0xC0)) = [0x0F, 0xC0] :=
  frameBytes_getFeatureOp 0xC0

theorem exec_status (ran : (w.exec behind fuel (getFeatureOp 0xC0)).1 = 0) :
    stored (w.exec behind fuel (getFeatureOp 0xC0)).2.controller.history 0 = Chip.status w.state := by
  rcases exec_cases behind fuel (getFeatureOp 0xC0) w with ⟨negative, -⟩ | ⟨-, -, -, read⟩
  · exact absurd ran negative.ne
  · rw [read rfl (.inl rfl) 0 (by decide), frameBytes_status, answer_status]

/-- The chip behind the controller, as the driver of SPI NANDs has it. -/
def spiNand (behind : chip.device.Behind c start) (fuel : ℕ) (columns : chip.columnBits ≤ 16) :
    SpiNand where
  State := Wired chip c start
  columnBits := chip.columnBits
  plane := chip.plane
  cells w := w.state.cells
  cache w := w.state.cache
  enabled w := w.state.enabled
  busy w := w.state.busy != 0
  progFailed w := w.state.progFailed
  writeEnable := exec behind fuel (wrEnDisOp true)
  pageRead row := exec behind fuel (pageReadOp (row.setWidth 32))
  readCache column n w :=
    let read := w.exec behind fuel (pageReadFromCacheX4Op column (BitVec.ofNat 32 n))
    ((read.1, (List.range n).map (stored read.2.controller.history)), read.2)
  progLoad reset column bytes := exec behind fuel (progLoadOp reset column bytes)
  progExec row := exec behind fuel (progExecOp (row.setWidth 32))
  readStatus w :=
    let read := w.exec behind fuel (getFeatureOp 0xC0)
    ((read.1, stored read.2.controller.history 0), read.2)
  eccEnable enable := spinandUpdCfg behind fuel cfgEccEnable (if enable then cfgEccEnable else 0)
  cells_writeEnable _ := exec_command_keeps ChipState.cells frameBytes_wrEnDisOp (by decide) rfl
  busy_writeEnable _ := exec_command_keeps (fun s => s.busy != 0) frameBytes_wrEnDisOp (by decide) rfl
  enabled_writeEnable w ready ran := by
    rw [exec_command frameBytes_wrEnDisOp (by decide) (by simpa using ready) ran, command_writeEnable]
  cells_pageRead row w := by
    refine exec_command_keeps ChipState.cells (frameBytes_pageReadOp _) (by simp) ?_
    rw [command_pageRead]
    rfl
  cache_pageRead row w ready ran := by
    rw [exec_command (frameBytes_pageReadOp _) (by simp) (by simpa using ready) ran, command_pageRead,
      setWidth_row]
    exact Function.update_self _ _ _
  cells_readCache column n w :=
    exec_command_keeps ChipState.cells (frameBytes_pageReadFromCacheX4Op _ _) (by simp) rfl
  busy_readCache column n w :=
    exec_command_keeps (fun s => s.busy != 0) (frameBytes_pageReadFromCacheX4Op _ _) (by simp) rfl
  readCache_eq column n w ready inPlane ran := by
    rcases exec_cases behind fuel (pageReadFromCacheX4Op column (BitVec.ofNat 32 n)) w with
      ⟨negative, -⟩ | ⟨-, -, -, read⟩
    · exact absurd ran negative.ne
    · have most : 2 ^ chip.columnBits ≤ 2 ^ 16 := Nat.pow_le_pow_right (by decide) columns
      have length : (BitVec.ofNat 32 n).toNat = n := by
        rw [BitVec.toNat_ofNat, Nat.mod_eq_of_lt (by omega)]
      refine List.map_congr_left fun i inside => ?_
      refine (read rfl (.inr rfl) i ?_).trans ?_
      · exact (List.mem_range.mp inside).trans_eq length.symm
      · rw [frameBytes_pageReadFromCacheX4Op, answer_readCache (by simpa using ready)]
  cells_progLoad reset column bytes w := by
    refine exec_command_keeps ChipState.cells (frameBytes_progLoadOp ..) load_opcode ?_
    rw [command_load, load_cells]
  enabled_progLoad reset column bytes w := by
    refine exec_command_keeps ChipState.enabled (frameBytes_progLoadOp ..) load_opcode ?_
    rw [command_load, load_enabled]
  busy_progLoad reset column bytes w := by
    refine exec_command_keeps (fun s => s.busy != 0) (frameBytes_progLoadOp ..) load_opcode ?_
    rw [command_load, load_busy]
  cache_progLoad reset column bytes w ready enabled held inPlane ran := by
    intro place
    rw [exec_command (frameBytes_progLoadOp ..) load_opcode (by simpa using ready) ran, command_load,
      dataSent_progLoadOp reset column held, Chip.load, if_pos enabled]
    dsimp only
    rw [Function.update_self]
  cells_progExec_ne row w row' other := by
    refine exec_command_keeps (fun s => s.cells row') (frameBytes_progExecOp _) (by simp) ?_
    rw [command_program, setWidth_row]
    exact program_cells_ne other
  cells_progExec row w ready enabled ran passed := by
    rw [exec_command (frameBytes_progExecOp _) (by simp) (by simpa using ready) ran, command_program,
      setWidth_row] at passed ⊢
    exact program_cells enabled passed
  cells_readStatus w := by
    refine exec_keeps ChipState.cells ?_
    rw [frameBytes_status, execute_status]
  cache_readStatus w := by
    refine exec_keeps ChipState.cache ?_
    rw [frameBytes_status, execute_status]
  progFailed_readStatus w := by
    refine exec_keeps ChipState.progFailed ?_
    rw [frameBytes_status, execute_status]
  readStatus_progFailed w ran := by
    dsimp only
    rw [exec_status ran]
    exact getLsbD_status.1
  busy_readStatus w ran ready := by
    dsimp only at ready ⊢
    rw [exec_status ran, getLsbD_status.2] at ready
    rw [exec_state ran, frameBytes_status, execute_status]
    show (w.state.busy - 1 != 0) = false
    rw [bne_eq_false_iff_eq.mp ready]
    rfl
  cells_eccEnable enable w := spinandUpdCfg_keeps ChipState.cells fun _ _ => rfl
  busy_eccEnable enable w := spinandUpdCfg_keeps (fun s => s.busy != 0) fun _ _ => rfl
  eccEnable_le enable w := spinandUpdCfg_le
  pageRead_le row w := exec_le
  readCache_le column n w := exec_le
  readStatus_le w := exec_le

end Wired

/-! ### The operations have results -/

/-- The operations of the driver.  Of a cache it reads whole words. -/
inductive Given : SpiMemOp → Prop
  | writeEnable : Given (wrEnDisOp true)
  | getFeature (reg : BitVec 64) : Given (getFeatureOp reg)
  | setFeature (reg : BitVec 64) (val : BitVec 8) : Given (setFeatureOp reg val)
  | pageRead (row : BitVec 32) : Given (pageReadOp row)
  | progExec (row : BitVec 32) : Given (progExecOp row)
  | readCache (column : BitVec 16) {len : BitVec 32} (whole : len.toNat % 4 = 0)
      (less : len.toNat < 8192) : Given (pageReadFromCacheX4Op column len)
  | progLoad (reset : Bool) (column : BitVec 16) (bytes : Bytes) : Given (progLoadOp reset column bytes)

/-- An operation without data fits if its header does. -/
theorem fits_of_noData {op : SpiMemOp} (none : op.data = noData)
    (opcode : op.cmd.nbytes.toNat ≤ if op.cmd.opcode = 0 then 0 else 1)
    (addr : op.addr.nbytes.toNat ≤ 4) (dummy : op.dummy.nbytes.toNat ≤ 32) : Fits op where
  opcode := opcode
  addr := addr
  dummy := dummy
  noData _ := by
    rw [none]
    decide
  dataIn dir := absurd (none ▸ dir : noData.dir = .dataIn) (by decide)
  dataOut dir := absurd (none ▸ dir : noData.dir = .dataOut) (by decide)

theorem fits_of_dataOut {op : SpiMemOp} (dir : op.data.dir = .dataOut) (lane : op.data.buswidth = 1)
    (opcode : op.cmd.nbytes.toNat ≤ if op.cmd.opcode = 0 then 0 else 1)
    (addr : op.addr.nbytes.toNat ≤ 4) (dummy : op.dummy.nbytes.toNat ≤ 32) : Fits op where
  opcode := opcode
  addr := addr
  dummy := dummy
  noData other := absurd (dir.symm.trans other) (by decide)
  dataIn other := absurd (dir.symm.trans other) (by decide)
  dataOut _ := .inr lane

theorem fits_of_dataIn {op : SpiMemOp} (dir : op.data.dir = .dataIn)
    (opcode : op.cmd.nbytes.toNat ≤ if op.cmd.opcode = 0 then 0 else 1)
    (addr : op.addr.nbytes.toNat ≤ 4) (dummy : op.dummy.nbytes.toNat ≤ 32)
    (bytes : op.data.buswidth = 1 → op.data.nbytes.toNat < 2048)
    (words : op.data.buswidth = 4 → op.data.nbytes.toNat % 4 = 0 ∧ op.data.nbytes.toNat / 4 < 2048) :
    Fits op where
  opcode := opcode
  addr := addr
  dummy := dummy
  noData other := absurd (dir.symm.trans other) (by decide)
  dataIn _ := ⟨bytes, words⟩
  dataOut other := absurd (dir.symm.trans other) (by decide)

theorem Given.fits {op : SpiMemOp} (given : Given op) : Fits (adjustOpSize op) := by
  cases given with
  | writeEnable => decide
  | getFeature reg =>
    exact fits_of_dataIn rfl (by decide : 1 ≤ 1) (by decide : 1 ≤ 4) (by decide : 0 ≤ 32)
      (fun _ => (by decide : 1 < 2048)) fun four => absurd four (by decide : (1 : BitVec 8) ≠ 4)
  | setFeature reg val =>
    exact fits_of_dataOut rfl rfl (by decide : 1 ≤ 1) (by decide : 1 ≤ 4) (by decide : 0 ≤ 32)
  | pageRead row =>
    exact fits_of_noData rfl (by decide : 1 ≤ 1) (by decide : 3 ≤ 4) (by decide : 0 ≤ 32)
  | progExec row =>
    exact fits_of_noData rfl (by decide : 1 ≤ 1) (by decide : 3 ≤ 4) (by decide : 0 ≤ 32)
  | @readCache column len whole less =>
    exact fits_of_dataIn rfl (by decide : 1 ≤ 1) (by decide : 2 ≤ 4) (by decide : 1 ≤ 32)
      (fun one => absurd one (by decide : (4 : BitVec 8) ≠ 1))
      fun _ => ⟨whole, show len.toNat / 4 < 2048 by omega⟩
  | progLoad reset column bytes =>
    rw [adjustOpSize]
    split <;> cases reset <;>
      exact fits_of_dataOut rfl rfl (by decide : 1 ≤ 1) (by decide : 2 ≤ 4) (by decide : 0 ≤ 32)

/-- With a controller that serves what its transactions count and enough fuel, an operation of the
driver fails only if the controller is not idle in time. -/
theorem Given.exec_of_obliging {op : SpiMemOp} (given : Given op) {chip : Chip} {c : Controller}
    {start : ChipState} (obliging : Obliging c) (behind : chip.device.Behind c start)
    (w : Wired chip c start) :
    ∃ enough, ∀ fuel ≥ enough,
      (w.exec behind fuel op).1 = (waitForReady c w.controller.history).1 := by
  obtain ⟨⟨err, s⟩, enough, ends⟩ := ends_execOp obliging given.fits w.controller
  refine ⟨enough, fun fuel more => ?_⟩
  have ran := ends fuel more
  rw [Wired.exec_of_result given.fits ran]
  exact execOp_err ran

/-- A controller that is always idle gives every operation of the driver to the chip. -/
theorem Given.exec_controller {op : SpiMemOp} (given : Given op) {chip : Chip} {start : ChipState}
    (w : Wired chip (chip.device.controller start) start) : ∃ enough, ∀ fuel ≥ enough,
      (w.exec (behind_controller chip.device start) fuel op).1 = 0 := by
  obtain ⟨enough, all⟩ := given.exec_of_obliging (obliging_controller chip.device start)
    (behind_controller chip.device start) w
  exact ⟨enough, fun fuel more => (all fuel more).trans (waitForReady_controller ..)⟩

/-- A chip with the columns of the W25N01GV, which has one plane. -/
def w25n01gv (readTurns programTurns : BitVec 24 → ℕ) (worn : BitVec 24 → Bool) : Chip where
  columnBits := 12
  plane _ := 0
  readTurns := readTurns
  programTurns := programTurns
  worn := worn

/-- Behind the controller, the chip has the rows and columns of the organization that the driver has for
it. -/
theorem w25n01gv_addressed {readTurns programTurns : BitVec 24 → ℕ} {worn : BitVec 24 → Bool}
    {c : Controller} {start : ChipState}
    (behind : (w25n01gv readTurns programTurns worn).device.Behind c start) (fuel : ℕ) :
    (Wired.spiNand behind fuel (by decide : 12 ≤ 16)).Addressed w25n01gvMemorg where
  ntargets := rfl
  rows := by decide
  columns := (by decide : 2048 + 64 ≤ 2 ^ 12)
  planes := (by decide : 1 * 2 ^ 12 ≤ 2 ^ 16)
  shift many := absurd many (by decide)
  plane pos inside _ := by
    have plane := inside.plane
    have one : pos.eraseblock % w25n01gvMemorg.planesPerLun = 0 := Nat.mod_one _
    exact (plane.trans one).symm

end Hss.Nand
