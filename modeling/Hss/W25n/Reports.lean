import Hss.W25n.Driver

/-! What the driver of the W25N01GV flash reports: the results of its loops against the statuses of
their pages and blocks. -/

namespace Hss

open Pieces

variable {σ : Type}

namespace QspiBus

variable (bus : QspiBus σ)

/-! ### The statuses of a call -/

/-- The status register that is read last for each page that the loop of `Flash_program` writes. -/
def programStatuses (buf : ℕ → BitVec 8) (firstPage : ℕ) : List (ℕ × ℕ) → σ → List (BitVec 8)
  | [], _ => []
  | (offset, length) :: rest, s =>
      let (s, status) :=
        bus.programPageStatus (fun i => buf (offset + i)) (firstPage + offset / pageLength) length s
      status :: programStatuses buf firstPage rest s

/-- The status register that is read last for each page that the loop of `Flash_read` reads. -/
def readStatuses (ioFormat : MssQspiIoFormat) (firstPage : ℕ) : List (ℕ × ℕ) → σ → List (BitVec 8)
  | [], _ => []
  | (offset, length) :: rest, s =>
      let (s, _, status) :=
        bus.readPageStatus ioFormat (firstPage + offset / pageLength) 0 length s
      status :: readStatuses ioFormat firstPage rest s

/-- What comes of each block in the loop of `Flash_erase`: none for a bad block. -/
def eraseStatuses (ioFormat : MssQspiIoFormat) : List ℕ → σ → List (Option (BitVec 8))
  | [], _ => []
  | blockIndex :: rest, s =>
      match bus.eraseBlockStatus ioFormat blockIndex s with
      | .ok (s, status) => status :: eraseStatuses ioFormat rest s
      | .error _ => []

/-- The statuses of the pages of `Flash_program`. -/
def flashProgramStatuses (buf : ℕ → BitVec 8) (addr len : ℕ) (s : σ) : List (BitVec 8) :=
  bus.programStatuses buf (addr / pageLength) (pieces pageLength 0 len) (bus.disableWriteProtect s)

/-- The statuses of the pages of `Flash_read`. -/
def flashReadStatuses (ioFormat : MssQspiIoFormat) (srcAddr len : ℕ) (s : σ) : List (BitVec 8) :=
  bus.readStatuses ioFormat (srcAddr / pageLength)
    (pieces pageLength 0 (if len < 2 ^ 31 then len else 0)) s

/-- The statuses of the blocks of `Flash_erase`. -/
def flashEraseStatuses (ioFormat : MssQspiIoFormat) (s : σ) : List (Option (BitVec 8)) :=
  bus.eraseStatuses ioFormat (List.range numBlocksPerDie) (bus.disableWriteProtect s)

end QspiBus

/-! ### Failures in a status register -/

/-- P-FAIL is bit 3, and ECC-1 is bit 5: of the ECC codes, those in which it is set are not
correctable. -/
def Uncorrectable (status : BitVec 8) : Prop := status.getLsbD 5 = true

def ProgramFailed (status : BitVec 8) : Prop := status.getLsbD 3 = true ∨ Uncorrectable status

/-- A bad block counts as a failure, otherwise E-FAIL, bit 2, does. -/
def EraseFailed : Option (BitVec 8) → Prop
  | none => True
  | some status => status.getLsbD 2 = true

instance : DecidablePred Uncorrectable := fun _ => inferInstanceAs (Decidable (_ = true))

instance : DecidablePred ProgramFailed := fun _ => inferInstanceAs (Decidable (_ ∨ _))

theorem programFailed_iff (status : BitVec 8) :
    (statusReg3Ecc1 ||| statusReg3Pfail) &&& status ≠ 0 ↔ ProgramFailed status := by
  revert status
  decide

theorem eraseFailed_iff (status : BitVec 8) :
    statusReg3Efail &&& status ≠ 0 ↔ status.getLsbD 2 = true := by
  revert status
  decide

/-- The two bits of the ECC code have no bit in common. -/
theorem eccMask_zero (status : BitVec 8) : status &&& (statusReg3Ecc1 &&& statusReg3Ecc0) = 0 := by
  revert status
  decide

namespace QspiBus

variable {bus : QspiBus σ} {ioFormat : MssQspiIoFormat} {s : σ}

/-! ### Programs and reads -/

/-- The loop of `Flash_program` returns what the last page comes to. -/
theorem programPages_reports (buf : ℕ → BitVec 8) (firstPage : ℕ) (ps : List (ℕ × ℕ))
    (status : BitVec 8) :
    (bus.programPages buf firstPage ps status s).2 ≠ 0 ↔
      match (bus.programStatuses buf firstPage ps s).getLast? with
      | none => status ≠ 0
      | some last => ProgramFailed last := by
  induction ps generalizing s status with
  | nil => exact Iff.rfl
  | cons piece ps ih =>
    obtain ⟨offset, length⟩ := piece
    rw [programPages, programStatuses, programPage]
    dsimp only
    rw [ih, List.getLast?_cons]
    cases (bus.programStatuses buf firstPage ps
      (bus.programPageStatus (fun i => buf (offset + i)) (firstPage + offset / pageLength) length
        s).1).getLast? with
    | none => exact programFailed_iff _
    | some last => exact Iff.rfl

/-- The loop of `Flash_read` goes over all pages, and returns 0. -/
theorem readPages_result (firstPage : ℕ) (ps : List (ℕ × ℕ)) (dst : ℕ → BitVec 8) :
    (bus.readPages ioFormat firstPage ps dst s).2.2 = 0 := by
  induction ps generalizing s dst with
  | nil => rfl
  | cons piece ps ih =>
    obtain ⟨offset, length⟩ := piece
    rw [readPages, readPage]
    dsimp only
    rw [eccMask_zero, if_neg (not_not.mpr rfl)]
    exact ih _

/-! ### Erasures -/

/-- What the driver relies on when it clears the protection: the write of status register 1 takes the
device to the states `unprotected`, from which only writes of a status register lead away, and in which
the register reads 0. -/
structure Unprotects (bus : QspiBus σ) (unprotected : σ → Prop) : Prop where
  clears : ∀ s, unprotected (bus.transfer s [writeStatusRegOpcode, statusReg1, 0] 0).1
  keeps : ∀ s frame numIdleCycles, frame.head? ≠ some writeStatusRegOpcode → unprotected s →
    unprotected (bus.transfer s frame numIdleCycles).1
  reads : ∀ s, unprotected s → (bus.transfer s [readStatusRegOpcode, statusReg1] 0).2 0 = 0

namespace Unprotects

variable {unprotected : σ → Prop} (unprotects : Unprotects bus unprotected)

include unprotects

theorem polledTransferBlock (opcode : BitVec 8) (other : opcode ≠ writeStatusRegOpcode)
    (numAddrBytes : ℕ) (parameters : Bytes) (txByteSize rdByteSize numIdleCycles : ℕ)
    (here : unprotected s) :
    unprotected (bus.polledTransferBlock numAddrBytes (ofBytes (opcode :: parameters)) txByteSize
      rdByteSize numIdleCycles s).1 := by
  refine unprotects.keeps _ _ _ ?_ here
  rw [Nat.add_assoc, Nat.add_comm 1]
  simpa [firstBytes, List.range_succ_eq_map, ofBytes, writeBuffer] using other

theorem disableWriteProtect (s : σ) : unprotected (bus.disableWriteProtect s) := unprotects.clears s

theorem readStatusreg (address : BitVec 8) (here : unprotected s) :
    unprotected (bus.readStatusreg address s).1 :=
  unprotects.polledTransferBlock _ (by decide) 1 [address] 0 1 0 here

theorem readStatusreg_eq (here : unprotected s) : (bus.readStatusreg statusReg1 s).2 = 0 :=
  unprotects.reads s here

theorem spin (again : BitVec 8 → Bool) (polls : ℕ) (here : unprotected s) :
    unprotected (bus.spin again polls s).1 := by
  induction polls generalizing s with
  | zero => exact here
  | succ polls ih =>
    have next := unprotects.readStatusreg statusReg3 here
    rw [QspiBus.spin]
    dsimp only
    split
    · exact ih next
    · exact next

theorem waitIfBusy (here : unprotected s) : unprotected (bus.waitIfBusy s) :=
  unprotects.spin _ _ here

theorem waitIfBusyOrWel (here : unprotected s) : unprotected (bus.waitIfBusyOrWel s).1 :=
  unprotects.spin _ _ here

theorem sendWriteEnableCommand (here : unprotected s) : unprotected (bus.sendWriteEnableCommand s) :=
  unprotects.spin _ _ (unprotects.polledTransferBlock _ (by decide) 0 [] 0 0 0 here)

theorem readPageStatus (page column readLen : ℕ) (here : unprotected s) :
    unprotected (bus.readPageStatus ioFormat page column readLen s).1 := by
  have loaded := unprotects.waitIfBusy (unprotects.polledTransferBlock pageDataReadOpcode
    (by decide) 0 [0, highByte page, lowByte page] 3 0 0 (unprotects.waitIfBusy here))
  have other : (readCommand ioFormat).1 ≠ writeStatusRegOpcode := by cases ioFormat <;> decide
  exact unprotects.readStatusreg statusReg3 (unprotects.polledTransferBlock _ other 2
    [highByte column, lowByte column, lowByte page] 0
    (if readLen > pageLength then pageLength else readLen) (readCommand ioFormat).2 loaded)

theorem isBadBlock (ioFormat : MssQspiIoFormat) (blockIndex : ℕ) (here : unprotected s) :
    unprotected (bus.isBadBlock ioFormat blockIndex s).1 :=
  unprotects.readPageStatus (blockIndex * numPagesPerBlock) pageLength 2 here

/-- An erasure of a block comes to its end. -/
theorem eraseBlockStatus (ioFormat : MssQspiIoFormat) (blockIndex : ℕ) (here : unprotected s) :
    ∃ t status, bus.eraseBlockStatus ioFormat blockIndex s = .ok (t, status) ∧ unprotected t := by
  have checked := unprotects.isBadBlock ioFormat blockIndex here
  rw [QspiBus.eraseBlockStatus]
  dsimp only
  split
  · exact ⟨_, _, rfl, checked⟩
  · have sent := unprotects.polledTransferBlock blockEraseOpcode (by decide) 0
      [0, highByte (blockIndex * numPagesPerBlock), lowByte (blockIndex * numPagesPerBlock)] 3 0 0
      (unprotects.sendWriteEnableCommand
        (unprotects.waitIfBusy (unprotects.readStatusreg statusReg1 checked)))
    rw [unprotects.readStatusreg_eq checked]
    exact ⟨_, _, rfl, unprotects.waitIfBusyOrWel sent⟩

/-- An erasure of a block returns what the block comes to. -/
theorem eraseBlock (ioFormat : MssQspiIoFormat) (blockIndex : ℕ) (here : unprotected s) :
    ∃ t result status, bus.eraseBlock ioFormat blockIndex s = .ok (t, result) ∧
      bus.eraseBlockStatus ioFormat blockIndex s = .ok (t, status) ∧ unprotected t ∧
      (result ≠ 0 ↔ EraseFailed status) := by
  obtain ⟨t, status, erased, there⟩ := unprotects.eraseBlockStatus ioFormat blockIndex here
  rw [QspiBus.eraseBlock, erased]
  refine ⟨t, _, status, rfl, rfl, there, ?_⟩
  cases status with
  | none => exact ⟨fun _ => trivial, fun _ => by decide⟩
  | some status => exact eraseFailed_iff status

/-- The loop of `Flash_erase` comes to its end, and returns what the last block comes to. -/
theorem eraseBlocks (ioFormat : MssQspiIoFormat) (blocks : List ℕ) (status : BitVec 8) (here : unprotected s) :
    ∃ t result, bus.eraseBlocks ioFormat blocks status s = .ok (t, result) ∧
      (result ≠ 0 ↔ match (bus.eraseStatuses ioFormat blocks s).getLast? with
        | none => status ≠ 0
        | some last => EraseFailed last) := by
  induction blocks generalizing s status with
  | nil => exact ⟨s, status, rfl, Iff.rfl⟩
  | cons blockIndex blocks ih =>
    obtain ⟨next, first, final, erased, status', there, fails⟩ := unprotects.eraseBlock
      ioFormat blockIndex here
    obtain ⟨t, result, rest, reports⟩ := ih first there
    refine ⟨t, result, ?_, ?_⟩
    · rw [QspiBus.eraseBlocks, erased]
      exact rest
    · rw [reports, eraseStatuses, status']
      dsimp only
      rw [List.getLast?_cons]
      cases (bus.eraseStatuses ioFormat blocks next).getLast? with
      | some last => exact Iff.rfl
      | none => exact fails

theorem eraseBlocks_last (ioFormat : MssQspiIoFormat) {blocks : List ℕ} (some : blocks ≠ [])
    (status : BitVec 8) (here : unprotected s) :
    ∃ t result, bus.eraseBlocks ioFormat blocks status s = .ok (t, result) ∧
      (result ≠ 0 ↔ ∃ last ∈ (bus.eraseStatuses ioFormat blocks s).getLast?, EraseFailed last) := by
  obtain ⟨t, result, returns, reports⟩ := unprotects.eraseBlocks ioFormat blocks status here
  obtain ⟨blockIndex, rest, rfl⟩ := List.exists_cons_of_ne_nil some
  obtain ⟨next, final, erased, -⟩ := unprotects.eraseBlockStatus ioFormat blockIndex here
  refine ⟨t, result, returns, reports.trans ?_⟩
  rw [eraseStatuses, erased]
  dsimp only
  rw [List.getLast?_cons]
  simp

end Unprotects

/-! ### What a call reports -/

variable (bus) (ioFormat) (s)

/-- `Flash_program` reports a failure exactly if there is one. -/
def ProgramReports (buf : ℕ → BitVec 8) (addr len : ℕ) : Prop :=
  (bus.flashProgram buf addr len s).2 ≠ 0 ↔
    ∃ status ∈ bus.flashProgramStatuses buf addr len s, ProgramFailed status

/-- `Flash_read` returns, and reports an error exactly if there is one that is not correctable. -/
def ReadReports (dst : ℕ → BitVec 8) (srcAddr len : ℕ) : Prop :=
  ∃ t dst' result, bus.flashRead ioFormat dst srcAddr len s = .ok (t, dst', result) ∧
    (result ≠ 0 ↔ ∃ status ∈ bus.flashReadStatuses ioFormat srcAddr len s, Uncorrectable status)

/-- `Flash_erase_block` returns, and reports a failure exactly if there is one. -/
def EraseBlockReports (blockIndex : ℕ) : Prop :=
  ∃ t result status, bus.flashEraseBlock ioFormat blockIndex s = .ok (t, result) ∧
    bus.eraseBlockStatus ioFormat blockIndex (bus.disableWriteProtect s) = .ok (t, status) ∧
      (result ≠ 0 ↔ EraseFailed status)

/-- `Flash_erase` returns, and reports a failure exactly if there is one. -/
def EraseReports : Prop :=
  ∃ t result, bus.flashErase ioFormat s = .ok (t, result) ∧
    (result ≠ 0 ↔ ∃ status ∈ bus.flashEraseStatuses ioFormat s, EraseFailed status)

end QspiBus

/-- If any fails, the last one does. -/
def FailsLast {α : Type} (Failed : α → Prop) (statuses : List α) : Prop :=
  (∃ status ∈ statuses, Failed status) → ∃ last ∈ statuses.getLast?, Failed last

theorem failsLast_iff {α : Type} {Failed : α → Prop} {statuses : List α} :
    FailsLast Failed statuses ↔
      ((∃ last ∈ statuses.getLast?, Failed last) ↔ ∃ status ∈ statuses, Failed status) := by
  constructor
  · intro failsLast
    refine ⟨?_, failsLast⟩
    rintro ⟨last, present, failed⟩
    exact ⟨last, List.mem_of_getLast? present, failed⟩
  · exact Iff.mpr

namespace QspiBus

variable {bus : QspiBus σ} {ioFormat : MssQspiIoFormat} {s : σ}

theorem programReports_iff (buf : ℕ → BitVec 8) (addr len : ℕ) :
    bus.ProgramReports s buf addr len ↔
      len ≠ 0 ∧ FailsLast ProgramFailed (bus.flashProgramStatuses buf addr len s) := by
  rw [ProgramReports, flashProgram, programPages_reports, flashProgramStatuses]
  rcases Nat.eq_zero_or_pos len with rfl | some
  · simp [programStatuses]
  · rw [pieces_of_pos (by decide) some, programStatuses]
    dsimp only
    rw [failsLast_iff, List.getLast?_cons]
    simp [Nat.ne_of_gt some]

theorem readReports_iff (dst : ℕ → BitVec 8) (srcAddr len : ℕ) :
    bus.ReadReports ioFormat s dst srcAddr len ↔ srcAddr % pageLength = 0 ∧
      ∀ status ∈ bus.flashReadStatuses ioFormat srcAddr len s, ¬ Uncorrectable status := by
  rw [ReadReports]
  constructor
  · rintro ⟨t, dst', result, returns, reports⟩
    obtain ⟨_, aligned, returns⟩ := bind_eq_ok.mp returns
    have zero : result = 0 :=
      (congrArg (·.2.2) (Except.ok.inj returns)).symm.trans (readPages_result _ _ _)
    refine ⟨assert_eq_ok.mp aligned, fun status present failed => ?_⟩
    exact reports.mpr ⟨status, present, failed⟩ zero
  · rintro ⟨aligned, good⟩
    refine ⟨_, _, _, bind_eq_ok.mpr ⟨(), assert_eq_ok.mpr aligned, rfl⟩, ?_⟩
    rw [readPages_result]
    refine ⟨fun nonzero => absurd rfl nonzero, ?_⟩
    rintro ⟨status, present, failed⟩
    exact absurd failed (good status present)

theorem Unprotects.eraseBlockReports {unprotected : σ → Prop}
    (unprotects : Unprotects bus unprotected) (blockIndex : ℕ) :
    bus.EraseBlockReports ioFormat s blockIndex := by
  obtain ⟨t, result, status, returns, erased, -, reports⟩ :=
    unprotects.eraseBlock ioFormat blockIndex (unprotects.disableWriteProtect s)
  exact ⟨t, result, status, returns, erased, reports⟩

theorem Unprotects.eraseReports_iff {unprotected : σ → Prop}
    (unprotects : Unprotects bus unprotected) :
    bus.EraseReports ioFormat s ↔ FailsLast EraseFailed (bus.flashEraseStatuses ioFormat s) := by
  obtain ⟨t, result, returns, reports⟩ := unprotects.eraseBlocks_last ioFormat
    (show List.range numBlocksPerDie ≠ [] by simp [numBlocksPerDie]) 0xFF
    (unprotects.disableWriteProtect s)
  rw [failsLast_iff, EraseReports, flashEraseStatuses, ← reports]
  constructor
  · rintro ⟨t', result', returns', reports'⟩
    obtain ⟨-, rfl⟩ := Prod.mk.inj (Except.ok.inj (returns.symm.trans returns'))
    exact reports'
  · exact fun reports' => ⟨t, result, returns, reports'⟩

end QspiBus

open QspiBus

/-- What the driver reports of a call: `Flash_program` tells whether a page fails exactly when there is
a page, and if any fails the last one does; `Flash_read` when the address is that of a page and no error
is uncorrectable; `Flash_erase_block` always; and `Flash_erase` when the last block fails if any does. -/
theorem w25n01gv_reports_iff (bus : QspiBus σ) {unprotected : σ → Prop}
    (unprotects : Unprotects bus unprotected) (ioFormat : MssQspiIoFormat) (buf : ℕ → BitVec 8)
    (addr len blockIndex : ℕ) (s : σ) :
    (bus.ProgramReports s buf addr len ↔
      len ≠ 0 ∧ FailsLast ProgramFailed (bus.flashProgramStatuses buf addr len s)) ∧
    (bus.ReadReports ioFormat s buf addr len ↔ addr % pageLength = 0 ∧
      ∀ status ∈ bus.flashReadStatuses ioFormat addr len s, ¬ Uncorrectable status) ∧
    bus.EraseBlockReports ioFormat s blockIndex ∧
    (bus.EraseReports ioFormat s ↔ FailsLast EraseFailed (bus.flashEraseStatuses ioFormat s)) :=
  ⟨programReports_iff buf addr len, readReports_iff buf addr len,
    unprotects.eraseBlockReports blockIndex, unprotects.eraseReports_iff⟩

/-- A device, with its write enable latch and the number of programs that it has executed, that reports
a failure of the first one. -/
def firstProgramFails : QspiBus (Bool × ℕ) where
  transfer s frame _ :=
    let opcode := frame.headD 0
    if opcode = writeEnableOpcode then ((true, s.2), fun _ => 0)
    else if opcode = blockEraseOpcode then ((false, s.2), fun _ => 0)
    else if opcode = programExecuteOpcode then ((false, s.2 + 1), fun _ => 0)
    else if frame = [readStatusRegOpcode, statusReg1] then (s, fun _ => 0)
    else if opcode = readStatusRegOpcode then
      (s, fun _ => (if s.1 then statusReg3Wel else 0) ||| (if s.2 = 1 then statusReg3Pfail else 0))
    else (s, fun _ => 0xFF)

theorem firstProgramFails_unprotects : Unprotects firstProgramFails fun _ => True :=
  ⟨fun _ => trivial, fun _ _ _ _ _ => trivial, fun _ _ => rfl⟩

theorem w25n01gv_reports_eraseBlock : firstProgramFails.EraseBlockReports .normal (false, 0) 5 :=
  (w25n01gv_reports_iff firstProgramFails firstProgramFails_unprotects .normal (fun _ => 0) 0 0 5
    (false, 0)).2.2.1

/-- Of two pages of which the first one fails, `Flash_program` reports no failure. -/
theorem w25n01gv_not_reports : ¬ ∀ (bus : QspiBus (Bool × ℕ)) (unprotected : Bool × ℕ → Prop),
    Unprotects bus unprotected → ∀ (ioFormat : MssQspiIoFormat) (buf : ℕ → BitVec 8)
      (addr len blockIndex : ℕ) (s : Bool × ℕ),
      bus.ProgramReports s buf addr len ∧ bus.ReadReports ioFormat s buf addr len ∧
        bus.EraseBlockReports ioFormat s blockIndex ∧ bus.EraseReports ioFormat s := by
  intro reports
  have program := (reports firstProgramFails _ firstProgramFails_unprotects .normal (fun _ => 0) 0 2049
    0 (false, 0)).1
  have statuses : firstProgramFails.flashProgramStatuses (fun _ => 0) 0 2049 (false, 0) = [8, 0] := by
    decide +kernel
  have failsLast := ((programReports_iff ..).mp program).2
  rw [statuses] at failsLast
  obtain ⟨last, final, failed⟩ := failsLast ⟨8, by decide, .inl rfl⟩
  obtain rfl : 0 = last := Option.mem_some.mp final
  exact absurd failed (by decide)

end Hss
