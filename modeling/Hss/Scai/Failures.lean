import Hss.Scai.Mt29f

/-! What the driver of the MT29F flash reports: its results against the statuses that it waits for. -/

namespace Hss

/-! ### Failures in a status -/

/-- OIP, bit 0, is set in the last poll: the flash stays busy. -/
def StaysBusy (status : BitVec 8) : Prop := status.getLsbD 0 = true

/-- E_FAIL, bit 2 -/
def EFail (status : BitVec 8) : Prop := status.getLsbD 2 = true

/-- P_FAIL, bit 3 -/
def PFail (status : BitVec 8) : Prop := status.getLsbD 3 = true

/-- The ECC code in bits 4 to 6 is 2: there are errors that were not corrected. -/
def EccNotCorrected (status : BitVec 8) : Prop := status.extractLsb' 4 3 = 2

theorem readyResult_ne_zero (status : BitVec 8) : readyResult status ≠ 0 ↔ StaysBusy status := by
  unfold StaysBusy
  revert status
  decide

variable {σ : Type}

namespace ScaiFpgaChannel

variable (qspi : ScaiQspi σ)

/-! ### The statuses of a call -/

/-- For each page that the loop of `SCAI_MT29_Flash_read` takes, none if its die is not selected, or the
status that ends the wait. -/
def readStatuses (useQuadMode : Bool) :
    ℕ → ℕ → ℕ → ℕ → (ℕ → BitVec 8) → ScaiFpgaChannel σ → List (Option (BitVec 8))
  | 0, _, _, _, _, _ => []
  | rounds + 1, currentAddr, currentBuf, remainingLen, memory, channel =>
      if remainingLen = 0 then []
      else
        let physicalAddr := mt29fLogicalToPhysical currentAddr
        let colAddr := mt29fColAddr physicalAddr
        let (channel, result) := selectDie qspi physicalAddr channel
        if result = 255 then [none]
        else
          let (channel, status) := pollReady qspi mt29fTimeoutIter
            (pageReadToCache qspi (mt29fRowAddr physicalAddr) channel)
          let readLen :=
            if remainingLen > mt29fPageSizeBytes - colAddr then mt29fPageSizeBytes - colAddr
            else remainingLen
          let (channel, memory) :=
            readFromCache qspi useQuadMode colAddr readLen currentBuf memory channel
          some status :: if readyResult status ≠ 0 then [] else
            readStatuses useQuadMode rounds (currentAddr + readLen) (currentBuf + readLen)
              (remainingLen - readLen) memory channel

/-- The same for the pages of the loop of `SCAI_MT29_Flash_program`. -/
def programStatuses (useQuadMode : Bool) :
    ℕ → ℕ → (ℕ → BitVec 8) → ℕ → ScaiFpgaChannel σ → List (Option (BitVec 8))
  | 0, _, _, _, _ => []
  | rounds + 1, currentAddr, currentBuf, remainingLen, channel =>
      if remainingLen = 0 then []
      else
        let physicalAddr := mt29fLogicalToPhysical currentAddr
        let colAddr := mt29fColAddr physicalAddr
        let (channel, result) := selectDie qspi physicalAddr channel
        if result = 255 then [none]
        else
          let writeLenBytes :=
            if remainingLen > mt29fPageSizeBytes - colAddr then mt29fPageSizeBytes - colAddr
            else remainingLen
          let (channel, status) := pollReady qspi mt29fTimeoutIter
            (programPage qspi useQuadMode currentBuf physicalAddr writeLenBytes channel)
          some status :: if readyResult status ≠ 0 then [] else
            programStatuses useQuadMode rounds (currentAddr + writeLenBytes)
              (fun i => currentBuf (writeLenBytes + i)) (remainingLen - writeLenBytes)
              (enableWriteProtect qspi channel)

/-- The same for the block of `SCAI_MT29_Flash_erase_block`. -/
def eraseBlockStatus (blockNb : ℕ) (channel : ScaiFpgaChannel σ) : Option (BitVec 8) :=
  let physicalAddr := mt29fLogicalToPhysical (mt29fBlockSizeBytes * blockNb)
  let (channel, result) := selectDie qspi physicalAddr channel
  if result = 255 then none
  else
    some (pollReady qspi mt29fTimeoutIter
      (blockErase qspi (mt29fRowAddr physicalAddr) channel)).2

/-- The statuses of the pages of `SCAI_MT29_Flash_read`. -/
def flashReadStatuses (buf addr len : ℕ) (memory : ℕ → BitVec 8) (channel : ScaiFpgaChannel σ) :
    List (Option (BitVec 8)) :=
  readStatuses qspi (channel.format = .quadFull) len addr buf len memory channel

/-- The statuses of the pages of `SCAI_MT29_Flash_program`, which takes none without a buffer or for
more bytes than the flash has. -/
def flashProgramStatuses (buf : Option (ℕ → BitVec 8)) (addr len : ℕ)
    (channel : ScaiFpgaChannel σ) : List (Option (BitVec 8)) :=
  match buf with
  | none => []
  | some buf =>
      if len > mt29fTotalBlocks * mt29fBlockSizeBytes then []
      else programStatuses qspi (channel.format = .quadFull) len addr buf len channel

end ScaiFpgaChannel

/-- A page or block at which the driver gives up: its die is not selected, or the flash stays busy. -/
def GivesUp : Option (BitVec 8) → Prop
  | none => True
  | some status => StaysBusy status

/-- Where each die is selected, the result is not 0 exactly if a wait ends with the flash busy or with
a failure. -/
def ReportsFailures (Failed : BitVec 8 → Prop) (statuses : List (Option (BitVec 8)))
    (result : BitVec 8) : Prop :=
  none ∉ statuses → (result ≠ 0 ↔ ∃ status, some status ∈ statuses ∧
    (StaysBusy status ∨ Failed status))

/-- The flash stays busy in some wait, or no wait ends with a failure. -/
def NoFailureHidden (Failed : BitVec 8 → Prop) (statuses : List (Option (BitVec 8))) : Prop :=
  none ∉ statuses → (∃ status, some status ∈ statuses ∧ StaysBusy status) ∨
    ∀ status, some status ∈ statuses → ¬ Failed status

/-- What is reported when the driver gives up at a page, and only then. -/
theorem reportsFailures_iff {Failed : BitVec 8 → Prop} {statuses : List (Option (BitVec 8))}
    {result : BitVec 8} (reports : result ≠ 0 ↔ ∃ status ∈ statuses, GivesUp status) :
    ReportsFailures Failed statuses result ↔ NoFailureHidden Failed statuses := by
  refine forall_congr' fun selected => ?_
  have busy : result ≠ 0 ↔ ∃ status, some status ∈ statuses ∧ StaysBusy status := by
    rw [reports]
    constructor
    · rintro ⟨status, present, givesUp⟩
      cases status with
      | none => exact absurd present selected
      | some status => exact ⟨status, present, givesUp⟩
    · rintro ⟨status, present, stays⟩
      exact ⟨some status, present, stays⟩
  rw [busy]
  constructor
  · intro same
    by_cases stays : ∃ status, some status ∈ statuses ∧ StaysBusy status
    · exact .inl stays
    · exact .inr fun status present failed => stays (same.mpr ⟨status, present, .inr failed⟩)
  · rintro (stays | good)
    · refine iff_of_true stays ?_
      obtain ⟨status, present, busy⟩ := stays
      exact ⟨status, present, .inl busy⟩
    · constructor
      · rintro ⟨status, present, stays⟩
        exact ⟨status, present, .inl stays⟩
      · rintro ⟨status, present, stays | failed⟩
        · exact ⟨status, present, stays⟩
        · exact absurd failed (good status present)

namespace ScaiFpgaChannel

variable {qspi : ScaiQspi σ}

theorem readLoop_result (useQuadMode : Bool) (rounds currentAddr currentBuf remainingLen : ℕ)
    (memory : ℕ → BitVec 8) (channel : ScaiFpgaChannel σ) :
    (readLoop qspi useQuadMode rounds currentAddr currentBuf remainingLen memory channel).2.2 ≠ 0 ↔
      ∃ status ∈ readStatuses qspi useQuadMode rounds currentAddr currentBuf remainingLen memory
        channel, GivesUp status := by
  induction rounds generalizing currentAddr currentBuf remainingLen memory channel with
  | zero => simp [readLoop, readStatuses]
  | succ rounds ih =>
    rw [readLoop, readStatuses]
    by_cases done : remainingLen = 0
    · simp [done]
    rw [if_neg done, if_neg done]
    dsimp only
    obtain ⟨channel, result⟩ := selectDie qspi (mt29fLogicalToPhysical currentAddr) channel
    dsimp only
    by_cases noDie : result = 255
    · simp [noDie, GivesUp]
    rw [if_neg noDie, if_neg noDie, waitFlashReady]
    obtain ⟨channel, status⟩ := pollReady qspi mt29fTimeoutIter
      (pageReadToCache qspi (mt29fRowAddr (mt29fLogicalToPhysical currentAddr)) channel)
    dsimp only
    by_cases stays : readyResult status ≠ 0
    · rw [if_pos stays, if_pos stays]
      simp [GivesUp, (readyResult_ne_zero status).mp stays]
    · rw [if_neg stays, if_neg stays, ih]
      simp [GivesUp, mt (readyResult_ne_zero status).mpr stays]

theorem programLoop_result (useQuadMode : Bool) (rounds currentAddr : ℕ)
    (currentBuf : ℕ → BitVec 8) (remainingLen : ℕ) (channel : ScaiFpgaChannel σ) :
    (programLoop qspi useQuadMode rounds currentAddr currentBuf remainingLen channel).2 ≠ 0 ↔
      ∃ status ∈ programStatuses qspi useQuadMode rounds currentAddr currentBuf remainingLen channel,
        GivesUp status := by
  induction rounds generalizing currentAddr currentBuf remainingLen channel with
  | zero => simp [programLoop, programStatuses]
  | succ rounds ih =>
    rw [programLoop, programStatuses]
    by_cases done : remainingLen = 0
    · simp [done]
    rw [if_neg done, if_neg done]
    dsimp only
    obtain ⟨channel, result⟩ := selectDie qspi (mt29fLogicalToPhysical currentAddr) channel
    dsimp only
    by_cases noDie : result = 255
    · simp [noDie, GivesUp]
    rw [if_neg noDie, if_neg noDie, waitFlashReady]
    obtain ⟨channel, status⟩ := pollReady qspi mt29fTimeoutIter
      (programPage qspi useQuadMode currentBuf (mt29fLogicalToPhysical currentAddr)
        (if remainingLen > mt29fPageSizeBytes - mt29fColAddr (mt29fLogicalToPhysical currentAddr) then
          mt29fPageSizeBytes - mt29fColAddr (mt29fLogicalToPhysical currentAddr)
        else remainingLen) channel)
    dsimp only
    by_cases stays : readyResult status ≠ 0
    · rw [if_pos stays, if_pos stays]
      simp [GivesUp, (readyResult_ne_zero status).mp stays]
    · rw [if_neg stays, if_neg stays, ih]
      simp [GivesUp, mt (readyResult_ne_zero status).mpr stays]

theorem mt29FlashRead_result (buf addr len : ℕ) (memory : ℕ → BitVec 8)
    (channel : ScaiFpgaChannel σ) :
    (mt29FlashRead qspi buf addr len memory channel).2.2 ≠ 0 ↔
      ∃ status ∈ flashReadStatuses qspi buf addr len memory channel, GivesUp status :=
  readLoop_result ..

theorem mt29FlashEraseBlock_result (blockNb : ℕ) (channel : ScaiFpgaChannel σ) :
    (mt29FlashEraseBlock qspi blockNb channel).2 ≠ 0 ↔
      GivesUp (eraseBlockStatus qspi blockNb channel) := by
  rw [mt29FlashEraseBlock, eraseBlockStatus]
  generalize mt29fLogicalToPhysical (mt29fBlockSizeBytes * blockNb) = physicalAddr
  generalize selectDie qspi physicalAddr channel = selected
  obtain ⟨channel, result⟩ := selected
  dsimp only
  by_cases noDie : result = 255
  · simp [noDie, GivesUp]
  rw [if_neg noDie, if_neg noDie, waitFlashReady]
  generalize pollReady qspi mt29fTimeoutIter
    (blockErase qspi (mt29fRowAddr physicalAddr) channel) = polled
  obtain ⟨channel, status⟩ := polled
  dsimp only
  trans readyResult status ≠ 0
  · split
    · next stays => exact iff_of_true (by decide) stays
    · next ready => exact iff_of_false (by decide) ready
  · exact readyResult_ne_zero status

/-- Where `SCAI_MT29_Flash_program` takes the buffer and the length. -/
theorem mt29FlashProgram_result {buf : Option (ℕ → BitVec 8)} {len : ℕ} (some : buf ≠ none)
    (inside : len ≤ mt29fTotalBlocks * mt29fBlockSizeBytes) (addr : ℕ)
    (channel : ScaiFpgaChannel σ) :
    (mt29FlashProgram qspi buf addr len channel).2 ≠ 0 ↔
      ∃ status ∈ flashProgramStatuses qspi buf addr len channel, GivesUp status := by
  obtain ⟨buf, rfl⟩ := Option.ne_none_iff_exists'.mp some
  rw [mt29FlashProgram, flashProgramStatuses, if_neg (Nat.not_lt.mpr inside), if_neg (Nat.not_lt.mpr inside)]
  exact programLoop_result ..

/-- Where it refuses them. -/
theorem mt29FlashProgram_refused {buf : Option (ℕ → BitVec 8)} {len : ℕ}
    (refused : buf = none ∨ len > mt29fTotalBlocks * mt29fBlockSizeBytes) (addr : ℕ)
    (channel : ScaiFpgaChannel σ) :
    (mt29FlashProgram qspi buf addr len channel).2 = 1 ∧
      flashProgramStatuses qspi buf addr len channel = [] := by
  cases buf with
  | none => exact ⟨rfl, rfl⟩
  | some buf =>
    have long := refused.resolve_left (Option.some_ne_none _)
    rw [mt29FlashProgram, flashProgramStatuses, if_pos long, if_pos long]
    exact ⟨rfl, rfl⟩

end ScaiFpgaChannel

open ScaiFpgaChannel

/-- What the driver reports, whatever statuses the flash returns: a call reports failures exactly when
the flash stays busy in one of its waits or none of them ends with a failure; and
`SCAI_MT29_Flash_program` when it takes the buffer and the length besides. -/
theorem mt29f_reports_iff (qspi : ScaiQspi σ) (channel : ScaiFpgaChannel σ)
    (memory : ℕ → BitVec 8) (buf : ℕ) (source : Option (ℕ → BitVec 8)) (addr len blockNb : ℕ) :
    (ReportsFailures EFail [eraseBlockStatus qspi blockNb channel]
        (mt29FlashEraseBlock qspi blockNb channel).2 ↔
      NoFailureHidden EFail [eraseBlockStatus qspi blockNb channel]) ∧
    (ReportsFailures PFail (flashProgramStatuses qspi source addr len channel)
        (mt29FlashProgram qspi source addr len channel).2 ↔
      source ≠ none ∧ len ≤ mt29fTotalBlocks * mt29fBlockSizeBytes ∧
        NoFailureHidden PFail (flashProgramStatuses qspi source addr len channel)) ∧
    (ReportsFailures EccNotCorrected (flashReadStatuses qspi buf addr len memory channel)
        (mt29FlashRead qspi buf addr len memory channel).2.2 ↔
      NoFailureHidden EccNotCorrected (flashReadStatuses qspi buf addr len memory channel)) := by
  refine ⟨reportsFailures_iff ?_, ?_, reportsFailures_iff (mt29FlashRead_result ..)⟩
  · rw [mt29FlashEraseBlock_result]
    simp
  · by_cases taken : source ≠ none ∧ len ≤ mt29fTotalBlocks * mt29fBlockSizeBytes
    · rw [reportsFailures_iff (mt29FlashProgram_result taken.1 taken.2 addr channel)]
      exact ⟨fun hidden => ⟨taken.1, taken.2, hidden⟩, fun all => all.2.2⟩
    · rw [not_and_or, not_not, Nat.not_le] at taken
      obtain ⟨one, empty⟩ : (mt29FlashProgram qspi source addr len channel).2 = 1 ∧
          flashProgramStatuses qspi source addr len channel = [] :=
        mt29FlashProgram_refused taken addr channel
      rw [one, empty]
      refine iff_of_false (fun reports => ?_) fun all => ?_
      · obtain ⟨status, present, -⟩ := (reports (by simp)).mp (by decide)
        exact absurd present (by simp)
      · exact taken.elim all.1 (Nat.not_lt.mpr all.2.1)

/-- A flash that is ready at once and reports that an erasure failed.  What is behind the registers is
the byte that was sent last: the register that is read. -/
def eraseFails : ScaiQspi (BitVec 8) where
  setCtrl1 _ s := s
  setData element _ := element.extractLsb' 24 8
  getData s := (s, if s = mt29fRegStatus then 4 else 0)
  getIdle s := (s, true)
  getStatus2 s := (s, ⟨0, 1, Nat.zero_le _⟩)

theorem eraseFails_status : eraseBlockStatus eraseFails 0 ⟨idleCtrl1, .normal, 0⟩ = some 4 := by
  decide +kernel

theorem eraseFails_result : (mt29FlashEraseBlock eraseFails 0 ⟨idleCtrl1, .normal, 0⟩).2 = 0 := by
  decide +kernel

/-- A failed erasure of block 0 is not reported. -/
theorem mt29f_not_reports : ¬ ∀ (qspi : ScaiQspi (BitVec 8)) (channel : ScaiFpgaChannel (BitVec 8))
    (memory : ℕ → BitVec 8) (buf : ℕ) (source : Option (ℕ → BitVec 8)) (addr len blockNb : ℕ),
    ReportsFailures EFail [eraseBlockStatus qspi blockNb channel]
        (mt29FlashEraseBlock qspi blockNb channel).2 ∧
      ReportsFailures PFail (flashProgramStatuses qspi source addr len channel)
        (mt29FlashProgram qspi source addr len channel).2 ∧
      ReportsFailures EccNotCorrected (flashReadStatuses qspi buf addr len memory channel)
        (mt29FlashRead qspi buf addr len memory channel).2.2 := by
  intro reports
  have erase := (reports eraseFails ⟨idleCtrl1, .normal, 0⟩ (fun _ => 0) 0 none 0 0 0).1
  rw [eraseFails_status, eraseFails_result] at erase
  exact (erase (by simp)).mpr ⟨4, by simp, .inr rfl⟩ rfl

end Hss
