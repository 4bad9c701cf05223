import Hss.Nand.Blocks

/-! Marks of bad blocks: a block that was marked is said to be bad until it is erased, unless its
status is in two words of the table. -/

namespace Hss.Nand

open Fuel

variable {σ : Type} {wide : ℕ → BitVec 64} {ops : NandOps σ} {m : MemoryOrganization}
  {nand nand' : NandDevice BbtCache σ} {pos last : NandPos} {entry entry' : ℕ}
  {status new : BlockStatus}

/-- The table gives the block the status. -/
def NandDevice.Holds (wide : ℕ → BitVec 64) (m : MemoryOrganization) (nand : NandDevice BbtCache σ)
    (entry : ℕ) (status : BlockStatus) : Prop :=
  (packedTable wide m).getBlockStatus nand.bbt entry = some status.code

/-- The table gives each block a status. -/
def NandDevice.Coded (wide : ℕ → BitVec 64) (m : MemoryOrganization) (nand : NandDevice BbtCache σ) :
    Prop :=
  ∀ entry < nanddevNeraseblocks m, ∃ status, nand.Holds wide m entry status

/-- A request that erases nothing of the block. -/
def Spares (m : MemoryOrganization) (entry : ℕ) : BlockRequest → Prop
  | .erase addr len => entry < blockOf m addr ∨ blockOf m (addr + len - 1) < entry
  | _ => True

instance (m : MemoryOrganization) (entry : ℕ) : DecidablePred (Spares m entry) := fun request => by
  cases request <;> unfold Spares <;> infer_instance

/-- A status that no request changes that does not erase the block. -/
def Settled (wide : ℕ → BitVec 64) (entry : ℕ) (status : BlockStatus) : Prop :=
  status = .worn ∨ status = .factoryBad ∨
    status = .reserved ∧ (sticky wide entry).getLsbD 0 = true

theorem NandDevice.Holds.lt (holds : nand.Holds wide m entry status) :
    entry < nanddevNeraseblocks m := by
  by_contra out
  have none : (packedTable wide m).getBlockStatus nand.bbt entry = none :=
    getBlockStatus_of_le (Nat.le_of_not_lt out)
  cases none.symm.trans holds

theorem NandDevice.Holds.unique (first : nand.Holds wide m entry status)
    (second : nand.Holds wide m entry new) : status = new :=
  BlockStatus.code_inj.mp (Option.some.inj (first.symm.trans second))

/-- The status of a block after a write of another one -/
theorem NandDevice.Holds.set (holds : nand.Holds wide m entry status) (other : entry ≠ entry')
    (new : BlockStatus) (badblocks : ℕ) (chip : σ) :
    NandDevice.Holds wide m
      ⟨((packedTable wide m).setBlockStatus nand.bbt entry' new).getD nand.bbt, badblocks, chip⟩ entry
      status := by
  cases written : (packedTable wide m).setBlockStatus nand.bbt entry' new with
  | none => exact holds
  | some cache =>
    refine (getBlockStatus_setBlockStatus written entry).trans ?_
    rw [if_neg other]
    exact holds

/-- The status of a block after a write of it -/
theorem NandDevice.Holds.setSelf {after : BlockStatus} (holds : nand.Holds wide m entry status)
    (code : new.code ||| status.code &&& sticky wide entry = after.code) (badblocks : ℕ) (chip : σ) :
    ∃ cache, (packedTable wide m).setBlockStatus nand.bbt entry new = some cache ∧
      NandDevice.Holds wide m ⟨cache, badblocks, chip⟩ entry after := by
  obtain ⟨cache, written⟩ := exists_setBlockStatus wide nand.bbt holds.lt new
  refine ⟨cache, written, (getBlockStatus_setBlockStatus written entry).trans ?_⟩
  have before : nanddevBbtGetBlockStatus wide m nand.bbt entry = _ := holds
  rw [if_pos rfl, before, Option.map_some, code]

/-! ### Codes -/

theorem getLsbD_of_lt {x : BitVec 64} {j k : ℕ} (less : x.toNat < 2 ^ j) (le : j ≤ k) :
    x.getLsbD k = false :=
  Nat.testBit_lt_two_pow (less.trans_le (Nat.pow_le_pow_right (by decide) le))

/-- What a mark makes of a block that is not bad -/
theorem worn_or_sticky (st : BitVec 64) (old : status = .good ∨ status = .reserved) :
    BlockStatus.worn.code ||| status.code &&& st =
      (if st.getLsbD 0 then BlockStatus.reserved else .worn).code := by
  have low : status.code.getLsbD 0 = true := by rcases old with rfl | rfl <;> decide
  have small : status.code.toNat < 2 ^ 2 := by rcases old with rfl | rfl <;> decide
  have after : (if st.getLsbD 0 then BlockStatus.reserved else .worn).code.toNat < 2 ^ 2 := by
    split <;> decide
  refine BitVec.eq_of_getLsbD_eq fun k _ => ?_
  rw [BitVec.getLsbD_or, BitVec.getLsbD_and]
  match k with
  | 0 =>
    rw [low, Bool.true_and]
    cases st.getLsbD 0 <;> rfl
  | 1 => cases st.getLsbD 0 <;> rfl
  | k + 2 =>
    rw [getLsbD_of_lt small (Nat.le_add_left ..), getLsbD_of_lt after (Nat.le_add_left ..),
      getLsbD_of_lt (show BlockStatus.worn.code.toNat < 2 ^ 2 by decide) (Nat.le_add_left ..)]
    rfl

/-- What forgetting makes of a block that is bad -/
theorem unknown_or_sticky (wide : ℕ → BitVec 64) (entry : ℕ)
    (bad : status = .worn ∨ status = .factoryBad) :
    ∃ after : BlockStatus,
      BlockStatus.unknown.code ||| status.code &&& sticky wide entry = after.code := by
  rcases bad with rfl | rfl
  · refine ⟨if (sticky wide entry).getLsbD 1 then .worn else .unknown, ?_⟩
    have after : (if (sticky wide entry).getLsbD 1 then BlockStatus.worn else .unknown).code.toNat <
        2 ^ 2 := by
      split <;> decide
    refine BitVec.eq_of_getLsbD_eq fun k _ => ?_
    rw [BitVec.getLsbD_or, BitVec.getLsbD_and]
    match k with
    | 0 => cases (sticky wide entry).getLsbD 1 <;> rfl
    | 1 => cases (sticky wide entry).getLsbD 1 <;> rfl
    | k + 2 =>
      rw [getLsbD_of_lt (show BlockStatus.worn.code.toNat < 2 ^ 2 by decide) (Nat.le_add_left ..),
        getLsbD_of_lt after (Nat.le_add_left ..),
        getLsbD_of_lt (show BlockStatus.unknown.code.toNat < 2 ^ 2 by decide) (Nat.le_add_left ..)]
      rfl
  · refine ⟨.unknown, ?_⟩
    rw [code_factoryBad_and_sticky]
    rfl

/-! ### What the requests keep -/

theorem NandDevice.Holds.isbadOther (holds : nand.Holds wide m entry status) (ops : NandOps σ)
    (other : entry ≠ nanddevBbtPosToEntry m pos) :
    (nanddevIsbad (packedTable wide m) ops m pos nand).2.Holds wide m entry status := by
  by_cases unknown : (packedTable wide m).getBlockStatus nand.bbt (nanddevBbtPosToEntry m pos) =
      some BlockStatus.unknown.code
  · rw [nanddevIsbad_unknown unknown]
    exact holds.set other _ _ _
  · rw [nanddevIsbad_known unknown]
    exact holds

theorem NandDevice.Holds.isbad (holds : nand.Holds wide m entry status) (known : status ≠ .unknown) :
    (nanddevIsbad (packedTable wide m) ops m pos nand).2.Holds wide m entry status := by
  by_cases other : entry = nanddevBbtPosToEntry m pos
  · have lookup : (packedTable wide m).getBlockStatus nand.bbt (nanddevBbtPosToEntry m pos) ≠
        some BlockStatus.unknown.code := fun unknown => known (holds.unique (other ▸ unknown))
    rw [nanddevIsbad_known lookup]
    exact holds
  · exact holds.isbadOther ops other

/-- The block that is asked about is known afterwards, and is what the answer says. -/
theorem NandDevice.Holds.found (holds : nand.Holds wide m (nanddevBbtPosToEntry m pos) status)
    (ops : NandOps σ) :
    ∃ after : BlockStatus, after ≠ .unknown ∧
      (nanddevIsbad (packedTable wide m) ops m pos nand).2.Holds wide m
        (nanddevBbtPosToEntry m pos) after ∧
      (nanddevIsbad (packedTable wide m) ops m pos nand).1 =
        decide (after = .worn ∨ after = .factoryBad) := by
  by_cases unknown : status = .unknown
  · subst unknown
    have code : (foundStatus (ops.isbad pos nand.chip).1).code |||
        BlockStatus.unknown.code &&& sticky wide (nanddevBbtPosToEntry m pos) =
          (foundStatus (ops.isbad pos nand.chip).1).code := by
      simp [BlockStatus.code]
    obtain ⟨cache, written, after⟩ := holds.setSelf code nand.badblocks (ops.isbad pos nand.chip).2
    refine ⟨foundStatus (ops.isbad pos nand.chip).1, ?_, ?_, ?_⟩
    · cases (ops.isbad pos nand.chip).1 <;> decide
    · rw [nanddevIsbad_unknown holds, written]
      exact after
    · rw [nanddevIsbad_unknown holds]
      cases (ops.isbad pos nand.chip).1 <;> rfl
  · refine ⟨status, unknown, holds.isbad unknown, ?_⟩
    have known : (packedTable wide m).getBlockStatus nand.bbt (nanddevBbtPosToEntry m pos) ≠
        some BlockStatus.unknown.code := fun lookup => unknown (holds.unique lookup)
    have lookup : (packedTable wide m).getBlockStatus nand.bbt (nanddevBbtPosToEntry m pos) = _ := holds
    rw [nanddevIsbad_known known, lookup]
    simp only [Option.some_inj, BlockStatus.code_inj, Bool.decide_or]

/-- A block that is found not to be bad, and what a mark makes of it -/
theorem NandDevice.Holds.marked (holds : nand.Holds wide m (nanddevBbtPosToEntry m pos) status)
    (ops : NandOps σ) :
    ∃ after : BlockStatus,
      (nanddevMarkbad (packedTable wide m) ops m pos nand).2.Holds wide m
        (nanddevBbtPosToEntry m pos) after ∧
      ((nanddevIsbad (packedTable wide m) ops m pos nand).1 = true →
        after = .worn ∨ after = .factoryBad) ∧
      ((nanddevIsbad (packedTable wide m) ops m pos nand).1 = false →
        after = if (sticky wide (nanddevBbtPosToEntry m pos)).getLsbD 0 then .reserved else .worn) := by
  obtain ⟨found, known, after, answer⟩ := holds.found ops
  rw [nanddevMarkbad]
  dsimp only
  rw [answer]
  by_cases bad : found = .worn ∨ found = .factoryBad
  · rw [decide_eq_true bad, if_pos rfl]
    exact ⟨found, after, fun _ => bad, fun free => Bool.noConfusion free⟩
  · rw [decide_eq_false bad, if_neg Bool.false_ne_true]
    have free : found = .good ∨ found = .reserved := by
      cases found with
      | good => exact .inl rfl
      | reserved => exact .inr rfl
      | unknown => exact absurd rfl known
      | worn => exact absurd (.inl rfl) bad
      | factoryBad => exact absurd (.inr rfl) bad
    obtain ⟨cache, written, marked⟩ := after.setSelf (worn_or_sticky _ free)
      ((nanddevIsbad (packedTable wide m) ops m pos nand).2.badblocks + 1)
      (ops.markbad pos (nanddevIsbad (packedTable wide m) ops m pos nand).2.chip).2
    rw [written]
    exact ⟨_, marked, fun bad => Bool.noConfusion bad, fun _ => rfl⟩

theorem NandDevice.Holds.markbadOther (holds : nand.Holds wide m entry status)
    (other : entry ≠ nanddevBbtPosToEntry m pos) :
    (nanddevMarkbad (packedTable wide m) ops m pos nand).2.Holds wide m entry status := by
  have after := holds.isbadOther ops other
  rw [nanddevMarkbad]
  dsimp only
  split
  · exact after
  · have kept := after.set other .worn
      ((nanddevIsbad (packedTable wide m) ops m pos nand).2.badblocks + 1)
      (ops.markbad pos (nanddevIsbad (packedTable wide m) ops m pos nand).2.chip).2
    split
    next full => exact after
    next cache written =>
      rw [written] at kept
      exact kept

theorem NandDevice.Holds.markbad (holds : nand.Holds wide m entry status)
    (settled : Settled wide entry status) :
    (nanddevMarkbad (packedTable wide m) ops m pos nand).2.Holds wide m entry status := by
  by_cases other : entry = nanddevBbtPosToEntry m pos
  · subst other
    obtain ⟨found, known, there, answer⟩ := holds.found ops
    obtain ⟨after, marked, bad, free⟩ := holds.marked ops
    have unknown : status ≠ .unknown := by
      rcases settled with rfl | rfl | ⟨rfl, -⟩ <;> decide
    obtain rfl : found = status := there.unique (holds.isbad unknown)
    rcases settled with rfl | rfl | ⟨rfl, stuck⟩
    · rw [nanddevMarkbad_bad (answer.trans (by decide))]
      exact there
    · rw [nanddevMarkbad_bad (answer.trans (by decide))]
      exact there
    · have reserved := free (answer.trans (by decide))
      rw [if_pos stuck] at reserved
      exact reserved ▸ marked
  · exact holds.markbadOther other

theorem NandDevice.Holds.eraseOther (holds : nand.Holds wide m entry status) (ops : NandOps σ)
    (other : entry ≠ nanddevBbtPosToEntry m pos) :
    (nanddevErase (packedTable wide m) ops m pos nand).2.Holds wide m entry status := by
  have after := holds.isbadOther ops other
  rw [nanddevErase]
  dsimp only
  split
  · split
    · exact after
    · exact after.set other _ _ _
  · exact after

theorem NandDevice.Holds.mtdEraseLoop (usable : m.Usable) (inside : pos.Within m)
    (inside' : last.Within m) (target : last.target < m.ntargets) {fuel : ℕ} {outcome : EraseOutcome}
    (holds : nand.Holds wide m entry status)
    (spared : entry < blockNumber m pos ∨ blockNumber m last < entry)
    (ran : nanddevMtdEraseLoop (packedTable wide m) ops m last fuel pos nand = .ok (outcome, nand')) :
    nand'.Holds wide m entry status := by
  induction fuel generalizing pos nand with
  | zero => cases ran
  | succ fuel ih =>
    rw [nanddevMtdEraseLoop] at ran
    dsimp only at ran
    split at ran
    next more =>
      obtain ⟨here, block, le⟩ := inside.entry_le usable inside' target more
      have after := holds.eraseOther ops (show entry ≠ nanddevBbtPosToEntry m pos by omega)
      split at ran
      · cases ran
        exact after
      · obtain ⟨next, number⟩ := inside.nextEraseblock usable here
        exact ih next after (by omega) ran
    next =>
      cases ran
      exact holds

theorem NandDevice.Holds.serve (usable : m.Usable) {fuel : ℕ} {request : BlockRequest}
    {outcome : EraseOutcome} (holds : nand.Holds wide m entry status)
    (settled : Settled wide entry status) (spares : Spares m entry request)
    (ran : Nand.serve (packedTable wide m) ops m fuel nand request = .ok (outcome, nand')) :
    nand'.Holds wide m entry status := by
  have known : status ≠ .unknown := by
    rcases settled with rfl | rfl | ⟨rfl, -⟩ <;> decide
  cases request with
  | isbad offs =>
    rw [Nand.serve, mtdBlockIsbad] at ran
    dsimp only at ran
    split at ran
    · cases ran
      exact holds
    · cases ran
      exact holds.isbad known
  | isreserved offs =>
    cases ran
    exact holds
  | markbad offs =>
    cases ran
    exact holds.markbad settled
  | erase addr len =>
    rw [Nand.serve, mtdErase] at ran
    split at ran
    · cases ran
      exact holds
    next fits =>
      split at ran
      · cases ran
        exact holds
      next some =>
        have last := target_offsToPos usable (show addr + len - 1 < nanddevSize m by omega)
        have first := target_offsToPos usable (show addr < nanddevSize m by omega)
        have blocks : entry < blockOf m addr ∨ blockOf m (addr + len - 1) < entry := spares
        rw [blockOf, blockOf, (within_offsToPos usable _).entry usable first,
          (within_offsToPos usable _).entry usable last] at blocks
        exact holds.mtdEraseLoop usable (within_offsToPos usable _) (within_offsToPos usable _) last
          blocks ran

/-- What is settled of a block stays so until the block is erased. -/
theorem NandDevice.Holds.serveAll (usable : m.Usable) {fuel : ℕ} {requests : List BlockRequest}
    {outcomes : List EraseOutcome} (holds : nand.Holds wide m entry status)
    (settled : Settled wide entry status) (spares : ∀ request ∈ requests, Spares m entry request)
    (ran : Nand.serveAll (packedTable wide m) ops m fuel requests nand = .ok (outcomes, nand')) :
    nand'.Holds wide m entry status := by
  induction requests generalizing nand outcomes with
  | nil =>
    cases ran
    exact holds
  | cons request requests ih =>
    obtain ⟨first, later⟩ := List.forall_mem_cons.mp spares
    obtain ⟨⟨outcome, next⟩, served, rest⟩ := Outcome.bind_eq_ok.mp ran
    obtain ⟨⟨outcomes', final⟩, ran', same⟩ := Outcome.bind_eq_ok.mp rest
    cases same
    exact ih (holds.serve usable settled first served) later ran'

/-! ### Every run -/

theorem NandDevice.Coded.isbad (coded : nand.Coded wide m) (pos : NandPos) :
    (nanddevIsbad (packedTable wide m) ops m pos nand).2.Coded wide m := by
  intro entry known
  obtain ⟨status, holds⟩ := coded entry known
  by_cases other : entry = nanddevBbtPosToEntry m pos
  · subst other
    obtain ⟨after, -, there, -⟩ := holds.found ops
    exact ⟨after, there⟩
  · exact ⟨status, holds.isbadOther ops other⟩

theorem NandDevice.Coded.markbad (coded : nand.Coded wide m) (pos : NandPos) :
    (nanddevMarkbad (packedTable wide m) ops m pos nand).2.Coded wide m := by
  intro entry known
  obtain ⟨status, holds⟩ := coded entry known
  by_cases other : entry = nanddevBbtPosToEntry m pos
  · subst other
    obtain ⟨after, there, -⟩ := holds.marked ops
    exact ⟨after, there⟩
  · exact ⟨status, holds.markbadOther other⟩

theorem NandDevice.Coded.erase (coded : nand.Coded wide m) (pos : NandPos) :
    (nanddevErase (packedTable wide m) ops m pos nand).2.Coded wide m := by
  intro entry known
  obtain ⟨status, holds⟩ := coded entry known
  by_cases other : entry = nanddevBbtPosToEntry m pos
  · subst other
    obtain ⟨after, -, there, answer⟩ := holds.found ops
    rw [nanddevErase]
    dsimp only
    split
    next refused =>
      split
      · exact ⟨after, there⟩
      next free =>
        rw [Bool.eq_false_iff.mpr free, Bool.or_false, answer, decide_eq_true_eq] at refused
        obtain ⟨forgotten, code⟩ := unknown_or_sticky wide
          (nanddevBbtPosToEntry m pos) refused
        obtain ⟨cache, written, there⟩ := there.setSelf code
          (nanddevIsbad (packedTable wide m) ops m pos nand).2.badblocks
          (ops.erase pos (nanddevIsbad (packedTable wide m) ops m pos nand).2.chip).2
        rw [written]
        exact ⟨forgotten, there⟩
    next => exact ⟨after, there⟩
  · exact ⟨status, holds.eraseOther ops other⟩

theorem NandDevice.Coded.mtdEraseLoop {fuel : ℕ} {outcome : EraseOutcome} (coded : nand.Coded wide m)
    (ran : nanddevMtdEraseLoop (packedTable wide m) ops m last fuel pos nand = .ok (outcome, nand')) :
    nand'.Coded wide m := by
  induction fuel generalizing pos nand with
  | zero => cases ran
  | succ fuel ih =>
    rw [nanddevMtdEraseLoop] at ran
    dsimp only at ran
    split at ran
    · split at ran
      · cases ran
        exact coded.erase pos
      · exact ih (coded.erase pos) ran
    · cases ran
      exact coded

theorem NandDevice.Coded.serve {fuel : ℕ} {request : BlockRequest} {outcome : EraseOutcome}
    (coded : nand.Coded wide m)
    (ran : Nand.serve (packedTable wide m) ops m fuel nand request = .ok (outcome, nand')) :
    nand'.Coded wide m := by
  cases request with
  | isbad offs =>
    rw [Nand.serve, mtdBlockIsbad] at ran
    dsimp only at ran
    split at ran
    · cases ran
      exact coded
    · cases ran
      exact coded.isbad _
  | isreserved offs =>
    cases ran
    exact coded
  | markbad offs =>
    cases ran
    exact coded.markbad _
  | erase addr len =>
    rw [Nand.serve, mtdErase] at ran
    split at ran
    · cases ran
      exact coded
    · split at ran
      · cases ran
        exact coded
      · exact coded.mtdEraseLoop ran

theorem NandDevice.Coded.serveAll {fuel : ℕ} {requests : List BlockRequest}
    {outcomes : List EraseOutcome} (coded : nand.Coded wide m)
    (ran : Nand.serveAll (packedTable wide m) ops m fuel requests nand = .ok (outcomes, nand')) :
    nand'.Coded wide m := by
  induction requests generalizing nand outcomes with
  | nil =>
    cases ran
    exact coded
  | cons request requests ih =>
    obtain ⟨⟨outcome, next⟩, served, rest⟩ := Outcome.bind_eq_ok.mp ran
    obtain ⟨⟨outcomes', final⟩, ran', same⟩ := Outcome.bind_eq_ok.mp rest
    cases same
    exact ih (coded.serve served) ran'

theorem freshPacked_coded (chip : σ) : (freshPacked chip).Coded wide m := fun entry known =>
  ⟨.unknown, ((tracks_fresh chip).bbt entry).trans (exactTable_get known)⟩

/-- In any state that requests lead to, a block is marked, and any requests follow that do not erase it:
it is then said to be bad if it was before, or else if the first bit of its status can be cleared. -/
theorem isbad_after_markbad_iff (usable : m.Usable) {fuel fuel' : ℕ} {before after : List BlockRequest}
    {outcomes outcomes' : List EraseOutcome} {chip : σ} {offs : ℕ}
    (reached : Nand.serveAll (packedTable wide m) ops m fuel before (freshPacked chip) =
      .ok (outcomes, nand))
    (inTable : blockOf m offs < nanddevNeraseblocks m)
    (spares : ∀ request ∈ after, Spares m (blockOf m offs) request)
    (later : Nand.serveAll (packedTable wide m) ops m fuel' after
      (nanddevMarkbad (packedTable wide m) ops m (nanddevOffsToPos m offs).2 nand).2 =
        .ok (outcomes', nand')) :
    (nanddevIsbad (packedTable wide m) ops m (nanddevOffsToPos m offs).2 nand').1 = true ↔
      (nanddevIsbad (packedTable wide m) ops m (nanddevOffsToPos m offs).2 nand).1 = true ∨
        (sticky wide (blockOf m offs)).getLsbD 0 = false := by
  obtain ⟨status, holds⟩ := (freshPacked_coded chip).serveAll reached _ inTable
  obtain ⟨marked, there, bad, free⟩ := holds.marked ops
  have settled : Settled wide (blockOf m offs) marked := by
    cases was : (nanddevIsbad (packedTable wide m) ops m (nanddevOffsToPos m offs).2 nand).1 with
    | true => exact (bad was).imp_right .inl
    | false =>
      rw [free was]
      split
      next stuck => exact .inr (.inr ⟨rfl, stuck⟩)
      next => exact .inl rfl
  have final := there.serveAll usable settled spares later
  obtain ⟨found, -, there', answer⟩ := final.found ops
  have known : marked ≠ .unknown := by
    rcases settled with worn | factoryBad | ⟨reserved, -⟩
    · rw [worn]
      decide
    · rw [factoryBad]
      decide
    · rw [reserved]
      decide
  obtain rfl : found = marked := there'.unique (final.isbad known)
  rw [answer, decide_eq_true_iff]
  cases was : (nanddevIsbad (packedTable wide m) ops m (nanddevOffsToPos m offs).2 nand).1 with
  | true => exact iff_of_true (bad was) (.inl rfl)
  | false =>
    rw [free was]
    show _ ↔ _ ∨ (sticky wide (nanddevBbtPosToEntry m (nanddevOffsToPos m offs).2)).getLsbD 0 = false
    cases (sticky wide (nanddevBbtPosToEntry m (nanddevOffsToPos m offs).2)).getLsbD 0 <;> decide

/-- A device on which nothing goes wrong, with no bad blocks -/
def quietOps : NandOps Unit :=
  ⟨fun _ chip => (0, chip), fun _ chip => (0, chip), fun _ chip => (false, chip)⟩

/-- Block 21 of the flash is asked about and marked, and others are marked and erased: it is said not to
be bad. -/
theorem isbad_after_markbad_iff_block21 : ∃ outcomes outcomes' nand nand',
    Nand.serveAll (packedTable riscvWide w25n01gvMemorg) quietOps w25n01gvMemorg 70000
      [.isbad 0x2A0000, .markbad 0x20000] (freshPacked ()) = .ok (outcomes, nand) ∧
    Nand.serveAll (packedTable riscvWide w25n01gvMemorg) quietOps w25n01gvMemorg 70000
      [.erase 0 0x40000, .isbad 0x2A0000, .markbad 0x2C0000]
      (nanddevMarkbad (packedTable riscvWide w25n01gvMemorg) quietOps w25n01gvMemorg
        (nanddevOffsToPos w25n01gvMemorg 0x2A0000).2 nand).2 = .ok (outcomes', nand') ∧
    (nanddevIsbad (packedTable riscvWide w25n01gvMemorg) quietOps w25n01gvMemorg
      (nanddevOffsToPos w25n01gvMemorg 0x2A0000).2 nand').1 = false := by
  have enough : nanddevNeraseblocks w25n01gvMemorg * w25n01gvMemorg.ntargets + 1 < 70000 := by decide
  have served := @exists_serveAll _ _ (packedTable riscvWide w25n01gvMemorg) quietOps w25n01gvMemorg _
    w25n01gvMemorg_usable enough
  obtain ⟨⟨outcomes, nand⟩, reached⟩ := served [.isbad 0x2A0000, .markbad 0x20000] (freshPacked ())
  obtain ⟨⟨outcomes', nand'⟩, later⟩ := served [.erase 0 0x40000, .isbad 0x2A0000, .markbad 0x2C0000]
    (nanddevMarkbad (packedTable riscvWide w25n01gvMemorg) quietOps w25n01gvMemorg
      (nanddevOffsToPos w25n01gvMemorg 0x2A0000).2 nand).2
  refine ⟨outcomes, outcomes', nand, nand', reached, later, ?_⟩
  have good : (Nand.serveAll (packedTable riscvWide w25n01gvMemorg) quietOps w25n01gvMemorg 70000
      [.isbad 0x2A0000, .markbad 0x20000] (freshPacked ())).map (fun r =>
        (nanddevIsbad (packedTable riscvWide w25n01gvMemorg) quietOps w25n01gvMemorg
          (nanddevOffsToPos w25n01gvMemorg 0x2A0000).2 r.2).1) = .ok false := by
    decide +kernel
  rw [reached] at good
  have before : (nanddevIsbad (packedTable riscvWide w25n01gvMemorg) quietOps w25n01gvMemorg
      (nanddevOffsToPos w25n01gvMemorg 0x2A0000).2 nand).1 = false := Except.ok.inj good
  have stuck := isbad_after_markbad_iff w25n01gvMemorg_usable reached
    (show blockOf w25n01gvMemorg 0x2A0000 < _ by decide) (by decide) later
  rw [Bool.eq_false_iff, Ne, stuck, before]
  decide +kernel

end Hss.Nand
