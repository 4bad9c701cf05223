import Hss.Nand.Core

/-! The table of bad blocks against one that holds the status of each block: they answer alike in every
run that marks no block whose status is in two words. -/

namespace Hss.Nand

open Fuel

variable {τ σ : Type} {wide : ℕ → BitVec 64} {ops : NandOps σ} {m : MemoryOrganization}

/-- A device as `nanddev_init` leaves it. -/
def freshPacked (chip : σ) : NandDevice BbtCache σ := ⟨fun _ => 0, 0, chip⟩

def freshExact (chip : σ) : NandDevice (ℕ → BlockStatus) σ := ⟨fun _ => .unknown, 0, chip⟩

/-- The packed table reads as the other one. -/
def TracksTable (wide : ℕ → BitVec 64) (m : MemoryOrganization) (cache : BbtCache)
    (status : ℕ → BlockStatus) : Prop :=
  ∀ entry, (packedTable wide m).getBlockStatus cache entry =
    (exactTable m).getBlockStatus status entry

/-- Two devices that differ only in their tables, which read alike. -/
structure Tracks (wide : ℕ → BitVec 64) (m : MemoryOrganization) (nand : NandDevice BbtCache σ)
    (nand' : NandDevice (ℕ → BlockStatus) σ) : Prop where
  bbt : TracksTable wide m nand.bbt nand'.bbt
  badblocks : nand.badblocks = nand'.badblocks
  chip : nand.chip = nand'.chip
  whole : ∀ entry, sticky wide entry ≠ 0 → nand'.bbt entry ≠ .worn ∧ nand'.bbt entry ≠ .reserved

/-- Two results that are alike, with devices that are. -/
def Alike {α : Type} (wide : ℕ → BitVec 64) (m : MemoryOrganization)
    (r : Result (α × NandDevice BbtCache σ)) (r' : Result (α × NandDevice (ℕ → BlockStatus) σ)) :
    Prop :=
  (∃ stop, r = .error stop ∧ r' = .error stop) ∨
    ∃ a nand nand', r = .ok (a, nand) ∧ r' = .ok (a, nand') ∧ Tracks wide m nand nand'

variable {cache : BbtCache} {status : ℕ → BlockStatus} {entry : ℕ} {new : BlockStatus}
  {nand : NandDevice BbtCache σ} {nand' : NandDevice (ℕ → BlockStatus) σ} {pos last : NandPos}

theorem BlockStatus.code_inj {a b : BlockStatus} : a.code = b.code ↔ a = b := by
  cases a <;> cases b <;> decide

theorem exactTable_get (known : entry < nanddevNeraseblocks m) :
    (exactTable m).getBlockStatus status entry = some (status entry).code :=
  if_neg (Nat.not_le.mpr known)

theorem exactTable_get_none (out : nanddevNeraseblocks m ≤ entry) :
    (exactTable m).getBlockStatus status entry = none :=
  if_pos out

theorem exactTable_set (known : entry < nanddevNeraseblocks m) :
    (exactTable m).setBlockStatus status entry new = some (Function.update status entry new) :=
  if_neg (Nat.not_le.mpr known)

theorem exactTable_get_eq_some {known : BlockStatus} :
    (exactTable m).getBlockStatus status entry = some known.code ↔
      entry < nanddevNeraseblocks m ∧ status entry = known := by
  rcases Nat.lt_or_ge entry (nanddevNeraseblocks m) with less | out
  · rw [exactTable_get less, Option.some_inj, BlockStatus.code_inj, and_iff_right less]
  · rw [exactTable_get_none out]
    exact iff_of_false nofun fun both => absurd both.1 (Nat.not_lt.mpr out)

/-- The status that the factory gives has no bit in the first of two words. -/
theorem code_factoryBad_and_sticky : BlockStatus.factoryBad.code &&& sticky wide entry = 0 := by
  refine BitVec.eq_of_getLsbD_eq fun k less => ?_
  rw [BitVec.getLsbD_and]
  by_cases third : k = 2
  · have clear : (sticky wide entry).getLsbD 2 = false := by
      rw [sticky, bitsPerBlock_eq, bitsPerLong_eq]
      split
      · rw [BitVec.getLsbD_ushiftRight, BitVec.getLsbD_of_ge _ _ (by omega)]
      · rfl
    rw [third, clear, Bool.and_false]
    rfl
  · have clear : ∀ k < 64, k ≠ 2 → BlockStatus.factoryBad.code.getLsbD k = false := by decide
    rw [clear k less third, Bool.false_and]
    simp

/-- A write that nothing sticky gets into. -/
theorem TracksTable.set (tracks : TracksTable wide m cache status)
    (exact : new.code ||| (status entry).code &&& sticky wide entry = new.code) :
    ((packedTable wide m).setBlockStatus cache entry new = none ∧
        (exactTable m).setBlockStatus status entry new = none) ∨
      ∃ cache', (packedTable wide m).setBlockStatus cache entry new = some cache' ∧
        (exactTable m).setBlockStatus status entry new = some (Function.update status entry new) ∧
        TracksTable wide m cache' (Function.update status entry new) := by
  by_cases known : entry < nanddevNeraseblocks m
  · obtain ⟨cache', written⟩ := exists_setBlockStatus wide cache known new
    refine .inr ⟨cache', written, if_neg (Nat.not_le.mpr known), fun entry' => ?_⟩
    have known' := tracks entry'
    rw [packedTable] at known' ⊢
    dsimp only at known' ⊢
    rw [getBlockStatus_setBlockStatus written]
    split
    next same =>
      subst same
      rw [known', exactTable_get known, exactTable_get known, Function.update_self, Option.map_some,
        exact]
    next other =>
      rw [known']
      show _ = if _ then none else some (Function.update status entry new entry').code
      rw [Function.update_of_ne other]
      rfl
  · have out := Nat.le_of_not_lt known
    refine .inl ⟨?_, if_pos out⟩
    show nanddevBbtSetBlockStatus wide m cache entry new = none
    rw [nanddevBbtSetBlockStatus]
    dsimp only
    rw [if_pos out]

/-- The write of a status that is found out, or of one that is forgotten, is exact. -/
theorem exact_of_whole (whole : sticky wide entry ≠ 0 → status entry ≠ .worn ∧ status entry ≠ .reserved)
    (other : sticky wide entry = 0 ∨ status entry ≠ .good) :
    new.code ||| (status entry).code &&& sticky wide entry = new.code := by
  by_cases zero : sticky wide entry = 0
  · simp [zero]
  · obtain ⟨worn, reserved⟩ := whole zero
    have good := other.resolve_left zero
    cases old : status entry with
    | unknown => simp [BlockStatus.code]
    | factoryBad => simp [code_factoryBad_and_sticky]
    | good => exact absurd old good
    | worn => exact absurd old worn
    | reserved => exact absurd old reserved

/-- A write into both tables. -/
theorem Tracks.set (tracks : Tracks wide m nand nand') (chip : σ) (badblocks : ℕ)
    (other : sticky wide entry = 0 ∨ nand'.bbt entry ≠ .good ∧ new ≠ .worn ∧ new ≠ .reserved) :
    ((packedTable wide m).setBlockStatus nand.bbt entry new = none ∧
        (exactTable m).setBlockStatus nand'.bbt entry new = none) ∨
      ∃ cache', (packedTable wide m).setBlockStatus nand.bbt entry new = some cache' ∧
        (exactTable m).setBlockStatus nand'.bbt entry new =
          some (Function.update nand'.bbt entry new) ∧
        Tracks wide m ⟨cache', badblocks, chip⟩
          ⟨Function.update nand'.bbt entry new, badblocks, chip⟩ := by
  refine (tracks.bbt.set (exact_of_whole (tracks.whole entry) (other.imp_right And.left))).imp_right ?_
  rintro ⟨cache', written, written', table⟩
  refine ⟨cache', written, written', table, rfl, rfl, fun entry' straddles => ?_⟩
  dsimp only
  by_cases same : entry' = entry
  · subst same
    rw [Function.update_self]
    exact (other.resolve_left straddles).2
  · rw [Function.update_of_ne same]
    exact tracks.whole entry' straddles

/-- A write of which nobody looks at the result. -/
theorem Tracks.setGetD (tracks : Tracks wide m nand nand') (chip : σ)
    (other : nand'.bbt entry ≠ .good ∧ new ≠ .worn ∧ new ≠ .reserved) :
    Tracks wide m
      ⟨((packedTable wide m).setBlockStatus nand.bbt entry new).getD nand.bbt, nand.badblocks, chip⟩
      ⟨((exactTable m).setBlockStatus nand'.bbt entry new).getD nand'.bbt, nand'.badblocks, chip⟩ := by
  rcases tracks.set chip nand'.badblocks (.inr other) with
    ⟨full, full'⟩ | ⟨cache', written, written', after⟩
  · rw [full, full']
    exact ⟨tracks.bbt, tracks.badblocks, rfl, tracks.whole⟩
  · rw [written, written']
    exact ⟨after.bbt, tracks.badblocks, rfl, after.whole⟩

theorem Tracks.isbad (tracks : Tracks wide m nand nand') (pos : NandPos) :
    (nanddevIsbad (packedTable wide m) ops m pos nand).1 =
        (nanddevIsbad (exactTable m) ops m pos nand').1 ∧
      Tracks wide m (nanddevIsbad (packedTable wide m) ops m pos nand).2
        (nanddevIsbad (exactTable m) ops m pos nand').2 := by
  have same := tracks.bbt (nanddevBbtPosToEntry m pos)
  by_cases unknown : (exactTable m).getBlockStatus nand'.bbt (nanddevBbtPosToEntry m pos) =
      some BlockStatus.unknown.code
  · have status := (exactTable_get_eq_some.mp unknown).2
    rw [nanddevIsbad_unknown (same.trans unknown), nanddevIsbad_unknown unknown, tracks.chip]
    refine ⟨rfl, tracks.setGetD _ ?_⟩
    rw [status]
    cases (ops.isbad pos nand'.chip).1 <;> decide
  · rw [nanddevIsbad_known (same ▸ unknown), nanddevIsbad_known unknown, same]
    exact ⟨rfl, tracks⟩

theorem Tracks.isreserved (tracks : Tracks wide m nand nand') (pos : NandPos) :
    nanddevIsreserved (packedTable wide m) m pos nand =
      nanddevIsreserved (exactTable m) m pos nand' := by
  rw [nanddevIsreserved, nanddevIsreserved, ← tracks.bbt]

/-- A mark of a block with its status in one word. -/
theorem Tracks.markbad (tracks : Tracks wide m nand nand') (pos : NandPos)
    (whole : sticky wide (nanddevBbtPosToEntry m pos) = 0) :
    (nanddevMarkbad (packedTable wide m) ops m pos nand).1 =
        (nanddevMarkbad (exactTable m) ops m pos nand').1 ∧
      Tracks wide m (nanddevMarkbad (packedTable wide m) ops m pos nand).2
        (nanddevMarkbad (exactTable m) ops m pos nand').2 := by
  obtain ⟨same, after⟩ : (nanddevIsbad _ ops m pos nand).1 = _ ∧ _ := tracks.isbad pos
  rw [nanddevMarkbad, nanddevMarkbad]
  dsimp only
  rw [same, after.chip]
  split
  · exact ⟨rfl, after⟩
  · rcases after.set (ops.markbad pos (nanddevIsbad (exactTable m) ops m pos nand').2.chip).2
        ((nanddevIsbad (exactTable m) ops m pos nand').2.badblocks + 1) (.inl whole) with
      ⟨full, full'⟩ | ⟨cache', written, written', marked⟩
    · rw [full, full']
      exact ⟨rfl, after.bbt, after.badblocks, rfl, after.whole⟩
    · rw [written, written', after.badblocks]
      exact ⟨rfl, marked⟩

/-- A block that is said to be bad is known to be. -/
theorem not_good_of_isbad (ops : NandOps σ) (pos : NandPos) (nand' : NandDevice (ℕ → BlockStatus) σ)
    (bad : (nanddevIsbad (exactTable m) ops m pos nand').1 = true) :
    (nanddevIsbad (exactTable m) ops m pos nand').2.bbt (nanddevBbtPosToEntry m pos) ≠ .good := by
  by_cases unknown : (exactTable m).getBlockStatus nand'.bbt (nanddevBbtPosToEntry m pos) =
      some BlockStatus.unknown.code
  · have known := (exactTable_get_eq_some.mp unknown).1
    rw [nanddevIsbad_unknown unknown] at bad ⊢
    dsimp only at bad ⊢
    rw [bad, exactTable_set known, Option.getD_some, Function.update_self]
    decide
  · rw [nanddevIsbad_known unknown] at bad ⊢
    simp only [Bool.or_eq_true, decide_eq_true_eq, exactTable_get_eq_some] at bad
    rcases bad with ⟨-, worn⟩ | ⟨-, factoryBad⟩
    · rw [worn]
      decide
    · rw [factoryBad]
      decide

theorem Tracks.opsErase (tracks : Tracks wide m nand nand') (pos : NandPos) :
    (Nand.opsErase ops pos nand).1 = (Nand.opsErase ops pos nand').1 ∧
      Tracks wide m (Nand.opsErase ops pos nand).2 (Nand.opsErase ops pos nand').2 := by
  rw [Nand.opsErase, Nand.opsErase, tracks.chip]
  exact ⟨rfl, tracks.bbt, tracks.badblocks, rfl, tracks.whole⟩

theorem Tracks.erase (tracks : Tracks wide m nand nand') (pos : NandPos) :
    (nanddevErase (packedTable wide m) ops m pos nand).1 =
        (nanddevErase (exactTable m) ops m pos nand').1 ∧
      Tracks wide m (nanddevErase (packedTable wide m) ops m pos nand).2
        (nanddevErase (exactTable m) ops m pos nand').2 := by
  obtain ⟨same, after⟩ : (nanddevIsbad _ ops m pos nand).1 = _ ∧ _ := tracks.isbad pos
  have bad := not_good_of_isbad (m := m) ops pos nand'
  rw [nanddevErase, nanddevErase]
  dsimp only
  rw [same, after.isreserved]
  split
  next refused =>
    split
    next => exact ⟨rfl, after⟩
    next free =>
      have marked := refused
      rw [Bool.eq_false_iff.mpr free, Bool.or_false] at marked
      rw [after.chip]
      exact (after.setGetD _ ⟨bad marked, by decide, by decide⟩).opsErase pos
  next => exact after.opsErase pos

theorem Alike.ok {α : Type} (a : α) (tracks : Tracks wide m nand nand') :
    Alike wide m (.ok (a, nand)) (.ok (a, nand')) :=
  .inr ⟨a, nand, nand', rfl, rfl, tracks⟩

theorem Tracks.mtdEraseLoop (tracks : Tracks wide m nand nand') (fuel : ℕ) (pos : NandPos) :
    Alike wide m (nanddevMtdEraseLoop (packedTable wide m) ops m last fuel pos nand)
      (nanddevMtdEraseLoop (exactTable m) ops m last fuel pos nand') := by
  induction fuel generalizing pos nand nand' with
  | zero => exact .inl ⟨.running, rfl, rfl⟩
  | succ fuel ih =>
    obtain ⟨same, after⟩ : (nanddevErase _ ops m pos nand).1 = _ ∧ _ := tracks.erase pos
    rw [nanddevMtdEraseLoop, nanddevMtdEraseLoop]
    dsimp only
    rw [same]
    split
    · split
      · exact .ok _ after
      · exact ih after _
    · exact .ok _ tracks

theorem Tracks.mtdErase (tracks : Tracks wide m nand nand') (addr len fuel : ℕ) :
    Alike wide m (Nand.mtdErase (packedTable wide m) ops m addr len fuel nand)
      (Nand.mtdErase (exactTable m) ops m addr len fuel nand') := by
  rw [Nand.mtdErase, Nand.mtdErase]
  split
  · exact .ok _ tracks
  · split
    · exact .ok _ tracks
    · exact tracks.mtdEraseLoop fuel _

/-- A request that does not mark a block with its status in two words. -/
def MarksWhole (wide : ℕ → BitVec 64) (m : MemoryOrganization) : BlockRequest → Prop
  | .markbad offs => sticky wide (blockOf m offs) = 0
  | _ => True

theorem Tracks.serve (tracks : Tracks wide m nand nand') (ops : NandOps σ) (fuel : ℕ)
    (request : BlockRequest) (whole : MarksWhole wide m request) :
    Alike wide m (Nand.serve (packedTable wide m) ops m fuel nand request)
      (Nand.serve (exactTable m) ops m fuel nand' request) := by
  cases request with
  | isbad offs =>
    rw [Nand.serve, Nand.serve, mtdBlockIsbad, mtdBlockIsbad]
    dsimp only
    split
    · exact .ok _ tracks
    · obtain ⟨same, after⟩ : (nanddevIsbad _ ops m _ nand).1 = _ ∧ _ :=
        tracks.isbad (nanddevOffsToPos m offs).2
      rw [same]
      exact .ok _ after
  | isreserved offs =>
    rw [Nand.serve, Nand.serve, tracks.isreserved]
    exact .ok _ tracks
  | markbad offs =>
    obtain ⟨same, after⟩ : (nanddevMarkbad _ ops m _ nand).1 = _ ∧ _ :=
      tracks.markbad (nanddevOffsToPos m offs).2 whole
    rw [Nand.serve, Nand.serve, same]
    exact .ok _ after
  | erase addr len => exact tracks.mtdErase addr len fuel

theorem Tracks.serveAll (tracks : Tracks wide m nand nand') (ops : NandOps σ) (fuel : ℕ)
    {requests : List BlockRequest} (whole : ∀ request ∈ requests, MarksWhole wide m request) :
    Alike wide m (Nand.serveAll (packedTable wide m) ops m fuel requests nand)
      (Nand.serveAll (exactTable m) ops m fuel requests nand') := by
  induction requests generalizing nand nand' with
  | nil => exact .ok _ tracks
  | cons request requests ih =>
    obtain ⟨first, later⟩ := List.forall_mem_cons.mp whole
    rw [Nand.serveAll, Nand.serveAll]
    rcases tracks.serve ops fuel request first with
      ⟨stop, ran, ran'⟩ | ⟨outcome, next, next', ran, ran', after⟩
    · rw [ran, ran']
      exact .inl ⟨stop, rfl, rfl⟩
    · rw [ran, ran']
      rcases ih after later with ⟨stop, rest, rest'⟩ | ⟨outcomes, final, final', rest, rest', done⟩
      · refine .inl ⟨stop, ?_, ?_⟩
        · show (Nand.serveAll _ ops m fuel requests next >>= _) = _
          rw [rest]
          rfl
        · show (Nand.serveAll _ ops m fuel requests next' >>= _) = _
          rw [rest']
          rfl
      · refine .inr ⟨outcome :: outcomes, final, final', ?_, ?_, done⟩
        · show (Nand.serveAll _ ops m fuel requests next >>= _) = _
          rw [rest]
          rfl
        · show (Nand.serveAll _ ops m fuel requests next' >>= _) = _
          rw [rest']
          rfl

theorem tracks_fresh (chip : σ) : Tracks wide m (freshPacked chip) (freshExact chip) := by
  refine ⟨fun entry => ?_, rfl, rfl, fun entry _ => ⟨nofun, nofun⟩⟩
  rcases Nat.lt_or_ge entry (nanddevNeraseblocks m) with known | out
  · obtain ⟨x, reads⟩ := exists_getBlockStatus wide (fun _ => 0) known
    show nanddevBbtGetBlockStatus wide m (fun _ => 0) entry = _
    rw [reads, exactTable_get known]
    congr 1
    refine BitVec.eq_of_getLsbD_eq fun k _ => ?_
    rw [getBlockStatus_bit reads]
    simp [BitWords.bit, freshExact, BlockStatus.code]
  · rw [exactTable_get_none out]
    exact getBlockStatus_of_le out

/-- In every run that marks no block whose status is in two words, the outcomes of the requests, the
count of the bad blocks and the device come out as with a table that holds the status of each block. -/
theorem serveAll_exact (wide : ℕ → BitVec 64) (ops : NandOps σ) (m : MemoryOrganization) (fuel : ℕ)
    (chip : σ) {requests : List BlockRequest}
    (whole : ∀ offs, .markbad offs ∈ requests → blockOf m offs % 64 ≠ 21 ∧ blockOf m offs % 64 ≠ 42) :
    (Nand.serveAll (packedTable wide m) ops m fuel requests (freshPacked chip)).map
        (fun r => (r.1, r.2.badblocks, r.2.chip)) =
      (Nand.serveAll (exactTable m) ops m fuel requests (freshExact chip)).map
        (fun r => (r.1, r.2.badblocks, r.2.chip)) := by
  have marks : ∀ request ∈ requests, MarksWhole wide m request := by
    intro request present
    cases request with
    | markbad offs => exact sticky_eq_zero (whole offs present)
    | _ => trivial
  rcases (tracks_fresh chip).serveAll ops fuel marks with
    ⟨stop, ran, ran'⟩ | ⟨outcomes, nand, nand', ran, ran', after⟩
  · rw [ran, ran']
    rfl
  · rw [ran, ran']
    show Except.ok (outcomes, nand.badblocks, nand.chip) = _
    rw [after.badblocks, after.chip]
    rfl

theorem serveAll_exact_marked :
    (Nand.serveAll (packedTable riscvWide w25n01gvMemorg)
        (⟨fun _ n => (0, n + 1), fun _ n => (0, n), fun _ n => (false, n)⟩ : NandOps ℕ) w25n01gvMemorg 9
        [.markbad 0x20000, .isbad 0x20000, .erase 0 0x40000, .isbad 0x20000] (freshPacked 0)).map
        (fun r => (r.1, r.2.badblocks, r.2.chip)) =
      (Nand.serveAll (exactTable w25n01gvMemorg)
        (⟨fun _ n => (0, n + 1), fun _ n => (0, n), fun _ n => (false, n)⟩ : NandOps ℕ) w25n01gvMemorg 9
        [.markbad 0x20000, .isbad 0x20000, .erase 0 0x40000, .isbad 0x20000] (freshExact 0)).map
        (fun r => (r.1, r.2.badblocks, r.2.chip)) := by
  refine serveAll_exact riscvWide _ w25n01gvMemorg 9 0 fun offs marked => ?_
  simp only [List.mem_cons, BlockRequest.markbad.injEq, List.not_mem_nil, or_false,
    reduceCtorEq] at marked
  rw [marked]
  decide

end Hss.Nand
