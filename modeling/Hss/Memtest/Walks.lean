import Hss.Memtest.Test
import Mathlib.Data.List.Nodup

/-! The loops of the memory test when no key is pressed: which words they read and write, and what they
find of a fault. -/

namespace Hss

/-- What a test keeps when it accesses words with `inside` only and looks for keys. -/
structure MemRig.Keeps (r : MemRig) (inside : Word → Prop) (I : MemTest → Prop) : Prop where
  read : ∀ {s offset}, inside offset → I s → I (r.read offset s).1
  write : ∀ {s offset} (value), inside offset → I s → I (r.write offset value s)
  check : ∀ {s}, I s → I (r.checkIfInterrupted s).1

/-- No key is pressed. -/
def MemRig.Quiet (r : MemRig) : Prop := ∀ k, r.keys k = false

/-- No key was found so far, and the words that were accessed satisfy `S`. -/
structure MemTest.Fine (S : Word → Prop) (s : MemTest) : Prop where
  uninterrupted : s.interrupted = false
  within : ∀ a ∈ s.accesses, S a

variable {r : MemRig} {s : MemTest} {inside : Word → Prop} {I : MemTest → Prop}
  {offset value c : Word} {offsets : List Word} {numBytes : Word}

/-! ### Single accesses -/

/-- The state after one more call of `check_if_interrupted` that found no key. -/
def MemTest.checked (s : MemTest) : MemTest := { s with checks := s.checks + 1 }

theorem checkIfInterrupted_quiet (quiet : r.Quiet) : r.checkIfInterrupted s = (s.checked, false) := by
  rw [MemRig.checkIfInterrupted, quiet, Bool.or_false, MemTest.checked]

theorem MemRig.Keeps.checked (keeps : r.Keeps inside I) (quiet : r.Quiet) (kept : I s) : I s.checked := by
  have checked := keeps.check kept
  rwa [checkIfInterrupted_quiet quiet] at checked

theorem fine_kept (quiet : r.Quiet) (S : Word → Prop) :
    r.Keeps (fun offset => S (r.address offset)) (MemTest.Fine S) where
  read here fine := ⟨fine.uninterrupted, List.forall_mem_cons.mpr ⟨here, fine.within⟩⟩
  write _ here fine := ⟨fine.uninterrupted, List.forall_mem_cons.mpr ⟨here, fine.within⟩⟩
  check fine := by
    rw [checkIfInterrupted_quiet quiet]
    exact ⟨fine.uninterrupted, fine.within⟩

/-- A word that was accessed stays so. -/
theorem accessed_kept (a : Word) : r.Keeps (fun _ => True) fun s => a ∈ s.accesses where
  read _ kept := List.mem_cons_of_mem _ kept
  write _ _ kept := List.mem_cons_of_mem _ kept
  check kept := kept

@[simp] theorem read_snd : (r.read offset s).2 = s.cells (r.cell offset) := rfl

theorem write_cells : (r.write offset value s).cells c =
    if c = r.cell offset then r.fault.hold (r.cell offset) value else s.cells c :=
  Function.update_apply ..

theorem write_cells_self : (r.write offset value s).cells (r.cell offset) =
    r.fault.hold (r.cell offset) value := write_cells.trans (if_pos rfl)

theorem write_cells_of_ne (other : c ≠ r.cell offset) : (r.write offset value s).cells c = s.cells c :=
  write_cells.trans (if_neg other)

/-! ### The data bus -/

theorem testPatterns_invariant (keeps : r.Keeps inside I) (kept : I s) (here : inside 0)
    (patterns : List Word) : I (r.testPatterns patterns s).1 := by
  induction patterns generalizing s with
  | nil => exact kept
  | cons pattern patterns ih =>
    have tested := keeps.read here (keeps.write pattern here kept)
    simp only [MemRig.testPatterns]
    split
    · exact tested
    · exact ih tested

/-- The walk over the data bus finds a value that the word does not hold. -/
theorem testPatterns_eq_zero_iff {patterns : List Word} (positive : ∀ pattern ∈ patterns, pattern ≠ 0) :
    (r.testPatterns patterns s).2 = 0 ↔
      ∀ pattern ∈ patterns, r.fault.hold (r.cell 0) pattern = pattern := by
  induction patterns generalizing s with
  | nil => exact iff_of_true rfl nofun
  | cons pattern patterns ih =>
    rw [List.forall_mem_cons] at positive ⊢
    simp only [MemRig.testPatterns, read_snd, write_cells_self]
    split
    next differs => exact iff_of_false positive.1 fun holds => differs holds.1
    next same =>
      rw [ih positive.2]
      exact ⟨fun rest => ⟨not_not.mp same, rest⟩, fun holds => holds.2⟩

/-! ### The address bus -/

theorem setProbes_invariant (keeps : r.Keeps inside I) (kept : I s)
    (all : ∀ offset ∈ offsets, inside offset) : I (r.setProbes offsets s).1 := by
  induction offsets generalizing s with
  | nil => exact kept
  | cons offset offsets ih =>
    rw [List.forall_mem_cons] at all
    have set := keeps.check (keeps.write busPattern all.1 kept)
    simp only [MemRig.setProbes]
    split
    · exact set
    · exact ih set all.2

theorem setProbes_exit (quiet : r.Quiet) (offsets : List Word) (s : MemTest) :
    (r.setProbes offsets s).2 = .finished := by
  induction offsets generalizing s with
  | nil => rfl
  | cons offset offsets ih =>
    simp only [MemRig.setProbes, checkIfInterrupted_quiet quiet]
    exact ih _

theorem setProbes_cells (quiet : r.Quiet) (c : Word) (offsets : List Word) (s : MemTest)
    (set : (∃ offset ∈ offsets, r.cell offset = c) ∨ s.cells c = r.fault.hold c busPattern) :
    (r.setProbes offsets s).1.cells c = r.fault.hold c busPattern := by
  induction offsets generalizing s with
  | nil => exact set.resolve_left nofun
  | cons offset offsets ih =>
    simp only [MemRig.setProbes, checkIfInterrupted_quiet quiet]
    refine ih _ ?_
    rw [List.exists_mem_cons_iff] at set
    by_cases here : c = r.cell offset
    · exact .inr (here ▸ write_cells_self)
    · obtain (first | rest) | before := set
      · exact absurd first.symm here
      · exact .inl rest
      · exact .inr ((write_cells_of_ne here).trans before)

theorem verifyProbes_invariant (keeps : r.Keeps inside I) (kept : I s)
    (all : ∀ offset ∈ offsets, inside offset) : I (r.verifyProbes offsets s).1 := by
  induction offsets generalizing s with
  | nil => exact kept
  | cons offset offsets ih =>
    rw [List.forall_mem_cons] at all
    have looked := keeps.read all.1 kept
    simp only [MemRig.verifyProbes]
    split
    · exact keeps.read all.1 looked
    · split
      · exact keeps.check looked
      · exact ih (keeps.check looked) all.2

theorem verifyProbes_cells (quiet : r.Quiet) (offsets : List Word) (s : MemTest) :
    (r.verifyProbes offsets s).1.cells = s.cells := by
  induction offsets generalizing s with
  | nil => rfl
  | cons offset offsets ih =>
    simp only [MemRig.verifyProbes, checkIfInterrupted_quiet quiet]
    split
    · rfl
    · exact ih _

theorem verifyProbes_exit (quiet : r.Quiet) (offsets : List Word) (s : MemTest) :
    ((r.verifyProbes offsets s).2 = .finished ∧
      ∀ offset ∈ offsets, s.cells (r.cell offset) = busPattern) ∨
    ((∃ address, (r.verifyProbes offsets s).2 = .found address) ∧
      ∃ offset ∈ offsets, s.cells (r.cell offset) ≠ busPattern) := by
  induction offsets generalizing s with
  | nil => exact .inl ⟨rfl, nofun⟩
  | cons offset offsets ih =>
    rw [List.forall_mem_cons, List.exists_mem_cons_iff]
    simp only [MemRig.verifyProbes, checkIfInterrupted_quiet quiet]
    split
    next differs => exact .inr ⟨⟨_, rfl⟩, .inl differs⟩
    next same =>
      have rest := ih (r.read offset s).1.checked
      exact rest.imp (fun ⟨done, holds⟩ => ⟨done, not_not.mp same, holds⟩)
        fun ⟨found, differs⟩ => ⟨found, .inr differs⟩

theorem otherAffected_invariant (testOffset : Word) (keeps : r.Keeps inside I) (kept : I s)
    (all : ∀ offset ∈ offsets, inside offset) : I (r.otherAffected testOffset offsets s).1 := by
  induction offsets generalizing s with
  | nil => exact kept
  | cons offset offsets ih =>
    rw [List.forall_mem_cons] at all
    have looked := keeps.read all.1 kept
    simp only [MemRig.otherAffected]
    split
    · exact keeps.read all.1 looked
    · exact ih looked all.2

theorem otherAffected_cells {testOffset : Word} :
    (r.otherAffected testOffset offsets s).1.cells = s.cells := by
  induction offsets generalizing s with
  | nil => rfl
  | cons offset offsets ih =>
    simp only [MemRig.otherAffected]
    split
    · rfl
    · exact ih

theorem otherAffected_iff {testOffset : Word} :
    (r.otherAffected testOffset offsets s).2 = true ↔
      ∃ offset ∈ offsets, s.cells (r.cell offset) ≠ busPattern ∧ offset ≠ testOffset := by
  induction offsets generalizing s with
  | nil => exact iff_of_false Bool.false_ne_true nofun
  | cons offset offsets ih =>
    rw [List.exists_mem_cons_iff]
    simp only [MemRig.otherAffected]
    split
    next affected => exact iff_of_true rfl (.inl affected)
    next same =>
      refine (@ih (r.read offset s).1).trans ?_
      exact ⟨.inr, fun affected => affected.resolve_left same⟩

theorem setAntiProbes_invariant (keeps : r.Keeps inside I) (kept : I s) (base : inside 0)
    (last : inside (probesEnd numBytes)) (probed : ∀ offset ∈ probes numBytes, inside offset)
    (all : ∀ offset ∈ offsets, inside offset) : I (r.setAntiProbes numBytes offsets s).1 := by
  induction offsets generalizing s with
  | nil => exact kept
  | cons testOffset offsets ih =>
    rw [List.forall_mem_cons] at all
    have looked := keeps.read base (keeps.write busAntiPattern all.1 kept)
    have compared := otherAffected_invariant testOffset keeps looked probed
    simp only [MemRig.setAntiProbes]
    split
    · exact keeps.read last looked
    · split
      · exact keeps.check compared
      · have restored := keeps.check (keeps.write busPattern all.1 compared)
        split
        · exact restored
        · exact ih restored all.2

/-- The cells of the base word and of the probes hold the pattern. -/
structure WalkSettled (r : MemRig) (numBytes : Word) (s : MemTest) : Prop where
  base : s.cells (r.cell 0) = busPattern
  others : ∀ offset ∈ probes numBytes, s.cells (r.cell offset) = busPattern

/-- What the walk with the antipattern relies on: the probes are no aliases of the base word, and their
cells hold the pattern, but not in place of the antipattern. -/
structure Probed (r : MemRig) (numBytes : Word) : Prop where
  apart : ∀ offset ∈ probes numBytes, r.cell offset ≠ r.cell 0
  pattern : ∀ offset ∈ probes numBytes, r.fault.hold (r.cell offset) busPattern = busPattern
  antiPattern : ∀ c, r.fault.hold c busAntiPattern ≠ busPattern

/-- One turn of the walk: the antipattern is written, and another probe is affected if it is an alias.
Else the cells are as before. -/
theorem WalkSettled.affected_iff (settled : WalkSettled r numBytes s) (probed : Probed r numBytes)
    (testOffset : Word) : (r.otherAffected testOffset (probes numBytes)
        (r.read 0 (r.write testOffset busAntiPattern s)).1).2 = true ↔
      ∃ offset ∈ probes numBytes, offset ≠ testOffset ∧ r.cell offset = r.cell testOffset := by
  refine otherAffected_iff.trans ?_
  have value : ∀ offset ∈ probes numBytes,
      (r.write testOffset busAntiPattern s).cells (r.cell offset) ≠ busPattern ↔
        r.cell offset = r.cell testOffset := by
    intro offset probe
    rw [write_cells]
    split
    next same => exact iff_of_true (probed.antiPattern _) same
    next other => exact iff_of_false (not_not.mpr (settled.others offset probe)) other
  constructor
  · rintro ⟨offset, probe, differs, other⟩
    exact ⟨offset, probe, other, (value offset probe).mp differs⟩
  · rintro ⟨offset, probe, other, same⟩
    exact ⟨offset, probe, (value offset probe).mpr same, other⟩

theorem WalkSettled.restored (settled : WalkSettled r numBytes s) (probed : Probed r numBytes)
    {testOffset : Word} (probe : testOffset ∈ probes numBytes) :
    WalkSettled r numBytes (r.write testOffset busPattern (r.otherAffected testOffset (probes numBytes)
      (r.read 0 (r.write testOffset busAntiPattern s)).1).1).checked := by
  have same : (r.write testOffset busPattern (r.otherAffected testOffset (probes numBytes)
      (r.read 0 (r.write testOffset busAntiPattern s)).1).1).cells = s.cells := by
    funext c
    by_cases here : c = r.cell testOffset
    · rw [here, write_cells_self, probed.pattern testOffset probe, settled.others testOffset probe]
    · rw [write_cells_of_ne here, otherAffected_cells]
      exact write_cells_of_ne here
  constructor
  · exact (congrFun same _).trans settled.base
  · exact fun offset probe => (congrFun same _).trans (settled.others offset probe)

/-- The base word keeps the pattern through the walk, so its message is never written. -/
theorem setAntiProbes_cons (quiet : r.Quiet) (settled : WalkSettled r numBytes s)
    (probed : Probed r numBytes) {testOffset : Word} (probe : testOffset ∈ probes numBytes)
    (offsets : List Word) :
    let t := (r.otherAffected testOffset (probes numBytes)
      (r.read 0 (r.write testOffset busAntiPattern s)).1).1
    ((∃ offset ∈ probes numBytes, offset ≠ testOffset ∧ r.cell offset = r.cell testOffset) ∧
      r.setAntiProbes numBytes (testOffset :: offsets) s =
        (t.checked, .found (r.address testOffset))) ∨
    ((∀ offset ∈ probes numBytes, offset ≠ testOffset → r.cell offset ≠ r.cell testOffset) ∧
      r.setAntiProbes numBytes (testOffset :: offsets) s =
        r.setAntiProbes numBytes offsets (r.write testOffset busPattern t).checked) := by
  intro t
  have base : (r.read 0 (r.write testOffset busAntiPattern s)).2 = busPattern :=
    (write_cells_of_ne (probed.apart testOffset probe).symm).trans settled.base
  have aliases := settled.affected_iff probed testOffset
  simp only [MemRig.setAntiProbes, checkIfInterrupted_quiet quiet, if_neg (not_not.mpr base)]
  by_cases affected : (r.otherAffected testOffset (probes numBytes)
      (r.read 0 (r.write testOffset busAntiPattern s)).1).2 = true
  · refine .inl ⟨aliases.mp affected, ?_⟩
    rw [if_pos affected, if_pos affected]
  · refine .inr ⟨fun offset probe other same => ?_, ?_⟩
    · exact affected (aliases.mpr ⟨offset, probe, other, same⟩)
    · rw [if_neg affected, if_neg affected]
      rfl

theorem setAntiProbes_exit (quiet : r.Quiet) (probed : Probed r numBytes)
    (settled : WalkSettled r numBytes s) (all : ∀ offset ∈ offsets, offset ∈ probes numBytes) :
    ((r.setAntiProbes numBytes offsets s).2 = .finished ∧ ∀ testOffset ∈ offsets,
      ∀ offset ∈ probes numBytes, offset ≠ testOffset → r.cell offset ≠ r.cell testOffset) ∨
    ((∃ address, (r.setAntiProbes numBytes offsets s).2 = .found address) ∧ ∃ testOffset ∈ offsets,
      ∃ offset ∈ probes numBytes, offset ≠ testOffset ∧ r.cell offset = r.cell testOffset) := by
  induction offsets generalizing s with
  | nil => exact .inl ⟨rfl, nofun⟩
  | cons testOffset offsets ih =>
    rw [List.forall_mem_cons] at all
    rw [List.forall_mem_cons, List.exists_mem_cons_iff]
    obtain ⟨aliases, exit⟩ | ⟨apart, exit⟩ :=
      setAntiProbes_cons quiet settled probed all.1 offsets
    · rw [exit]
      exact .inr ⟨⟨_, rfl⟩, .inl aliases⟩
    · rw [exit]
      refine (ih (settled.restored probed all.1) all.2).imp ?_ ?_
      · exact fun ⟨done, rest⟩ => ⟨done, apart, rest⟩
      · exact fun ⟨found, rest⟩ => ⟨found, .inr rest⟩

/-- The walk that the base word stands reads no word behind the probes. -/
theorem setAntiProbes_settled (quiet : r.Quiet) (probed : Probed r numBytes)
    (settled : WalkSettled r numBytes s) (keeps : r.Keeps inside I) (kept : I s) (base : inside 0)
    (inRange : ∀ offset ∈ probes numBytes, inside offset)
    (all : ∀ offset ∈ offsets, offset ∈ probes numBytes) :
    I (r.setAntiProbes numBytes offsets s).1 := by
  induction offsets generalizing s with
  | nil => exact kept
  | cons testOffset offsets ih =>
    rw [List.forall_mem_cons] at all
    have here := inRange testOffset all.1
    have looked := otherAffected_invariant testOffset keeps
      (keeps.read base (keeps.write busAntiPattern here kept)) inRange
    obtain ⟨-, exit⟩ | ⟨-, exit⟩ :=
      setAntiProbes_cons quiet settled probed all.1 offsets
    · rw [exit]
      exact keeps.checked quiet looked
    · rw [exit]
      exact ih (settled.restored probed all.1)
        (keeps.checked quiet (keeps.write busPattern here looked)) all.2

/-- Two of the words that the address test compares are one cell. -/
def MemRig.ProbesAlias (r : MemRig) (numBytes : Word) : Prop :=
  ∃ offset ∈ 0 :: probes numBytes, ∃ offset' ∈ 0 :: probes numBytes,
    offset ≠ offset' ∧ r.cell offset = r.cell offset'

theorem not_probesAlias_iff (positive : ∀ offset ∈ probes numBytes, offset ≠ 0) :
    ¬r.ProbesAlias numBytes ↔ (∀ offset ∈ probes numBytes, r.cell offset ≠ r.cell 0) ∧
      ∀ testOffset ∈ probes numBytes, ∀ offset ∈ probes numBytes, offset ≠ testOffset →
        r.cell offset ≠ r.cell testOffset := by
  constructor
  · intro none
    constructor
    · exact fun offset probe same => none ⟨offset, List.mem_cons_of_mem _ probe, 0,
        List.mem_cons_self, positive offset probe, same⟩
    · exact fun testOffset probe offset probe' other same => none ⟨offset,
        List.mem_cons_of_mem _ probe', testOffset, List.mem_cons_of_mem _ probe, other, same⟩
  · rintro ⟨base, apart⟩ ⟨offset, probe, offset', probe', other, same⟩
    rcases List.mem_cons.mp probe with rfl | probe
    · rcases List.mem_cons.mp probe' with rfl | probe'
      · exact other rfl
      · exact base offset' probe' same.symm
    · rcases List.mem_cons.mp probe' with rfl | probe'
      · exact base offset probe same
      · exact apart offset' probe' offset probe other same

theorem hssMemTestAddressBus_invariant (keeps : r.Keeps inside I) (kept : I s) (base : inside 0)
    (last : inside (probesEnd numBytes)) (probed : ∀ offset ∈ probes numBytes, inside offset) :
    I (r.hssMemTestAddressBus numBytes s).1 := by
  have set := setProbes_invariant keeps kept probed
  rw [MemRig.hssMemTestAddressBus]
  generalize r.setProbes (probes numBytes) s = first at set ⊢
  obtain ⟨t, exit⟩ := first
  have looked := verifyProbes_invariant keeps (keeps.write busAntiPattern base set) probed
  cases exit with
  | stopped => exact set
  | finished | found =>
    dsimp only at looked ⊢
    generalize r.verifyProbes (probes numBytes) (r.write 0 busAntiPattern t) = second at looked ⊢
    obtain ⟨u, exit⟩ := second
    cases exit with
    | stopped => exact looked
    | found => exact keeps.write _ base looked
    | finished =>
      have walked := setAntiProbes_invariant keeps (keeps.write busPattern base looked) base last
        probed probed
      dsimp only at walked ⊢
      generalize r.setAntiProbes numBytes (probes numBytes) (r.write 0 busPattern u) = third
        at walked ⊢
      obtain ⟨v, exit⟩ := third
      cases exit with
      | finished | stopped | found => exact walked

/-- The address test of a healthy base word finds no word when no two of its words are one cell, and
their cells hold the pattern. -/
theorem hssMemTestAddressBus_quiet (quiet : r.Quiet)
    (positive : ∀ offset ∈ probes numBytes, offset ≠ 0)
    (healthy : ∀ value, r.fault.hold (r.cell 0) value = value)
    (antiPattern : ∀ c, r.fault.hold c busAntiPattern ≠ busPattern) :
    ((r.hssMemTestAddressBus numBytes s).2 = none ↔
      ¬r.ProbesAlias numBytes ∧
        ∀ offset ∈ probes numBytes, r.fault.hold (r.cell offset) busPattern = busPattern) ∧
    (r.Keeps inside I → I s → inside 0 → (∀ offset ∈ probes numBytes, inside offset) →
      I (r.hssMemTestAddressBus numBytes s).1) := by
  have written := setProbes_exit quiet (probes numBytes) s
  have cells := fun c => setProbes_cells quiet c (probes numBytes) s
  have set (keeps : r.Keeps inside I) (kept : I s)
      (inRange : ∀ offset ∈ probes numBytes, inside offset) :=
    setProbes_invariant keeps kept inRange
  rw [MemRig.hssMemTestAddressBus]
  generalize r.setProbes (probes numBytes) s = first at written cells set ⊢
  obtain ⟨t, exit⟩ := first
  obtain rfl : exit = .finished := written
  have values : ∀ offset ∈ probes numBytes,
      (r.write 0 busAntiPattern t).cells (r.cell offset) = busPattern ↔
        r.cell offset ≠ r.cell 0 ∧ r.fault.hold (r.cell offset) busPattern = busPattern := by
    intro offset probe
    by_cases same : r.cell offset = r.cell 0
    · rw [same, write_cells_self]
      exact iff_of_false (antiPattern _) fun h => h.1 rfl
    · rw [write_cells_of_ne same, cells _ (.inl ⟨offset, probe, rfl⟩)]
      exact ⟨fun holds => ⟨same, holds⟩, fun h => h.2⟩
  have checked := verifyProbes_exit quiet (probes numBytes) (r.write 0 busAntiPattern t)
  have kept := verifyProbes_cells quiet (probes numBytes) (r.write 0 busAntiPattern t)
  have verified (keeps : r.Keeps inside I) (kept : I (r.write 0 busAntiPattern t))
      (inRange : ∀ offset ∈ probes numBytes, inside offset) :=
    verifyProbes_invariant keeps kept inRange
  dsimp only
  generalize r.verifyProbes (probes numBytes) (r.write 0 busAntiPattern t) = second
    at checked kept verified ⊢
  obtain ⟨u, exit⟩ := second
  rw [not_probesAlias_iff positive]
  obtain ⟨done, all⟩ | ⟨⟨address, found⟩, offset, probe, differs⟩ := checked
  · obtain rfl : exit = .finished := done
    have apart : ∀ offset ∈ probes numBytes, r.cell offset ≠ r.cell 0 := fun offset probe =>
      ((values offset probe).mp (all offset probe)).1
    have pattern : ∀ offset ∈ probes numBytes,
        r.fault.hold (r.cell offset) busPattern = busPattern := fun offset probe =>
      ((values offset probe).mp (all offset probe)).2
    have probed : Probed r numBytes := ⟨apart, pattern, antiPattern⟩
    have settled : WalkSettled r numBytes (r.write 0 busPattern u) := by
      refine ⟨write_cells_self.trans (healthy _), fun offset probe => ?_⟩
      rw [write_cells_of_ne (apart offset probe)]
      exact (congrFun kept _).trans (all offset probe)
    have walked := setAntiProbes_exit quiet probed settled fun _ probe => probe
    have last (keeps : r.Keeps inside I) (kept : I (r.write 0 busPattern u)) (base : inside 0)
        (inRange : ∀ offset ∈ probes numBytes, inside offset) :=
      setAntiProbes_settled quiet probed settled keeps kept base inRange fun _ probe => probe
    dsimp only
    generalize r.setAntiProbes numBytes (probes numBytes) (r.write 0 busPattern u) = third
      at walked last ⊢
    obtain ⟨v, exit⟩ := third
    constructor
    · obtain ⟨done, distinct⟩ | ⟨⟨address, found⟩, testOffset, probe, offset, probe', other, same⟩ :=
        walked
      · obtain rfl : exit = .finished := done
        exact iff_of_true rfl ⟨⟨apart, distinct⟩, pattern⟩
      · obtain rfl : exit = .found address := found
        exact iff_of_false nofun fun h => h.1.2 testOffset probe offset probe' other same
    · intro keeps start base inRange
      have looked := verified keeps (keeps.write _ base (set keeps start inRange)) inRange
      have done := last keeps (keeps.write _ base looked) base inRange
      cases exit with
      | finished | stopped | found => exact done
  · obtain rfl : exit = .found address := found
    constructor
    · exact iff_of_false nofun fun h => differs ((values offset probe).mpr
        ⟨h.1.1 offset probe, h.2 offset probe⟩)
    · intro keeps start base inRange
      have looked := verified keeps (keeps.write _ base (set keeps start inRange)) inRange
      exact keeps.write _ base looked

end Hss
