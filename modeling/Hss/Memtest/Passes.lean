import Hss.Memtest.Walks

/-! The passes of the device test over all words of a range when no key is pressed: what they find of a
fault, and that they find nothing on a memory without one. -/

namespace Hss

variable {r : MemRig} {s : MemTest} {inside : Word → Prop} {I : MemTest → Prop} {offset c : Word}
  {offsets : List Word} {numBytes : Word}

/-! ### Which words are accessed -/

theorem seedCells_invariant (keeps : r.Keeps inside I) (kept : I s)
    (all : ∀ offset ∈ offsets, inside offset) : I (r.seedCells offsets s).1 := by
  induction offsets generalizing s with
  | nil => exact kept
  | cons offset offsets ih =>
    rw [List.forall_mem_cons] at all
    have seeded := keeps.check (keeps.write (offset + 1) all.1 kept)
    simp only [MemRig.seedCells]
    split
    · exact seeded
    · exact ih seeded all.2

theorem firstPass_invariant (keeps : r.Keeps inside I) (kept : I s)
    (all : ∀ offset ∈ offsets, inside offset) : I (r.firstPass offsets s).1 := by
  induction offsets generalizing s with
  | nil => exact kept
  | cons offset offsets ih =>
    rw [List.forall_mem_cons] at all
    have looked := keeps.read all.1 kept
    have inverted := keeps.check (keeps.write (~~~(offset + 1)) all.1 looked)
    simp only [MemRig.firstPass]
    split
    · exact keeps.read all.1 looked
    · split
      · exact inverted
      · exact ih inverted all.2

theorem secondPass_invariant (keeps : r.Keeps inside I) (kept : I s)
    (all : ∀ offset ∈ offsets, inside offset) : I (r.secondPass offsets s).1 := by
  induction offsets generalizing s with
  | nil => exact kept
  | cons offset offsets ih =>
    rw [List.forall_mem_cons] at all
    have looked := keeps.read all.1 kept
    simp only [MemRig.secondPass]
    split
    · exact keeps.read all.1 looked
    · split
      · exact keeps.check looked
      · exact ih (keeps.check looked) all.2

/-! ### How the passes end -/

theorem seedCells_exit (quiet : r.Quiet) (offsets : List Word) (s : MemTest) :
    (r.seedCells offsets s).2 = .finished := by
  induction offsets generalizing s with
  | nil => rfl
  | cons offset offsets ih =>
    simp only [MemRig.seedCells, checkIfInterrupted_quiet quiet]
    exact ih _

/-- A turn of the first pass finds the word, or inverts it. -/
theorem firstPass_cons (quiet : r.Quiet) (s : MemTest) (offset : Word) (offsets : List Word) :
    (s.cells (r.cell offset) ≠ offset + 1 ∧ ∃ t, r.firstPass (offset :: offsets) s =
      (t, .found (r.address offset))) ∨
    (s.cells (r.cell offset) = offset + 1 ∧ r.firstPass (offset :: offsets) s =
      r.firstPass offsets (r.write offset (~~~(offset + 1)) (r.read offset s).1).checked) := by
  simp only [MemRig.firstPass, checkIfInterrupted_quiet quiet]
  split
  next differs => exact .inl ⟨differs, _, rfl⟩
  next same => exact .inr ⟨not_not.mp same, rfl⟩

theorem firstPass_ne_stopped (quiet : r.Quiet) (offsets : List Word) (s : MemTest) :
    (r.firstPass offsets s).2 ≠ .stopped := by
  induction offsets generalizing s with
  | nil => exact LoopExit.noConfusion
  | cons offset offsets ih =>
    obtain ⟨-, t, exit⟩ | ⟨-, exit⟩ := firstPass_cons quiet s offset offsets
    · rw [exit]
      exact LoopExit.noConfusion
    · rw [exit]
      exact ih _

theorem secondPass_ne_stopped (quiet : r.Quiet) (offsets : List Word) (s : MemTest) :
    (r.secondPass offsets s).2 ≠ .stopped := by
  induction offsets generalizing s with
  | nil => exact LoopExit.noConfusion
  | cons offset offsets ih =>
    simp only [MemRig.secondPass, checkIfInterrupted_quiet quiet]
    split
    · exact LoopExit.noConfusion
    · exact ih _

theorem secondPass_finished_iff (quiet : r.Quiet) : (r.secondPass offsets s).2 = .finished ↔
    ∀ offset ∈ offsets, s.cells (r.cell offset) = ~~~(offset + 1) := by
  induction offsets generalizing s with
  | nil => exact iff_of_true rfl nofun
  | cons offset offsets ih =>
    rw [List.forall_mem_cons]
    simp only [MemRig.secondPass, checkIfInterrupted_quiet quiet]
    split
    next differs => exact iff_of_false LoopExit.noConfusion fun holds => differs holds.1
    next same =>
      refine (@ih (r.read offset s).1.checked).trans ?_
      exact ⟨fun rest => ⟨not_not.mp same, rest⟩, fun holds => holds.2⟩

/-! ### A memory without a fault -/

theorem seedCells_frame (quiet : r.Quiet) (outside : ∀ offset ∈ offsets, c ≠ r.cell offset) :
    (r.seedCells offsets s).1.cells c = s.cells c := by
  induction offsets generalizing s with
  | nil => rfl
  | cons offset offsets ih =>
    rw [List.forall_mem_cons] at outside
    simp only [MemRig.seedCells, checkIfInterrupted_quiet quiet]
    exact (ih outside.2).trans (write_cells_of_ne outside.1)

theorem seedCells_cells (quiet : r.Quiet) (apart : offsets.Pairwise (r.cell · ≠ r.cell ·))
    (healthy : ∀ offset ∈ offsets, ∀ value, r.fault.hold (r.cell offset) value = value) :
    ∀ offset ∈ offsets, (r.seedCells offsets s).1.cells (r.cell offset) = offset + 1 := by
  induction offsets generalizing s with
  | nil => exact nofun
  | cons offset offsets ih =>
    rw [List.pairwise_cons] at apart
    rw [List.forall_mem_cons] at healthy ⊢
    simp only [MemRig.seedCells, checkIfInterrupted_quiet quiet]
    refine ⟨?_, ih apart.2 healthy.2⟩
    exact (seedCells_frame quiet apart.1).trans (write_cells_self.trans (healthy.1 _))

theorem firstPass_frame (quiet : r.Quiet) (outside : ∀ offset ∈ offsets, c ≠ r.cell offset) :
    (r.firstPass offsets s).1.cells c = s.cells c := by
  induction offsets generalizing s with
  | nil => rfl
  | cons offset offsets ih =>
    rw [List.forall_mem_cons] at outside
    simp only [MemRig.firstPass, checkIfInterrupted_quiet quiet]
    split
    · rfl
    · exact (ih outside.2).trans (write_cells_of_ne outside.1)

theorem firstPass_cells (quiet : r.Quiet) (apart : offsets.Pairwise (r.cell · ≠ r.cell ·))
    (healthy : ∀ offset ∈ offsets, ∀ value, r.fault.hold (r.cell offset) value = value)
    (seeded : ∀ offset ∈ offsets, s.cells (r.cell offset) = offset + 1) :
    (r.firstPass offsets s).2 = .finished ∧
      ∀ offset ∈ offsets, (r.firstPass offsets s).1.cells (r.cell offset) = ~~~(offset + 1) := by
  induction offsets generalizing s with
  | nil => exact ⟨rfl, nofun⟩
  | cons offset offsets ih =>
    rw [List.pairwise_cons] at apart
    rw [List.forall_mem_cons] at healthy seeded ⊢
    obtain ⟨differs, -⟩ | ⟨-, exit⟩ := firstPass_cons quiet s offset offsets
    · exact absurd seeded.1 differs
    rw [exit]
    have rest := @ih (r.write offset (~~~(offset + 1)) (r.read offset s).1).checked apart.2 healthy.2
      fun other member => (write_cells_of_ne (apart.1 other member).symm).trans (seeded.2 other member)
    refine ⟨rest.1, ?_, rest.2⟩
    exact (firstPass_frame quiet apart.1).trans (write_cells_self.trans (healthy.1 _))

/-! ### Aliases -/

/-- A first pass that finds nothing has met each cell once: the cells that it has left hold values with
the highest bit, and no seed has it. -/
theorem firstPass_apart (quiet : r.Quiet) (healthy : ∀ c value, r.fault.hold c value = value)
    {done : List Word} (small : ∀ offset ∈ offsets, (offset + 1).msb = false)
    (inverted : ∀ offset ∈ done, (s.cells (r.cell offset)).msb = true)
    (finished : (r.firstPass offsets s).2 = .finished) :
    (∀ before ∈ done, ∀ offset ∈ offsets, r.cell before ≠ r.cell offset) ∧
      offsets.Pairwise (r.cell · ≠ r.cell ·) := by
  induction offsets generalizing s done with
  | nil => exact ⟨fun _ _ => nofun, .nil⟩
  | cons offset offsets ih =>
    rw [List.forall_mem_cons] at small
    obtain ⟨-, t, exit⟩ | ⟨seed, exit⟩ := firstPass_cons quiet s offset offsets
    · rw [exit] at finished
      cases finished
    rw [exit] at finished
    have fresh : ∀ before ∈ done, r.cell before ≠ r.cell offset := by
      intro before member same
      have high := inverted before member
      rw [same, seed, small.1] at high
      cases high
    have next : ∀ before ∈ offset :: done, ((r.write offset (~~~(offset + 1))
        (r.read offset s).1).checked.cells (r.cell before)).msb = true := by
      rw [List.forall_mem_cons]
      constructor
      · refine (congrArg BitVec.msb (write_cells_self.trans (healthy _ _))).trans ?_
        rw [BitVec.msb_not, small.1]
        rfl
      · intro before member
        exact (congrArg BitVec.msb (write_cells_of_ne (fresh before member))).trans
          (inverted before member)
    obtain ⟨apart, rest⟩ := ih small.2 next finished
    rw [List.forall_mem_cons] at apart
    refine ⟨fun before member => ?_, List.pairwise_cons.mpr ⟨apart.1, rest⟩⟩
    exact List.forall_mem_cons.mpr ⟨fresh before member, apart.2 before member⟩

/-! ### Stuck bits -/

section
variable {Q : Word → Prop}

/-- What is true of whatever the cell holds stays true of it. -/
theorem held_kept (held : ∀ value, Q (r.fault.hold c value)) :
    r.Keeps (fun _ => True) fun s => Q (s.cells c) where
  read _ kept := kept
  check kept := kept
  write {s offset} value _ kept := by
    rw [write_cells]
    split
    next here => exact here ▸ held value
    next other => exact kept

theorem seedCells_holds (quiet : r.Quiet) (held : ∀ value, Q (r.fault.hold c value))
    (kept : (∃ offset ∈ offsets, c = r.cell offset) ∨ Q (s.cells c)) :
    Q ((r.seedCells offsets s).1.cells c) := by
  induction offsets generalizing s with
  | nil => exact kept.resolve_left nofun
  | cons offset offsets ih =>
    simp only [MemRig.seedCells, checkIfInterrupted_quiet quiet]
    rw [List.exists_mem_cons_iff] at kept
    refine ih ?_
    obtain (here | rest) | before := kept
    · refine .inr ?_
      rw [here] at held ⊢
      exact write_cells_self.symm ▸ held _
    · exact .inl rest
    · exact .inr ((held_kept held).write _ trivial before)

/-- A first pass that finds nothing has found the seed in the cell. -/
theorem firstPass_finds (quiet : r.Quiet) (member : offset ∈ offsets)
    (held : ∀ value, Q (r.fault.hold (r.cell offset) value)) (kept : Q (s.cells (r.cell offset)))
    (finished : (r.firstPass offsets s).2 = .finished) : Q (offset + 1) := by
  induction offsets generalizing s with
  | nil => cases member
  | cons first offsets ih =>
    obtain ⟨-, t, exit⟩ | ⟨seed, exit⟩ := firstPass_cons quiet s first offsets
    · rw [exit] at finished
      cases finished
    rw [exit] at finished
    rcases List.mem_cons.mp member with rfl | later
    · exact seed ▸ kept
    · have written : Q ((r.write first (~~~(first + 1)) (r.read first s).1).checked.cells
          (r.cell offset)) := (held_kept held).write _ trivial kept
      exact ih later written finished

end

/-! ### The device test -/

/-- The test after the cells are seeded. -/
theorem hssMemTestDevice_quiet (quiet : r.Quiet) : r.hssMemTestDevice numBytes s =
    match r.firstPass (wordOffsets numBytes) (r.seedCells (wordOffsets numBytes) s).1 with
    | (s, .stopped) => (s, none)
    | (s, .found address) => (s, some address)
    | (s, .finished) =>
      match r.secondPass (wordOffsets numBytes) s with
      | (s, .found address) => (s, some address)
      | (s, _) => (s, none) := by
  have seeded := seedCells_exit quiet (wordOffsets numBytes) s
  rw [MemRig.hssMemTestDevice]
  generalize r.seedCells (wordOffsets numBytes) s = first at seeded ⊢
  obtain ⟨t, exit⟩ := first
  obtain rfl : exit = .finished := seeded
  rfl

theorem hssMemTestDevice_invariant (keeps : r.Keeps inside I) (kept : I s)
    (all : ∀ offset ∈ wordOffsets numBytes, inside offset) : I (r.hssMemTestDevice numBytes s).1 := by
  have seeded := seedCells_invariant keeps kept all
  rw [MemRig.hssMemTestDevice]
  generalize r.seedCells (wordOffsets numBytes) s = first at seeded ⊢
  obtain ⟨t, exit⟩ := first
  have checked := firstPass_invariant keeps seeded all
  cases exit with
  | stopped => exact seeded
  | finished | found =>
    dsimp only at checked ⊢
    generalize r.firstPass (wordOffsets numBytes) t = second at checked ⊢
    obtain ⟨u, exit⟩ := second
    cases exit with
    | stopped | found => exact checked
    | finished =>
      have last := secondPass_invariant keeps checked all
      dsimp only at last ⊢
      generalize r.secondPass (wordOffsets numBytes) u = third at last ⊢
      obtain ⟨v, exit⟩ := third
      cases exit with
      | finished | stopped | found => exact last

theorem hssMemTestDevice_eq_none_iff (quiet : r.Quiet) :
    (r.hssMemTestDevice numBytes s).2 = none ↔
      (r.firstPass (wordOffsets numBytes) (r.seedCells (wordOffsets numBytes) s).1).2 = .finished ∧
      (r.secondPass (wordOffsets numBytes) (r.firstPass (wordOffsets numBytes)
        (r.seedCells (wordOffsets numBytes) s).1).1).2 = .finished := by
  have goesOn := firstPass_ne_stopped quiet (wordOffsets numBytes)
    (r.seedCells (wordOffsets numBytes) s).1
  rw [hssMemTestDevice_quiet quiet]
  generalize r.firstPass (wordOffsets numBytes) _ = first at goesOn ⊢
  obtain ⟨t, exit⟩ := first
  cases exit with
  | stopped => exact absurd rfl goesOn
  | found address => exact iff_of_false nofun fun h => LoopExit.noConfusion h.1
  | finished =>
    have goesOn' := secondPass_ne_stopped quiet (wordOffsets numBytes) t
    dsimp only
    generalize r.secondPass (wordOffsets numBytes) t = second at goesOn' ⊢
    obtain ⟨u, exit⟩ := second
    cases exit with
    | stopped => exact absurd rfl goesOn'
    | found address => exact iff_of_false nofun fun h => LoopExit.noConfusion h.2
    | finished => exact iff_of_true rfl ⟨rfl, rfl⟩

/-- The device test finds nothing where each word is a cell of its own that holds what is written. -/
theorem hssMemTestDevice_healthy (quiet : r.Quiet)
    (apart : (wordOffsets numBytes).Pairwise (r.cell · ≠ r.cell ·))
    (healthy : ∀ offset ∈ wordOffsets numBytes, ∀ value,
      r.fault.hold (r.cell offset) value = value) : (r.hssMemTestDevice numBytes s).2 = none := by
  have checked := firstPass_cells quiet apart healthy (seedCells_cells (s := s) quiet apart healthy)
  exact (hssMemTestDevice_eq_none_iff quiet).mpr
    ⟨checked.1, (secondPass_finished_iff quiet).mpr checked.2⟩

theorem hssMemTestDevice_aliases (quiet : r.Quiet)
    (healthy : ∀ c value, r.fault.hold c value = value)
    (small : ∀ offset ∈ wordOffsets numBytes, (offset + 1).msb = false)
    (aliases : ¬(wordOffsets numBytes).Pairwise (r.cell · ≠ r.cell ·)) :
    (r.hssMemTestDevice numBytes s).2 ≠ none := by
  intro none
  have finished := ((hssMemTestDevice_eq_none_iff quiet).mp none).1
  have fresh : ∀ offset ∈ ([] : List Word),
      ((r.seedCells (wordOffsets numBytes) s).1.cells (r.cell offset)).msb = true := nofun
  exact aliases (firstPass_apart quiet healthy small fresh finished).2

theorem hssMemTestDevice_stuck (quiet : r.Quiet) {bit : Fin 64} {value : Bool}
    (member : offset ∈ wordOffsets numBytes)
    (held : ∀ written, (r.fault.hold (r.cell offset) written).getLsbD bit = value) :
    (r.hssMemTestDevice numBytes s).2 ≠ none := by
  intro none
  obtain ⟨finished, finished'⟩ := (hssMemTestDevice_eq_none_iff quiet).mp none
  have seeded := seedCells_holds (Q := fun v => v.getLsbD bit = value) (s := s) quiet held
    (.inl ⟨offset, member, rfl⟩)
  have first := firstPass_finds (Q := fun v => v.getLsbD bit = value) quiet member held seeded finished
  have second := @firstPass_invariant _ _ _ _ (wordOffsets numBytes)
    (held_kept (Q := fun v => v.getLsbD bit = value) held) seeded fun _ _ => trivial
  rw [(secondPass_finished_iff quiet).mp finished' offset member, BitVec.getLsbD_not] at second
  simp_all

end Hss
