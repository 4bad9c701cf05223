import Hss.Memtest.Passes
import Mathlib.Data.List.TakeWhile
import Mathlib.Data.Nat.Bitwise

/-! What the memory test is worth: on which ranges it finds every fault, and that a key makes it pass. -/

namespace Hss

open MemRig

variable {r : MemRig} {numBytes offset offset' c : Word} {s : MemTest}

/-! ### The words of a range -/

theorem numWords_toNat (numBytes : Word) : (numWords numBytes).toNat = numBytes.toNat / 8 := by
  rw [numWords, BitVec.toNat_udiv]
  rfl

theorem mem_wordOffsets : offset ∈ wordOffsets numBytes ↔ InRange numBytes offset := by
  rw [wordOffsets, List.mem_map, InRange, numWords_toNat]
  constructor
  · rintro ⟨o, below, rfl⟩
    rw [List.mem_range] at below
    rw [BitVec.toNat_ofNat]
    exact Nat.lt_of_le_of_lt (Nat.mod_le ..) below
  · intro below
    exact ⟨offset.toNat, List.mem_range.mpr below, BitVec.ofNat_toNat .. |>.trans (BitVec.setWidth_eq _)⟩

theorem wordOffsets_nodup (numBytes : Word) : (wordOffsets numBytes).Nodup := by
  refine List.Nodup.map_on ?_ List.nodup_range
  intro o below o' below' same
  have size := numBytes.isLt
  rw [numWords_toNat] at below below'
  rw [List.mem_range] at below below'
  rw [← BitVec.toNat_inj, BitVec.toNat_ofNat, BitVec.toNat_ofNat] at same
  omega

theorem address_sub_base (inRange : InRange numBytes offset) :
    (r.address offset - r.base).toNat = 8 * offset.toNat := by
  have size := numBytes.isLt
  rw [InRange] at inRange
  have offsets : r.address offset - r.base = offset * 8 := by
    rw [address]
    bv_omega
  rw [offsets, BitVec.toNat_mul, Nat.mod_eq_of_lt]
  · exact Nat.mul_comm ..
  · show offset.toNat * 8 < 2 ^ 64
    omega

/-- The word at an address lies in the range. -/
def MemRig.Contains (r : MemRig) (numBytes a : Word) : Prop := (a - r.base).toNat + 8 ≤ numBytes.toNat

theorem contains_base (r : MemRig) : r.Contains numBytes r.base ↔ 8 ≤ numBytes.toNat := by
  rw [Contains, BitVec.sub_self, BitVec.toNat_zero, Nat.zero_add]

theorem contains_address (inRange : InRange numBytes offset) :
    r.Contains numBytes (r.address offset) := by
  rw [Contains, address_sub_base inRange]
  rw [InRange] at inRange
  omega

theorem address_injOn (inRange : InRange numBytes offset) (inRange' : InRange numBytes offset')
    (same : r.address offset = r.address offset') : offset = offset' := by
  have first := address_sub_base (r := r) inRange
  rw [same, address_sub_base inRange'] at first
  rw [← BitVec.toNat_inj]
  omega

theorem small_of_inRange (inRange : InRange numBytes offset) : (offset + 1).msb = false := by
  have size := numBytes.isLt
  rw [InRange] at inRange
  rw [BitVec.msb_eq_false_iff_two_mul_lt, BitVec.toNat_add, Nat.mod_eq_of_lt]
  · show 2 * (offset.toNat + 1) < 2 ^ 64
    omega
  · show offset.toNat + 1 < 2 ^ 64
    omega

theorem mem_walkingOnes : c ∈ walkingOnes ↔ ∃ i < 64, c.toNat = 2 ^ i := by
  have shifted : ∀ i < 64, ((1 : Word) <<< i).toNat = 2 ^ i := by
    intro i below
    rw [BitVec.toNat_shiftLeft]
    show 1 <<< i % 2 ^ 64 = 2 ^ i
    rw [Nat.one_shiftLeft, Nat.mod_eq_of_lt (Nat.pow_lt_pow_right Nat.one_lt_two below)]
  rw [walkingOnes, List.mem_map]
  constructor
  · rintro ⟨i, below, rfl⟩
    exact ⟨i, List.mem_range.mp below, shifted i (List.mem_range.mp below)⟩
  · rintro ⟨i, below, same⟩
    exact ⟨i, List.mem_range.mpr below, BitVec.toNat_inj.mp ((shifted i below).trans same.symm)⟩

theorem walkingOnes_positive (one : c ∈ walkingOnes) : c ≠ 0 := by
  obtain ⟨i, -, value⟩ := mem_walkingOnes.mp one
  rintro rfl
  exact absurd value (Nat.two_pow_pos i).ne

theorem probes_positive (numBytes : Word) : ∀ offset ∈ probes numBytes, offset ≠ 0 :=
  fun _ probe => walkingOnes_positive (List.takeWhile_subset _ probe)

/-- A probe is a bit of the mask, which is the last offset of the range. -/
theorem probes_inRange (some : 8 ≤ numBytes.toNat) : ∀ offset ∈ probes numBytes,
    InRange numBytes offset := by
  intro offset probe
  have tested : offset &&& (numWords numBytes - 1) ≠ 0 := by
    rw [probes] at probe
    have passes := List.mem_takeWhile_imp probe
    exact of_decide_eq_true passes
  obtain ⟨i, -, value⟩ := mem_walkingOnes.mp (List.takeWhile_subset _ probe)
  have mask : (numWords numBytes - 1).toNat = numBytes.toNat / 8 - 1 := by
    have words := numWords_toNat numBytes
    have size := numBytes.isLt
    bv_omega
  rw [InRange]
  by_contra above
  refine tested (BitVec.toNat_inj.mp ?_)
  have low : (numBytes.toNat / 8 - 1).testBit i = false := Nat.testBit_lt_two_pow (by omega)
  rw [BitVec.toNat_and, mask, value, Nat.and_comm, Nat.and_two_pow, low]
  exact Nat.zero_mul _

/-! ### Faults -/

/-- Where no bit is stuck a cell holds what is written to it. -/
theorem hold_of_not_stuck {fault : MemFault} (lines : ∀ cell bit value, fault ≠ .stuckBit cell bit value)
    (c value : Word) : fault.hold c value = value := by
  cases fault with
  | stuckBit cell bit value => exact absurd rfl (lines cell bit value)
  | none | lineStuck | linesShorted => rfl

theorem forceBit_getLsbD (a : Word) (bit : Fin 64) (value : Bool) (i : ℕ) (inside : i < 64) :
    (forceBit a bit value).getLsbD i = if i = bit then value else a.getLsbD i := by
  have one : ((1 : Word) <<< bit.val).getLsbD i = decide (i = bit) := by
    rw [BitVec.getLsbD_shiftLeft]
    grind
  cases value with
  | false =>
    rw [forceBit, if_neg Bool.false_ne_true, BitVec.getLsbD_and, BitVec.getLsbD_not, one]
    grind
  | true =>
    rw [forceBit, if_pos rfl, BitVec.getLsbD_or, one]
    grind

theorem hold_antiPattern (fault : MemFault) (c : Word) : fault.hold c busAntiPattern ≠ busPattern := by
  have forced : ∀ (bit : Fin 64) (value : Bool), forceBit busAntiPattern bit value ≠ busPattern := by
    intro bit value same
    have bit0 := forceBit_getLsbD busAntiPattern bit value 0 (by decide)
    have bit1 := forceBit_getLsbD busAntiPattern bit value 1 (by decide)
    rw [same] at bit0 bit1
    have pattern0 : busPattern.getLsbD 0 = false := rfl
    have pattern1 : busPattern.getLsbD 1 = true := rfl
    have antiPattern0 : busAntiPattern.getLsbD 0 = true := rfl
    have antiPattern1 : busAntiPattern.getLsbD 1 = false := rfl
    grind
  cases fault with
  | stuckBit cell bit value =>
    rw [MemFault.hold]
    split
    · exact forced bit value
    · decide
  | none | lineStuck | linesShorted =>
    show busAntiPattern ≠ busPattern
    decide

/-- A walking one shows each stuck bit. -/
theorem walkingOnes_shows (bit : Fin 64) (value : Bool) :
    ∃ pattern ∈ walkingOnes, forceBit pattern bit value ≠ pattern := by
  have shifted (i : Fin 64) : (1 : Word) <<< i.val ∈ walkingOnes :=
    List.mem_map.mpr ⟨i, List.mem_range.mpr i.isLt, rfl⟩
  have bits (i : Fin 64) (j : Fin 64) : ((1 : Word) <<< i.val).getLsbD j = decide (j = i) := by
    rw [BitVec.getLsbD_shiftLeft]
    grind
  cases value with
  | false =>
    refine ⟨_, shifted bit, fun same => ?_⟩
    have forced := forceBit_getLsbD ((1 : Word) <<< bit.val) bit false bit bit.isLt
    rw [same, bits] at forced
    simp at forced
  | true =>
    refine ⟨_, shifted (bit + 1), fun same => ?_⟩
    have forced := forceBit_getLsbD ((1 : Word) <<< (bit + 1).val) bit true bit bit.isLt
    rw [same, bits] at forced
    simp at forced

theorem address_zero : r.address 0 = r.base := by
  rw [address]
  bv_omega

/-- The base word holds what is written to it, or one of its bits is stuck. -/
theorem hold_base (r : MemRig) : (∀ value, r.fault.hold (r.cell 0) value = value) ∨
    ∃ bit value, r.fault = .stuckBit r.base bit value := by
  obtain ⟨base, fault, keys⟩ := r
  cases fault with
  | none | lineStuck | linesShorted => exact .inl fun _ => rfl
  | stuckBit c bit value =>
    by_cases here : base = c
    · exact .inr ⟨bit, value, by rw [here]⟩
    · refine .inl fun written => if_neg ?_
      exact address_zero.trans_ne here

theorem hold_of_aliases (aliases : r.Aliases numBytes) (c value : Word) :
    r.fault.hold c value = value := by
  refine hold_of_not_stuck (fun cell bit value stuck => ?_) c value
  obtain ⟨offset, offset', inRange, inRange', other, same⟩ := aliases
  rw [MemRig.cell, MemRig.cell, stuck] at same
  exact other (address_injOn inRange inRange' same)

theorem hold_of_inRange (sane : ¬r.Stuck numBytes) (inRange : InRange numBytes offset) (value : Word) :
    r.fault.hold (r.cell offset) value = value := by
  cases fault : r.fault with
  | none | lineStuck | linesShorted => rfl
  | stuckBit c bit stuck =>
    refine if_neg fun here => sane ⟨offset, inRange, bit, stuck, ?_⟩
    rw [MemRig.cell, fault] at here
    exact fault.trans (congrArg (MemFault.stuckBit · bit stuck) here.symm)

theorem pairwise_iff : (wordOffsets numBytes).Pairwise (r.cell · ≠ r.cell ·) ↔ ¬r.Aliases numBytes := by
  rw [← List.pairwise_map (f := r.cell), ← List.Nodup, List.nodup_map_iff_inj_on (wordOffsets_nodup _)]
  constructor
  · rintro injective ⟨offset, offset', inRange, inRange', other, same⟩
    exact other (injective _ (mem_wordOffsets.mpr inRange) _ (mem_wordOffsets.mpr inRange') same)
  · intro apart offset member offset' member' same
    by_contra other
    exact apart ⟨offset, offset', mem_wordOffsets.mp member, mem_wordOffsets.mp member', other, same⟩

/-- The device test is exact: it finds each fault of the range, and nothing else. -/
theorem hssMemTestDevice_none_iff (quiet : r.Quiet) (numBytes : Word) (s : MemTest) :
    (r.hssMemTestDevice numBytes s).2 = none ↔
    ¬(r.Aliases numBytes ∨ r.Stuck numBytes) := by
  constructor
  · rintro passed (aliases | ⟨offset, inRange, bit, value, stuck⟩)
    · refine hssMemTestDevice_aliases quiet (hold_of_aliases aliases)
        (fun _ member => small_of_inRange (mem_wordOffsets.mp member)) ?_ passed
      exact pairwise_iff.not_left.mpr aliases
    · refine @hssMemTestDevice_stuck r s offset numBytes quiet bit value
        (mem_wordOffsets.mpr inRange) (fun written => ?_) passed
      rw [MemRig.cell, stuck, MemFault.decode, MemFault.hold, if_pos rfl,
        forceBit_getLsbD _ _ _ _ bit.isLt, if_pos rfl]
  · rw [not_or]
    rintro ⟨apart, sane⟩
    exact hssMemTestDevice_healthy quiet (pairwise_iff.mpr apart) fun _ member =>
      hold_of_inRange sane (mem_wordOffsets.mp member)

/-! ### The whole test -/

variable {S : Word → Prop}

/-- The data bus test looks for no key, and accesses the base word only. -/
theorem testPatterns_fine (fine : s.Fine S) (here : S r.base) (patterns : List Word) :
    (r.testPatterns patterns s).1.Fine S := by
  rw [← address_zero] at here
  induction patterns generalizing s with
  | nil => exact fine
  | cons pattern patterns ih =>
    have tested : (r.read 0 (r.write 0 pattern s)).1.Fine S := ⟨fine.uninterrupted,
      List.forall_mem_cons.mpr ⟨here, List.forall_mem_cons.mpr ⟨here, fine.within⟩⟩⟩
    simp only [testPatterns]
    split
    · exact tested
    · exact ih tested

theorem hssMemTestDataBus_accesses : r.base ∈ (r.hssMemTestDataBus s).1.accesses := by
  obtain ⟨pattern, patterns, walk⟩ : ∃ pattern patterns, walkingOnes = pattern :: patterns :=
    ⟨_, _, rfl⟩
  have first : r.base ∈ (r.read 0 (r.write 0 pattern s)).1.accesses := by
    rw [← address_zero]
    exact List.mem_cons_self
  rw [hssMemTestDataBus, walk]
  simp only [testPatterns]
  split
  · exact first
  · exact testPatterns_invariant (accessed_kept _) first trivial patterns

/-- The data bus test finds the stuck bits of the base word. -/
theorem hssMemTestDataBus_eq_zero_iff : (r.hssMemTestDataBus s).2 = 0 ↔
    ¬∃ bit value, r.fault = .stuckBit r.base bit value := by
  refine (testPatterns_eq_zero_iff fun _ => walkingOnes_positive).trans ?_
  constructor
  · rintro walked ⟨bit, value, stuck⟩
    obtain ⟨pattern, one, shown⟩ := walkingOnes_shows bit value
    have held := walked pattern one
    rw [MemRig.cell, address_zero, stuck, MemFault.decode, MemFault.hold, if_pos rfl] at held
    exact shown held
  · exact fun sane pattern _ => (hold_base r).resolve_right sane pattern

/-- The test ends at the first of its parts that finds a fault. -/
theorem memTests_cases (r : MemRig) (numBytes : Word) (s : MemTest) :
    let t := r.hssMemTestDataBus s
    let u := r.hssMemTestAddressBus numBytes t.1
    let v := r.hssMemTestDevice numBytes u.1
    (t.2 ≠ 0 ∧ r.memTests numBytes s = (t.1, false)) ∨
    (t.2 = 0 ∧ u.2 ≠ none ∧ r.memTests numBytes s = (u.1, false)) ∨
    (t.2 = 0 ∧ u.2 = none ∧ r.memTests numBytes s = (v.1, decide (v.2 = none))) := by
  intro t u v
  have test : r.memTests numBytes s = if t.2 ≠ 0 then (t.1, false) else
    if u.2 ≠ none then (u.1, false) else (v.1, decide (v.2 = none)) := rfl
  rw [test]
  by_cases bits : t.2 = 0
  · by_cases word : u.2 = none
    · exact .inr (.inr ⟨bits, word, by rw [if_neg (not_not.mpr bits), if_neg (not_not.mpr word)]⟩)
    · exact .inr (.inl ⟨bits, word, by rw [if_neg (not_not.mpr bits), if_pos word]⟩)
  · exact .inl ⟨bits, if_pos bits⟩

/-! ### The cache ways -/

theorem mem_patternWords {a : Word} :
    a ∈ patternWords ↔ ∃ i < patternTurns * (patternLength / 8), a = ddr32Cache + BitVec.ofNat 64 (8 * i) := by
  simp only [patternWords, List.mem_flatMap, List.mem_map, List.mem_range, patternLength]
  constructor
  · rintro ⟨turn, less, i, inside, rfl⟩
    refine ⟨32 * turn + i, by omega, ?_⟩
    rw [show 256 * turn + 8 * i = 8 * (32 * turn + i) by omega]
  · rintro ⟨i, less, rfl⟩
    refine ⟨i / 32, by omega, i % 32, by omega, ?_⟩
    rw [show 256 * (i / 32) + 8 * (i % 32) = 8 * i by omega]

/-- The words of the cache lines were filled with the pattern. -/
theorem cacheLineWords_subset : cacheLineWords ⊆ patternWords := by
  intro a first
  obtain ⟨line, less, rfl⟩ := List.mem_map.mp first
  have turns : patternTurns = 32767 := by decide
  rw [List.mem_range, twoMbytes] at less
  refine mem_patternWords.mpr ⟨8 * line, ?_, ?_⟩
  · rw [turns, patternLength]
    omega
  · rw [← Nat.mul_assoc]

theorem foldl_keeps {I : MemTest → Prop} {access : MemTest → Word → MemTest} {words : List Word}
    (keeps : ∀ a ∈ words, ∀ s, I s → I (access s a)) (kept : I s) : I (words.foldl access s) := by
  induction words generalizing s with
  | nil => exact kept
  | cons a words ih =>
    rw [List.forall_mem_cons] at keeps
    exact ih keeps.2 (keeps.1 s kept)

/-- What holds through the accesses to these words. -/
theorem clearBootupCacheWays_invariant {I : MemTest → Prop}
    (read : ∀ a ∈ patternWords, ∀ s, I s → I (r.readWord a s).1)
    (write : ∀ a ∈ patternWords, ∀ value s, I s → I (r.writeWord a value s)) (kept : I s) :
    I (r.clearBootupCacheWays s) := by
  have filled : I (r.loadDdrPattern s) :=
    foldl_keeps (fun a member s => write a member ddrInitPattern s) kept
  refine foldl_keeps (fun a member s kept => ?_) filled
  exact read a (cacheLineWords_subset member) _ (write a (cacheLineWords_subset member) 0 s kept)

theorem clearBootupCacheWays_interrupted :
    (r.clearBootupCacheWays s).interrupted = s.interrupted :=
  clearBootupCacheWays_invariant (I := fun t => t.interrupted = s.interrupted) (fun _ _ _ same => same)
    (fun _ _ _ _ same => same) rfl

/-- What was accessed before stays so. -/
theorem clearBootupCacheWays_accessed {a : Word} (accessed : a ∈ s.accesses) :
    a ∈ (r.clearBootupCacheWays s).accesses :=
  clearBootupCacheWays_invariant (I := fun t => a ∈ t.accesses)
    (fun _ _ _ => List.mem_cons_of_mem _) (fun _ _ _ _ => List.mem_cons_of_mem _) accessed

theorem foldl_writeWord_accesses (words : List Word) (value : Word) (s : MemTest) :
    (words.foldl (fun s a => r.writeWord a value s) s).accesses = words.reverse ++ s.accesses := by
  induction words generalizing s with
  | nil => rfl
  | cons a words ih =>
    rw [List.foldl_cons, ih, List.reverse_cons, List.append_assoc]
    rfl

/-- The words are accessed, all of them. -/
theorem clearBootupCacheWays_clears {a : Word} (cleared : a ∈ patternWords) :
    a ∈ (r.clearBootupCacheWays s).accesses := by
  have filled : a ∈ (r.loadDdrPattern s).accesses := by
    rw [loadDdrPattern, foldl_writeWord_accesses]
    exact List.mem_append_left _ (List.mem_reverse.mpr cleared)
  exact foldl_keeps (I := fun t => a ∈ t.accesses)
    (fun _ _ s kept => List.mem_cons_of_mem _ (List.mem_cons_of_mem _ kept)) filled

/-- All words that are cleared lie in the range if and only if the memory from the first to the last of
them does. -/
theorem patternWords_contained : (∀ a ∈ patternWords, r.Contains numBytes a) ↔ r.HoldsCleared numBytes := by
  have turns : patternTurns = 32767 := by decide
  have offset : ∀ i < 32767 * 32, (ddr32Cache + BitVec.ofNat 64 (8 * i) - r.base).toNat =
      ((ddr32Cache - r.base).toNat + 8 * i) % 2 ^ 64 := by
    intro i less
    have moved : ddr32Cache + BitVec.ofNat 64 (8 * i) - r.base =
        ddr32Cache - r.base + BitVec.ofNat 64 (8 * i) := by bv_omega
    rw [moved, BitVec.toNat_add, BitVec.toNat_ofNat, Nat.add_mod_mod]
  have size := numBytes.isLt
  have start := (ddr32Cache - r.base).isLt
  rw [HoldsCleared, turns, patternLength]
  generalize (ddr32Cache - r.base).toNat = d at offset start
  constructor
  · intro contained
    have inside : ∀ i < 32767 * 32, (d + 8 * i) % 2 ^ 64 + 8 ≤ numBytes.toNat := fun i less => by
      rw [← offset i less]
      exact contained _ (mem_patternWords.mpr ⟨i, turns ▸ less, rfl⟩)
    by_cases last : d + 8 * 1048543 < 2 ^ 64
    · have ends := inside 1048543 (by decide)
      rw [Nat.mod_eq_of_lt last] at ends
      omega
    · -- The word that ends the address space is among them, and no range goes on so far.
      have ends := inside ((2 ^ 64 - 1 - d) / 8) (by omega)
      rw [Nat.mod_eq_of_lt (by omega)] at ends
      omega
  · intro holds a member
    obtain ⟨i, less, rfl⟩ := mem_patternWords.mp member
    rw [turns, patternLength] at less
    rw [Contains, offset i less, Nat.mod_eq_of_lt (by omega)]
    omega

/-! ### Keys -/

/-- A key ends the address test at its first word, as if it had passed. -/
theorem hssMemTestAddressBus_pressed (pressed : ∀ k, r.keys k = true) :
    (r.hssMemTestAddressBus numBytes s).2 = none := by
  rw [hssMemTestAddressBus]
  cases probes numBytes with
  | nil => rfl
  | cons offset offsets =>
    have stopped : (r.setProbes (offset :: offsets) s).2 = .stopped := by
      simp only [setProbes, checkIfInterrupted, pressed, if_true]
    generalize r.setProbes (offset :: offsets) s = first at stopped ⊢
    obtain ⟨t, exit⟩ := first
    obtain rfl : exit = .stopped := stopped
    rfl

/-- And so it ends the device test. -/
theorem hssMemTestDevice_pressed (pressed : ∀ k, r.keys k = true) (some : 8 ≤ numBytes.toNat)
    (s : MemTest) :
    (r.hssMemTestDevice numBytes s).2 = none ∧
      (r.hssMemTestDevice numBytes s).1.interrupted = true := by
  have first : (0 : Word) ∈ wordOffsets numBytes := mem_wordOffsets.mpr (Nat.div_pos some (by decide))
  rw [hssMemTestDevice]
  cases words : wordOffsets numBytes with
  | nil => exact absurd (words ▸ first) List.not_mem_nil
  | cons offset offsets =>
    have stopped : (r.seedCells (offset :: offsets) s).2 = .stopped ∧
        (r.seedCells (offset :: offsets) s).1.interrupted = true := by
      simp only [seedCells, checkIfInterrupted, pressed, if_true, Bool.or_true, and_self]
    generalize r.seedCells (offset :: offsets) s = first at stopped ⊢
    obtain ⟨t, exit⟩ := first
    obtain rfl : exit = .stopped := stopped.1
    exact ⟨rfl, stopped.2⟩

/-! ### Soundness -/

/-- The test without the accesses behind it. -/
structure MemTestsSound (r : MemRig) (numBytes : Word) (cells : Word → Word) : Prop where
  addressBus : r.Aliases numBytes →
    (r.hssMemTestAddressBus numBytes (.start cells)).1.interrupted = false →
      (r.hssMemTestAddressBus numBytes (.start cells)).2 ≠ none
  passes : (r.memTests numBytes (.start cells)).2 = true ↔
    ¬(r.Aliases numBytes ∨ r.Stuck numBytes) ∧
      (r.memTests numBytes (.start cells)).1.interrupted = false
  stopped : (r.memTests numBytes (.start cells)).1.interrupted = true →
    (r.memTests numBytes (.start cells)).2 = false
  inside : ∀ a ∈ (r.memTests numBytes (.start cells)).1.accesses, r.Contains numBytes a

theorem hssMemTestDdrEx_eq (r : MemRig) (numBytes : Word) (s : MemTest) :
    r.hssMemTestDdrEx numBytes s =
      (r.clearBootupCacheWays (r.memTests numBytes s).1, (r.memTests numBytes s).2) := by
  unfold hssMemTestDdrEx
  generalize r.memTests numBytes s = tests
  rfl

/-- The test is sound if it is so by itself and what is cleared behind it lies in the range. -/
theorem memTestSound_iff_tests {cells : Word → Word} :
    MemTestSound r numBytes cells ↔ MemTestsSound r numBytes cells ∧ r.HoldsCleared numBytes := by
  have result := congrArg Prod.snd (hssMemTestDdrEx_eq r numBytes (.start cells))
  have state := congrArg Prod.fst (hssMemTestDdrEx_eq r numBytes (.start cells))
  dsimp only at result state
  constructor
  · rintro ⟨addressBus, passes, stopped, inside⟩
    rw [result, state, clearBootupCacheWays_interrupted] at passes stopped
    rw [state] at inside
    refine ⟨⟨addressBus, passes, stopped, fun a accessed => ?_⟩, ?_⟩
    · exact inside a (clearBootupCacheWays_accessed accessed)
    · exact patternWords_contained.mp fun a cleared => inside a (clearBootupCacheWays_clears cleared)
  · rintro ⟨⟨addressBus, passes, stopped, inside⟩, holds⟩
    have cleared := patternWords_contained.mpr holds
    refine ⟨addressBus, ?_, ?_, ?_⟩
    · rw [result, state, clearBootupCacheWays_interrupted]
      exact passes
    · rw [result, state, clearBootupCacheWays_interrupted]
      exact stopped
    · rw [state]
      exact clearBootupCacheWays_invariant
        (I := fun t => ∀ a ∈ t.accesses, r.Contains numBytes a)
        (fun a member _ within => List.forall_mem_cons.mpr ⟨cleared a member, within⟩)
        (fun a member _ _ within => List.forall_mem_cons.mpr ⟨cleared a member, within⟩) inside

theorem MemRig.HoldsCleared.size (holds : r.HoldsCleared numBytes) : 8 ≤ numBytes.toNat := by
  have some : 8 ≤ patternLength * patternTurns := by decide
  rw [HoldsCleared] at holds
  omega

/-- The test reads the base word, which only a range of a word has inside. -/
theorem MemTestsSound.size {cells : Word → Word} (sound : MemTestsSound r numBytes cells) :
    8 ≤ numBytes.toNat := by
  have accessed : r.base ∈ (r.memTests numBytes (.start cells)).1.accesses := by
    have start := hssMemTestDataBus_accesses (r := r) (s := .start cells)
    have bus := @hssMemTestAddressBus_invariant r _ _ _ numBytes (accessed_kept r.base) start
      trivial trivial fun _ _ => trivial
    have device := @hssMemTestDevice_invariant r _ _ _ numBytes (accessed_kept r.base) bus
      fun _ _ => trivial
    obtain ⟨-, test⟩ | ⟨-, -, test⟩ | ⟨-, -, test⟩ := memTests_cases r numBytes (.start cells)
    · exact test ▸ start
    · exact test ▸ bus
    · exact test ▸ device
  exact (contains_base r).mp (sound.inside _ accessed)

theorem stuckBit_apart {bit : Fin 64} {value : Bool} (stuck : r.fault = .stuckBit c bit value) :
    ¬r.Aliases numBytes := by
  rintro ⟨offset, offset', inRange, inRange', other, same⟩
  rw [MemRig.cell, MemRig.cell, stuck] at same
  exact other (address_injOn inRange inRange' same)

/-- A stuck bit in the base word is found before the first look for a key. -/
theorem sound_of_stuck_base {cells : Word → Word} (some : 8 ≤ numBytes.toNat)
    (stuck : ∃ bit value, r.fault = .stuckBit r.base bit value) :
    MemTestsSound r numBytes cells := by
  have found : (r.hssMemTestDataBus (.start cells)).2 ≠ 0 :=
    fun passed => hssMemTestDataBus_eq_zero_iff.mp passed stuck
  have fine : (r.hssMemTestDataBus (.start cells)).1.Fine (r.Contains numBytes) :=
    testPatterns_fine ⟨rfl, nofun⟩ ((contains_base r).mpr some) _
  have test : r.memTests numBytes (.start cells) =
      ((r.hssMemTestDataBus (.start cells)).1, false) := by
    obtain ⟨-, test⟩ | ⟨passed, -⟩ | ⟨passed, -⟩ := memTests_cases r numBytes (.start cells)
    · exact test
    · exact absurd passed found
    · exact absurd passed found
  obtain ⟨bit, value, stuck⟩ := stuck
  have faulty : r.Stuck numBytes := by
    refine ⟨0, Nat.div_pos some (by decide), bit, value, ?_⟩
    rw [address_zero, stuck]
  constructor
  · exact fun aliases => absurd aliases (stuckBit_apart stuck)
  · rw [test]
    exact iff_of_false Bool.false_ne_true fun passed => passed.1 (.inr faulty)
  · exact fun _ => congrArg Prod.snd test
  · exact test ▸ fine.within

theorem probesAlias_aliases (some : 8 ≤ numBytes.toNat) (aliases : r.ProbesAlias numBytes) :
    r.Aliases numBytes := by
  have inRange : ∀ offset ∈ 0 :: probes numBytes, InRange numBytes offset :=
    List.forall_mem_cons.mpr ⟨Nat.div_pos some (by decide), probes_inRange some⟩
  obtain ⟨offset, probe, offset', probe', other, same⟩ := aliases
  exact ⟨offset, offset', inRange _ probe, inRange _ probe', other, same⟩

/-- The address test when no key is pressed and no bit of the base word is stuck. -/
theorem hssMemTestAddressBus_fine (quiet : r.Quiet) (some : 8 ≤ numBytes.toNat)
    (sane : ¬∃ bit value, r.fault = .stuckBit r.base bit value) (fine : s.Fine (r.Contains numBytes)) :
    ((r.hssMemTestAddressBus numBytes s).2 = none ↔ ¬r.ProbesAlias numBytes ∧
      ∀ offset ∈ probes numBytes, r.fault.hold (r.cell offset) busPattern = busPattern) ∧
    (r.hssMemTestAddressBus numBytes s).1.Fine (r.Contains numBytes) := by
  have inRange := probes_inRange some
  obtain ⟨result, keeps⟩ := hssMemTestAddressBus_quiet (s := s) quiet (probes_positive numBytes)
    ((hold_base r).resolve_right sane) (hold_antiPattern r.fault)
  refine ⟨result, keeps (fine_kept quiet _) fine ?_ fun offset probe => ?_⟩
  · rw [address_zero]
    exact (contains_base r).mpr some
  · exact contains_address (inRange offset probe)

theorem sound_of_quiet {cells : Word → Word} (quiet : r.Quiet) (some : 8 ≤ numBytes.toNat)
    (sane : ¬∃ bit value, r.fault = .stuckBit r.base bit value) :
    MemTestsSound r numBytes cells ↔ (r.Aliases numBytes → r.ProbesAlias numBytes) := by
  have start : (MemTest.start cells).Fine (r.Contains numBytes) := ⟨rfl, nofun⟩
  have alone := hssMemTestAddressBus_fine quiet some sane start
  constructor
  · intro sound aliases
    by_contra missed
    refine sound.addressBus aliases alone.2.uninterrupted (alone.1.mpr ⟨missed, ?_⟩)
    exact fun _ _ => hold_of_aliases aliases ..
  · intro shown
    have first := testPatterns_fine start ((contains_base r).mpr some) walkingOnes
    have second := hssMemTestAddressBus_fine quiet some sane first
    have third := hssMemTestDevice_invariant (fine_kept quiet _) second.2
      fun offset member => contains_address (mem_wordOffsets.mp member)
    have bits := (hssMemTestDataBus_eq_zero_iff (s := .start cells)).mpr sane
    have words := hssMemTestDevice_none_iff quiet numBytes
      (r.hssMemTestAddressBus numBytes (r.hssMemTestDataBus (.start cells)).1).1
    have fine : (r.memTests numBytes (.start cells)).1.Fine (r.Contains numBytes) ∧
        ((r.memTests numBytes (.start cells)).2 = true ↔
          ¬(r.Aliases numBytes ∨ r.Stuck numBytes)) := by
      obtain ⟨found, -⟩ | ⟨-, found, test⟩ | ⟨-, passed, test⟩ :=
        memTests_cases r numBytes (.start cells)
      · exact absurd bits found
      · rw [test]
        refine ⟨second.2, iff_of_false Bool.false_ne_true fun healthy => found ?_⟩
        rw [not_or] at healthy
        refine second.1.mpr ⟨fun aliases => healthy.1 (probesAlias_aliases some aliases), ?_⟩
        exact fun offset probe => hold_of_inRange healthy.2 (probes_inRange some offset probe) _
      · rw [test]
        exact ⟨third, decide_eq_true_iff.trans words⟩
    refine ⟨fun aliases _ => ?_, ?_, fun stopped => ?_, fine.1.within⟩
    · exact fun passed => (alone.1.mp passed).1 (shown aliases)
    · rw [fine.2, and_iff_left fine.1.uninterrupted]
    · exact absurd (fine.1.uninterrupted.symm.trans stopped) Bool.false_ne_true

/-- With a key at each look the test passes, unless the data bus test has found a fault. -/
theorem memTests_pressed (pressed : ∀ k, r.keys k = true) (some : 8 ≤ numBytes.toNat)
    (sane : ¬∃ bit value, r.fault = .stuckBit r.base bit value) :
    (r.memTests numBytes s).2 = true ∧
      (r.memTests numBytes s).1.interrupted = true := by
  have bits := (hssMemTestDataBus_eq_zero_iff (s := s)).mpr sane
  obtain ⟨found, -⟩ | ⟨-, found, -⟩ | ⟨-, -, test⟩ := memTests_cases r numBytes s
  · exact absurd bits found
  · exact absurd (hssMemTestAddressBus_pressed pressed) found
  · have device := hssMemTestDevice_pressed pressed some
      (r.hssMemTestAddressBus numBytes (r.hssMemTestDataBus s).1).1
    rw [test]
    exact ⟨decide_eq_true device.1, device.2⟩

/-- Whatever keys are pressed, the test is sound where the range holds what is cleared behind it and a bit
of the base word is stuck, and on no other memory.  Without a key it is sound where, if two words of the
range are one cell, two of the words are that the address test compares. -/
theorem memTestSound_iff (base numBytes : Word) (fault : MemFault) :
    ((∀ keys cells, MemTestSound ⟨base, fault, keys⟩ numBytes cells) ↔
      MemRig.HoldsCleared ⟨base, fault, fun _ => false⟩ numBytes ∧
        ∃ bit value, fault = .stuckBit base bit value) ∧
    ∀ cells, MemTestSound ⟨base, fault, fun _ => false⟩ numBytes cells ↔
      MemRig.HoldsCleared ⟨base, fault, fun _ => false⟩ numBytes ∧
        (MemRig.Aliases ⟨base, fault, fun _ => false⟩ numBytes →
          MemRig.ProbesAlias ⟨base, fault, fun _ => false⟩ numBytes) := by
  constructor
  · constructor
    · intro sound
      obtain ⟨tests, holds⟩ := memTestSound_iff_tests.mp (sound (fun _ => true) fun _ => 0)
      refine ⟨holds, ?_⟩
      by_contra sane
      obtain ⟨passed, stopped⟩ := memTests_pressed (r := ⟨base, fault, fun _ => true⟩)
        (s := .start fun _ => 0) (fun _ => rfl) tests.size sane
      exact Bool.false_ne_true ((tests.stopped stopped).symm.trans passed)
    · rintro ⟨holds, stuck⟩ keys cells
      exact memTestSound_iff_tests.mpr ⟨sound_of_stuck_base holds.size stuck, holds⟩
  · intro cells
    rw [memTestSound_iff_tests, and_comm]
    refine and_congr_right fun holds => ?_
    by_cases stuck : ∃ bit value, fault = .stuckBit base bit value
    · refine iff_of_true (sound_of_stuck_base holds.size stuck) fun aliases => ?_
      obtain ⟨bit, value, rfl⟩ := stuck
      exact absurd aliases (stuckBit_apart rfl)
    · exact sound_of_quiet (fun _ => rfl) holds.size stuck

/-- Of 2^20 + 1 words the address test compares none, so it passes a memory where line 3 is stuck, and a
key passes a memory that was not tested.  A range of four bytes is left, and so is one of 4096 bytes far
from the memory that is cleared. -/
theorem memTest_unsound :
    ¬MemTestSound ⟨0x80000000, .lineStuck 3 false, fun _ => false⟩ 0x800008 (fun _ => 0) ∧
    ¬MemTestSound ⟨0x80000000, .none, fun _ => true⟩ 0x800008 (fun _ => 0) ∧
    ¬MemTestSound ⟨0x80000000, .none, fun _ => false⟩ 4 (fun _ => 0) ∧
    ¬MemTestSound ⟨0x1000000000, .none, fun _ => false⟩ 4096 (fun _ => 0) := by
  refine ⟨fun sound => ?_, fun sound => ?_, fun sound => ?_, fun sound => ?_⟩
  · refine sound.addressBus ⟨0, 1, ?_, ?_, by decide, by decide⟩ (by decide) (by decide)
    · exact (by decide : 0 < 0x800008 / 8)
    · exact (by decide : 1 < 0x800008 / 8)
  · have some : 8 ≤ (0x800008 : Word).toNat := by decide
    obtain ⟨passed, stopped⟩ := memTests_pressed (r := ⟨0x80000000, .none, fun _ => true⟩)
      (s := .start fun _ => 0) (fun _ => rfl) some nofun
    have tests := (memTestSound_iff_tests.mp sound).1
    exact Bool.false_ne_true ((tests.stopped stopped).symm.trans passed)
  · exact absurd (memTestSound_iff_tests.mp sound).1.size (by decide)
  · have holds := (memTestSound_iff_tests.mp sound).2
    rw [HoldsCleared] at holds
    exact absurd holds (by decide)

end Hss
