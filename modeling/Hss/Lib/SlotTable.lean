import Mathlib.Data.Finset.Card
import Mathlib.Logic.Function.Basic

/-! Tables of `n` slots, as functions from slot numbers: the first slot that passes a test, how
often a value occurs in the table, and which cells own which slots. -/

namespace SlotTable

/-! ### The first slot that passes a test -/

/-- The least slot below `n` that passes `test`. -/
def firstBelow (n : ℕ) (test : ℕ → Bool) : Option ℕ := (List.range n).find? test

theorem firstBelow_eq_some {n j : ℕ} {test : ℕ → Bool} :
    firstBelow n test = some j ↔ j < n ∧ test j = true ∧ ∀ k < j, test k = false := by
  rw [firstBelow, List.find?_range_eq_some]
  simp only [List.mem_range, Bool.not_eq_true']
  constructor
  · rintro ⟨passes, bound, first⟩
    exact ⟨bound, passes, first⟩
  · rintro ⟨bound, passes, first⟩
    exact ⟨passes, bound, first⟩

theorem firstBelow_eq_none {n : ℕ} {test : ℕ → Bool} :
    firstBelow n test = none ↔ ∀ j < n, test j = false := by
  simp [firstBelow, List.find?_eq_none]

theorem firstBelow_isSome {n : ℕ} {test : ℕ → Bool} :
    (firstBelow n test).isSome = true ↔ ∃ j < n, test j = true := by
  simp [firstBelow]

variable {α : Type}

/-! ### The values that pass a test, in the order of their slots -/

/-- The values in the first `n` slots that pass `test`. -/
def passing (n : ℕ) (table : ℕ → α) (test : α → Bool) : List α :=
  ((List.range n).map table).filter test

/-- Around one slot, the others contribute a part before and a part after its value, which do not
depend on it. -/
theorem passing_split {n j : ℕ} (hj : j < n) (table : ℕ → α) (test : α → Bool) :
    ∃ before after, (∀ new, passing n (Function.update table j new) test =
        before ++ (if test new then [new] else []) ++ after) ∧
      ((∀ k < j, test (table k) = false) → before = []) ∧
      ((∀ k < n, test (table k) = true → k ≤ j) → after = []) := by
  refine ⟨((List.range j).map table).filter test,
    ((List.range (n - (j + 1))).map fun k => table (j + 1 + k)).filter test,
    fun new => ?_, fun first => ?_, fun last => ?_⟩
  · have cut : List.range n = List.range j ++ [j] ++ (List.range (n - (j + 1))).map (j + 1 + ·) := by
      rw [← List.range_succ, ← List.range_add]
      congr 1
      omega
    have low : (List.range j).map (Function.update table j new) = (List.range j).map table :=
      List.map_congr_left fun k hk => Function.update_of_ne (Nat.ne_of_lt (List.mem_range.mp hk)) ..
    have high : ((List.range (n - (j + 1))).map (j + 1 + ·)).map (Function.update table j new) =
        (List.range (n - (j + 1))).map fun k => table (j + 1 + k) := by
      rw [List.map_map]
      refine List.map_congr_left fun k _ => Function.update_of_ne ?_ ..
      change j + 1 + k ≠ j
      omega
    rw [passing, cut, List.map_append, List.map_append, low, high, List.filter_append,
      List.filter_append, List.map_singleton, Function.update_self, List.filter_singleton]
    cases test new <;> rfl
  · refine List.filter_eq_nil_iff.mpr fun value held => ?_
    obtain ⟨k, hk, rfl⟩ := List.mem_map.mp held
    rw [first k (List.mem_range.mp hk)]
    exact Bool.false_ne_true
  · refine List.filter_eq_nil_iff.mpr fun value held => ?_
    obtain ⟨k, hk, rfl⟩ := List.mem_map.mp held
    have bound := List.mem_range.mp hk
    intro passes
    have := last (j + 1 + k) (by omega) passes
    omega

section
variable {n j : ℕ} {table : ℕ → α} {test : α → Bool} {new : α}

/-- A slot whose value fails the test before and after it is overwritten. -/
theorem passing_update_fails (hj : j < n) (old : test (table j) = false)
    (fails : test new = false) :
    passing n (Function.update table j new) test = passing n table test := by
  obtain ⟨before, after, parts, -⟩ := passing_split hj table test
  have unchanged := parts (table j)
  rw [Function.update_eq_self] at unchanged
  rw [parts, unchanged, old, fails, if_neg Bool.false_ne_true, if_neg Bool.false_ne_true]

theorem passing_update_last (hj : j < n) (behind : ∀ k < n, test (table k) = true → k < j)
    (passes : test new = true) :
    passing n (Function.update table j new) test = passing n table test ++ [new] := by
  obtain ⟨before, after, parts, -, none⟩ := passing_split hj table test
  have old : test (table j) = false := by
    by_contra passes
    exact lt_irrefl j (behind j hj (Bool.eq_true_of_not_eq_false passes))
  have unchanged := parts (table j)
  rw [Function.update_eq_self, none fun k hk passes => (behind k hk passes).le, old] at unchanged
  rw [parts, unchanged, none fun k hk passes => (behind k hk passes).le, passes]
  simp

/-- The first value that passes is overwritten by one that fails. -/
theorem passing_update_first (hj : j < n) (old : test (table j) = true)
    (first : ∀ k < j, test (table k) = false) (fails : test new = false) :
    passing n table test = table j :: passing n (Function.update table j new) test := by
  obtain ⟨before, after, parts, none, -⟩ := passing_split hj table test
  have unchanged := parts (table j)
  rw [Function.update_eq_self, none first, old] at unchanged
  rw [parts, unchanged, none first, fails]
  rfl

end

/-! ### Occurrences of a value -/

variable [DecidableEq α]

/-- The number of the first `n` slots that hold `a`. -/
def occupancy (n : ℕ) (table : ℕ → α) (a : α) : ℕ :=
  ((Finset.range n).filter fun j => table j = a).card

/-- Overwriting a slot takes one occurrence of its old value away and adds one of its new. -/
theorem occupancy_update {n j : ℕ} (hj : j < n) (table : ℕ → α) (new a : α) :
    occupancy n (Function.update table j new) a + (if table j = a then 1 else 0) =
      occupancy n table a + (if new = a then 1 else 0) := by
  have split : ∀ t : ℕ → α, occupancy n t a =
      (((Finset.range n).erase j).filter fun k => t k = a).card + (if t j = a then 1 else 0) := by
    intro t
    rw [occupancy, ← Finset.insert_erase (Finset.mem_range.mpr hj), Finset.filter_insert]
    by_cases h : t j = a
    · rw [if_pos h, if_pos h, Finset.card_insert_of_notMem (by simp)]
      simp
    · rw [if_neg h, if_neg h]
      simp
  have same : (((Finset.range n).erase j).filter fun k => Function.update table j new k = a) =
      ((Finset.range n).erase j).filter fun k => table k = a := by
    refine Finset.filter_congr fun k hk => ?_
    rw [Function.update_of_ne (Finset.ne_of_mem_erase hk)]
  rw [split (Function.update table j new), split table, same, Function.update_self]
  omega

theorem occupancy_const_of_ne {n : ℕ} {a b : α} (h : b ≠ a) : occupancy n (fun _ => b) a = 0 := by
  simp [occupancy, h]

end SlotTable

/-! ### Ownership of slots

Cells each hold at most one slot.  `Owns held out` says that the slots handed out, `out`, are
exactly those held, each by one cell. -/

namespace Ownership

variable {C K : Type}

structure Owns (held : C → Option K) (out : Set K) : Prop where
  sound : ∀ {c k}, held c = some k → k ∈ out
  unique : ∀ {c d k}, held c = some k → held d = some k → c = d
  complete : ∀ {k}, k ∈ out → ∃ c, held c = some k

variable {held held' : C → Option K} {out : Set K} {c : C} {k : K}

theorem Owns.acquire [DecidableEq C] (owns : Owns held out) (empty : held c = none)
    (fresh : k ∉ out) : Owns (Function.update held c (some k)) (insert k out) := by
  refine ⟨?_, ?_, ?_⟩
  · intro d l h
    by_cases hd : d = c
    · subst hd
      rw [Function.update_self] at h
      cases h
      exact Set.mem_insert _ _
    · rw [Function.update_of_ne hd] at h
      exact Set.mem_insert_of_mem _ (owns.sound h)
  · intro d e l hd he
    by_cases hdc : d = c <;> by_cases hec : e = c
    · rw [hdc, hec]
    · subst hdc
      rw [Function.update_self] at hd
      rw [Function.update_of_ne hec] at he
      cases hd
      exact absurd (owns.sound he) fresh
    · subst hec
      rw [Function.update_self] at he
      rw [Function.update_of_ne hdc] at hd
      cases he
      exact absurd (owns.sound hd) fresh
    · rw [Function.update_of_ne hdc] at hd
      rw [Function.update_of_ne hec] at he
      exact owns.unique hd he
  · intro l hl
    rcases hl with rfl | hl
    · exact ⟨c, Function.update_self ..⟩
    · obtain ⟨d, hd⟩ := owns.complete hl
      refine ⟨d, ?_⟩
      rw [Function.update_of_ne, hd]
      rintro rfl
      rw [empty] at hd
      cases hd

theorem Owns.release [DecidableEq C] (owns : Owns held out) (holds : held c = some k) :
    Owns (Function.update held c none) (out \ {k}) := by
  refine ⟨?_, ?_, ?_⟩
  · intro d l h
    by_cases hd : d = c
    · subst hd
      rw [Function.update_self] at h
      cases h
    · rw [Function.update_of_ne hd] at h
      refine ⟨owns.sound h, ?_⟩
      rintro rfl
      exact hd (owns.unique h holds)
  · intro d e l hd he
    by_cases hdc : d = c
    · subst hdc
      rw [Function.update_self] at hd
      cases hd
    · by_cases hec : e = c
      · subst hec
        rw [Function.update_self] at he
        cases he
      · rw [Function.update_of_ne hdc] at hd
        rw [Function.update_of_ne hec] at he
        exact owns.unique hd he
  · rintro l ⟨hl, hne⟩
    obtain ⟨d, hd⟩ := owns.complete hl
    refine ⟨d, ?_⟩
    rw [Function.update_of_ne, hd]
    rintro rfl
    rw [holds] at hd
    cases hd
    exact hne rfl

theorem Owns.used {P : K → Prop} (owns : Owns held out) (used : ∀ k ∈ out, P k)
    (holds : held c = some k) : P k :=
  used k (owns.sound holds)

end Ownership
