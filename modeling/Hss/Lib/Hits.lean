import Mathlib.Data.List.Sort
import Mathlib.Data.Nat.Find

/-! The hits of a predicate from a start on: the least of them, which a search finds, and all of
them, which a search that goes on behind each hit enumerates. -/

namespace Hits

variable {T : ℕ → Prop} {start stop k : ℕ}

/-- `k` is the least hit from `start` on and before `stop`. -/
structure Least (T : ℕ → Prop) (start stop k : ℕ) : Prop where
  start_le : start ≤ k
  lt_stop : k < stop
  hit : T k
  first : ∀ q, start ≤ q → q < k → ¬ T q

theorem Least.congr {T' : ℕ → Prop} (same : ∀ i < stop, T i ↔ T' i) (least : Least T start stop k) :
    Least T' start stop k :=
  ⟨least.start_le, least.lt_stop, (same k least.lt_stop).mp least.hit, fun q low less hit =>
    least.first q low less ((same q (Nat.lt_trans less least.lt_stop)).mpr hit)⟩

/-- A least hit stays the least under a wider predicate whose hits are none before its own. -/
theorem Least.widen {T' : ℕ → Prop} (wider : ∀ i, T i → T' i)
    (covered : ∀ j, start ≤ j → j < stop → T' j → ∃ i, start ≤ i ∧ i ≤ j ∧ T i)
    (least : Least T start stop k) : Least T' start stop k := by
  refine ⟨least.start_le, least.lt_stop, wider k least.hit, fun q low less hit => ?_⟩
  obtain ⟨i, low', le, hit'⟩ := covered q low (Nat.lt_trans less least.lt_stop) hit
  exact least.first i low' (Nat.lt_of_le_of_lt le less) hit'

theorem exists_least (some : ∃ i, start ≤ i ∧ i < stop ∧ T i) : ∃ k, Least T start stop k := by
  classical
  obtain ⟨low, high, hit⟩ := Nat.find_spec some
  refine ⟨Nat.find some, low, high, hit, fun q low' less hit' => ?_⟩
  exact Nat.find_min some less ⟨low', Nat.lt_trans less high, hit'⟩

variable [DecidablePred T]

/-- The hits from `start` on and before `stop`, in order. -/
def hits (T : ℕ → Prop) [DecidablePred T] (start stop : ℕ) : List ℕ :=
  (List.range' start (stop - start)).filter T

theorem mem_hits {i : ℕ} : i ∈ hits T start stop ↔ start ≤ i ∧ i < stop ∧ T i := by
  simp only [hits, List.mem_filter, List.mem_range'_1, decide_eq_true_eq]
  constructor
  · rintro ⟨⟨low, high⟩, hit⟩
    exact ⟨low, by omega, hit⟩
  · rintro ⟨low, high, hit⟩
    exact ⟨⟨low, by omega⟩, hit⟩

theorem hits_eq_nil_iff : hits T start stop = [] ↔ ∀ q, start ≤ q → q < stop → ¬ T q := by
  rw [List.eq_nil_iff_forall_not_mem]
  simp only [mem_hits, not_and]

theorem Least.hits_eq (least : Least T start stop k) :
    hits T start stop = k :: hits T (k + 1) stop := by
  have split : List.range' start (stop - start) =
      List.range' start (k - start) ++ k :: List.range' (k + 1) (stop - (k + 1)) := by
    have low := least.start_le
    have high := least.lt_stop
    have parts : stop - start = (k - start) + ((stop - (k + 1)) + 1) := by omega
    have here : start + (k - start) = k := by omega
    rw [parts, ← List.range'_append_1, here, List.range'_succ]
  have none : (List.range' start (k - start)).filter T = [] := by
    rw [List.filter_eq_nil_iff]
    intro q mem
    obtain ⟨low, high⟩ := List.mem_range'_1.mp mem
    rw [decide_eq_true_eq]
    exact least.first q low (by omega)
  rw [hits, split, List.filter_append, none, List.nil_append,
    List.filter_cons_of_pos (by exact decide_eq_true least.hit), hits]

end Hits
