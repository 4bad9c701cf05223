import Hss.Lib.Hits

/-! Items that are tried one after another, each in the state that those before it left. -/

namespace Fallback

open Hits

variable {α σ : Type*}

/-- The state once the first `k` items are tried. -/
def before (after : σ → α → σ) (items : List α) (s : σ) (k : ℕ) : σ :=
  (items.take k).foldl after s

/-- `P` holds of item `k` in the state that it is tried in. -/
def At (after : σ → α → σ) (P : σ → α → Prop) (items : List α) (s : σ) (k : ℕ) : Prop :=
  ∃ item, items[k]? = some item ∧ P (before after items s k) item

variable {after : σ → α → σ} {P Q : σ → α → Prop} {item : α} {items : List α} {s : σ} {k : ℕ}

@[simp] theorem before_zero : before after items s 0 = s := rfl

@[simp] theorem before_cons_succ :
    before after (item :: items) s (k + 1) = before after items (after s item) k := rfl

theorem before_succ (here : items[k]? = some item) :
    before after items s (k + 1) = after (before after items s k) item := by
  rw [before, List.take_add_one, here, Option.toList_some, List.foldl_append]
  rfl

@[simp] theorem at_cons_zero : At after P (item :: items) s 0 ↔ P s item := by
  simp [At]

@[simp] theorem at_cons_succ :
    At after P (item :: items) s (k + 1) ↔ At after P items (after s item) k := Iff.rfl

theorem At.lt_length (hit : At after P items s k) : k < items.length := by
  obtain ⟨_, here, _⟩ := hit
  exact (List.getElem?_eq_some_iff.mp here).1

theorem At.imp (wider : ∀ s item, P s item → Q s item) (hit : At after P items s k) :
    At after Q items s k := by
  obtain ⟨item, here, holds⟩ := hit
  exact ⟨item, here, wider _ _ holds⟩

/-- Item `k` is the first that `P` holds of when it is tried. -/
def First (after : σ → α → σ) (P : σ → α → Prop) (items : List α) (s : σ) (k : ℕ) : Prop :=
  Least (At after P items s) 0 items.length k

theorem First.of_lt (hit : At after P items s k) (none : ∀ j < k, ¬ At after P items s j) :
    First after P items s k :=
  ⟨Nat.zero_le _, hit.lt_length, hit, fun j _ less => none j less⟩

theorem exists_first (some : ∃ k, At after P items s k) : ∃ k, First after P items s k := by
  obtain ⟨k, hit⟩ := some
  exact exists_least ⟨k, Nat.zero_le _, hit.lt_length, hit⟩

theorem first_cons_zero : First after P (item :: items) s 0 ↔ P s item := by
  constructor
  · intro first
    exact at_cons_zero.mp first.hit
  · intro holds
    exact .of_lt (at_cons_zero.mpr holds) fun j less => absurd less (Nat.not_lt_zero j)

/-- The first item is in the tail exactly when `P` fails of the head. -/
theorem first_cons_succ :
    First after P (item :: items) s (k + 1) ↔
      ¬ P s item ∧ First after P items (after s item) k := by
  constructor
  · intro first
    refine ⟨fun holds => first.first 0 (Nat.le_refl 0) (Nat.succ_pos k) (at_cons_zero.mpr holds), ?_⟩
    refine .of_lt (at_cons_succ.mp first.hit) fun j less hit => ?_
    exact first.first (j + 1) (Nat.zero_le _) (Nat.succ_lt_succ less) (at_cons_succ.mpr hit)
  · rintro ⟨fails, first⟩
    refine .of_lt (at_cons_succ.mpr first.hit) fun j less hit => ?_
    cases j with
    | zero => exact fails (at_cons_zero.mp hit)
    | succ j => exact first.first j (Nat.zero_le _) (Nat.lt_of_succ_lt_succ less) hit

/-- The first item that `P` holds of is the first that the wider `Q` does, when each that `Q` holds of
comes no sooner than one that `P` does. -/
theorem First.widen (wider : ∀ s item, P s item → Q s item)
    (covered : ∀ j, At after Q items s j → ∃ i ≤ j, At after P items s i)
    (first : First after P items s k) : First after Q items s k := by
  refine Least.widen (fun _ => At.imp wider) (fun j _ _ hit => ?_) first
  obtain ⟨i, le, hit⟩ := covered j hit
  exact ⟨i, Nat.zero_le i, le, hit⟩

end Fallback
