import Mathlib.Data.List.Nodup

/-! Turns of independent parties: a fold in which the turn of each party reads and changes its own
part of the state only. -/

namespace Turns

variable {σ ι β : Type}

/-- The part of the state that `view` shows for a party is changed by that party's turn alone, by
what it shows. -/
structure Independent (turn : ι → σ → σ) (view : ι → σ → β) : Prop where
  other : ∀ {i j} s, j ≠ i → view i (turn j s) = view i s
  own : ∀ {i s t}, view i s = view i t → view i (turn i s) = view i (turn i t)

variable {turn : ι → σ → σ} {view : ι → σ → β} {parties : List ι} {i : ι}

theorem Independent.foldl_of_notMem (independent : Independent turn view) (absent : i ∉ parties)
    (s : σ) : view i (parties.foldl (fun s j => turn j s) s) = view i s := by
  induction parties generalizing s with
  | nil => rfl
  | cons j parties ih =>
    rw [List.mem_cons, not_or] at absent
    rw [List.foldl_cons, ih absent.2, independent.other s (Ne.symm absent.1)]

/-- After a turn of each party, a party's part is what its own turn makes of it. -/
theorem Independent.foldl_of_mem (independent : Independent turn view) (nodup : parties.Nodup)
    (present : i ∈ parties) (s : σ) :
    view i (parties.foldl (fun s j => turn j s) s) = view i (turn i s) := by
  induction parties generalizing s with
  | nil => cases present
  | cons j parties ih =>
    rw [List.nodup_cons] at nodup
    rw [List.foldl_cons]
    rcases List.mem_cons.mp present with rfl | later
    · exact independent.foldl_of_notMem nodup.1 _
    · rw [ih nodup.2 later]
      refine independent.own (independent.other s ?_)
      rintro rfl
      exact nodup.1 later

end Turns
