import Mathlib.Data.List.Basic
import Mathlib.Data.Nat.Notation

/-! A range that is cut at the multiples of a size: the pieces that a loop takes, which follow one
another and of which none crosses a multiple. -/

namespace Pieces

/-- The pieces of `total` cells from `start` on, each with its first cell and its length, at most
`fuel` of them. -/
def piecesUpTo (size : ℕ) : ℕ → ℕ → ℕ → List (ℕ × ℕ)
  | 0, _, _ => []
  | fuel + 1, start, total =>
      if total = 0 then []
      else
        let length := min (size - start % size) total
        (start, length) :: piecesUpTo size fuel (start + length) (total - length)

/-- The pieces of `total` cells from `start` on. -/
def pieces (size start total : ℕ) : List (ℕ × ℕ) := piecesUpTo size total start total

variable {size start total : ℕ}

theorem piecesUpTo_fuel (positive : 0 < size) {fuel fuel' : ℕ} (enough : total ≤ fuel)
    (enough' : total ≤ fuel') : piecesUpTo size fuel start total = piecesUpTo size fuel' start total := by
  induction fuel generalizing start total fuel' with
  | zero =>
    obtain rfl : total = 0 := Nat.le_zero.mp enough
    cases fuel' with
    | zero => rfl
    | succ fuel' => rfl
  | succ fuel ih =>
    cases fuel' with
    | zero =>
      obtain rfl : total = 0 := Nat.le_zero.mp enough'
      rfl
    | succ fuel' =>
      unfold piecesUpTo
      split
      · rfl
      · have room : 0 < size - start % size := Nat.sub_pos_of_lt (Nat.mod_lt start positive)
        dsimp only
        rw [ih (by omega) (show total - min (size - start % size) total ≤ fuel' by omega)]

@[simp] theorem pieces_zero : pieces size start 0 = [] := rfl

theorem pieces_of_pos (positive : 0 < size) (left : 0 < total) :
    pieces size start total = (start, min (size - start % size) total) ::
      pieces size (start + min (size - start % size) total)
        (total - min (size - start % size) total) := by
  obtain ⟨n, rfl⟩ := Nat.exists_eq_succ_of_ne_zero (Nat.ne_of_gt left)
  have room : 0 < size - start % size := Nat.sub_pos_of_lt (Nat.mod_lt start positive)
  rw [pieces, piecesUpTo, if_neg (Nat.succ_ne_zero n), pieces]
  dsimp only
  rw [piecesUpTo_fuel positive (show _ ≤ n by omega) (Nat.le_refl _)]

/-- What holds of no cells, and of a piece with the rest if it does of the rest, holds of any range. -/
theorem pieces_induct (positive : 0 < size) {motive : ℕ → ℕ → List (ℕ × ℕ) → Prop}
    (nil : ∀ start, motive start 0 [])
    (cons : ∀ start total length rest, 0 < length → length ≤ total →
      start % size + length ≤ size → (length < total → start % size + length = size) →
      motive (start + length) (total - length) rest → motive start total ((start, length) :: rest))
    (start total : ℕ) : motive start total (pieces size start total) := by
  induction total using Nat.strongRecOn generalizing start with
  | _ total ih =>
    rcases Nat.eq_zero_or_pos total with rfl | left
    · exact nil start
    · have room : start % size < size := Nat.mod_lt start positive
      rw [pieces_of_pos positive left]
      refine cons start total _ _ (by omega) (by omega) (by omega) (by omega) (ih _ (by omega) _)

/-- The pieces of a range that begins at a multiple of the size. -/
theorem getElem?_pieces (positive : 0 < size) (aligned : start % size = 0) (k : ℕ) :
    (pieces size start total)[k]? =
      if k * size < total then some (start + k * size, min size (total - k * size)) else none := by
  induction k generalizing start total with
  | zero =>
    rcases Nat.eq_zero_or_pos total with rfl | left
    · simp
    · rw [pieces_of_pos positive left, aligned]
      simp [left]
  | succ k ih =>
    rcases Nat.eq_zero_or_pos total with rfl | left
    · simp
    · have next : (k + 1) * size = k * size + size := Nat.succ_mul k size
      rw [pieces_of_pos positive left, aligned, List.getElem?_cons_succ, Nat.sub_zero, next]
      rcases Nat.lt_or_ge size total with more | last
      · rw [Nat.min_eq_left (Nat.le_of_lt more), ih (by rw [Nat.add_mod_right, aligned])]
        by_cases inside : k * size < total - size
        · rw [if_pos inside, if_pos (by omega)]
          congr 2 <;> omega
        · rw [if_neg inside, if_neg (by omega)]
      · rw [Nat.min_eq_right last, Nat.sub_self, pieces_zero, if_neg (by omega)]
        rfl

theorem lt_length_pieces (positive : 0 < size) (aligned : start % size = 0) {k : ℕ} :
    k < (pieces size start total).length ↔ k * size < total := by
  rw [← Nat.not_le, ← List.getElem?_eq_none_iff, getElem?_pieces positive aligned]
  by_cases inside : k * size < total <;> simp [inside]

end Pieces
