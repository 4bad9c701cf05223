import Mathlib.Data.List.Basic
import Mathlib.Data.Nat.Notation
import Mathlib.Tactic.Ring

/-! Stores that are divided into blocks of equal size: copies of ranges and of blocks, and loops that
go over a range in strides of one block. -/

namespace BlockStore

variable {β : Type}

/-- `dst` after `len` cells from `dstOffset` on were copied from those of `src` from `srcOffset` on. -/
def copyRange (dst src : ℕ → β) (dstOffset srcOffset len : ℕ) : ℕ → β :=
  fun a => if dstOffset ≤ a ∧ a < dstOffset + len then src (srcOffset + (a - dstOffset)) else dst a

/-- The offsets that a loop over `[offset, offset + count)` in strides of `size` takes. -/
def strides (size offset count : ℕ) : List ℕ :=
  (List.range ((count + size - 1) / size)).map fun k => offset + k * size

variable {dst src : ℕ → β} {size offset count len a p k : ℕ}

theorem copyRange_of_mem {dstOffset srcOffset : ℕ} (low : dstOffset ≤ a)
    (high : a < dstOffset + len) :
    copyRange dst src dstOffset srcOffset len a = src (srcOffset + (a - dstOffset)) :=
  if_pos ⟨low, high⟩

theorem copyRange_of_notMem {dstOffset srcOffset : ℕ}
    (outside : ¬(dstOffset ≤ a ∧ a < dstOffset + len)) :
    copyRange dst src dstOffset srcOffset len a = dst a := if_neg outside

theorem block_iff (positive : 0 < size) :
    p * size ≤ a ∧ a < p * size + size ↔ a / size = p := by
  rw [Nat.div_eq_iff positive]
  have := Nat.mul_comm p size
  omega

theorem copyRange_block (positive : 0 < size) :
    copyRange dst src (p * size) (p * size) size a = if a / size = p then src a else dst a := by
  by_cases inside : a / size = p
  · obtain ⟨low, high⟩ := (block_iff positive).mpr inside
    rw [copyRange_of_mem low high, if_pos inside, Nat.add_sub_cancel' low]
  · rw [copyRange_of_notMem fun h => inside ((block_iff positive).mp h), if_neg inside]

/-- A mask of `k` bits from bit `j` on rounds down to a block of `2 ^ j` cells. -/
theorem and_shiftLeft_mask (x k j : ℕ) : x &&& (2 ^ k - 1) <<< j = x / 2 ^ j % 2 ^ k * 2 ^ j := by
  have bits : x &&& (2 ^ k - 1) <<< j = (x >>> j &&& 2 ^ k - 1) <<< j := by
    apply Nat.eq_of_testBit_eq
    intro i
    simp only [Nat.testBit_and, Nat.testBit_shiftLeft, Nat.testBit_shiftRight]
    by_cases low : j ≤ i
    · simp [low]
    · simp [low]
  rw [bits, Nat.and_two_pow_sub_one_eq_mod, Nat.shiftLeft_eq, Nat.shiftRight_eq_div_pow]

/-- A range that is copied in two pieces, one after the other. -/
theorem copyRange_append {n : ℕ} : copyRange (copyRange dst src offset 0 n) (fun i => src (n + i))
    (offset + n) 0 k = copyRange dst src offset 0 (n + k) := by
  funext a
  simp only [copyRange, Nat.zero_add]
  rcases Nat.lt_or_ge a (offset + n) with first | past
  · rw [if_neg (by omega)]
    split <;> split <;> first | rfl | omega
  · by_cases second : a < offset + n + k
    · rw [if_pos ⟨past, second⟩, if_pos ⟨by omega, by omega⟩]
      congr 1
      omega
    · rw [if_neg (by omega), if_neg (by omega), if_neg (by omega)]

theorem strides_lt (positive : 0 < size) {i : ℕ} (hi : i ∈ strides size offset count) :
    offset ≤ i ∧ i < offset + count := by
  obtain ⟨k, hk, rfl⟩ := List.mem_map.mp hi
  have less := List.mem_range.mp hk
  rw [Nat.lt_div_iff_mul_lt positive] at less
  have : k * size = size * k := Nat.mul_comm ..
  omega

theorem strides_blocks (positive : 0 < size) (n : ℕ) :
    strides size 0 (size * n) = (List.range n).map (· * size) := by
  have length : (size * n + size - 1) / size = n := by
    rw [Nat.add_sub_assoc positive, Nat.mul_add_div positive,
      Nat.div_eq_of_lt (Nat.sub_lt positive Nat.one_pos), Nat.add_zero]
  rw [strides, length]
  simp

end BlockStore
