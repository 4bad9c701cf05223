import Mathlib.Data.BitVec
import Mathlib.Logic.Function.Basic

/-! The bits of an array of words, which are numbered through it. -/

namespace BitWords

variable {w : ℕ} {words : ℕ → BitVec w} {i k n start : ℕ} {mask val : BitVec w}

/-- Bit `n` of the array. -/
def bit (words : ℕ → BitVec w) (n : ℕ) : Bool := (words (n / w)).getLsbD (n % w)

/-- The array with the bits of `mask` cleared in a word, and then those of `val` set. -/
def patch (words : ℕ → BitVec w) (i : ℕ) (mask val : BitVec w) : ℕ → BitVec w :=
  Function.update words i (words i &&& ~~~mask ||| val)

theorem bit_patch (positive : 0 < w) (n : ℕ) : bit (patch words i mask val) n =
    if n / w = i then bit words n && !mask.getLsbD (n % w) || val.getLsbD (n % w)
    else bit words n := by
  rw [bit, patch, Function.update_apply, bit]
  split
  next same =>
    subst same
    have inside := Nat.mod_lt n positive
    simp [inside]
  next => rfl

/-- The bits of a field that ends in the word where it begins. -/
theorem getLsbD_shift (inside : start % w + k < w) :
    (words (start / w) >>> (start % w)).getLsbD k = bit words (start + k) := by
  have word : (start + k) / w = start / w := by
    rw [Nat.add_div (by omega), if_neg (by rw [Nat.mod_eq_of_lt (a := k) (by omega)]; omega),
      Nat.div_eq_of_lt (a := k) (by omega), Nat.add_zero]
  have place : (start + k) % w = start % w + k := by
    rw [Nat.add_mod, Nat.mod_eq_of_lt (a := k) (by omega), Nat.mod_eq_of_lt inside]
  rw [bit, word, place, BitVec.getLsbD_ushiftRight]

/-- The bits of a field that goes on in the next word. -/
theorem getLsbD_shift_or (short : k < w) :
    (words (start / w) >>> (start % w) |||
      words (start / w + 1) <<< (w - start % w)).getLsbD k = bit words (start + k) := by
  have positive : 0 < w := Nat.zero_lt_of_lt short
  have offs := Nat.mod_lt start positive
  rw [BitVec.getLsbD_or, BitVec.getLsbD_shiftLeft]
  rcases Nat.lt_or_ge (start % w + k) w with inside | after
  · rw [getLsbD_shift inside, decide_eq_true (show k < w - start % w by omega)]
    simp
  · have word : (start + k) / w = start / w + 1 := by
      rw [Nat.add_div positive, if_pos (by rw [Nat.mod_eq_of_lt short]; omega), Nat.div_eq_of_lt short,
        Nat.add_zero]
    have place : (start + k) % w = k - (w - start % w) := by
      rw [Nat.add_mod, Nat.mod_eq_of_lt short, Nat.mod_eq_sub_mod after, Nat.mod_eq_of_lt (by omega)]
      omega
    rw [bit, word, place, BitVec.getLsbD_ushiftRight, BitVec.getLsbD_of_ge _ _ after]
    simp [short, Nat.not_lt.mpr (show w - start % w ≤ k by omega)]

end BitWords
