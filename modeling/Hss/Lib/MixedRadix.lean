import Mathlib.Algebra.Group.Nat.Defs
import Mathlib.Data.Int.Basic
import Mathlib.Data.Nat.Size

/-! Numbers of two digits, the low one below a radix of its own, from which numbers of more digits are
built. -/

namespace MixedRadix

variable {n high high' low low' x : ℕ}

/-- The number with the digits `high` and `low`, of which the low one is below `n`. -/
def join (n high low : ℕ) : ℕ := low + high * n

theorem join_div (less : low < n) : join n high low / n = high := by
  rw [join, Nat.add_mul_div_right _ _ (Nat.zero_lt_of_lt less), Nat.div_eq_of_lt less, Nat.zero_add]

theorem join_mod (less : low < n) : join n high low % n = low := by
  rw [join, Nat.add_mul_mod_self_right, Nat.mod_eq_of_lt less]

theorem join_div_mod (n x : ℕ) : join n (x / n) (x % n) = x := Nat.mod_add_div' x n

theorem join_inj (less : low < n) (less' : low' < n) :
    join n high low = join n high' low' ↔ high = high' ∧ low = low' := by
  constructor
  · intro same
    have quotient := congrArg (· / n) same
    have remainder := congrArg (· % n) same
    rw [join_div less, join_div less'] at quotient
    rw [join_mod less, join_mod less'] at remainder
    exact ⟨quotient, remainder⟩
  · rintro ⟨rfl, rfl⟩
    rfl

/-- The high digit decides, and the low one where the high ones are the same. -/
theorem join_lt_join (less : low < n) (less' : low' < n) :
    join n high low < join n high' low' ↔ high < high' ∨ high = high' ∧ low < low' := by
  unfold join
  rcases Nat.lt_trichotomy high high' with before | rfl | after
  · have step : (high + 1) * n ≤ high' * n := Nat.mul_le_mul_right n before
    rw [Nat.succ_mul] at step
    exact iff_of_true (by omega) (.inl before)
  · simp
  · have step : (high' + 1) * n ≤ high * n := Nat.mul_le_mul_right n after
    rw [Nat.succ_mul] at step
    exact iff_of_false (by omega) (by omega)

theorem join_lt_mul {m : ℕ} (less : low < n) (less' : high < m) : join n high low < m * n := by
  have step : (high + 1) * n ≤ m * n := Nat.mul_le_mul_right n less'
  rw [Nat.succ_mul] at step
  unfold join
  omega

theorem sign_sub (a b : ℕ) :
    Int.sign (a - b) = if a ≠ b then if a < b then -1 else 1 else 0 := by
  rcases Nat.lt_trichotomy a b with before | rfl | after
  · rw [if_pos (Nat.ne_of_lt before), if_pos before]
    exact Int.sign_eq_neg_one_of_neg (by omega)
  · simp
  · rw [if_pos (Nat.ne_of_gt after), if_neg (Nat.lt_asymm after)]
    exact Int.sign_eq_one_of_pos (by omega)

/-- The high digits are compared first. -/
theorem sign_join (less : low < n) (less' : low' < n) :
    Int.sign (join n high low - join n high' low') =
      if high ≠ high' then Int.sign (high - high') else Int.sign (low - low') := by
  have before : join n high low < join n high' low' ↔ _ := join_lt_join less less'
  have same : join n high low = join n high' low' ↔ _ := join_inj less less'
  simp only [sign_sub, ne_eq, before, same]
  grind

theorem join_succ : join n high (low + 1) = join n high low + 1 := Nat.succ_add low _

/-- The number after the one with the greatest low digit. -/
theorem join_carry (last : low + 1 = n) : join n (high + 1) 0 = join n high low + 1 := by
  unfold join
  rw [Nat.succ_mul]
  omega

/-- The digits of the next number, where the low one is not the greatest -/
theorem succ_digits (more : x % n + 1 < n) : (x + 1) / n = x / n ∧ (x + 1) % n = x % n + 1 := by
  have next : join n (x / n) (x % n + 1) = x + 1 := by rw [join_succ, join_div_mod]
  rw [← next]
  exact ⟨join_div more, join_mod more⟩

/-- The digits of the next number, where the low one is the greatest -/
theorem succ_digits_carry (last : x % n + 1 = n) : (x / n + 1) * n = x + 1 := by
  have next : join n (x / n + 1) 0 = x + 1 := by rw [join_carry last, join_div_mod]
  rw [← next, join, Nat.zero_add]

/-- The digits of a power of two are next to each other in the bits. -/
theorem join_two_pow {k : ℕ} (less : low < 2 ^ k) : join (2 ^ k) high low = high <<< k ||| low := by
  rw [join, ← Nat.shiftLeft_add_eq_or_of_lt less, Nat.shiftLeft_eq, Nat.add_comm]

end MixedRadix
