import Mathlib.Data.BitVec
import Mathlib.Tactic.Common

/-! Arithmetic on unsigned integers of fixed width that keeps track of whether it is exact.  `Meets`
says when a value is exact and which number it then is, with one rule for each operation. -/

/-- A value of `w` bits, with whether it is exact: no operation that led to it divided by zero, went
below zero or lost a bit. -/
structure Checked (w : ℕ) where
  value : BitVec w
  exact : Bool

namespace Checked

variable {w : ℕ}

def const (value : BitVec w) : Checked w := ⟨value, true⟩

def mul (a b : Checked w) : Checked w :=
  ⟨a.value * b.value, a.exact && b.exact && decide (a.value.toNat * b.value.toNat < 2 ^ w)⟩

def div (a b : Checked w) : Checked w :=
  ⟨a.value / b.value, a.exact && b.exact && decide (b.value.toNat ≠ 0)⟩

def sub (a b : Checked w) : Checked w :=
  ⟨a.value - b.value, a.exact && b.exact && decide (b.value.toNat ≤ a.value.toNat)⟩

/-- The conversion to `v` bits. -/
def convert (v : ℕ) (a : Checked w) : Checked v :=
  ⟨a.value.setWidth v, a.exact && decide (a.value.toNat < 2 ^ v)⟩

/-- The value is exact just when the condition holds, and then it is the number. -/
structure Meets (a : Checked w) (condition : Prop) (n : ℕ) : Prop where
  exact_iff : a.exact = true ↔ condition
  toNat : condition → a.value.toNat = n

namespace Meets

variable {a b : Checked w} {p q : Prop} {m n : ℕ}

theorem const (value : BitVec w) : (const value).Meets True value.toNat :=
  ⟨by simp [Checked.const], fun _ => rfl⟩

theorem congr (ha : a.Meets p m) (same : p ↔ q) : a.Meets q m :=
  ⟨ha.exact_iff.trans same, fun h => ha.toNat (same.mpr h)⟩

theorem value_eq (ha : a.Meets p m) (same : m = n) : a.Meets p n := same ▸ ha

theorem mul (ha : a.Meets p m) (hb : b.Meets q n) :
    (a.mul b).Meets (p ∧ q ∧ m * n < 2 ^ w) (m * n) where
  exact_iff := by
    simp only [Checked.mul, Bool.and_eq_true, decide_eq_true_eq, ha.exact_iff, hb.exact_iff, and_assoc]
    refine and_congr_right fun hp => and_congr_right fun hq => ?_
    rw [ha.toNat hp, hb.toNat hq]
  toNat := by
    rintro ⟨hp, hq, bound⟩
    rw [Checked.mul, BitVec.toNat_mul, ha.toNat hp, hb.toNat hq, Nat.mod_eq_of_lt bound]

theorem div (ha : a.Meets p m) (hb : b.Meets q n) : (a.div b).Meets (p ∧ q ∧ n ≠ 0) (m / n) where
  exact_iff := by
    simp only [Checked.div, Bool.and_eq_true, decide_eq_true_eq, ha.exact_iff, hb.exact_iff, and_assoc]
    refine and_congr_right fun _ => and_congr_right fun hq => ?_
    rw [hb.toNat hq]
  toNat := by
    rintro ⟨hp, hq, -⟩
    rw [Checked.div, BitVec.toNat_udiv, ha.toNat hp, hb.toNat hq]

theorem sub (ha : a.Meets p m) (hb : b.Meets q n) : (a.sub b).Meets (p ∧ q ∧ n ≤ m) (m - n) where
  exact_iff := by
    simp only [Checked.sub, Bool.and_eq_true, decide_eq_true_eq, ha.exact_iff, hb.exact_iff, and_assoc]
    refine and_congr_right fun hp => and_congr_right fun hq => ?_
    rw [ha.toNat hp, hb.toNat hq]
  toNat := by
    rintro ⟨hp, hq, le⟩
    have below : b.value ≤ a.value := by
      rw [BitVec.le_def, ha.toNat hp, hb.toNat hq]
      exact le
    rw [Checked.sub, BitVec.toNat_sub_of_le below, ha.toNat hp, hb.toNat hq]

theorem convert (v : ℕ) (ha : a.Meets p m) : (a.convert v).Meets (p ∧ m < 2 ^ v) m where
  exact_iff := by
    simp only [Checked.convert, Bool.and_eq_true, decide_eq_true_eq, ha.exact_iff]
    refine and_congr_right fun hp => ?_
    rw [ha.toNat hp]
  toNat := by
    rintro ⟨hp, bound⟩
    rw [Checked.convert, BitVec.toNat_setWidth, ha.toNat hp, Nat.mod_eq_of_lt bound]

/-- An exact value that is also below a bound, as a condition on the number. -/
theorem exact_and_lt_iff (ha : a.Meets p m) (bound : ℕ) :
    (a.exact = true ∧ a.value.toNat < bound) ↔ p ∧ m < bound := by
  rw [ha.exact_iff]
  refine and_congr_right fun hp => ?_
  rw [ha.toNat hp]

end Meets

end Checked
