import Hss.Lib.XorLinear

/-! Cyclic redundancy checks, bit by bit, in registers that shift down or up, and the steps of eight
bits that a table of bytes takes. -/

namespace Crc

open XorMap

variable {w : ℕ}

/-- A shift register: how it shifts, and the bit that it shifts out. -/
structure Register (w : ℕ) where
  shift : BitVec w → BitVec w
  out : BitVec w → Bool
  linear : Linear shift
  out_xor : ∀ x y, out (x ^^^ y) = (out x ^^ out y)

/-- The register that shifts down, and the one that shifts up. -/
def downward : Register w where
  shift x := x >>> 1
  out x := x.getLsbD 0
  linear := Linear.ushiftRight 1
  out_xor _ _ := BitVec.getLsbD_xor

def upward : Register w where
  shift x := x <<< 1
  out x := x.msb
  linear x y := BitVec.shiftLeft_xor_distrib x y 1
  out_xor _ _ := BitVec.msb_xor

/-! ### Bits -/

namespace Register

variable (r : Register w) (poly : BitVec w)

/-- One bit of a message goes into the register. -/
def feed (crc : BitVec w) (bit : Bool) : BitVec w :=
  if r.out crc ^^ bit then r.shift crc ^^^ poly else r.shift crc

/-- A bit that is zero. -/
def step (crc : BitVec w) : BitVec w := r.feed poly crc false

/-- The bits that `n` shifts of a word put out. -/
def bits (n : ℕ) (x : BitVec w) : List Bool := (List.range n).map fun i => r.out (r.shift^[i] x)

variable {r poly} {crc x : BitVec w}

theorem xor_xor_self (a b : BitVec w) : a ^^^ b ^^^ b = a := by
  rw [BitVec.xor_assoc, BitVec.xor_self, BitVec.xor_zero]

theorem xor_cancel (a b p : BitVec w) : a ^^^ p ^^^ (b ^^^ p) = a ^^^ b := by
  rw [BitVec.xor_comm b p, ← BitVec.xor_assoc, xor_xor_self]

theorem step_eq : r.step poly x = r.shift x ^^^ if r.out x then poly else 0#w := by
  rw [step, feed, Bool.xor_false]
  cases r.out x <;> simp

theorem linear_step : Linear (r.step poly) := by
  intro x y
  rw [step_eq, step_eq, step_eq, r.linear, r.out_xor]
  cases r.out x with
  | false => cases r.out y <;> simp [BitVec.xor_assoc]
  | true =>
    cases r.out y with
    | false =>
      simp only [Bool.xor_false, if_true, if_false, Bool.false_eq_true, BitVec.xor_zero]
      ac_rfl
    | true => simp [xor_cancel]

/-- A bit that is fed is a bit of the register, with the rest of its word beside it. -/
theorem feed_eq : r.feed poly crc (r.out x) = r.step poly (crc ^^^ x) ^^^ r.shift x := by
  rw [step_eq, feed, r.linear, r.out_xor]
  split
  · have moved : r.shift crc ^^^ r.shift x ^^^ poly = r.shift crc ^^^ poly ^^^ r.shift x := by ac_rfl
    rw [moved, xor_xor_self]
  · rw [BitVec.xor_zero, xor_xor_self]

theorem foldl_feed (n : ℕ) :
    (r.bits n x).foldl (r.feed poly) crc = (r.step poly)^[n] (crc ^^^ x) ^^^ r.shift^[n] x := by
  induction n with
  | zero => exact (xor_xor_self crc x).symm
  | succ n ih =>
    rw [bits] at ih ⊢
    rw [List.range_succ, List.map_append, List.foldl_append, ih, List.map_singleton,
      List.foldl_cons, List.foldl_nil, feed_eq, xor_xor_self, Function.iterate_succ_apply',
      Function.iterate_succ_apply']

/-- Zeros are shifted out. -/
theorem iterate_step {n : ℕ} (zeros : ∀ i < n, r.out (r.shift^[i] x) = false) :
    (r.step poly)^[n] x = r.shift^[n] x := by
  induction n with
  | zero => rfl
  | succ n ih =>
    rw [Function.iterate_succ_apply', ih fun i less => zeros i (Nat.lt_succ_of_lt less), step_eq,
      zeros n (Nat.lt_succ_self n), Function.iterate_succ_apply']
    exact BitVec.xor_zero

/-- A word that has zeros to shift out is only shifted, beside the rest of a register. -/
theorem iterate_step_split {n : ℕ} {rest : BitVec w}
    (zeros : ∀ i < n, r.out (r.shift^[i] x) = false) :
    (r.step poly)^[n] (x ^^^ rest) = r.shift^[n] x ^^^ (r.step poly)^[n] rest := by
  rw [linear_step.iterate n, iterate_step zeros]


/-- With a step that only zero takes to zero, a register is cleared by its own bits only. -/
theorem foldl_feed_eq_zero_iff {n : ℕ} (kernel : ∀ x, r.step poly x = 0 → x = 0)
    (empty : r.shift^[n] x = 0#w) : (r.bits n x).foldl (r.feed poly) crc = 0 ↔ crc = x := by
  have iterated (n : ℕ) (y : BitVec w) : (r.step poly)^[n] y = 0 → y = 0 := by
    induction n with
    | zero => exact id
    | succ n ih =>
      rw [Function.iterate_succ_apply']
      exact fun zero => ih (kernel _ zero)
  rw [foldl_feed, empty, BitVec.xor_zero]
  constructor
  · exact fun zero => BitVec.xor_eq_zero_iff.mp (iterated n _ zero)
  · rintro rfl
    rw [BitVec.xor_self]
    exact (linear_step.iterate n).map_zero

end Register

open Register

/-! ### Bytes -/

/-- The index of a table of bytes. -/
theorem toNat_and_byte {v : ℕ} (x : BitVec (v + 8)) :
    (x &&& (BitVec.allOnes 8).setWidth (v + 8)).toNat = (x.setWidth 8).toNat := by
  rw [BitVec.and_setWidth_allOnes, BitVec.toNat_append]
  simp

/-- The bits of a byte, the least or the most significant one first. -/
def lowFirst (byte : BitVec 8) : List Bool := (List.range 8).map byte.getLsbD

def highFirst (byte : BitVec 8) : List Bool := (List.range 8).map byte.getMsbD

section
variable (poly crc : BitVec w) (message : List (BitVec 8))

/-- The check of a message, from a register on. -/
def down : BitVec w := (message.flatMap lowFirst).foldl (downward.feed poly) crc

def up : BitVec w := (message.flatMap highFirst).foldl (upward.feed poly) crc

end

variable {poly crc x : BitVec w} {byte : BitVec 8}

theorem down_append (message rest : List (BitVec 8)) :
    down poly crc (message ++ rest) = down poly (down poly crc message) rest := by
  rw [down, List.flatMap_append, List.foldl_append]
  rfl

theorem up_append (message rest : List (BitVec 8)) :
    up poly crc (message ++ rest) = up poly (up poly crc message) rest := by
  rw [up, List.flatMap_append, List.foldl_append]
  rfl

theorem flatMap_foldl {feed : BitVec w → Bool → BitVec w} {order : BitVec 8 → List Bool}
    {update : BitVec w → BitVec 8 → BitVec w}
    (bytewise : ∀ crc byte, (order byte).foldl feed crc = update crc byte)
    (message : List (BitVec 8)) : (message.flatMap order).foldl feed crc = message.foldl update crc := by
  induction message generalizing crc with
  | nil => rfl
  | cons byte message ih =>
    rw [List.flatMap_cons, List.foldl_append, bytewise, ih, List.foldl_cons]

theorem downward_shift (n : ℕ) : (downward (w := w)).shift^[n] x = x >>> n := by
  induction n with
  | zero => simp
  | succ n ih =>
    rw [Function.iterate_succ_apply', ih, BitVec.shiftRight_add]
    rfl

theorem upward_shift (n : ℕ) : (upward (w := w)).shift^[n] x = x <<< n := by
  induction n with
  | zero => simp
  | succ n ih =>
    rw [Function.iterate_succ_apply', ih, BitVec.shiftLeft_add]
    rfl

theorem downward_out (n : ℕ) : downward.out (downward.shift^[n] x) = x.getLsbD n := by
  rw [downward_shift]
  simp [downward]

theorem upward_out (n : ℕ) : upward.out (upward.shift^[n] x) = x.getMsbD n := by
  rw [upward_shift]
  simp [upward, BitVec.msb]

theorem highFirst_append (a b : BitVec 8) :
    highFirst a ++ highFirst b = (List.range (8 + 8)).map (a ++ b).getMsbD := by
  rw [List.range_add, List.map_append, List.map_map, highFirst, highFirst]
  congr 1
  · refine List.map_congr_left fun i inside => ?_
    rw [BitVec.getMsbD_append, if_neg (Nat.not_le.mpr (List.mem_range.mp inside))]
  · refine List.map_congr_left fun i _ => ?_
    rw [Function.comp_apply, BitVec.getMsbD_append, if_pos (Nat.le_add_right 8 i),
      Nat.add_sub_cancel_left]

/-- The bits of a byte, one after another, are eight steps with the byte in its place. -/
theorem foldl_lowFirst (wide : 8 ≤ w) : (lowFirst byte).foldl (downward.feed poly) crc =
    (downward.step poly)^[8] (crc ^^^ byte.setWidth w) := by
  have bits : lowFirst byte = downward.bits 8 (byte.setWidth w) := by
    refine List.map_congr_left fun i inside => ?_
    have := List.mem_range.mp inside
    rw [downward_out]
    simp [show i < w by omega]
  have empty : downward.shift^[8] (byte.setWidth w) = 0#w := by
    rw [downward_shift]
    ext i inside
    simp
  rw [bits, foldl_feed, empty, BitVec.xor_zero]

theorem foldl_highFirst (wide : 8 ≤ w) : (highFirst byte).foldl (upward.feed poly) crc =
    (upward.step poly)^[8] (crc ^^^ byte.setWidth w <<< (w - 8)) := by
  have bits : highFirst byte = upward.bits 8 (byte.setWidth w <<< (w - 8)) := by
    refine List.map_congr_left fun i inside => ?_
    have := List.mem_range.mp inside
    rw [upward_out, BitVec.getMsbD_eq_getLsbD, BitVec.getMsbD_eq_getLsbD, BitVec.getLsbD_shiftLeft,
      BitVec.getLsbD_setWidth, show w - 1 - i - (w - 8) = 7 - i by omega]
    simp [show i < w by omega, show w - 1 - i < w by omega, show ¬w - 1 - i < w - 8 by omega,
      show 7 - i < w by omega, this]
  have empty : upward.shift^[8] (byte.setWidth w <<< (w - 8)) = 0#w := by
    rw [upward_shift, ← BitVec.shiftLeft_add]
    ext i inside
    rw [show w - 8 + 8 = w by omega]
    simp
  rw [bits, foldl_feed, empty, BitVec.xor_zero]

/-- Eight bits at once: the rest of the register is shifted, and the byte that is shifted out changes it
as a table says. -/
theorem downward_table : (downward.step poly)^[8] (crc ^^^ byte.setWidth w) =
    crc >>> 8 ^^^ (downward.step poly)^[8] ((crc.setWidth 8 ^^^ byte).setWidth w) := by
  have split : crc ^^^ byte.setWidth w =
      crc >>> 8 <<< 8 ^^^ (crc.setWidth 8 ^^^ byte).setWidth w := by
    ext i inside
    by_cases low : i < 8
    · simp [low, inside]
    · simp [low, inside, show 8 + (i - 8) = i by omega]
  have zeros : ∀ i < 8, downward.out (downward.shift^[i] (crc >>> 8 <<< 8)) = false := by
    intro i less
    rw [downward_out]
    simp [less]
  rw [split, iterate_step_split zeros, downward_shift]
  congr 1
  ext i inside
  simp only [BitVec.getElem_ushiftRight, BitVec.getLsbD_shiftLeft, BitVec.getLsbD_ushiftRight]
  simp only [Nat.add_sub_cancel_left, Nat.not_lt.mpr (Nat.le_add_right 8 i), decide_false,
    Bool.not_false, Bool.and_true, Bool.and_eq_right_iff_imp, decide_eq_true_eq]
  exact BitVec.lt_of_getLsbD

theorem upward_table (wide : 8 ≤ w) :
    (upward.step poly)^[8] (crc ^^^ byte.setWidth w <<< (w - 8)) = crc <<< 8 ^^^
      (upward.step poly)^[8] (((crc >>> (w - 8)).setWidth 8 ^^^ byte).setWidth w <<< (w - 8)) := by
  have split : crc ^^^ byte.setWidth w <<< (w - 8) =
      crc <<< 8 >>> 8 ^^^ ((crc >>> (w - 8)).setWidth 8 ^^^ byte).setWidth w <<< (w - 8) := by
    ext i inside
    by_cases low : i < w - 8
    · simp [low, show 8 + i < w by omega]
    · simp [low, show ¬8 + i < w by omega, show i - (w - 8) < 8 by omega,
        show w - 8 + (i - (w - 8)) = i by omega, BitVec.getLsbD_eq_getElem inside]
  have zeros : ∀ i < 8, upward.out (upward.shift^[i] (crc <<< 8 >>> 8)) = false := by
    intro i less
    rw [upward_out, BitVec.getMsbD_ushiftRight]
    simp [less]
  rw [split, iterate_step_split zeros, upward_shift]
  congr 1
  ext i inside
  by_cases low : i < 8
  · simp [low]
  · simp [low, show 8 + (i - 8) = i by omega, inside]

/-- With the constant term in the polynomial, only zero is stepped to zero. -/
theorem upward_step_eq_zero (odd : poly.getLsbD 0 = true) (zero : upward.step poly x = 0) : x = 0 := by
  rw [step_eq] at zero
  change (x <<< 1 ^^^ if x.msb then poly else 0#w) = 0#w at zero
  cases top : x.msb with
  | true =>
    have bit := congrArg (BitVec.getLsbD · 0) zero
    simp [top, odd] at bit
  | false =>
    rw [top, if_neg Bool.false_ne_true, BitVec.xor_zero] at zero
    refine BitVec.eq_of_getLsbD_eq fun i inside => ?_
    by_cases last : i + 1 < w
    · have bit := congrArg (BitVec.getLsbD · (i + 1)) zero
      rw [BitVec.getLsbD_eq_getElem inside]
      simpa [last] using bit
    · rw [BitVec.msb_eq_getLsbD_last, show w - 1 = i by omega] at top
      simp [top]

/-- A register is cleared by its own bits only. -/
theorem foldl_upward_eq_zero_iff (odd : poly.getLsbD 0 = true) :
    ((List.range w).map x.getMsbD).foldl (upward.feed poly) crc = 0 ↔ crc = x := by
  have bits : (List.range w).map x.getMsbD = upward.bits w x :=
    List.map_congr_left fun i _ => (upward_out i).symm
  have empty : upward.shift^[w] x = 0#w := by
    rw [upward_shift]
    ext i inside
    simp
  rw [bits]
  exact foldl_feed_eq_zero_iff (fun _ => upward_step_eq_zero odd) empty

end Crc
