import Mathlib.Data.BitVec
import Mathlib.Logic.Function.Iterate

/-! Maps of bit vectors that are linear over exclusive or.  They are closed under composition,
iteration and sums, and two of them that agree on every single bit agree. -/

namespace XorMap

variable {w v u : ℕ} {f g : BitVec w → BitVec v} {h : BitVec v → BitVec u} {step : BitVec w → BitVec w}

/-- The map takes exclusive ors to exclusive ors. -/
def Linear (f : BitVec w → BitVec v) : Prop := ∀ x y, f (x ^^^ y) = f x ^^^ f y

theorem Linear.map_zero (linear : Linear f) : f 0 = 0 := by
  have double := linear 0 0
  rw [BitVec.xor_self] at double
  have sum : f 0 ^^^ f 0 = 0 := BitVec.xor_self
  exact double.trans sum

theorem Linear.id : Linear (fun x : BitVec w => x) := fun _ _ => rfl

theorem Linear.zero : Linear (fun _ : BitVec w => (0 : BitVec v)) := fun _ _ => BitVec.xor_self.symm

theorem Linear.comp (outer : Linear h) (inner : Linear f) : Linear fun x => h (f x) := by
  intro x y
  show h (f (x ^^^ y)) = h (f x) ^^^ h (f y)
  rw [inner, outer]

theorem Linear.xor (first : Linear f) (second : Linear g) : Linear fun x => f x ^^^ g x := by
  intro x y
  show f (x ^^^ y) ^^^ g (x ^^^ y) = f x ^^^ g x ^^^ (f y ^^^ g y)
  rw [first, second]
  ac_rfl

theorem Linear.iterate (linear : Linear step) (n : ℕ) : Linear step^[n] := by
  induction n with
  | zero => exact Linear.id
  | succ n ih => exact ih.comp linear

theorem Linear.setWidth : Linear fun x : BitVec w => x.setWidth v := fun _ _ => BitVec.setWidth_xor

theorem Linear.ushiftRight (n : ℕ) : Linear fun x : BitVec w => x >>> n :=
  fun x y => BitVec.ushiftRight_xor_distrib x y n

/-- The sum of the powers of a map that `coefficients` select. -/
def polynomial (step : BitVec w → BitVec w) : List Bool → BitVec w → BitVec w
  | [], _ => 0
  | c :: coefficients, x => (if c then x else 0) ^^^ polynomial step coefficients (step x)

theorem Linear.polynomial (linear : Linear step) (coefficients : List Bool) :
    Linear (polynomial step coefficients) := by
  induction coefficients with
  | nil => exact Linear.zero
  | cons c coefficients ih =>
    refine Linear.xor ?_ (ih.comp linear)
    cases c with
    | true => exact Linear.id
    | false => exact Linear.zero

/-- What commutes with a linear map commutes with its polynomials. -/
theorem Linear.commute_polynomial {map : BitVec w → BitVec w} (linear : Linear map)
    (commute : Function.Commute map step) (coefficients : List Bool) :
    Function.Commute map (XorMap.polynomial step coefficients) := by
  intro x
  induction coefficients generalizing x with
  | nil => exact linear.map_zero
  | cons c coefficients ih =>
    show map ((if c then x else 0) ^^^ XorMap.polynomial step coefficients (step x)) =
      (if c then map x else 0) ^^^ XorMap.polynomial step coefficients (step (map x))
    rw [linear, ih, commute x]
    cases c with
    | true => rfl
    | false => exact congrArg (· ^^^ _) linear.map_zero

theorem Linear.ext (linear : Linear f) (linear' : Linear g)
    (agree : ∀ i, i < w → f (BitVec.twoPow w i) = g (BitVec.twoPow w i)) (x : BitVec w) :
    f x = g x := by
  have low (k : ℕ) : ∀ x : BitVec w, (∀ i, k ≤ i → x.getLsbD i = false) → f x = g x := by
    induction k with
    | zero =>
      intro x none
      have zero : x = 0 := BitVec.eq_of_getLsbD_eq fun i _ => by
        rw [none i (Nat.zero_le i)]
        exact BitVec.getLsbD_zero.symm
      rw [zero, linear.map_zero, linear'.map_zero]
    | succ k ih =>
      intro x above
      cases top : x.getLsbD k with
      | false =>
        refine ih x fun i from_k => ?_
        rcases Nat.eq_or_lt_of_le from_k with same | past
        · rw [← same, top]
        · exact above i past
      | true =>
        have inside : k < w := BitVec.lt_of_getLsbD top
        have rest : f (x ^^^ BitVec.twoPow w k) = g (x ^^^ BitVec.twoPow w k) := by
          refine ih _ fun i from_k => ?_
          rw [BitVec.getLsbD_xor, BitVec.getLsbD_twoPow]
          rcases Nat.eq_or_lt_of_le from_k with same | past
          · rw [← same, top]
            simp [inside]
          · simp [above i past, Nat.ne_of_lt past]
        have split : x = x ^^^ BitVec.twoPow w k ^^^ BitVec.twoPow w k := by
          rw [BitVec.xor_assoc, BitVec.xor_self, BitVec.xor_zero]
        rw [split, linear, linear', rest, agree k inside]
  exact low w x fun i past => BitVec.getLsbD_of_ge x i past

/-- A linear map that commutes with a step is the identity when it keeps a vector whose steps are the
single bits. -/
theorem Linear.eq_self {map : BitVec w → BitVec w} (linear : Linear map)
    (commute : Function.Commute map step) (start : BitVec w) (number : ℕ → ℕ)
    (generates : ∀ i, i < w → step^[number i] start = BitVec.twoPow w i) (keeps : map start = start)
    (x : BitVec w) : map x = x := by
  refine linear.ext Linear.id (fun i inside => ?_) x
  rw [← generates i inside, commute.iterate_right (number i) start, keeps]

end XorMap
