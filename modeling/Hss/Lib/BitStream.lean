import Mathlib.Data.BitVec

/-! Bit streams that hold fields of given widths one after the other, the most significant bit of
each first. -/

namespace BitStream

variable {v w : ℕ}

/-- The bits of a field. -/
def bits (x : BitVec w) : List Bool := List.ofFn fun i : Fin w => x.getMsbD i

/-- The field of `w` bits at the front of a stream, and what follows it. -/
def take (w : ℕ) (stream : List Bool) : Option (BitVec w × List Bool) :=
  if w ≤ stream.length then
    some ((BitVec.ofBoolListBE (stream.take w)).setWidth w, stream.drop w)
  else none

@[simp] theorem length_bits (x : BitVec w) : (bits x).length = w := by simp [bits]

theorem getElem_bits (x : BitVec w) {i : ℕ} (h : i < (bits x).length) :
    (bits x)[i] = x.getMsbD i := by simp [bits]

@[simp] theorem take_bits (x : BitVec w) (rest : List Bool) :
    take w (bits x ++ rest) = some (x, rest) := by
  have front : (bits x ++ rest).take w = bits x := by simp
  have back : (bits x ++ rest).drop w = rest := by simp
  rw [take, if_pos (by simp), front, back]
  congr 2
  apply BitVec.eq_of_getMsbD_eq
  intro i hi
  simp [BitVec.getMsbD_setWidth, hi, getElem_bits]

end BitStream
