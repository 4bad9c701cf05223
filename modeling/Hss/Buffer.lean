import Hss.Types
import Mathlib.Data.List.GetD

/-! Buffers of bytes: what a write changes and a read sees. -/

namespace Hss

/-- The bytes of `buffer` from `offset` on replaced by `data`. -/
def writeBuffer (buffer : ℕ → BitVec 8) (offset : ℕ) (data : Bytes) : ℕ → BitVec 8 := fun i =>
  if offset ≤ i then (data[i - offset]?).getD (buffer i) else buffer i

/-- The first `n` bytes of `buffer`. -/
def firstBytes (buffer : ℕ → BitVec 8) (n : ℕ) : Bytes := (List.range n).map buffer

theorem firstBytes_writeBuffer (buffer : ℕ → BitVec 8) (offset : ℕ) (data : Bytes) :
    firstBytes (writeBuffer buffer offset data) (offset + data.length) =
      firstBytes buffer offset ++ data := by
  unfold firstBytes
  rw [List.range_add, List.map_append, List.map_map]
  congr 1
  · refine List.map_congr_left fun i inside => ?_
    exact if_neg (Nat.not_le.mpr (List.mem_range.mp inside))
  · refine List.ext_getElem (by simp) fun i _ inside => ?_
    simp [writeBuffer, inside]

theorem length_firstBytes (buffer : ℕ → BitVec 8) (n : ℕ) : (firstBytes buffer n).length = n := by
  simp [firstBytes]

theorem writeBuffer_of_mem {buffer : ℕ → BitVec 8} {offset i : ℕ} {data : Bytes}
    (low : offset ≤ i) (high : i < offset + data.length) :
    writeBuffer buffer offset data i = data.getD (i - offset) 0 := by
  have inside : i - offset < data.length := by omega
  rw [writeBuffer, if_pos low, List.getElem?_eq_getElem inside, List.getD_eq_getElem _ _ inside]
  rfl

theorem writeBuffer_of_notMem {buffer : ℕ → BitVec 8} {offset i : ℕ} {data : Bytes}
    (outside : i < offset ∨ offset + data.length ≤ i) : writeBuffer buffer offset data i = buffer i := by
  unfold writeBuffer
  split
  · rw [List.getElem?_eq_none (by omega)]
    rfl
  · rfl

theorem writeBuffer_nil (buffer : ℕ → BitVec 8) (offset : ℕ) : writeBuffer buffer offset [] = buffer :=
  funext fun _ => ite_self _

theorem writeBuffer_append (buffer : ℕ → BitVec 8) (offset : ℕ) (first second : Bytes) :
    writeBuffer (writeBuffer buffer offset first) (offset + first.length) second =
      writeBuffer buffer offset (first ++ second) := by
  funext i
  unfold writeBuffer
  grind

theorem writeBuffer_firstBytes (buffer source : ℕ → BitVec 8) (offset n i : ℕ) :
    writeBuffer buffer offset (firstBytes source n) (offset + i) =
      if i < n then source i else buffer (offset + i) := by
  have size := length_firstBytes source n
  split
  · next less =>
    rw [writeBuffer_of_mem (Nat.le_add_right ..) (by omega), Nat.add_sub_cancel_left, firstBytes,
      List.getD_eq_getElem _ _ (by simpa using less)]
    simp
  · exact writeBuffer_of_notMem (by omega)

theorem firstBytes_add (buffer : ℕ → BitVec 8) (m n : ℕ) :
    firstBytes buffer (m + n) = firstBytes buffer m ++ firstBytes (fun i => buffer (m + i)) n := by
  rw [firstBytes, List.range_add, List.map_append, List.map_map]
  rfl

end Hss
