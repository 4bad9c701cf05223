import Hss.Qspi.Blocks
import Mathlib.Data.BitVec
import Mathlib.Data.List.Sort

/-! The loop that maps logical blocks to good physical blocks, on the arrays of the code: for every
ascending list of bad blocks it lists the others in ascending order. -/

namespace Hss

/-! ### The loop -/

/-- The variables of the loop of `build_bad_block_map_`. -/
structure MapLoop where
  pLogicalToPhysicalMap : ℕ → BitVec 16
  badBlockIndex : ℕ
  badBlocksRemaining : ℕ
  logicalBlockIndex : ℕ

/-- One turn of the loop. -/
def MapLoop.next (pBadBlocksMap : ℕ → BitVec 16) (m : MapLoop) (physicalBlockIndex : ℕ) : MapLoop :=
  if m.badBlocksRemaining ≠ 0 ∧ (pBadBlocksMap m.badBlockIndex).toNat = physicalBlockIndex then
    { m with
      badBlockIndex := m.badBlockIndex + 1
      badBlocksRemaining := m.badBlocksRemaining - 1 }
  else
    { m with
      pLogicalToPhysicalMap := Function.update m.pLogicalToPhysicalMap m.logicalBlockIndex
        (BitVec.ofNat 16 physicalBlockIndex)
      logicalBlockIndex := m.logicalBlockIndex + 1 }

/-- The loop of `build_bad_block_map_`, with the blocks that the scan found. -/
def badBlockMapLoop (pBadBlocksMap : ℕ → BitVec 16) (numBadBlocks blockCount : ℕ)
    (map : ℕ → BitVec 16) : MapLoop :=
  (List.range blockCount).foldl (MapLoop.next pBadBlocksMap) ⟨map, 0, numBadBlocks, 0⟩

/-- The bad blocks in the array. -/
def listedBlocks (pBadBlocksMap : ℕ → BitVec 16) (numBadBlocks : ℕ) : List ℕ :=
  (List.range numBadBlocks).map fun i => (pBadBlocksMap i).toNat

/-! ### The loop on numbers -/

section
variable {pBadBlocksMap : ℕ → BitVec 16} {numBadBlocks blockCount : ℕ} {map : ℕ → BitVec 16}

/-- The loop on the arrays does what the loop on a list of numbers does. -/
structure MapLoop.Matches (pBadBlocksMap : ℕ → BitVec 16) (m : MapLoop)
    (state : (ℕ → ℕ) × List ℕ × ℕ) : Prop where
  map : m.pLogicalToPhysicalMap = fun l => BitVec.ofNat 16 (state.1 l)
  rest : state.2.1 = (List.range' m.badBlockIndex m.badBlocksRemaining).map
    fun i => (pBadBlocksMap i).toNat
  logical : m.logicalBlockIndex = state.2.2

theorem MapLoop.Matches.next {m : MapLoop} {state : (ℕ → ℕ) × List ℕ × ℕ}
    (same : m.Matches pBadBlocksMap state) (p : ℕ) :
    (m.next pBadBlocksMap p).Matches pBadBlocksMap (mapBlock state p) := by
  obtain ⟨numbers, rest, logical⟩ := state
  obtain ⟨map, rfl, index⟩ := same
  have first : ((List.range' m.badBlockIndex m.badBlocksRemaining).map
      fun i => (pBadBlocksMap i).toNat).head? = some p ↔
        m.badBlocksRemaining ≠ 0 ∧ (pBadBlocksMap m.badBlockIndex).toNat = p := by
    cases m.badBlocksRemaining with
    | zero => simp
    | succ n => simp [List.range'_succ]
  rw [MapLoop.next, mapBlock]
  by_cases bad : m.badBlocksRemaining ≠ 0 ∧ (pBadBlocksMap m.badBlockIndex).toNat = p
  · rw [if_pos bad, if_pos (first.mpr bad)]
    refine ⟨map, ?_, index⟩
    obtain ⟨n, some⟩ := Nat.exists_eq_succ_of_ne_zero bad.1
    simp [some, List.range'_succ]
  · rw [if_neg bad, if_neg fun h => bad (first.mp h)]
    refine ⟨?_, rfl, congrArg (· + 1) index⟩
    dsimp only
    rw [index, map]
    funext l
    by_cases here : l = logical
    · subst here
      simp
    · simp [here]

theorem badBlockMapLoop_matches (numbers : ℕ → ℕ) (same : map = fun l => BitVec.ofNat 16 (numbers l)) :
    (badBlockMapLoop pBadBlocksMap numBadBlocks blockCount map).Matches pBadBlocksMap
      ((List.range blockCount).foldl mapBlock
        (numbers, listedBlocks pBadBlocksMap numBadBlocks, 0)) := by
  have start : MapLoop.Matches pBadBlocksMap ⟨map, 0, numBadBlocks, 0⟩
      (numbers, listedBlocks pBadBlocksMap numBadBlocks, 0) :=
    ⟨same, by rw [listedBlocks, List.range_eq_range'], rfl⟩
  rw [badBlockMapLoop]
  generalize (⟨map, 0, numBadBlocks, 0⟩ : MapLoop) = m at start ⊢
  generalize (numbers, listedBlocks pBadBlocksMap numBadBlocks, 0) = state at start ⊢
  induction List.range blockCount generalizing m state with
  | nil => exact start
  | cons p blocks ih => exact ih _ _ (start.next p)

/-! ### What the loop lists -/

/-- An ascending list is a range with what it leaves out left out. -/
theorem eq_filter_range {l : List ℕ} {n : ℕ} (ascending : l.Pairwise (· < ·)) (below : ∀ p ∈ l, p < n) :
    l = (List.range n).filter (· ∈ l) := by
  refine List.Pairwise.eq_of_mem_iff ascending (List.pairwise_lt_range.filter _) fun p => ?_
  simp only [List.mem_filter, List.mem_range, decide_eq_true_eq]
  exact ⟨fun member => ⟨below p member, member⟩, fun member => member.2⟩

/-- The blocks before `blockCount` that the array does not list. -/
def unlistedBlocks (pBadBlocksMap : ℕ → BitVec 16) (numBadBlocks blockCount : ℕ) : List ℕ :=
  goodBlocks (· ∈ listedBlocks pBadBlocksMap numBadBlocks) blockCount

/-- The loop puts the blocks that are not listed at the beginning of the map, and leaves the rest of it
as it was. -/
theorem badBlockMapLoop_map
    (ascending : (listedBlocks pBadBlocksMap numBadBlocks).Pairwise (· < ·)) (l : ℕ) :
    (badBlockMapLoop pBadBlocksMap numBadBlocks blockCount map).pLogicalToPhysicalMap l =
      ((unlistedBlocks pBadBlocksMap numBadBlocks blockCount).map (BitVec.ofNat 16)).getD l (map l) := by
  have number (l : ℕ) : BitVec.ofNat 16 (map l).toNat = map l := by
    rw [BitVec.ofNat_toNat, BitVec.setWidth_eq]
  have below : ∀ p ∈ listedBlocks pBadBlocksMap numBadBlocks, p < blockCount + 2 ^ 16 := by
    intro p member
    obtain ⟨i, -, rfl⟩ := List.mem_map.mp member
    have := (pBadBlocksMap i).isLt
    omega
  have done : (badBlockMapLoop pBadBlocksMap numBadBlocks blockCount map).pLogicalToPhysicalMap = _ :=
    (badBlockMapLoop_matches (fun l => (map l).toNat) (funext fun l => (number l).symm)).map
  rw [eq_filter_range ascending below,
    foldl_mapBlock (· ∈ listedBlocks pBadBlocksMap numBadBlocks) _ (Nat.le_add_right ..)] at done
  rw [done, ← number l, List.getD_map]
  rfl

/-- The listed blocks that the loop meets. -/
def listedBelow (pBadBlocksMap : ℕ → BitVec 16) (numBadBlocks blockCount : ℕ) : ℕ :=
  ((listedBlocks pBadBlocksMap numBadBlocks).filter (· < blockCount)).length

theorem length_unlistedBlocks
    (ascending : (listedBlocks pBadBlocksMap numBadBlocks).Pairwise (· < ·)) :
    (unlistedBlocks pBadBlocksMap numBadBlocks blockCount).length =
      blockCount - listedBelow pBadBlocksMap numBadBlocks blockCount := by
  have met : (listedBlocks pBadBlocksMap numBadBlocks).filter (· < blockCount) =
      (List.range blockCount).filter (· ∈ listedBlocks pBadBlocksMap numBadBlocks) := by
    refine List.Pairwise.eq_of_mem_iff (ascending.filter _) (List.pairwise_lt_range.filter _)
      fun p => ?_
    simp only [List.mem_filter, List.mem_range, decide_eq_true_eq]
    exact and_comm
  rw [listedBelow, met, unlistedBlocks, ← length_goodBlocks]

/-- For every ascending list of bad blocks the first entries of the map are the blocks that are not bad,
in ascending order.  Their number is the number of blocks less that of the bad blocks among them, which
are all that are listed if the scan lists blocks of the flash only. -/
theorem badBlockMap_enumerates (pBadBlocksMap : ℕ → BitVec 16) (numBadBlocks blockCount : ℕ)
    (map : ℕ → BitVec 16)
    (ascending : (listedBlocks pBadBlocksMap numBadBlocks).Pairwise (· < ·)) :
    let n := blockCount - listedBelow pBadBlocksMap numBadBlocks blockCount
    let good := unlistedBlocks pBadBlocksMap numBadBlocks blockCount
    let built := (badBlockMapLoop pBadBlocksMap numBadBlocks blockCount map).pLogicalToPhysicalMap
    (List.range n).map built = good.map (BitVec.ofNat 16) ∧
      (blockCount ≤ 2 ^ 16 → (List.range n).map (fun l => (built l).toNat) = good) ∧
      good.Pairwise (· < ·) ∧
      (∀ p, p ∈ good ↔ p < blockCount ∧ p ∉ listedBlocks pBadBlocksMap numBadBlocks) ∧
      ((∀ p ∈ listedBlocks pBadBlocksMap numBadBlocks, p < blockCount) →
        n = blockCount - numBadBlocks) := by
  intro n good built
  have size : good.length = n := length_unlistedBlocks ascending
  have entries : (List.range n).map built = good.map (BitVec.ofNat 16) := by
    refine List.ext_getElem (by simp [size]) fun l inside _ => ?_
    rw [List.length_map, List.length_range] at inside
    rw [List.getElem_map, List.getElem_range]
    refine (badBlockMapLoop_map ascending l).trans ?_
    exact List.getD_eq_getElem _ _ (by rwa [List.length_map, size])
  have members (p : ℕ) : p ∈ good ↔
      p < blockCount ∧ p ∉ listedBlocks pBadBlocksMap numBadBlocks := by
    simp [good, unlistedBlocks, mem_goodBlocks]
  refine ⟨entries, fun small => ?_, List.pairwise_lt_range.filter _, members, fun within => ?_⟩
  · have numbers := congrArg (List.map BitVec.toNat) entries
    rw [List.map_map, List.map_map] at numbers
    refine numbers.trans ((List.map_congr_left fun p member => ?_).trans (List.map_id good))
    have := ((members p).mp member).1
    exact Nat.mod_eq_of_lt (by omega)
  · have all : (listedBlocks pBadBlocksMap numBadBlocks).filter (· < blockCount) =
        listedBlocks pBadBlocksMap numBadBlocks :=
      List.filter_eq_self.mpr fun p member => decide_eq_true (within p member)
    have count : (listedBlocks pBadBlocksMap numBadBlocks).length = numBadBlocks := by
      simp [listedBlocks]
    rw [show n = blockCount - _ from rfl, listedBelow, all, count]

/-- Blocks 0, 2 and 3 of five are bad. -/
theorem badBlockMap_enumerates_five :
    (List.range 2).map (fun l => ((badBlockMapLoop ([0, 2, 3].getD · 0) 3 5
      fun _ => 0).pLogicalToPhysicalMap l).toNat) = [1, 4] :=
  (badBlockMap_enumerates ([0, 2, 3].getD · 0) 3 5 (fun _ => 0) (by decide)).2.1 (by decide)

end

end Hss
