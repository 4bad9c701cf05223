import Hss.Lib.BitWords
import Hss.Nand.Geometry

/-! The table of bad blocks of a NAND device, with three bits for a block, packed into words of 64 bits:
what is read of a block after the table was written. -/

namespace Hss.Nand

open BitWords

/-- `enum nand_bbt_block_status` -/
inductive BlockStatus
  | unknown
  | good
  | worn
  | reserved
  | factoryBad
  deriving DecidableEq, Repr

def BlockStatus.code : BlockStatus → BitVec 64
  | .unknown => 0
  | .good => 1
  | .worn => 2
  | .reserved => 3
  | .factoryBad => 4

/-- `NAND_BBT_BLOCK_NUM_STATUS` -/
def blockNumStatus : BitVec 32 := 5

/-- `bits_per_block` -/
def bitsPerBlock : ℕ := genericFls blockNumStatus

def bitsPerLong : ℕ := 64

/-- `GENMASK(h, l)`.  Where `h` is past the word, the shift to the right is by more than the word has,
and C leaves open what it gives: `wide h`. -/
def genmask (wide : ℕ → BitVec 64) (h l : ℕ) : BitVec 64 :=
  BitVec.allOnes 64 <<< l &&&
    (if h < bitsPerLong then BitVec.allOnes 64 >>> (bitsPerLong - 1 - h) else wide h)

/-- The shift of the processor, which looks at the low six bits of the count. -/
def riscvWide (h : ℕ) : BitVec 64 := BitVec.allOnes 64 >>> ((2 ^ 32 + 63 - h) % 64)

/-- `nbbt.cache` -/
abbrev BbtCache := ℕ → BitVec 64

section
variable (wide : ℕ → BitVec 64) (m : MemoryOrganization)

/-- `nanddev_bbt_get_block_status`, none for `-ERANGE` -/
def nanddevBbtGetBlockStatus (cache : BbtCache) (entry : ℕ) : Option (BitVec 64) :=
  let pos := entry * bitsPerBlock / bitsPerLong
  let offs := entry * bitsPerBlock % bitsPerLong
  if nanddevNeraseblocks m ≤ entry then none
  else
    let status := cache pos >>> offs
    let status :=
      if bitsPerLong < bitsPerBlock + offs then status ||| cache (pos + 1) <<< (bitsPerLong - offs)
      else status
    some (status &&& genmask wide (bitsPerBlock - 1) 0)

/-- `nanddev_bbt_set_block_status`, none for `-ERANGE` -/
def nanddevBbtSetBlockStatus (cache : BbtCache) (entry : ℕ) (status : BlockStatus) :
    Option BbtCache :=
  let pos := entry * bitsPerBlock / bitsPerLong
  let offs := entry * bitsPerBlock % bitsPerLong
  let val := status.code &&& genmask wide (bitsPerBlock - 1) 0
  if nanddevNeraseblocks m ≤ entry then none
  else
    let cache := patch cache pos (genmask wide (offs + bitsPerBlock - 1) offs) (val <<< offs)
    some <|
      if bitsPerLong < bitsPerBlock + offs then
        let rbits := bitsPerBlock + offs - bitsPerLong
        patch cache (pos + 1) (genmask wide (rbits - 1) 0) (val >>> (bitsPerBlock - rbits))
      else cache

end

/-- The bits of the status of a block that a write does not clear: the block begins in one word and
ends in the next, and the shift of its mask is too wide. -/
def sticky (wide : ℕ → BitVec 64) (entry : ℕ) : BitVec 64 :=
  let offs := entry * bitsPerBlock % bitsPerLong
  if bitsPerLong < bitsPerBlock + offs then ~~~wide (offs + bitsPerBlock - 1) >>> offs else 0

variable {wide : ℕ → BitVec 64} {m : MemoryOrganization} {cache cache' : BbtCache}
  {entry entry' n : ℕ} {status : BlockStatus} {x : BitVec 64}

@[simp] theorem bitsPerBlock_eq : bitsPerBlock = 3 := by decide

@[simp] theorem bitsPerLong_eq : bitsPerLong = 64 := rfl

theorem getLsbD_genmask {h l i : ℕ} (small : h < 64) :
    (genmask wide h l).getLsbD i = decide (l ≤ i ∧ i ≤ h) := by
  rw [genmask, bitsPerLong_eq, if_pos small]
  simp only [BitVec.getLsbD_and, BitVec.getLsbD_shiftLeft, BitVec.getLsbD_ushiftRight,
    BitVec.getLsbD_allOnes]
  grind

theorem getLsbD_genmask_wide {h l i : ℕ} (large : 64 ≤ h) :
    (genmask wide h l).getLsbD i = (decide (l ≤ i) && (wide h).getLsbD i) := by
  rw [genmask, bitsPerLong_eq, if_neg (Nat.not_lt.mpr large)]
  by_cases inside : i < 64
  · simp only [BitVec.getLsbD_and, BitVec.getLsbD_shiftLeft, BitVec.getLsbD_allOnes]
    grind
  · rw [BitVec.getLsbD_of_ge _ _ (Nat.le_of_not_lt inside), BitVec.getLsbD_of_ge _ _
      (Nat.le_of_not_lt inside), Bool.and_false]

theorem BlockStatus.getLsbD_code (status : BlockStatus) {k : ℕ} (large : 3 ≤ k) :
    status.code.getLsbD k = false := by
  have less : status.code.toNat < 2 ^ 3 := by cases status <;> decide
  exact Nat.testBit_lt_two_pow (less.trans_le (Nat.pow_le_pow_right (by decide) large))

theorem BlockStatus.code_and_genmask (status : BlockStatus) :
    status.code &&& genmask wide 2 0 = status.code := by
  refine BitVec.eq_of_getLsbD_eq fun k _ => ?_
  rw [BitVec.getLsbD_and, getLsbD_genmask (by decide)]
  rcases Nat.lt_or_ge k 3 with low | high
  · rw [decide_eq_true (by omega), Bool.and_true]
  · rw [status.getLsbD_code high, Bool.false_and]

/-- The status of a block is three bits of the table. -/
theorem getBlockStatus_bit (known : nanddevBbtGetBlockStatus wide m cache entry = some x) (k : ℕ) :
    x.getLsbD k = (decide (k < 3) && bit cache (entry * 3 + k)) := by
  rw [nanddevBbtGetBlockStatus, bitsPerBlock_eq, bitsPerLong_eq] at known
  dsimp only at known
  split at known
  · cases known
  · rw [← Option.some.inj known, BitVec.getLsbD_and, getLsbD_genmask (by decide), Bool.and_comm]
    by_cases low : k < 3
    · rw [decide_eq_true (show 0 ≤ k ∧ k ≤ 3 - 1 by omega), decide_eq_true low]
      congr 1
      split
      · exact getLsbD_shift_or (by omega)
      · exact getLsbD_shift (by omega)
    · rw [decide_eq_false (by omega), decide_eq_false low, Bool.false_and, Bool.false_and]

theorem exists_getBlockStatus (wide : ℕ → BitVec 64) (cache : BbtCache)
    (known : entry < nanddevNeraseblocks m) :
    ∃ x, nanddevBbtGetBlockStatus wide m cache entry = some x := by
  rw [nanddevBbtGetBlockStatus]
  dsimp only
  rw [if_neg (Nat.not_le.mpr known)]
  exact ⟨_, rfl⟩

theorem getBlockStatus_of_le (out : nanddevNeraseblocks m ≤ entry) :
    nanddevBbtGetBlockStatus wide m cache entry = none := by
  rw [nanddevBbtGetBlockStatus]
  dsimp only
  rw [if_pos out]

theorem exists_setBlockStatus (wide : ℕ → BitVec 64) (cache : BbtCache)
    (known : entry < nanddevNeraseblocks m) (status : BlockStatus) :
    ∃ cache', nanddevBbtSetBlockStatus wide m cache entry status = some cache' := by
  rw [nanddevBbtSetBlockStatus]
  dsimp only
  rw [if_neg (Nat.not_le.mpr known)]
  exact ⟨_, rfl⟩

/-- A write changes the bits of its block only, of which the sticky ones are not cleared before. -/
theorem setBlockStatus_bit
    (written : nanddevBbtSetBlockStatus wide m cache entry status = some cache') (n : ℕ) :
    bit cache' n =
      if entry * 3 ≤ n ∧ n < entry * 3 + 3 then
        status.code.getLsbD (n - entry * 3) ||
          (bit cache n && (sticky wide entry).getLsbD (n - entry * 3))
      else bit cache n := by
  rw [nanddevBbtSetBlockStatus, bitsPerBlock_eq, bitsPerLong_eq] at written
  rw [sticky, bitsPerBlock_eq, bitsPerLong_eq]
  dsimp only at written ⊢
  rw [status.code_and_genmask] at written
  have high {k : ℕ} : 3 ≤ k → status.code.getLsbD k = false := status.getLsbD_code
  generalize entry * 3 = first at written ⊢
  split at written
  · cases written
  rw [← Option.some.inj written]
  split
  next straddles =>
    rw [bit_patch (by decide), bit_patch (by decide)]
    simp only [getLsbD_genmask (show 3 + first % 64 - 64 - 1 < 64 by omega),
      getLsbD_genmask_wide (show 64 ≤ first % 64 + 3 - 1 by omega), BitVec.getLsbD_shiftLeft,
      BitVec.getLsbD_ushiftRight, BitVec.getLsbD_not]
    by_cases next : n / 64 = first / 64 + 1
    · -- the upper bits of the status, at the start of the second word
      rw [if_pos next, if_neg (by omega)]
      have behind : ¬first % 64 + (n - first) < 64 := by omega
      by_cases field : n % 64 < 3 + first % 64 - 64
      · rw [if_pos (by omega), show 3 - (3 + first % 64 - 64) + n % 64 = n - first by omega]
        simp [behind, show n % 64 ≤ 3 + first % 64 - 64 - 1 by omega]
      · rw [if_neg (by omega), high (by omega)]
        simp [show ¬n % 64 ≤ 3 + first % 64 - 64 - 1 by omega]
    · rw [if_neg next]
      by_cases here : n / 64 = first / 64
      · -- the lower bits, at the end of the first one
        rw [if_pos here]
        by_cases field : first % 64 ≤ n % 64
        · rw [if_pos (by omega), show n % 64 - first % 64 = n - first by omega,
            show first % 64 + (n - first) = n % 64 by omega]
          simp [field, Nat.not_lt.mpr field, Nat.mod_lt n (show 0 < 64 by decide), Bool.or_comm]
        · rw [if_neg (by omega)]
          simp [field]
      · rw [if_neg here, if_neg (by omega)]
  next inside =>
    rw [bit_patch (by decide)]
    simp only [getLsbD_genmask (show first % 64 + 3 - 1 < 64 by omega), BitVec.getLsbD_shiftLeft]
    by_cases here : n / 64 = first / 64
    · rw [if_pos here]
      by_cases field : first ≤ n ∧ n < first + 3
      · rw [if_pos field, show n % 64 - first % 64 = n - first by omega]
        simp [show first % 64 ≤ n % 64 by omega, show ¬n % 64 < first % 64 by omega,
          show n % 64 ≤ first % 64 + 2 by omega, Nat.mod_lt n (show 0 < 64 by decide)]
      · rw [if_neg field]
        rcases Nat.lt_or_ge (n % 64) (first % 64) with before | after
        · simp [Nat.not_le.mpr before, before]
        · rw [high (show 3 ≤ n % 64 - first % 64 by omega)]
          simp [show ¬n % 64 ≤ first % 64 + 2 by omega]
    · rw [if_neg here, if_neg (by omega)]

/-- What is read of a block after a write: what was written, with what is sticky of what was there, and
of the other blocks what was there. -/
theorem getBlockStatus_setBlockStatus
    (written : nanddevBbtSetBlockStatus wide m cache entry status = some cache') (entry' : ℕ) :
    nanddevBbtGetBlockStatus wide m cache' entry' =
      if entry' = entry then
        (nanddevBbtGetBlockStatus wide m cache entry).map fun old =>
          status.code ||| old &&& sticky wide entry
      else nanddevBbtGetBlockStatus wide m cache entry' := by
  by_cases known : entry' < nanddevNeraseblocks m
  · obtain ⟨x, reads⟩ := exists_getBlockStatus wide cache known
    obtain ⟨y, reads'⟩ := exists_getBlockStatus wide cache' known
    have before := getBlockStatus_bit reads
    have after := getBlockStatus_bit reads'
    split
    next same =>
      subst same
      rw [reads, reads', Option.map_some]
      congr 1
      refine BitVec.eq_of_getLsbD_eq fun k _ => ?_
      rw [after, setBlockStatus_bit written, BitVec.getLsbD_or, BitVec.getLsbD_and, before]
      by_cases low : k < 3
      · rw [if_pos (by omega), Nat.add_sub_cancel_left, decide_eq_true low, Bool.true_and,
          Bool.true_and]
      · rw [decide_eq_false low, status.getLsbD_code (show 3 ≤ k by omega), Bool.false_and,
          Bool.false_and, Bool.false_and, Bool.false_or]
    next other =>
      rw [reads, reads']
      congr 1
      refine BitVec.eq_of_getLsbD_eq fun k _ => ?_
      rw [after, before]
      by_cases low : k < 3
      · rw [setBlockStatus_bit written, if_neg (by omega)]
      · rw [decide_eq_false low, Bool.false_and, Bool.false_and]
  · have out := Nat.le_of_not_lt known
    rw [getBlockStatus_of_le out, getBlockStatus_of_le out]
    split
    next same =>
      subst same
      rw [getBlockStatus_of_le out, Option.map_none]
    next => rfl

/-- A block that is read exactly as it was written: one with its three bits in one word. -/
theorem sticky_eq_zero (inside : entry % 64 ≠ 21 ∧ entry % 64 ≠ 42) : sticky wide entry = 0 := by
  have short : ∀ r < 64, r ≠ 21 ∧ r ≠ 42 → ¬64 < 3 + r * 3 % 64 := by decide
  rw [sticky, bitsPerBlock_eq, bitsPerLong_eq, show entry * 3 % 64 = entry % 64 * 3 % 64 by omega,
    if_neg (short _ (Nat.mod_lt _ (by decide)) inside)]

/-- The processor clears nothing in the first of the two words of another block. -/
theorem sticky_riscvWide (straddles : entry % 64 = 21 ∨ entry % 64 = 42) :
    (sticky riscvWide entry).getLsbD 0 = true := by
  rw [sticky, bitsPerBlock_eq, bitsPerLong_eq]
  rcases straddles with first | second
  · rw [show entry * 3 % 64 = 63 by omega]
    decide
  · rw [show entry * 3 % 64 = 62 by omega]
    decide

/-- Nothing is written behind the words for the blocks. -/
theorem setBlockStatus_word
    (written : nanddevBbtSetBlockStatus wide m cache entry status = some cache') {i : ℕ}
    (behind : nanddevNeraseblocks m * 3 / 64 < i) : cache' i = cache i := by
  rw [nanddevBbtSetBlockStatus, bitsPerBlock_eq, bitsPerLong_eq] at written
  dsimp only at written
  split at written
  · cases written
  · rw [← Option.some.inj written]
    split
    · rw [patch, patch, Function.update_of_ne (by omega), Function.update_of_ne (by omega)]
    · rw [patch, Function.update_of_ne (by omega)]

end Hss.Nand
