import Hss.Qspi.Coherence

/-! The erasure of the whole QSPI flash: which blocks its loop reaches. -/

namespace Hss

open BlockStore

/-- `HSS_QSPI_FlashChipErase`, of a flash that is erased by blocks. -/
def hssQspiFlashChipErase (s : Qspi) : Qspi :=
  (List.range s.blockCount).foldl (fun s blockIndex => (flashEraseBlock blockIndex s).1) s

/-- The bytes of the physical block `p` after an erasure. -/
def Qspi.ErasedBlock (s : Qspi) (p : ℕ) : Prop := ∀ a, a / s.blockSize = p → s.flash a = 0xFF

namespace Qspi

variable {s t : Qspi}

/-- An erasure of a block changes nothing but the bytes of the block, and nothing if the block is
bad. -/
theorem flashEraseBlock_flash (positive : 0 < s.blockSize) (p a : ℕ) :
    (flashEraseBlock p s).1.flash a =
      if a / s.blockSize = p ∧ s.badBlock p = false then 0xFF else s.flash a := by
  rw [flashEraseBlock]
  cases bad : s.badBlock p with
  | true => simp
  | false =>
    show copyRange s.flash (fun _ => 0xFF) (p * s.blockSize) 0 s.blockSize a = _
    by_cases inside : a / s.blockSize = p
    · obtain ⟨low, high⟩ := (block_iff positive).mpr inside
      rw [copyRange_of_mem low high, if_pos ⟨inside, rfl⟩]
    · rw [copyRange_of_notMem fun h => inside ((block_iff positive).mp h),
        if_neg fun h => inside h.1]

theorem flashEraseBlock_geometry (p : ℕ) : SameGeometry s (flashEraseBlock p s).1 := by
  rw [flashEraseBlock]
  split
  · exact .refl s
  · exact ⟨rfl, rfl, rfl, rfl, rfl, rfl, rfl⟩

/-- The loop over the first `n` blocks. -/
theorem eraseLoop (positive : 0 < s.blockSize) (n : ℕ) :
    SameGeometry s ((List.range n).foldl (fun s p => (flashEraseBlock p s).1) s) ∧
      ∀ a, ((List.range n).foldl (fun s p => (flashEraseBlock p s).1) s).flash a =
        if a / s.blockSize < n ∧ s.badBlock (a / s.blockSize) = false then 0xFF else s.flash a := by
  induction n with
  | zero => exact ⟨.refl s, fun a => by simp⟩
  | succ n ih =>
    obtain ⟨geometry, flash⟩ := ih
    rw [List.range_succ, List.foldl_append, List.foldl_cons, List.foldl_nil]
    refine ⟨geometry.trans (flashEraseBlock_geometry n), fun a => ?_⟩
    rw [flashEraseBlock_flash (geometry.blockSize ▸ positive), geometry.blockSize,
      geometry.badBlock, flash]
    by_cases here : a / s.blockSize = n
    · simp [here]
    · have before : a / s.blockSize < n + 1 ↔ a / s.blockSize < n := by omega
      simp [here, before]

theorem hssQspiFlashChipErase_flash (positive : 0 < s.blockSize) (a : ℕ) :
    (hssQspiFlashChipErase s).flash a =
      if a / s.blockSize < s.blockCount ∧ s.badBlock (a / s.blockSize) = false then 0xFF
      else s.flash a :=
  (eraseLoop positive s.blockCount).2 a

theorem hssQspiFlashChipErase_geometry (positive : 0 < s.blockSize) :
    SameGeometry s (hssQspiFlashChipErase s) :=
  (eraseLoop positive s.blockCount).1

/-- Every block of the flash that is not bad is erased, and no other byte changes. -/
structure ErasedAll (s t : Qspi) : Prop where
  good : ∀ p < s.desc.blocksPerDie, s.badBlock p = false → t.ErasedBlock p
  bad : ∀ a, s.badBlock (a / s.blockSize) = true → t.flash a = s.flash a
  outside : ∀ a, s.desc.blocksPerDie ≤ a / s.blockSize → t.flash a = s.flash a

theorem Built.blockCount_eq (built : s.Built) :
    s.blockCount = s.desc.blocksPerDie - (flashScanForBadBlocks s).length := by
  rw [built.blockCount, ← length_goodBlocks]
  rfl

/-- On a flash of zeros it shows which blocks are erased. -/
theorem ErasedAll.inLoop (built : s.Built) (zeros : ∀ a, s.flash a = 0)
    (erased : ErasedAll s (hssQspiFlashChipErase s)) {p : ℕ} (inDie : p < s.desc.blocksPerDie)
    (good : s.badBlock p = false) : p < s.blockCount := by
  by_contra past
  have here : p * s.blockSize / s.blockSize = p := Nat.mul_div_cancel p built.blockSize_pos
  have ones := erased.good p inDie good (p * s.blockSize) (by
    rw [(hssQspiFlashChipErase_geometry built.blockSize_pos).blockSize]
    exact here)
  rw [hssQspiFlashChipErase_flash built.blockSize_pos, if_neg (by rw [here]; exact fun h => past h.1),
    zeros] at ones
  cases ones

end Qspi

/-- The bad blocks are the last ones: each good block has a number below that of the good blocks. -/
def BadBlocksLast (badBlock : ℕ → Bool) (n : ℕ) : Prop :=
  ∀ p < n, badBlock p = false → p < n - ((List.range n).filter badBlock).length

instance (badBlock : ℕ → Bool) (n : ℕ) : Decidable (BadBlocksLast badBlock n) :=
  inferInstanceAs (Decidable (∀ p < n, _ → _))

open Qspi

/-- The erasure of the flash erases every good block and no bad one, whatever the flash holds, exactly
when the bad blocks are the last ones. -/
theorem hssQspiFlashChipErase_iff (desc : FlashDescriptor) (badBlock : ℕ → Bool) :
    (∀ s : Qspi, s.Built → s.desc = desc → s.badBlock = badBlock →
      ErasedAll s (hssQspiFlashChipErase s)) ↔ BadBlocksLast badBlock desc.blocksPerDie := by
  constructor
  · intro erases p inDie good
    have built := hssQspiInit_built desc (fun _ => 0) badBlock fun _ => 0
    have inLoop := (erases _ built rfl rfl).inLoop built (fun _ => rfl) inDie good
    rw [built.blockCount_eq] at inLoop
    exact inLoop
  · rintro last s built rfl rfl
    have size := (hssQspiFlashChipErase_geometry built.blockSize_pos).blockSize
    refine ⟨fun p inDie good a here => ?_, fun a bad => ?_, fun a past => ?_⟩
    · rw [size] at here
      subst here
      rw [hssQspiFlashChipErase_flash built.blockSize_pos, if_pos]
      rw [built.blockCount_eq]
      exact ⟨last _ inDie good, good⟩
    · rw [hssQspiFlashChipErase_flash built.blockSize_pos, if_neg (by simp [bad])]
    · rw [hssQspiFlashChipErase_flash built.blockSize_pos, if_neg]
      rintro ⟨inside, -⟩
      rw [built.blockCount_eq] at inside
      omega

/-- Where block 0 is bad, the last block is not erased. -/
theorem hssQspiFlashChipErase_not_erasedAll : ¬ ∀ s : Qspi, s.Built →
    ErasedAll s (hssQspiFlashChipErase s) := by
  intro erases
  have built := hssQspiInit_built winbondW25n01gv (fun _ => 0) (· = 0) fun _ => 0
  have inLoop := (erases _ built).inLoop built (fun _ => rfl) (p := 1023) (by decide) (by decide)
  exact absurd inLoop (by decide +kernel)

end Hss
