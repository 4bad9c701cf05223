import Hss.Qspi.Cache
import Mathlib.Data.List.GetD

/-! What the loops of the cached QSPI flash do: the map of blocks skips the bad ones, the loop that
fills the cache fetches the blocks it takes, and the loop of a flush writes dirty blocks back. -/

namespace Hss

open BlockStore

/-! ### The map -/

/-- The physical blocks before `n` that are not bad. -/
def goodBlocks (badBlock : ℕ → Bool) (n : ℕ) : List ℕ := (List.range n).filter fun p => !badBlock p

theorem goodBlocks_succ (badBlock : ℕ → Bool) (n : ℕ) :
    goodBlocks badBlock (n + 1) = goodBlocks badBlock n ++ if badBlock n then [] else [n] := by
  rw [goodBlocks, List.range_succ, List.filter_append]
  cases bad : badBlock n <;> simp [goodBlocks, bad]

theorem mem_goodBlocks {badBlock : ℕ → Bool} {n p : ℕ} :
    p ∈ goodBlocks badBlock n ↔ p < n ∧ badBlock p = false := by
  simp [goodBlocks]

theorem goodBlocks_prefix (badBlock : ℕ → Bool) {n m : ℕ} (le : n ≤ m) :
    goodBlocks badBlock n <+: goodBlocks badBlock m := by
  induction le with
  | refl => exact List.prefix_rfl
  | step _ ih =>
    rw [goodBlocks_succ]
    exact ih.trans (List.prefix_append ..)

/-- The loop of `build_bad_block_map_` up to block `n`. -/
theorem foldl_mapBlock (badBlock : ℕ → Bool) (map : ℕ → ℕ) {n total : ℕ} (le : n ≤ total) :
    (List.range n).foldl mapBlock (map, (List.range total).filter badBlock, 0) =
      (fun l => (goodBlocks badBlock n).getD l (map l),
        (List.range' n (total - n)).filter badBlock, (goodBlocks badBlock n).length) := by
  induction n with
  | zero => simp [goodBlocks, List.range_eq_range']
  | succ n ih =>
    have rest : List.range' n (total - n) = n :: List.range' (n + 1) (total - (n + 1)) := by
      rw [show total - n = total - (n + 1) + 1 by omega, List.range'_succ]
    rw [List.range_succ, List.foldl_append, ih (by omega), rest, goodBlocks_succ]
    cases bad : badBlock n with
    | true => simp [mapBlock, bad]
    | false =>
      have other : ((List.range' (n + 1) (total - (n + 1))).filter badBlock).head? ≠ some n := by
        intro first
        have member := List.mem_of_mem_head? first
        have := (List.mem_range'_1.mp (List.mem_of_mem_filter member)).1
        omega
      simp only [List.foldl_cons, List.foldl_nil, mapBlock, List.filter_cons, bad,
        Bool.false_eq_true, if_false, if_neg other, List.length_append, List.length_singleton,
        Prod.mk.injEq, and_true]
      funext l
      rcases Nat.lt_trichotomy l (goodBlocks badBlock n).length with less | rfl | more
      · rw [Function.update_of_ne less.ne, List.getD_append _ _ _ _ less]
      · rw [Function.update_self, List.getD_append_right _ _ _ _ (Nat.le_refl _), Nat.sub_self]
        rfl
      · rw [Function.update_of_ne more.ne', List.getD_append_right _ _ _ _ more.le,
          List.getD_eq_default _ _ more.le, List.getD_eq_default]
        simp only [List.length_singleton]
        omega

/-- The service was initialised: its map leads to the blocks that are not bad. -/
structure Qspi.Built (s : Qspi) : Prop where
  blockSize_pos : 0 < s.blockSize
  blockCount : s.blockCount = (goodBlocks s.badBlock s.desc.blocksPerDie).length
  dieSize : s.dieSize = s.blockSize * s.blockCount
  numBadBlocks : s.numBadBlocks = (flashScanForBadBlocks s).length
  map : s.pLogicalToPhysicalMap =
    fun l => (goodBlocks s.badBlock s.desc.blocksPerDie).getD l 0

/-- The map leads to the blocks that are not bad, as far as there are logical blocks. -/
structure Qspi.Mapped (s : Qspi) : Prop where
  blockSize_pos : 0 < s.blockSize
  blockCount : s.blockCount = (goodBlocks s.badBlock s.desc.blocksPerDie).length
  dieSize : s.dieSize = s.blockSize * s.blockCount
  numBadBlocks : s.numBadBlocks = (flashScanForBadBlocks s).length
  map : ∀ l < s.blockCount,
    s.pLogicalToPhysicalMap l = (goodBlocks s.badBlock s.desc.blocksPerDie).getD l 0

theorem Qspi.Built.mapped {s : Qspi} (built : s.Built) : s.Mapped :=
  ⟨built.blockSize_pos, built.blockCount, built.dieSize, built.numBadBlocks,
    fun l _ => congrFun built.map l⟩

theorem length_goodBlocks (badBlock : ℕ → Bool) (n : ℕ) :
    n - ((List.range n).filter badBlock).length = (goodBlocks badBlock n).length := by
  have sum := List.length_eq_length_filter_add (l := List.range n) badBlock
  rw [List.length_range] at sum
  rw [goodBlocks]
  omega

theorem hssQspiInit_built (desc : FlashDescriptor) (flash : ℕ → BitVec 8) (badBlock : ℕ → Bool)
    (cache : ℕ → BitVec 8) : (hssQspiInit desc flash badBlock cache).Built := by
  refine ⟨?_, ?_, rfl, rfl, ?_⟩
  · refine Nat.mul_pos ?_ desc.pagesPerBlock_pos
    split
    · exact desc.pageSize_pos
    · decide
  · exact length_goodBlocks badBlock desc.blocksPerDie
  · exact congrArg Prod.fst (foldl_mapBlock badBlock (fun _ => 0) (Nat.le_refl desc.blocksPerDie))

namespace Qspi

/-- What the loops do not change. -/
structure SameGeometry (s t : Qspi) : Prop where
  badBlock : t.badBlock = s.badBlock
  desc : t.desc = s.desc
  blockSize : t.blockSize = s.blockSize
  blockCount : t.blockCount = s.blockCount
  dieSize : t.dieSize = s.dieSize
  numBadBlocks : t.numBadBlocks = s.numBadBlocks
  map : t.pLogicalToPhysicalMap = s.pLogicalToPhysicalMap

variable {s t u : Qspi}

theorem SameGeometry.refl (s : Qspi) : SameGeometry s s := ⟨rfl, rfl, rfl, rfl, rfl, rfl, rfl⟩

theorem SameGeometry.trans (h : SameGeometry s t) (h' : SameGeometry t u) : SameGeometry s u :=
  ⟨h'.badBlock.trans h.badBlock, h'.desc.trans h.desc, h'.blockSize.trans h.blockSize,
    h'.blockCount.trans h.blockCount, h'.dieSize.trans h.dieSize,
    h'.numBadBlocks.trans h.numBadBlocks, h'.map.trans h.map⟩

theorem Built.congr (built : s.Built) (same : SameGeometry s t) : t.Built := by
  refine ⟨same.blockSize ▸ built.blockSize_pos, ?_, ?_, ?_, ?_⟩
  · rw [same.blockCount, same.badBlock, same.desc, built.blockCount]
  · rw [same.dieSize, same.blockSize, same.blockCount, built.dieSize]
  · rw [same.numBadBlocks, flashScanForBadBlocks, same.badBlock, same.desc, built.numBadBlocks]
    rfl
  · rw [same.map, same.badBlock, same.desc, built.map]

theorem Mapped.congr (mapped : s.Mapped) (same : SameGeometry s t) : t.Mapped := by
  refine ⟨same.blockSize ▸ mapped.blockSize_pos, ?_, ?_, ?_, ?_⟩
  · rw [same.blockCount, same.badBlock, same.desc, mapped.blockCount]
  · rw [same.dieSize, same.blockSize, same.blockCount, mapped.dieSize]
  · rw [same.numBadBlocks, flashScanForBadBlocks, same.badBlock, same.desc, mapped.numBadBlocks]
    rfl
  · rw [same.map, same.badBlock, same.desc, same.blockCount]
    exact mapped.map

theorem Mapped.good (mapped : s.Mapped) {l : ℕ} (hl : l < s.blockCount) :
    s.badBlock (s.pLogicalToPhysicalMap l) = false := by
  rw [mapped.map l hl]
  rw [mapped.blockCount] at hl
  rw [List.getD_eq_getElem _ _ hl]
  exact (mem_goodBlocks.mp (List.getElem_mem hl)).2

theorem Mapped.buildBadBlockMap (mapped : s.Mapped) : buildBadBlockMap s = s := by
  have le : s.blockCount ≤ s.desc.blocksPerDie := by
    rw [mapped.blockCount, ← length_goodBlocks]
    exact Nat.sub_le ..
  have same : ((List.range s.blockCount).foldl mapBlock
      (s.pLogicalToPhysicalMap, flashScanForBadBlocks s, 0)).1 = s.pLogicalToPhysicalMap := by
    rw [flashScanForBadBlocks, foldl_mapBlock s.badBlock _ le]
    funext l
    obtain ⟨more, all⟩ := goodBlocks_prefix s.badBlock le
    dsimp only
    by_cases hl : l < (goodBlocks s.badBlock s.blockCount).length
    · have counted : l < s.blockCount := by
        rw [mapped.blockCount, ← all, List.length_append]
        exact Nat.lt_add_right _ hl
      rw [mapped.map l counted, List.getD_eq_getElem _ _ hl, ← all, List.getD_append _ _ _ _ hl,
        List.getD_eq_getElem _ _ hl]
    · rw [List.getD_eq_default _ _ (Nat.le_of_not_lt hl)]
  rw [Hss.buildBadBlockMap, same, ← mapped.numBadBlocks]

theorem Mapped.logicalToPhysicalBlock (mapped : s.Mapped) (l : ℕ) :
    logicalToPhysicalBlock l s = (s, s.pLogicalToPhysicalMap l) := by
  rw [Hss.logicalToPhysicalBlock]
  split
  · rw [mapped.buildBadBlockMap]
  · rfl

/-! ### Fetching blocks -/

/-- The blocks that a call of `demandCopyFlashBlocksToCache_` takes. -/
def fetched (s : Qspi) (byteOffset byteCount : ℕ) : List ℕ :=
  (strides s.blockSize byteOffset byteCount).map fun offset =>
    s.pLogicalToPhysicalMap (columnToBlock s offset)

/-- The blocks `blocks` were fetched: those that were not in the cache were read from the flash. -/
structure Fetched (blocks : List ℕ) (markDirty : Bool) (s t : Qspi) : Prop where
  geometry : SameGeometry s t
  flash : t.flash = s.flash
  cacheDirtyFlag : t.cacheDirtyFlag = s.cacheDirtyFlag
  cache : ∀ a, t.pCacheDataBuffer a =
    if s.inCache (a / s.blockSize) = false ∧ a / s.blockSize ∈ blocks then s.flash a
    else s.pCacheDataBuffer a
  inCache : ∀ p, t.inCache p = (s.inCache p || decide (p ∈ blocks))
  dirty : ∀ p, t.dirty p = (s.dirty p || markDirty && decide (p ∈ blocks))

theorem Fetched.nil (markDirty : Bool) (s : Qspi) : Fetched [] markDirty s s :=
  ⟨.refl s, rfl, rfl, by simp, by simp, by simp⟩

theorem Fetched.trans {blocks blocks' : List ℕ} {markDirty : Bool}
    (h : Fetched blocks markDirty s t) (h' : Fetched blocks' markDirty t u) :
    Fetched (blocks ++ blocks') markDirty s u where
  geometry := h.geometry.trans h'.geometry
  flash := h'.flash.trans h.flash
  cacheDirtyFlag := h'.cacheDirtyFlag.trans h.cacheDirtyFlag
  cache a := by
    rw [h'.cache, h.inCache, h.cache, h.flash, h.geometry.blockSize]
    by_cases before : s.inCache (a / s.blockSize) = true <;>
      by_cases first : a / s.blockSize ∈ blocks <;> simp [before, first]
  inCache p := by
    rw [h'.inCache, h.inCache]
    simp [Bool.or_assoc]
  dirty p := by
    rw [h'.dirty, h.dirty]
    cases markDirty <;> simp [Bool.or_assoc]

theorem setDesc_inCache (p q : ℕ) (desc : QspiCacheDescriptor) :
    (s.setDesc p desc).inCache q = if q = p then desc.inCache else s.inCache q := by
  by_cases same : q = p
  · subst same
    simp [inCache, setDesc]
  · simp [inCache, setDesc, same]

theorem setDesc_dirty (p q : ℕ) (desc : QspiCacheDescriptor) :
    (s.setDesc p desc).dirty q = if q = p then desc.dirtyCache else s.dirty q := by
  by_cases same : q = p
  · subst same
    simp [dirty, setDesc]
  · simp [dirty, setDesc, same]

@[simp] theorem setDirty_inCache (p : ℕ) (dirtyCache : Bool) :
    (s.setDirty p dirtyCache).inCache = s.inCache := by
  funext q
  rw [setDirty, setDesc_inCache]
  split
  · next same => rw [same, inCache]
  · rfl

@[simp] theorem setDirty_dirty (p q : ℕ) (dirtyCache : Bool) :
    (s.setDirty p dirtyCache).dirty q = if q = p then dirtyCache else s.dirty q :=
  setDesc_dirty ..

theorem Mapped.fetchBlock (mapped : s.Mapped) (p : ℕ) : Fetched [p] false s (fetchBlock p s) := by
  rw [Hss.fetchBlock]
  by_cases present : s.inCache p = true
  · rw [if_pos present]
    refine ⟨.refl s, rfl, rfl, fun a => ?_, fun q => ?_, by simp⟩
    · rw [if_neg]
      rintro ⟨absent, same⟩
      rw [List.mem_singleton.mp same, present] at absent
      cases absent
    · by_cases same : q = p <;> simp [same, present]
  · rw [if_neg present]
    refine ⟨⟨rfl, rfl, rfl, rfl, rfl, rfl, rfl⟩, rfl, rfl, fun a => ?_, fun q => ?_, fun q => ?_⟩
    · change flashRead s s.pCacheDataBuffer (p * s.blockSize) (p * s.blockSize) s.blockSize a = _
      rw [flashRead, copyRange_block mapped.blockSize_pos]
      by_cases inside : a / s.blockSize = p <;> simp [inside, present]
    · rw [setDesc_inCache]
      by_cases same : q = p <;> simp [same, inCache]
    · rw [setDesc_dirty]
      by_cases same : q = p <;> simp [same, dirty]

theorem Fetched.setDirty {p : ℕ} (h : Fetched [p] false s t) :
    Fetched [p] true s (t.setDirty p true) where
  geometry := h.geometry.trans ⟨rfl, rfl, rfl, rfl, rfl, rfl, rfl⟩
  flash := h.flash
  cacheDirtyFlag := h.cacheDirtyFlag
  cache := h.cache
  inCache q := by rw [setDirty_inCache, h.inCache]
  dirty q := by
    rw [setDirty_dirty, h.dirty]
    by_cases same : q = p <;> simp [same]

theorem Mapped.demandCopyBlock (mapped : s.Mapped) (markDirty : Bool) (offset : ℕ) :
    Fetched [s.pLogicalToPhysicalMap (columnToBlock s offset)] markDirty s
      (demandCopyBlock markDirty s offset) := by
  rw [Hss.demandCopyBlock, mapped.logicalToPhysicalBlock]
  cases markDirty with
  | false => exact mapped.fetchBlock _
  | true => exact (mapped.fetchBlock _).setDirty

theorem Mapped.demandCopyFlashBlocksToCache (mapped : s.Mapped) (byteOffset byteCount : ℕ)
    (markDirty : Bool) : Fetched (s.fetched byteOffset byteCount) markDirty s
      (demandCopyFlashBlocksToCache byteOffset byteCount markDirty s) := by
  rw [Hss.demandCopyFlashBlocksToCache, fetched]
  generalize strides s.blockSize byteOffset byteCount = offsets
  induction offsets generalizing s with
  | nil => exact .nil markDirty s
  | cons offset offsets ih =>
    have first := mapped.demandCopyBlock markDirty offset
    have rest := ih (mapped.congr first.geometry)
    have same : ∀ o, (Hss.demandCopyBlock markDirty s offset).pLogicalToPhysicalMap
        (columnToBlock (Hss.demandCopyBlock markDirty s offset) o) =
        s.pLogicalToPhysicalMap (columnToBlock s o) := fun o => by
      rw [first.geometry.map, columnToBlock, columnToBlock, first.geometry.blockSize]
    simp only [same] at rest
    exact first.trans rest

/-! ### Writing blocks back -/

/-- Each block is as it was, or it was in the cache and dirty and is written back. -/
structure WrittenBack (s t : Qspi) : Prop where
  geometry : SameGeometry s t
  cache : t.pCacheDataBuffer = s.pCacheDataBuffer
  inCache : t.inCache = s.inCache
  block : ∀ p, (t.dirty p = s.dirty p ∧ ∀ a, a / s.blockSize = p → t.flash a = s.flash a) ∨
    (s.inCache p = true ∧ s.dirty p = true ∧ t.dirty p = false ∧
      ∀ a, a / s.blockSize = p → t.flash a = s.pCacheDataBuffer a)

theorem WrittenBack.refl (s : Qspi) : WrittenBack s s :=
  ⟨.refl s, rfl, rfl, fun _ => .inl ⟨rfl, fun _ _ => rfl⟩⟩

theorem WrittenBack.trans (h : WrittenBack s t) (h' : WrittenBack t u) : WrittenBack s u where
  geometry := h.geometry.trans h'.geometry
  cache := h'.cache.trans h.cache
  inCache := h'.inCache.trans h.inCache
  block p := by
    have size := h.geometry.blockSize
    rcases h.block p with ⟨dirty, flash⟩ | ⟨inCache, dirty, clean, flash⟩ <;>
      rcases h'.block p with ⟨dirty', flash'⟩ | ⟨inCache', dirty', clean', flash'⟩
    · exact .inl ⟨dirty'.trans dirty, fun a ha => (flash' a (size ▸ ha)).trans (flash a ha)⟩
    · refine .inr ⟨h.inCache ▸ inCache', dirty ▸ dirty', clean', fun a ha => ?_⟩
      rw [flash' a (size ▸ ha), h.cache]
    · exact .inr ⟨inCache, dirty, dirty'.trans clean, fun a ha =>
        (flash' a (size ▸ ha)).trans (flash a ha)⟩
    · rw [clean] at dirty'
      cases dirty'

theorem Mapped.writeBack (mapped : s.Mapped) {p : ℕ} (present : s.inCache p = true)
    (dirty : s.dirty p = true) (good : s.badBlock p = false) :
    let erased := (flashEraseBlock p s).1
    (flashEraseBlock p s).2 = false ∧
      WrittenBack s ((flashProgram erased.pCacheDataBuffer (p * erased.blockSize) erased.blockSize
        erased).setDirty p false) := by
  have clear : flashEraseBlock p s = ({ s with
      flash := copyRange s.flash (fun _ => 0xFF) (p * s.blockSize) 0 s.blockSize }, false) := by
    rw [flashEraseBlock, good]
    rfl
  intro erased
  refine ⟨congrArg Prod.snd clear, ?_⟩
  simp only [erased, clear]
  refine ⟨⟨rfl, rfl, rfl, rfl, rfl, rfl, rfl⟩, rfl, by rw [setDirty_inCache]; rfl, fun q => ?_⟩
  have flash : ∀ a, (flashProgram s.pCacheDataBuffer (p * s.blockSize) s.blockSize { s with
      flash := copyRange s.flash (fun _ => 0xFF) (p * s.blockSize) 0 s.blockSize }).flash a =
      if a / s.blockSize = p then s.pCacheDataBuffer a else s.flash a := by
    intro a
    rw [flashProgram]
    dsimp only
    rw [copyRange_block mapped.blockSize_pos]
    by_cases inside : a / s.blockSize = p
    · obtain ⟨low, high⟩ := (block_iff mapped.blockSize_pos).mpr inside
      rw [if_pos inside, if_pos inside, copyRange_of_mem low high]
      exact BitVec.allOnes_and
    · rw [if_neg inside, if_neg inside,
        copyRange_of_notMem fun h => inside ((block_iff mapped.blockSize_pos).mp h)]
  by_cases same : q = p
  · subst same
    refine .inr ⟨present, dirty, by simp, fun a ha => ?_⟩
    exact (flash a).trans (if_pos ha)
  · refine .inl ⟨?_, fun a ha => ?_⟩
    · rw [setDirty_dirty, if_neg same]
      rfl
    · exact (flash a).trans (if_neg fun inside => same (ha.symm.trans inside))

/-- One turn of the loop of a flush: nothing happens, or the block is written back and counted off. -/
theorem Mapped.copyBlockToFlash_cases (mapped : s.Mapped) {offset : ℕ} (inside : offset < s.dieSize)
    (dirtyBlockCount : ℕ) (left : Bool) :
    let p := s.pLogicalToPhysicalMap (columnToBlock s offset)
    (copyBlockToFlash (s, dirtyBlockCount, left) offset = (s, dirtyBlockCount, left) ∧
        (left = false → dirtyBlockCount = 0 ∨ s.inCache p = false ∨ s.dirty p = false)) ∨
      (left = false ∧ dirtyBlockCount ≠ 0 ∧ s.dirty p = true ∧ ∃ t, WrittenBack s t ∧
        (∀ q, t.dirty q = if q = p then false else s.dirty q) ∧
        copyBlockToFlash (s, dirtyBlockCount, left) offset = (t, dirtyBlockCount - 1, false)) := by
  intro p
  have block : columnToBlock s offset < s.blockCount := by
    rw [mapped.dieSize] at inside
    exact Nat.div_lt_of_lt_mul inside
  rw [copyBlockToFlash]
  by_cases stop : (left || decide (dirtyBlockCount = 0)) = true
  · rw [if_pos stop]
    refine .inl ⟨rfl, fun runs => ?_⟩
    subst runs
    exact .inl (by simpa using stop)
  · rw [if_neg stop, mapped.logicalToPhysicalBlock]
    simp only [Bool.or_eq_true, decide_eq_true_eq, not_or, Bool.not_eq_true] at stop
    obtain ⟨rfl, count⟩ := stop
    change (_ ∧ _) ∨ _
    by_cases flush : (s.inCache p && s.dirty p) = true
    · obtain ⟨present, dirty⟩ := Bool.and_eq_true_iff.mp flush
      obtain ⟨erases, back⟩ := mapped.writeBack present dirty (mapped.good block)
      refine .inr ⟨rfl, count, dirty, _, back, fun q => ?_, ?_⟩
      · rw [setDirty_dirty]
        split
        · rfl
        · rw [show (flashProgram (flashEraseBlock p s).1.pCacheDataBuffer
            (p * (flashEraseBlock p s).1.blockSize) (flashEraseBlock p s).1.blockSize
              (flashEraseBlock p s).1).dirty = (flashEraseBlock p s).1.dirty from rfl,
            flashEraseBlock]
          split <;> rfl
      · dsimp only
        rw [if_pos flush, erases]
        rfl
    · refine .inl ⟨?_, fun _ => .inr ?_⟩
      · dsimp only
        rw [if_neg flush]
      · cases present : s.inCache p with
        | false => exact .inl rfl
        | true => exact .inr (by simpa [present] using flush)

theorem Mapped.copyCacheToFlashBlocks (mapped : s.Mapped) :
    WrittenBack s (copyCacheToFlashBlocks 0 s.dieSize s) := by
  rw [Hss.copyCacheToFlashBlocks]
  have loop : ∀ (offsets : List ℕ) (state : Qspi × ℕ × Bool), (∀ o ∈ offsets, o < s.dieSize) →
      WrittenBack s state.1 → WrittenBack s (offsets.foldl copyBlockToFlash state).1 := by
    intro offsets
    induction offsets with
    | nil => exact fun _ _ back => back
    | cons offset offsets ih =>
      rintro ⟨t, count, left⟩ inside back
      rw [List.foldl_cons]
      refine ih _ (fun o ho => inside o (List.mem_cons_of_mem _ ho)) ?_
      have here : offset < t.dieSize := by
        rw [back.geometry.dieSize]
        exact inside offset (List.mem_cons_self ..)
      rcases (mapped.congr back.geometry).copyBlockToFlash_cases here count left with
        ⟨same, -⟩ | ⟨-, -, -, u, step, -, done⟩
      · rw [same]
        exact back
      · rw [done]
        exact back.trans step
  refine loop _ _ (fun o ho => ?_) (.refl s)
  have := (strides_lt mapped.blockSize_pos ho).2
  omega

theorem Mapped.hssCachedQspiFlushWriteBuffer (mapped : s.Mapped) :
    WrittenBack s (hssCachedQspiFlushWriteBuffer s) := by
  rw [Hss.hssCachedQspiFlushWriteBuffer]
  split
  · have back := mapped.copyCacheToFlashBlocks
    exact ⟨back.geometry.trans ⟨rfl, rfl, rfl, rfl, rfl, rfl, rfl⟩, back.cache, back.inCache,
      back.block⟩
  · exact .refl s

end Qspi

end Hss
