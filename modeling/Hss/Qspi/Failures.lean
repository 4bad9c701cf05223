import Hss.Qspi.Durability

/-! Flushes of the cached QSPI flash in which erasures and programs fail. -/

namespace Hss

open BlockStore Runs

/-! ### A flush with failures -/

/-- Which erasures and programs fail in a flush, by their blocks, and what a failure leaves in its
block. -/
structure FlashFaults where
  eraseFails : ℕ → Bool
  programFails : ℕ → Bool
  remains : ℕ → BitVec 8

/-- The messages "Error erasing block" and "Error programming block". -/
inductive FlushReport
  | erasing (block : ℕ)
  | programming (block : ℕ)
  deriving DecidableEq, Repr

/-- A flush under way: the state, the number of dirty blocks that are left, whether the loop was left,
the messages, and the blocks that failed and those that were written. -/
structure Flush where
  qspi : Qspi
  dirtyBlockCount : ℕ
  left : Bool
  reports : List FlushReport
  failed : List ℕ
  written : List ℕ

namespace FlashFaults

variable (faults : FlashFaults)

/-- What a failure leaves in the block `p`. -/
def spoilBlock (p : ℕ) (s : Qspi) : Qspi :=
  { s with flash := copyRange s.flash faults.remains (p * s.blockSize) (p * s.blockSize) s.blockSize }

/-- `Flash_erase_block`: the state, and whether the status shows a failure. -/
def eraseBlock (p : ℕ) (s : Qspi) : Qspi × Bool :=
  if faults.eraseFails p then (faults.spoilBlock p s, true) else flashEraseBlock p s

/-- `Flash_program` of the block `p` from the cache -/
def programBlock (p : ℕ) (s : Qspi) : Qspi × Bool :=
  if faults.programFails p then (faults.spoilBlock p s, true)
  else (flashProgram s.pCacheDataBuffer (p * s.blockSize) s.blockSize s, false)

/-- One turn of the loop of `copyCacheToFlashBlocks_`. -/
def copyBlockToFlash (f : Flush) (offset : ℕ) : Flush :=
  if f.left || f.dirtyBlockCount = 0 then f
  else
    let (s, p) := logicalToPhysicalBlock (columnToBlock f.qspi offset) f.qspi
    if s.inCache p && s.dirty p then
      let (s, status) := faults.eraseBlock p s
      if status then
        { f with qspi := s, left := true, reports := f.reports ++ [.erasing p], failed := f.failed ++ [p] }
      else
        let (s, status) := faults.programBlock p s
        let f := if status then
            { f with reports := f.reports ++ [.programming p], failed := f.failed ++ [p] }
          else { f with written := f.written ++ [p] }
        { f with qspi := s.setDirty p false, dirtyBlockCount := f.dirtyBlockCount - 1 }
    else { f with qspi := s }

/-- `copyCacheToFlashBlocks_` -/
def copyCacheToFlashBlocks (byteOffset byteCount : ℕ) (s : Qspi) : Flush :=
  (strides s.blockSize byteOffset byteCount).foldl faults.copyBlockToFlash
    ⟨s, s.dirtyBlockCount, false, [], [], []⟩

/-- `HSS_CachedQSPI_FlushWriteBuffer` -/
def flushWriteBuffer (s : Qspi) : Flush :=
  if s.cacheDirtyFlag then
    let f := faults.copyCacheToFlashBlocks 0 s.dieSize s
    { f with qspi := { f.qspi with cacheDirtyFlag := false } }
  else ⟨s, 0, false, [], [], []⟩

end FlashFaults

/-- No erasure and no program fails. -/
def noFaults : FlashFaults := ⟨fun _ => false, fun _ => false, fun _ => 0⟩

theorem noFaults_eraseBlock (p : ℕ) (s : Qspi) :
    noFaults.eraseBlock p s = flashEraseBlock p s := rfl

theorem noFaults_copyBlockToFlash (f : Flush) (offset : ℕ) :
    copyBlockToFlash (f.qspi, f.dirtyBlockCount, f.left) offset =
      ((noFaults.copyBlockToFlash f offset).qspi, (noFaults.copyBlockToFlash f offset).dirtyBlockCount,
        (noFaults.copyBlockToFlash f offset).left) := by
  obtain ⟨s, count, left, reports, failed, written⟩ := f
  unfold FlashFaults.copyBlockToFlash copyBlockToFlash
  dsimp only
  split
  · rfl
  next going =>
  have runs : left = false := by
    cases left with
    | false => rfl
    | true => exact absurd rfl going
  generalize logicalToPhysicalBlock (columnToBlock s offset) s = result
  obtain ⟨s', p⟩ := result
  dsimp only
  split
  · rw [noFaults_eraseBlock]
    generalize flashEraseBlock p s' = result
    obtain ⟨s'', status⟩ := result
    cases status with
    | true => rfl
    | false => subst runs; rfl
  · rw [runs]

/-- Without failures a flush is the one of the cached flash. -/
theorem noFaults_flushWriteBuffer (s : Qspi) :
    (noFaults.flushWriteBuffer s).qspi = hssCachedQspiFlushWriteBuffer s := by
  have loop : ∀ (offsets : List ℕ) (f : Flush),
      (offsets.foldl copyBlockToFlash (f.qspi, f.dirtyBlockCount, f.left)).1 =
        (offsets.foldl noFaults.copyBlockToFlash f).qspi := by
    intro offsets
    induction offsets with
    | nil => exact fun f => rfl
    | cons offset offsets ih =>
      intro f
      rw [List.foldl_cons, List.foldl_cons, noFaults_copyBlockToFlash]
      exact ih _
  unfold FlashFaults.flushWriteBuffer hssCachedQspiFlushWriteBuffer
  split
  · have same := loop (strides s.blockSize 0 s.dieSize) ⟨s, s.dirtyBlockCount, false, [], [], []⟩
    exact congrArg (fun s : Qspi => { s with cacheDirtyFlag := false }) same.symm
  · rfl

/-! ### One block -/

/-- The block is in the cache and dirty. -/
def Qspi.pending (s : Qspi) (p : ℕ) : Bool := s.inCache p && s.dirty p

/-- Neither the erasure nor the program of the block fails. -/
def FlashFaults.Spares (faults : FlashFaults) (p : ℕ) : Prop :=
  faults.eraseFails p = false ∧ faults.programFails p = false

instance (faults : FlashFaults) (p : ℕ) : Decidable (faults.Spares p) :=
  inferInstanceAs (Decidable (_ ∧ _))

open Qspi

variable {s t : Qspi} {faults : FlashFaults} {f f' : Flush} {p : ℕ}

/-- The block `p` is clean in `t`, and nothing else differs from `s` but the flash. -/
structure Cleaned (p : ℕ) (s t : Qspi) : Prop where
  geometry : SameGeometry s t
  inCache : t.inCache = s.inCache
  dirty : ∀ q, t.dirty q = if q = p then false else s.dirty q

/-- What a turn of the loop comes to for the block `p`. -/
inductive TurnFlushed (faults : FlashFaults) (p : ℕ) (f : Flush) : Flush → Prop
  | skipped (reason : f.left = true ∨ f.dirtyBlockCount = 0 ∨ f.qspi.pending p = false) :
      TurnFlushed faults p f f
  | notErased {t : Qspi} (pending : f.qspi.pending p = true) (counted : f.dirtyBlockCount ≠ 0)
      (fails : ¬ faults.Spares p) (geometry : SameGeometry f.qspi t)
      (dirty : t.dirty = f.qspi.dirty) :
      TurnFlushed faults p f { f with
        qspi := t, left := true, reports := f.reports ++ [.erasing p], failed := f.failed ++ [p] }
  | notProgrammed {t : Qspi} (pending : f.qspi.pending p = true) (counted : f.dirtyBlockCount ≠ 0)
      (fails : ¬ faults.Spares p) (cleaned : Cleaned p f.qspi t) :
      TurnFlushed faults p f { f with
        qspi := t, dirtyBlockCount := f.dirtyBlockCount - 1
        reports := f.reports ++ [.programming p], failed := f.failed ++ [p] }
  | written {t : Qspi} (going : f.left = false) (pending : f.qspi.pending p = true)
      (counted : f.dirtyBlockCount ≠ 0) (spares : faults.Spares p) (cleaned : Cleaned p f.qspi t) :
      TurnFlushed faults p f { f with
        qspi := t, dirtyBlockCount := f.dirtyBlockCount - 1, written := f.written ++ [p] }

theorem flashEraseBlock_good (good : s.badBlock p = false) :
    (flashEraseBlock p s).2 = false ∧ SameGeometry s (flashEraseBlock p s).1 ∧
      (flashEraseBlock p s).1.pLogicalBlockDesc = s.pLogicalBlockDesc := by
  rw [flashEraseBlock, good]
  exact ⟨rfl, ⟨rfl, rfl, rfl, rfl, rfl, rfl, rfl⟩, rfl⟩

theorem cleaned_setDirty (same : SameGeometry s t)
    (desc : t.pLogicalBlockDesc = s.pLogicalBlockDesc) : Cleaned p s (t.setDirty p false) := by
  refine ⟨same.trans ⟨rfl, rfl, rfl, rfl, rfl, rfl, rfl⟩, ?_, fun q => ?_⟩
  · rw [setDirty_inCache]
    exact funext fun q => by rw [Qspi.inCache, Qspi.inCache, desc]
  · rw [setDirty_dirty, Qspi.dirty, Qspi.dirty, desc]

/-- One turn of the loop. -/
theorem turn_flushed (faults : FlashFaults) (built : f.qspi.Built) {offset : ℕ}
    (inside : offset < f.qspi.dieSize) :
    TurnFlushed faults (f.qspi.pLogicalToPhysicalMap (columnToBlock f.qspi offset)) f
      (faults.copyBlockToFlash f offset) := by
  have block : columnToBlock f.qspi offset < f.qspi.blockCount := by
    rw [built.dieSize] at inside
    exact Nat.div_lt_of_lt_mul inside
  have good := built.mapped.good block
  obtain ⟨s, count, left, reports, failed, written⟩ := f
  unfold FlashFaults.copyBlockToFlash
  dsimp only at built good ⊢
  rw [built.mapped.logicalToPhysicalBlock]
  dsimp only
  generalize s.pLogicalToPhysicalMap (columnToBlock s offset) = p at good
  split
  · next stop =>
    refine .skipped ?_
    rw [Bool.or_eq_true, decide_eq_true_eq] at stop
    exact stop.imp_right .inl
  next going =>
  rw [Bool.or_eq_true, decide_eq_true_eq, not_or] at going
  obtain ⟨runs, counted⟩ := going
  split
  · next pending =>
    unfold FlashFaults.eraseBlock
    cases erase : faults.eraseFails p with
    | true =>
      rw [if_pos rfl]
      exact .notErased pending counted (fun spares => by simp [spares.1] at erase)
        ⟨rfl, rfl, rfl, rfl, rfl, rfl, rfl⟩ rfl
    | false =>
      obtain ⟨status, geometry, desc⟩ := flashEraseBlock_good good
      rw [if_neg Bool.false_ne_true, status]
      unfold FlashFaults.programBlock
      cases program : faults.programFails p with
      | true =>
        refine .notProgrammed pending counted (fun spares => by simp [spares.2] at program) ?_
        exact cleaned_setDirty (geometry.trans ⟨rfl, rfl, rfl, rfl, rfl, rfl, rfl⟩) desc
      | false =>
        refine .written (Bool.eq_false_iff.mpr runs) pending counted ⟨erase, program⟩ ?_
        exact cleaned_setDirty (geometry.trans ⟨rfl, rfl, rfl, rfl, rfl, rfl, rfl⟩) desc
  · next notPending =>
    exact .skipped (.inr (.inr (Bool.eq_false_iff.mpr notPending)))

/-! ### The loop -/

/-- Turns of the loop, one for each of the blocks. -/
inductive TurnsFlushed (faults : FlashFaults) : List ℕ → Flush → Flush → Prop
  | nil {f : Flush} : TurnsFlushed faults [] f f
  | cons {p : ℕ} {ps : List ℕ} {f f' f'' : Flush} (first : TurnFlushed faults p f f')
      (rest : TurnsFlushed faults ps f' f'') : TurnsFlushed faults (p :: ps) f f''

theorem TurnFlushed.geometry (turn : TurnFlushed faults p f f') : SameGeometry f.qspi f'.qspi := by
  cases turn with
  | skipped => exact .refl _
  | notErased _ _ _ geometry => exact geometry
  | notProgrammed _ _ _ cleaned | written _ _ _ _ cleaned => exact cleaned.geometry

theorem TurnFlushed.failed (turn : TurnFlushed faults p f f') : f.failed <+: f'.failed := by
  cases turn with
  | skipped | written => exact List.prefix_rfl
  | notErased | notProgrammed => exact List.prefix_append ..

theorem turns_flushed (built : f.qspi.Built) {blocks : List ℕ}
    (inside : ∀ l ∈ blocks, l < f.qspi.blockCount) :
    TurnsFlushed faults (blocks.map f.qspi.pLogicalToPhysicalMap) f
      ((blocks.map (· * f.qspi.blockSize)).foldl faults.copyBlockToFlash f) := by
  induction blocks generalizing f with
  | nil => exact .nil
  | cons l blocks ih =>
    have positive := built.blockSize_pos
    have here : columnToBlock f.qspi (l * f.qspi.blockSize) = l := Nat.mul_div_cancel l positive
    have offset : l * f.qspi.blockSize < f.qspi.dieSize := by
      rw [built.dieSize, Nat.mul_comm]
      exact Nat.mul_lt_mul_of_pos_left (inside l (List.mem_cons_self ..)) positive
    have turn := turn_flushed faults built offset
    rw [here] at turn
    have geometry := turn.geometry
    have rest := ih (built.congr geometry) fun l' present =>
      geometry.blockCount ▸ inside l' (List.mem_cons_of_mem _ present)
    rw [geometry.map, geometry.blockSize] at rest
    exact .cons turn rest

theorem TurnsFlushed.failed {ps : List ℕ} (turns : TurnsFlushed faults ps f f') :
    f.failed <+: f'.failed := by
  induction turns with
  | nil => exact List.prefix_rfl
  | cons first _ ih => exact first.failed.trans ih

theorem TurnsFlushed.stay {ps : List ℕ} (turns : TurnsFlushed faults ps f f')
    (failed : f.failed ≠ []) : f'.failed ≠ [] := fun none => by
  have short := turns.failed
  rw [none] at short
  exact failed (List.prefix_nil.mp short)

theorem Cleaned.pending (cleaned : Cleaned p s t) {ps : List ℕ} (absent : p ∉ ps) :
    ps.filter t.pending = ps.filter s.pending := by
  refine List.filter_congr fun q present => ?_
  have other : q ≠ p := fun same => absent (same ▸ present)
  rw [Qspi.pending, Qspi.pending, cleaned.inCache, cleaned.dirty, if_neg other]

/-- Nothing fails when the blocks that are taken are spared. -/
theorem TurnsFlushed.failed_eq_nil_iff {ps : List ℕ} (turns : TurnsFlushed faults ps f f')
    (nodup : ps.Nodup) (going : f.left = false) :
    f'.failed = [] ↔
      f.failed = [] ∧ ∀ p ∈ (ps.filter f.qspi.pending).take f.dirtyBlockCount, faults.Spares p := by
  induction turns with
  | nil => simp
  | @cons p ps f f' f'' first rest ih =>
    obtain ⟨absent, nodup'⟩ := List.nodup_cons.mp nodup
    have taken : ∀ q, f.qspi.pending p = true → f.dirtyBlockCount ≠ 0 →
        (q ∈ ((p :: ps).filter f.qspi.pending).take f.dirtyBlockCount ↔
          q = p ∨ q ∈ (ps.filter f.qspi.pending).take (f.dirtyBlockCount - 1)) := by
      intro q pending counted
      obtain ⟨count, same⟩ := Nat.exists_eq_succ_of_ne_zero counted
      rw [same, List.filter_cons_of_pos pending, List.take_succ_cons, List.mem_cons,
        Nat.succ_sub_one]
    cases first with
    | skipped reason =>
      rw [ih nodup' going]
      obtain left | none | clean := reason
      · rw [going] at left
        cases left
      · rw [none]
        simp
      · rw [List.filter_cons_of_neg (by simp [clean])]
    | notErased pending counted fails | notProgrammed pending counted fails =>
      refine iff_of_false (rest.stay (by simp)) fun spared => ?_
      exact fails (spared.2 p ((taken p pending counted).mpr (.inl rfl)))
    | written _ pending counted spares cleaned =>
      rw [ih nodup' going]
      dsimp only
      rw [cleaned.pending absent]
      refine and_congr_right fun _ => ⟨fun all q present => ?_, fun all q present => ?_⟩
      · obtain rfl | later := (taken q pending counted).mp present
        · exact spares
        · exact all q later
      · exact all q ((taken q pending counted).mpr (.inr present))

/-- What was written is clean, and each failure has its message. -/
structure Flush.Sound (f : Flush) : Prop where
  clean : ∀ p ∈ f.written, f.qspi.dirty p = false
  reported : ∀ p ∈ f.failed, .erasing p ∈ f.reports ∨ .programming p ∈ f.reports

theorem Cleaned.clean (cleaned : Cleaned p s t) {q : ℕ} (clean : s.dirty q = false) :
    t.dirty q = false := by
  rw [cleaned.dirty, clean, ite_self]

theorem TurnFlushed.sound (turn : TurnFlushed faults p f f') (sound : f.Sound) : f'.Sound := by
  cases turn with
  | skipped => exact sound
  | notErased _ _ _ _ dirty =>
    refine ⟨fun q written => (congrFun dirty q).trans (sound.clean q written), fun q failed => ?_⟩
    have earlier := sound.reported q
    simp only [List.mem_append, List.mem_singleton] at failed ⊢
    grind
  | notProgrammed _ _ _ cleaned =>
    refine ⟨fun q written => cleaned.clean (sound.clean q written), fun q failed => ?_⟩
    have earlier := sound.reported q
    simp only [List.mem_append, List.mem_singleton] at failed ⊢
    grind
  | written _ _ _ _ cleaned =>
    refine ⟨fun q written => ?_, sound.reported⟩
    obtain before | now := List.mem_append.mp written
    · exact cleaned.clean (sound.clean q before)
    · rw [cleaned.dirty, if_pos (List.mem_singleton.mp now)]

theorem TurnsFlushed.sound {ps : List ℕ} (turns : TurnsFlushed faults ps f f') (sound : f.Sound) :
    f'.Sound := by
  induction turns with
  | nil => exact sound
  | cons first _ ih => exact ih (first.sound sound)

/-! ### A whole flush -/

/-- The blocks that a flush without failures writes: the dirty ones that the loop comes to, as many as
it counted. -/
def Qspi.flushed (s : Qspi) : List ℕ :=
  (((List.range s.blockCount).map s.pLogicalToPhysicalMap).filter s.pending).take s.dirtyBlockCount

/-- What failed in a flush stays dirty and is reported, and what was written is clean, so that the next
flush takes the former again. -/
structure Flush.KeepsWork (f : Flush) : Prop where
  dirty : ∀ p ∈ f.failed, f.qspi.dirty p = true
  flag : f.failed ≠ [] → f.qspi.cacheDirtyFlag = true
  reported : ∀ p ∈ f.failed, .erasing p ∈ f.reports ∨ .programming p ∈ f.reports
  clean : ∀ p ∈ f.written, f.qspi.dirty p = false

theorem Qspi.Built.mapped_nodup (built : s.Built) :
    ((List.range s.blockCount).map s.pLogicalToPhysicalMap).Nodup := by
  have blocks : (List.range s.blockCount).map s.pLogicalToPhysicalMap =
      goodBlocks s.badBlock s.desc.blocksPerDie := by
    refine List.ext_getElem (by simp [built.blockCount]) fun l _ inside => ?_
    rw [List.getElem_map, List.getElem_range, built.map]
    exact List.getD_eq_getElem _ _ inside
  rw [blocks]
  exact List.nodup_range.filter _

theorem copyCacheToFlashBlocks_turns (faults : FlashFaults) (built : s.Built) :
    TurnsFlushed faults ((List.range s.blockCount).map s.pLogicalToPhysicalMap)
      ⟨s, s.dirtyBlockCount, false, [], [], []⟩ (faults.copyCacheToFlashBlocks 0 s.dieSize s) := by
  rw [FlashFaults.copyCacheToFlashBlocks, built.dieSize, strides_blocks built.blockSize_pos]
  exact turns_flushed (f := ⟨s, s.dirtyBlockCount, false, [], [], []⟩) built
    fun l present => List.mem_range.mp present

theorem flushWriteBuffer_failed_iff (built : s.Built) :
    (faults.flushWriteBuffer s).failed = [] ↔
      s.cacheDirtyFlag = false ∨ ∀ p ∈ s.flushed, faults.Spares p := by
  have turns := copyCacheToFlashBlocks_turns faults built
  have none := turns.failed_eq_nil_iff built.mapped_nodup rfl
  unfold FlashFaults.flushWriteBuffer
  cases flag : s.cacheDirtyFlag with
  | true => simpa [Qspi.flushed] using none
  | false => simp

theorem flushWriteBuffer_sound (faults : FlashFaults) (built : s.Built) : (faults.flushWriteBuffer s).Sound := by
  have sound := (copyCacheToFlashBlocks_turns faults built).sound ⟨nofun, nofun⟩
  unfold FlashFaults.flushWriteBuffer
  split
  · exact ⟨sound.clean, sound.reported⟩
  · exact ⟨nofun, nofun⟩

/-- Afterwards the cache counts as clean. -/
theorem flushWriteBuffer_flag : (faults.flushWriteBuffer s).qspi.cacheDirtyFlag = false := by
  unfold FlashFaults.flushWriteBuffer
  cases flag : s.cacheDirtyFlag with
  | true => rfl
  | false => exact flag

theorem Flush.KeepsWork.failed (kept : (faults.flushWriteBuffer s).KeepsWork) :
    (faults.flushWriteBuffer s).failed = [] := by
  by_contra some
  exact absurd ((kept.flag some).symm.trans flushWriteBuffer_flag) (by decide)

/-- A flush keeps its work, for any pattern of failures, exactly when there is nothing to flush or
nothing fails in the blocks that it takes. -/
theorem flushWriteBuffer_keepsWork_iff (faults : FlashFaults) {s : Qspi} (built : s.Built) :
    (faults.flushWriteBuffer s).KeepsWork ↔
      s.cacheDirtyFlag = false ∨ ∀ p ∈ s.flushed, faults.Spares p := by
  rw [← flushWriteBuffer_failed_iff built]
  refine ⟨fun kept => kept.failed, fun none => ?_⟩
  have sound := flushWriteBuffer_sound faults built
  refine ⟨?_, fun some => absurd none some, sound.reported, sound.clean⟩
  rw [none]
  exact nofun

theorem Qspi.Built.marked (built : s.Built) : Built { s with cacheDirtyFlag := true } :=
  built.congr ⟨rfl, rfl, rfl, rfl, rfl, rfl, rfl⟩

theorem freshQspi_built (badBlock : ℕ → Bool) : (freshQspi badBlock).Built :=
  hssQspiInit_built ..

/-- A write of the cached flash keeps what was set up. -/
theorem hssCachedQspiWriteBlock_built (built : s.Built) {dstOffset : ℕ} {src : List (BitVec 8)}
    (done : hssCachedQspiWriteBlock dstOffset src s = .ok t) : t.Built := by
  obtain ⟨-, u, rfl, rfl⟩ := hssCachedQspiWriteBlock_eq_ok.mp done
  have fetch := built.marked.mapped.demandCopyFlashBlocksToCache dstOffset src.length true
  exact (built.marked.congr fetch.geometry).congr ⟨rfl, rfl, rfl, rfl, rfl, rfl, rfl⟩

/-- Erasures fail in block 5 and programs in block 6. -/
def otherFaults : FlashFaults := ⟨fun p => p = 5, fun p => p = 6, fun _ => 0⟩

/-- Bytes that are written to the first two blocks, behind a bad one, are flushed to the blocks 0 and
2; they are kept when other blocks fail, and not when one of these does. -/
theorem flushWriteBuffer_keepsWork_otherFaults :
    ∃ r s, hssCachedQspiWriteBlock 0 [7] (freshQspi fun p => p = 1) = .ok r ∧
      hssCachedQspiWriteBlock 0x20000 [8] r = .ok s ∧ s.flushed = [0, 2] ∧
      (otherFaults.flushWriteBuffer s).KeepsWork ∧
      ∀ faults : FlashFaults, faults.programFails 2 = true →
        ¬ (faults.flushWriteBuffer s).KeepsWork := by
  obtain ⟨r, first, second⟩ := exists_ok (x := hssCachedQspiWriteBlock 0 [7] (freshQspi fun p => p = 1))
    (P := fun r => (hssCachedQspiWriteBlock 0x20000 [8] r).toOption.any (fun s =>
      s.flushed = [0, 2] ∧ s.cacheDirtyFlag = true) = true) (by decide +kernel)
  obtain ⟨s, second, taken, flag⟩ := exists_ok second
  have built := hssCachedQspiWriteBlock_built (hssCachedQspiWriteBlock_built (freshQspi_built _) first)
    second
  refine ⟨r, s, first, second, taken,
    (flushWriteBuffer_keepsWork_iff otherFaults built).mpr (.inr ?_), fun faults fails kept => ?_⟩
  · rw [taken]
    decide
  · obtain clean | spares := (flushWriteBuffer_keepsWork_iff faults built).mp kept
    · exact absurd (flag.symm.trans clean) (by decide)
    · have spared := (spares 2 (by rw [taken]; decide)).2
      rw [fails] at spared
      cases spared

/-- Every program fails. -/
def programsFail : FlashFaults := ⟨fun _ => false, fun _ => true, fun _ => 0⟩

/-- A block that was written to the cache, and whose program fails, is not flushed again. -/
theorem flushWriteBuffer_not_keepsWork :
    ∃ s, hssCachedQspiWriteBlock 0 [7] (freshQspi fun _ => false) = .ok s ∧
      ¬ (programsFail.flushWriteBuffer s).KeepsWork := by
  obtain ⟨s, done, taken, flag⟩ :
      ∃ s, hssCachedQspiWriteBlock 0 [7] (freshQspi fun _ => false) = .ok s ∧
        0 ∈ s.flushed ∧ s.cacheDirtyFlag = true :=
    exists_ok (P := fun s : Qspi => 0 ∈ s.flushed ∧ s.cacheDirtyFlag = true) (by decide +kernel)
  have built := hssCachedQspiWriteBlock_built (freshQspi_built _) done
  refine ⟨s, done, fun kept => ?_⟩
  obtain clean | spares := (flushWriteBuffer_failed_iff built).mp kept.failed
  · exact absurd (flag.symm.trans clean) (by decide)
  · exact absurd (spares 0 taken).2 (by decide)

end Hss
