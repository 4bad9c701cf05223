import Hss.Qspi.Coherence

/-! Flushes of the cached QSPI flash: what was written is in the flash afterwards, as long as the
writes keep to blocks that the flush writes back. -/

namespace Hss

open BlockStore Runs

/-! ### The loop of a flush -/

theorem length_filter_clear {n p : ℕ} {test test' : ℕ → Bool} (hp : p < n) (passes : test p = true)
    (clear : ∀ q, test' q = if q = p then false else test q) :
    ((List.range n).filter test').length = ((List.range n).filter test).length - 1 := by
  have cleared : (List.range n).filter test' = ((List.range n).filter test).erase p := by
    rw [List.Nodup.erase_eq_filter (List.nodup_range.filter _), List.filter_filter]
    refine List.filter_congr fun q _ => ?_
    rw [clear]
    by_cases same : q = p <;> simp [same]
  rw [cleared, List.length_erase_of_mem]
  exact List.mem_filter.mpr ⟨List.mem_range.mpr hp, passes⟩

namespace Qspi

variable {s t : Qspi}

/-- Each dirty block is in the cache, is counted by a flush, and is the block of its own number. -/
def DirtyInPlace (s : Qspi) : Prop := ∀ p, s.dirty p = true →
  s.pLogicalToPhysicalMap p = p ∧ p < s.blockCount ∧ s.inCache p = true

/-- Each dirty block is in its place, or it is a bad block that a flush neither counts nor takes. -/
def DirtySettled (s : Qspi) : Prop := ∀ p, s.dirty p = true →
  (s.pLogicalToPhysicalMap p = p ∧ p < s.blockCount ∧ s.inCache p = true) ∨
    (s.blockCount ≤ p ∧ s.badBlock p = true)

theorem DirtyInPlace.settled (place : s.DirtyInPlace) : s.DirtySettled :=
  fun p dirty => .inl (place p dirty)

theorem DirtySettled.counted (settled : s.DirtySettled) {p : ℕ} (counted : p < s.blockCount)
    (dirty : s.dirty p = true) : s.pLogicalToPhysicalMap p = p ∧ s.inCache p = true := by
  obtain ⟨map, -, present⟩ | ⟨outside, -⟩ := settled p dirty
  · exact ⟨map, present⟩
  · omega

theorem clean_of_count (none : s.dirtyBlockCount = 0) {p : ℕ} (counted : p < s.blockCount) :
    s.dirty p = false := by
  rw [dirtyBlockCount, List.length_eq_zero_iff, List.filter_eq_nil_iff] at none
  exact Bool.eq_false_iff.mpr (none p (List.mem_range.mpr counted))

theorem DirtyInPlace.writtenBack (place : s.DirtyInPlace) (back : WrittenBack s t) :
    t.DirtyInPlace := by
  intro p dirty
  rw [back.geometry.map, back.geometry.blockCount, back.inCache]
  rcases back.block p with ⟨same, -⟩ | ⟨-, -, clean, -⟩
  · exact place p (same ▸ dirty)
  · rw [clean] at dirty
    cases dirty

theorem DirtySettled.writtenBack (settled : s.DirtySettled) (back : WrittenBack s t) :
    t.DirtySettled := by
  intro p dirty
  rw [back.geometry.map, back.geometry.blockCount, back.geometry.badBlock, back.inCache]
  rcases back.block p with ⟨same, -⟩ | ⟨-, -, clean, -⟩
  · exact settled p (same ▸ dirty)
  · rw [clean] at dirty
    cases dirty

/-- The loop of a flush up to block `n`: the blocks before it are clean, and the others are counted. -/
theorem Mapped.flushLoop (mapped : s.Mapped) (settled : s.DirtySettled) {n : ℕ}
    (le : n ≤ s.blockCount) :
    ∃ t, ((List.range n).map (· * s.blockSize)).foldl copyBlockToFlash
        (s, s.dirtyBlockCount, false) = (t, t.dirtyBlockCount, false) ∧
      WrittenBack s t ∧ ∀ p < n, t.dirty p = false := by
  induction n with
  | zero => exact ⟨s, rfl, .refl s, nofun⟩
  | succ n ih =>
    obtain ⟨t, run, back, clean⟩ := ih (by omega)
    have mapped' := mapped.congr back.geometry
    have settled' := settled.writtenBack back
    have size := back.geometry.blockSize
    have inside : n * s.blockSize < t.dieSize := by
      rw [mapped'.dieSize, size, back.geometry.blockCount, Nat.mul_comm]
      exact Nat.mul_lt_mul_of_pos_left le mapped.blockSize_pos
    have here : n < t.blockCount := by
      rw [back.geometry.blockCount]
      exact le
    have block : columnToBlock t (n * s.blockSize) = n := by
      rw [columnToBlock, size]
      exact Nat.mul_div_cancel _ mapped.blockSize_pos
    rw [List.range_succ, List.map_append, List.foldl_append, run]
    rcases mapped'.copyBlockToFlash_cases inside t.dirtyBlockCount false with
      ⟨same, reason⟩ | ⟨-, -, dirty, u, step, clear, done⟩
    · refine ⟨t, same, back, fun p hp => ?_⟩
      rcases Nat.lt_succ_iff_lt_or_eq.mp hp with before | rfl
      · exact clean p before
      cases dirty : t.dirty p with
      | false => rfl
      | true =>
        obtain ⟨map, present⟩ := settled'.counted here dirty
        rw [block, map, present, dirty] at reason
        rcases reason rfl with none | absent | notDirty
        · exact dirty ▸ clean_of_count none here
        · cases absent
        · cases notDirty
    · rw [block] at dirty clear
      -- the block is not bad, so it is in its place and was counted
      obtain ⟨-, counted, -⟩ | ⟨-, bad⟩ := settled' _ dirty
      · refine ⟨u, ?_, back.trans step, fun p hp => ?_⟩
        · refine done.trans ?_
          rw [dirtyBlockCount, dirtyBlockCount, step.geometry.blockCount,
            length_filter_clear counted dirty clear]
        · rw [clear]
          split
          · rfl
          rcases Nat.lt_succ_iff_lt_or_eq.mp hp with before | rfl
          · exact clean p before
          cases dirtyHere : t.dirty p with
          | false => rfl
          | true => exact absurd (settled'.counted here dirtyHere).1.symm (by assumption)
      · rw [mapped'.good here] at bad
        cases bad

theorem Mapped.flush_clean (mapped : s.Mapped) (settled : s.DirtySettled) {p : ℕ}
    (counted : p < s.blockCount) : (Hss.copyCacheToFlashBlocks 0 s.dieSize s).dirty p = false := by
  obtain ⟨t, run, back, clean⟩ := mapped.flushLoop settled (Nat.le_refl _)
  rw [Hss.copyCacheToFlashBlocks, mapped.dieSize, strides_blocks mapped.blockSize_pos, run]
  exact clean p counted

end Qspi

/-! ### Calls that are durable -/

/-- The condition on a call: bytes that are written are in logical blocks that are the physical blocks
of the same numbers, and that this call marks dirty or that are dirty. -/
def DurableCall (x : Qspi × Disk) : QspiCall → Prop
  | .read _ _ => True
  | .write dstOffset src => ∀ a, InDiskRange dstOffset src.length a →
      x.1.pLogicalToPhysicalMap (a / x.1.blockSize) = a / x.1.blockSize ∧
        (a / x.1.blockSize ∈ x.1.fetched dstOffset src.length ∨
          x.1.dirty (a / x.1.blockSize) = true)
  | .flush => True

/-- What was written is in the cache, and in the flash unless its block is dirty. -/
structure Durable (s₀ : Qspi) (x : Qspi × Disk) : Prop where
  geometry : Qspi.SameGeometry s₀ x.1
  place : x.1.DirtyInPlace
  written : ∀ a, x.2.written a = true →
    s₀.pLogicalToPhysicalMap (a / s₀.blockSize) = a / s₀.blockSize ∧
      x.1.inCache (a / s₀.blockSize) = true ∧ x.1.pCacheDataBuffer a = x.2.content a ∧
      (x.1.dirty (a / s₀.blockSize) = true ∨ x.1.flash a = x.2.content a)
  flag : x.1.cacheDirtyFlag = false → ∀ p, x.1.dirty p = false

variable {s₀ : Qspi} {x y : Qspi × Disk} {call : QspiCall}

theorem Durable.read {blocks : List ℕ} {t : Qspi} (h : Durable s₀ x)
    (fetch : Qspi.Fetched blocks false x.1 t) : Durable s₀ (t, x.2) := by
  have dirty : t.dirty = x.1.dirty := funext fun p => by simp [fetch.dirty]
  refine ⟨h.geometry.trans fetch.geometry, fun p hp => ?_, fun a ha => ?_, fun flag => ?_⟩
  · obtain ⟨map, counted, present⟩ := h.place p (dirty ▸ hp)
    rw [fetch.geometry.map, fetch.geometry.blockCount, fetch.inCache, present]
    exact ⟨map, counted, rfl⟩
  · obtain ⟨map, present, cache, kept⟩ := h.written a ha
    refine ⟨map, ?_, ?_, ?_⟩
    · rw [fetch.inCache, present]
      rfl
    · rw [fetch.cache, h.geometry.blockSize, if_neg, cache]
      rw [present]
      exact fun ⟨absent, _⟩ => nomatch absent
    · rw [dirty, fetch.flash]
      exact kept
  · rw [dirty]
    exact h.flag (fetch.cacheDirtyFlag ▸ flag)

/-- A durable write takes blocks that are in their places. -/
theorem Qspi.Mapped.taken_inPlace (mapped : x.1.Mapped) {dstOffset p : ℕ} {src : List (BitVec 8)}
    (durable : DurableCall x (.write dstOffset src)) (inDie : dstOffset + src.length ≤ x.1.dieSize)
    (taken : p ∈ x.1.fetched dstOffset src.length) :
    x.1.pLogicalToPhysicalMap p = p ∧ p < x.1.blockCount := by
  obtain ⟨o, ho, rfl⟩ := List.mem_map.mp taken
  have inRange := strides_lt mapped.blockSize_pos ho
  have map := (durable o inRange).1
  rw [columnToBlock, map]
  refine ⟨map, ?_⟩
  rw [mapped.dieSize] at inDie
  exact Nat.div_lt_of_lt_mul (Nat.lt_of_lt_of_le inRange.2 inDie)

theorem Durable.write (built : s₀.Built) (h : Durable s₀ x) {dstOffset : ℕ}
    {src : List (BitVec 8)} {t : Qspi} (durable : DurableCall x (.write dstOffset src))
    (done : hssCachedQspiWriteBlock dstOffset src x.1 = .ok t) :
    Durable s₀ (t, x.2.next (.write dstOffset src)) := by
  have mapped := (built.congr h.geometry).mapped
  have inDie := (hssCachedQspiWriteBlock_eq_ok.mp done).1
  have size := h.geometry.blockSize
  obtain ⟨geometry, flash, set, dirty, inCache, cache⟩ := hssCachedQspiWriteBlock_wrote mapped done
  refine ⟨h.geometry.trans geometry, fun p hp => ?_, fun a ha => ?_, fun flag => ?_⟩
  · rw [geometry.map, geometry.blockCount, inCache]
    rcases (dirty p).mp hp with before | now
    · obtain ⟨map, counted, present⟩ := h.place p before
      exact ⟨map, counted, .inl present⟩
    · obtain ⟨map, counted⟩ := mapped.taken_inPlace durable inDie now
      exact ⟨map, counted, .inr now⟩
  · rw [inCache, cache, dirty, flash, size]
    simp only [Disk.next, Bool.or_eq_true, decide_eq_true_eq] at ha ⊢
    by_cases inRange : InDiskRange dstOffset src.length a
    · obtain ⟨map, dirtyHere⟩ := durable a inRange
      rw [size] at map dirtyHere
      rw [if_pos inRange, if_pos inRange]
      refine ⟨h.geometry.map ▸ map, ?_, rfl, .inl dirtyHere.symm⟩
      exact dirtyHere.symm.imp_left fun before => (h.place _ before).2.2
    · obtain ⟨map, present, held, kept⟩ := h.written a (ha.resolve_left inRange)
      have old : ¬(x.1.inCache (a / s₀.blockSize) = false ∧
          a / s₀.blockSize ∈ x.1.fetched dstOffset src.length) := by
        rw [present]
        exact fun both => Bool.noConfusion both.1
      rw [if_neg inRange, if_neg inRange, if_neg old]
      exact ⟨map, .inl present, held, kept.imp_left .inl⟩
  · change t.cacheDirtyFlag = false at flag
    rw [flag] at set
    cases set

theorem Durable.flush_clean (built : s₀.Built) (h : Durable s₀ x) (p : ℕ) :
    (hssCachedQspiFlushWriteBuffer x.1).dirty p = false := by
  rw [hssCachedQspiFlushWriteBuffer]
  split
  · have mapped := (built.congr h.geometry).mapped
    have back := mapped.copyCacheToFlashBlocks
    cases dirty : (copyCacheToFlashBlocks 0 x.1.dieSize x.1).dirty p with
    | false => exact dirty
    | true =>
      have counted := (h.place.writtenBack back p dirty).2.1
      rw [back.geometry.blockCount] at counted
      exact mapped.flush_clean h.place.settled counted
  · next flag => exact h.flag (by simpa using flag) p

theorem Durable.flush (built : s₀.Built) (h : Durable s₀ x) :
    Durable s₀ (hssCachedQspiFlushWriteBuffer x.1, x.2) := by
  have back := (built.congr h.geometry).mapped.hssCachedQspiFlushWriteBuffer
  have clean := h.flush_clean built
  refine ⟨h.geometry.trans back.geometry, h.place.writtenBack back, fun a ha => ?_, fun _ => clean⟩
  obtain ⟨map, present, cache, kept⟩ := h.written a ha
  refine ⟨map, back.inCache ▸ present, back.cache ▸ cache, .inr ?_⟩
  have block : a / x.1.blockSize = a / s₀.blockSize := by rw [h.geometry.blockSize]
  rcases back.block (a / s₀.blockSize) with ⟨same, flash⟩ | ⟨-, -, -, flash⟩
  · rw [clean] at same
    refine (flash a block).trans (kept.resolve_left ?_)
    rw [← same]
    nofun
  · exact (flash a block).trans cache

theorem Durable.step (built : s₀.Built) (h : Durable s₀ x) (durable : DurableCall x call)
    (step : qspiStep x call = .ok y) : Durable s₀ y := by
  obtain ⟨t, d⟩ := y
  obtain ⟨next, rfl⟩ := qspiStep_eq_ok.mp step
  cases call with
  | read srcOffset byteCount =>
    obtain ⟨bytes, read⟩ := qspiNext_read_eq_ok.mp next
    obtain ⟨-, rfl, -⟩ := hssCachedQspiReadBlock_eq_ok.mp read
    exact h.read ((built.congr h.geometry).mapped.demandCopyFlashBlocksToCache srcOffset byteCount false)
  | write dstOffset src => exact h.write built durable next
  | flush =>
    cases next
    exact h.flush built

theorem durable_start (clean : ∀ p, s₀.dirty p = false) : Durable s₀ (s₀, s₀.disk) :=
  ⟨.refl s₀, fun p dirty => absurd ((clean p).symm.trans dirty) nofun, nofun, fun _ => clean⟩

/-- After every run of durable calls a flush leaves each byte that was written at its place in the
flash, no dirty block, and the blocks that were not dirty as they were. -/
theorem cachedQspi_durable (desc : FlashDescriptor) (flash : ℕ → BitVec 8) (badBlock : ℕ → Bool)
    (cache : ℕ → BitVec 8) {calls : List QspiCall} {s : Qspi} {d : Disk}
    (run : Run (Under DurableCall fun x call y => qspiStep x call = .ok y)
      (hssQspiInit desc flash badBlock cache, (hssQspiInit desc flash badBlock cache).disk)
      calls (s, d)) :
    let t := hssCachedQspiFlushWriteBuffer s
    (∀ a, d.written a = true → t.flash (t.physical a) = d.content a) ∧
      (∀ p, t.dirty p = false) ∧
      ∀ p, s.dirty p = false → ∀ a, a / s.blockSize = p → t.flash a = s.flash a := by
  intro t
  have built := hssQspiInit_built desc flash badBlock cache
  have kept : Durable (hssQspiInit desc flash badBlock cache) (s, d) :=
    run.invariant (durable_start fun _ => rfl) fun x call y h step => h.step built step.1 step.2
  have after := kept.flush built
  have clean := kept.flush_clean built
  refine ⟨fun a ha => ?_, clean, fun p hp a ha => ?_⟩
  · obtain ⟨map, -, -, flashed⟩ := after.written a ha
    rw [Qspi.physical, after.geometry.map, after.geometry.blockSize, map, Nat.div_add_mod']
    refine flashed.resolve_left ?_
    rw [clean]
    exact Bool.false_ne_true
  · rcases ((built.congr kept.geometry).mapped.hssCachedQspiFlushWriteBuffer).block p with
      ⟨-, same⟩ | ⟨-, dirty, -⟩
    · exact same a ha
    · rw [hp] at dirty
      cases dirty

theorem freshQspi_durableCall : DurableCall (freshQspi fun _ => false, (freshQspi fun _ => false).disk)
    (.write 5 [7, 8]) := by
  have map : (freshQspi fun _ => false).pLogicalToPhysicalMap 0 = 0 := by decide +kernel
  have taken : 0 ∈ (freshQspi fun _ => false).fetched 5 2 := by decide +kernel
  rintro a ⟨low, high⟩
  have block : a / (freshQspi fun _ => false).blockSize = 0 := by
    simp only [List.length_cons, List.length_nil] at high
    exact Nat.div_eq_of_lt (Nat.lt_of_lt_of_le high (by decide +kernel))
  simp only [block]
  exact ⟨map, .inl taken⟩

theorem cachedQspi_durable_written : ∃ s d,
    Run (Under DurableCall fun x call y => qspiStep x call = .ok y)
      (freshQspi fun _ => false, (freshQspi fun _ => false).disk) [.write 5 [7, 8]] (s, d) ∧
    let t := hssCachedQspiFlushWriteBuffer s
    (∀ a, d.written a = true → t.flash (t.physical a) = d.content a) ∧
      (∀ p, t.dirty p = false) ∧
      ∀ p, s.dirty p = false → ∀ a, a / s.blockSize = p → t.flash a = s.flash a := by
  obtain ⟨s, done, -⟩ : ∃ s,
      hssCachedQspiWriteBlock 5 [7, 8] (freshQspi fun _ => false) = .ok s ∧ True :=
    exists_ok (by decide +kernel)
  have run : Run (Under DurableCall fun x call y => qspiStep x call = .ok y)
      (freshQspi fun _ => false, (freshQspi fun _ => false).disk) [.write 5 [7, 8]]
      (s, (freshQspi fun _ => false).disk.next (.write 5 [7, 8])) :=
    .single ⟨freshQspi_durableCall, qspiStep_eq_ok.mpr ⟨done, rfl⟩⟩
  exact ⟨s, _, run, cachedQspi_durable _ _ _ _ run⟩

/-- A byte is written to the last logical block of a flash whose block 0 is bad.  The flush does not
count the physical block, and leaves the byte in the cache only. -/
theorem cachedQspi_not_durable :
    ∃ s, hssCachedQspiWriteBlock (1022 * 131072) [7] (freshQspi (· = 0)) = .ok s ∧
      let t := hssCachedQspiFlushWriteBuffer s
      t.flash (t.physical (1022 * 131072)) = 1 ∧ t.dirty 1023 = true :=
  exists_ok (P := fun s : Qspi => let t := hssCachedQspiFlushWriteBuffer s
    t.flash (t.physical (1022 * 131072)) = 1 ∧ t.dirty 1023 = true) (by decide +kernel)

end Hss
