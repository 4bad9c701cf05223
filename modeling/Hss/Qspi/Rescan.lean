import Hss.Qspi.Durability

/-! Re-scans of the QSPI flash under a live cache: the map and the geometry follow the bad blocks of
the scan, and the cache keeps what was written as long as its blocks stay in their places. -/

namespace Hss

open BlockStore Runs

/-! ### The re-scan -/

/-- `enum spi_type` -/
inductive SpiType
  | nand | nor
  deriving DecidableEq, Repr

/-- The type of an entry of `qspiFlashes` -/
def FlashDescriptor.type (desc : FlashDescriptor) : SpiType :=
  if desc.jedecId = winbondW25n01gv.jedecId then .nand else .nor

/-- `HSS_QSPI_BadBlocksInfo`, of a service that is initialised -/
def hssQspiBadBlocksInfo (s : Qspi) : Qspi :=
  if s.desc.type = .nand then
    let s := buildBadBlockMap
      { s with blockCount := s.desc.blocksPerDie, dieSize := s.blockSize * s.desc.blocksPerDie }
    if s.numBadBlocks ≠ 0 then
      { s with
        blockCount := s.blockCount - s.numBadBlocks
        dieSize := s.blockSize * (s.blockCount - s.numBadBlocks) }
    else s
  else s

/-- The calls of a session. -/
inductive RescanCall
  | init
  | badBlocksInfo
  | access (call : QspiCall)

/-- A call, and the markers of the flash while it runs: what a scan would report. -/
structure RescanEvent where
  badBlock : ℕ → Bool
  call : RescanCall

/-- What is left of a disk that ends at `dieSize`. -/
def Disk.within (d : Disk) (dieSize : ℕ) : Disk :=
  ⟨d.content, fun a => d.written a && decide (a < dieSize)⟩

/-- A call of a session.  `HSS_QSPIInit` does nothing once the service is initialised, and a re-scan
may shorten the disk. -/
def rescanStep (x : Qspi × Disk) (event : RescanEvent) : Except Halt (Qspi × Disk) :=
  let s := { x.1 with badBlock := event.badBlock }
  match event.call with
  | .init => .ok (s, x.2)
  | .badBlocksInfo => .ok (hssQspiBadBlocksInfo s, x.2.within (hssQspiBadBlocksInfo s).dieSize)
  | .access call => qspiStep (s, x.2) call

/-! ### What a session should keep -/

/-- The physical blocks that the loop of a call takes. -/
def Qspi.taken (s : Qspi) : QspiCall → List ℕ
  | .read srcOffset byteCount => s.fetched srcOffset byteCount
  | .write dstOffset src => s.fetched dstOffset src.length
  | .flush => s.fetched 0 s.dieSize

/-- The geometry and the map fit the bad blocks, calls take good blocks only, and what was written and
is still on the disk is read back and reaches its place in the flash with the next flush. -/
structure RescanKeeps (s : Qspi) (d : Disk) : Prop where
  blocks : s.blockCount + s.numBadBlocks = s.desc.blocksPerDie
  dieSize : s.dieSize = s.blockSize * s.blockCount
  map : (List.range s.blockCount).map s.pLogicalToPhysicalMap =
    goodBlocks s.badBlock s.desc.blocksPerDie
  good : ∀ call t, qspiNext s call = .ok t → ∀ p ∈ s.taken call, s.badBlock p = false
  readBack : ∀ a, d.written a = true → ∀ srcOffset byteCount t bytes,
    hssCachedQspiReadBlock srcOffset byteCount s = .ok (t, bytes) →
      InDiskRange srcOffset byteCount a → bytes[a - srcOffset]? = some (d.content a)
  reaches : ∀ a, d.written a = true →
    let t := hssCachedQspiFlushWriteBuffer s
    t.flash (t.physical a) = d.content a

/-- The blocks with data of a session stay in place when the flash is scanned with these bad blocks:
none at or before a block with data is bad, unless the block falls off the disk, and a dirty one that
does is bad itself. -/
def StaysInPlace (x : Qspi × Disk) (badBlock : ℕ → Bool) : Prop :=
  let blockCount := (goodBlocks badBlock x.1.desc.blocksPerDie).length
  (∀ a, x.2.written a = true → a / x.1.blockSize < blockCount →
    ∀ q ≤ a / x.1.blockSize, badBlock q = false) ∧
  ∀ p, x.1.dirty p = true → (∀ q ≤ p, badBlock q = false) ∨ blockCount ≤ p ∧ badBlock p = true

/-- The condition on a call: the markers change with a re-scan only, it leaves the blocks with data in
place, and writes are durable. -/
def SettledCall (x : Qspi × Disk) (event : RescanEvent) : Prop :=
  match event.call with
  | .init => event.badBlock = x.1.badBlock
  | .badBlocksInfo =>
    if x.1.desc.type = .nand then StaysInPlace x event.badBlock else event.badBlock = x.1.badBlock
  | .access call => event.badBlock = x.1.badBlock ∧ DurableCall x call

/-- What the cache and the flash hold of a session. -/
structure CacheKept (x : Qspi × Disk) : Prop where
  mapped : x.1.Mapped
  settled : x.1.DirtySettled
  dirty : ∀ p, x.1.dirty p = true → p < x.1.desc.blocksPerDie ∧ x.1.inCache p = true
  written : ∀ a, x.2.written a = true → a / x.1.blockSize < x.1.blockCount ∧
    x.1.pLogicalToPhysicalMap (a / x.1.blockSize) = a / x.1.blockSize ∧
      x.1.inCache (a / x.1.blockSize) = true ∧ x.1.pCacheDataBuffer a = x.2.content a ∧
      (x.1.dirty (a / x.1.blockSize) = true ∧ x.1.cacheDirtyFlag = true ∨
        x.1.flash a = x.2.content a)

variable {s t : Qspi} {d : Disk} {x y : Qspi × Disk} {badBlock : ℕ → Bool} {n p : ℕ}

/-! ### The map of a re-scan -/

theorem goodBlocks_inPlace (good : ∀ q ≤ p, badBlock q = false) (inDie : p < n) (otherwise : ℕ) :
    (goodBlocks badBlock n).getD p otherwise = p ∧ p < (goodBlocks badBlock n).length := by
  have all : goodBlocks badBlock (p + 1) = List.range (p + 1) := by
    refine List.filter_eq_self.mpr fun q member => ?_
    rw [good q (Nat.le_of_lt_succ (List.mem_range.mp member))]
    rfl
  obtain ⟨rest, whole⟩ := goodBlocks_prefix badBlock (show p + 1 ≤ n from inDie)
  rw [← whole, all]
  have inside : p < (List.range (p + 1)).length := by simp
  constructor
  · rw [List.getD_append _ _ _ _ inside, List.getD_eq_getElem _ _ inside, List.getElem_range]
  · rw [List.length_append]
    omega

/-- The service after a re-scan. -/
def Qspi.rescanned (s : Qspi) : Qspi :=
  { s with
    blockCount := (goodBlocks s.badBlock s.desc.blocksPerDie).length
    dieSize := s.blockSize * (goodBlocks s.badBlock s.desc.blocksPerDie).length
    numBadBlocks := (flashScanForBadBlocks s).length
    pLogicalToPhysicalMap := fun l =>
      (goodBlocks s.badBlock s.desc.blocksPerDie).getD l (s.pLogicalToPhysicalMap l) }

theorem hssQspiBadBlocksInfo_nand (nand : s.desc.type = .nand) :
    hssQspiBadBlocksInfo s = s.rescanned := by
  have map := foldl_mapBlock s.badBlock s.pLogicalToPhysicalMap (Nat.le_refl s.desc.blocksPerDie)
  have count := length_goodBlocks s.badBlock s.desc.blocksPerDie
  rw [hssQspiBadBlocksInfo, if_pos nand]
  simp only [buildBadBlockMap, flashScanForBadBlocks, map]
  split
  · rw [count]
    rfl
  next none =>
    rw [not_not] at none
    rw [none, Nat.sub_zero] at count
    rw [Qspi.rescanned, flashScanForBadBlocks, ← count]

theorem hssQspiBadBlocksInfo_nor (nor : s.desc.type ≠ .nand) : hssQspiBadBlocksInfo s = s :=
  if_neg nor

theorem Qspi.rescanned_mapped (positive : 0 < s.blockSize) : s.rescanned.Mapped := by
  refine ⟨positive, rfl, rfl, rfl, fun l inside => ?_⟩
  exact (List.getD_eq_getElem _ _ inside).trans (List.getD_eq_getElem _ _ inside).symm

/-! ### One call -/

/-- A read fetches blocks, and leaves the rest of the cache as it is. -/
theorem CacheKept.fetch {blocks : List ℕ} (kept : CacheKept x)
    (fetch : Qspi.Fetched blocks false x.1 t) : CacheKept (t, x.2) := by
  have dirty : t.dirty = x.1.dirty := funext fun p => by simp [fetch.dirty]
  refine ⟨kept.mapped.congr fetch.geometry, fun p hp => ?_, fun p hp => ?_, fun a ha => ?_⟩
  · rw [fetch.geometry.map, fetch.geometry.blockCount, fetch.geometry.badBlock, fetch.inCache]
    refine (kept.settled p (dirty ▸ hp)).imp_left fun ⟨map, counted, present⟩ => ?_
    exact ⟨map, counted, by simp [present]⟩
  · obtain ⟨inDie, present⟩ := kept.dirty p (dirty ▸ hp)
    rw [fetch.geometry.desc, fetch.inCache, present]
    exact ⟨inDie, rfl⟩
  · obtain ⟨inside, map, present, cache, kept⟩ := kept.written a ha
    rw [fetch.geometry.blockSize, fetch.geometry.blockCount, fetch.geometry.map, fetch.inCache,
      dirty, fetch.cacheDirtyFlag, fetch.flash]
    refine ⟨inside, map, by simp [present], ?_, kept⟩
    rw [fetch.cache, if_neg, cache]
    rintro ⟨absent, -⟩
    rw [present] at absent
    cases absent

theorem Qspi.Mapped.blockCount_le (mapped : s.Mapped) : s.blockCount ≤ s.desc.blocksPerDie := by
  rw [mapped.blockCount, ← length_goodBlocks]
  exact Nat.sub_le ..

theorem CacheKept.write (kept : CacheKept x) {dstOffset : ℕ} {src : List (BitVec 8)}
    (durable : DurableCall x (.write dstOffset src))
    (done : hssCachedQspiWriteBlock dstOffset src x.1 = .ok t) :
    CacheKept (t, x.2.next (.write dstOffset src)) := by
  have inDie := (hssCachedQspiWriteBlock_eq_ok.mp done).1
  obtain ⟨geometry, flash, flag, dirty, inCache, cache⟩ :=
    hssCachedQspiWriteBlock_wrote kept.mapped done
  have inPlace : ∀ p ∈ x.1.fetched dstOffset src.length,
      x.1.pLogicalToPhysicalMap p = p ∧ p < x.1.blockCount := fun p =>
    kept.mapped.taken_inPlace durable inDie
  refine ⟨kept.mapped.congr geometry, fun p hp => ?_, fun p hp => ?_, fun a ha => ?_⟩
  · rw [geometry.map, geometry.blockCount, geometry.badBlock, inCache]
    rcases (dirty p).mp hp with before | now
    · refine (kept.settled p before).imp_left fun ⟨map, counted, present⟩ => ?_
      exact ⟨map, counted, .inl present⟩
    · exact .inl ⟨(inPlace p now).1, (inPlace p now).2, .inr now⟩
  · rw [geometry.desc, inCache]
    rcases (dirty p).mp hp with before | now
    · exact ⟨(kept.dirty p before).1, .inl (kept.dirty p before).2⟩
    · exact ⟨Nat.lt_of_lt_of_le (inPlace p now).2 kept.mapped.blockCount_le, .inr now⟩
  · rw [geometry.blockSize, geometry.blockCount, geometry.map, inCache, cache, dirty, flag, flash]
    simp only [Disk.next, Bool.or_eq_true, decide_eq_true_eq] at ha ⊢
    by_cases inRange : InDiskRange dstOffset src.length a
    · obtain ⟨map, dirtyHere⟩ := durable a inRange
      have inside : a / x.1.blockSize < x.1.blockCount := by
        rw [kept.mapped.dieSize] at inDie
        exact Nat.div_lt_of_lt_mul (Nat.lt_of_lt_of_le inRange.2 inDie)
      rw [if_pos inRange, if_pos inRange]
      refine ⟨inside, map, ?_, rfl, .inl ⟨dirtyHere.symm, trivial⟩⟩
      exact dirtyHere.symm.imp_left fun before => (kept.dirty _ before).2
    · obtain ⟨inside, map, present, held, kept⟩ := kept.written a (ha.resolve_left inRange)
      have old : ¬(x.1.inCache (a / x.1.blockSize) = false ∧
          a / x.1.blockSize ∈ x.1.fetched dstOffset src.length) := by
        rw [present]
        exact fun both => Bool.noConfusion both.1
      rw [if_neg inRange, if_neg inRange, if_neg old]
      exact ⟨inside, map, .inl present, held, kept.imp_left fun before => ⟨.inl before.1, trivial⟩⟩

theorem CacheKept.flush (kept : CacheKept x) :
    CacheKept (hssCachedQspiFlushWriteBuffer x.1, x.2) ∧
      ∀ a, x.2.written a = true → (hssCachedQspiFlushWriteBuffer x.1).flash a = x.2.content a := by
  have back := kept.mapped.hssCachedQspiFlushWriteBuffer
  have size := back.geometry.blockSize
  have flashed : ∀ a, x.2.written a = true →
      (hssCachedQspiFlushWriteBuffer x.1).flash a = x.2.content a := by
    intro a ha
    obtain ⟨inside, map, present, cache, held⟩ := kept.written a ha
    rcases back.block (a / x.1.blockSize) with ⟨same, flash⟩ | ⟨-, -, -, flash⟩
    · refine (flash a rfl).trans (held.resolve_left ?_)
      -- a flush that runs leaves no dirty block on the disk
      rintro ⟨dirty, flag⟩
      rw [hssCachedQspiFlushWriteBuffer, if_pos flag] at same
      have clean := kept.mapped.flush_clean kept.settled inside
      exact absurd ((same.trans dirty).symm.trans clean) (by decide)
    · exact (flash a rfl).trans cache
  refine ⟨⟨kept.mapped.congr back.geometry, kept.settled.writtenBack back, fun p hp => ?_,
    fun a ha => ?_⟩, flashed⟩
  · rw [back.geometry.desc, back.inCache]
    rcases back.block p with ⟨same, -⟩ | ⟨-, -, clean, -⟩
    · exact kept.dirty p (same ▸ hp)
    · exact absurd (hp.symm.trans clean) (by decide)
  · obtain ⟨inside, map, present, cache, -⟩ := kept.written a ha
    rw [size, back.geometry.blockCount, back.geometry.map, back.inCache, back.cache]
    exact ⟨inside, map, present, cache, .inr (flashed a ha)⟩

theorem CacheKept.rescan (kept : CacheKept x) (stays : StaysInPlace x badBlock) :
    CacheKept (({ x.1 with badBlock } : Qspi).rescanned,
      x.2.within ({ x.1 with badBlock } : Qspi).rescanned.dieSize) := by
  obtain ⟨inPlace, settles⟩ := stays
  refine ⟨Qspi.rescanned_mapped kept.mapped.blockSize_pos, fun p hp => ?_, kept.dirty,
    fun a ha => ?_⟩
  · obtain ⟨inDie, present⟩ := kept.dirty p hp
    rcases settles p hp with good | outside
    · obtain ⟨map, counted⟩ := goodBlocks_inPlace good inDie _
      exact .inl ⟨map, counted, present⟩
    · exact .inr outside
  · simp only [Disk.within, Bool.and_eq_true, decide_eq_true_eq] at ha
    obtain ⟨inside, map, present, cache, held⟩ := kept.written a ha.1
    have counted : a / x.1.blockSize < (goodBlocks badBlock x.1.desc.blocksPerDie).length :=
      Nat.div_lt_of_lt_mul ha.2
    have inDie := Nat.lt_of_lt_of_le inside kept.mapped.blockCount_le
    obtain ⟨place, -⟩ := goodBlocks_inPlace (inPlace a ha.1 counted) inDie _
    exact ⟨counted, place, present, cache, held⟩

theorem CacheKept.access {call : QspiCall} (kept : CacheKept x) (durable : DurableCall x call)
    (step : qspiStep x call = .ok y) : CacheKept y := by
  obtain ⟨t, d⟩ := y
  obtain ⟨next, rfl⟩ := qspiStep_eq_ok.mp step
  cases call with
  | read srcOffset byteCount =>
    obtain ⟨bytes, read⟩ := qspiNext_read_eq_ok.mp next
    obtain ⟨-, rfl, -⟩ := hssCachedQspiReadBlock_eq_ok.mp read
    exact kept.fetch (kept.mapped.demandCopyFlashBlocksToCache srcOffset byteCount false)
  | write dstOffset src => exact kept.write durable next
  | flush =>
    cases next
    exact kept.flush.1

theorem rescanStep_access {call : QspiCall} (same : badBlock = x.1.badBlock) :
    rescanStep x ⟨badBlock, .access call⟩ = qspiStep x call := by
  subst same
  rfl

theorem rescanStep_badBlocksInfo : rescanStep x ⟨badBlock, .badBlocksInfo⟩ =
    .ok (hssQspiBadBlocksInfo { x.1 with badBlock },
      x.2.within (hssQspiBadBlocksInfo { x.1 with badBlock }).dieSize) := rfl

theorem CacheKept.step {event : RescanEvent} (kept : CacheKept x) (settled : SettledCall x event)
    (step : rescanStep x event = .ok y) : CacheKept y := by
  obtain ⟨s, d⟩ := x
  obtain ⟨badBlock, call⟩ := event
  cases call with
  | init =>
    obtain rfl : badBlock = s.badBlock := settled
    cases step
    exact kept
  | badBlocksInfo =>
    by_cases nand : s.desc.type = .nand
    · have stays : StaysInPlace (s, d) badBlock := by
        simpa only [SettledCall, if_pos nand] using settled
      have scan : hssQspiBadBlocksInfo { s with badBlock } = ({ s with badBlock } : Qspi).rescanned :=
        hssQspiBadBlocksInfo_nand nand
      simp only [rescanStep, scan, Except.ok.injEq] at step
      subst step
      exact kept.rescan stays
    · obtain rfl : badBlock = s.badBlock := by simpa only [SettledCall, if_neg nand] using settled
      cases step
      rw [show hssQspiBadBlocksInfo { s with badBlock := s.badBlock } = s from
        hssQspiBadBlocksInfo_nor nand]
      exact ⟨kept.mapped, kept.settled, kept.dirty, fun a ha =>
        kept.written a (Bool.and_eq_true_iff.mp ha).1⟩
  | access call =>
    obtain ⟨same, durable⟩ : badBlock = s.badBlock ∧ DurableCall (s, d) call := settled
    exact kept.access durable ((rescanStep_access same).symm.trans step)

/-! ### A session -/

theorem CacheKept.keeps (kept : CacheKept (s, d)) : RescanKeeps s d := by
  have mapped : s.Mapped := kept.mapped
  have total : s.blockCount + s.numBadBlocks = s.desc.blocksPerDie := by
    have sum := List.length_eq_length_filter_add (l := List.range s.desc.blocksPerDie) s.badBlock
    rw [List.length_range] at sum
    rw [mapped.blockCount, mapped.numBadBlocks, flashScanForBadBlocks, goodBlocks]
    omega
  refine ⟨total, mapped.dieSize, ?_, ?_, ?_, ?_⟩
  · refine List.ext_getElem (by simp [mapped.blockCount]) fun l inside inside' => ?_
    rw [List.getElem_map, List.getElem_range, mapped.map l (mapped.blockCount ▸ inside')]
    exact List.getD_eq_getElem _ _ inside'
  · intro call t next p taken
    cases call with
    | read srcOffset byteCount =>
      obtain ⟨bytes, read⟩ := qspiNext_read_eq_ok.mp next
      exact mapped.fetched_good (hssCachedQspiReadBlock_eq_ok.mp read).1 taken
    | write dstOffset src =>
      exact mapped.fetched_good (hssCachedQspiWriteBlock_eq_ok.mp next).1 taken
    | flush =>
      refine mapped.fetched_good ?_ taken
      rw [Nat.zero_add]
  · intro a written srcOffset byteCount t bytes read inRange
    obtain ⟨-, rfl, rfl⟩ := hssCachedQspiReadBlock_eq_ok.mp read
    have after := kept.fetch (mapped.demandCopyFlashBlocksToCache srcOffset byteCount false)
    obtain ⟨-, -, -, cache, -⟩ := after.written a written
    obtain ⟨low, high⟩ := inRange
    have inside : a - srcOffset < byteCount := by omega
    rw [List.getElem?_map, List.getElem?_range inside, Option.map_some,
      Nat.add_sub_cancel' low]
    exact congrArg _ cache
  · intro a written t
    obtain ⟨after, flashed⟩ := kept.flush
    obtain ⟨-, map, -⟩ := after.written a written
    rw [Qspi.physical, map, Nat.div_add_mod']
    exact flashed a written

/-- In every session whose calls meet the condition the geometry and the map fit the last scan after
each call, and what was written is not lost. -/
theorem cachedQspi_rescan (desc : FlashDescriptor) (flash : ℕ → BitVec 8) (badBlock : ℕ → Bool)
    (cache : ℕ → BitVec 8) {events : List RescanEvent} {s : Qspi} {d : Disk}
    (run : Run (Under SettledCall fun x event y => rescanStep x event = .ok y)
      (hssQspiInit desc flash badBlock cache, (hssQspiInit desc flash badBlock cache).disk)
      events (s, d)) : RescanKeeps s d := by
  have start : CacheKept
      (hssQspiInit desc flash badBlock cache, (hssQspiInit desc flash badBlock cache).disk) :=
    ⟨(hssQspiInit_built desc flash badBlock cache).mapped, nofun, nofun, nofun⟩
  have kept : CacheKept (s, d) :=
    run.invariant start fun x event y kept step => kept.step step.1 step.2
  exact kept.keeps

/-- Two bytes of block 0 are written, and block 1000 goes bad. -/
theorem cachedQspi_rescan_written : ∃ s d,
    Run (Under SettledCall fun x event y => rescanStep x event = .ok y)
      (freshQspi fun _ => false, (freshQspi fun _ => false).disk)
      [⟨fun _ => false, .access (.write 5 [7, 8])⟩, ⟨(· = 1000), .badBlocksInfo⟩] (s, d) ∧
    RescanKeeps s d := by
  obtain ⟨s, done, size, nand⟩ :
      ∃ s, hssCachedQspiWriteBlock 5 [7, 8] (freshQspi fun _ => false) = .ok s ∧
        s.blockSize = 131072 ∧ s.desc.type = .nand :=
    exists_ok (P := fun s : Qspi => s.blockSize = 131072 ∧ s.desc.type = .nand) (by decide +kernel)
  have write : Run (Under SettledCall fun x event y => rescanStep x event = .ok y)
      (freshQspi fun _ => false, (freshQspi fun _ => false).disk)
      [⟨fun _ => false, .access (.write 5 [7, 8])⟩]
      (s, (freshQspi fun _ => false).disk.next (.write 5 [7, 8])) :=
    .single ⟨⟨rfl, freshQspi_durableCall⟩,
      (rescanStep_access rfl).trans (qspiStep_eq_ok.mpr ⟨done, rfl⟩)⟩
  have first : ∀ q ≤ 0, decide (q = 1000) = false := by
    intro q le
    rw [Nat.le_zero.mp le]
    rfl
  have stays : StaysInPlace (s, (freshQspi fun _ => false).disk.next (.write 5 [7, 8]))
      (· = 1000) := by
    refine ⟨fun a written _ => ?_, fun p dirty => .inl ?_⟩
    · have inRange : InDiskRange 5 2 a := by
        simpa [Disk.next, Qspi.disk] using written
      have block : a / s.blockSize = 0 := by
        rw [size]
        have := inRange.2
        omega
      rw [block]
      exact first
    · have mapped :=
        (hssQspiInit_built winbondW25n01gv (fun _ => 1) (fun _ => false) fun _ => 0).mapped
      have dirties := (hssCachedQspiWriteBlock_wrote mapped done).dirty
      have taken : (freshQspi fun _ => false).fetched 5 2 = [0] := by decide +kernel
      obtain before | now := (dirties p).mp dirty
      · cases before
      · obtain rfl : p = 0 := List.mem_singleton.mp (taken ▸ now)
        exact first
  have settled : SettledCall (s, (freshQspi fun _ => false).disk.next (.write 5 [7, 8]))
      ⟨(· = 1000), .badBlocksInfo⟩ := by
    rw [SettledCall, if_pos nand]
    exact stays
  have run := write.snoc ⟨settled, rescanStep_badBlocksInfo⟩
  exact ⟨_, _, run, cachedQspi_rescan _ _ _ _ run⟩

/-- A byte of block 1 is written, and then block 0 goes bad: the next flush writes the block to the
place of logical block 0.  Where blocks 0 and 1 are bad, and block 2 goes bad with no re-scan, a
look-up counts it and leaves the number of blocks as it was. -/
theorem rescan_loses_writes :
    (∃ x, Run (fun x event y => rescanStep x event = .ok y)
      (freshQspi fun _ => false, (freshQspi fun _ => false).disk)
      [⟨fun _ => false, .access (.write 131072 [7])⟩, ⟨(· = 0), .badBlocksInfo⟩] x ∧
      ¬RescanKeeps x.1 x.2) ∧
    ∃ x, Run (fun x event y => rescanStep x event = .ok y)
      (freshQspi (· < 2), (freshQspi (· < 2)).disk)
      [⟨(· < 3), .access (.read (1021 * 131072) 1)⟩] x ∧ ¬RescanKeeps x.1 x.2 := by
  constructor
  · obtain ⟨x, run, lost, written, content⟩ := exists_run rescanStep
      (freshQspi fun _ => false, (freshQspi fun _ => false).disk)
      [⟨fun _ => false, .access (.write 131072 [7])⟩, ⟨(· = 0), .badBlocksInfo⟩]
      (P := fun x => (hssCachedQspiFlushWriteBuffer x.1).flash
        ((hssCachedQspiFlushWriteBuffer x.1).physical 131072) = 1 ∧
          x.2.written 131072 = true ∧ x.2.content 131072 = 7) (by decide +kernel)
    refine ⟨x, run, fun keeps => ?_⟩
    have same := lost.symm.trans ((keeps.reaches 131072 written).trans content)
    exact absurd same (by decide)
  · obtain ⟨x, run, count⟩ := exists_run rescanStep (freshQspi (· < 2), (freshQspi (· < 2)).disk)
      [⟨(· < 3), .access (.read (1021 * 131072) 1)⟩]
      (P := fun x => x.1.blockCount + x.1.numBadBlocks ≠ x.1.desc.blocksPerDie) (by decide +kernel)
    exact ⟨x, run, fun keeps => count keeps.blocks⟩

end Hss
