import Hss.Lib.Runs
import Hss.Qspi.Blocks

/-! The cached QSPI flash as a disk: reads see what was written last, as long as the calls keep to
blocks of the cache that no later fetch overwrites. -/

namespace Hss

open BlockStore Runs

/-! ### The disk -/

/-- The calls on the cached flash. -/
inductive QspiCall
  | read (srcOffset byteCount : ℕ)
  | write (dstOffset : ℕ) (src : List (BitVec 8))
  | flush

/-- What the cached flash is for: the bytes that are on the disk, by their logical offsets, and
whether they were written. -/
structure Disk where
  content : ℕ → BitVec 8
  written : ℕ → Bool

/-- The offsets of `len` bytes from `offset` on. -/
def InDiskRange (offset len a : ℕ) : Prop := offset ≤ a ∧ a < offset + len

instance (offset len a : ℕ) : Decidable (InDiskRange offset len a) :=
  inferInstanceAs (Decidable (_ ∧ _))

/-- A write changes its range, and the other calls change nothing. -/
def Disk.next (d : Disk) : QspiCall → Disk
  | .read _ _ => d
  | .write dstOffset src =>
    ⟨fun a => if InDiskRange dstOffset src.length a then src.getD (a - dstOffset) 0 else d.content a,
      fun a => decide (InDiskRange dstOffset src.length a) || d.written a⟩
  | .flush => d

/-- The bytes that a read returns. -/
def Disk.bytes (d : Disk) (srcOffset byteCount : ℕ) : List (BitVec 8) :=
  (List.range byteCount).map fun i => d.content (srcOffset + i)

/-- The place in the flash of a logical byte: its logical block is mapped. -/
def Qspi.physical (s : Qspi) (a : ℕ) : ℕ :=
  s.pLogicalToPhysicalMap (a / s.blockSize) * s.blockSize + a % s.blockSize

/-- The disk of a flash that was not used yet. -/
def Qspi.disk (s : Qspi) : Disk := ⟨fun a => s.flash (s.physical a), fun _ => false⟩

/-- A call on the cached flash. -/
def qspiNext (s : Qspi) : QspiCall → Except Halt Qspi
  | .read srcOffset byteCount => (hssCachedQspiReadBlock srcOffset byteCount s).map Prod.fst
  | .write dstOffset src => hssCachedQspiWriteBlock dstOffset src s
  | .flush => .ok (hssCachedQspiFlushWriteBuffer s)

/-- A call on the cached flash and on the disk. -/
def qspiStep (x : Qspi × Disk) (call : QspiCall) : Except Halt (Qspi × Disk) :=
  (qspiNext x.1 call).map fun s => (s, x.2.next call)

/-! ### Calls that are coherent -/

/-- The condition on a call.  Bytes that are written must be in a block of the cache that is not
fetched later: one that was fetched, that this call fetches, or that is never fetched.  Bytes that
are read and were not written must be in a logical block that is the physical block of the same
number, and that was fetched or is by this call. -/
def CoherentCall (x : Qspi × Disk) : QspiCall → Prop
  | .read srcOffset byteCount => ∀ a, InDiskRange srcOffset byteCount a → x.2.written a = true ∨
      x.1.pLogicalToPhysicalMap (a / x.1.blockSize) = a / x.1.blockSize ∧
        (x.1.inCache (a / x.1.blockSize) = true ∨
          a / x.1.blockSize ∈ x.1.fetched srcOffset byteCount)
  | .write dstOffset src => ∀ a, InDiskRange dstOffset src.length a →
      x.1.inCache (a / x.1.blockSize) = true ∨
        a / x.1.blockSize ∈ x.1.fetched dstOffset src.length ∨
        x.1.badBlock (a / x.1.blockSize) = true
  | .flush => True

/-- The cache and the flash hold the disk, from `flash` on. -/
structure Coherent (s₀ : Qspi) (x : Qspi × Disk) : Prop where
  geometry : Qspi.SameGeometry s₀ x.1
  /-- What was written is in the cache, in a block that is not fetched any more. -/
  written : ∀ a, x.2.written a = true → x.1.pCacheDataBuffer a = x.2.content a ∧
    (x.1.inCache (a / s₀.blockSize) = true ∨ s₀.badBlock (a / s₀.blockSize) = true)
  /-- What was not written has the content of the flash, which is as it was. -/
  unwritten : ∀ a, x.2.written a = false → x.2.content a = s₀.flash (s₀.physical a)
  fetched : ∀ a, x.2.written a = false → x.1.inCache (a / s₀.blockSize) = true →
    x.1.pCacheDataBuffer a = s₀.flash a
  flash : ∀ a, x.2.written a = false → x.1.flash a = s₀.flash a

variable {s₀ : Qspi} {x y : Qspi × Disk} {call : QspiCall}

/-- A loop over a range of the disk fetches blocks that are not bad. -/
theorem Qspi.Mapped.fetched_good {s : Qspi} (mapped : s.Mapped) {offset count p : ℕ}
    (inDie : offset + count ≤ s.dieSize) (hp : p ∈ s.fetched offset count) :
    s.badBlock p = false := by
  obtain ⟨o, ho, rfl⟩ := List.mem_map.mp hp
  refine mapped.good ?_
  have inside := (strides_lt mapped.blockSize_pos ho).2
  rw [mapped.dieSize] at inDie
  exact Nat.div_lt_of_lt_mul (Nat.lt_of_lt_of_le inside inDie)

theorem Coherent.fetch {blocks : List ℕ} {markDirty : Bool} {t : Qspi} (h : Coherent s₀ x)
    (good : ∀ p ∈ blocks, s₀.badBlock p = false) (fetch : Qspi.Fetched blocks markDirty x.1 t) :
    Coherent s₀ (t, x.2) := by
  have size := h.geometry.blockSize
  refine ⟨h.geometry.trans fetch.geometry, fun a ha => ?_, h.unwritten, fun a ha inCache => ?_,
    fun a ha => ?_⟩
  · obtain ⟨cache, kept⟩ := h.written a ha
    refine ⟨?_, ?_⟩
    · rw [fetch.cache, size, if_neg, cache]
      rintro ⟨absent, member⟩
      rcases kept with present | bad
      · rw [absent] at present
        cases present
      · rw [good _ member] at bad
        cases bad
    · rw [fetch.inCache]
      exact kept.imp_left fun present => by simp [present]
  · rw [fetch.cache, size]
    rw [fetch.inCache] at inCache
    split
    · exact h.flash a ha
    · next outside =>
      refine h.fetched a ha ?_
      by_contra absent
      simp only [Bool.not_eq_true] at absent
      rw [absent, Bool.false_or, decide_eq_true_eq] at inCache
      exact outside ⟨absent, inCache⟩
  · exact (congrFun fetch.flash a).trans (h.flash a ha)

/-- A read fetches its blocks and returns what is in the cache at its range. -/
theorem hssCachedQspiReadBlock_eq_ok {s t : Qspi} {srcOffset byteCount : ℕ}
    {bytes : List (BitVec 8)} :
    hssCachedQspiReadBlock srcOffset byteCount s = .ok (t, bytes) ↔
      srcOffset + byteCount ≤ s.dieSize ∧
        t = demandCopyFlashBlocksToCache srcOffset byteCount false s ∧
        bytes = (List.range byteCount).map fun i => t.pCacheDataBuffer (srcOffset + i) := by
  simp only [hssCachedQspiReadBlock, bind_eq_ok, assert_eq_ok, pure, Except.pure, Except.ok.injEq,
    Prod.mk.injEq]
  constructor
  · rintro ⟨-, inDie, rfl, rfl⟩
    exact ⟨inDie, rfl, rfl⟩
  · rintro ⟨inDie, rfl, rfl⟩
    exact ⟨(), inDie, rfl, rfl⟩

theorem hssCachedQspiWriteBlock_eq_ok {s t : Qspi} {dstOffset : ℕ} {src : List (BitVec 8)} :
    hssCachedQspiWriteBlock dstOffset src s = .ok t ↔
      dstOffset + src.length ≤ s.dieSize ∧ ∃ u, u = demandCopyFlashBlocksToCache dstOffset src.length
        true { s with cacheDirtyFlag := true } ∧
        t = { u with
          pCacheDataBuffer :=
            copyRange u.pCacheDataBuffer (fun i => src.getD i 0) dstOffset 0 src.length } := by
  simp only [hssCachedQspiWriteBlock, bind_eq_ok, assert_eq_ok, pure, Except.pure, Except.ok.injEq]
  constructor
  · rintro ⟨-, inDie, rfl⟩
    exact ⟨inDie, _, rfl, rfl⟩
  · rintro ⟨inDie, _, rfl, rfl⟩
    exact ⟨(), inDie, rfl⟩

/-- What a write of `src` leaves: the blocks that it takes are fetched and dirty, and the bytes are in
the cache. -/
structure Qspi.Wrote (dstOffset : ℕ) (src : List (BitVec 8)) (s t : Qspi) : Prop where
  geometry : SameGeometry s t
  flash : t.flash = s.flash
  cacheDirtyFlag : t.cacheDirtyFlag = true
  dirty : ∀ p, t.dirty p = true ↔ s.dirty p = true ∨ p ∈ s.fetched dstOffset src.length
  inCache : ∀ p, t.inCache p = true ↔ s.inCache p = true ∨ p ∈ s.fetched dstOffset src.length
  cache : ∀ a, t.pCacheDataBuffer a =
    if InDiskRange dstOffset src.length a then src.getD (a - dstOffset) 0
    else if s.inCache (a / s.blockSize) = false ∧
      a / s.blockSize ∈ s.fetched dstOffset src.length then s.flash a
    else s.pCacheDataBuffer a

theorem hssCachedQspiWriteBlock_wrote {s t : Qspi} (mapped : s.Mapped) {dstOffset : ℕ}
    {src : List (BitVec 8)} (done : hssCachedQspiWriteBlock dstOffset src s = .ok t) :
    Qspi.Wrote dstOffset src s t := by
  obtain ⟨-, u, rfl, rfl⟩ := hssCachedQspiWriteBlock_eq_ok.mp done
  have marked : Qspi.Mapped { s with cacheDirtyFlag := true } :=
    mapped.congr ⟨rfl, rfl, rfl, rfl, rfl, rfl, rfl⟩
  have fetch := marked.demandCopyFlashBlocksToCache dstOffset src.length true
  generalize demandCopyFlashBlocksToCache dstOffset src.length true _ = u at fetch
  refine ⟨⟨fetch.geometry.1, fetch.geometry.2, fetch.geometry.3, fetch.geometry.4,
    fetch.geometry.5, fetch.geometry.6, fetch.geometry.7⟩, fetch.flash, fetch.cacheDirtyFlag,
    fun p => ?_, fun p => ?_, fun a => ?_⟩
  · change u.dirty p = true ↔ _
    rw [fetch.dirty p, Bool.true_and, Bool.or_eq_true, decide_eq_true_eq]
    rfl
  · change u.inCache p = true ↔ _
    rw [fetch.inCache p, Bool.or_eq_true, decide_eq_true_eq]
    rfl
  · change copyRange u.pCacheDataBuffer (fun i => src.getD i 0) dstOffset 0 src.length a = _
    by_cases inRange : InDiskRange dstOffset src.length a
    · rw [copyRange_of_mem inRange.1 inRange.2, if_pos inRange, Nat.zero_add]
    · rw [copyRange_of_notMem inRange, if_neg inRange]
      exact fetch.cache a

theorem qspiNext_read_eq_ok {s t : Qspi} {srcOffset byteCount : ℕ} :
    qspiNext s (.read srcOffset byteCount) = .ok t ↔
      ∃ bytes, hssCachedQspiReadBlock srcOffset byteCount s = .ok (t, bytes) := by
  rw [qspiNext]
  cases hssCachedQspiReadBlock srcOffset byteCount s with
  | error reason => simp [Except.map]
  | ok result => simp [Except.map, Prod.ext_iff]

theorem qspiStep_eq_ok :
    qspiStep x call = .ok y ↔ qspiNext x.1 call = .ok y.1 ∧ y.2 = x.2.next call := by
  obtain ⟨t, d⟩ := y
  rw [qspiStep]
  cases qspiNext x.1 call with
  | error reason => simp [Except.map]
  | ok s => simp [Except.map, eq_comm]

/-- A read keeps the cache coherent, and returns what is on the disk. -/
theorem Coherent.read (built : s₀.Built) (h : Coherent s₀ x) {srcOffset byteCount : ℕ} {t : Qspi}
    {bytes : List (BitVec 8)} (coherent : CoherentCall x (.read srcOffset byteCount))
    (done : hssCachedQspiReadBlock srcOffset byteCount x.1 = .ok (t, bytes)) :
    Coherent s₀ (t, x.2) ∧ bytes = x.2.bytes srcOffset byteCount := by
  obtain ⟨inDie, rfl, rfl⟩ := hssCachedQspiReadBlock_eq_ok.mp done
  have built' := built.congr h.geometry
  have fetch := built'.mapped.demandCopyFlashBlocksToCache srcOffset byteCount false
  have kept := h.fetch
    (fun p hp => h.geometry.badBlock ▸ built'.mapped.fetched_good inDie hp) fetch
  refine ⟨kept, List.map_congr_left fun i hi => ?_⟩
  have inRange : InDiskRange srcOffset byteCount (srcOffset + i) :=
    ⟨Nat.le_add_right .., Nat.add_lt_add_left (List.mem_range.mp hi) _⟩
  cases fresh : x.2.written (srcOffset + i) with
  | true => exact (kept.written _ fresh).1
  | false =>
    rcases coherent _ inRange with old | ⟨map, present⟩
    · rw [fresh] at old
      cases old
    rw [h.geometry.blockSize, h.geometry.map] at map
    have inCache : (demandCopyFlashBlocksToCache srcOffset byteCount false x.1).inCache
        ((srcOffset + i) / s₀.blockSize) = true := by
      rw [fetch.inCache, ← h.geometry.blockSize]
      rcases present with before | now
      · simp [before]
      · simp [now]
    rw [kept.fetched _ fresh inCache, h.unwritten _ fresh, Qspi.physical, map,
      Nat.div_add_mod']

/-- A write keeps the cache coherent. -/
theorem Coherent.write (built : s₀.Built) (h : Coherent s₀ x) {dstOffset : ℕ}
    {src : List (BitVec 8)} {t : Qspi} (coherent : CoherentCall x (.write dstOffset src))
    (done : hssCachedQspiWriteBlock dstOffset src x.1 = .ok t) :
    Coherent s₀ (t, x.2.next (.write dstOffset src)) := by
  obtain ⟨inDie, u, rfl, rfl⟩ := hssCachedQspiWriteBlock_eq_ok.mp done
  have marked : Coherent s₀ ({ x.1 with cacheDirtyFlag := true }, x.2) :=
    ⟨h.geometry.trans ⟨rfl, rfl, rfl, rfl, rfl, rfl, rfl⟩, h.written, h.unwritten, h.fetched,
      h.flash⟩
  have built' := built.congr marked.geometry
  have fetch := built'.mapped.demandCopyFlashBlocksToCache dstOffset src.length true
  have kept := marked.fetch
    (fun p hp => marked.geometry.badBlock ▸ built'.mapped.fetched_good inDie hp) fetch
  generalize demandCopyFlashBlocksToCache dstOffset src.length true _ = u at fetch kept
  refine ⟨kept.geometry.trans ⟨rfl, rfl, rfl, rfl, rfl, rfl, rfl⟩, fun a ha => ?_, fun a ha => ?_,
    fun a ha inCache => ?_, fun a ha => ?_⟩
  all_goals
    simp only [Disk.next, Bool.or_eq_true, Bool.or_eq_false_iff, decide_eq_true_eq,
      decide_eq_false_iff_not] at ha ⊢
  · by_cases inRange : InDiskRange dstOffset src.length a
    · rw [if_pos inRange, copyRange_of_mem inRange.1 inRange.2, Nat.zero_add]
      refine ⟨rfl, ?_⟩
      have size := h.geometry.blockSize
      have place := coherent a inRange
      rw [size, h.geometry.badBlock] at place
      change u.inCache _ = true ∨ _
      rw [fetch.inCache]
      rcases place with present | now | bad
      · exact .inl (by rw [Qspi.inCache] at present ⊢; simp [present])
      · refine .inl ?_
        rw [Bool.or_eq_true, decide_eq_true_eq]
        exact .inr now
      · exact .inr bad
    · rw [if_neg inRange, copyRange_of_notMem inRange]
      exact kept.written a (ha.resolve_left inRange)
  · rw [if_neg ha.1]
    exact kept.unwritten a ha.2
  · rw [copyRange_of_notMem ha.1]
    exact kept.fetched a ha.2 inCache
  · exact kept.flash a ha.2

theorem Coherent.flush (built : s₀.Built) (h : Coherent s₀ x) :
    Coherent s₀ (hssCachedQspiFlushWriteBuffer x.1, x.2) := by
  have back := (built.congr h.geometry).mapped.hssCachedQspiFlushWriteBuffer
  refine ⟨h.geometry.trans back.geometry, fun a ha => ?_, h.unwritten, fun a ha inCache => ?_,
    fun a ha => ?_⟩
  · rw [back.cache, back.inCache]
    exact h.written a ha
  · rw [back.cache]
    exact h.fetched a ha (back.inCache ▸ inCache)
  · rcases back.block (a / s₀.blockSize) with ⟨-, flash⟩ | ⟨inCache, -, -, flash⟩
    · exact (flash a (by rw [h.geometry.blockSize])).trans (h.flash a ha)
    · exact (flash a (by rw [h.geometry.blockSize])).trans (h.fetched a ha inCache)

theorem Coherent.step (built : s₀.Built) (h : Coherent s₀ x) (coherent : CoherentCall x call)
    (step : qspiStep x call = .ok y) : Coherent s₀ y := by
  obtain ⟨t, d⟩ := y
  obtain ⟨next, rfl⟩ := qspiStep_eq_ok.mp step
  cases call with
  | read srcOffset byteCount =>
    obtain ⟨bytes, read⟩ := qspiNext_read_eq_ok.mp next
    exact (h.read built coherent read).1
  | write dstOffset src => exact h.write built coherent next
  | flush =>
    cases next
    exact h.flush built

theorem coherent_start (absent : ∀ p, s₀.inCache p = false) : Coherent s₀ (s₀, s₀.disk) :=
  ⟨.refl s₀, nofun, fun _ _ => rfl,
    fun _ _ inCache => absurd ((absent _).symm.trans inCache) nofun, fun _ _ => rfl⟩

/-- In every run of coherent calls each read returns what is on the disk: the byte that was written
last, or the content of the flash at the place of the byte. -/
theorem cachedQspi_coherent (desc : FlashDescriptor) (flash : ℕ → BitVec 8) (badBlock : ℕ → Bool)
    (cache : ℕ → BitVec 8) {calls : List QspiCall} {s : Qspi} {d : Disk}
    (run : Run (Under CoherentCall fun x call y => qspiStep x call = .ok y)
      (hssQspiInit desc flash badBlock cache, (hssQspiInit desc flash badBlock cache).disk)
      calls (s, d))
    {srcOffset byteCount : ℕ} (coherent : CoherentCall (s, d) (.read srcOffset byteCount))
    {t : Qspi} {bytes : List (BitVec 8)}
    (read : hssCachedQspiReadBlock srcOffset byteCount s = .ok (t, bytes)) :
    bytes = d.bytes srcOffset byteCount := by
  have built := hssQspiInit_built desc flash badBlock cache
  have kept : Coherent (hssQspiInit desc flash badBlock cache) (s, d) :=
    run.invariant (coherent_start fun _ => rfl) fun x call y h step => h.step built step.1 step.2
  exact (kept.read built coherent read).2

/-- A flash with every byte 1, and a cache with every byte 0. -/
def freshQspi (badBlock : ℕ → Bool) : Qspi :=
  hssQspiInit winbondW25n01gv (fun _ => 1) badBlock fun _ => 0

theorem cachedQspi_coherent_written : ∃ s d t bytes,
    Run (Under CoherentCall fun x call y => qspiStep x call = .ok y)
      (freshQspi fun _ => false, (freshQspi fun _ => false).disk) [.write 5 [7, 8]] (s, d) ∧
    hssCachedQspiReadBlock 4 3 s = .ok (t, bytes) ∧ bytes = d.bytes 4 3 := by
  have coherent : CoherentCall (freshQspi fun _ => false, (freshQspi fun _ => false).disk)
      (.write 5 [7, 8]) := by
    rintro a ⟨low, high⟩
    have block : a / 131072 = 0 := by
      simp only [List.length_cons, List.length_nil] at high
      omega
    exact .inr (.inl (block ▸ by decide +kernel))
  obtain ⟨s, done, size, map, present, die⟩ :
      ∃ s, hssCachedQspiWriteBlock 5 [7, 8] (freshQspi fun _ => false) = .ok s ∧
        s.blockSize = 131072 ∧ s.pLogicalToPhysicalMap 0 = 0 ∧ s.inCache 0 = true ∧
          7 ≤ s.dieSize :=
    exists_ok (P := fun s : Qspi => s.blockSize = 131072 ∧ s.pLogicalToPhysicalMap 0 = 0 ∧
      s.inCache 0 = true ∧ 7 ≤ s.dieSize) (by decide +kernel)
  have run : Run (Under CoherentCall fun x call y => qspiStep x call = .ok y)
      (freshQspi fun _ => false, (freshQspi fun _ => false).disk) [.write 5 [7, 8]]
      (s, (freshQspi fun _ => false).disk.next (.write 5 [7, 8])) :=
    .single ⟨coherent, qspiStep_eq_ok.mpr ⟨done, rfl⟩⟩
  have reads : CoherentCall (s, (freshQspi fun _ => false).disk.next (.write 5 [7, 8]))
      (.read 4 3) := by
    rintro a ⟨low, high⟩
    have block : a / 131072 = 0 := by omega
    refine .inr ?_
    rw [size, block]
    exact ⟨map, .inl present⟩
  exact ⟨s, _, _, _, run, hssCachedQspiReadBlock_eq_ok.mpr ⟨die, rfl, rfl⟩,
    cachedQspi_coherent _ _ _ _ run reads
      (hssCachedQspiReadBlock_eq_ok.mpr ⟨die, rfl, rfl⟩)⟩

/-- A read at a block boundary where block 0 is bad, and a read over the boundary of two blocks: the
flash holds 1 everywhere, but the code returns what the cache held before. -/
theorem cachedQspi_not_coherent :
    (∃ x, hssCachedQspiReadBlock 0 1 (freshQspi (· = 0)) = .ok x ∧
      x.2 = [0] ∧ (freshQspi (· = 0)).disk.bytes 0 1 = [1]) ∧
    ∃ x, hssCachedQspiReadBlock 131071 2 (freshQspi fun _ => false) = .ok x ∧
      x.2 = [1, 0] ∧ (freshQspi fun _ => false).disk.bytes 131071 2 = [1, 1] :=
  ⟨exists_ok (P := fun x : Qspi × List (BitVec 8) => x.2 = [0] ∧ _) (by decide +kernel),
    exists_ok (P := fun x : Qspi × List (BitVec 8) => x.2 = [1, 0] ∧ _) (by decide +kernel)⟩

end Hss
