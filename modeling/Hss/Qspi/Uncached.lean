import Hss.Qspi.Coherence
import Hss.W25n.Driver

/-! The QSPI flash without its cache: only the address of the first byte of a range is translated. -/

namespace Hss

open BlockStore

/-! ### Reads and writes -/

/-- `logical_to_physical_address_` -/
def logicalToPhysicalAddress (logicalAddr : ℕ) (s : Qspi) : Qspi × ℕ :=
  let (s, physicalBlockNumber) := logicalToPhysicalBlock (logicalAddr / s.blockSize) s
  (s, physicalBlockNumber * s.blockSize + logicalAddr % s.blockSize)

/-- `Flash_read` of the Winbond flash, without errors: the bytes at the destination. -/
def flashReadPages (srcAddr len : ℕ) (s : Qspi) : Except Halt (List (BitVec 8)) := do
  assert (srcAddr % pageLength = 0) .flashPageBoundary
  return (List.range len).map fun i => s.flash (srcAddr + i)

/-- `Flash_program` of the Winbond flash, without errors.  It starts at the page of the address, and
programming clears bits. -/
def flashProgramPages (buf : List (BitVec 8)) (addr : ℕ) (s : Qspi) : Qspi :=
  let start := addr / pageLength * pageLength
  { s with
    flash := copyRange s.flash (fun i => s.flash (start + i) &&& buf.getD i 0xFF) start 0 buf.length }

/-- `HSS_QSPI_ReadBlock`: the bytes at the destination. -/
def Qspi.hssQspiReadBlock (srcOffset byteCount : ℕ) (s : Qspi) :
    Except Halt (Qspi × List (BitVec 8)) := do
  let (s, readAddr) := logicalToPhysicalAddress srcOffset s
  let bytes ← flashReadPages readAddr byteCount s
  return (s, bytes)

/-- `HSS_QSPI_WriteBlock`, of the bytes at the source. -/
def Qspi.hssQspiWriteBlock (dstOffset : ℕ) (src : List (BitVec 8)) (s : Qspi) : Qspi :=
  let (s, writeAddr) := logicalToPhysicalAddress dstOffset s
  flashProgramPages src writeAddr s

/-! ### The map without gaps -/

theorem goodBlocks_sorted (badBlock : ℕ → Bool) (n : ℕ) :
    (goodBlocks badBlock n).Pairwise (· < ·) :=
  List.pairwise_lt_range.filter _

namespace Qspi

variable {s t : Qspi} {l m p : ℕ}

theorem Built.map_lt (built : s.Built) (less : l < m) (inside : m < s.blockCount) :
    s.pLogicalToPhysicalMap l < s.pLogicalToPhysicalMap m := by
  rw [built.blockCount] at inside
  rw [built.map]
  dsimp only
  rw [List.getD_eq_getElem _ _ (less.trans inside), List.getD_eq_getElem _ _ inside]
  exact List.pairwise_iff_getElem.mp (goodBlocks_sorted ..) l m _ _ less

theorem Built.map_inDie (built : s.Built) (inside : l < s.blockCount) :
    s.pLogicalToPhysicalMap l < s.desc.blocksPerDie := by
  rw [built.blockCount] at inside
  rw [built.map]
  dsimp only
  rw [List.getD_eq_getElem _ _ inside]
  exact (mem_goodBlocks.mp (List.getElem_mem inside)).1

theorem Built.map_injective (built : s.Built) (inside : l < s.blockCount) (inside' : m < s.blockCount)
    (same : s.pLogicalToPhysicalMap l = s.pLogicalToPhysicalMap m) : l = m := by
  rcases Nat.lt_trichotomy l m with less | equal | more
  · exact absurd same (Nat.ne_of_lt (built.map_lt less inside'))
  · exact equal
  · exact absurd same.symm (Nat.ne_of_lt (built.map_lt more inside))

/-- The place of a good block in the map is the number of good blocks before it. -/
theorem Built.map_length (built : s.Built) (inDie : p < s.desc.blocksPerDie)
    (good : s.badBlock p = false) :
    (goodBlocks s.badBlock p).length < s.blockCount ∧
      s.pLogicalToPhysicalMap (goodBlocks s.badBlock p).length = p := by
  obtain ⟨more, all⟩ := goodBlocks_prefix s.badBlock (show p + 1 ≤ s.desc.blocksPerDie from inDie)
  rw [goodBlocks_succ, good, if_neg Bool.false_ne_true, List.append_assoc] at all
  rw [built.blockCount, built.map, ← all]
  constructor
  · simp
  · dsimp only
    rw [List.getD_append_right _ _ _ _ (Nat.le_refl _), Nat.sub_self]
    rfl

/-- The block after a mapped one, if it is good, is the next in the map. -/
theorem Built.map_succ (built : s.Built) (inside : l < s.blockCount)
    (next : s.pLogicalToPhysicalMap l + 1 < s.desc.blocksPerDie)
    (good : s.badBlock (s.pLogicalToPhysicalMap l + 1) = false) :
    s.pLogicalToPhysicalMap (l + 1) = s.pLogicalToPhysicalMap l + 1 := by
  have here := built.mapped.good inside
  obtain ⟨inside', place⟩ := built.map_length (built.map_inDie inside) here
  have same := built.map_injective inside' inside place
  obtain ⟨-, place⟩ := built.map_length next good
  rw [goodBlocks_succ, here, if_neg Bool.false_ne_true, List.length_append, same] at place
  exact place

/-- The map has no gap between two blocks when no block between them is bad. -/
theorem Built.map_add (built : s.Built) {k : ℕ} (inside : l + k < s.blockCount)
    (good : ∀ p, s.pLogicalToPhysicalMap l ≤ p → p ≤ s.pLogicalToPhysicalMap (l + k) →
      s.badBlock p = false) :
    ∀ j ≤ k, s.pLogicalToPhysicalMap (l + j) = s.pLogicalToPhysicalMap l + j := by
  intro j
  induction j with
  | zero => exact fun _ => rfl
  | succ j ih =>
    intro le
    have before := ih (Nat.le_of_succ_le le)
    have less := built.map_lt (l := l + j) (m := l + k) (by omega) inside
    have inDie := built.map_inDie inside
    have next := built.map_succ (l := l + j) (by omega) (by omega)
      (good _ (by omega) (by omega))
    rw [← Nat.add_assoc, next, before, Nat.add_assoc]

/-- No bad block lies between the physical blocks of the first byte and of the others. -/
def NoBadBlockInside (s : Qspi) (offset n : ℕ) : Prop :=
  ∀ i < n, ∀ p, s.pLogicalToPhysicalMap (offset / s.blockSize) ≤ p →
    p ≤ s.pLogicalToPhysicalMap ((offset + i) / s.blockSize) → s.badBlock p = false

/-- A flash with the geometry of the Winbond one and these bad blocks, whatever it and its cache
hold. -/
def Winbond (badBlock : ℕ → Bool) (s : Qspi) : Prop := SameGeometry (freshQspi badBlock) s

variable {badBlock : ℕ → Bool} {offset n i : ℕ}

theorem Winbond.built (winbond : Winbond badBlock s) : s.Built :=
  Built.congr (hssQspiInit_built ..) winbond

theorem Winbond.blockSize (winbond : Winbond badBlock s) : s.blockSize = 131072 :=
  SameGeometry.blockSize winbond

theorem Winbond.fetched (winbond : Winbond badBlock s) (offset n : ℕ) :
    s.fetched offset n = (freshQspi badBlock).fetched offset n := by
  unfold Qspi.fetched columnToBlock
  rw [SameGeometry.blockSize winbond, SameGeometry.map winbond]

theorem Winbond.physical (winbond : Winbond badBlock s) (a : ℕ) :
    s.physical a = s.pLogicalToPhysicalMap (a / 131072) * 131072 + a % 131072 := by
  rw [Qspi.physical, winbond.blockSize]

theorem Winbond.block (winbond : Winbond badBlock s) (inside : offset + n ≤ s.dieSize) (less : i < n) :
    (offset + i) / 131072 < s.blockCount := by
  rw [winbond.built.dieSize, winbond.blockSize] at inside
  omega

/-- The bytes of a range are at successive places exactly when there is no bad block inside. -/
theorem Winbond.successive_iff (winbond : Winbond badBlock s) (inside : offset + n ≤ s.dieSize) :
    (∀ i < n, s.physical (offset + i) = s.physical offset + i) ↔ s.NoBadBlockInside offset n := by
  have built := winbond.built
  constructor
  · intro successive i less p low high
    rw [winbond.blockSize] at low high
    have last := successive i less
    rw [winbond.physical, winbond.physical] at last
    -- The block of the range that should be at `p`, and its first byte in the range.
    let l := offset / 131072 + (p - s.pLogicalToPhysicalMap (offset / 131072))
    have within : l ≤ (offset + i) / 131072 := by omega
    have start := successive (l * 131072 - offset) (by omega)
    rw [winbond.physical, winbond.physical] at start
    have block : (offset + (l * 131072 - offset)) / 131072 = l := by omega
    rw [block] at start
    have here : s.pLogicalToPhysicalMap l = p := by omega
    rw [← here]
    exact built.mapped.good (within.trans_lt (winbond.block inside less))
  · intro good i less
    have block := winbond.block inside less
    obtain ⟨k, last⟩ := Nat.exists_eq_add_of_le
      (Nat.div_le_div_right (c := 131072) (Nat.le_add_right offset i))
    have noGap := built.map_add (last ▸ block) (fun p low high => good i less p
      (winbond.blockSize ▸ low) (by rw [winbond.blockSize, last]; exact high)) k (Nat.le_refl k)
    rw [winbond.physical, winbond.physical, last, noGap]
    omega

theorem Winbond.address (winbond : Winbond badBlock s) (a : ℕ) :
    logicalToPhysicalAddress a s = (s, s.physical a) := by
  rw [logicalToPhysicalAddress, winbond.built.mapped.logicalToPhysicalBlock]
  rfl

theorem Winbond.aligned (winbond : Winbond badBlock s) (a : ℕ) :
    s.physical a % pageLength = a % pageLength := by
  rw [winbond.physical, pageLength]
  omega

theorem Winbond.hssQspiReadBlock_eq_ok (winbond : Winbond badBlock s) {bytes : List (BitVec 8)} :
    hssQspiReadBlock offset n s = .ok (t, bytes) ↔ offset % pageLength = 0 ∧ t = s ∧
      bytes = (List.range n).map fun i => s.flash (s.physical offset + i) := by
  rw [hssQspiReadBlock, winbond.address]
  simp only [flashReadPages, bind_eq_ok, assert_eq_ok, pure, Except.pure, Except.ok.injEq,
    Prod.mk.injEq, winbond.aligned]
  constructor
  · rintro ⟨_, ⟨-, aligned, rfl⟩, rfl, rfl⟩
    exact ⟨aligned, rfl, rfl⟩
  · rintro ⟨aligned, rfl, rfl⟩
    exact ⟨_, ⟨(), aligned, rfl⟩, rfl, rfl⟩

theorem Winbond.hssQspiWriteBlock_flash (winbond : Winbond badBlock s)
    (aligned : offset % pageLength = 0) (src : List (BitVec 8)) (a : ℕ) :
    (hssQspiWriteBlock offset src s).flash a =
      if s.physical offset ≤ a ∧ a < s.physical offset + src.length then
        s.flash a &&& src.getD (a - s.physical offset) 0xFF
      else s.flash a := by
  have start : s.physical offset / pageLength * pageLength = s.physical offset := by
    have whole := winbond.aligned offset
    rw [pageLength] at aligned whole ⊢
    omega
  rw [hssQspiWriteBlock, winbond.address]
  dsimp only
  rw [flashProgramPages]
  dsimp only
  rw [start]
  split
  · next mem =>
    rw [copyRange_of_mem mem.1 mem.2, Nat.zero_add, Nat.add_sub_cancel' mem.1]
  · next notMem => exact copyRange_of_notMem notMem

/-! ### What a range comes to -/

/-- Reads and writes of the range access its logical bytes, each in the physical block of its own
logical block, and no bad block. -/
structure AccessesRange (badBlock : ℕ → Bool) (offset n : ℕ) : Prop where
  read : ∀ s, Winbond badBlock s → hssQspiReadBlock offset n s =
    .ok (s, (List.range n).map fun i => s.flash (s.physical (offset + i)))
  write : ∀ s, Winbond badBlock s → ∀ src : List (BitVec 8), src.length = n →
    (∀ i < n, (hssQspiWriteBlock offset src s).flash (s.physical (offset + i)) =
      s.flash (s.physical (offset + i)) &&& src.getD i 0xFF) ∧
    ∀ a, (∀ i < n, a ≠ s.physical (offset + i)) →
      (hssQspiWriteBlock offset src s).flash a = s.flash a
  good : ∀ s, Winbond badBlock s → ∀ i < n,
    s.badBlock (s.physical (offset + i) / s.blockSize) = false

/-- Nothing in the cache is dirty, or differs from the flash. -/
structure CleanCache (s : Qspi) : Prop where
  notDirty : ∀ p, s.dirty p = false
  same : ∀ a, s.inCache (a / s.blockSize) = true → s.pCacheDataBuffer a = s.flash a

/-- On a clean cache the cached read returns the same bytes. -/
def AgreesWithCache (badBlock : ℕ → Bool) (offset n : ℕ) : Prop :=
  ∀ s, Winbond badBlock s → s.CleanCache →
    (hssQspiReadBlock offset n s).map Prod.snd = (hssCachedQspiReadBlock offset n s).map Prod.snd

/-- The byte is in a block that is the physical block of its own number, and that the cached read
fetches. -/
def FetchedInPlace (s : Qspi) (offset n i : ℕ) : Prop :=
  s.pLogicalToPhysicalMap ((offset + i) / s.blockSize) = (offset + i) / s.blockSize ∧
    (offset + i) / s.blockSize ∈ s.fetched offset n

/-- The same flash with other contents. -/
def holding (s : Qspi) (flash cache : ℕ → BitVec 8) : Qspi :=
  { s with flash := flash, pCacheDataBuffer := cache }

@[simp] theorem holding_flash (flash cache : ℕ → BitVec 8) : (s.holding flash cache).flash = flash :=
  rfl

@[simp] theorem holding_cache (flash cache : ℕ → BitVec 8) :
    (s.holding flash cache).pCacheDataBuffer = cache := rfl

@[simp] theorem holding_physical (flash cache : ℕ → BitVec 8) (a : ℕ) :
    (s.holding flash cache).physical a = s.physical a := rfl

@[simp] theorem holding_blockSize (flash cache : ℕ → BitVec 8) :
    (s.holding flash cache).blockSize = s.blockSize := rfl

@[simp] theorem holding_fetched (flash cache : ℕ → BitVec 8) :
    (s.holding flash cache).fetched offset n = s.fetched offset n := rfl

theorem holding_clean (absent : ∀ p, s.pLogicalBlockDesc p = ⟨false, false⟩)
    (flash cache : ℕ → BitVec 8) : (s.holding flash cache).CleanCache := by
  refine ⟨fun p => congrArg QspiCacheDescriptor.dirtyCache (absent p), fun a present => ?_⟩
  have none : (s.holding flash cache).inCache (a / s.blockSize) = false :=
    congrArg QspiCacheDescriptor.inCache (absent _)
  exact absurd (none.symm.trans present) (by decide)

theorem Winbond.holding (winbond : Winbond badBlock s) (flash cache : ℕ → BitVec 8) :
    Winbond badBlock (s.holding flash cache) :=
  SameGeometry.trans winbond ⟨rfl, rfl, rfl, rfl, rfl, rfl, rfl⟩

theorem freshQspi_winbond (badBlock : ℕ → Bool) : Winbond badBlock (freshQspi badBlock) :=
  SameGeometry.refl _

theorem AccessesRange.byte (accesses : AccessesRange badBlock offset n)
    (winbond : Winbond badBlock s) (less : i < n) :
    s.flash (s.physical (offset + i)) = s.flash (s.physical offset + i) := by
  obtain ⟨-, -, bytes⟩ := winbond.hssQspiReadBlock_eq_ok.mp (accesses.read s winbond)
  exact List.map_inj_left.mp bytes i (List.mem_range.mpr less)

theorem accessesRange_iff (inside : offset + n ≤ (freshQspi badBlock).dieSize) :
    AccessesRange badBlock offset n ↔
      offset % pageLength = 0 ∧ (freshQspi badBlock).NoBadBlockInside offset n := by
  have fresh := freshQspi_winbond badBlock
  constructor
  · intro accesses
    refine ⟨(fresh.hssQspiReadBlock_eq_ok.mp (accesses.read _ fresh)).1,
      (fresh.successive_iff inside).mp fun i less => ?_⟩
    -- A flash with one byte that differs shows which byte is read.
    let mark : ℕ → BitVec 8 := fun a => if a = (freshQspi badBlock).physical offset + i then 1 else 0
    have here := accesses.byte (fresh.holding mark mark) less
    rw [holding_flash, holding_physical, holding_physical] at here
    by_contra other
    simp only [mark, if_neg other, if_pos] at here
    exact absurd here (by decide)
  · rintro ⟨aligned, good⟩
    have successive : ∀ s, Winbond badBlock s → ∀ i < n,
        s.physical (offset + i) = s.physical offset + i := by
      intro s winbond
      have inside' : offset + n ≤ s.dieSize := by
        rw [SameGeometry.dieSize winbond]
        exact inside
      refine (winbond.successive_iff inside').mpr fun i less p low high => ?_
      rw [SameGeometry.badBlock winbond]
      rw [SameGeometry.map winbond, SameGeometry.blockSize winbond] at low high
      exact good i less p low high
    refine ⟨fun s winbond => ?_, fun s winbond src length => ⟨fun i less => ?_, fun a other => ?_⟩,
      fun s winbond i less => ?_⟩
    · refine winbond.hssQspiReadBlock_eq_ok.mpr ⟨aligned, rfl, List.map_congr_left fun i present => ?_⟩
      rw [successive s winbond i (List.mem_range.mp present)]
    · rw [winbond.hssQspiWriteBlock_flash aligned, successive s winbond i less, length, if_pos (by omega),
        Nat.add_sub_cancel_left]
    · rw [winbond.hssQspiWriteBlock_flash aligned, if_neg]
      rintro ⟨low, high⟩
      rw [length] at high
      refine other (a - s.physical offset) (by omega) ?_
      rw [successive s winbond _ (by omega)]
      omega
    · have block := winbond.block (by rw [SameGeometry.dieSize winbond]; exact inside) less
      rw [winbond.blockSize, winbond.physical]
      have place : (s.pLogicalToPhysicalMap ((offset + i) / 131072) * 131072 +
          (offset + i) % 131072) / 131072 = s.pLogicalToPhysicalMap ((offset + i) / 131072) := by
        omega
      rw [place]
      exact winbond.built.mapped.good block

theorem hssCachedQspiReadBlock_clean (winbond : Winbond badBlock s) (clean : s.CleanCache)
    (inside : offset + n ≤ s.dieSize) :
    (hssCachedQspiReadBlock offset n s).map Prod.snd = .ok ((List.range n).map fun i =>
      if (offset + i) / s.blockSize ∈ s.fetched offset n then s.flash (offset + i)
      else s.pCacheDataBuffer (offset + i)) := by
  have fetch := winbond.built.mapped.demandCopyFlashBlocksToCache offset n false
  rw [hssCachedQspiReadBlock_eq_ok.mpr ⟨inside, rfl, rfl⟩]
  refine congrArg Except.ok (List.map_congr_left fun i _ => ?_)
  rw [fetch.cache]
  by_cases present : s.inCache ((offset + i) / s.blockSize) = true
  · rw [if_neg (by simp [present]), clean.same _ present, ite_self]
  · simp [present]

/-- Where the range is accessed as it should be, the cached read returns the same bytes exactly when
every byte is fetched in place. -/
theorem agreesWithCache_iff (inside : offset + n ≤ (freshQspi badBlock).dieSize)
    (accesses : AccessesRange badBlock offset n) :
    AgreesWithCache badBlock offset n ↔ ∀ i < n, (freshQspi badBlock).FetchedInPlace offset n i := by
  have fresh := freshQspi_winbond badBlock
  have bytes : ∀ s, Winbond badBlock s → s.CleanCache →
      ((hssQspiReadBlock offset n s).map Prod.snd = (hssCachedQspiReadBlock offset n s).map Prod.snd ↔
        ∀ i < n, s.flash (s.physical (offset + i)) =
          if (offset + i) / s.blockSize ∈ s.fetched offset n then s.flash (offset + i)
          else s.pCacheDataBuffer (offset + i)) := by
    intro s winbond clean
    rw [accesses.read s winbond, hssCachedQspiReadBlock_clean winbond clean
      (by rw [SameGeometry.dieSize winbond]; exact inside)]
    show Except.ok _ = Except.ok _ ↔ _
    rw [Except.ok.injEq, List.map_inj_left]
    simp only [List.mem_range]
  constructor
  · intro agrees i less
    have same := fun flash cache => (bytes _ (fresh.holding flash cache)
      (holding_clean (fun _ => rfl) flash cache)).mp
        (agrees _ (fresh.holding flash cache) (holding_clean (fun _ => rfl) flash cache)) i less
    simp only [holding_flash, holding_cache, holding_physical, holding_blockSize,
      holding_fetched] at same
    have fetched : (offset + i) / (freshQspi badBlock).blockSize ∈
        (freshQspi badBlock).fetched offset n := by
      by_contra notFetched
      have differ := same (fun _ => 0) fun _ => 1
      simp only [notFetched, if_false] at differ
      exact absurd differ (by decide)
    refine ⟨?_, fetched⟩
    have mark := same (fun a => if a = offset + i then 1 else 0) fun _ => 0
    simp only [fetched, if_true] at mark
    have here : (freshQspi badBlock).physical (offset + i) = offset + i := by
      by_contra other
      rw [if_neg other] at mark
      exact absurd mark (by decide)
    rw [fresh.physical] at here
    rw [fresh.blockSize]
    omega
  · intro inPlace s winbond clean
    refine (bytes s winbond clean).mpr fun i less => ?_
    obtain ⟨map, fetched⟩ := inPlace i less
    rw [← SameGeometry.blockSize winbond, ← SameGeometry.map winbond, winbond.blockSize] at map
    rw [← SameGeometry.blockSize winbond, ← winbond.fetched] at fetched
    rw [if_pos fetched, winbond.physical, map, Nat.div_add_mod']

end Qspi

open Qspi

/-- The uncached flash accesses the bytes of a range, each in the block of its own, exactly when the
range starts at a page and no bad block lies inside.  It agrees with the cached flash besides exactly
when every byte is in a block that the cached flash fetches in place. -/
theorem hssQspi_uncached_iff (badBlock : ℕ → Bool) {offset n : ℕ}
    (inside : offset + n ≤ (freshQspi badBlock).dieSize) :
    (AccessesRange badBlock offset n ↔
      offset % pageLength = 0 ∧ (freshQspi badBlock).NoBadBlockInside offset n) ∧
    (AccessesRange badBlock offset n ∧ AgreesWithCache badBlock offset n ↔
      offset % pageLength = 0 ∧ (freshQspi badBlock).NoBadBlockInside offset n ∧
        ∀ i < n, (freshQspi badBlock).FetchedInPlace offset n i) := by
  refine ⟨accessesRange_iff inside, ?_⟩
  constructor
  · rintro ⟨accesses, agrees⟩
    obtain ⟨aligned, good⟩ := (accessesRange_iff inside).mp accesses
    exact ⟨aligned, good, (agreesWithCache_iff inside accesses).mp agrees⟩
  · rintro ⟨aligned, good, inPlace⟩
    have accesses := (accessesRange_iff inside).mpr ⟨aligned, good⟩
    exact ⟨accesses, (agreesWithCache_iff inside accesses).mpr inPlace⟩

/-- Behind a bad block, a range over the end of a block is read as it should be, but the cached flash
fetches it to another place; in front of the bad block the two agree. -/
theorem hssQspi_uncached_overBlockEnd :
    (AccessesRange (· = 1) 0x3F000 0x2000 ∧ ¬ AgreesWithCache (· = 1) 0x3F000 0x2000) ∧
      AccessesRange (· = 5) 0 0x21000 ∧ AgreesWithCache (· = 5) 0 0x21000 := by
  constructor
  · have inside : 0x3F000 + 0x2000 ≤ (freshQspi (· = 1)).dieSize := by decide +kernel
    obtain ⟨accesses, agrees⟩ := hssQspi_uncached_iff (· = 1) inside
    have second : (freshQspi (· = 1)).pLogicalToPhysicalMap
        (0x3F000 / (freshQspi (· = 1)).blockSize) = 2 := by decide +kernel
    have reads := accesses.mpr ⟨by decide, fun i _ p low _ => decide_eq_false (by omega)⟩
    refine ⟨reads, fun same => ?_⟩
    have moved := ((agrees.mp ⟨reads, same⟩).2.2 0 (by decide)).1
    exact absurd moved (by decide +kernel)
  · have inside : 0 + 0x21000 ≤ (freshQspi (· = 5)).dieSize := by decide +kernel
    have size : (freshQspi (· = 5)).blockSize = 131072 := by decide +kernel
    have places : (freshQspi (· = 5)).pLogicalToPhysicalMap 0 = 0 ∧
        (freshQspi (· = 5)).pLogicalToPhysicalMap 1 = 1 := by decide +kernel
    have fetched : (freshQspi (· = 5)).fetched 0 0x21000 = [0, 1] := by decide +kernel
    have blocks : ∀ i < 0x21000, (0 + i) / 131072 = 0 ∨ (0 + i) / 131072 = 1 := by omega
    refine (hssQspi_uncached_iff (· = 5) inside).2.mpr
      ⟨by decide, fun i less p _ high => ?_, fun i less => ?_⟩
    · rw [size] at high
      have below : p ≤ 1 := by
        rcases blocks i less with here | here <;> rw [here] at high <;> omega
      exact decide_eq_false (by omega)
    · rw [FetchedInPlace, size, fetched]
      rcases blocks i less with here | here <;> rw [here]
      · exact ⟨places.1, by decide⟩
      · exact ⟨places.2, by decide⟩

/-- Where block 1 is bad, a range from block 0 over its end reads the bad block. -/
theorem hssQspi_uncached_not : ¬ ∀ (badBlock : ℕ → Bool) (offset n : ℕ),
    offset + n ≤ (freshQspi badBlock).dieSize →
      AccessesRange badBlock offset n ∧ AgreesWithCache badBlock offset n := by
  intro holds
  have inside : 0 + 131073 ≤ (freshQspi (· = 1)).dieSize := by decide +kernel
  have good := ((accessesRange_iff inside).mp (holds (· = 1) 0 131073 inside).1).2
  have low : (freshQspi (· = 1)).pLogicalToPhysicalMap (0 / (freshQspi (· = 1)).blockSize) ≤ 1 := by
    decide +kernel
  have high : 1 ≤ (freshQspi (· = 1)).pLogicalToPhysicalMap
      ((0 + 131072) / (freshQspi (· = 1)).blockSize) := by
    decide +kernel
  exact absurd (good 131072 (by decide) 1 low high) (by decide)

end Hss
