import Hss.Boot.Providers
import Hss.Lib.BlockStore

/-! Transfers of bytes from and to the MMC: the read, with a buffer for the rest of its last sector, and
the two writes, which round up to whole sectors. -/

namespace Hss

open ByteMemory BlockStore

/-! ### Writes -/

/-- What a write of the MMC came to so far: its result, unless it does not return, the bytes of the
disk, the number of transfers, and the addresses and lengths that were read in memory. -/
structure WriteOutcome where
  result : Option Bool
  disk : ℕ → BitVec 8
  writes : ℕ
  read : List (Word × ℕ)

/-- The bytes of the disk. -/
def Mmc.disk (d : Mmc) (a : ℕ) : BitVec 8 := d.sector (BitVec.ofNat 32 (a / 512)) (a % 512)

/-- The disk after a transfer to sector `dest` on, and what it read. -/
def Mmc.write (d : Mmc) (n : ℕ) (src : Word) (dest size : BitVec 32) (mem : Mem)
    (disk : ℕ → BitVec 8) : WriteOutcome :=
  ⟨d.status n, copyRange disk (fun i => mem (src + BitVec.ofNat 64 i)) (dest.toNat * 512) 0 (d.came n size),
    n + 1, [(src, d.came n size)]⟩

/-- `MSS_MMC_single_block_write` as transfer `n` -/
def mssMmcSingleBlockWrite (d : Mmc) (n : ℕ) (srcAddr : Word) (dstAddr : BitVec 32) (mem : Mem)
    (disk : ℕ → BitVec 8) : WriteOutcome :=
  d.write n srcAddr dstAddr 512 mem disk

/-- `MSS_MMC_sdma_write` as transfer `n`, and the wait for its end. -/
def mssMmcSdmaWrite (d : Mmc) (n : ℕ) (src : Word) (dest size : BitVec 32) (mem : Mem)
    (disk : ℕ → BitVec 8) : WriteOutcome :=
  if !sdmaTakes size || src = 0 then ⟨some false, disk, n, []⟩ else d.write n src dest size mem disk

/-- The number of bytes that is written.  The mask has 32 bits. -/
def roundedCount (byteCount : Word) : Word :=
  if byteCount &&& (mmcSectorSize - 1) ≠ 0 then
    (byteCount + mmcSectorSize) &&& (~~~(512 - 1 : BitVec 32)).setWidth 64
  else byteCount

/-- The loop of `HSS_MMC_WriteBlock`, with that many sectors to go. -/
def writeSectors (d : Mmc) (mem : Mem) :
    ℕ → ℕ → Word → BitVec 32 → (ℕ → BitVec 8) → WriteOutcome
  | 0, n, _, _, disk => ⟨some true, disk, n, []⟩
  | sectors + 1, n, pCSrc, dstSectorNum, disk =>
      let sector := mssMmcSingleBlockWrite d n pCSrc dstSectorNum mem disk
      if sector.result = some true then
        let rest := writeSectors d mem sectors sector.writes (pCSrc + mmcSectorSize) (dstSectorNum + 1)
          sector.disk
        { rest with read := sector.read ++ rest.read }
      else sector

section
variable (d : Mmc) (n : ℕ) (dstOffset pSrc byteCount : Word) (mem : Mem) (disk : ℕ → BitVec 8)

/-- `HSS_MMC_WriteBlock` from transfer `n` on.  Its assertions halt. -/
def hssMmcWriteBlock : WriteOutcome :=
  if dstOffset &&& (mmcSectorSize - 1) ≠ 0 ∨ pSrc &&& 3 ≠ 0 then
    ⟨none, disk, n, []⟩
  else
    writeSectors d mem ((roundedCount byteCount).toNat / 512) n pSrc
      ((dstOffset / mmcSectorSize).setWidth 32) disk

/-- `HSS_MMC_WriteBlockSDMA` from transfer `n` on, with no transfer before it in flight. -/
def hssMmcWriteBlockSdma : WriteOutcome :=
  if dstOffset &&& (mmcSectorSize - 1) ≠ 0 ∨ pSrc &&& 3 ≠ 0 then
    ⟨none, disk, n, []⟩
  else
    mssMmcSdmaWrite d n pSrc ((dstOffset / mmcSectorSize).setWidth 32)
      ((roundedCount byteCount).setWidth 32) mem disk

end

/-! ### Requests -/

/-- A buffer and a range of the disk, as the assertions ask for them.  The range ends with the last
sector that has a number of 32 bits. -/
structure MmcRequest where
  buffer : Word
  offset : Word
  byteCount : Word
  buffer_ne : buffer ≠ 0
  buffer_aligned : buffer &&& 3 = 0
  offset_aligned : offset &&& (mmcSectorSize - 1) = 0
  fits : offset.toNat + (byteCount.toNat + 511) / 512 * 512 ≤ 2 ^ 41

/-- The bytes of the sectors that a request has a part of. -/
def MmcRequest.rounded (r : MmcRequest) : ℕ := (r.byteCount.toNat + 511) / 512 * 512

/-- A read is true just when all succeeds, and then brings the bytes of the disk and changes nothing
else; nothing outside of the buffer is ever written. -/
structure ReadsExactly (d : Mmc) (n : ℕ) (mem : Mem) (r : MmcRequest) (succeeds : Prop) : Prop where
  result_iff : (hssMmcReadBlock d n r.buffer r.offset r.byteCount mem).result = some true ↔ succeeds
  brings : (hssMmcReadBlock d n r.buffer r.offset r.byteCount mem).result = some true →
    (hssMmcReadBlock d n r.buffer r.offset r.byteCount mem).mem =
      put mem r.buffer r.byteCount.toNat fun i => d.disk (r.offset.toNat + i)
  inside : ∀ w ∈ (hssMmcReadBlock d n r.buffer r.offset r.byteCount mem).written,
    span w.1 w.2 ⊆ span r.buffer r.byteCount.toNat

/-- A write is true just when all succeeds, and then the sectors of the request have the bytes from the
buffer on and no other sector is changed; nothing past those bytes is ever read. -/
structure WritesExactly (mem : Mem) (r : MmcRequest) (disk : ℕ → BitVec 8) (w : WriteOutcome)
    (succeeds : Prop) : Prop where
  result_iff : w.result = some true ↔ succeeds
  leaves : w.result = some true →
    w.disk = copyRange disk (fun i => mem (r.buffer + BitVec.ofNat 64 i)) r.offset.toNat 0 r.rounded
  inside : ∀ s ∈ w.read, span s.1 s.2 ⊆ span r.buffer r.rounded

/-! ### Rounding -/

theorem and_sectorMask (x : Word) : (x &&& (mmcSectorSize - 1)).toNat = x.toNat % 512 := by
  rw [BitVec.toNat_and]
  exact Nat.and_two_pow_sub_one_eq_mod x.toNat 9

theorem and_sectorMask_eq_zero_iff {x : Word} : x &&& (mmcSectorSize - 1) = 0 ↔ x.toNat % 512 = 0 := by
  rw [BitVec.toNat_eq, and_sectorMask]
  rfl

theorem firstSector_toNat {offset : Word} (fits : offset.toNat < 2 ^ 41) :
    (firstSector offset).toNat = offset.toNat / 512 := by
  have quotient : (offset / mmcSectorSize).toNat = offset.toNat / 512 := BitVec.toNat_udiv
  rw [firstSector, BitVec.toNat_setWidth, quotient, Nat.mod_eq_of_lt (by omega)]

/-- A count that is no multiple of the sector's size keeps the 32 bits of the mask alone. -/
theorem roundedCount_toNat {byteCount : Word}
    (kept : byteCount.toNat % 512 = 0 ∨ (byteCount.toNat + 511) / 512 * 512 < 2 ^ 32) :
    (roundedCount byteCount).toNat = (byteCount.toNat + 511) / 512 * 512 := by
  have size : mmcSectorSize.toNat = 512 := rfl
  by_cases whole : byteCount &&& (mmcSectorSize - 1) = 0
  · rw [roundedCount, if_neg (not_not.mpr whole)]
    have multiple := and_sectorMask_eq_zero_iff.mp whole
    omega
  · have odd := mt and_sectorMask_eq_zero_iff.mpr whole
    have small := kept.resolve_left odd
    have sum : (byteCount + mmcSectorSize).toNat = byteCount.toNat + 512 := by
      rw [BitVec.toNat_add, size]
      exact Nat.mod_eq_of_lt (by omega)
    have mask : ((~~~(512 - 1 : BitVec 32)).setWidth 64).toNat = (2 ^ 23 - 1) <<< 9 := by decide
    rw [roundedCount, if_pos whole, BitVec.toNat_and, sum, mask, and_shiftLeft_mask]
    omega

/-! ### The loop over the sectors -/

section
variable {d : Mmc} {mem : Mem}

theorem came_of_success {n : ℕ} (size : BitVec 32) (success : d.status n = some true) :
    d.came n size = size.toNat := if_pos success

/-- What the loop reads is what is to be written. -/
theorem writeSectors_inside (sectors n : ℕ) (src : Word) (dst : BitVec 32) (disk : ℕ → BitVec 8) :
    ∀ s ∈ (writeSectors d mem sectors n src dst disk).read, span s.1 s.2 ⊆ span src (sectors * 512) := by
  induction sectors generalizing n src dst disk with
  | zero => exact List.forall_mem_nil _
  | succ sectors ih =>
    have first : span src (d.came n 512) ⊆ span src ((sectors + 1) * 512) := by
      have le : d.came n 512 ≤ 512 := d.came_le n 512
      exact span_mono (by omega)
    have rest : span (src + mmcSectorSize) (sectors * 512) ⊆ span src ((sectors + 1) * 512) := by
      have offset : src + mmcSectorSize = src + BitVec.ofNat 64 512 := rfl
      rw [offset]
      exact span_offset_subset (by omega)
    intro s read
    rw [writeSectors] at read
    split at read
    · rcases List.mem_append.mp read with sector | later
      · rw [List.mem_singleton.mp sector]
        exact first
      · exact (ih _ _ _ _ s later).trans rest
    · rw [List.mem_singleton.mp read]
      exact first

theorem writeSectors_success {sectors n : ℕ} (success : d.status n = some true) (src : Word)
    (dst : BitVec 32) (disk : ℕ → BitVec 8) :
    writeSectors d mem (sectors + 1) n src dst disk =
      let rest := writeSectors d mem sectors (n + 1) (src + mmcSectorSize) (dst + 1)
        (copyRange disk (fun i => mem (src + BitVec.ofNat 64 i)) (dst.toNat * 512) 0 512)
      { rest with read := (src, 512) :: rest.read } := by
  have came : d.came n 512 = 512 := came_of_success 512 success
  have result : (mssMmcSingleBlockWrite d n src dst mem disk).result = some true := success
  rw [writeSectors, if_pos result, mssMmcSingleBlockWrite, Mmc.write, came]
  rfl

/-- The loop goes to its end just when each of its transfers succeeds. -/
theorem writeSectors_result_iff (d : Mmc) (mem : Mem) (sectors n : ℕ) (src : Word) (dst : BitVec 32)
    (disk : ℕ → BitVec 8) : (writeSectors d mem sectors n src dst disk).result = some true ↔
      ∀ k < sectors, d.status (n + k) = some true := by
  induction sectors generalizing n src dst disk with
  | zero => exact iff_of_true rfl nofun
  | succ sectors ih =>
    by_cases success : d.status n = some true
    · rw [writeSectors_success success]
      refine (ih (n + 1) _ _ _).trans ⟨fun rest k less => ?_, fun all k less => ?_⟩
      · cases k with
        | zero => exact success
        | succ k => simpa only [Nat.add_assoc, Nat.add_comm 1] using rest k (by omega)
      · simpa only [Nat.add_assoc, Nat.add_comm 1] using all (k + 1) (by omega)
    · have failure : (mssMmcSingleBlockWrite d n src dst mem disk).result ≠ some true := success
      rw [writeSectors, if_neg failure]
      exact iff_of_false failure fun all => success (all 0 (by omega))

/-- One sector after the other comes to all of them at once, below the last number of 32 bits. -/
theorem writeSectors_disk {sectors n : ℕ} {src : Word} {dst : BitVec 32} {disk : ℕ → BitVec 8}
    (fits : dst.toNat + sectors ≤ 2 ^ 32) (success : ∀ k < sectors, d.status (n + k) = some true) :
    (writeSectors d mem sectors n src dst disk).disk =
      copyRange disk (fun i => mem (src + BitVec.ofNat 64 i)) (dst.toNat * 512) 0 (sectors * 512) := by
  induction sectors generalizing n src dst disk with
  | zero =>
    funext a
    rw [copyRange_of_notMem (by omega)]
    rfl
  | succ sectors ih =>
    have now : d.status n = some true := success 0 (by omega)
    rw [writeSectors_success now]
    rcases Nat.eq_zero_or_pos sectors with rfl | more
    · rfl
    have later : ∀ k < sectors, d.status (n + 1 + k) = some true := fun k less => by
      simpa only [Nat.add_assoc, Nat.add_comm 1] using success (k + 1) (by omega)
    have following : (dst + 1).toNat = dst.toNat + 1 := by
      rw [BitVec.toNat_add]
      exact Nat.mod_eq_of_lt (show dst.toNat + 1 < 2 ^ 32 by omega)
    have shift : (fun i => mem (src + mmcSectorSize + BitVec.ofNat 64 i)) =
        fun i => mem (src + BitVec.ofNat 64 (512 + i)) := by
      funext i
      rw [BitVec.ofNat_add, ← add_assoc]
      rfl
    refine (ih (by omega) later).trans ?_
    have start : (dst.toNat + 1) * 512 = dst.toNat * 512 + 512 := Nat.succ_mul ..
    have length : (sectors + 1) * 512 = 512 + sectors * 512 := by rw [Nat.succ_mul, Nat.add_comm]
    rw [following, shift, start, length]
    exact copyRange_append

end

/-! ### Requests, one after the other -/

section
variable (d : Mmc) (n : ℕ) (mem : Mem) (r : MmcRequest) (disk : ℕ → BitVec 8)

theorem MmcRequest.offset_mod : r.offset.toNat % 512 = 0 := and_sectorMask_eq_zero_iff.mp r.offset_aligned

theorem MmcRequest.asserts : ¬(r.offset &&& (mmcSectorSize - 1) ≠ 0 ∨ r.buffer &&& 3 ≠ 0) := by
  rintro (unaligned | unaligned)
  · exact unaligned r.offset_aligned
  · exact unaligned r.buffer_aligned

/-- A request that has a byte starts below the last sector number of 32 bits. -/
theorem MmcRequest.firstSector_toNat (present : 0 < r.rounded) :
    (firstSector r.offset).toNat = r.offset.toNat / 512 := by
  have fits := r.fits
  rw [MmcRequest.rounded] at present
  exact Hss.firstSector_toNat (by omega)

theorem hssMmcWriteBlock_writes (kept : r.byteCount.toNat % 512 = 0 ∨ r.rounded < 2 ^ 32) :
    WritesExactly mem r disk (hssMmcWriteBlock d n r.offset r.buffer r.byteCount mem disk)
      (∀ k < r.rounded / 512, d.status (n + k) = some true) := by
  have fits := r.fits
  have aligned := r.offset_mod
  have whole : r.rounded % 512 = 0 := Nat.mul_mod_left ..
  have length : (roundedCount r.byteCount).toNat = r.rounded := roundedCount_toNat kept
  have block : hssMmcWriteBlock d n r.offset r.buffer r.byteCount mem disk =
      writeSectors d mem (r.rounded / 512) n r.buffer (firstSector r.offset) disk := by
    rw [hssMmcWriteBlock, if_neg r.asserts, length]
    rfl
  have result := writeSectors_result_iff d mem (r.rounded / 512) n r.buffer
    (firstSector r.offset) disk
  rw [block]
  refine ⟨result, fun success => ?_, fun s read => ?_⟩
  · rcases Nat.eq_zero_or_pos r.rounded with none | present
    · rw [none]
      funext a
      rw [copyRange_of_notMem (by omega)]
      rfl
    · have first := r.firstSector_toNat present
      have room : (firstSector r.offset).toNat + r.rounded / 512 ≤ 2 ^ 32 := by
        change r.offset.toNat + r.rounded ≤ 2 ^ 41 at fits
        omega
      rw [writeSectors_disk room (result.mp success), first, Nat.div_mul_cancel (Nat.dvd_of_mod_eq_zero aligned),
        Nat.div_mul_cancel (Nat.dvd_of_mod_eq_zero whole)]
  · have inside := writeSectors_inside _ _ _ _ _ s read
    rwa [Nat.div_mul_cancel (Nat.dvd_of_mod_eq_zero whole)] at inside

theorem sdmaTakes_iff {size : BitVec 32} (present : 0 < size.toNat) (whole : size.toNat % 512 = 0) :
    sdmaTakes size = true ↔ size.toNat < 0x02000000 := by
  have multiple : size % 512 = 0 := by
    apply BitVec.eq_of_toNat_eq
    rw [BitVec.toNat_umod]
    exact whole
  have nonzero : size ≠ 0 := by
    rintro rfl
    exact absurd present (by decide)
  have limit : (0x02000000 - 512 : BitVec 32).toNat = 0x02000000 - 512 := by decide
  rw [sdmaTakes, decide_eq_true multiple, decide_eq_true nonzero, Bool.true_and, Bool.and_true,
    decide_eq_true_eq, BitVec.le_def, limit]
  omega

theorem hssMmcWriteBlockSdma_writes (present : 0 < r.rounded) (small : r.rounded < 2 ^ 32) :
    WritesExactly mem r disk (hssMmcWriteBlockSdma d n r.offset r.buffer r.byteCount mem disk)
      (r.rounded < 0x02000000 ∧ d.status n = some true) := by
  have aligned := r.offset_mod
  have whole : r.rounded % 512 = 0 := Nat.mul_mod_left ..
  have first := r.firstSector_toNat present
  have length : ((roundedCount r.byteCount).setWidth 32).toNat = r.rounded := by
    rw [BitVec.toNat_setWidth, roundedCount_toNat (.inr small)]
    exact Nat.mod_eq_of_lt small
  have takes := sdmaTakes_iff (by rw [length]; exact present) (by rw [length]; exact whole)
  rw [length] at takes
  have block : hssMmcWriteBlockSdma d n r.offset r.buffer r.byteCount mem disk =
      mssMmcSdmaWrite d n r.buffer (firstSector r.offset) ((roundedCount r.byteCount).setWidth 32) mem
        disk := by
    rw [hssMmcWriteBlockSdma, if_neg r.asserts]
    rfl
  rw [block, mssMmcSdmaWrite]
  by_cases taken : sdmaTakes ((roundedCount r.byteCount).setWidth 32) = true
  · have proceeds : ¬(!sdmaTakes ((roundedCount r.byteCount).setWidth 32) || decide (r.buffer = 0)) = true := by
      rw [taken, decide_eq_false r.buffer_ne]
      decide
    rw [if_neg proceeds]
    refine ⟨(and_iff_right (takes.mp taken)).symm, fun success => ?_, fun s read => ?_⟩
    · rw [Mmc.write, came_of_success _ success, length, first,
        Nat.div_mul_cancel (Nat.dvd_of_mod_eq_zero aligned)]
    · rw [List.mem_singleton.mp read]
      have le := d.came_le n ((roundedCount r.byteCount).setWidth 32)
      rw [length] at le
      exact span_mono le
  · have refused : (!sdmaTakes ((roundedCount r.byteCount).setWidth 32) || decide (r.buffer = 0)) = true := by
      rw [Bool.eq_false_iff.mpr taken]
      rfl
    rw [if_pos refused]
    refine ⟨iff_of_false nofun fun h => taken (takes.mpr h.1), nofun, List.forall_mem_nil _⟩

/-- What a transfer brings is what the disk has. -/
theorem content_eq_disk (sectors : ℕ) (src : BitVec 32)
    (place : src = BitVec.ofNat 32 (r.offset.toNat / 512 + sectors)) (i : ℕ) :
    d.content src i = d.disk (r.offset.toNat + (sectors * 512 + i)) := by
  have aligned := r.offset_mod
  have block : (r.offset.toNat + (sectors * 512 + i)) / 512 = r.offset.toNat / 512 + sectors + i / 512 := by
    omega
  have byte : (r.offset.toNat + (sectors * 512 + i)) % 512 = i % 512 := by omega
  rw [Mmc.content, Mmc.disk, block, byte, place, ← BitVec.ofNat_add]

theorem firstSector_eq (offset : Word) : firstSector offset = BitVec.ofNat 32 (offset.toNat / 512) := by
  have quotient : (offset / mmcSectorSize).toNat = offset.toNat / 512 := BitVec.toNat_udiv
  apply BitVec.eq_of_toNat_eq
  rw [firstSector, BitVec.toNat_setWidth, quotient, BitVec.toNat_ofNat]

theorem wholeSectors_of_lt {byteCount : Word} (small : byteCount.toNat < 2 ^ 32) :
    (wholeSectors byteCount).toNat = byteCount.toNat / 512 * 512 := by
  rw [wholeSectors_toNat]
  exact Nat.mod_eq_of_lt (by omega)

/-- The sector that the rest is read from. -/
theorem runtSector_eq (offset : Word) {byteCount : Word} (small : byteCount.toNat < 2 ^ 32) :
    firstSector offset + wholeSectors byteCount / 512 =
      BitVec.ofNat 32 (offset.toNat / 512 + byteCount.toNat / 512) := by
  have sectors : wholeSectors byteCount / 512 = BitVec.ofNat 32 (byteCount.toNat / 512) := by
    apply BitVec.eq_of_toNat_eq
    rw [BitVec.toNat_udiv, wholeSectors_of_lt small, BitVec.toNat_ofNat]
    change byteCount.toNat / 512 * 512 / 512 = _
    omega
  rw [firstSector_eq, sectors, BitVec.ofNat_add]

/-- The rest comes behind the whole sectors. -/
theorem mmcReadRunt_mem (small : r.byteCount.toNat < 2 ^ 32) (written : List (Word × ℕ))
    (success : d.status (n + 1) = some true) :
    (mmcReadRunt d (firstSector r.offset + wholeSectors r.byteCount / 512)
      (r.buffer + (wholeSectors r.byteCount).setWidth 64)
      (r.byteCount - (wholeSectors r.byteCount).setWidth 64)
      ⟨some true, put mem r.buffer (wholeSectors r.byteCount).toNat fun i => d.disk (r.offset.toNat + i),
        n + 1, written⟩).mem =
      put mem r.buffer r.byteCount.toNat fun i => d.disk (r.offset.toNat + i) := by
  have whole := wholeSectors_of_lt small
  have le := wholeSectors_le r.byteCount
  have comes : d.content (firstSector r.offset + wholeSectors r.byteCount / 512) =
      fun i => d.disk (r.offset.toNat + ((wholeSectors r.byteCount).toNat + i)) := by
    funext i
    rw [content_eq_disk d r (r.byteCount.toNat / 512) _ (runtSector_eq r.offset small), whole]
  have behind : (wholeSectors r.byteCount).setWidth 64 =
      BitVec.ofNat 64 (wholeSectors r.byteCount).toNat := by rw [BitVec.ofNat_toNat]
  have size := r.byteCount.isLt
  rw [mmcReadRunt_comes success]
  dsimp only
  rw [comes, rest_toNat, behind]
  refine (put_put ?_).trans ?_
  · omega
  · rw [Nat.add_sub_cancel' le]

theorem hssMmcReadBlock_reads (enough : 512 ≤ r.byteCount.toNat) (small : r.byteCount.toNat < 2 ^ 32) :
    ReadsExactly d n mem r (r.byteCount.toNat < 0x02000000 ∧ d.status n = some true ∧
      (r.byteCount.toNat % 512 ≠ 0 → d.status (n + 1) = some true)) := by
  have whole := wholeSectors_of_lt small
  have rest : (r.byteCount - (wholeSectors r.byteCount).setWidth 64).toNat = r.byteCount.toNat % 512 := by
    rw [rest_toNat, whole]
    omega
  have rest_ne : r.byteCount - (wholeSectors r.byteCount).setWidth 64 ≠ 0 ↔ r.byteCount.toNat % 512 ≠ 0 := by
    rw [Ne, BitVec.toNat_eq, rest]
    rfl
  have less : r.byteCount - (wholeSectors r.byteCount).setWidth 64 < mmcSectorSize := by
    rw [BitVec.lt_def, rest]
    exact Nat.mod_lt _ (by omega)
  have present : 0 < (wholeSectors r.byteCount).toNat := by omega
  have takes := sdmaTakes_iff present (by omega)
  have limit : (wholeSectors r.byteCount).toNat < 0x02000000 ↔ r.byteCount.toNat < 0x02000000 := by omega
  suffices exact : ((hssMmcReadBlock d n r.buffer r.offset r.byteCount mem).result = some true ↔
      r.byteCount.toNat < 0x02000000 ∧ d.status n = some true ∧
        (r.byteCount.toNat % 512 ≠ 0 → d.status (n + 1) = some true)) ∧
      ((hssMmcReadBlock d n r.buffer r.offset r.byteCount mem).result = some true →
        (hssMmcReadBlock d n r.buffer r.offset r.byteCount mem).mem =
          put mem r.buffer r.byteCount.toNat fun i => d.disk (r.offset.toNat + i)) from
    ⟨exact.1, exact.2, hssMmcReadBlock_inside⟩
  rw [hssMmcReadBlock_eq r.offset_aligned r.buffer_aligned]
  by_cases taken : sdmaTakes (wholeSectors r.byteCount) = true
  swap
  · -- the driver refuses the size
    have failed : ¬(some false = some true ∧
        r.byteCount - (wholeSectors r.byteCount).setWidth 64 ≠ 0) := fun h => nomatch h.1
    rw [mssMmcSdmaRead_refused (Bool.eq_false_iff.mpr taken)]
    dsimp only
    rw [if_neg failed]
    exact ⟨iff_of_false nofun fun h => taken (takes.mpr (limit.mpr h.1)), nofun⟩
  have fits := limit.mp (takes.mp taken)
  rw [mssMmcSdmaRead_taken n (firstSector r.offset) mem taken r.buffer_ne]
  dsimp only
  by_cases success : d.status n = some true
  swap
  · rw [if_neg fun h => success h.1]
    exact ⟨iff_of_false success fun h => success h.2.1, fun h => absurd h success⟩
  have bytes : d.content (firstSector r.offset) = fun i => d.disk (r.offset.toNat + i) := by
    funext i
    simpa using content_eq_disk d r 0 (firstSector r.offset) (firstSector_eq r.offset) i
  rw [came_of_success _ success, bytes, success]
  by_cases odd : r.byteCount.toNat % 512 ≠ 0
  · rw [if_pos ⟨rfl, rest_ne.mpr odd⟩, if_pos less, mmcReadRunt_result]
    refine ⟨⟨fun later => ⟨fits, rfl, fun _ => later⟩, fun h => h.2.2 odd⟩, fun later => ?_⟩
    exact mmcReadRunt_mem d n mem r small _ later
  · have even := not_not.mp odd
    have all : (wholeSectors r.byteCount).toNat = r.byteCount.toNat := by omega
    rw [if_neg fun h => odd (rest_ne.mp h.2), all]
    exact ⟨⟨fun _ => ⟨fits, rfl, fun h => absurd even h⟩, fun _ => rfl⟩, fun _ => rfl⟩

end

/-- The read and the two writes of a request: the sectors that it has a part of, and the rest of its
last sector from behind the buffer, for all counts that keep to 32 bits where the code has no more. -/
theorem mmcTransfers_exact (d : Mmc) (n : ℕ) (mem : Mem) (r : MmcRequest) (disk : ℕ → BitVec 8) :
    (512 ≤ r.byteCount.toNat → r.byteCount.toNat < 2 ^ 32 →
      ReadsExactly d n mem r (r.byteCount.toNat < 0x02000000 ∧ d.status n = some true ∧
        (r.byteCount.toNat % 512 ≠ 0 → d.status (n + 1) = some true))) ∧
    (r.byteCount.toNat % 512 = 0 ∨ r.rounded < 2 ^ 32 →
      WritesExactly mem r disk (hssMmcWriteBlock d n r.offset r.buffer r.byteCount mem disk)
        (∀ k < r.rounded / 512, d.status (n + k) = some true)) ∧
    (0 < r.rounded → r.rounded < 2 ^ 32 →
      WritesExactly mem r disk (hssMmcWriteBlockSdma d n r.offset r.buffer r.byteCount mem disk)
        (r.rounded < 0x02000000 ∧ d.status n = some true)) ∧
    (0 < r.rounded → r.rounded < 2 ^ 32 → ∀ n',
      (hssMmcWriteBlock d n r.offset r.buffer r.byteCount mem disk).result = some true →
      (hssMmcWriteBlockSdma d n' r.offset r.buffer r.byteCount mem disk).result = some true →
      (hssMmcWriteBlock d n r.offset r.buffer r.byteCount mem disk).disk =
        (hssMmcWriteBlockSdma d n' r.offset r.buffer r.byteCount mem disk).disk) := by
  refine ⟨hssMmcReadBlock_reads d n mem r, hssMmcWriteBlock_writes d n mem r disk,
    hssMmcWriteBlockSdma_writes d n mem r disk, fun present small n' one other => ?_⟩
  have first := hssMmcWriteBlock_writes d n mem r disk (.inr small)
  have second := hssMmcWriteBlockSdma_writes d n' mem r disk present small
  rw [first.leaves one, second.leaves other]

/-- A request for one byte reads the 511 bytes behind it, too, and writes them to the disk. -/
theorem mmcWrite_readsPast : ¬∀ (d : Mmc) (n : ℕ) (mem : Mem) (r : MmcRequest) (disk : ℕ → BitVec 8),
    (hssMmcWriteBlock d n r.offset r.buffer r.byteCount mem disk).result = some true →
      ∀ s ∈ (hssMmcWriteBlock d n r.offset r.buffer r.byteCount mem disk).read,
        span s.1 s.2 ⊆ span r.buffer r.byteCount.toNat := by
  intro all
  let d : Mmc := ⟨fun _ _ => 0, fun _ => some true, fun _ => 0⟩
  let r : MmcRequest := ⟨0x80000000, 0, 1, by decide, by decide, by decide, by decide⟩
  have read : (0x80000000, 512) ∈
      (hssMmcWriteBlock d 0 r.offset r.buffer r.byteCount (fun _ => 0) fun _ => 0).read := by decide
  have comes : (hssMmcWriteBlock d 0 r.offset r.buffer r.byteCount (fun _ => 0) fun _ => 0).result =
      some true := by decide
  have inside := all d 0 (fun _ => 0) r (fun _ => 0) comes (0x80000000, 512) read
  have fits : 512 ≤ 1 := (span_subset_span_iff (by decide)).mp inside
  exact absurd fits (by decide)

end Hss
