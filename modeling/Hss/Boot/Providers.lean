import Hss.Boot.FpgaFlash
import Hss.Boot.Init

/-! The storage providers that fetch a boot image: its header into the static structure `bootImage`,
then the whole of it, as long as the header says, to the DDR. -/

namespace Hss

open ByteMemory

/-! ### Devices -/

/-- The MMC: the bytes of its sectors, and for each of the transfers from it how it ends, if it does,
and how much a transfer that fails brings. -/
structure Mmc where
  sector : BitVec 32 → ℕ → BitVec 8
  status : ℕ → Option Bool
  delivers : ℕ → ℕ

/-- Byte `i` from sector `src` on. -/
def Mmc.content (d : Mmc) (src : BitVec 32) (i : ℕ) : BitVec 8 :=
  d.sector (src + BitVec.ofNat 32 (i / 512)) (i % 512)

/-- `HSS_MMC_SECTOR_SIZE` -/
def mmcSectorSize : Word := 512

/-- A size that `MSS_MMC_sdma_read` takes: whole blocks, not none, and less than 32 MB. -/
def sdmaTakes (size : BitVec 32) : Bool :=
  size % 512 = 0 && size ≤ 0x02000000 - 512 && size ≠ 0

/-- The number of bytes that transfer `n` of `size` bytes brings. -/
def Mmc.came (d : Mmc) (n : ℕ) (size : BitVec 32) : ℕ :=
  if d.status n = some true then size.toNat else min (d.delivers n) size.toNat

/-- `MSS_MMC_sdma_read` as transfer `n`, and the wait for its end. -/
def mssMmcSdmaRead (d : Mmc) (n : ℕ) (src : BitVec 32) (dest : Word) (size : BitVec 32) (mem : Mem) :
    ReadOutcome :=
  if !sdmaTakes size || dest = 0 then
    ⟨some false, mem, n, []⟩
  else
    ⟨d.status n, put mem dest (d.came n size) (d.content src), n + 1, [(dest, d.came n size)]⟩

/-- What is left of a read after its whole sectors: it comes through a buffer of one sector. -/
def mmcReadRunt (d : Mmc) (srcSectorNum : BitVec 32) (pDest byteCount : Word)
    (sectors : ReadOutcome) : ReadOutcome :=
  match d.status sectors.reads with
  | some true =>
    { sectors with
      result := some true
      mem := put sectors.mem pDest byteCount.toNat (d.content srcSectorNum)
      reads := sectors.reads + 1
      written := (pDest, byteCount.toNat) :: sectors.written }
  | status => { sectors with result := status, reads := sectors.reads + 1 }

/-- `HSS_MMC_ReadBlock` from transfer `n` on.  Its assertions halt. -/
def hssMmcReadBlock (d : Mmc) (n : ℕ) (pDest srcOffset byteCount : Word) (mem : Mem) :
    ReadOutcome :=
  if srcOffset &&& (mmcSectorSize - 1) ≠ 0 ∨ pDest &&& 3 ≠ 0 then
    ⟨none, mem, n, []⟩
  else
    let srcSectorNum := (srcOffset / mmcSectorSize).setWidth 32
    let sectorByteCount := (byteCount - byteCount % mmcSectorSize).setWidth 32
    let sectors := mssMmcSdmaRead d n srcSectorNum pDest sectorByteCount mem
    let byteCount := byteCount - sectorByteCount.setWidth 64
    if sectors.result = some true ∧ byteCount ≠ 0 then
      if byteCount < mmcSectorSize then
        mmcReadRunt d (srcSectorNum + sectorByteCount / 512) (pDest + sectorByteCount.setWidth 64)
          byteCount sectors
      else
        { sectors with result := none }
    else
      sectors

/-- The QSPI flash: its content, from the start of its logical blocks, and how much each of the reads
from it brings. -/
structure QspiFlash where
  content : ℕ → BitVec 8
  delivers : ℕ → ℕ

/-- `HSS_QSPI_ReadBlock` as read `n`.  What `Flash_read` returns is not looked at. -/
def hssQspiReadBlock (d : QspiFlash) (n : ℕ) (pDest srcOffset byteCount : Word) (mem : Mem) :
    ReadOutcome :=
  let came := min (d.delivers n) (byteCount.setWidth 32).toNat
  ⟨some true, put mem pDest came fun i => d.content ((srcOffset.setWidth 32).toNat + i), n + 1,
    [(pDest, came)]⟩

/-! ### Providers -/

/-- `HSS_Boot_VerifyMagic` -/
def hssBootVerifyMagic (mem : Mem) (pImage : Word) : Bool :=
  BootImage.magic mem pImage = bootMagic || BootImage.magic mem pImage = compressedMagic

/-- What a provider came to so far, as for a read, and the image pointer, which is null before. -/
structure FetchOutcome extends ReadOutcome where
  pBootImage : Word

/-- Where the boot image goes: `bootImage` is for its header, and the `size` bytes from
`CONFIG_SERVICE_BOOT_DDR_TARGET_ADDR` on are for all of it. -/
structure BootLayout extends InitConfig where
  bootImage : Word
  size : ℕ
  bootImage_ne : bootImage ≠ 0
  bootImage_fits : bootImage.toNat + BootImage.sizeOf ≤ 2 ^ 64
  bootImage_aligned : bootImage &&& 3 = 0
  ddrTargetAddr_aligned : ddrTargetAddr &&& 3 = 0
  size_fits : ddrTargetAddr.toNat + size ≤ 2 ^ 64
  /-- The header is not right behind the region. -/
  apart : ddrTargetAddr + BitVec.ofNat 64 size ∉ span bootImage BootImage.sizeOf

section
variable (lay : BootLayout)

/-- `copyBootImageToDDR_` -/
def copyBootImageToDdr (n : ℕ) (pDest srcOffset : Word)
    (pCopyFunction : ℕ → Word → Word → Word → Mem → ReadOutcome) (mem : Mem) : ReadOutcome :=
  pCopyFunction n pDest srcOffset (BootImage.bootImageLength mem lay.bootImage) mem

/-- The part that two of the providers share, over `readBlock` of their device. -/
def fetchBootImage (readBlock : ℕ → Word → Word → Word → Mem → ReadOutcome) (srcOffset : Word)
    (n : ℕ) (mem : Mem) : FetchOutcome :=
  let header := readBlock n lay.bootImage srcOffset (BitVec.ofNat 64 BootImage.sizeOf) mem
  if header.result = some true then
    if hssBootVerifyMagic header.mem lay.bootImage then
      let image := copyBootImageToDdr lay header.reads lay.ddrTargetAddr srcOffset readBlock header.mem
      { image with written := image.written ++ header.written, pBootImage := lay.ddrTargetAddr }
    else
      { header with result := some false, pBootImage := 0 }
  else
    { header with pBootImage := 0 }

/-- `getBootImageFromMMC_` after the partition is found, which is at `srcOffset`. -/
def getBootImageFromMmc (d : Mmc) (srcOffset : Word) (n : ℕ) (mem : Mem) : FetchOutcome :=
  fetchBootImage lay (hssMmcReadBlock d) srcOffset n mem

/-- `getBootImageFromQSPI_` -/
def getBootImageFromQspi (d : QspiFlash) (n : ℕ) (mem : Mem) : FetchOutcome :=
  fetchBootImage lay (hssQspiReadBlock d) 0 n mem

/-- `getBootImageFromFPGAQSPI_` when each loop is given `turns` turns.  When the second read fails it
leaves the image pointer. -/
def getBootImageFromFpgaQspi (d : FpgaFlash) (turns n : ℕ) (mem : Mem) : FetchOutcome :=
  let header := fpgaFlashRead d turns n lay.bootImage 0 (BitVec.ofNat 64 BootImage.sizeOf) mem
  if header.result = some true then
    if hssBootVerifyMagic header.mem lay.bootImage then
      let len := BootImage.bootImageLength header.mem lay.bootImage
      let image := fpgaFlashRead d turns header.reads lay.ddrTargetAddr 0 len header.mem
      { image with
        written := image.written ++ header.written
        pBootImage := if image.result = some true then lay.ddrTargetAddr else 0 }
    else
      { header with result := some false, pBootImage := 0 }
  else
    { header with pBootImage := 0 }

end

/-- What the caller of a provider gets, when it returns. -/
def FetchOutcome.returned (fetched : FetchOutcome) : Option BootImageResult :=
  fetched.result.map fun result => ⟨result, fetched.pBootImage, fetched.mem⟩

/-! ### What is written -/

/-- A write in the header structure or in the region. -/
def BootLayout.Allows (lay : BootLayout) (w : Word × ℕ) : Prop :=
  span w.1 w.2 ⊆ span lay.bootImage BootImage.sizeOf ∪ span lay.ddrTargetAddr lay.size

/-- A provider writes to the header structure and to the region only, and a header, as it was read,
whose length is past the region makes the provider fail. -/
structure StaysInTarget (lay : BootLayout) (header fetched : ReadOutcome) : Prop where
  inside : ∀ w ∈ fetched.written, lay.Allows w
  reports : header.result = some true →
    lay.size < (BootImage.bootImageLength header.mem lay.bootImage).toNat →
    fetched.result = some false

/-- The bytes of a device as a memory, from `base` on. -/
def deviceMem (content : ℕ → BitVec 8) (base : ℕ) : Mem := fun a => content (base + a.toNat)

variable {lay : BootLayout} {content : ℕ → BitVec 8} {base : ℕ} {mem : Mem} {p : Word}

/-- Bytes that were read are those on the device. -/
theorem loadLE_of_device {size k n : ℕ}
    (same : ∀ i < size, mem (p + BitVec.ofNat 64 i) = content (base + i)) (inside : k + n ≤ size)
    (fits : size ≤ 2 ^ 64) :
    loadLE mem (p + BitVec.ofNat 64 k) n = loadLE (deviceMem content base) (BitVec.ofNat 64 k) n := by
  refine loadLE_eq fun i less => ?_
  rw [BitVec.add_assoc, ← BitVec.ofNat_add, same (k + i) (by omega), deviceMem, BitVec.toNat_ofNat,
    Nat.mod_eq_of_lt (by omega)]

theorem magic_of_device
    (same : ∀ i < BootImage.sizeOf, mem (p + BitVec.ofNat 64 i) = content (base + i)) :
    BootImage.magic mem p = BootImage.magic (deviceMem content base) 0 := by
  have load := loadLE_of_device (k := 0) (n := 4) same (by decide) (by decide)
  rw [BitVec.add_zero] at load
  rw [BootImage.magic, BootImage.magic, load32, load32]
  exact congrArg _ load

theorem bootImageLength_of_device
    (same : ∀ i < BootImage.sizeOf, mem (p + BitVec.ofNat 64 i) = content (base + i)) :
    BootImage.bootImageLength mem p = BootImage.bootImageLength (deviceMem content base) 0 := by
  have load := loadLE_of_device (k := 1480) (n := 8) same (by decide) (by decide)
  rw [BootImage.bootImageLength, BootImage.bootImageLength, load64, load64, zero_add]
  exact congrArg _ load

theorem verifyMagic_of_device
    (same : ∀ i < BootImage.sizeOf, mem (p + BitVec.ofNat 64 i) = content (base + i)) :
    hssBootVerifyMagic mem p = hssBootVerifyMagic (deviceMem content base) 0 := by
  rw [hssBootVerifyMagic, magic_of_device same]
  rfl

/-! ### The second read -/

theorem BootLayout.allows_iff {len : ℕ} : lay.Allows (lay.ddrTargetAddr, len) ↔ len ≤ lay.size := by
  refine ⟨fun allowed => ?_, fun inside => ?_⟩
  · by_contra longer
    have longer := not_le.mp longer
    have past := allowed (add_mem_span longer)
    have positive := Nat.pos_of_ne_zero fun zero =>
      lay.ddrTargetAddr_ne (BitVec.eq_of_toNat_eq zero)
    have fits := lay.size_fits
    rcases past with header | region
    · exact lay.apart header
    · rw [mem_span, add_sub_cancel_left, BitVec.toNat_ofNat, Nat.mod_eq_of_lt (by omega)] at region
      exact absurd region (lt_irrefl _)
  · exact (span_mono inside).trans Set.subset_union_right

theorem BootLayout.allows_header {w : Word × ℕ}
    (inside : span w.1 w.2 ⊆ span lay.bootImage BootImage.sizeOf) : lay.Allows w :=
  inside.trans Set.subset_union_left

theorem BootLayout.allows_region {w : Word × ℕ} {len : ℕ}
    (inside : span w.1 w.2 ⊆ span lay.ddrTargetAddr len) (fits : len ≤ lay.size) : lay.Allows w :=
  inside.trans (allows_iff.mpr fits)

section
variable {readBlock : ℕ → Word → Word → Word → Mem → ReadOutcome} {srcOffset : Word} {n : ℕ}

/-- A provider stays in its target when its second read does, or fails in time. -/
theorem fetchBootImage_stays_iff {header : ReadOutcome}
    (read : readBlock n lay.bootImage srcOffset (BitVec.ofNat 64 BootImage.sizeOf) mem = header)
    (headerInside : ∀ w ∈ header.written,
      span w.1 w.2 ⊆ span lay.bootImage BootImage.sizeOf)
    (imageInside : ∀ n mem len, len.toNat ≤ lay.size →
      ∀ w ∈ (readBlock n lay.ddrTargetAddr srcOffset len mem).written,
        span w.1 w.2 ⊆ span lay.ddrTargetAddr len.toNat) :
    StaysInTarget lay header (fetchBootImage lay readBlock srcOffset n mem).toReadOutcome ↔
      (header.result = some true → hssBootVerifyMagic header.mem lay.bootImage = true →
        lay.size < (BootImage.bootImageLength header.mem lay.bootImage).toNat →
        (copyBootImageToDdr lay header.reads lay.ddrTargetAddr srcOffset readBlock header.mem).result =
            some false ∧
          ∀ w ∈ (copyBootImageToDdr lay header.reads lay.ddrTargetAddr srcOffset readBlock
            header.mem).written, lay.Allows w) := by
  have first (w) (written : w ∈ header.written) := lay.allows_header (headerInside w written)
  unfold fetchBootImage
  rw [read]
  dsimp only
  split
  · next came =>
    split
    · next magic =>
      refine ⟨fun stays _ _ past => ⟨stays.reports came past, fun w written => ?_⟩,
        fun second => ⟨fun w written => ?_, fun _ past => (second came magic past).1⟩⟩
      · exact stays.inside w (List.mem_append_left _ written)
      · rcases List.mem_append.mp written with written | written
        · by_cases past : lay.size < (BootImage.bootImageLength header.mem lay.bootImage).toNat
          · exact (second came magic past).2 w written
          · have fits := not_lt.mp past
            exact lay.allows_region (imageInside _ _ _ fits w written) fits
        · exact first w written
    · next magic =>
      exact ⟨fun _ _ good => absurd good magic, fun _ => ⟨first, fun _ _ => rfl⟩⟩
  · next failed =>
    exact ⟨fun _ came => absurd came failed, fun _ => ⟨first, fun came => absurd came failed⟩⟩

end

/-! ### Each provider -/

/-- The header that the QSPI provider looks at: what came of it, over what was there. -/
def qspiHeader (lay : BootLayout) (d : QspiFlash) (n : ℕ) (mem : Mem) : Mem :=
  put mem lay.bootImage (min (d.delivers n) BootImage.sizeOf) fun i => d.content (0 + i)

theorem hssQspiReadBlock_inside {d : QspiFlash} {n : ℕ} {pDest srcOffset byteCount : Word} :
    ∀ w ∈ (hssQspiReadBlock d n pDest srcOffset byteCount mem).written,
      span w.1 w.2 ⊆ span pDest byteCount.toNat := by
  intro w written
  rw [List.mem_singleton.mp written]
  refine span_mono (Nat.le_trans (Nat.min_le_right _ _) ?_)
  rw [BitVec.toNat_setWidth]
  exact Nat.mod_le _ _

/-- The QSPI provider never fails, so it has to be given a length that is in the region. -/
theorem getBootImageFromQspi_stays_iff {d : QspiFlash} {n : ℕ} :
    StaysInTarget lay
        (hssQspiReadBlock d n lay.bootImage 0 (BitVec.ofNat 64 BootImage.sizeOf) mem)
        (getBootImageFromQspi lay d n mem).toReadOutcome ↔
      (hssBootVerifyMagic (qspiHeader lay d n mem) lay.bootImage = true →
        (BootImage.bootImageLength (qspiHeader lay d n mem) lay.bootImage).toNat ≤ lay.size) := by
  rw [getBootImageFromQspi, fetchBootImage_stays_iff rfl hssQspiReadBlock_inside
    fun _ _ _ _ => hssQspiReadBlock_inside]
  refine ⟨fun second magic => ?_, fun fits _ magic past => ?_⟩
  · by_contra past
    have failed := (second rfl magic (not_le.mp past)).1
    exact absurd (Option.some.inj failed).symm Bool.false_ne_true
  · exact absurd (fits magic) (not_le.mpr past)

section Mmc

variable {d : Mmc} {n : ℕ} {src size : BitVec 32} {dest pDest srcOffset byteCount : Word}

/-- The whole sectors of a read of the MMC, and the rest, are the read. -/
def wholeSectors (byteCount : Word) : BitVec 32 :=
  (byteCount - byteCount % mmcSectorSize).setWidth 32

theorem wholeSectors_toNat (byteCount : Word) :
    (wholeSectors byteCount).toNat = byteCount.toNat / 512 * 512 % 2 ^ 32 := by
  have part : (byteCount % mmcSectorSize).toNat = byteCount.toNat % 512 := BitVec.toNat_umod
  have le : byteCount % mmcSectorSize ≤ byteCount := by
    rw [BitVec.le_def, part]
    exact Nat.mod_le _ _
  rw [wholeSectors, BitVec.toNat_setWidth, BitVec.toNat_sub_of_le le, part]
  congr 1
  omega

theorem wholeSectors_le (byteCount : Word) : (wholeSectors byteCount).toNat ≤ byteCount.toNat := by
  rw [wholeSectors_toNat]
  omega

theorem rest_toNat (byteCount : Word) :
    (byteCount - (wholeSectors byteCount).setWidth 64).toNat =
      byteCount.toNat - (wholeSectors byteCount).toNat := by
  have value : ((wholeSectors byteCount).setWidth 64).toNat = (wholeSectors byteCount).toNat := by
    rw [BitVec.toNat_setWidth, Nat.mod_eq_of_lt (by omega)]
  rw [BitVec.toNat_sub_of_le (by rw [BitVec.le_def, value]; exact wholeSectors_le byteCount), value]

theorem Mmc.came_le (d : Mmc) (n : ℕ) (size : BitVec 32) : d.came n size ≤ size.toNat := by
  unfold Mmc.came
  split
  · exact le_rfl
  · exact Nat.min_le_right _ _

theorem mssMmcSdmaRead_refused (refuses : sdmaTakes size = false) :
    mssMmcSdmaRead d n src dest size mem = ⟨some false, mem, n, []⟩ := by
  rw [mssMmcSdmaRead, refuses]
  rfl

theorem mssMmcSdmaRead_taken (n : ℕ) (src : BitVec 32) (mem : Mem) (takes : sdmaTakes size = true)
    (notNull : dest ≠ 0) : mssMmcSdmaRead d n src dest size mem =
      ⟨d.status n, put mem dest (d.came n size) (d.content src), n + 1, [(dest, d.came n size)]⟩ := by
  rw [mssMmcSdmaRead, takes, decide_eq_false notNull]
  rfl

theorem mssMmcSdmaRead_inside :
    ∀ w ∈ (mssMmcSdmaRead d n src dest size mem).written, span w.1 w.2 ⊆ span dest size.toNat := by
  unfold mssMmcSdmaRead
  split
  · exact List.forall_mem_nil _
  · intro w written
    rw [List.mem_singleton.mp written]
    exact span_mono (d.came_le n size)

@[simp] theorem mmcReadRunt_result {sectors : ReadOutcome} :
    (mmcReadRunt d src pDest byteCount sectors).result = d.status sectors.reads := by
  unfold mmcReadRunt
  split
  · next comes => exact comes.symm
  · rfl

theorem mmcReadRunt_comes {sectors : ReadOutcome} (comes : d.status sectors.reads = some true) :
    mmcReadRunt d src pDest byteCount sectors =
      ⟨some true, put sectors.mem pDest byteCount.toNat (d.content src), sectors.reads + 1,
        (pDest, byteCount.toNat) :: sectors.written⟩ := by
  rw [mmcReadRunt, comes]

theorem mmcReadRunt_fails {sectors : ReadOutcome} (fails : d.status sectors.reads = some false) :
    mmcReadRunt d src pDest byteCount sectors =
      ⟨some false, sectors.mem, sectors.reads + 1, sectors.written⟩ := by
  rw [mmcReadRunt, fails]

theorem mmcReadRunt_written {sectors : ReadOutcome} {w : Word × ℕ}
    (written : w ∈ (mmcReadRunt d src pDest byteCount sectors).written) :
    w = (pDest, byteCount.toNat) ∨ w ∈ sectors.written := by
  unfold mmcReadRunt at written
  split at written
  · exact List.mem_cons.mp written
  · exact .inr written

theorem hssMmcReadBlock_inside :
    ∀ w ∈ (hssMmcReadBlock d n pDest srcOffset byteCount mem).written,
      span w.1 w.2 ⊆ span pDest byteCount.toNat := by
  intro w written
  have whole := wholeSectors_le byteCount
  have first (w) (written : w ∈ (mssMmcSdmaRead d n ((srcOffset / mmcSectorSize).setWidth 32) pDest
      (wholeSectors byteCount) mem).written) : span w.1 w.2 ⊆ span pDest byteCount.toNat :=
    (mssMmcSdmaRead_inside w written).trans (span_mono whole)
  unfold hssMmcReadBlock at written
  split at written
  · exact absurd written List.not_mem_nil
  · dsimp only at written
    split at written
    · split at written
      · rcases mmcReadRunt_written written with rfl | written
        · change span (pDest + (wholeSectors byteCount).setWidth 64)
            (byteCount - (wholeSectors byteCount).setWidth 64).toNat ⊆ _
          rw [rest_toNat, ← BitVec.ofNat_toNat]
          exact span_offset_subset (Nat.add_sub_of_le whole).le
        · exact first w written
      · exact first w written
    · exact first w written

/-- The sector that a read starts at. -/
def firstSector (srcOffset : Word) : BitVec 32 := (srcOffset / mmcSectorSize).setWidth 32

/-- A read whose arguments are aligned. -/
theorem hssMmcReadBlock_eq (aligned : srcOffset &&& (mmcSectorSize - 1) = 0)
    (destAligned : pDest &&& 3 = 0) :
    hssMmcReadBlock d n pDest srcOffset byteCount mem =
      let sectors := mssMmcSdmaRead d n (firstSector srcOffset) pDest (wholeSectors byteCount) mem
      let rest := byteCount - (wholeSectors byteCount).setWidth 64
      if sectors.result = some true ∧ rest ≠ 0 then
        if rest < mmcSectorSize then
          mmcReadRunt d (firstSector srcOffset + wholeSectors byteCount / 512)
            (pDest + (wholeSectors byteCount).setWidth 64) rest sectors
        else
          { sectors with result := none }
      else
        sectors := by
  rw [hssMmcReadBlock,
    if_neg fun bad => bad.elim (fun bad => bad aligned) fun bad => bad destAligned]
  rfl

/-- The transfers of the header's whole sectors and of its rest succeed. -/
structure MmcHeaderComes (d : Mmc) (n : ℕ) (srcOffset : Word) : Prop where
  aligned : srcOffset &&& (mmcSectorSize - 1) = 0
  sectors : d.status n = some true
  runt : d.status (n + 1) = some true

/-- The read of the header, up to its rest. -/
def mmcHeaderSectors (lay : BootLayout) (d : Mmc) (n : ℕ) (srcOffset : Word) (mem : Mem) :
    ReadOutcome :=
  ⟨d.status n, put mem lay.bootImage (d.came n 1536) (d.content (firstSector srcOffset)), n + 1,
    [(lay.bootImage, d.came n 1536)]⟩

theorem mmcHeader_eq (aligned : srcOffset &&& (mmcSectorSize - 1) = 0) :
    hssMmcReadBlock d n lay.bootImage srcOffset (BitVec.ofNat 64 BootImage.sizeOf) mem =
      if d.status n = some true then
        mmcReadRunt d (firstSector srcOffset + 3) (lay.bootImage + 1536) 96
          (mmcHeaderSectors lay d n srcOffset mem)
      else
        mmcHeaderSectors lay d n srcOffset mem := by
  have whole : wholeSectors (BitVec.ofNat 64 BootImage.sizeOf) = 1536 := by decide
  have sectors := mssMmcSdmaRead_taken (d := d) n (firstSector srcOffset) mem
    (show sdmaTakes 1536 = true by decide) lay.bootImage_ne
  have rest : BitVec.ofNat 64 BootImage.sizeOf - (1536 : BitVec 32).setWidth 64 = 96 := by decide
  rw [hssMmcReadBlock_eq aligned lay.bootImage_aligned, whole]
  dsimp only
  rw [sectors, rest]
  by_cases comes : d.status n = some true
  · rw [if_pos ⟨comes, by decide⟩, if_pos (by decide), if_pos comes]
    rfl
  · rw [if_neg fun both => comes both.1, if_neg comes]
    rfl

theorem mmcHeader_result :
    (hssMmcReadBlock d n lay.bootImage srcOffset (BitVec.ofNat 64 BootImage.sizeOf) mem).result =
        some true ↔ MmcHeaderComes d n srcOffset := by
  by_cases aligned : srcOffset &&& (mmcSectorSize - 1) = 0
  · rw [mmcHeader_eq aligned]
    split
    · next sectors =>
      rw [mmcReadRunt_result]
      exact ⟨fun runt => ⟨aligned, sectors, runt⟩, fun comes => comes.runt⟩
    · next failed => exact ⟨fun comes => absurd comes failed, fun comes => absurd comes.sectors failed⟩
  · rw [hssMmcReadBlock, if_pos (.inl aligned)]
    exact ⟨fun comes => absurd comes.symm (Option.some_ne_none true),
      fun comes => absurd comes.aligned aligned⟩

theorem MmcHeaderComes.eq (comes : MmcHeaderComes d n srcOffset) :
    hssMmcReadBlock d n lay.bootImage srcOffset (BitVec.ofNat 64 BootImage.sizeOf) mem =
      ⟨some true, put mem lay.bootImage BootImage.sizeOf (d.content (firstSector srcOffset)), n + 2,
        [(lay.bootImage + 1536, 96), (lay.bootImage, 1536)]⟩ := by
  have came : d.came n 1536 = 1536 := if_pos comes.sectors
  have next (i : ℕ) : d.content (firstSector srcOffset + 3) i =
      d.content (firstSector srcOffset) (1536 + i) := by
    rw [Mmc.content, Mmc.content, show (1536 + i) / 512 = 3 + i / 512 by omega,
      show (1536 + i) % 512 = i % 512 by omega, BitVec.ofNat_add, BitVec.add_assoc]
    rfl
  rw [mmcHeader_eq comes.aligned, if_pos comes.sectors, mmcReadRunt_comes comes.runt,
    mmcHeaderSectors, came, funext next]
  exact congrArg (ReadOutcome.mk _ · _ _) (put_put (by decide))

/-- The header on the device. -/
def mmcDeviceHeader (d : Mmc) (srcOffset : Word) : Mem :=
  deviceMem (d.content (firstSector srcOffset)) 0

/-- A read of `len` bytes to the region, from transfer `n` on, fails, and before it has filled the
region: the driver does not take its size, or the transfer of its sectors or of its rest fails. -/
def MmcFailsInTime (lay : BootLayout) (d : Mmc) (n : ℕ) (len : Word) : Prop :=
  sdmaTakes (wholeSectors len) = false ∨
  (d.status n = some false ∧ min (d.delivers n) (wholeSectors len).toNat ≤ lay.size) ∨
  (d.status n = some true ∧ d.status (n + 1) = some false ∧
    (wholeSectors len).toNat ≤ lay.size ∧
    (wholeSectors len).toNat < len.toNat ∧ len.toNat < (wholeSectors len).toNat + 512)

theorem mmcFails_iff {len : Word} (aligned : srcOffset &&& (mmcSectorSize - 1) = 0) :
    ((hssMmcReadBlock d n lay.ddrTargetAddr srcOffset len mem).result = some false ∧
        ∀ w ∈ (hssMmcReadBlock d n lay.ddrTargetAddr srcOffset len mem).written, lay.Allows w) ↔
      MmcFailsInTime lay d n len := by
  rw [hssMmcReadBlock_eq aligned lay.ddrTargetAddr_aligned]
  have rest := rest_toNat len
  have whole := wholeSectors_le len
  cases takes : sdmaTakes (wholeSectors len) with
  | false =>
    rw [mssMmcSdmaRead_refused takes]
    exact ⟨fun _ => .inl takes, fun _ => ⟨rfl, List.forall_mem_nil _⟩⟩
  | true =>
    rw [mssMmcSdmaRead_taken _ _ _ takes lay.ddrTargetAddr_ne]
    dsimp only
    have taken : ¬ sdmaTakes (wholeSectors len) = false := by rw [takes]; exact Bool.noConfusion
    rw [MmcFailsInTime, or_iff_right taken]
    cases status : d.status n with
    | none => simp
    | some succeeds =>
      cases succeeds with
      | false =>
        have came : d.came n (wholeSectors len) = min (d.delivers n) (wholeSectors len).toNat :=
          if_neg (by rw [status]; decide)
        simp [came, BootLayout.allows_iff]
      | true =>
        have came : d.came n (wholeSectors len) = (wholeSectors len).toNat := if_pos status
        rw [came]
        by_cases none : len - (wholeSectors len).setWidth 64 = 0
        · have all : len.toNat - (wholeSectors len).toNat = 0 := by rw [← rest, none]; rfl
          rw [if_neg fun both => both.2 none]
          exact ⟨fun fails => absurd (Option.some.inj fails.1).symm Bool.false_ne_true, fun fails => by
            simp only [Option.some.injEq, Bool.true_eq_false, false_and, false_or] at fails
            omega⟩
        · have some : len.toNat - (wholeSectors len).toNat ≠ 0 := fun zero =>
            none (BitVec.eq_of_toNat_eq (rest.trans zero))
          rw [if_pos ⟨rfl, none⟩]
          split
          · next small =>
            have small : len.toNat - (wholeSectors len).toNat < 512 := by
              rw [← rest]
              exact BitVec.lt_def.mp small
            refine ⟨fun fails => ?_, fun fails => ?_⟩
            · have runt : d.status (n + 1) = .some false := by
                rw [← fails.1, mmcReadRunt_result]
              have written := fails.2
              rw [mmcReadRunt_fails runt] at written
              have allowed := lay.allows_iff.mp (written _ (List.mem_singleton_self _))
              exact .inr ⟨rfl, runt, allowed, by omega, by omega⟩
            · obtain ⟨-, runt, allowed, -, -⟩ := fails.resolve_left fun fails =>
                Bool.false_ne_true (Option.some.inj fails.1).symm
              rw [mmcReadRunt_fails runt]
              exact ⟨rfl, fun w written => by
                rw [List.mem_singleton.mp written]
                exact lay.allows_iff.mpr allowed⟩
          · next large =>
            have large : ¬ len.toNat - (wholeSectors len).toNat < 512 := by
              rw [← rest]
              exact fun less => large (BitVec.lt_def.mpr less)
            refine ⟨fun fails => absurd fails.1.symm (Option.some_ne_none false), fun fails => ?_⟩
            obtain ⟨-, -, -, -, less⟩ := fails.resolve_left fun fails =>
                Bool.false_ne_true (Option.some.inj fails.1).symm
            omega

/-- The MMC provider takes any length that its driver takes, so it has to be given one that is in the
region, or a transfer has to fail. -/
theorem getBootImageFromMmc_stays_iff :
    StaysInTarget lay
        (hssMmcReadBlock d n lay.bootImage srcOffset (BitVec.ofNat 64 BootImage.sizeOf) mem)
        (getBootImageFromMmc lay d srcOffset n mem).toReadOutcome ↔
      (MmcHeaderComes d n srcOffset → hssBootVerifyMagic (mmcDeviceHeader d srcOffset) 0 = true →
        lay.size < (BootImage.bootImageLength (mmcDeviceHeader d srcOffset) 0).toNat →
        MmcFailsInTime lay d (n + 2) (BootImage.bootImageLength (mmcDeviceHeader d srcOffset) 0)) := by
  rw [getBootImageFromMmc, fetchBootImage_stays_iff rfl hssMmcReadBlock_inside
    fun _ _ _ _ => hssMmcReadBlock_inside, mmcHeader_result]
  refine forall_congr' fun comes => ?_
  have bytes : ∀ i < BootImage.sizeOf,
      put mem lay.bootImage BootImage.sizeOf (d.content (firstSector srcOffset))
        (lay.bootImage + BitVec.ofNat 64 i) = d.content (firstSector srcOffset) (0 + i) := by
    intro i less
    rw [put_apply less (by decide), Nat.zero_add]
  rw [comes.eq]
  dsimp only
  rw [verifyMagic_of_device bytes, bootImageLength_of_device bytes, copyBootImageToDdr,
    bootImageLength_of_device bytes, mmcFails_iff comes.aligned]
  rfl

end Mmc

section Fpga

variable {d : FpgaFlash} {n turns : ℕ}

/-- The FPGA's provider is like the others but for the image pointer. -/
theorem getBootImageFromFpgaQspi_eq :
    (getBootImageFromFpgaQspi lay d turns n mem).toReadOutcome =
      (fetchBootImage lay (fun n dest _ len mem => fpgaFlashRead d turns n dest 0 len mem) 0 n
        mem).toReadOutcome := by
  unfold getBootImageFromFpgaQspi fetchBootImage
  dsimp only
  split
  · split
    · rfl
    · rfl
  · rfl

theorem neverNull {dest : Word} {len : Word} (notNull : dest ≠ 0)
    (fits : dest.toNat + len.toNat ≤ 2 ^ 64) : NeverNull d dest 0 len := by
  intro k more _ null
  have positive := Nat.pos_of_ne_zero fun zero => notNull (BitVec.eq_of_toNat_eq zero)
  have sum := congrArg BitVec.toNat null
  rw [BitVec.toNat_add, BitVec.toNat_ofNat, Nat.mod_eq_of_lt (a := k * d.writesize) (by omega),
    Nat.mod_eq_of_lt (by omega)] at sum
  have zero : dest.toNat + k * d.writesize = 0 := sum
  omega

theorem fpgaHeader_neverNull : NeverNull d lay.bootImage 0 (BitVec.ofNat 64 BootImage.sizeOf) :=
  neverNull lay.bootImage_ne lay.bootImage_fits

theorem fpgaHeader_fits : d.pages (BitVec.ofNat 64 BootImage.sizeOf) * d.writesize < 2 ^ 64 := by
  have less := pages_mul_lt d (BitVec.ofNat 64 BootImage.sizeOf)
  have small := d.writesize_le
  have size : (BitVec.ofNat 64 BootImage.sizeOf).toNat = 1632 := by decide
  omega

theorem fpgaHeader_starts
    (comes : (fpgaFlashRead d turns n lay.bootImage 0 (BitVec.ofNat 64 BootImage.sizeOf) mem).result =
      some true) : d.isInitialized = true := by
  by_contra failed
  rw [fpgaFlashRead_stops fun starts => failed starts.1] at comes
  exact Bool.false_ne_true (Option.some.inj comes)

/-- The header in memory is that of the flash, when its pages come. -/
theorem fpgaHeader_brought
    (comes : (fpgaFlashRead d turns n lay.bootImage 0 (BitVec.ofNat 64 BootImage.sizeOf) mem).result =
      some true) :
    FlashBrought d n lay.bootImage 0 (BitVec.ofNat 64 BootImage.sizeOf) mem
      (fpgaFlashRead d turns n lay.bootImage 0 (BitVec.ofNat 64 BootImage.sizeOf) mem) :=
  .of_true (fpgaHeader_starts comes) (Nat.zero_mod _) fpgaHeader_fits fpgaHeader_neverNull comes

theorem fpgaHeader_bytes
    (comes : (fpgaFlashRead d turns n lay.bootImage 0 (BitVec.ofNat 64 BootImage.sizeOf) mem).result =
      some true) : ∀ i < BootImage.sizeOf,
    (fpgaFlashRead d turns n lay.bootImage 0 (BitVec.ofNat 64 BootImage.sizeOf) mem).mem
      (lay.bootImage + BitVec.ofNat 64 i) = d.content (0 + i) := by
  intro i less
  rw [(fpgaHeader_brought comes).mem_eq]
  exact put_apply less (by decide)

/-- The second read of the FPGA's provider never fails, so it has to be given a length that is in the
region. -/
theorem getBootImageFromFpgaQspi_stays_iff :
    (∀ turns, StaysInTarget lay
        (fpgaFlashRead d turns n lay.bootImage 0 (BitVec.ofNat 64 BootImage.sizeOf) mem)
        (getBootImageFromFpgaQspi lay d turns n mem).toReadOutcome) ↔
      (d.isInitialized = true → FlashAnswers d n 0 (d.pages (BitVec.ofNat 64 BootImage.sizeOf)) →
        hssBootVerifyMagic (deviceMem d.content 0) 0 = true →
        (BootImage.bootImageLength (deviceMem d.content 0) 0).toNat ≤ lay.size) := by
  have stays (turns : ℕ) := @fetchBootImage_stays_iff lay mem
    (fun n dest _ len mem => fpgaFlashRead d turns n dest 0 len mem) 0 n _ rfl
    (fpgaFlashRead_inside fpgaHeader_neverNull)
    (fun _ _ len fits => fpgaFlashRead_inside (neverNull lay.ddrTargetAddr_ne
      (Nat.le_trans (Nat.add_le_add_left fits _) lay.size_fits)))
  simp only [getBootImageFromFpgaQspi_eq, stays]
  refine ⟨fun second initialized answers magic => ?_, fun fits turns comes magic past => ?_⟩
  · by_contra past
    obtain ⟨turns, comes⟩ := answers.comes initialized (Nat.zero_mod _) lay.bootImage mem
    have bytes := fpgaHeader_bytes comes
    rw [← verifyMagic_of_device bytes] at magic
    rw [← bootImageLength_of_device bytes] at past
    exact fpgaFlashRead_not_false initialized (Nat.zero_mod _)
      (second turns comes magic (not_le.mp past)).1
  · have bytes := fpgaHeader_bytes comes
    have initialized := fpgaHeader_starts comes
    rw [verifyMagic_of_device bytes] at magic
    rw [bootImageLength_of_device bytes] at past
    refine absurd (fits initialized ?_ magic) (not_le.mpr past)
    exact .of_ends initialized (Nat.zero_mod _) fpgaHeader_fits
      (by rw [comes]; exact Option.some_ne_none true)

end Fpga

/-! ### All providers -/

/-- The MMC's provider stays in its target, from transfer `n` on. -/
def MmcStays (lay : BootLayout) (d : Mmc) (srcOffset : Word) (n : ℕ) (mem : Mem) : Prop :=
  StaysInTarget lay (hssMmcReadBlock d n lay.bootImage srcOffset (BitVec.ofNat 64 BootImage.sizeOf) mem)
    (getBootImageFromMmc lay d srcOffset n mem).toReadOutcome

def QspiStays (lay : BootLayout) (d : QspiFlash) (n : ℕ) (mem : Mem) : Prop :=
  StaysInTarget lay (hssQspiReadBlock d n lay.bootImage 0 (BitVec.ofNat 64 BootImage.sizeOf) mem)
    (getBootImageFromQspi lay d n mem).toReadOutcome

/-- The FPGA's provider stays in its target, as far as its loops have come. -/
def FpgaStays (lay : BootLayout) (d : FpgaFlash) (n : ℕ) (mem : Mem) : Prop :=
  ∀ turns, StaysInTarget lay
    (fpgaFlashRead d turns n lay.bootImage 0 (BitVec.ofNat 64 BootImage.sizeOf) mem)
    (getBootImageFromFpgaQspi lay d turns n mem).toReadOutcome

/-- The length of a header whose magic is good has to be in the region, since nothing else is looked
at before the second read, or that read has to fail in time, which it can on the MMC. -/
theorem getBootImage_stays_iff (lay : BootLayout) (n : ℕ) (mem : Mem) :
    (∀ d srcOffset, MmcStays lay d srcOffset n mem ↔
      (MmcHeaderComes d n srcOffset → hssBootVerifyMagic (mmcDeviceHeader d srcOffset) 0 = true →
        lay.size < (BootImage.bootImageLength (mmcDeviceHeader d srcOffset) 0).toNat →
        MmcFailsInTime lay d (n + 2) (BootImage.bootImageLength (mmcDeviceHeader d srcOffset) 0))) ∧
    (∀ d, QspiStays lay d n mem ↔
      (hssBootVerifyMagic (qspiHeader lay d n mem) lay.bootImage = true →
        (BootImage.bootImageLength (qspiHeader lay d n mem) lay.bootImage).toNat ≤ lay.size)) ∧
    (∀ d : FpgaFlash, FpgaStays lay d n mem ↔
      (d.isInitialized = true → FlashAnswers d n 0 (d.pages (BitVec.ofNat 64 BootImage.sizeOf)) →
        hssBootVerifyMagic (deviceMem d.content 0) 0 = true →
        (BootImage.bootImageLength (deviceMem d.content 0) 0).toNat ≤ lay.size)) :=
  ⟨fun _ _ => getBootImageFromMmc_stays_iff, fun _ => getBootImageFromQspi_stays_iff,
    fun _ => getBootImageFromFpgaQspi_stays_iff⟩

/-- 4 MB for boot images. -/
def icicleKitLayout : BootLayout where
  toInitConfig := icicleKitInit
  bootImage := 0x08010000
  size := 0x400000
  bootImage_ne := by decide
  bootImage_fits := by decide
  bootImage_aligned := by decide
  ddrTargetAddr_aligned := by decide
  size_fits := by decide
  apart := by decide

/-- A flash with a header of 16 MB. -/
def hugeHeaderFlash : QspiFlash where
  content := fun i => fieldsMem [(0, 4, 0xB007C0DE), (1480, 8, 0x1000000)] (BitVec.ofNat 64 i)
  delivers _ := 2 ^ 32

/-- The QSPI provider copies all 16 MB. -/
theorem hugeHeader_leaves :
    ¬ ∀ lay n mem, (∀ d srcOffset, MmcStays lay d srcOffset n mem) ∧
      (∀ d, QspiStays lay d n mem) ∧ ∀ d, FpgaStays lay d n mem := by
  intro stays
  have qspi := (stays icicleKitLayout 0 (fun _ => 0)).2.1 hugeHeaderFlash
  have bytes : ∀ i < BootImage.sizeOf,
      qspiHeader icicleKitLayout hugeHeaderFlash 0 (fun _ => 0)
        (icicleKitLayout.bootImage + BitVec.ofNat 64 i) = hugeHeaderFlash.content (0 + i) := by
    intro i less
    exact put_apply less (by decide)
  have fits := getBootImageFromQspi_stays_iff.mp qspi
    (by rw [verifyMagic_of_device bytes]; decide +kernel)
  rw [bootImageLength_of_device bytes] at fits
  exact absurd fits (by decide +kernel)

end Hss
