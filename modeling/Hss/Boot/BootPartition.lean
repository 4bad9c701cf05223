import Hss.Boot.Partitions
import Hss.Boot.Providers

/-! The partition that the MMC is booted from, found by its type or set by hand, and what was checked
of the table before its first sector is used. -/

namespace Hss

open Hits

/-! ### The partition table in a boot -/

/-- `bootPartitionIndexValid` and `bootPartitionIndex`, which are not part of a table. -/
structure BootPartitionIndex where
  valid : Bool
  index : Word

/-- `GPT_SetBootPartitionIndex` -/
def gptSetBootPartitionIndex (index : Word) : BootPartitionIndex := ⟨true, index⟩

/-- `GPT_GetBootPartitionIndex`: `*pIndex` after it, and what it returns. -/
def gptGetBootPartitionIndex (boot : BootPartitionIndex) (pIndex : Word) : Word × Bool :=
  (if boot.valid then boot.index else pIndex, boot.valid)

/-- `GPT_Init` -/
def gptInit (g : Gpt) : Gpt :=
  { g with
    headerValid := false
    partitionEntriesValid := false }

section
variable (d : GptDisk)

/-- The index and the first LBA of partition `srcIndex`, if it has one. -/
def locatePartition (srcIndex : Word) (g : Gpt) : Except GptStop (Gpt × Option (Word × Word)) := do
  let (g, lba) ← gptPartitionIdToLBAOffset d srcIndex g
  return (g, lba.map fun lba => (srcIndex, lba))

/-- The part of `getBootImageFromMMC_` that asks the partition table: the state of the table, and the
index and the first LBA of the partition, unless it fails. -/
def findMmcPartition (boot : BootPartitionIndex) (g : Gpt) :
    Except GptStop (Gpt × Option (Word × Word)) := do
  let (g, result) ← gptReadHeader d (gptInit g)
  if result then
    let (srcIndex, manual) := gptGetBootPartitionIndex boot 0
    if manual then
      locatePartition d srcIndex g
    else
      let (g, found) ← gptFindBootSectorIndex d srcIndex g
      match found with
      | none => return (g, none)
      | some (partitionIndex, _) => locatePartition d (BitVec.ofNat 64 partitionIndex) g
  else
    return (g, none)

/-- `getBootImageFromMMC_`: the table and the partition, and what is fetched.  Without a partition the
image is looked for at the start of the device. -/
def getBootImageFromMmcPartition (lay : BootLayout) (mmc : Mmc) (boot : BootPartitionIndex) (g : Gpt)
    (n : ℕ) (mem : Mem) : Except GptStop (Gpt × Option (Word × Word) × FetchOutcome) := do
  let (g, partition) ← findMmcPartition d boot g
  let srcLBAOffset :=
    match partition with
    | none => 0
    | some (_, lba) => lba
  return (g, partition, getBootImageFromMmc lay mmc (srcLBAOffset * d.lbaSize) n mem)

end

/-! ### What a table's flags say -/

/-- The states of a table: `GPT_Init` leaves anything in its buffers, `GPT_ReadHeader` comes next if at
all, and then the other routines in any order. -/
inductive GptSession (d : GptDisk) : Gpt → Prop
  | init (g : Gpt) : GptSession d (gptInit g)
  | readHeader {g g' : Gpt} {result : Bool}
      (read : gptReadHeader d (gptInit g) = .ok (g', result)) : GptSession d g'
  | call {g g' : Gpt} {call : GptCall} (session : GptSession d g) (other : call ≠ .readHeader)
      (done : gptCall d g call = .ok g') : GptSession d g'

variable {d : GptDisk} {g g' : Gpt}

theorem except_map_eq_ok {α β : Type} {x : Except GptStop (α × β)} {a : α}
    (ok : x.map Prod.fst = .ok a) : ∃ b, x = .ok (a, b) := by
  cases x with
  | error stop => cases ok
  | ok p => exact ⟨p.2, congrArg Except.ok (Prod.ext (Except.ok.inj ok) rfl)⟩

theorem gptCall_kept {call : GptCall} (other : call ≠ .readHeader) (ok : gptCall d g call = .ok g') :
    Kept d g g' := by
  cases call with
  | readHeader => exact absurd rfl other
  | validateHeader =>
    obtain ⟨_, ok⟩ := except_map_eq_ok ok
    exact gptValidateHeader_kept ok
  | validatePartitionEntries =>
    obtain ⟨_, ok⟩ := except_map_eq_ok ok
    exact gptValidatePartitionEntries_kept ok
  | readPartitionEntryByIndex index =>
    cases ok
    exact readPartitionEntryByIndex_kept index g
  | findPartitionByTypeId guid index =>
    obtain ⟨_, ok⟩ := except_map_eq_ok ok
    exact findPartitionById_kept (Nat.zero_le 16) ok
  | findPartitionByUniqueId guid index =>
    obtain ⟨_, ok⟩ := except_map_eq_ok ok
    exact findPartitionById_kept (Nat.le_refl 16) ok
  | partitionIdToLBAOffset index =>
    obtain ⟨_, ok⟩ := except_map_eq_ok ok
    exact gptPartitionIdToLBAOffset_kept ok
  | findBootSectorIndex index =>
    obtain ⟨_, ok⟩ := except_map_eq_ok ok
    exact gptFindBootSectorIndex_kept ok

/-- The flags of a table are set after the checks only. -/
structure FlagsSound (d : GptDisk) (g : Gpt) : Prop where
  header : g.headerValid = true → HeaderSound d g
  entries : g.partitionEntriesValid = true → EntriesSound d g

theorem Kept.flagsSound (kept : Kept d g g') (flags : FlagsSound d g) : FlagsSound d g' := by
  refine ⟨fun valid => kept.same.headerSound.mpr ?_, fun valid => kept.same.entriesSound.mpr ?_⟩
  · exact (kept.header valid).elim flags.header id
  · exact (kept.entries valid).elim flags.entries id

theorem gptReadHeader_flagsSound {result : Bool}
    (read : gptReadHeader d (gptInit g) = .ok (g', result)) : FlagsSound d g' := by
  have before : FlagsSound d (afterHeader d (gptInit g)) := ⟨nofun, nofun⟩
  unfold gptReadHeader at read
  dsimp only at read
  split at read
  · cases read
    exact before
  · exact (gptValidateHeader_kept read).flagsSound before

theorem GptSession.flagsSound (session : GptSession d g) : FlagsSound d g := by
  induction session with
  | init g => exact ⟨nofun, nofun⟩
  | readHeader read => exact gptReadHeader_flagsSound read
  | call session other done ih => exact (gptCall_kept other done).flagsSound ih

/-! ### The first sector of a partition -/

/-- `firstLBA` of entry `index`, as it is read. -/
def tableFirstLBA (d : GptDisk) (g : Gpt) (index : Word) : Word :=
  BitVec.ofNat 64 (leAt (tableByte d g index) 32 8)

/-- `firstLBA` of entry `index` on the disk. -/
def diskFirstLBA (d : GptDisk) (g : Gpt) (index : Word) : Word :=
  BitVec.ofNat 64 (leAt (diskByte d g index) 32 8)

theorem leAt_congr {a b : GptBuffer} {p q n : ℕ} (same : ∀ k < n, a (p + k) = b (q + k)) :
    leAt a p n = leAt b q n := by
  induction n generalizing p q with
  | zero => rfl
  | succ n ih =>
    have rest : leAt a (p + 1) n = leAt b (q + 1) n := ih fun k less => by
      have next := same (k + 1) (by omega)
      rwa [← Nat.add_assoc, ← Nat.add_assoc, Nat.add_right_comm, Nat.add_right_comm q] at next
    have first : a p = b q := same 0 (Nat.succ_pos n)
    rw [leAt, leAt, first, rest]

theorem SameTable.tableFirstLBA (same : SameTable d g g') (index : Word) :
    tableFirstLBA d g' index = tableFirstLBA d g index := by
  rw [Hss.tableFirstLBA, same.tableByte, Hss.tableFirstLBA]

theorem tableFirstLBA_eq_disk {index : Word} {size : ℕ} (inside : InSector d g size index)
    (fits : 40 ≤ size) : tableFirstLBA d g index = diskFirstLBA d g index :=
  congrArg (BitVec.ofNat 64) (leAt_congr fun k less => tableByte_eq_disk inside (by omega))

/-- The first sector is given for the partitions of the table, if the read of the entry succeeds. -/
theorem gptPartitionIdToLBAOffset_eq_some_iff {index lba : Word} :
    gptPartitionIdToLBAOffset d index g = .ok (g', some lba) ↔
      index < g.numPartitions.setWidth 64 ∧ d.fails g.reads = false ∧ afterSector d index g = g' ∧
        tableFirstLBA d g index = lba := by
  have start := entryOffset_lt (d := d) (g := g) index
  have sector : d.lbaSize.toNat ≤ d.maxLbaSize := d.lbaSize_le
  have least := d.least
  have ends : entryOffset d g index + 32 + 8 ≤ 2 * d.maxLbaSize := by omega
  rw [gptPartitionIdToLBAOffset, readPartitionEntryIntoBuffer_eq]
  dsimp only
  split
  · next known =>
    rw [and_iff_right known]
    cases read : d.fails g.reads with
    | true => exact iff_of_false (fun ok => by cases ok) fun fails => by cases fails.1
    | false =>
      have value : BitVec.ofNat 64 (leAt (afterSector d index g).lbaBuffer
          (entryOffset d g index + 32) 8) = tableFirstLBA d g index :=
        congrArg (BitVec.ofNat 64) (leAt_congr fun k _ => by
          rw [Nat.add_assoc, afterSector_byte read])
      simp only [Bool.false_eq_true, if_false, readBuffer, ends, if_true, ok_bind, value, true_and]
      constructor
      · intro ok
        obtain ⟨same, given⟩ := Prod.mk.inj (Except.ok.inj ok)
        exact ⟨same, Option.some.inj given⟩
      · rintro ⟨rfl, rfl⟩
        rfl
  · next unknown => exact iff_of_false (fun ok => by cases ok) fun known => unknown known.1

/-! ### The partition of a boot -/

theorem locatePartition_eq_some_iff {srcIndex index lba : Word} :
    locatePartition d srcIndex g = .ok (g', some (index, lba)) ↔
      srcIndex < g.numPartitions.setWidth 64 ∧ d.fails g.reads = false ∧ srcIndex = index ∧
        afterSector d srcIndex g = g' ∧ tableFirstLBA d g srcIndex = lba := by
  constructor
  · intro ok
    obtain ⟨⟨g₁, first⟩, located, rest⟩ := bind_eq_ok.mp ok
    cases first with
    | none => cases rest
    | some first =>
      obtain ⟨known, reads, rfl, rfl⟩ := gptPartitionIdToLBAOffset_eq_some_iff.mp located
      cases rest
      exact ⟨known, reads, rfl, rfl, rfl⟩
  · rintro ⟨known, reads, rfl, rfl, rfl⟩
    exact bind_eq_ok.mpr
      ⟨_, gptPartitionIdToLBAOffset_eq_some_iff.mpr ⟨known, reads, rfl, rfl⟩, rfl⟩

/-- The table when its header was read and passed its check. -/
def headerRead (d : GptDisk) (g : Gpt) : Gpt :=
  { afterHeader d (gptInit g) with headerValid := true }

theorem headerRead_same : SameTable d (afterHeader d (gptInit g)) (headerRead d g) :=
  ⟨rfl, fun _ _ => rfl⟩

theorem gptReadHeader_eq_headerRead : gptReadHeader d (gptInit g) = .ok (g', true) ↔
    d.fails g.reads = false ∧ HeaderSound d (headerRead d g) ∧ headerRead d g = g' := by
  rw [headerRead_same.headerSound]
  exact gptReadHeader_true_iff

/-- What is looked up of an index that was set by hand. -/
theorem findMmcPartition_manual_iff {boot : BootPartitionIndex} (manual : boot.valid = true)
    {found : Word × Word} : findMmcPartition d boot g = .ok (g', some found) ↔
      d.fails g.reads = false ∧ HeaderSound d (headerRead d g) ∧
        locatePartition d boot.index (headerRead d g) = .ok (g', some found) := by
  constructor
  · intro ok
    obtain ⟨⟨g₁, result⟩, read, rest⟩ := bind_eq_ok.mp ok
    cases result with
    | false => cases rest
    | true =>
      obtain ⟨succeeds, sound, rfl⟩ := gptReadHeader_eq_headerRead.mp read
      simp only [gptGetBootPartitionIndex, manual, if_true] at rest
      exact ⟨succeeds, sound, rest⟩
  · rintro ⟨succeeds, sound, located⟩
    refine bind_eq_ok.mpr ⟨_, gptReadHeader_eq_headerRead.mpr ⟨succeeds, sound, rfl⟩, ?_⟩
    simp only [gptGetBootPartitionIndex, manual, if_true]
    exact located

/-- What is found without one. -/
theorem findMmcPartition_automatic {boot : BootPartitionIndex} (automatic : boot.valid = false)
    {found : Word × Word} (ok : findMmcPartition d boot g = .ok (g', some found)) :
    HeaderSound d (headerRead d g) ∧ ∃ g₁ p entry,
      gptFindBootSectorIndex d 0 (headerRead d g) = .ok (g₁, some (p, entry)) ∧
        locatePartition d (BitVec.ofNat 64 p) g₁ = .ok (g', some found) := by
  obtain ⟨⟨g₁, result⟩, read, rest⟩ := bind_eq_ok.mp ok
  cases result with
  | false => cases rest
  | true =>
    obtain ⟨-, sound, rfl⟩ := gptReadHeader_eq_headerRead.mp read
    simp only [gptGetBootPartitionIndex, automatic, Bool.false_eq_true, if_false] at rest
    obtain ⟨⟨g₂, hit⟩, search, rest⟩ := bind_eq_ok.mp rest
    cases hit with
    | none => cases rest
    | some hit => exact ⟨sound, g₂, hit.1, hit.2, search, rest⟩

/-- What a boot from a partition relies on: the table passes both checks, and the partition is in it
with this first sector. -/
structure PartitionSound (d : GptDisk) (g : Gpt) (index lba : Word) : Prop where
  header : HeaderSound d g
  entries : EntriesSound d g
  known : index < g.numPartitions.setWidth 64
  firstLBA : tableFirstLBA d g index = lba

/-- An array is used with an index that was set by hand only if it passes its check. -/
def ManualSound (d : GptDisk) (boot : BootPartitionIndex) (g : Gpt) : Prop :=
  boot.valid = true → d.fails g.reads = false → HeaderSound d (headerRead d g) →
    boot.index < (headerRead d g).numPartitions.setWidth 64 → d.fails (g.reads + 1) = false →
      EntriesSound d (headerRead d g)

theorem findMmcPartition_sound_iff {boot : BootPartitionIndex} :
    (∀ g' index lba, findMmcPartition d boot g = .ok (g', some (index, lba)) →
      PartitionSound d g' index lba) ↔ ManualSound d boot g := by
  constructor
  · intro sound manual succeeds header known reads
    have ok := (findMmcPartition_manual_iff manual).mpr ⟨succeeds, header,
      locatePartition_eq_some_iff.mpr ⟨known, reads, rfl, rfl, rfl⟩⟩
    exact (afterSector_same _).entriesSound.mp (sound _ _ _ ok).entries
  · intro manualSound g' index lba ok
    cases manual : boot.valid with
    | true =>
      obtain ⟨succeeds, header, located⟩ := (findMmcPartition_manual_iff manual).mp ok
      obtain ⟨known, reads, rfl, rfl, rfl⟩ := locatePartition_eq_some_iff.mp located
      have same := afterSector_same (d := d) (g := headerRead d g) boot.index
      have entries := manualSound manual succeeds header known reads
      refine ⟨same.headerSound.mpr header, same.entriesSound.mpr entries, ?_, same.tableFirstLBA _⟩
      rw [same.numPartitions]
      exact known
    | false =>
      obtain ⟨header, g₁, p, entry, search, located⟩ := findMmcPartition_automatic manual ok
      obtain ⟨known, -, rfl, rfl, rfl⟩ := locatePartition_eq_some_iff.mp located
      have found := gptFindBootSectorIndex_finds_iff.mp ⟨_, _, search⟩
      have entries : EntriesSound d (headerRead d g) :=
        found.entries.elim (fun valid => by cases valid) And.right
      have moved := afterSector_same (d := d) (g := g₁) (BitVec.ofNat 64 p)
      have same := (gptFindBootSectorIndex_kept search).same.trans moved
      refine ⟨same.headerSound.mpr header, same.entriesSound.mpr entries, ?_, moved.tableFirstLBA _⟩
      rw [moved.numPartitions]
      exact known

/-- What a search that finds partition `p` promises: the table passes both checks, and the partition
is in it and of the type. -/
structure BootSectorSound (d : GptDisk) (g : Gpt) (p : ℕ) : Prop where
  header : HeaderSound d g
  entries : EntriesSound d g
  known : p < g.numPartitions.toNat
  type : tableGuid d g 0 p = diskGuid

theorem gptFindBootSectorIndex_sound_iff {srcIndex : Word} (session : GptSession d g) :
    (∀ g' p entry, gptFindBootSectorIndex d srcIndex g = .ok (g', some (p, entry)) →
      BootSectorSound d g p) ↔ (HeaderSound d g ∨ ∀ p, ¬ BootFound d g srcIndex p) := by
  constructor
  · intro sound
    by_cases header : HeaderSound d g
    · exact .inl header
    · refine .inr fun p found => header ?_
      obtain ⟨g', entry, ok⟩ := gptFindBootSectorIndex_finds_iff.mpr found
      exact (sound g' p entry ok).header
  · intro either g' p entry ok
    have found := gptFindBootSectorIndex_finds_iff.mp ⟨g', entry, ok⟩
    have entries := found.entries.elim session.flagsSound.entries And.right
    exact ⟨either.resolve_right fun none => none p found, entries, found.least.lt_stop,
      found.least.hit⟩

/-- A table without an entry that straddles a sector end is read as it is on the disk. -/
theorem table_on_disk (inside : ∀ i < g.numPartitions.toNat,
      InSector d g (max g.sizeOfPartitionEntry.toNat 40) (BitVec.ofNat 64 i)) :
    tableEntries d g 0 g.numPartitions.toNat = diskEntries d g ∧
      ∀ i < g.numPartitions.toNat, tableGuid d g 0 i = diskGuidAt d g 0 i ∧
        tableFirstLBA d g (BitVec.ofNat 64 i) = diskFirstLBA d g (BitVec.ofNat 64 i) := by
  have whole (i : ℕ) (less : i < g.numPartitions.toNat) :
      InSector d g g.sizeOfPartitionEntry.toNat (BitVec.ofNat 64 i) :=
    Nat.le_trans (Nat.add_le_add_left (Nat.le_max_left _ _) _) (inside i less)
  exact ⟨tableEntries_eq_disk _ whole, fun i less =>
    ⟨tableGuid_eq_disk (inside i less) (by omega), tableFirstLBA_eq_disk (inside i less) (by omega)⟩⟩

/-- A partition is found in a table whose header did not pass its check, and a partition that is set by
hand is used of a table whose array was not checked; and nothing else is wrong with either. -/
theorem boot_partition_sound_iff (d : GptDisk) :
    (∀ g srcIndex, GptSession d g →
      ((∀ g' p entry, gptFindBootSectorIndex d srcIndex g = .ok (g', some (p, entry)) →
        BootSectorSound d g p) ↔ (HeaderSound d g ∨ ∀ p, ¬ BootFound d g srcIndex p))) ∧
    (∀ lay mmc boot g n mem,
      ((∀ g' index lba fetched, getBootImageFromMmcPartition d lay mmc boot g n mem =
          .ok (g', some (index, lba), fetched) →
        PartitionSound d g' index lba ∧
          fetched = getBootImageFromMmc lay mmc (lba * d.lbaSize) n mem) ↔
        ManualSound d boot g)) ∧
    (∀ g : Gpt, (∀ i < g.numPartitions.toNat,
        InSector d g (max g.sizeOfPartitionEntry.toNat 40) (BitVec.ofNat 64 i)) →
      tableEntries d g 0 g.numPartitions.toNat = diskEntries d g ∧
        ∀ i < g.numPartitions.toNat, tableGuid d g 0 i = diskGuidAt d g 0 i ∧
          tableFirstLBA d g (BitVec.ofNat 64 i) = diskFirstLBA d g (BitVec.ofNat 64 i)) := by
  refine ⟨fun g srcIndex session => gptFindBootSectorIndex_sound_iff session, ?_,
    fun g inside => table_on_disk inside⟩
  intro lay mmc boot g n mem
  rw [← findMmcPartition_sound_iff]
  constructor
  · intro sound g' index lba ok
    exact (sound g' index lba _ (bind_eq_ok.mpr ⟨_, ok, rfl⟩)).1
  · intro sound g' index lba fetched ok
    obtain ⟨⟨g₁, partition⟩, found, rest⟩ := bind_eq_ok.mp ok
    cases rest
    exact ⟨sound g' index lba found, rfl⟩

/-! ### Tables of one entry -/

/-- A disk with one partition, from sector 34 on, of this type and with these checksums. -/
def tableDisk (type headerCrc arrayCrc : ℕ) : GptDisk where
  serviceQspi := false
  lbaSize := 512
  lbaSize_pos := sectorBytes_pos
  lbaSize_le := sectorBytes_le
  content := fieldsMem [(512, 8, 0x5452415020494645), (520, 4, 0x10000), (524, 4, 92),
    (528, 4, headerCrc), (536, 8, 1), (584, 8, 2), (592, 4, 1), (596, 4, 128), (600, 4, arrayCrc),
    (1024, 16, type), (1056, 8, 34)]
  fails _ := false
  left _ _ := 0

/-- The type for boot. -/
def bootType : ℕ := 0x4946456465654E746E6F644921686148

/-- The header's checksum is wrong, and the array's is right. -/
def badHeaderDisk : GptDisk := tableDisk bootType 0 0xA98FADD7

/-- The header's checksum is right, and the array's is wrong. -/
def badArrayDisk : GptDisk := tableDisk bootType 0x512F7163 0

/-- Both checksums are right. -/
def goodDisk : GptDisk := tableDisk bootType 0x281DA1B8 0xA98FADD7

/-- A header that fits in its buffer but does not pass its check. -/
theorem gptReadHeader_refuses (succeeds : d.fails g.reads = false)
    (fits : HeaderFits d (afterHeader d g)) (unsound : ¬ HeaderSound d (afterHeader d g)) :
    gptReadHeader d g = .ok (afterHeader d g, false) := by
  have read : (readBlock d g.buffer 0 (1 * d.lbaSize) g.reads).2 = true := by
    rw [readBlock, succeeds]
    rfl
  rw [gptReadHeader]
  simp only [read, Bool.true_eq_false, if_false]
  rcases gptValidateHeader_cases (d := d) (g := afterHeader d g) with stopped | ⟨valid, result, done⟩
  · have safe := gptValidateHeader_safe_iff.mpr fits
    rw [stopped] at safe
    cases safe _ rfl
  · cases result with
    | true => exact absurd (gptValidateHeader_true_iff.mp done).1 unsound
    | false =>
      rw [← gptValidateHeader_false done] at done
      exact done

theorem badHeader_found : BootFound badHeaderDisk (afterHeader badHeaderDisk (gptInit .fresh)) 0 0 where
  header := .inr fun _ _ => by decide +kernel
  entries := .inr ⟨fun _ _ => rfl, by unfold EntriesEnd; decide +kernel, by decide +kernel⟩
  least := ⟨Nat.le_refl 0, by decide +kernel, by decide +kernel, fun q _ less => by omega⟩
  reads _ _ := rfl

theorem badArray_header : HeaderSound badArrayDisk (headerRead badArrayDisk .fresh) where
  signature := by decide +kernel
  revision := by decide +kernel
  size := by decide +kernel
  crc := by decide +kernel
  currentLBA := by decide +kernel
  partitionEntriesStartingLBA := by decide +kernel

theorem unchecked_partition :
    (¬ ∀ d g srcIndex, GptSession d g → ∀ g' p entry,
      gptFindBootSectorIndex d srcIndex g = .ok (g', some (p, entry)) → BootSectorSound d g p) ∧
    ¬ ∀ d lay mmc boot g n mem g' index lba fetched,
      getBootImageFromMmcPartition d lay mmc boot g n mem = .ok (g', some (index, lba), fetched) →
        PartitionSound d g' index lba := by
  constructor
  · intro sound
    have crc : crc32Calculate ((List.range 92).map fun i => if 16 ≤ i ∧ i < 20 then 0 else
        (afterHeader badHeaderDisk (gptInit .fresh)).buffer i) ≠ 0 := by decide +kernel
    have size : (afterHeader badHeaderDisk (gptInit .fresh)).headerSize.toNat = 92 := by
      decide +kernel
    have field : (afterHeader badHeaderDisk (gptInit .fresh)).headerCrc32 = 0 := by decide +kernel
    have unsound : ¬ HeaderSound badHeaderDisk (afterHeader badHeaderDisk (gptInit .fresh)) := by
      intro header
      have passed := header.crc
      rw [size, field] at passed
      exact crc passed
    have session : GptSession badHeaderDisk (afterHeader badHeaderDisk (gptInit .fresh)) :=
      .readHeader (gptReadHeader_refuses rfl (fun _ _ => by rw [size]; decide) unsound)
    obtain ⟨g', entry, ok⟩ := gptFindBootSectorIndex_finds_iff.mpr badHeader_found
    exact unsound (sound _ _ _ session _ _ _ ok).header
  · intro sound
    have manual : (gptSetBootPartitionIndex 0).valid = true := rfl
    have located := (findMmcPartition_manual_iff manual).mpr
      ⟨rfl, badArray_header, locatePartition_eq_some_iff.mpr ⟨by decide +kernel, rfl, rfl, rfl, rfl⟩⟩
    have entries := (sound badArrayDisk icicleKitLayout ⟨fun _ _ => 0, fun _ => none, fun _ => 0⟩
      (gptSetBootPartitionIndex 0) .fresh 0 (fun _ => 0) _ _ _ _
      (bind_eq_ok.mpr ⟨_, located, rfl⟩)).entries
    have before := ((afterSector_same _).entriesSound.mp entries).crc
    exact absurd before (by decide +kernel)

theorem goodDisk_header : HeaderSound goodDisk (headerRead goodDisk .fresh) where
  signature := by decide +kernel
  revision := by decide +kernel
  size := by decide +kernel
  crc := by decide +kernel
  currentLBA := by decide +kernel
  partitionEntriesStartingLBA := by decide +kernel

theorem goodDisk_entries : EntriesSound goodDisk (headerRead goodDisk .fresh) where
  ends := by unfold EntriesEnd; decide +kernel
  crc := by decide +kernel

theorem boot_partition_sound_iff_good :
    BootFound goodDisk (headerRead goodDisk .fresh) 0 0 ∧
      ∀ g' p entry, gptFindBootSectorIndex goodDisk 0 (headerRead goodDisk .fresh) =
          .ok (g', some (p, entry)) →
        BootSectorSound goodDisk (headerRead goodDisk .fresh) p := by
  have session : GptSession goodDisk (headerRead goodDisk .fresh) :=
    .readHeader (gptReadHeader_eq_headerRead.mpr ⟨rfl, goodDisk_header, rfl⟩)
  refine ⟨⟨.inl rfl, .inr ⟨fun _ _ => rfl, goodDisk_entries⟩,
    ⟨Nat.le_refl 0, by decide +kernel, by decide +kernel, fun q _ less => by omega⟩,
    fun _ _ => rfl⟩, ?_⟩
  exact ((boot_partition_sound_iff goodDisk).1 _ 0 session).mpr (.inl goodDisk_header)

end Hss
