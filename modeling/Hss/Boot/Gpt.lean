import Hss.Boot.Image

/-! The partition table of a disk: the header and the entries are read sector by sector into two
buffers, and lengths that the disk gives are used to read them again. -/

namespace Hss

/-- `GPT_MAX_LBA_SIZE` -/
def gptMaxLbaSize (serviceQspi : Bool) : ℕ := if serviceQspi then 2048 else 512

/-- A disk and its sector size, which the header buffer holds.  Read `n` of a sector can fail, and
then leaves anything in the buffer that it reads to. -/
structure GptDisk where
  serviceQspi : Bool
  lbaSize : Word
  lbaSize_pos : 0 < lbaSize.toNat
  lbaSize_le : lbaSize.toNat ≤ gptMaxLbaSize serviceQspi
  content : Word → BitVec 8
  fails : ℕ → Bool
  left : ℕ → ℕ → BitVec 8

/-- The bytes of a buffer, and past its end. -/
abbrev GptBuffer := ℕ → BitVec 8

/-- `HSS_GPT_t`, and the number of sectors that were read.  The sector size is that of the disk. -/
structure Gpt where
  buffer : GptBuffer
  lbaBuffer : GptBuffer
  headerValid : Bool
  partitionEntriesValid : Bool
  reads : ℕ

/-- A read outside of a buffer or through a null entry, or an assertion. -/
inductive GptStop
  | outsideHeader
  | outsideLbaBuffer
  | nullEntry
  | assertion
  deriving DecidableEq, Repr

/-- The little-endian value of the `n` bytes from `p` on. -/
def leAt (buffer : GptBuffer) (p : ℕ) : ℕ → ℕ
  | 0 => 0
  | n + 1 => (buffer p).toNat + 256 * leAt buffer (p + 1) n

/-- The `n` bytes from `p` on of a buffer of `size` bytes. -/
def readBuffer (outside : GptStop) (size : ℕ) (buffer : GptBuffer) (p n : ℕ) :
    Except GptStop Bytes :=
  if p + n ≤ size then .ok ((List.range n).map fun i => buffer (p + i)) else .error outside

namespace Gpt

variable (g : Gpt)

/-! The fields of `HSS_GPT_Header_t`. -/

def signature : Bytes := (List.range 8).map g.buffer
def revision : BitVec 32 := BitVec.ofNat 32 (leAt g.buffer 8 4)
def headerSize : BitVec 32 := BitVec.ofNat 32 (leAt g.buffer 12 4)
def headerCrc32 : BitVec 32 := BitVec.ofNat 32 (leAt g.buffer 16 4)
def currentLBA : Word := BitVec.ofNat 64 (leAt g.buffer 24 8)
def partitionEntriesStartingLBA : Word := BitVec.ofNat 64 (leAt g.buffer 72 8)
def numPartitions : BitVec 32 := BitVec.ofNat 32 (leAt g.buffer 80 4)
def sizeOfPartitionEntry : BitVec 32 := BitVec.ofNat 32 (leAt g.buffer 84 4)
def partitionEntriesArrayCrc32 : BitVec 32 := BitVec.ofNat 32 (leAt g.buffer 88 4)

end Gpt

/-- `GPT_EXPECTED_SIGNATURE` -/
def gptExpectedSignature : Bytes := [0x45, 0x46, 0x49, 0x20, 0x50, 0x41, 0x52, 0x54]

/-- `GPT_EXPECTED_REVISION` -/
def gptExpectedRevision : BitVec 32 := 0x00010000

/-- `CRC32_calculate_ex` -/
def crc32CalculateEx (seed : BitVec 32) (input : Bytes) : BitVec 32 :=
  ~~~input.foldl crc32UpdateByte (~~~seed)

section
variable (d : GptDisk)

def GptDisk.maxLbaSize : ℕ := gptMaxLbaSize d.serviceQspi

/-- The disk's `readBlock`, of the sector at `srcOffset` to `dest` on. -/
def readBlock (buffer : GptBuffer) (dest : ℕ) (srcOffset : Word) (reads : ℕ) : GptBuffer × Bool :=
  let content : ℕ → BitVec 8 :=
    if d.fails reads then d.left reads else fun i => d.content (srcOffset + BitVec.ofNat 64 i)
  (fun i => if dest ≤ i ∧ i < dest + d.lbaSize.toNat then content (i - dest) else buffer i,
    !d.fails reads)

/-- `GPT_ValidateHeader` -/
def gptValidateHeader (g : Gpt) : Except GptStop (Gpt × Bool) :=
  if g.signature ≠ gptExpectedSignature then .ok (g, false)
  else if g.revision ≠ gptExpectedRevision then .ok (g, false)
  else do
    let zeroCrc : GptBuffer := fun i => if 16 ≤ i ∧ i < 20 then 0 else g.buffer i
    let header ← readBuffer .outsideHeader d.maxLbaSize zeroCrc 0 g.headerSize.toNat
    if crc32CalculateEx 0 header ≠ g.headerCrc32 then return (g, false)
    else if g.currentLBA ≠ 1 then return (g, false)
    else if g.partitionEntriesStartingLBA ≠ 2 then return (g, false)
    else return ({ g with headerValid := true }, true)

/-- `GPT_ReadHeader` -/
def gptReadHeader (g : Gpt) : Except GptStop (Gpt × Bool) :=
  let (buffer, retVal) := readBlock d g.buffer 0 (1 * d.lbaSize) g.reads
  let g := { g with buffer, reads := g.reads + 1 }
  if retVal = false then .ok (g, false) else gptValidateHeader d g

/-- `ReadPartitionEntryIntoBuffer_`: where in the LBA buffer the entry is, or null. -/
def readPartitionEntryIntoBuffer (lbaIndex partitionIndex : Word) (g : Gpt) : Gpt × Option ℕ :=
  let offset := g.sizeOfPartitionEntry.setWidth 64 * partitionIndex -
    (lbaIndex - g.partitionEntriesStartingLBA) * d.lbaSize
  let (lbaBuffer, retVal) := readBlock d g.lbaBuffer 0 (lbaIndex * d.lbaSize) g.reads
  let g := { g with lbaBuffer, reads := g.reads + 1 }
  if retVal = false then (g, none)
  else if offset ≥ d.lbaSize then
    let (lbaBuffer, retVal) := readBlock d g.lbaBuffer d.lbaSize.toNat
      ((lbaIndex + 1) * d.lbaSize) g.reads
    ({ g with lbaBuffer, reads := g.reads + 1 }, if retVal then some offset.toNat else none)
  else (g, some offset.toNat)

/-- The sector that entry `partitionIndex` starts in. -/
def lbaIndexOf (partitionIndex : Word) (g : Gpt) : Word :=
  g.partitionEntriesStartingLBA +
    partitionIndex * g.sizeOfPartitionEntry.setWidth 64 / d.lbaSize

/-- `GPT_PartitionIdToLBAOffset` -/
def gptPartitionIdToLBAOffset (partitionIndex : Word) (g : Gpt) :
    Except GptStop (Gpt × Option Word) := do
  let (g', entry) := readPartitionEntryIntoBuffer d (lbaIndexOf d partitionIndex g) partitionIndex g
  if partitionIndex < g.numPartitions.setWidth 64 then
    match entry with
    | none => .error .nullEntry
    | some offset =>
      let _ ← readBuffer .outsideLbaBuffer (2 * d.maxLbaSize) g'.lbaBuffer (offset + 32) 8
      return (g', some (BitVec.ofNat 64 (leAt g'.lbaBuffer (offset + 32) 8)))
  else return (g', none)

/-- `GPT_ReadPartitionEntryByIndex` -/
def gptReadPartitionEntryByIndex (partitionIndex : Word) (g : Gpt) : Gpt × Option ℕ :=
  readPartitionEntryIntoBuffer d (lbaIndexOf d partitionIndex g) partitionIndex g

/-- The loop of `FindPartitionById_`, with `n` entries to go.  The GUID that is compared is at
`guidOffset` of an entry. -/
def findPartitionById (guidOffset : ℕ) (pGuid : Bytes) (pPartitionIndex : Word) :
    ℕ → ℕ → Gpt → Except GptStop (Gpt × Option (ℕ × ℕ))
  | 0, _, g => .ok (g, none)
  | n + 1, partitionIndex, g =>
    match gptReadPartitionEntryByIndex d (BitVec.ofNat 64 partitionIndex) g with
    | (_, none) => .error .assertion
    | (g, some entry) =>
      if partitionIndex < pPartitionIndex.toNat then
        findPartitionById guidOffset pGuid pPartitionIndex n (partitionIndex + 1) g
      else do
        let guid ← readBuffer .outsideLbaBuffer (2 * d.maxLbaSize) g.lbaBuffer (entry + guidOffset) 16
        if guid = pGuid then return (g, some (partitionIndex, entry))
        else findPartitionById guidOffset pGuid pPartitionIndex n (partitionIndex + 1) g

/-- `GPT_FindPartitionByTypeId` -/
def gptFindPartitionByTypeId (pGuid : Bytes) (pPartitionIndex : Word) (g : Gpt) :
    Except GptStop (Gpt × Option (ℕ × ℕ)) :=
  findPartitionById d 0 pGuid pPartitionIndex g.numPartitions.toNat 0 g

/-- `GPT_FindPartitionByUniqueId` -/
def gptFindPartitionByUniqueId (pGuid : Bytes) (pPartitionIndex : Word) (g : Gpt) :
    Except GptStop (Gpt × Option (ℕ × ℕ)) :=
  findPartitionById d 16 pGuid pPartitionIndex g.numPartitions.toNat 0 g

/-- The loop of `GPT_ValidatePartitionEntries`, with `n` entries to go: the checksum of the entries,
unless one cannot be read. -/
def rollingCrc : ℕ → ℕ → BitVec 32 → Gpt → Except GptStop (Gpt × Option (BitVec 32))
  | 0, _, crc, g => .ok (g, some crc)
  | n + 1, partitionIndex, crc, g =>
    let index := BitVec.ofNat 64 partitionIndex
    match readPartitionEntryIntoBuffer d (lbaIndexOf d index g) index g with
    | (g, none) => .ok (g, none)
    | (g, some entry) => do
      let bytes ← readBuffer .outsideLbaBuffer (2 * d.maxLbaSize) g.lbaBuffer entry
        g.sizeOfPartitionEntry.toNat
      rollingCrc n (partitionIndex + 1) (crc32CalculateEx crc bytes) g

/-- `GPT_ValidatePartitionEntries` -/
def gptValidatePartitionEntries (g : Gpt) : Except GptStop (Gpt × Bool) := do
  let (g, crc) ← rollingCrc d g.numPartitions.toNat 0 0 g
  if crc = some g.partitionEntriesArrayCrc32 then
    return ({ g with partitionEntriesValid := true }, true)
  else return (g, false)

/-- The type of a boot partition. -/
def diskGuid : Bytes :=
  [0x48, 0x61, 0x68, 0x21, 0x49, 0x64, 0x6F, 0x6E, 0x74, 0x4E, 0x65, 0x65, 0x64, 0x45, 0x46, 0x49]

/-- The header is validated, unless it has been. -/
def headerOnce (g : Gpt) : Except GptStop (Gpt × Bool) :=
  if g.headerValid then .ok (g, true) else gptValidateHeader d g

/-- The entries are validated, unless they have been. -/
def entriesOnce (g : Gpt) : Except GptStop (Gpt × Bool) :=
  if g.partitionEntriesValid then .ok (g, true) else gptValidatePartitionEntries d g

/-- `GPT_FindBootSectorIndex`.  The outcome of the validation of the header is overwritten. -/
def gptFindBootSectorIndex (srcIndex : Word) (g : Gpt) : Except GptStop (Gpt × Option (ℕ × ℕ)) := do
  let (g, _) ← headerOnce d g
  let (g, result) ← entriesOnce d g
  if result then gptFindPartitionByTypeId d diskGuid srcIndex g else return (g, none)

end

/-! ### Memory safety -/

/-- Nothing outside of the buffers is read, and no null entry. -/
def MemorySafe {α : Type} (x : Except GptStop α) : Prop := ∀ stop, x = .error stop → stop = .assertion

/-- The calls of the routines. -/
inductive GptCall
  | readHeader
  | validateHeader
  | validatePartitionEntries
  | readPartitionEntryByIndex (partitionIndex : Word)
  | findPartitionByTypeId (pGuid : Bytes) (pPartitionIndex : Word)
  | findPartitionByUniqueId (pGuid : Bytes) (pPartitionIndex : Word)
  | partitionIdToLBAOffset (partitionIndex : Word)
  | findBootSectorIndex (srcIndex : Word)

/-- What a call does to the state. -/
def gptCall (d : GptDisk) (g : Gpt) : GptCall → Except GptStop Gpt
  | .readHeader => (gptReadHeader d g).map Prod.fst
  | .validateHeader => (gptValidateHeader d g).map Prod.fst
  | .validatePartitionEntries => (gptValidatePartitionEntries d g).map Prod.fst
  | .readPartitionEntryByIndex index => .ok (gptReadPartitionEntryByIndex d index g).1
  | .findPartitionByTypeId guid index => (gptFindPartitionByTypeId d guid index g).map Prod.fst
  | .findPartitionByUniqueId guid index => (gptFindPartitionByUniqueId d guid index g).map Prod.fst
  | .partitionIdToLBAOffset index => (gptPartitionIdToLBAOffset d index g).map Prod.fst
  | .findBootSectorIndex index => (gptFindBootSectorIndex d index g).map Prod.fst

/-- A header whose signature and revision are right gives a size that the buffer holds. -/
def HeaderFits (d : GptDisk) (g : Gpt) : Prop :=
  g.signature = gptExpectedSignature → g.revision = gptExpectedRevision →
    g.headerSize.toNat ≤ d.maxLbaSize

/-- Each entry up to the first whose sector cannot be read ends in the buffer. -/
def EntriesFit (d : GptDisk) (g : Gpt) : Prop :=
  ∀ i < g.numPartitions.toNat, (∀ j ≤ i, d.fails (g.reads + j) = false) →
    g.sizeOfPartitionEntry.toNat * i % d.lbaSize.toNat + g.sizeOfPartitionEntry.toNat ≤
      2 * d.maxLbaSize

/-- What each call relies on. -/
def GptFits (d : GptDisk) (g : Gpt) : GptCall → Prop
  | .readHeader => d.fails g.reads = false →
      HeaderFits d { g with buffer := (readBlock d g.buffer 0 d.lbaSize g.reads).1 }
  | .validateHeader => HeaderFits d g
  | .validatePartitionEntries => EntriesFit d g
  | .readPartitionEntryByIndex _ => True
  | .findPartitionByTypeId _ _ => True
  | .findPartitionByUniqueId _ _ => True
  | .partitionIdToLBAOffset index =>
      index < g.numPartitions.setWidth 64 → d.fails g.reads = false
  | .findBootSectorIndex _ => (g.headerValid = true ∨ HeaderFits d g) ∧
      (g.partitionEntriesValid = true ∨ EntriesFit d g)

section
variable {d : GptDisk} {g : Gpt} {α β : Type}

theorem MemorySafe.ok (a : α) : MemorySafe (.ok a) := fun _ stopped => by cases stopped

theorem memorySafe_map {x : Except GptStop α} {f : α → β} :
    MemorySafe (x.map f) ↔ MemorySafe x := by
  cases x <;> simp [MemorySafe, Except.map]

theorem memorySafe_bind {x : Except GptStop α} {f : α → Except GptStop β} :
    MemorySafe (x >>= f) ↔ MemorySafe x ∧ ∀ a, x = .ok a → MemorySafe (f a) := by
  cases x with
  | error stop => simp [MemorySafe, bind, Except.bind]
  | ok a =>
    refine ⟨fun safe => ⟨.ok a, fun b same => ?_⟩, fun safe => safe.2 a rfl⟩
    cases same
    exact safe

/-- A read of a buffer is safe, if and only if it is in the buffer and what follows is safe. -/
theorem memorySafe_readBuffer {outside : GptStop} (real : outside ≠ .assertion) {size p n : ℕ}
    {buffer : GptBuffer} {f : Bytes → Except GptStop α} :
    MemorySafe (readBuffer outside size buffer p n >>= f) ↔
      p + n ≤ size ∧ MemorySafe (f ((List.range n).map fun i => buffer (p + i))) := by
  unfold readBuffer
  split
  · next fits => exact ⟨fun safe => ⟨fits, safe⟩, fun safe => safe.2⟩
  · next outsize => exact iff_of_false (fun safe => real (safe _ rfl)) fun safe => outsize safe.1

theorem gptValidateHeader_cases : gptValidateHeader d g = .error .outsideHeader ∨
    ∃ valid result, gptValidateHeader d g = .ok ({ g with headerValid := valid }, result) := by
  unfold gptValidateHeader
  split
  · exact .inr ⟨_, _, rfl⟩
  · split
    · exact .inr ⟨_, _, rfl⟩
    · dsimp only
      unfold readBuffer
      split
      · refine .inr ?_
        simp only [bind, Except.bind]
        split
        · exact ⟨_, _, rfl⟩
        · split
          · exact ⟨_, _, rfl⟩
          · split <;> exact ⟨_, _, rfl⟩
      · exact .inl rfl

theorem gptValidateHeader_safe_iff : MemorySafe (gptValidateHeader d g) ↔ HeaderFits d g := by
  unfold gptValidateHeader HeaderFits
  split
  · next other => exact iff_of_true (.ok _) fun same => absurd same other
  · next signature =>
    split
    · next other => exact iff_of_true (.ok _) fun _ same => absurd same other
    · next revision =>
      have signature := not_not.mp signature
      have revision := not_not.mp revision
      dsimp only
      rw [memorySafe_readBuffer (by decide), Nat.zero_add]
      refine ⟨fun safe _ _ => safe.1, fun fits => ⟨fits signature revision, ?_⟩⟩
      split
      · exact .ok _
      · split
        · exact .ok _
        · split <;> exact .ok _

/-! ### Entries -/

/-- Where entry `i` is in its sector. -/
def entryOffset (d : GptDisk) (g : Gpt) (index : Word) : ℕ :=
  (g.sizeOfPartitionEntry.setWidth 64 * index).toNat % d.lbaSize.toNat

theorem entryOffset_lt (index : Word) : entryOffset d g index < d.lbaSize.toNat :=
  Nat.mod_lt _ d.lbaSize_pos

theorem sub_div_mul (x l : Word) : x - x / l * l = x % l := by
  have less : x.toNat / l.toNat * l.toNat < 2 ^ 64 :=
    Nat.lt_of_le_of_lt (Nat.div_mul_le_self ..) x.isLt
  have sum : x = x % l + x / l * l := by
    apply BitVec.eq_of_toNat_eq
    rw [BitVec.toNat_add, BitVec.toNat_mul, BitVec.toNat_umod, BitVec.toNat_udiv,
      Nat.mod_eq_of_lt less, Nat.mod_add_div', Nat.mod_eq_of_lt x.isLt]
  exact sub_eq_iff_eq_add.mpr sum

/-- The state after the sector of an entry was read, or could not be. -/
def afterSector (d : GptDisk) (index : Word) (g : Gpt) : Gpt :=
  { g with
    lbaBuffer := (readBlock d g.lbaBuffer 0 (lbaIndexOf d index g * d.lbaSize) g.reads).1
    reads := g.reads + 1 }

/-- The second sector is never read: an entry starts in the first. -/
theorem readPartitionEntryIntoBuffer_eq (index : Word) :
    readPartitionEntryIntoBuffer d (lbaIndexOf d index g) index g =
      (afterSector d index g, if d.fails g.reads then none else some (entryOffset d g index)) := by
  have offset : g.sizeOfPartitionEntry.setWidth 64 * index -
      (lbaIndexOf d index g - g.partitionEntriesStartingLBA) * d.lbaSize =
      g.sizeOfPartitionEntry.setWidth 64 * index % d.lbaSize := by
    have sector : lbaIndexOf d index g - g.partitionEntriesStartingLBA =
        g.sizeOfPartitionEntry.setWidth 64 * index / d.lbaSize := by
      rw [lbaIndexOf, mul_comm index]
      abel
    rw [sector, sub_div_mul]
  have start : ¬ g.sizeOfPartitionEntry.setWidth 64 * index % d.lbaSize ≥ d.lbaSize := by
    rw [ge_iff_le, BitVec.le_def, BitVec.toNat_umod, not_le]
    exact entryOffset_lt index
  unfold readPartitionEntryIntoBuffer
  rw [offset]
  simp only [start, if_false]
  cases fails : d.fails g.reads <;>
    simp [readBlock, afterSector, fails, entryOffset, BitVec.toNat_umod]

theorem entryOffset_of_lt {i : ℕ} (inside : i < 2 ^ 32) :
    entryOffset d g (BitVec.ofNat 64 i) = g.sizeOfPartitionEntry.toNat * i % d.lbaSize.toNat := by
  have size := g.sizeOfPartitionEntry.isLt
  have less : g.sizeOfPartitionEntry.toNat * i < 2 ^ 64 :=
    calc g.sizeOfPartitionEntry.toNat * i
      _ < 2 ^ 32 * 2 ^ 32 := Nat.mul_lt_mul'' size inside
      _ = 2 ^ 64 := by norm_num
  rw [entryOffset, BitVec.toNat_mul, BitVec.toNat_setWidth, BitVec.toNat_ofNat,
    Nat.mod_eq_of_lt (Nat.lt_of_lt_of_le size (by decide)),
    Nat.mod_eq_of_lt (Nat.lt_of_lt_of_le inside (by decide)), Nat.mod_eq_of_lt less]

theorem rollingCrc_safe_iff {n i : ℕ} (inside : i + n ≤ 2 ^ 32) (crc : BitVec 32) (g : Gpt) :
    MemorySafe (rollingCrc d n i crc g) ↔
      ∀ k < n, (∀ j ≤ k, d.fails (g.reads + j) = false) →
        g.sizeOfPartitionEntry.toNat * (i + k) % d.lbaSize.toNat + g.sizeOfPartitionEntry.toNat ≤
          2 * d.maxLbaSize := by
  induction n generalizing i crc g with
  | zero => exact iff_of_true (.ok _) fun k less => absurd less (Nat.not_lt_zero k)
  | succ n ih =>
    rw [rollingCrc, readPartitionEntryIntoBuffer_eq]
    cases fails : d.fails g.reads with
    | true =>
      refine iff_of_true (.ok _) fun k _ none => ?_
      have first := none 0 (Nat.zero_le k)
      rw [Nat.add_zero, fails] at first
      cases first
    | false =>
      simp only [Bool.false_eq_true, if_false]
      rw [memorySafe_readBuffer (by decide), ih (by omega), entryOffset_of_lt (by omega)]
      constructor
      · rintro ⟨first, rest⟩ k less read
        cases k with
        | zero => exact first
        | succ k =>
          have later := rest k (by omega) fun j le => by
            have := read (j + 1) (by omega)
            rwa [← Nat.add_assoc, Nat.add_right_comm] at this
          rwa [Nat.add_assoc, Nat.add_comm 1 k] at later
      · refine fun all => ⟨all 0 (Nat.succ_pos n) fun j le => ?_, fun k less read => ?_⟩
        · rw [Nat.le_zero.mp le]
          exact fails
        · have later := all (k + 1) (by omega) fun j le => by
            cases j with
            | zero => exact fails
            | succ j =>
              have := read j (by omega)
              rwa [← Nat.add_assoc, Nat.add_right_comm]
          rwa [← Nat.add_assoc, Nat.add_right_comm] at later

theorem gptValidatePartitionEntries_safe_iff :
    MemorySafe (gptValidatePartitionEntries d g) ↔ EntriesFit d g := by
  have inside : 0 + g.numPartitions.toNat ≤ 2 ^ 32 := by
    rw [Nat.zero_add]
    exact g.numPartitions.isLt.le
  have loop := rollingCrc_safe_iff (d := d) inside 0 g
  simp only [Nat.zero_add] at loop
  rw [EntriesFit, ← loop, gptValidatePartitionEntries, memorySafe_bind]
  refine and_iff_left fun result _ => ?_
  dsimp only
  split <;> exact .ok _

theorem GptDisk.least (d : GptDisk) : 512 ≤ d.maxLbaSize := by
  unfold GptDisk.maxLbaSize gptMaxLbaSize
  split <;> decide

theorem findPartitionById_safe {guidOffset : ℕ} (inside : guidOffset ≤ 16) (pGuid : Bytes)
    (pPartitionIndex : Word) (n i : ℕ) (g : Gpt) :
    MemorySafe (findPartitionById d guidOffset pGuid pPartitionIndex n i g) := by
  induction n generalizing i g with
  | zero => exact .ok _
  | succ n ih =>
    rw [findPartitionById, gptReadPartitionEntryByIndex, readPartitionEntryIntoBuffer_eq]
    cases fails : d.fails g.reads with
    | true => exact fun stop stopped => (Except.error.inj stopped).symm
    | false =>
      simp only [Bool.false_eq_true, if_false]
      split
      · exact ih _ _
      · have start := entryOffset_lt (d := d) (g := g) (BitVec.ofNat 64 i)
        have sector : d.lbaSize.toNat ≤ d.maxLbaSize := d.lbaSize_le
        have least := d.least
        rw [memorySafe_readBuffer (by decide)]
        refine ⟨?_, ?_⟩
        · omega
        · split
          · exact .ok _
          · exact ih _ _

theorem gptPartitionIdToLBAOffset_safe_iff (index : Word) :
    MemorySafe (gptPartitionIdToLBAOffset d index g) ↔
      (index < g.numPartitions.setWidth 64 → d.fails g.reads = false) := by
  rw [gptPartitionIdToLBAOffset, readPartitionEntryIntoBuffer_eq]
  dsimp only
  split
  · next known =>
    cases fails : d.fails g.reads with
    | true => exact iff_of_false (fun safe => by cases safe _ rfl) fun read => by cases read known
    | false =>
      refine iff_of_true ?_ fun _ => rfl
      have inside : entryOffset d g index + 32 + 8 ≤ 2 * d.maxLbaSize := by
        have start := entryOffset_lt (d := d) (g := g) index
        have sector : d.lbaSize.toNat ≤ d.maxLbaSize := d.lbaSize_le
        have least := d.least
        omega
      simp only [Bool.false_eq_true, if_false]
      rw [memorySafe_readBuffer (by decide)]
      exact ⟨inside, .ok _⟩
  · next unknown => exact iff_of_true (.ok _) fun known => absurd known unknown

theorem gptReadHeader_safe_iff :
    MemorySafe (gptReadHeader d g) ↔ (d.fails g.reads = false →
      HeaderFits d { g with buffer := (readBlock d g.buffer 0 d.lbaSize g.reads).1 }) := by
  have sector : 1 * d.lbaSize = d.lbaSize := one_mul _
  have result : (readBlock d g.buffer 0 d.lbaSize g.reads).2 = !d.fails g.reads := rfl
  rw [gptReadHeader, sector]
  dsimp only
  rw [result]
  cases fails : d.fails g.reads with
  | true => exact iff_of_true (.ok _) fun read => by cases read
  | false =>
    simp only [Bool.not_false, Bool.true_eq_false, if_false, true_imp_iff]
    exact gptValidateHeader_safe_iff

theorem headerOnce_safe_iff :
    MemorySafe (headerOnce d g) ↔ (g.headerValid = true ∨ HeaderFits d g) := by
  unfold headerOnce
  split
  · next valid => exact iff_of_true (.ok _) (.inl valid)
  · next invalid =>
    rw [gptValidateHeader_safe_iff]
    exact ⟨.inr, fun fits => fits.resolve_left invalid⟩

theorem headerOnce_cases : headerOnce d g = .error .outsideHeader ∨
    ∃ valid result, headerOnce d g = .ok ({ g with headerValid := valid }, result) := by
  unfold headerOnce
  split
  · exact .inr ⟨_, _, rfl⟩
  · exact gptValidateHeader_cases

theorem entriesOnce_safe_iff :
    MemorySafe (entriesOnce d g) ↔ (g.partitionEntriesValid = true ∨ EntriesFit d g) := by
  unfold entriesOnce
  split
  · next valid => exact iff_of_true (.ok _) (.inl valid)
  · next invalid =>
    rw [gptValidatePartitionEntries_safe_iff]
    exact ⟨.inr, fun fits => fits.resolve_left invalid⟩

theorem gptFindBootSectorIndex_safe_iff (index : Word) :
    MemorySafe (gptFindBootSectorIndex d index g) ↔
      (g.headerValid = true ∨ HeaderFits d g) ∧
        (g.partitionEntriesValid = true ∨ EntriesFit d g) := by
  have rest (p : Gpt × Bool) : MemorySafe (if p.2 = true then
      gptFindPartitionByTypeId d diskGuid index p.1 else .ok (p.1, none)) := by
    split
    · exact findPartitionById_safe (Nat.zero_le 16) diskGuid index p.1.numPartitions.toNat 0 p.1
    · exact .ok _
  rw [gptFindBootSectorIndex, memorySafe_bind, headerOnce_safe_iff]
  refine and_congr_right fun fits => ?_
  rcases headerOnce_cases (d := d) (g := g) with stopped | ⟨valid, result, done⟩
  · have safe := headerOnce_safe_iff.mpr fits
    rw [stopped] at safe
    cases safe _ rfl
  · simp only [done, Except.ok.injEq, forall_eq']
    exact (memorySafe_bind.trans (and_iff_left fun p _ => rest p)).trans entriesOnce_safe_iff

/-- A call reads in the buffers only, if and only if the lengths that the disk gives fit and the
sector of a partition that is looked up can be read. -/
theorem gptCall_safe_iff (d : GptDisk) (g : Gpt) (call : GptCall) :
    MemorySafe (gptCall d g call) ↔ GptFits d g call := by
  cases call with
  | readHeader => exact memorySafe_map.trans gptReadHeader_safe_iff
  | validateHeader => exact memorySafe_map.trans gptValidateHeader_safe_iff
  | validatePartitionEntries => exact memorySafe_map.trans gptValidatePartitionEntries_safe_iff
  | readPartitionEntryByIndex index => exact iff_of_true (.ok _) trivial
  | findPartitionByTypeId guid index =>
    exact iff_of_true (memorySafe_map.mpr (findPartitionById_safe (Nat.zero_le 16) guid index
      g.numPartitions.toNat 0 g)) trivial
  | findPartitionByUniqueId guid index =>
    exact iff_of_true (memorySafe_map.mpr (findPartitionById_safe (Nat.le_refl 16) guid index
      g.numPartitions.toNat 0 g)) trivial
  | partitionIdToLBAOffset index =>
    exact memorySafe_map.trans (gptPartitionIdToLBAOffset_safe_iff index)
  | findBootSectorIndex index => exact memorySafe_map.trans (gptFindBootSectorIndex_safe_iff index)

end

/-- A disk with sectors of 512 bytes, whose header gives a size of 4 GiB, and 128 entries of
1028 bytes. -/
def hostileDisk (fails : Bool) : GptDisk where
  serviceQspi := false
  lbaSize := 512
  lbaSize_pos := by decide
  lbaSize_le := by decide
  content := fieldsMem [(512, 8, 0x5452415020494645), (520, 4, 0x10000), (524, 4, 0xFFFFFFFF),
    (584, 8, 2), (592, 4, 128), (596, 4, 1028)]
  fails _ := fails
  left _ _ := 0

/-- Nothing was read. -/
def Gpt.fresh : Gpt := ⟨fun _ => 0, fun _ => 0, false, false, 0⟩

/-- The header of the hostile disk was read. -/
def Gpt.hostile : Gpt :=
  { Gpt.fresh with buffer := (readBlock (hostileDisk false) (fun _ => 0) 0 512 0).1 }

theorem gptCall_unsafe :
    ¬ MemorySafe (gptCall (hostileDisk false) .fresh .readHeader) ∧
      ¬ MemorySafe (gptCall (hostileDisk false) .hostile .validatePartitionEntries) ∧
      ¬ MemorySafe (gptCall (hostileDisk true) .hostile (.partitionIdToLBAOffset 0)) := by
  refine ⟨fun safe => ?_, fun safe => ?_, fun safe => ?_⟩
  · have safe : MemorySafe (gptReadHeader (hostileDisk false) .fresh) :=
      (memorySafe_map (f := Prod.fst)).mp safe
    exact absurd (gptReadHeader_safe_iff.mp safe rfl (by decide +kernel) (by decide +kernel))
      (by decide +kernel)
  · have safe : MemorySafe (gptValidatePartitionEntries (hostileDisk false) .hostile) :=
      (memorySafe_map (f := Prod.fst)).mp safe
    exact absurd (gptValidatePartitionEntries_safe_iff.mp safe 0 (by decide +kernel) fun _ _ => rfl)
      (by decide +kernel)
  · have safe : MemorySafe (gptPartitionIdToLBAOffset (hostileDisk true) 0 .hostile) :=
      (memorySafe_map (f := Prod.fst)).mp safe
    cases (gptPartitionIdToLBAOffset_safe_iff 0).mp safe (by decide +kernel)

end Hss
