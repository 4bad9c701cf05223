import Hss.Boot.Gpt

/-! The bytes of the entries of a partition table: those that the reader gives, those that are on the
disk, and the checksum that is taken of them. -/

namespace Hss

variable {d : GptDisk} {g : Gpt}

/-! ### Entries on the disk and in the window -/

section
variable (d : GptDisk) (g : Gpt)

/-- Byte `k` of entry `index` on the disk. -/
def diskByte (index : Word) (k : ℕ) : BitVec 8 :=
  d.content (g.partitionEntriesStartingLBA * d.lbaSize +
    g.sizeOfPartitionEntry.setWidth 64 * index + BitVec.ofNat 64 k)

/-- Byte `k` of entry `index` as it is read: past its first sector it is what the window holds. -/
def tableByte (index : Word) (k : ℕ) : BitVec 8 :=
  if entryOffset d g index + k < d.lbaSize.toNat then diskByte d g index k
  else g.lbaBuffer (entryOffset d g index + k)

/-- The first `size` bytes of entry `index` end in the sector that they start in. -/
def InSector (size : ℕ) (index : Word) : Prop := entryOffset d g index + size ≤ d.lbaSize.toNat

/-- Where the reader gives entry `index` it gives the bytes that are on the disk. -/
def ReadsEntry (index : Word) : Prop :=
  ∀ entry, (gptReadPartitionEntryByIndex d index g).2 = some entry →
    ∀ k < g.sizeOfPartitionEntry.toNat,
      (gptReadPartitionEntryByIndex d index g).1.lbaBuffer (entry + k) = diskByte d g index k

/-- The array of entries on the disk. -/
def diskEntries : Bytes :=
  (List.range (g.numPartitions.toNat * g.sizeOfPartitionEntry.toNat)).map fun p =>
    d.content (g.partitionEntriesStartingLBA * d.lbaSize + BitVec.ofNat 64 p)

/-- `n` entries from entry `i` on, as they are read. -/
def tableEntries (i n : ℕ) : Bytes :=
  (List.range n).flatMap fun k =>
    (List.range g.sizeOfPartitionEntry.toNat).map (tableByte d g (BitVec.ofNat 64 (i + k)))

end

/-- The table is the same: the header, and what the window holds past its first sector. -/
structure SameTable (d : GptDisk) (g g' : Gpt) : Prop where
  buffer : g'.buffer = g.buffer
  past : ∀ i, d.lbaSize.toNat ≤ i → g'.lbaBuffer i = g.lbaBuffer i

theorem SameTable.refl (g : Gpt) : SameTable d g g := ⟨rfl, fun _ _ => rfl⟩

theorem SameTable.trans {g₁ g₂ g₃ : Gpt} (first : SameTable d g₁ g₂) (second : SameTable d g₂ g₃) :
    SameTable d g₁ g₃ :=
  ⟨second.buffer.trans first.buffer, fun i past => (second.past i past).trans (first.past i past)⟩

section
variable {g' : Gpt} (same : SameTable d g g')
include same

theorem SameTable.sizeOfPartitionEntry : g'.sizeOfPartitionEntry = g.sizeOfPartitionEntry := by
  rw [Gpt.sizeOfPartitionEntry, same.buffer, Gpt.sizeOfPartitionEntry]

theorem SameTable.numPartitions : g'.numPartitions = g.numPartitions := by
  rw [Gpt.numPartitions, same.buffer, Gpt.numPartitions]

theorem SameTable.partitionEntriesStartingLBA :
    g'.partitionEntriesStartingLBA = g.partitionEntriesStartingLBA := by
  rw [Gpt.partitionEntriesStartingLBA, same.buffer, Gpt.partitionEntriesStartingLBA]

theorem SameTable.entryOffset (index : Word) : entryOffset d g' index = entryOffset d g index := by
  rw [Hss.entryOffset, same.sizeOfPartitionEntry, Hss.entryOffset]

theorem SameTable.diskByte (index : Word) (k : ℕ) :
    diskByte d g' index k = diskByte d g index k := by
  rw [Hss.diskByte, same.partitionEntriesStartingLBA, same.sizeOfPartitionEntry, Hss.diskByte]

theorem SameTable.tableByte (index : Word) : tableByte d g' index = tableByte d g index := by
  funext k
  unfold Hss.tableByte
  rw [same.entryOffset, same.diskByte]
  split
  · rfl
  · next past => exact same.past _ (not_lt.mp past)

theorem SameTable.tableEntries (i n : ℕ) : tableEntries d g' i n = tableEntries d g i n := by
  simp only [Hss.tableEntries, same.tableByte, same.sizeOfPartitionEntry]

theorem SameTable.diskEntries : diskEntries d g' = diskEntries d g := by
  simp only [Hss.diskEntries, same.numPartitions, same.sizeOfPartitionEntry,
    same.partitionEntriesStartingLBA]

end

theorem afterSector_same (index : Word) : SameTable d g (afterSector d index g) := by
  refine ⟨rfl, fun i past => ?_⟩
  have outside : ¬ (0 ≤ i ∧ i < 0 + d.lbaSize.toNat) := by omega
  simp only [afterSector, readBlock, outside, if_false]

/-- Where byte `k` of the sector of an entry is on the disk. -/
theorem sector_address (index : Word) (k : ℕ) :
    lbaIndexOf d index g * d.lbaSize + BitVec.ofNat 64 (entryOffset d g index + k) =
      g.partitionEntriesStartingLBA * d.lbaSize + g.sizeOfPartitionEntry.setWidth 64 * index +
        BitVec.ofNat 64 k := by
  have offset : BitVec.ofNat 64 (entryOffset d g index) =
      g.sizeOfPartitionEntry.setWidth 64 * index % d.lbaSize := by
    rw [entryOffset, ← BitVec.toNat_umod, BitVec.ofNat_toNat, BitVec.setWidth_eq]
  have split := sub_div_mul (g.sizeOfPartitionEntry.setWidth 64 * index) d.lbaSize
  rw [BitVec.ofNat_add, offset, ← split, lbaIndexOf, mul_comm index]
  ring

theorem afterSector_byte {index : Word} (read : d.fails g.reads = false) (k : ℕ) :
    (afterSector d index g).lbaBuffer (entryOffset d g index + k) = tableByte d g index k := by
  unfold tableByte
  split
  · next inside =>
    have inside : 0 ≤ entryOffset d g index + k ∧ entryOffset d g index + k < 0 + d.lbaSize.toNat := by
      omega
    simp only [afterSector, readBlock, inside, and_self, if_true, read, Bool.false_eq_true, if_false,
      Nat.sub_zero]
    rw [sector_address, diskByte]
  · next outside => exact (afterSector_same index).past _ (not_lt.mp outside)

theorem tableByte_eq_disk {index : Word} {size k : ℕ} (inside : InSector d g size index)
    (less : k < size) : tableByte d g index k = diskByte d g index k :=
  if_pos (Nat.lt_of_lt_of_le (Nat.add_lt_add_left less _) inside)

/-- The table of `g`, with anything in the window and any number of reads before. -/
def Gpt.reread (g : Gpt) (window : GptBuffer) (reads : ℕ) : Gpt :=
  { g with
    lbaBuffer := window
    reads }

theorem readsEntry_iff {index : Word} : ReadsEntry d g index ↔ (d.fails g.reads = false →
    ∀ k < g.sizeOfPartitionEntry.toNat, tableByte d g index k = diskByte d g index k) := by
  unfold ReadsEntry gptReadPartitionEntryByIndex
  rw [readPartitionEntryIntoBuffer_eq]
  cases read : d.fails g.reads with
  | true => simp
  | false =>
    simp only [Bool.false_eq_true, if_false, Option.some.injEq, forall_eq', afterSector_byte read,
      true_imp_iff]

/-- Whatever the window holds the reader gives the entry, if and only if that ends in its sector. -/
theorem readsEntry_always_iff {index : Word} :
    (∀ window reads, ReadsEntry d (g.reread window reads) index) ↔
      ((∃ n, d.fails n = false) → InSector d g g.sizeOfPartitionEntry.toNat index) := by
  constructor
  · rintro reads ⟨n, read⟩
    by_contra straddles
    have straddles : d.lbaSize.toNat < entryOffset d g index + g.sizeOfPartitionEntry.toNat :=
      not_le.mp straddles
    have start := entryOffset_lt (d := d) (g := g) index
    -- the first byte past the sector is not what the window holds
    obtain ⟨k, inside, last⟩ : ∃ k < g.sizeOfPartitionEntry.toNat,
        entryOffset d g index + k = d.lbaSize.toNat :=
      ⟨d.lbaSize.toNat - entryOffset d g index, by omega, by omega⟩
    have given := readsEntry_iff.mp (reads (fun _ => ~~~ diskByte d g index k) n) read k inside
    have stale : tableByte d (g.reread (fun _ => ~~~ diskByte d g index k) n) index k =
        ~~~ diskByte d g index k := if_neg (not_lt.mpr last.ge)
    rw [stale] at given
    have changed (byte : BitVec 8) : ~~~ byte ≠ byte := by
      revert byte
      decide
    exact changed _ given
  · intro inside window reads
    exact readsEntry_iff.mpr fun read k less =>
      tableByte_eq_disk (g := g.reread window reads) (inside ⟨reads, read⟩) less

/-! ### The checksum of the entries -/

@[simp] theorem crc32CalculateEx_nil (seed : BitVec 32) : crc32CalculateEx seed [] = seed := by
  simp [crc32CalculateEx]

theorem crc32CalculateEx_append (seed : BitVec 32) (a b : Bytes) :
    crc32CalculateEx (crc32CalculateEx seed a) b = crc32CalculateEx seed (a ++ b) := by
  simp [crc32CalculateEx, List.foldl_append]

theorem crc32CalculateEx_zero (input : Bytes) :
    crc32CalculateEx 0 input = crc32Calculate input := rfl

/-- The next `n` reads succeed. -/
def ReadsSucceed (d : GptDisk) (g : Gpt) (n : ℕ) : Prop := ∀ j < n, d.fails (g.reads + j) = false

/-- `n` entries from entry `i` on end in the window. -/
def EntriesEnd (d : GptDisk) (g : Gpt) (i n : ℕ) : Prop :=
  ∀ k < n, entryOffset d g (BitVec.ofNat 64 (i + k)) + g.sizeOfPartitionEntry.toNat ≤
    2 * d.maxLbaSize

/-- The state after `n` entries from entry `i` on were read. -/
def afterEntries (d : GptDisk) : ℕ → ℕ → Gpt → Gpt
  | _, 0, g => g
  | i, n + 1, g => afterEntries d (i + 1) n (afterSector d (BitVec.ofNat 64 i) g)

theorem afterEntries_same (i n : ℕ) (g : Gpt) : SameTable d g (afterEntries d i n g) := by
  induction n generalizing i g with
  | zero => exact .refl g
  | succ n ih => exact (afterSector_same _).trans (ih _ _)

theorem afterEntries_reads (i n : ℕ) (g : Gpt) :
    (afterEntries d i n g).reads = g.reads + n := by
  induction n generalizing i g with
  | zero => rfl
  | succ n ih =>
    have one : (afterSector d (BitVec.ofNat 64 i) g).reads = g.reads + 1 := rfl
    rw [afterEntries, ih, one]
    omega

theorem afterEntries_headerValid (i n : ℕ) (g : Gpt) :
    (afterEntries d i n g).headerValid = g.headerValid := by
  induction n generalizing i g with
  | zero => rfl
  | succ n ih => exact ih (i + 1) _

theorem afterEntries_partitionEntriesValid (i n : ℕ) (g : Gpt) :
    (afterEntries d i n g).partitionEntriesValid = g.partitionEntriesValid := by
  induction n generalizing i g with
  | zero => rfl
  | succ n ih => exact ih (i + 1) _

theorem afterEntries_succ (i n : ℕ) (g : Gpt) : afterEntries d i (n + 1) g =
    afterSector d (BitVec.ofNat 64 (i + n)) (afterEntries d i n g) := by
  induction n generalizing i g with
  | zero => rfl
  | succ n ih =>
    have last : i + 1 + n = i + (n + 1) := by omega
    rw [afterEntries, ih, last]
    rfl

theorem readsSucceed_succ {n : ℕ} (index : Word) : ReadsSucceed d g (n + 1) ↔
    d.fails g.reads = false ∧ ReadsSucceed d (afterSector d index g) n := by
  have one : (afterSector d index g).reads = g.reads + 1 := rfl
  unfold ReadsSucceed
  rw [one]
  constructor
  · intro all
    refine ⟨all 0 (by omega), fun j less => ?_⟩
    rw [Nat.add_assoc, Nat.add_comm 1]
    exact all (j + 1) (by omega)
  · rintro ⟨first, rest⟩ j less
    cases j with
    | zero => exact first
    | succ j =>
      rw [← Nat.add_assoc, Nat.add_right_comm]
      exact rest j (by omega)

theorem entriesEnd_succ {i n : ℕ} : EntriesEnd d g i (n + 1) ↔
    entryOffset d g (BitVec.ofNat 64 i) + g.sizeOfPartitionEntry.toNat ≤ 2 * d.maxLbaSize ∧
      EntriesEnd d g (i + 1) n := by
  constructor
  · intro all
    refine ⟨all 0 (by omega), fun k less => ?_⟩
    rw [Nat.add_assoc, Nat.add_comm 1]
    exact all (k + 1) (by omega)
  · rintro ⟨first, rest⟩ k less
    cases k with
    | zero => exact first
    | succ k =>
      rw [← Nat.add_assoc, Nat.add_right_comm]
      exact rest k (by omega)

theorem SameTable.entriesEnd {g' : Gpt} (same : SameTable d g g') (i n : ℕ) :
    EntriesEnd d g' i n ↔ EntriesEnd d g i n := by
  simp only [EntriesEnd, same.entryOffset, same.sizeOfPartitionEntry]

theorem tableEntries_succ (i n : ℕ) : tableEntries d g i (n + 1) =
    (List.range g.sizeOfPartitionEntry.toNat).map (tableByte d g (BitVec.ofNat 64 i)) ++
      tableEntries d g (i + 1) n := by
  simp only [tableEntries, List.range_succ_eq_map, List.flatMap_cons, List.flatMap_map, Nat.add_zero,
    Nat.succ_eq_add_one, Nat.add_assoc i 1, Nat.add_comm 1]

/-- The loop comes to its end exactly when its reads succeed and its entries end in the window, and
then with the checksum of the entries as they are read. -/
theorem rollingCrc_eq_some_iff (i n : ℕ) (crc c : BitVec 32) (g g' : Gpt) :
    rollingCrc d n i crc g = .ok (g', some c) ↔ ReadsSucceed d g n ∧ EntriesEnd d g i n ∧
      afterEntries d i n g = g' ∧ crc32CalculateEx crc (tableEntries d g i n) = c := by
  induction n generalizing i crc g with
  | zero =>
    have nothing : tableEntries d g i 0 = [] := rfl
    have reads : ReadsSucceed d g 0 := fun j less => absurd less (Nat.not_lt_zero j)
    have ends : EntriesEnd d g i 0 := fun k less => absurd less (Nat.not_lt_zero k)
    rw [rollingCrc, afterEntries, nothing, crc32CalculateEx_nil, Except.ok.injEq, Prod.mk.injEq,
      Option.some.injEq, and_iff_right reads, and_iff_right ends]
  | succ n ih =>
    have same := afterSector_same (d := d) (g := g) (BitVec.ofNat 64 i)
    rw [rollingCrc, readPartitionEntryIntoBuffer_eq, readsSucceed_succ (BitVec.ofNat 64 i),
      entriesEnd_succ, tableEntries_succ, ← crc32CalculateEx_append, afterEntries]
    cases fails : d.fails g.reads with
    | true => simp
    | false =>
      simp only [Bool.false_eq_true, if_false, readBuffer, same.sizeOfPartitionEntry,
        afterSector_byte fails, true_and]
      split
      · next ends =>
        have rest := ih (i + 1) (crc32CalculateEx crc ((List.range g.sizeOfPartitionEntry.toNat).map
          (tableByte d g (BitVec.ofNat 64 i)))) (afterSector d (BitVec.ofNat 64 i) g)
        rw [same.entriesEnd, same.tableEntries] at rest
        simp only [ends, true_and]
        exact rest
      · next past => simp [bind, Except.bind, past]

/-- Entries that end in their sectors are on the disk as they are read. -/
theorem tableEntries_eq_disk (n : ℕ) (inside : ∀ i < n,
      InSector d g g.sizeOfPartitionEntry.toNat (BitVec.ofNat 64 i)) :
    tableEntries d g 0 n = (List.range (n * g.sizeOfPartitionEntry.toNat)).map fun p =>
      d.content (g.partitionEntriesStartingLBA * d.lbaSize + BitVec.ofNat 64 p) := by
  induction n with
  | zero => simp [tableEntries]
  | succ n ih =>
    have last : (List.range g.sizeOfPartitionEntry.toNat).map (tableByte d g (BitVec.ofNat 64 n)) =
        (List.range g.sizeOfPartitionEntry.toNat).map fun k =>
          d.content (g.partitionEntriesStartingLBA * d.lbaSize +
            BitVec.ofNat 64 (n * g.sizeOfPartitionEntry.toNat + k)) := by
      refine List.map_congr_left fun k less => ?_
      have size := BitVec.ofNat_toNat 64 g.sizeOfPartitionEntry
      rw [tableByte_eq_disk (inside n (by omega)) (List.mem_range.mp less), diskByte,
        BitVec.ofNat_add, BitVec.ofNat_mul, size, mul_comm (BitVec.ofNat 64 n), add_assoc]
    have init := ih fun i less => inside i (by omega)
    simp only [tableEntries, Nat.zero_add] at init ⊢
    rw [List.range_succ, List.flatMap_append, init, Nat.add_one_mul, List.range_add, List.map_append,
      List.flatMap_singleton, last, List.map_map]
    rfl

/-- The entries of a table and their checksum are those on the disk, whatever the window holds. -/
structure ReadsTable (d : GptDisk) (g : Gpt) : Prop where
  entries : ∀ window reads, ∀ i < g.numPartitions.toNat,
    ReadsEntry d (g.reread window reads) (BitVec.ofNat 64 i)
  checksum : ∀ window reads, ReadsSucceed d (g.reread window reads) g.numPartitions.toNat →
    ∃ g', rollingCrc d g.numPartitions.toNat 0 0 (g.reread window reads) =
      .ok (g', some (crc32Calculate (diskEntries d g)))

theorem rollingCrc_of_inSector (inside : ∀ i < g.numPartitions.toNat,
      InSector d g g.sizeOfPartitionEntry.toNat (BitVec.ofNat 64 i))
    (reads : ReadsSucceed d g g.numPartitions.toNat) :
    ∃ g', rollingCrc d g.numPartitions.toNat 0 0 g =
      .ok (g', some (crc32Calculate (diskEntries d g))) := by
  have ends : EntriesEnd d g 0 g.numPartitions.toNat := by
    intro i less
    have sector : d.lbaSize.toNat ≤ d.maxLbaSize := d.lbaSize_le
    have inside := inside i less
    unfold InSector at inside
    rw [Nat.zero_add]
    omega
  exact ⟨_, (rollingCrc_eq_some_iff ..).mpr ⟨reads, ends, rfl, by
    rw [tableEntries_eq_disk _ inside, crc32CalculateEx_zero, diskEntries]⟩⟩

/-- The reader gives an entry as it is on the disk, if and only if the entry ends in the sector that
it starts in: the second sector is never read.  So it is for the checksum of the table. -/
theorem entries_on_disk_iff (d : GptDisk) (g : Gpt) :
    (∀ index, (∀ window reads, ReadsEntry d (g.reread window reads) index) ↔
      ((∃ n, d.fails n = false) → InSector d g g.sizeOfPartitionEntry.toNat index)) ∧
    (ReadsTable d g ↔ ((∃ n, d.fails n = false) → ∀ i < g.numPartitions.toNat,
      InSector d g g.sizeOfPartitionEntry.toNat (BitVec.ofNat 64 i))) := by
  refine ⟨fun index => readsEntry_always_iff, fun table read i less => ?_, fun inside => ⟨?_, ?_⟩⟩
  · exact readsEntry_always_iff.mp (fun window reads => table.entries window reads i less) read
  · intro window reads i less
    exact readsEntry_always_iff.mpr (fun read => inside read i less) window reads
  · intro window reads succeed
    refine rollingCrc_of_inSector (g := g.reread window reads) (fun i less => ?_) succeed
    exact inside ⟨reads, succeed 0 (Nat.zero_lt_of_lt less)⟩ i less

theorem sectorBytes_pos : 0 < (512 : Word).toNat := by decide

theorem sectorBytes_le : (512 : Word).toNat ≤ gptMaxLbaSize false := by decide

/-- A disk with sectors of 512 bytes and two entries of 384 bytes, the second of which straddles the
end of a sector. -/
def straddlingDisk : GptDisk where
  serviceQspi := false
  lbaSize := 512
  lbaSize_pos := sectorBytes_pos
  lbaSize_le := sectorBytes_le
  content := fieldsMem [(584, 8, 2), (592, 4, 2), (596, 4, 384), (1536, 1, 0xAA)]
  fails _ := false
  left _ _ := 0

/-- The header of that disk was read. -/
def Gpt.straddling : Gpt :=
  { Gpt.fresh with buffer := (readBlock straddlingDisk (fun _ => 0) 0 512 0).1 }

theorem straddling_entry : ¬ ∀ d g index, (∀ n, d.fails n = false) →
    g.sizeOfPartitionEntry.toNat ≤ 2 * d.maxLbaSize → ReadsEntry d g index := by
  intro reads
  have given := readsEntry_iff.mp (reads straddlingDisk .straddling 1 (fun _ => rfl)
    (by decide +kernel)) rfl 128 (by decide +kernel)
  exact absurd given (by decide +kernel)

end Hss
