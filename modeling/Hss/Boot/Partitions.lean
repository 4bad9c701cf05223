import Hss.Boot.Entries
import Hss.Lib.Hits

/-! The checks of a partition table, and the searches for a partition by its GUID. -/

namespace Hss

open Hits

variable {d : GptDisk} {g : Gpt}

/-! ### The search -/

section
variable (d : GptDisk) (g : Gpt)

/-- The GUID at `guidOffset` of entry `i`, as it is read. -/
def tableGuid (guidOffset i : ℕ) : Bytes :=
  (List.range 16).map fun k => tableByte d g (BitVec.ofNat 64 i) (guidOffset + k)

/-- The GUID at `guidOffset` of entry `i` on the disk. -/
def diskGuidAt (guidOffset i : ℕ) : Bytes :=
  (List.range 16).map fun k => diskByte d g (BitVec.ofNat 64 i) (guidOffset + k)

end

theorem SameTable.tableGuid {g' : Gpt} (same : SameTable d g g') (guidOffset i : ℕ) :
    tableGuid d g' guidOffset i = tableGuid d g guidOffset i := by
  simp only [Hss.tableGuid, same.tableByte]

theorem tableGuid_eq_disk {guidOffset i size : ℕ} (inside : InSector d g size (BitVec.ofNat 64 i))
    (fits : guidOffset + 16 ≤ size) : tableGuid d g guidOffset i = diskGuidAt d g guidOffset i := by
  refine List.map_congr_left fun k mem => ?_
  have less := List.mem_range.mp mem
  exact tableByte_eq_disk inside (by omega)

/-- A turn of the search whose read succeeds. -/
theorem findPartitionById_succ {guidOffset : ℕ} (inside : guidOffset ≤ 16) (pGuid : Bytes)
    (pPartitionIndex : Word) (n i : ℕ) (read : d.fails g.reads = false) :
    findPartitionById d guidOffset pGuid pPartitionIndex (n + 1) i g =
      if pPartitionIndex.toNat ≤ i ∧ tableGuid d g guidOffset i = pGuid then
        .ok (afterSector d (BitVec.ofNat 64 i) g, some (i, entryOffset d g (BitVec.ofNat 64 i)))
      else
        findPartitionById d guidOffset pGuid pPartitionIndex n (i + 1)
          (afterSector d (BitVec.ofNat 64 i) g) := by
  have start := entryOffset_lt (d := d) (g := g) (BitVec.ofNat 64 i)
  have sector : d.lbaSize.toNat ≤ d.maxLbaSize := d.lbaSize_le
  have least := d.least
  have ends : entryOffset d g (BitVec.ofNat 64 i) + (guidOffset + 16) ≤ 2 * d.maxLbaSize := by omega
  rw [findPartitionById, gptReadPartitionEntryByIndex, readPartitionEntryIntoBuffer_eq, read]
  simp only [Bool.false_eq_true, if_false, readBuffer, ends, if_true, Nat.add_assoc (entryOffset ..),
    afterSector_byte read]
  by_cases early : i < pPartitionIndex.toNat
  · rw [if_pos early, if_neg fun found => absurd found.1 (not_le.mpr early)]
  · rw [if_neg early]
    by_cases same : tableGuid d g guidOffset i = pGuid
    · rw [if_pos ⟨not_lt.mp early, same⟩]
      exact if_pos same
    · rw [if_neg fun found => same found.2]
      exact if_neg same

/-- The search stops at its first hit, when the reads up to that succeed. -/
theorem findPartitionById_eq_some_iff {guidOffset : ℕ} (inside : guidOffset ≤ 16) {pGuid : Bytes}
    {pPartitionIndex : Word} {n i p entry : ℕ} {g' : Gpt} :
    findPartitionById d guidOffset pGuid pPartitionIndex n i g = .ok (g', some (p, entry)) ↔
      ∃ k < n, i + k = p ∧
        (pPartitionIndex.toNat ≤ i + k ∧ tableGuid d g guidOffset (i + k) = pGuid) ∧
        (∀ q < k, ¬ (pPartitionIndex.toNat ≤ i + q ∧ tableGuid d g guidOffset (i + q) = pGuid)) ∧
        ReadsSucceed d g (k + 1) ∧ afterEntries d i (k + 1) g = g' ∧
        entryOffset d g (BitVec.ofNat 64 p) = entry := by
  induction n generalizing i g with
  | zero => simp [findPartitionById]
  | succ n ih =>
    have same := afterSector_same (d := d) (g := g) (BitVec.ofNat 64 i)
    have next (k : ℕ) : i + 1 + k = i + (k + 1) := by omega
    cases read : d.fails g.reads with
    | true =>
      rw [findPartitionById, gptReadPartitionEntryByIndex, readPartitionEntryIntoBuffer_eq, read]
      refine iff_of_false (fun stopped => by cases stopped) ?_
      rintro ⟨k, -, -, -, -, reads, -⟩
      have first := reads 0 (Nat.succ_pos k)
      rw [Nat.add_zero, read] at first
      cases first
    | false =>
      rw [findPartitionById_succ inside pGuid pPartitionIndex n i read]
      split
      · next hit =>
        constructor
        · intro found
          simp only [Except.ok.injEq, Prod.mk.injEq, Option.some.injEq] at found
          obtain ⟨rfl, rfl, rfl⟩ := found
          exact ⟨0, by omega, rfl, hit, fun q less => absurd less (Nat.not_lt_zero q),
            fun j less => by rwa [Nat.lt_one_iff.mp less], rfl, rfl⟩
        · rintro ⟨k, -, rfl, -, none, -, rfl, rfl⟩
          cases k with
          | zero => rfl
          | succ k => exact absurd hit (none 0 (Nat.succ_pos k))
      · next miss =>
        rw [ih]
        simp only [same.tableGuid, same.entryOffset, next]
        constructor
        · rintro ⟨k, less, rfl, hit, none, reads, rfl, rfl⟩
          refine ⟨k + 1, by omega, rfl, hit, fun q before => ?_,
            (readsSucceed_succ _).mpr ⟨read, reads⟩, rfl, rfl⟩
          cases q with
          | zero => exact miss
          | succ q => exact none q (by omega)
        · rintro ⟨k, less, rfl, hit, none, reads, rfl, rfl⟩
          cases k with
          | zero => exact absurd hit miss
          | succ k =>
            exact ⟨k, by omega, rfl, hit, fun q before => none (q + 1) (by omega),
              ((readsSucceed_succ _).mp reads).2, rfl, rfl⟩

/-- The search comes to the end of the table, when all reads succeed and nothing is hit. -/
theorem findPartitionById_eq_none_iff {guidOffset : ℕ} (inside : guidOffset ≤ 16) {pGuid : Bytes}
    {pPartitionIndex : Word} {n i : ℕ} {g' : Gpt} :
    findPartitionById d guidOffset pGuid pPartitionIndex n i g = .ok (g', none) ↔
      (∀ q < n, ¬ (pPartitionIndex.toNat ≤ i + q ∧ tableGuid d g guidOffset (i + q) = pGuid)) ∧
        ReadsSucceed d g n ∧ afterEntries d i n g = g' := by
  induction n generalizing i g with
  | zero => simp [findPartitionById, afterEntries, ReadsSucceed]
  | succ n ih =>
    have same := afterSector_same (d := d) (g := g) (BitVec.ofNat 64 i)
    have next (k : ℕ) : i + 1 + k = i + (k + 1) := by omega
    rw [readsSucceed_succ (BitVec.ofNat 64 i)]
    cases read : d.fails g.reads with
    | true =>
      rw [findPartitionById, gptReadPartitionEntryByIndex, readPartitionEntryIntoBuffer_eq, read]
      refine iff_of_false (fun stopped => by cases stopped) ?_
      rintro ⟨-, ⟨fails, -⟩, -⟩
      cases fails
    | false =>
      rw [findPartitionById_succ inside pGuid pPartitionIndex n i read]
      split
      · next hit =>
        refine iff_of_false (fun found => by cases found) ?_
        rintro ⟨none, -⟩
        exact none 0 (Nat.succ_pos n) hit
      · next miss =>
        rw [ih, afterEntries]
        simp only [same.tableGuid, next, true_and]
        refine and_congr_left fun _ => ⟨fun none q less => ?_, fun none q less => ?_⟩
        · cases q with
          | zero => exact miss
          | succ q => exact none q (by omega)
        · exact none (q + 1) (by omega)

/-- A search without failing reads returns: the first hit as it is on the disk, or nothing. -/
theorem findPartitionById_returns {guidOffset : ℕ} (inside : guidOffset ≤ 16) (pGuid : Bytes)
    (pPartitionIndex : Word) (n : ℕ) (reads : ∀ n, d.fails n = false) :
    (∃ p, Least (fun i => tableGuid d g guidOffset i = pGuid) pPartitionIndex.toNat n p ∧
      findPartitionById d guidOffset pGuid pPartitionIndex n 0 g =
        .ok (afterEntries d 0 (p + 1) g, some (p, entryOffset d g (BitVec.ofNat 64 p)))) ∨
    (∀ q, pPartitionIndex.toNat ≤ q → q < n → tableGuid d g guidOffset q ≠ pGuid) ∧
      findPartitionById d guidOffset pGuid pPartitionIndex n 0 g =
        .ok (afterEntries d 0 n g, none) := by
  by_cases some : ∃ i, pPartitionIndex.toNat ≤ i ∧ i < n ∧ tableGuid d g guidOffset i = pGuid
  · obtain ⟨p, least⟩ := exists_least some
    refine .inl ⟨p, least, (findPartitionById_eq_some_iff inside).mpr
      ⟨p, least.lt_stop, Nat.zero_add p, ?_, fun q less found => ?_, fun j _ => reads _, rfl, rfl⟩⟩
    · rw [Nat.zero_add]
      exact ⟨least.start_le, least.hit⟩
    · rw [Nat.zero_add] at found
      exact least.first q found.1 less found.2
  · have none (q : ℕ) (low : pPartitionIndex.toNat ≤ q) (high : q < n) :
        tableGuid d g guidOffset q ≠ pGuid := fun hit => some ⟨q, low, high, hit⟩
    refine .inr ⟨none, (findPartitionById_eq_none_iff inside).mpr ⟨fun q less found => ?_,
      fun j _ => reads _, rfl⟩⟩
    rw [Nat.zero_add] at found
    exact none q found.1 less found.2

/-! ### The checks -/

/-- The header passes its check. -/
structure HeaderSound (d : GptDisk) (g : Gpt) : Prop where
  signature : g.signature = gptExpectedSignature
  revision : g.revision = gptExpectedRevision
  size : g.headerSize.toNat ≤ d.maxLbaSize
  crc : crc32Calculate ((List.range g.headerSize.toNat).map fun i =>
    if 16 ≤ i ∧ i < 20 then 0 else g.buffer i) = g.headerCrc32
  currentLBA : g.currentLBA = 1
  partitionEntriesStartingLBA : g.partitionEntriesStartingLBA = 2

/-- The array of entries, as it is read, passes its check. -/
structure EntriesSound (d : GptDisk) (g : Gpt) : Prop where
  ends : EntriesEnd d g 0 g.numPartitions.toNat
  crc : crc32Calculate (tableEntries d g 0 g.numPartitions.toNat) = g.partitionEntriesArrayCrc32

theorem gptValidateHeader_true_iff {g' : Gpt} : gptValidateHeader d g = .ok (g', true) ↔
    HeaderSound d g ∧ { g with headerValid := true } = g' := by
  unfold gptValidateHeader
  split
  · next other => exact iff_of_false (fun ok => by cases ok) fun sound => other sound.1.signature
  · next signature =>
    split
    · next other => exact iff_of_false (fun ok => by cases ok) fun sound => other sound.1.revision
    · next revision =>
      dsimp only
      unfold readBuffer
      split
      · next fits =>
        simp only [bind, Except.bind, Nat.zero_add] at fits ⊢
        split
        · next other => exact iff_of_false (fun ok => by cases ok) fun sound => other sound.1.crc
        · next crc =>
          split
          · next other =>
            exact iff_of_false (fun ok => by cases ok) fun sound => other sound.1.currentLBA
          · next current =>
            split
            · next other =>
              exact iff_of_false (fun ok => by cases ok) fun sound =>
                other sound.1.partitionEntriesStartingLBA
            · next starting =>
              have sound : HeaderSound d g := ⟨not_not.mp signature, not_not.mp revision, fits,
                not_not.mp crc, not_not.mp current, not_not.mp starting⟩
              rw [and_iff_right sound]
              exact ⟨fun ok => congrArg Prod.fst (Except.ok.inj ok), fun same => by rw [same]; rfl⟩
      · next outside =>
        exact iff_of_false (fun ok => by cases ok) fun sound =>
          outside (by rw [Nat.zero_add]; exact sound.1.size)

theorem gptValidatePartitionEntries_true_iff {g' : Gpt} :
    gptValidatePartitionEntries d g = .ok (g', true) ↔ ReadsSucceed d g g.numPartitions.toNat ∧
      EntriesSound d g ∧
      { afterEntries d 0 g.numPartitions.toNat g with partitionEntriesValid := true } = g' := by
  have same := afterEntries_same (d := d) 0 g.numPartitions.toNat g
  have field : (afterEntries d 0 g.numPartitions.toNat g).partitionEntriesArrayCrc32 =
      g.partitionEntriesArrayCrc32 := by
    rw [Gpt.partitionEntriesArrayCrc32, same.buffer, Gpt.partitionEntriesArrayCrc32]
  rw [gptValidatePartitionEntries]
  constructor
  · intro ok
    cases run : rollingCrc d g.numPartitions.toNat 0 0 g with
    | error stop =>
      rw [run] at ok
      cases ok
    | ok result =>
      obtain ⟨after, crc⟩ := result
      simp only [run, bind, Except.bind] at ok
      split at ok
      · next right =>
        subst right
        obtain ⟨reads, ends, rfl, crc⟩ := (rollingCrc_eq_some_iff ..).mp run
        rw [field] at crc
        exact ⟨reads, ⟨ends, crc⟩, congrArg Prod.fst (Except.ok.inj ok)⟩
      · cases ok
  · rintro ⟨reads, sound, rfl⟩
    have run := (rollingCrc_eq_some_iff 0 g.numPartitions.toNat 0 _ g _).mpr
      ⟨reads, sound.ends, rfl, rfl⟩
    have crc : crc32CalculateEx 0 (tableEntries d g 0 g.numPartitions.toNat) =
        g.partitionEntriesArrayCrc32 := sound.crc
    rw [crc] at run
    simp only [run, bind, Except.bind, field, if_true]
    rfl

/-- The state after the sector of the header was read, or could not be. -/
def afterHeader (d : GptDisk) (g : Gpt) : Gpt :=
  { g with
    buffer := (readBlock d g.buffer 0 (1 * d.lbaSize) g.reads).1
    reads := g.reads + 1 }

theorem gptReadHeader_true_iff {g' : Gpt} : gptReadHeader d g = .ok (g', true) ↔
    d.fails g.reads = false ∧ HeaderSound d (afterHeader d g) ∧
      { afterHeader d g with headerValid := true } = g' := by
  have result : (readBlock d g.buffer 0 (1 * d.lbaSize) g.reads).2 = !d.fails g.reads := rfl
  rw [gptReadHeader]
  dsimp only
  rw [result]
  cases read : d.fails g.reads with
  | true => simp
  | false =>
    simp only [Bool.not_false, Bool.true_eq_false, if_false, true_and]
    exact gptValidateHeader_true_iff

theorem SameTable.headerSound {g' : Gpt} (same : SameTable d g g') :
    HeaderSound d g' ↔ HeaderSound d g := by
  obtain ⟨buffer, window, header, entries, reads⟩ := g
  obtain ⟨buffer', window', header', entries', reads'⟩ := g'
  obtain rfl : buffer' = buffer := same.buffer
  constructor
  · exact fun sound => ⟨sound.signature, sound.revision, sound.size, sound.crc, sound.currentLBA,
      sound.partitionEntriesStartingLBA⟩
  · exact fun sound => ⟨sound.signature, sound.revision, sound.size, sound.crc, sound.currentLBA,
      sound.partitionEntriesStartingLBA⟩

theorem SameTable.entriesSound {g' : Gpt} (same : SameTable d g g') :
    EntriesSound d g' ↔ EntriesSound d g := by
  have crc : g'.partitionEntriesArrayCrc32 = g.partitionEntriesArrayCrc32 := by
    rw [Gpt.partitionEntriesArrayCrc32, same.buffer, Gpt.partitionEntriesArrayCrc32]
  have ends := same.entriesEnd 0 g.numPartitions.toNat
  constructor
  · rintro ⟨ends', crc'⟩
    rw [same.numPartitions] at ends' crc'
    rw [same.tableEntries, crc] at crc'
    exact ⟨ends.mp ends', crc'⟩
  · rintro ⟨ends', crc'⟩
    refine ⟨?_, ?_⟩
    · rw [same.numPartitions]
      exact ends.mpr ends'
    · rw [same.numPartitions, same.tableEntries, crc]
      exact crc'

/-! ### The search for a boot partition -/

/-- What the routines leave: the table, and flags that are set by a check only. -/
structure Kept (d : GptDisk) (g g' : Gpt) : Prop where
  same : SameTable d g g'
  header : g'.headerValid = true → g.headerValid = true ∨ HeaderSound d g
  entries : g'.partitionEntriesValid = true → g.partitionEntriesValid = true ∨ EntriesSound d g

theorem Kept.refl (g : Gpt) : Kept d g g := ⟨.refl g, .inl, .inl⟩

theorem Kept.trans {g₁ g₂ g₃ : Gpt} (first : Kept d g₁ g₂) (second : Kept d g₂ g₃) :
    Kept d g₁ g₃ := by
  refine ⟨first.same.trans second.same, fun valid => ?_, fun valid => ?_⟩
  · rcases second.header valid with before | sound
    · exact first.header before
    · exact .inr (first.same.headerSound.mp sound)
  · rcases second.entries valid with before | sound
    · exact first.entries before
    · exact .inr (first.same.entriesSound.mp sound)

theorem afterSector_kept (index : Word) (g : Gpt) : Kept d g (afterSector d index g) :=
  ⟨afterSector_same index, .inl, .inl⟩

theorem readPartitionEntryByIndex_kept (index : Word) (g : Gpt) :
    Kept d g (gptReadPartitionEntryByIndex d index g).1 := by
  rw [gptReadPartitionEntryByIndex, readPartitionEntryIntoBuffer_eq]
  exact afterSector_kept index g

theorem gptValidateHeader_false {g' : Gpt} (ok : gptValidateHeader d g = .ok (g', false)) :
    g = g' := by
  unfold gptValidateHeader at ok
  split at ok
  · cases ok
    rfl
  · split at ok
    · cases ok
      rfl
    · obtain ⟨header, -, rest⟩ := bind_eq_ok.mp ok
      split at rest
      · cases rest
        rfl
      · split at rest
        · cases rest
          rfl
        · split at rest
          · cases rest
            rfl
          · cases rest

theorem gptValidateHeader_kept {g' : Gpt} {result : Bool}
    (ok : gptValidateHeader d g = .ok (g', result)) : Kept d g g' := by
  cases result with
  | true =>
    obtain ⟨sound, rfl⟩ := gptValidateHeader_true_iff.mp ok
    exact ⟨⟨rfl, fun _ _ => rfl⟩, fun _ => .inr sound, .inl⟩
  | false =>
    rw [gptValidateHeader_false ok]
    exact .refl g'

theorem rollingCrc_kept {n i : ℕ} {crc : BitVec 32} {result : Option (BitVec 32)} {g' : Gpt}
    (ok : rollingCrc d n i crc g = .ok (g', result)) : Kept d g g' := by
  induction n generalizing i crc g with
  | zero =>
    cases ok
    exact .refl _
  | succ n ih =>
    rw [rollingCrc, readPartitionEntryIntoBuffer_eq] at ok
    cases read : d.fails g.reads with
    | true =>
      simp only [read, if_true, Except.ok.injEq, Prod.mk.injEq] at ok
      exact ok.1 ▸ afterSector_kept _ g
    | false =>
      simp only [read, Bool.false_eq_true, if_false] at ok
      obtain ⟨bytes, -, rest⟩ := bind_eq_ok.mp ok
      exact (afterSector_kept _ g).trans (ih rest)

theorem gptValidatePartitionEntries_kept {g' : Gpt} {result : Bool}
    (ok : gptValidatePartitionEntries d g = .ok (g', result)) : Kept d g g' := by
  cases result with
  | true =>
    obtain ⟨-, sound, rfl⟩ := gptValidatePartitionEntries_true_iff.mp ok
    have same := afterEntries_same (d := d) 0 g.numPartitions.toNat g
    exact ⟨⟨same.buffer, same.past⟩,
      fun valid => .inl ((afterEntries_headerValid ..).symm.trans valid), fun _ => .inr sound⟩
  | false =>
    obtain ⟨⟨after, crc⟩, run, rest⟩ := bind_eq_ok.mp ok
    dsimp only at rest
    split at rest
    · cases rest
    · cases rest
      exact rollingCrc_kept run

theorem findPartitionById_kept {guidOffset n i : ℕ} {pGuid : Bytes} {pPartitionIndex : Word}
    {result : Option (ℕ × ℕ)} {g' : Gpt} (inside : guidOffset ≤ 16)
    (ok : findPartitionById d guidOffset pGuid pPartitionIndex n i g = .ok (g', result)) :
    Kept d g g' := by
  have after (n i : ℕ) (g : Gpt) : Kept d g (afterEntries d i n g) := by
    induction n generalizing i g with
    | zero => exact .refl g
    | succ n ih => exact (afterSector_kept _ g).trans (ih (i + 1) _)
  cases result with
  | none =>
    obtain ⟨-, -, rfl⟩ := (findPartitionById_eq_none_iff inside).mp ok
    exact after n i g
  | some found =>
    obtain ⟨k, -, -, -, -, -, rfl, -⟩ := (findPartitionById_eq_some_iff inside).mp ok
    exact after (k + 1) i g

theorem headerOnce_kept {g' : Gpt} {result : Bool} (ok : headerOnce d g = .ok (g', result)) :
    Kept d g g' := by
  unfold headerOnce at ok
  split at ok
  · cases ok
    exact .refl g
  · exact gptValidateHeader_kept ok

theorem entriesOnce_kept {g' : Gpt} {result : Bool} (ok : entriesOnce d g = .ok (g', result)) :
    Kept d g g' := by
  unfold entriesOnce at ok
  split at ok
  · cases ok
    exact .refl g
  · exact gptValidatePartitionEntries_kept ok

theorem gptFindBootSectorIndex_kept {srcIndex : Word} {g' : Gpt} {found : Option (ℕ × ℕ)}
    (ok : gptFindBootSectorIndex d srcIndex g = .ok (g', found)) : Kept d g g' := by
  obtain ⟨⟨g₁, valid⟩, header, rest⟩ := bind_eq_ok.mp ok
  obtain ⟨⟨g₂, result⟩, entries, rest⟩ := bind_eq_ok.mp rest
  have checked := (headerOnce_kept header).trans (entriesOnce_kept entries)
  dsimp only at rest
  split at rest
  · exact checked.trans (findPartitionById_kept (Nat.zero_le 16) rest)
  · cases rest
    exact checked

theorem gptPartitionIdToLBAOffset_kept {index : Word} {g' : Gpt} {lba : Option Word}
    (ok : gptPartitionIdToLBAOffset d index g = .ok (g', lba)) : Kept d g g' := by
  rw [gptPartitionIdToLBAOffset, readPartitionEntryIntoBuffer_eq] at ok
  dsimp only at ok
  split at ok
  · cases read : d.fails g.reads with
    | true =>
      simp only [read, if_true] at ok
      cases ok
    | false =>
      simp only [read, Bool.false_eq_true, if_false] at ok
      obtain ⟨bytes, -, rest⟩ := bind_eq_ok.mp ok
      cases rest
      exact afterSector_kept index g
  · cases ok
    exact afterSector_kept index g

/-- What it takes for partition `p` to be found: the array passes its check, now or before, and the
reads up to the first entry of the type succeed.  The header is looked at, but may fail its check. -/
structure BootFound (d : GptDisk) (g : Gpt) (srcIndex : Word) (p : ℕ) : Prop where
  header : g.headerValid = true ∨ HeaderFits d g
  entries : g.partitionEntriesValid = true ∨
    ReadsSucceed d g g.numPartitions.toNat ∧ EntriesSound d g
  least : Least (fun i => tableGuid d g 0 i = diskGuid) srcIndex.toNat g.numPartitions.toNat p
  reads : ∀ j ≤ p, d.fails
    (g.reads + (if g.partitionEntriesValid then 0 else g.numPartitions.toNat) + j) = false

theorem findPartitionById_eq_least_iff {guidOffset : ℕ} (inside : guidOffset ≤ 16) {pGuid : Bytes}
    {pPartitionIndex : Word} {n p entry : ℕ} {g' : Gpt} :
    findPartitionById d guidOffset pGuid pPartitionIndex n 0 g = .ok (g', some (p, entry)) ↔
      Least (fun i => tableGuid d g guidOffset i = pGuid) pPartitionIndex.toNat n p ∧
        ReadsSucceed d g (p + 1) ∧ afterEntries d 0 (p + 1) g = g' ∧
        entryOffset d g (BitVec.ofNat 64 p) = entry := by
  rw [findPartitionById_eq_some_iff inside]
  simp only [Nat.zero_add]
  constructor
  · rintro ⟨k, less, rfl, hit, none, rest⟩
    exact ⟨⟨hit.1, less, hit.2, fun q low before found => none q before ⟨low, found⟩⟩, rest⟩
  · rintro ⟨least, rest⟩
    exact ⟨p, least.lt_stop, rfl, ⟨least.start_le, least.hit⟩,
      fun q before found => least.first q found.1 before found.2, rest⟩

theorem headerOnce_ok_iff : (∃ valid result, headerOnce d g =
      .ok ({ g with headerValid := valid }, result)) ↔
    (g.headerValid = true ∨ HeaderFits d g) := by
  rw [← headerOnce_safe_iff]
  rcases headerOnce_cases (d := d) (g := g) with stopped | done
  · rw [stopped]
    exact iff_of_false (fun ok => by obtain ⟨_, _, ok⟩ := ok; cases ok) fun safe => by cases safe _ rfl
  · refine iff_of_true done ?_
    obtain ⟨valid, result, done⟩ := done
    rw [done]
    exact .ok _

/-- The array's check passes when it did before, or its reads succeed and its checksum is right. -/
theorem entriesOnce_true_iff : (∃ g', entriesOnce d g = .ok (g', true)) ↔
    (g.partitionEntriesValid = true ∨
      ReadsSucceed d g g.numPartitions.toNat ∧ EntriesSound d g) := by
  unfold entriesOnce
  split
  · next valid => exact iff_of_true ⟨_, rfl⟩ (.inl valid)
  · next invalid =>
    rw [or_iff_right invalid]
    simp only [gptValidatePartitionEntries_true_iff]
    exact ⟨fun ⟨_, reads, sound, _⟩ => ⟨reads, sound⟩, fun ⟨reads, sound⟩ => ⟨_, reads, sound, rfl⟩⟩

theorem entriesOnce_reads {g' : Gpt} (ok : entriesOnce d g = .ok (g', true)) :
    g'.reads = g.reads + (if g.partitionEntriesValid then 0 else g.numPartitions.toNat) := by
  unfold entriesOnce at ok
  split at ok
  · next valid =>
    cases ok
    rw [if_pos valid, Nat.add_zero]
  · next invalid =>
    obtain ⟨-, -, rfl⟩ := gptValidatePartitionEntries_true_iff.mp ok
    rw [if_neg invalid]
    exact afterEntries_reads ..

theorem gptFindBootSectorIndex_finds_iff {srcIndex : Word} {p : ℕ} :
    (∃ g' entry, gptFindBootSectorIndex d srcIndex g = .ok (g', some (p, entry))) ↔
      BootFound d g srcIndex p := by
  have flagged (valid : Bool) : SameTable d g { g with headerValid := valid } := ⟨rfl, fun _ _ => rfl⟩
  constructor
  · rintro ⟨g', entry, ok⟩
    obtain ⟨⟨g₁, valid⟩, header, checks⟩ := bind_eq_ok.mp ok
    obtain ⟨⟨g₂, result⟩, entries, search⟩ := bind_eq_ok.mp checks
    dsimp only at entries search
    split at search
    · next passed =>
      subst passed
      rcases headerOnce_cases (d := d) (g := g) with stopped | ⟨flag, outcome, done⟩
      · rw [stopped] at header
        cases header
      · obtain ⟨rfl, rfl⟩ := Prod.mk.inj (Except.ok.inj (header.symm.trans done))
        have same := (flagged flag).trans (entriesOnce_kept entries).same
        obtain ⟨least, reads, -⟩ := (findPartitionById_eq_least_iff (Nat.zero_le 16)).mp search
        rw [same.numPartitions] at least
        simp only [same.tableGuid] at least
        refine ⟨headerOnce_ok_iff.mp ⟨_, _, done⟩, ?_, least, fun j le => ?_⟩
        · have passed := entriesOnce_true_iff.mp ⟨_, entries⟩
          rwa [(flagged flag).entriesSound] at passed
        · have read := reads j (by omega)
          rwa [entriesOnce_reads entries] at read
    · cases search
  · rintro ⟨header, entries, least, reads⟩
    obtain ⟨flag, outcome, done⟩ := headerOnce_ok_iff.mpr header
    obtain ⟨g₂, passed⟩ : ∃ g', entriesOnce d { g with headerValid := flag } = .ok (g', true) := by
      rw [entriesOnce_true_iff, (flagged flag).entriesSound]
      exact entries
    have same := (flagged flag).trans (entriesOnce_kept passed).same
    have found : gptFindPartitionByTypeId d diskGuid srcIndex g₂ =
        .ok (afterEntries d 0 (p + 1) g₂, some (p, entryOffset d g₂ (BitVec.ofNat 64 p))) := by
      refine (findPartitionById_eq_least_iff (Nat.zero_le 16)).mpr ⟨?_, fun j less => ?_, rfl, rfl⟩
      · rw [same.numPartitions]
        simp only [same.tableGuid]
        exact least
      · rw [entriesOnce_reads passed]
        exact reads j (by omega)
    exact ⟨_, _, bind_eq_ok.mpr ⟨_, done, bind_eq_ok.mpr ⟨_, passed, found⟩⟩⟩

end Hss
