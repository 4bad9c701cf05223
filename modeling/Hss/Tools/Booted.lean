import Hss.Boot.Loading
import Hss.Tools.Bookkeeping
import Hss.Tools.ZeroInit
import Mathlib.Data.List.Forall2

/-! A generated payload and the memory after the machine of a hart has loaded it: the chunks of the hart
are where the payload says. -/

namespace Hss

open ByteMemory Outcome

/-- Where a chunk is copied to. -/
def PayloadChunk.extent (c : PayloadChunk) : Set Word :=
  span c.execAddr (copiedSize (BitVec.ofNat 64 c.data.length))

/-- What the header says of the chunks of a hart. -/
def HartHeader.hartChunks (h : HartHeader) : HartChunks := ⟨h.numChunks, h.firstChunk, h.lastChunk⟩

/-- The memory `mem'` is `mem` with the payload of a hart loaded: the data of a chunk is in place unless
a later chunk is put over it, what is to be zero is zero unless a chunk is put over it, and the rest is
as it was. -/
structure PayloadLoaded (input : PayloadInput) (target : U54) (mem mem' : Mem) : Prop where
  chunk : ∀ before c after,
    (input.chunkTable.filter fun c => c.OwnedBy target) = before ++ c :: after →
    (∀ d ∈ after, Disjoint (span c.execAddr c.data.length) d.extent) →
    HoldsAt mem' c.execAddr 0 c.data
  cleared : ∀ z ∈ input.ziChunkTable, z.OwnedBy target → ∀ a ∈ span z.execAddr z.size.toNat,
    (∀ c ∈ input.chunkTable, c.OwnedBy target → a ∉ c.extent) → mem' a = 0
  kept : ∀ a, (∀ z ∈ input.ziChunkTable, z.OwnedBy target → a ∉ span z.execAddr z.size.toNat) →
    (∀ c ∈ input.chunkTable, c.OwnedBy target → a ∉ c.extent) → mem' a = mem a

variable {input : PayloadInput} {file : Bytes} {mem mem' : Mem} {p : Word} {target : U54} {off : ℕ}

/-! ### The image -/

/-- What is read at the places of the chunk table: the entries, and then one of size zero. -/
theorem chunkTable_reads (holds : HoldsAt mem p off (chunkTableBytes input)) :
    let descs := chunkDescs (blobStart input BootImage.sizeOf) 0 input.chunkTable
    (∀ i, ∀ less : i < descs.length,
        chunkDesc mem (p + BitVec.ofNat 64 off + BitVec.ofNat 64 (chunkDescSize * i)) = descs[i]) ∧
      (chunkDesc mem (p + BitVec.ofNat 64 off + BitVec.ofNat 64 (chunkDescSize * descs.length))).size =
        0 := by
  rw [chunkTableBytes, holdsAt_append] at holds
  obtain ⟨entries, sentinel⟩ := holds
  have length := length_chunkDescs (blobStart input BootImage.sizeOf) 0 input.chunkTable
  refine ⟨fun i less => ?_, ?_⟩
  · have entry := entries.entry (k := chunkDescSize) (fun b => length_of_mem_descs) (i := i)
      (by rwa [List.length_zipWith, length_loadAddrs, Nat.min_self, ← length])
    rw [List.getElem_zipWith] at entry
    rw [offset_offset, chunkDesc_of_holds entry]
    simp only [chunkDescs, List.getElem_zipWith]
  · rw [length, offset_offset]
    rw [length_descs] at sentinel
    exact chunkDesc_sentinel sentinel

/-- The data of a chunk is in the file. -/
theorem source_of_mem_chunkDescs {start cumulative : ℕ} {chunks : List PayloadChunk} {d : ChunkDesc}
    (whole : 8 ∣ cumulative) (small : start + cumulative + (blobBytes chunks).length < 2 ^ 64)
    (present : d ∈ chunkDescs start cumulative chunks) :
    d.loadAddr.toNat + d.size.toNat ≤ start + cumulative + (blobBytes chunks).length := by
  induction chunks generalizing cumulative with
  | nil => cases present
  | cons c chunks ih =>
    have blobs : (blobBytes (c :: chunks)).length =
        c.data.length + calculatePadding c.data.length padSize + (blobBytes chunks).length := by
      rw [blobBytes, List.flatMap_cons, List.length_append, List.length_append, padding,
        List.length_replicate]
      rfl
    rw [blobs] at small ⊢
    rw [chunkDescs, loadAddrs, List.zipWith_cons_cons] at present
    rcases List.mem_cons.mp present with rfl | later
    · rw [PayloadChunk.desc, calculatePadding_of_dvd whole, BitVec.toNat_ofNat, BitVec.toNat_ofNat,
        Nat.mod_eq_of_lt (by omega), Nat.mod_eq_of_lt (by omega)]
      omega
    · have inside := ih (Nat.dvd_add whole (dvd_add_calculatePadding _)) (by omega) later
      omega

/-- A generated file in memory is an image with the entries of its tables, whose chunks are found. -/
theorem imageTables_of_generatePayload (generated : generatePayload input = .ok file)
    (holds : HoldsAt mem p 0 file) (notNull : p ≠ 0)
    (fits : p.toNat + (file.length + bootSubChunkSize) ≤ 2 ^ 64)
    (nonzero : ∀ z ∈ input.ziChunkTable, z.size ≠ 0) :
    let descs := chunkDescs (blobStart input BootImage.sizeOf) 0 input.chunkTable
    ImageTables p file.length input.ziChunkTable descs mem ∧
      List.Forall₂ (fun c d => c.FoundBy mem p d) input.chunkTable descs ∧
      ∀ u, BootImage.numChunks mem p u = (input.hart u).numChunks ∧
        BootImage.firstChunk mem p u = (input.hart u).firstChunk ∧
        BootImage.lastChunk mem p u = (input.hart u).lastChunk := by
  obtain ⟨some, small, signs⟩ := needs_of_generatePayload generated
  obtain ⟨signature, length_signature, same⟩ := generatePayload_ok some small signs
  cases generated.symm.trans same
  have total : (((unsignedHeader input).sign signature length_signature).bytes ++
      payloadBody input).length = payloadLength input := by
    rw [List.length_append, BootImageHeader.length_bytes, payloadLength]
  have inFile : payloadLength input = BootImage.sizeOf + (chunkTableBytes input).length +
      (ziChunkTableBytes input).length + (blobBytes input.chunkTable).length := by
    rw [payloadLength, payloadBody, List.length_append, List.length_append]
    omega
  rw [total] at fits ⊢
  rw [offLimit] at small
  have parts := holds
  rw [holdsAt_append, BootImageHeader.length_bytes, payloadBody, holdsAt_append, holdsAt_append,
    Nat.zero_add, List.length_append] at parts
  obtain ⟨header, ⟨chunks, ziChunks⟩, blobs⟩ := parts
  have offset : BootImage.chunkTableOffset mem p = BitVec.ofNat 64 BootImage.sizeOf :=
    BootImageHeader.InMem.chunkTableOffset header
  have ziOffset : BootImage.ziChunkTableOffset mem p =
      BitVec.ofNat 64 (BootImage.sizeOf + (chunkTableBytes input).length) :=
    BootImageHeader.InMem.ziChunkTableOffset header
  have descs := length_chunkDescs (blobStart input BootImage.sizeOf) 0 input.chunkTable
  have tableLength : (chunkTableBytes input).length = _ := length_chunkTableBytes
  have ziTableLength : (ziChunkTableBytes input).length = _ := length_ziChunkTableBytes
  rw [chunkDescSize] at tableLength
  rw [ziChunkDescSize] at ziTableLength
  obtain ⟨entries, sentinel⟩ := chunkTable_reads chunks
  obtain ⟨ziEntries, ziSentinel⟩ := ziChunkTable_reads ziChunks
  refine ⟨⟨notNull, fits, ?_, ?_, ?_, nonzero, ?_, ?_, ?_, ?_, ?_, ?_⟩, ?_, fun u =>
    ⟨BootImageHeader.InMem.numChunks header u, BootImageHeader.InMem.firstChunk header u,
      BootImageHeader.InMem.lastChunk header u⟩⟩
  · rw [inFile]
    omega
  · rw [ziOffset, BitVec.toNat_ofNat, Nat.mod_eq_of_lt (by omega)]
    omega
  · intro i less
    rw [ziChunkEntry, ziTableStart, ziOffset]
    exact ziEntries i less
  · rw [ziChunkEntry, ziTableStart, ziOffset]
    exact ziSentinel
  · rw [offset, BitVec.toNat_ofNat, Nat.mod_eq_of_lt (by omega), descs]
    omega
  · intro i less
    rw [chunkEntry, offset]
    exact entries i less
  · exact fun c present => size_ne_of_mem_chunkDescs present
  · rw [chunkEntry, offset]
    exact sentinel
  · intro c present
    have source := source_of_mem_chunkDescs (Nat.dvd_zero 8)
      (by rw [Nat.add_zero, blobStart_eq]; omega) present
    rw [Nat.add_zero, blobStart_eq] at source
    omega
  · refine foundBy_chunkDescs ?_ (Nat.dvd_zero 8) ?_
    · rwa [Nat.add_zero, blobStart_eq, Nat.add_assoc]
    · rw [Nat.add_zero, blobStart_eq, offLimit]
      omega

/-! ### The chunks of a hart -/

/-- The chunks of the payload that are for a hart. -/
def PayloadInput.chunksOf (input : PayloadInput) (target : U54) : List PayloadChunk :=
  input.chunkTable.filter fun c => c.OwnedBy target

theorem mem_ownedPlaces {table : List PayloadChunk} {u : U54} {i : ℕ} :
    i ∈ ownedPlaces table u ↔ ∃ less : i < table.length, table[i].OwnedBy u := by
  rw [ownedPlaces, List.mem_filter, List.mem_range]
  constructor
  · rintro ⟨less, owned⟩
    rw [List.getElem?_eq_getElem less] at owned
    exact ⟨less, of_decide_eq_true owned⟩
  · rintro ⟨less, owned⟩
    refine ⟨less, ?_⟩
    rw [List.getElem?_eq_getElem less]
    exact decide_eq_true owned

theorem pairwise_ownedPlaces (table : List PayloadChunk) (u : U54) :
    (ownedPlaces table u).Pairwise (· < ·) :=
  List.Pairwise.filter _ List.pairwise_lt_range

/-- No chunk of the hart stands before the first place or behind the last one. -/
theorem not_ownedBy_of_lt_head {table : List PayloadChunk} {u : U54} {first i : ℕ}
    (head : (ownedPlaces table u).head? = some first) (before : i < first) (less : i < table.length) :
    ¬table[i].OwnedBy u := by
  intro owned
  have sorted := pairwise_ownedPlaces table u
  have place := mem_ownedPlaces.mpr ⟨less, owned⟩
  obtain ⟨rest, places⟩ := List.head?_eq_some_iff.mp head
  rw [places] at sorted place
  rcases List.mem_cons.mp place with rfl | later
  · exact lt_irrefl _ before
  · exact lt_asymm before (List.rel_of_pairwise_cons sorted later)

theorem not_ownedBy_of_last_lt {table : List PayloadChunk} {u : U54} {last i : ℕ}
    (final : (ownedPlaces table u).getLast? = some last) (behind : last < i) (less : i < table.length) :
    ¬table[i].OwnedBy u := by
  intro owned
  have sorted := pairwise_ownedPlaces table u
  have place := mem_ownedPlaces.mpr ⟨less, owned⟩
  obtain ⟨rest, places⟩ := List.getLast?_eq_some_iff.mp final
  rw [places] at sorted place
  rcases List.mem_append.mp place with earlier | here
  · exact lt_asymm behind ((List.pairwise_append.mp sorted).2.2 i earlier last (List.mem_singleton_self _))
  · cases List.mem_singleton.mp here
    exact lt_irrefl _ behind

/-- A part of the table without a chunk of the hart. -/
theorem filter_eq_nil {table : List PayloadChunk} {u : U54}
    (none : ∀ i, ∀ less : i < table.length, ¬table[i].OwnedBy u) :
    (table.filter fun c => c.OwnedBy u) = [] := by
  refine List.filter_eq_nil_iff.mpr fun c present owned => ?_
  obtain ⟨i, less, rfl⟩ := List.getElem_of_mem present
  exact none i less (of_decide_eq_true owned)

/-- The number of chunks is no more than the number of the last one and one. -/
theorem length_filter_le {table : List PayloadChunk} {u : U54} {last : ℕ}
    (final : (ownedPlaces table u).getLast? = some last) :
    (table.filter fun c => c.OwnedBy u).length ≤ last + 1 := by
  have behind : ((table.drop (last + 1)).filter fun c => c.OwnedBy u) = [] := by
    refine filter_eq_nil fun i less => ?_
    rw [List.getElem_drop]
    exact not_ownedBy_of_last_lt final (by omega) _
  rw [← List.take_append_drop (last + 1) table, List.filter_append, behind, List.append_nil]
  exact (List.length_filter_le _ _).trans (List.length_take_le _ _)

theorem length_ownedPlaces (table : List PayloadChunk) (u : U54) :
    (ownedPlaces table u).length = (table.filter fun c => c.OwnedBy u).length := by
  induction table using List.reverseRecOn with
  | nil => rfl
  | append_singleton table c ih =>
    have one : (ownedPlaces [c] u).length = ([c].filter fun c => c.OwnedBy u).length := by
      by_cases owned : c.OwnedBy u
      · have all : ([c].filter fun c => c.OwnedBy u) = [c] := List.filter_cons_of_pos (decide_eq_true owned)
        rw [Generator.ownedPlaces_all (fun d present => List.mem_singleton.mp present ▸ owned), all]
        rfl
      · rw [Generator.ownedPlaces_none (fun d present => List.mem_singleton.mp present ▸ owned),
          filter_eq_nil fun i less => (List.mem_singleton.mp (List.getElem_mem less)).symm ▸ owned]
        rfl
    rw [Generator.ownedPlaces_append, List.length_append, List.length_map, ih, List.filter_append,
      List.length_append, one]

section
variable {descs : List ChunkDesc} {pmpEntry : ℕ → PmpEntry}

theorem PayloadChunk.FoundBy.size_eq {c : PayloadChunk} {d : ChunkDesc} (found : c.FoundBy mem p d) :
    d.size = BitVec.ofNat 64 c.data.length := by
  rw [← found.size, BitVec.ofNat_toNat, BitVec.setWidth_eq]

theorem PayloadChunk.FoundBy.extent {c : PayloadChunk} {d : ChunkDesc} (found : c.FoundBy mem p d) :
    span d.execAddr (copiedSize d.size) = c.extent := by
  rw [PayloadChunk.extent, found.execAddr, found.size_eq]

/-- The entry of a chunk that memory protection permits to its hart is loaded just for the hart. -/
theorem PayloadChunk.FoundBy.loads_iff {c : PayloadChunk} {d : ChunkDesc} (found : c.FoundBy mem p d)
    (permitted : c.OwnedBy target →
      hssPmpCheckWrite pmpEntry c.execAddr (BitVec.ofNat 64 c.data.length) = true) :
    loadsChunk target pmpEntry d = true ↔ c.OwnedBy target := by
  rw [loadsChunk, decide_eq_true_iff, ChunkDesc.OwnedBy, found.owner, found.execAddr, found.size_eq]
  exact ⟨And.left, fun owned => ⟨owned, permitted owned⟩⟩

/-- The entries that are loaded are those of the chunks of the hart. -/
theorem forall₂_filter {table : List PayloadChunk}
    (found : List.Forall₂ (fun c d => c.FoundBy mem p d) table descs)
    (permitted : ∀ c ∈ table, c.OwnedBy target →
      hssPmpCheckWrite pmpEntry c.execAddr (BitVec.ofNat 64 c.data.length) = true) :
    List.Forall₂ (fun c d => c.FoundBy mem p d) (table.filter fun c => c.OwnedBy target)
      (descs.filter (loadsChunk target pmpEntry)) := by
  have both := (List.forall₂_and_left _ _).mpr ⟨permitted, found⟩
  refine (List.rel_filter (fun c d here => ?_) both).imp fun c d here => here.2
  exact decide_eq_true_iff.trans (here.2.loads_iff here.1).symm

/-- A header that describes the chunks of a hart leaves none of them out. -/
theorem machineChunks_eq {header : HartChunks} (some : input.chunksOf target ≠ [])
    (small : input.chunkTable.length < 2 ^ 64)
    (describes : header.Describes (ownedPlaces input.chunkTable target))
    (found : List.Forall₂ (fun c d => c.FoundBy mem p d) input.chunkTable descs)
    (permitted : ∀ c ∈ input.chunkTable, c.OwnedBy target →
      hssPmpCheckWrite pmpEntry c.execAddr (BitVec.ofNat 64 c.data.length) = true)
    (numChunks : BootImage.numChunks mem p target = header.numChunks)
    (firstChunk : BootImage.firstChunk mem p target = header.firstChunk)
    (lastChunk : BootImage.lastChunk mem p target = header.lastChunk) :
    machineChunks target pmpEntry p mem descs = descs.filter (loadsChunk target pmpEntry) ∧
      (BootImage.firstChunk mem p target).toNat ≤ descs.length ∧
      BootImage.numChunks mem p target ≠ 0 := by
  have length := length_ownedPlaces input.chunkTable target
  have positive : 0 < (ownedPlaces input.chunkTable target).length := by
    rw [length]
    exact List.length_pos_of_ne_nil some
  have short : (ownedPlaces input.chunkTable target).length ≤ input.chunkTable.length := by
    rw [length]
    exact List.length_filter_le _ _
  have places : ownedPlaces input.chunkTable target ≠ [] := List.ne_nil_of_length_pos positive
  have place {i : ℕ} (there : i ∈ ownedPlaces input.chunkTable target) : i < input.chunkTable.length :=
    (mem_ownedPlaces.mp there).1
  have head := List.head?_eq_some_head places
  have final := List.getLast?_eq_some_getLast places
  have headLess := place (List.head_mem places)
  have finalLess := place (List.getLast_mem places)
  generalize (ownedPlaces input.chunkTable target).head places = first at head headLess
  generalize (ownedPlaces input.chunkTable target).getLast places = last at final finalLess
  have firstNat : (BootImage.firstChunk mem p target).toNat = first := by
    rw [firstChunk, describes.firstChunk first head, BitVec.toNat_ofNat, Nat.mod_eq_of_lt (by omega)]
  have lastNat : (BootImage.lastChunk mem p target).toNat = last := by
    rw [lastChunk, describes.lastChunk last final, BitVec.toNat_ofNat, Nat.mod_eq_of_lt (by omega)]
  have someChunks : BootImage.numChunks mem p target ≠ 0 := by
    rw [numChunks, describes.numChunks]
    intro zero
    have none := congrArg BitVec.toNat zero
    rw [BitVec.toNat_ofNat, Nat.mod_eq_of_lt (by omega)] at none
    exact absurd none (Nat.ne_of_gt positive)
  refine ⟨?_, ?_, someChunks⟩
  · -- nothing is left out before the first chunk
    have before : ((descs.take first).filter (loadsChunk target pmpEntry)) = [] := by
      have none : ((input.chunkTable.take first).filter fun c => c.OwnedBy target) = [] := by
        refine filter_eq_nil fun i less => ?_
        rw [List.length_take] at less
        rw [List.getElem_take]
        exact not_ownedBy_of_lt_head head (by omega) _
      have matching := forall₂_filter (List.forall₂_take first found)
        fun c present => permitted c (List.mem_of_mem_take present)
      rw [none] at matching
      exact List.forall₂_nil_left_iff.mp matching
    have whole : (descs.drop first).filter (loadsChunk target pmpEntry) =
        descs.filter (loadsChunk target pmpEntry) := by
      rw [← List.nil_append ((descs.drop first).filter _), ← before, ← List.filter_append,
        List.take_append_drop]
    rw [machineChunks, if_neg someChunks, firstNat, lastNat, whole, List.take_of_length_le]
    rw [← (forall₂_filter found permitted).length_eq]
    exact length_filter_le final
  · rw [firstNat, ← found.length_eq]
    exact Nat.le_of_lt headLess

/-- A list that matches one that is split is split alike. -/
theorem exists_split_of_forall₂ {α β : Type} {R : α → β → Prop} {before after : List α} {a : α}
    {bs : List β} (all : List.Forall₂ R (before ++ a :: after) bs) :
    ∃ before' b after', bs = before' ++ b :: after' ∧ R a b ∧ List.Forall₂ R after after' := by
  induction before generalizing bs with
  | nil =>
    obtain ⟨b, after', here, rest, rfl⟩ := List.forall₂_cons_left_iff.mp all
    exact ⟨[], b, after', rfl, here, rest⟩
  | cons x before ih =>
    obtain ⟨y, bs', -, rest, rfl⟩ := List.forall₂_cons_left_iff.mp all
    obtain ⟨before', b, after', rfl, here, later⟩ := ih rest
    exact ⟨y :: before', b, after', rfl, here, later⟩

/-- What matches is matched by a member. -/
theorem exists_mem_of_forall₂ {α β : Type} {R : α → β → Prop} {as : List α} {bs : List β}
    (all : List.Forall₂ R as bs) {b : β} (present : b ∈ bs) : ∃ a ∈ as, R a b := by
  induction all with
  | nil => cases present
  | cons here _ ih =>
    rcases List.mem_cons.mp present with rfl | later
    · exact ⟨_, List.mem_cons_self, here⟩
    · obtain ⟨a, there, holds⟩ := ih later
      exact ⟨a, List.mem_cons_of_mem _ there, holds⟩

/-- What is read of the loaded memory. -/
theorem payloadLoaded_of_loadedMem
    (found : List.Forall₂ (fun c d => c.FoundBy mem p d) (input.chunksOf target) descs)
    (fits : ∀ c ∈ input.chunksOf target, c.data.length + bootSubChunkSize ≤ 2 ^ 64) :
    PayloadLoaded input target mem
      (loadedMem p (ziChunksOf target input.ziChunkTable) descs mem) := by
  have out {a : Word} (clear : ∀ c ∈ input.chunkTable, c.OwnedBy target → a ∉ c.extent) :
      ∀ d ∈ descs, a ∉ span d.execAddr (copiedSize d.size) := by
    intro d present
    obtain ⟨c, owned, here⟩ := exists_mem_of_forall₂ found present
    rw [here.extent]
    exact clear c (List.mem_filter.mp owned).1 (of_decide_eq_true (List.mem_filter.mp owned).2)
  refine ⟨fun before c after split last i less => ?_, fun z present owned a inside clear => ?_,
    fun a ziClear clear => ?_⟩
  · have whole : input.chunksOf target = before ++ c :: after := split
    rw [whole] at found fits
    obtain ⟨before', d, after', rfl, here, later⟩ := exists_split_of_forall₂ found
    have size := here.size
    have long := fits c (List.mem_append_right _ List.mem_cons_self)
    have room := copiedSize_le d.size
    have within : c.execAddr + BitVec.ofNat 64 i ∈ span c.execAddr c.data.length := add_mem_span less
    have inside : i < copiedSize d.size := (size ▸ less).trans (toNat_lt_copiedSize d.size)
    have byte := here.data i less
    rw [Nat.zero_add, ← here.execAddr, loadedMem_chunk inside (by omega) fun e present => ?_]
    · rw [← byte, BitVec.ofNat_add, BitVec.ofNat_toNat, BitVec.setWidth_eq, BitVec.add_assoc]
    · obtain ⟨b, there, matching⟩ := exists_mem_of_forall₂ later present
      rw [matching.extent, here.execAddr]
      exact Set.disjoint_left.mp (last b there) within
  · rw [loadedMem, foldl_placeChunk_of_notMem _ (out clear)]
    exact foldl_placeZiChunk_of_mem _ (.inr ⟨z, List.mem_filter.mpr ⟨present, decide_eq_true owned⟩, inside⟩)
  · rw [loadedMem, foldl_placeChunk_of_notMem _ (out clear)]
    refine foldl_placeZiChunk_of_notMem _ fun z present => ?_
    obtain ⟨there, owned⟩ := List.mem_filter.mp present
    exact ziClear z there (of_decide_eq_true owned)

end

/-! ### The whole payload -/

/-- A generated payload whose header is right about a hart is in memory, apart from what is set to zero
and copied for the hart, which memory protection permits. -/
structure PayloadPlaced (input : PayloadInput) (file : Bytes) (target : U54) (s : State) : Prop where
  generated : generatePayload input = .ok file
  nonzero : ∀ z ∈ input.ziChunkTable, z.size ≠ 0
  describes : (input.hart target).hartChunks.Describes (ownedPlaces input.chunkTable target)
  inMem : HoldsAt s.mem s.pBootImage 0 file
  fits : s.pBootImage.toNat + (file.length + bootSubChunkSize) ≤ 2 ^ 64
  permitted : ∀ c ∈ input.chunkTable, c.OwnedBy target →
    hssPmpCheckWrite (s.pmpEntry target) c.execAddr (BitVec.ofNat 64 c.data.length) = true
  apartZi : ∀ z ∈ input.ziChunkTable, z.OwnedBy target →
    Disjoint (span z.execAddr z.size.toNat) (imageSpan s.pBootImage file.length)
  apart : ∀ c ∈ input.chunkTable, c.OwnedBy target →
    Disjoint c.extent (imageSpan s.pBootImage file.length)

/-- Some number of calls of the machine of a hart loads the payload. -/
theorem loadCalls_payloadLoaded {s : State} (placed : PayloadPlaced input file target s)
    (starts : StartsLoading target s) (cfg : Config) (inputs : ℕ → Inputs) :
    ∃ n, ∀ k, ∃ t, loadCalls cfg target (n + k) inputs s = .ok t ∧
      (t.machine target).state =
        (if input.chunksOf target = [] then .complete else .opensbiInit) ∧
      PayloadLoaded input target s.mem t.mem := by
  obtain ⟨tables, found, header⟩ := imageTables_of_generatePayload placed.generated placed.inMem
    starts.notNull placed.fits placed.nonzero
  obtain ⟨numChunks, firstChunk, lastChunk⟩ := header target
  have small : input.chunkTable.length < 2 ^ 64 := by
    have fits := tables.fits
    have inside := tables.inside
    rw [found.length_eq]
    omega
  -- what the machine takes is what is for the hart
  have takes : List.Forall₂ (fun c d => c.FoundBy s.mem s.pBootImage d) (input.chunksOf target)
        (machineChunks target (s.pmpEntry target) s.pBootImage s.mem
          (chunkDescs (blobStart input BootImage.sizeOf) 0 input.chunkTable)) ∧
      (s.numChunks target ≠ 0 → (s.firstChunk target).toNat ≤
        (chunkDescs (blobStart input BootImage.sizeOf) 0 input.chunkTable).length) ∧
      (s.numChunks target = 0 ↔ input.chunksOf target = []) := by
    by_cases none : input.chunksOf target = []
    · have zero : BootImage.numChunks s.mem s.pBootImage target = 0 := by
        refine numChunks.trans (placed.describes.numChunks.trans ?_)
        rw [length_ownedPlaces]
        exact congrArg (fun l : List PayloadChunk => BitVec.ofNat 64 l.length) none
      rw [machineChunks, if_pos zero, none]
      exact ⟨.nil, fun some => absurd zero some, iff_of_true zero rfl⟩
    · obtain ⟨same, first, some⟩ := machineChunks_eq none small placed.describes found placed.permitted
        numChunks firstChunk lastChunk
      rw [same]
      exact ⟨forall₂_filter found placed.permitted, fun _ => first, iff_of_false some none⟩
  obtain ⟨matching, first, some⟩ := takes
  have apart : ∀ d ∈ machineChunks target (s.pmpEntry target) s.pBootImage s.mem
      (chunkDescs (blobStart input BootImage.sizeOf) 0 input.chunkTable),
      Disjoint (span d.execAddr (copiedSize d.size)) (imageSpan s.pBootImage file.length) := by
    intro d present
    obtain ⟨c, owned, here⟩ := exists_mem_of_forall₂ matching present
    obtain ⟨there, owned⟩ := List.mem_filter.mp owned
    rw [here.extent]
    exact placed.apart c there (of_decide_eq_true owned)
  have fits : ∀ c ∈ input.chunksOf target, c.data.length + bootSubChunkSize ≤ 2 ^ 64 := by
    intro c present
    obtain ⟨i, less, rfl⟩ := List.getElem_of_mem (List.mem_filter.mp present).1
    have here := found.get less (found.length_eq ▸ less)
    have source := tables.sources _ (List.get_mem _ ⟨i, found.length_eq ▸ less⟩)
    rw [here.size] at source
    exact (Nat.add_le_add_right (Nat.le_of_add_left_le source) _).trans
      (Nat.le_of_add_left_le tables.fits)
  obtain ⟨n, loads⟩ := loadCalls_loadedMem starts tables first placed.apartZi apart cfg inputs
  refine ⟨n, fun k => ?_⟩
  obtain ⟨t, called, state, mem⟩ := loads k
  refine ⟨t, called, state.trans (if_congr some rfl rfl), ?_⟩
  rw [mem]
  exact payloadLoaded_of_loadedMem matching fits

/-- A chunk of three sub-chunks and a short one for the first hart, one for the second hart between them,
and memory to be cleared for both. -/
def threeChunks : PayloadInput :=
  { unsignedConfig with
    hart := fun u => { unsignedConfig.hart u with numChunks := 2, lastChunk := 2 }
    chunkTable :=
      [{ owner := 1, execAddr := 0x80000000, crc32 := 0, data := List.replicate 600 0x13,
         data_ne := List.cons_ne_nil _ _, length_data := by rw [List.length_replicate]; decide },
        { owner := 2, execAddr := 0x90000000, crc32 := 0, data := [0x93, 0x01],
          data_ne := List.cons_ne_nil _ _, length_data := by decide },
        { owner := 1, execAddr := 0x80001000, crc32 := 0, data := [0x67, 0x80, 0x00],
          data_ne := List.cons_ne_nil _ _, length_data := by decide }]
    ziChunkTable := [⟨1, 0x80002000, 0x1000⟩, ⟨2, 0x90001000, 16⟩] }

theorem threeChunks_placed :
    ∃ file s, PayloadPlaced threeChunks file .u54_1 s ∧ StartsLoading .u54_1 s := by
  have short : payloadLength threeChunks ≤ 0x1000 := by decide +kernel
  obtain ⟨signature, length_signature, generated⟩ :=
    generatePayload_ok (show threeChunks.chunkTable ≠ [] from List.cons_ne_nil _ _)
      (Nat.lt_of_le_of_lt short (by decide)) fun signer key => by cases key
  have length : (((unsignedHeader threeChunks).sign signature length_signature).bytes ++
      payloadBody threeChunks).length = payloadLength threeChunks := by
    rw [List.length_append, BootImageHeader.length_bytes, payloadLength]
  generalize ((unsignedHeader threeChunks).sign signature length_signature).bytes ++
    payloadBody threeChunks = file at generated length
  obtain ⟨mem, holds⟩ := exists_holdsAt (l := file) (by omega) (0xA0000000 : Word)
  have addr : (0xA0000000 : Word).toNat = 0xA0000000 := rfl
  have places : ownedPlaces threeChunks.chunkTable .u54_1 = [0, 2] := by decide +kernel
  -- The image is far above what the hart's chunks are copied to and cleared.
  have apart : ∀ a : Word, ∀ n, n ≤ ((0xA0000000 : Word) - a).toNat → 0x2000 ≤ (a - 0xA0000000).toNat →
      Disjoint (span a n) (imageSpan 0xA0000000 file.length) := by
    intro a n before behind
    refine span_disjoint_iff.mpr (.inr (.inr ⟨before, ?_⟩))
    rw [bootSubChunkSize]
    omega
  refine ⟨file, { aboutToLoad mem with pBootImage := 0xA0000000 },
    ⟨generated, ?_, ?_, holds, ?_, ?_, ?_, ?_⟩,
    ⟨show (0xA0000000 : Word) ≠ 0 by decide, rfl, rfl, rfl⟩⟩
  · decide
  · rw [places]
    exact ⟨by decide, by decide, rfl⟩
  · show (0xA0000000 : Word).toNat + (file.length + bootSubChunkSize) ≤ 2 ^ 64
    rw [addr, bootSubChunkSize]
    omega
  · show ∀ c ∈ threeChunks.chunkTable, c.OwnedBy .u54_1 →
      hssPmpCheckWrite (fun _ => ⟨0, 0, .nullRegion, false, false, false, false⟩) _ _ = true
    decide +kernel
  · intro z present owned
    simp only [threeChunks, List.mem_cons, List.not_mem_nil, or_false] at present
    rcases present with rfl | rfl
    · exact apart _ _ (by decide) (by decide)
    · exact absurd owned (by decide)
  · intro c present owned
    simp only [threeChunks, List.mem_cons, List.not_mem_nil, or_false] at present
    rcases present with rfl | rfl | rfl
    · exact apart _ _ (by decide +kernel) (by decide)
    · exact absurd owned (by decide)
    · exact apart _ _ (by decide +kernel) (by decide)

theorem loadCalls_payloadLoaded_threeChunks : ∃ s, ∃ n, ∀ k, ∃ t,
    loadCalls .icicleKitEs .u54_1 (n + k) (fun _ => tick) s = .ok t ∧
      (t.machine .u54_1).state = .opensbiInit ∧
      PayloadLoaded threeChunks .u54_1 s.mem t.mem := by
  obtain ⟨file, s, placed, starts⟩ := threeChunks_placed
  obtain ⟨n, loads⟩ := loadCalls_payloadLoaded placed starts .icicleKitEs fun _ => tick
  have some : threeChunks.chunksOf .u54_1 ≠ [] := by decide +kernel
  rw [if_neg some] at loads
  exact ⟨s, n, loads⟩

end Hss
