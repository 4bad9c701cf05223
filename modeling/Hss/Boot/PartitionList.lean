import Hss.Boot.BootPartition

/-! What a search for a partition finds, and the list of the boot partitions that the command line
makes by searching on from each of them. -/

namespace Hss

open Hits

variable {d : GptDisk} {g g' : Gpt}

/-! ### The list -/

/-- What the list prints: the index of a partition, that there is none, or the name of the image at
a sector. -/
inductive BootListLine
  | found (srcIndex : Word)
  | failed
  | setName (srcLBAOffset : Word)
  deriving DecidableEq, Repr

section
variable (d : GptDisk)

/-- What is printed of the image at a partition, whose header is read into `localBootImage`. -/
def listImage (srcLBAOffset : Word) (g : Gpt) : Gpt × List BootListLine :=
  let localBootImage : Mem := fun i => d.content (srcLBAOffset * d.lbaSize + i)
  let magic := BootImage.magic localBootImage 0
  ({ g with reads := g.reads + 1 },
    if !d.fails g.reads && (magic = bootMagic || magic = compressedMagic) then
      [.setName srcLBAOffset]
    else [])

/-- What a turn of the loop prints below the index, given the result of the search. -/
def bootListTurn (srcIndex : Word) (result : Bool) (g : Gpt) :
    Except GptStop (Gpt × List BootListLine) :=
  if result then do
    let (g, lba) ← gptPartitionIdToLBAOffset d srcIndex g
    match lba with
    | none => return (g, [])
    | some srcLBAOffset => return listImage d srcLBAOffset g
  else
    return (g, [.failed])

/-- The loop of `tinyCLI_Boot_List_`, for at most `turns` turns.  The first result of the search is
not looked at before the first turn. -/
def bootListLoop : ℕ → Word → Bool → Gpt → Except GptStop (Option (List BootListLine))
  | 0, _, _, _ => .ok none
  | turns + 1, srcIndex, result, g => do
    let (g, lines) ← bootListTurn d srcIndex result g
    let (g, found) ← gptFindBootSectorIndex d (srcIndex + 1) g
    match found with
    | none => return some (.found srcIndex :: lines)
    | some (partitionIndex, _) => do
      let rest ← bootListLoop turns (BitVec.ofNat 64 partitionIndex) true g
      return rest.map fun rest => .found srcIndex :: lines ++ rest

/-- `tinyCLI_Boot_List_` -/
def tinyCliBootList (turns : ℕ) (g : Gpt) : Except GptStop (Option (List BootListLine)) := do
  let (g, result) ← gptReadHeader d (gptInit g)
  if result then
    let (g, found) ← gptFindBootSectorIndex d 0 g
    match found with
    | none => bootListLoop d turns 0 false g
    | some (partitionIndex, _) => bootListLoop d turns (BitVec.ofNat 64 partitionIndex) true g
  else
    return some []

end

/-- The index that a line gives. -/
def BootListLine.srcIndex : BootListLine → Option Word
  | .found srcIndex => some srcIndex
  | .failed => none
  | .setName _ => none

/-- The indices that a list gives as those of boot partitions. -/
def listed (lines : List BootListLine) : List Word := lines.filterMap BootListLine.srcIndex

/-- The boot partitions of the table on the disk, in order. -/
def bootPartitions (d : GptDisk) (g : Gpt) : List Word :=
  (hits (fun i => diskGuidAt d g 0 i = diskGuid) 0 g.numPartitions.toNat).map (BitVec.ofNat 64)

/-- No entry straddles a sector end. -/
def NoStraddle (d : GptDisk) (g : Gpt) : Prop :=
  ∀ i < g.numPartitions.toNat,
    InSector d g (max g.sizeOfPartitionEntry.toNat 128) (BitVec.ofNat 64 i)

/-! ### What a search finds -/

/-- A search, by the type or by the unique GUID, gives the first entry from its start on with the GUID,
or fails when there is none. -/
def SearchFinds (d : GptDisk) (g : Gpt) : Prop :=
  ∀ guidOffset, guidOffset = 0 ∨ guidOffset = 16 → ∀ pGuid pPartitionIndex, ∃ g' found,
    findPartitionById d guidOffset pGuid pPartitionIndex g.numPartitions.toNat 0 g =
      .ok (g', found) ∧
    (found ≠ none ↔ ∃ i, pPartitionIndex.toNat ≤ i ∧ i < g.numPartitions.toNat ∧
      diskGuidAt d g guidOffset i = pGuid) ∧
    ∀ p entry, found = some (p, entry) →
      Least (fun i => diskGuidAt d g guidOffset i = pGuid) pPartitionIndex.toNat
        g.numPartitions.toNat p ∧
      ∀ k < max g.sizeOfPartitionEntry.toNat 128,
        g'.lbaBuffer (entry + k) = diskByte d g (BitVec.ofNat 64 p) k

theorem NoStraddle.guid (whole : NoStraddle d g) {guidOffset i : ℕ} (inside : guidOffset ≤ 16)
    (less : i < g.numPartitions.toNat) : tableGuid d g guidOffset i = diskGuidAt d g guidOffset i :=
  tableGuid_eq_disk (whole i less) (by omega)

/-- The window holds the entry that a search stopped at. -/
theorem NoStraddle.found_byte (whole : NoStraddle d g) (reads : ∀ n, d.fails n = false) {p k : ℕ}
    (less : p < g.numPartitions.toNat) (inside : k < max g.sizeOfPartitionEntry.toNat 128) :
    (afterEntries d 0 (p + 1) g).lbaBuffer (entryOffset d g (BitVec.ofNat 64 p) + k) =
      diskByte d g (BitVec.ofNat 64 p) k := by
  have same := afterEntries_same (d := d) 0 p g
  rw [afterEntries_succ, Nat.zero_add, ← same.entryOffset, afterSector_byte (reads _), same.tableByte,
    tableByte_eq_disk (whole p less) inside]

theorem NoStraddle.searchFinds (whole : NoStraddle d g) (reads : ∀ n, d.fails n = false) :
    SearchFinds d g := by
  intro guidOffset either pGuid pPartitionIndex
  have inside : guidOffset ≤ 16 := by omega
  have same (i : ℕ) (less : i < g.numPartitions.toNat) :
      tableGuid d g guidOffset i = pGuid ↔ diskGuidAt d g guidOffset i = pGuid := by
    rw [whole.guid inside less]
  rcases findPartitionById_returns inside pGuid pPartitionIndex g.numPartitions.toNat reads with
    ⟨p, least, ok⟩ | ⟨none, ok⟩
  · have least := least.congr same
    refine ⟨_, _, ok, iff_of_true (Option.some_ne_none _)
      ⟨p, least.start_le, least.lt_stop, least.hit⟩, fun p' entry found => ?_⟩
    obtain ⟨rfl, rfl⟩ := Prod.mk.inj (Option.some.inj found)
    exact ⟨least, fun k less => whole.found_byte reads least.lt_stop less⟩
  · refine ⟨_, _, ok, iff_of_false (fun some => some rfl) ?_, fun p entry found => by cases found⟩
    rintro ⟨i, low, high, hit⟩
    exact none i low high ((same i high).mpr hit)

/-! ### What the list visits -/

/-- The table of `g₀`, whose checks passed. -/
structure Listing (d : GptDisk) (g₀ g : Gpt) : Prop where
  same : SameTable d g₀ g
  header : g.headerValid = true
  entries : g.partitionEntriesValid = true

theorem Listing.kept {g₀ : Gpt} (listing : Listing d g₀ g) (same : SameTable d g g')
    (header : g'.headerValid = g.headerValid)
    (entries : g'.partitionEntriesValid = g.partitionEntriesValid) : Listing d g₀ g' :=
  ⟨listing.same.trans same, header.trans listing.header, entries.trans listing.entries⟩

theorem Listing.afterEntries {g₀ : Gpt} (listing : Listing d g₀ g) (n : ℕ) :
    Listing d g₀ (afterEntries d 0 n g) :=
  listing.kept (afterEntries_same ..) (afterEntries_headerValid ..)
    (afterEntries_partitionEntriesValid ..)

/-- A turn at a partition prints no other index. -/
theorem Listing.turn {g₀ : Gpt} (reads : ∀ n, d.fails n = false) (listing : Listing d g₀ g) {p : ℕ}
    (known : p < g₀.numPartitions.toNat) :
    ∃ g' lines, bootListTurn d (BitVec.ofNat 64 p) true g = .ok (g', lines) ∧ Listing d g₀ g' ∧
      listed lines = [] := by
  have small := g₀.numPartitions.isLt
  have inTable : BitVec.ofNat 64 p < g.numPartitions.setWidth 64 := by
    rw [listing.same.numPartitions, BitVec.lt_def, BitVec.toNat_ofNat, BitVec.toNat_setWidth,
      Nat.mod_eq_of_lt (by omega), Nat.mod_eq_of_lt (by omega)]
    exact known
  have located := (gptPartitionIdToLBAOffset_eq_some_iff (d := d) (g := g)).mpr
    ⟨inTable, reads _, rfl, rfl⟩
  have sector : Listing d g₀ (afterSector d (BitVec.ofNat 64 p) g) :=
    listing.kept (afterSector_same _) rfl rfl
  have turn : bootListTurn d (BitVec.ofNat 64 p) true g =
      .ok (listImage d (tableFirstLBA d g (BitVec.ofNat 64 p)) (afterSector d (BitVec.ofNat 64 p) g)) :=
    (if_pos rfl).trans (bind_eq_ok.mpr ⟨_, located, rfl⟩)
  refine ⟨_, _, turn, sector.kept ⟨rfl, fun _ _ => rfl⟩ rfl rfl, ?_⟩
  split <;> rfl

section
variable {g₀ : Gpt} (whole : NoStraddle d g₀) (reads : ∀ n, d.fails n = false)
include whole reads

/-- A search in a table whose checks passed comes to the next boot partition or to the end. -/
theorem Listing.search (listing : Listing d g₀ g) (srcIndex : Word) :
    (∃ p g' entry, Least (fun i => diskGuidAt d g₀ 0 i = diskGuid) srcIndex.toNat
        g₀.numPartitions.toNat p ∧
      gptFindBootSectorIndex d srcIndex g = .ok (g', some (p, entry)) ∧ Listing d g₀ g') ∨
    ((∀ q, srcIndex.toNat ≤ q → q < g₀.numPartitions.toNat → diskGuidAt d g₀ 0 q ≠ diskGuid) ∧
      ∃ g', gptFindBootSectorIndex d srcIndex g = .ok (g', none) ∧ Listing d g₀ g') := by
  have search : gptFindBootSectorIndex d srcIndex g =
      findPartitionById d 0 diskGuid srcIndex g₀.numPartitions.toNat 0 g := by
    have header : headerOnce d g = .ok (g, true) := if_pos listing.header
    have entries : entriesOnce d g = .ok (g, true) := if_pos listing.entries
    rw [gptFindBootSectorIndex, header, ok_bind]
    simp only [entries, ok_bind, if_true]
    rw [gptFindPartitionByTypeId, listing.same.numPartitions]
  have same (i : ℕ) (less : i < g₀.numPartitions.toNat) :
      tableGuid d g 0 i = diskGuid ↔ diskGuidAt d g₀ 0 i = diskGuid := by
    rw [listing.same.tableGuid, whole.guid (Nat.zero_le 16) less]
  rw [search]
  rcases findPartitionById_returns (g := g) (Nat.zero_le 16) diskGuid srcIndex
    g₀.numPartitions.toNat reads with ⟨p, least, ok⟩ | ⟨none, ok⟩
  · exact .inl ⟨p, _, _, least.congr same, ok, listing.afterEntries _⟩
  · exact .inr ⟨fun q low high hit => none q low high ((same q high).mpr hit), _, ok,
      listing.afterEntries _⟩

/-- From a boot partition on, the loop visits that and those after it. -/
theorem bootListLoop_visits (listing : Listing d g₀ g) {p : ℕ}
    (known : p < g₀.numPartitions.toNat) : ∃ lines,
      listed lines = BitVec.ofNat 64 p ::
        (hits (fun i => diskGuidAt d g₀ 0 i = diskGuid) (p + 1) g₀.numPartitions.toNat).map
          (BitVec.ofNat 64) ∧
      ∀ turns, g₀.numPartitions.toNat ≤ p + turns →
        bootListLoop d turns (BitVec.ofNat 64 p) true g = .ok (some lines) := by
  induction remaining : g₀.numPartitions.toNat - p using Nat.strong_induction_on
    generalizing p g with
  | _ n ih =>
  have small := g₀.numPartitions.isLt
  have next : (BitVec.ofNat 64 p + 1).toNat = p + 1 := by
    have one : (1 : Word).toNat = 1 := rfl
    rw [BitVec.toNat_add, BitVec.toNat_ofNat, one, Nat.mod_eq_of_lt (by omega),
      Nat.mod_eq_of_lt (by omega)]
  obtain ⟨g₁, lines, turn, listing₁, silent⟩ := listing.turn reads known
  rcases listing₁.search whole reads (BitVec.ofNat 64 p + 1) with
    ⟨p', g₂, entry, least, search, listing₂⟩ | ⟨none, g₂, search, -⟩
  · rw [next] at least
    have later := least.start_le
    obtain ⟨rest, visits, ends⟩ := ih _ (by omega) listing₂ least.lt_stop rfl
    refine ⟨.found (BitVec.ofNat 64 p) :: lines ++ rest, ?_, fun turns enough => ?_⟩
    · have here : listed (.found (BitVec.ofNat 64 p) :: lines ++ rest) =
          BitVec.ofNat 64 p :: (listed lines ++ listed rest) :=
        congrArg (BitVec.ofNat 64 p :: ·) (List.filterMap_append ..)
      rw [here, silent, visits, least.hits_eq]
      rfl
    · cases turns with
      | zero => omega
      | succ turns =>
        rw [bootListLoop, turn, ok_bind]
        simp only [search, ok_bind, ends turns (by omega)]
        rfl
  · rw [next] at none
    refine ⟨.found (BitVec.ofNat 64 p) :: lines, ?_, fun turns enough => ?_⟩
    · have here : listed (.found (BitVec.ofNat 64 p) :: lines) =
          BitVec.ofNat 64 p :: listed lines := rfl
      rw [here, silent, hits_eq_nil_iff.mpr none]
      rfl
    · cases turns with
      | zero => omega
      | succ turns =>
        rw [bootListLoop, turn, ok_bind]
        simp only [search, ok_bind]
        rfl

end

/-- The list of a table that passes its checks gives the boot partitions, and the first entry when there
is none. -/
theorem tinyCliBootList_lists (whole : NoStraddle d (headerRead d g))
    (reads : ∀ n, d.fails n = false) (header : HeaderSound d (headerRead d g))
    (entries : EntriesSound d (headerRead d g)) : ∃ lines,
      listed lines = (if bootPartitions d (headerRead d g) = [] then [0]
        else bootPartitions d (headerRead d g)) ∧
      ∀ turns, (headerRead d g).numPartitions.toNat < turns →
        tinyCliBootList d turns g = .ok (some lines) := by
  have read : gptReadHeader d (gptInit g) = .ok (headerRead d g, true) :=
    gptReadHeader_eq_headerRead.mpr ⟨reads _, header, rfl⟩
  have passed : entriesOnce d (headerRead d g) = .ok
      ({ afterEntries d 0 (headerRead d g).numPartitions.toNat (headerRead d g) with
        partitionEntriesValid := true }, true) :=
    gptValidatePartitionEntries_true_iff.mpr ⟨fun _ _ => reads _, entries, rfl⟩
  generalize checked : { afterEntries d 0 (headerRead d g).numPartitions.toNat (headerRead d g) with
    partitionEntriesValid := true } = g₁ at passed
  have same := afterEntries_same (d := d) 0 (headerRead d g).numPartitions.toNat (headerRead d g)
  have listing : Listing d (headerRead d g) g₁ := by
    subst checked
    exact ⟨⟨same.buffer, same.past⟩, afterEntries_headerValid .., rfl⟩
  -- the first search validates the array and goes on as one in a validated table
  have first : gptFindBootSectorIndex d 0 (headerRead d g) = gptFindBootSectorIndex d 0 g₁ := by
    have header₀ : headerOnce d (headerRead d g) = .ok (headerRead d g, true) := if_pos rfl
    have header₁ : headerOnce d g₁ = .ok (g₁, true) := if_pos listing.header
    have entries₁ : entriesOnce d g₁ = .ok (g₁, true) := if_pos listing.entries
    rw [gptFindBootSectorIndex, gptFindBootSectorIndex, header₀, header₁, ok_bind, ok_bind]
    simp only [passed, entries₁, ok_bind]
  have start : (0 : Word).toNat = 0 := rfl
  rcases listing.search whole reads 0 with ⟨p, g₂, entry, least, search, listing₂⟩ |
    ⟨none, g₂, search, listing₂⟩
  · obtain ⟨lines, visits, ends⟩ := bootListLoop_visits whole reads listing₂ least.lt_stop
    rw [start] at least
    have partitions : bootPartitions d (headerRead d g) = listed lines := by
      rw [visits, bootPartitions, least.hits_eq, List.map_cons]
    refine ⟨lines, ?_, fun turns enough => ?_⟩
    · rw [partitions, if_neg]
      rw [visits]
      exact List.cons_ne_nil _ _
    · rw [tinyCliBootList, read, ok_bind]
      simp only [if_true, first, search, ok_bind]
      exact ends turns (by omega)
  · rw [start] at none
    have partitions : bootPartitions d (headerRead d g) = [] := by
      rw [bootPartitions, hits_eq_nil_iff.mpr none, List.map_nil]
    refine ⟨[.found 0, .failed], by rw [partitions, if_pos rfl]; rfl, fun turns enough => ?_⟩
    rcases listing₂.search whole reads (0 + 1) with ⟨p, g₃, entry, least, -, -⟩ | ⟨-, g₃, again, -⟩
    · exact absurd least.hit (none p (Nat.zero_le p) least.lt_stop)
    · cases turns with
      | zero => omega
      | succ turns =>
        rw [tinyCliBootList, read, ok_bind]
        simp only [if_true, first, search, ok_bind, bootListLoop, bootListTurn, Bool.false_eq_true,
          if_false, pure, Except.pure, again]

/-- A search in an array that fails its check finds nothing. -/
theorem gptFindBootSectorIndex_refuses (reads : ∀ n, d.fails n = false)
    (header : g.headerValid = true) (unchecked : g.partitionEntriesValid = false)
    (ends : EntriesEnd d g 0 g.numPartitions.toNat) (unsound : ¬ EntriesSound d g)
    (srcIndex : Word) :
    gptFindBootSectorIndex d srcIndex g =
      .ok (afterEntries d 0 g.numPartitions.toNat g, none) := by
  have run := (rollingCrc_eq_some_iff 0 g.numPartitions.toNat 0 _ g _).mpr
    ⟨fun _ _ => reads _, ends, rfl, rfl⟩
  have field : (afterEntries d 0 g.numPartitions.toNat g).partitionEntriesArrayCrc32 =
      g.partitionEntriesArrayCrc32 := by
    rw [Gpt.partitionEntriesArrayCrc32, (afterEntries_same ..).buffer,
      Gpt.partitionEntriesArrayCrc32]
  have wrong : crc32CalculateEx 0 (tableEntries d g 0 g.numPartitions.toNat) ≠
      g.partitionEntriesArrayCrc32 := fun crc => unsound ⟨ends, crc⟩
  have headerPasses : headerOnce d g = .ok (g, true) := if_pos header
  have entriesFail : entriesOnce d g = .ok (afterEntries d 0 g.numPartitions.toNat g, false) := by
    rw [entriesOnce, unchecked, if_neg Bool.false_ne_true, gptValidatePartitionEntries, run, ok_bind]
    simp only [field, Option.some.injEq, if_neg wrong]
    rfl
  rw [gptFindBootSectorIndex, headerPasses, ok_bind]
  simp only [entriesFail, ok_bind, Bool.false_eq_true, if_false]
  rfl

theorem NoStraddle.entriesEnd (whole : NoStraddle d g) :
    EntriesEnd d g 0 g.numPartitions.toNat := by
  intro i less
  have sector : d.lbaSize.toNat ≤ d.maxLbaSize := d.lbaSize_le
  have inside := whole i less
  unfold InSector at inside
  rw [Nat.zero_add]
  omega

/-- The list of an array that fails its check gives the first entry. -/
theorem tinyCliBootList_badArray (whole : NoStraddle d (headerRead d g))
    (reads : ∀ n, d.fails n = false) (header : HeaderSound d (headerRead d g))
    (unsound : ¬ EntriesSound d (headerRead d g)) {turns : ℕ} (positive : 0 < turns) :
    tinyCliBootList d turns g = .ok (some [.found 0, .failed]) := by
  have read : gptReadHeader d (gptInit g) = .ok (headerRead d g, true) :=
    gptReadHeader_eq_headerRead.mpr ⟨reads _, header, rfl⟩
  have first := gptFindBootSectorIndex_refuses reads rfl rfl whole.entriesEnd unsound 0
  have same := afterEntries_same (d := d) 0 (headerRead d g).numPartitions.toNat (headerRead d g)
  have again := gptFindBootSectorIndex_refuses (g := afterEntries d 0 _ (headerRead d g)) reads
    (afterEntries_headerValid ..) (afterEntries_partitionEntriesValid ..)
    (by rw [same.numPartitions]; exact (same.entriesEnd ..).mpr whole.entriesEnd)
    (mt same.entriesSound.mp unsound) (0 + 1)
  obtain ⟨turns, rfl⟩ := Nat.exists_eq_succ_of_ne_zero positive.ne'
  rw [tinyCliBootList, read, ok_bind]
  simp only [if_true, first, ok_bind, bootListLoop, bootListTurn, Bool.false_eq_true, if_false, pure,
    Except.pure, again]

/-- The list ends and gives just the boot partitions of the table. -/
def ListsBoot (d : GptDisk) (g : Gpt) : Prop :=
  ∃ lines, (∀ turns, (headerRead d g).numPartitions.toNat < turns →
      tinyCliBootList d turns g = .ok (some lines)) ∧
    listed lines = bootPartitions d (headerRead d g)

/-- The tables that are listed as they are: those that pass their checks and have a boot partition,
those whose array fails its check and has the first entry for its only boot partition, and those
without a boot partition whose header fails its check in its buffer. -/
def ListedRight (d : GptDisk) (g : Gpt) : Prop :=
  (HeaderSound d g ∧ EntriesSound d g ∧ bootPartitions d g ≠ []) ∨
    (HeaderSound d g ∧ ¬ EntriesSound d g ∧ bootPartitions d g = [0]) ∨
    (¬ HeaderSound d g ∧ HeaderFits d g ∧ bootPartitions d g = [])

theorem listsBoot_iff_of_ends {lines : List BootListLine}
    (ends : ∀ turns, (headerRead d g).numPartitions.toNat < turns →
      tinyCliBootList d turns g = .ok (some lines)) :
    ListsBoot d g ↔ listed lines = bootPartitions d (headerRead d g) := by
  refine ⟨fun ⟨lines', ends', lists⟩ => ?_, fun lists => ⟨lines, ends, lists⟩⟩
  have same := (ends _ (Nat.lt_succ_self _)).symm.trans (ends' _ (Nat.lt_succ_self _))
  rw [Option.some.inj (Except.ok.inj same)]
  exact lists

theorem listsBoot_iff (whole : NoStraddle d (headerRead d g)) (reads : ∀ n, d.fails n = false) :
    ListsBoot d g ↔ ListedRight d (headerRead d g) := by
  unfold ListedRight
  by_cases header : HeaderSound d (headerRead d g)
  · by_cases entries : EntriesSound d (headerRead d g)
    · obtain ⟨lines, lists, ends⟩ := tinyCliBootList_lists whole reads header entries
      rw [listsBoot_iff_of_ends ends, lists]
      simp only [header, entries, not_true, false_and, true_and, or_false]
      split
      · next none => exact iff_of_false (by rw [none]; exact List.cons_ne_nil _ _) (not_not.mpr none)
      · next some => exact iff_of_true rfl some
    · rw [listsBoot_iff_of_ends fun turns more =>
        tinyCliBootList_badArray whole reads header entries (Nat.zero_lt_of_lt more)]
      simp only [header, entries, not_true, not_false_iff, false_and, true_and, false_or, or_false]
      exact eq_comm
  · have unsound : ¬ HeaderSound d (afterHeader d (gptInit g)) :=
      mt headerRead_same.headerSound.mpr header
    simp only [header, false_and, not_false_iff, true_and, false_or]
    by_cases fits : HeaderFits d (headerRead d g)
    · have read := gptReadHeader_refuses (g := gptInit g) (reads _) fits unsound
      have ends : ∀ turns, (headerRead d g).numPartitions.toNat < turns →
          tinyCliBootList d turns g = .ok (some []) := by
        intro turns _
        rw [tinyCliBootList, read, ok_bind]
        rfl
      rw [listsBoot_iff_of_ends ends, and_iff_right fits]
      exact eq_comm
    · refine iff_of_false (fun lists => fits ?_) fun right => fits right.1
      obtain ⟨lines, ends, -⟩ := lists
      obtain ⟨result, read, -⟩ := bind_eq_ok.mp (ends _ (Nat.lt_succ_self _))
      have safe : MemorySafe (gptReadHeader d (gptInit g)) := by
        rw [read]
        exact .ok _
      have sector := gptReadHeader_safe_iff.mp safe (reads _)
      rwa [← one_mul d.lbaSize] at sector

/-- A search finds the first entry with its GUID, and the list gives the boot partitions of a table
just in those three cases: its first turn does not look at the result. -/
theorem partitionSearch_and_list (d : GptDisk) (reads : ∀ n, d.fails n = false) :
    (∀ g, NoStraddle d g → SearchFinds d g) ∧
    ∀ g, NoStraddle d (headerRead d g) → (ListsBoot d g ↔ ListedRight d (headerRead d g)) :=
  ⟨fun _ whole => whole.searchFinds reads, fun _ whole => listsBoot_iff whole reads⟩

/-- A disk with one partition, which is not for boot, whose checksums are right. -/
def otherTypeDisk : GptDisk := tableDisk 1 0x4BC83DE3 0x755FD17E

theorem otherType_listed : (∀ n, otherTypeDisk.fails n = false) ∧
    NoStraddle otherTypeDisk (headerRead otherTypeDisk .fresh) ∧
    HeaderSound otherTypeDisk (headerRead otherTypeDisk .fresh) ∧
    EntriesSound otherTypeDisk (headerRead otherTypeDisk .fresh) ∧
    ¬ ListsBoot otherTypeDisk .fresh := by
  have header : HeaderSound otherTypeDisk (headerRead otherTypeDisk .fresh) :=
    ⟨by decide +kernel, by decide +kernel, by decide +kernel, by decide +kernel, by decide +kernel,
      by decide +kernel⟩
  have entries : EntriesSound otherTypeDisk (headerRead otherTypeDisk .fresh) :=
    ⟨by unfold EntriesEnd; decide +kernel, by decide +kernel⟩
  have whole : NoStraddle otherTypeDisk (headerRead otherTypeDisk .fresh) := by
    unfold NoStraddle InSector
    decide +kernel
  have none : bootPartitions otherTypeDisk (headerRead otherTypeDisk .fresh) = [] := by
    decide +kernel
  refine ⟨fun _ => rfl, whole, header, entries, fun lists => ?_⟩
  rcases (listsBoot_iff whole fun _ => rfl).mp lists with ⟨-, -, some⟩ | ⟨-, unsound, -⟩ |
    ⟨unsound, -⟩
  · exact some none
  · exact unsound entries
  · exact unsound header

/-- A disk with three partitions, of which the last two are for boot. -/
def twoBootDisk : GptDisk :=
  { goodDisk with
    content := fieldsMem [(512, 8, 0x5452415020494645), (520, 4, 0x10000), (524, 4, 92),
      (528, 4, 0x46C32E86), (536, 8, 1), (584, 8, 2), (592, 4, 3), (596, 4, 128),
      (600, 4, 0x7AB5BD8D), (1024, 16, 1), (1056, 8, 34), (1152, 16, bootType), (1184, 8, 40),
      (1280, 16, bootType), (1312, 8, 50)] }

theorem partitionSearch_and_list_twoBoot :
    SearchFinds twoBootDisk (headerRead twoBootDisk .fresh) ∧ ListsBoot twoBootDisk .fresh ∧
      bootPartitions twoBootDisk (headerRead twoBootDisk .fresh) = [1, 2] := by
  have whole : NoStraddle twoBootDisk (headerRead twoBootDisk .fresh) := by
    unfold NoStraddle InSector
    decide +kernel
  have header : HeaderSound twoBootDisk (headerRead twoBootDisk .fresh) :=
    ⟨by decide +kernel, by decide +kernel, by decide +kernel, by decide +kernel, by decide +kernel,
      by decide +kernel⟩
  have entries : EntriesSound twoBootDisk (headerRead twoBootDisk .fresh) :=
    ⟨by unfold EntriesEnd; decide +kernel, by decide +kernel⟩
  have boot : bootPartitions twoBootDisk (headerRead twoBootDisk .fresh) = [1, 2] := by
    decide +kernel
  obtain ⟨finds, lists⟩ := partitionSearch_and_list twoBootDisk fun _ => rfl
  refine ⟨finds _ whole, (lists .fresh whole).mpr (.inl ⟨header, entries, ?_⟩), boot⟩
  rw [boot]
  exact List.cons_ne_nil _ _

end Hss
