import Hss.Boot.Custom

/-! What the walk of the tables of an image leaves in memory, when it does not write over the image. -/

namespace Hss

open ByteMemory Outcome

/-! ### The loaded memory -/

/-- How many bytes are copied of a chunk: whole slices, the last of which is more than the chunk has. -/
def copiedSize (size : Word) : ℕ := (size.toNat / bootSubChunkSize + 1) * bootSubChunkSize

/-- The memory with a chunk of the image in `source` where it is to be. -/
def placeChunk (source : Mem) (image : Word) (mem : Mem) (c : ChunkDesc) : Mem :=
  put mem c.execAddr (copiedSize c.size) fun i => source (image + c.loadAddr + BitVec.ofNat 64 i)

/-- The memory with a zero-init chunk in place. -/
def placeZiChunk (mem : Mem) (z : ZiChunkDesc) : Mem := fill mem z.execAddr z.size.toNat 0

/-- The memory with all of them in place. -/
def loadedMem (image : Word) (ziChunks : List ZiChunkDesc) (chunks : List ChunkDesc) (mem : Mem) : Mem :=
  chunks.foldl (placeChunk mem image) (ziChunks.foldl placeZiChunk mem)

/-- The zero-init chunks of a hart -/
def ziChunksOf (target : U54) (ziChunks : List ZiChunkDesc) : List ZiChunkDesc :=
  ziChunks.filter fun z => z.OwnedBy target

/-- The chunks that a walk takes of the entries that are left to it, behind `count` that it took. -/
def LoadRules.taken (R : LoadRules) (mem : Mem) : ℕ → List ChunkDesc → List ChunkDesc
  | _, [] => []
  | count, c :: rest =>
    if R.ends mem (BitVec.ofNat 64 count) then []
    else if R.takes c then c :: R.taken mem (count + 1) rest
    else R.taken mem count rest

/-! ### The image -/

/-- Where the image is, with as much behind it as the last slice of a chunk may be read past its end. -/
def imageSpan (image : Word) (length : ℕ) : Set Word := span image (length + bootSubChunkSize)

/-- The addresses of the entries of the tables. -/
def ziChunkEntry (image : Word) (mem : Mem) (i : ℕ) : Word :=
  ziTableStart image mem + BitVec.ofNat 64 (24 * i)
def chunkEntry (image : Word) (mem : Mem) (i : ℕ) : Word :=
  image + BootImage.chunkTableOffset mem image + BitVec.ofNat 64 (40 * i)

/-- There is an image of `length` bytes with these entries in its tables. -/
structure ImageTables (image : Word) (length : ℕ) (ziChunks : List ZiChunkDesc)
    (chunks : List ChunkDesc) (mem : Mem) : Prop where
  notNull : image ≠ 0
  fits : image.toNat + (length + bootSubChunkSize) ≤ 2 ^ 64
  header : BootImage.sizeOf ≤ length
  ziInside : (BootImage.ziChunkTableOffset mem image).toNat + 24 * (ziChunks.length + 1) ≤ length
  ziEntries : ∀ i, ∀ less : i < ziChunks.length, ziChunkDesc mem (ziChunkEntry image mem i) = ziChunks[i]
  ziSizes : ∀ z ∈ ziChunks, z.size ≠ 0
  ziSentinel : (ziChunkDesc mem (ziChunkEntry image mem ziChunks.length)).size = 0
  inside : (BootImage.chunkTableOffset mem image).toNat + 40 * (chunks.length + 1) ≤ length
  entries : ∀ i, ∀ less : i < chunks.length, chunkDesc mem (chunkEntry image mem i) = chunks[i]
  sizes : ∀ c ∈ chunks, c.size ≠ 0
  sentinel : (chunkDesc mem (chunkEntry image mem chunks.length)).size = 0
  sources : ∀ c ∈ chunks, c.loadAddr.toNat + c.size.toNat ≤ length

/-- The rules read nothing but the image. -/
def LoadRules.ReadsImage (R : LoadRules) (image : Word) (length : ℕ) : Prop :=
  ∀ mem mem', Set.EqOn mem mem' (imageSpan image length) →
    R.firstChunk mem = R.firstChunk mem' ∧ R.ends mem = R.ends mem'

section
variable {target : U54} {image p : Word} {length i : ℕ} {R : LoadRules} {mem mem' : Mem}
  {written : List Access} {ziChunks : List ZiChunkDesc} {chunks : List ChunkDesc}

theorem chunkDesc_congr (same : Set.EqOn mem mem' (span p 40)) : chunkDesc mem p = chunkDesc mem' p := by
  have field (offset : ℕ) (inside : offset + 8 ≤ 40) :
      load64 mem (p + BitVec.ofNat 64 offset) = load64 mem' (p + BitVec.ofNat 64 offset) :=
    load64_congr (same.mono (span_offset_subset inside))
  rw [chunkDesc, chunkDesc, load32_congr (same.mono (span_mono (by decide)))]
  congr 1
  · exact field 8 (by decide)
  · exact field 16 (by decide)
  · exact field 24 (by decide)

theorem ziChunkDesc_congr (same : Set.EqOn mem mem' (span p 24)) :
    ziChunkDesc mem p = ziChunkDesc mem' p := by
  have field (offset : ℕ) (inside : offset + 8 ≤ 24) :
      load64 mem (p + BitVec.ofNat 64 offset) = load64 mem' (p + BitVec.ofNat 64 offset) :=
    load64_congr (same.mono (span_offset_subset inside))
  rw [ziChunkDesc, ziChunkDesc, load32_congr (same.mono (span_mono (by decide)))]
  congr 1
  · exact field 8 (by decide)
  · exact field 16 (by decide)

/-- A field of the header is the same where the image is. -/
theorem headerField_congr (same : Set.EqOn mem mem' (imageSpan image length))
    (header : BootImage.sizeOf ≤ length) {offset : ℕ} (inside : offset + 8 ≤ BootImage.sizeOf) :
    load64 mem (image + BitVec.ofNat 64 offset) = load64 mem' (image + BitVec.ofNat 64 offset) :=
  load64_congr (same.mono (span_offset_subset (by omega)))

/-- No entry of a table is at address zero. -/
theorem ImageTables.entry_ne_zero {offset k : ℕ} (tables : ImageTables image length ziChunks chunks mem)
    {start : Word} (inside : start.toNat + offset + k ≤ length) :
    image + start + BitVec.ofNat 64 offset ≠ 0 := by
  intro null
  have fits := tables.fits
  have notNull : image.toNat ≠ 0 := fun zero => tables.notNull (BitVec.eq_of_toNat_eq zero)
  have addr := congrArg BitVec.toNat null
  rw [BitVec.add_assoc, BitVec.toNat_add, BitVec.toNat_add, BitVec.toNat_ofNat] at addr
  have zero : (0 : Word).toNat = 0 := rfl
  rw [zero] at addr
  rw [bootSubChunkSize] at fits
  omega

/-- An entry of a table lies in the image. -/
theorem span_entry_subset {start : Word} {offset k : ℕ} (inside : start.toNat + offset + k ≤ length) :
    span (image + start + BitVec.ofNat 64 offset) k ⊆ imageSpan image length := by
  have place : image + start + BitVec.ofNat 64 offset = image + BitVec.ofNat 64 (start.toNat + offset) := by
    rw [BitVec.add_assoc, BitVec.ofNat_add, BitVec.ofNat_toNat, BitVec.setWidth_eq]
  rw [place]
  exact span_offset_subset (by omega)

theorem chunkTableEntry_eq (image : Word) (mem : Mem) (first : Word) :
    chunkTableEntry image mem first = chunkEntry image mem first.toNat := by
  rw [chunkTableEntry, chunkEntry, BitVec.ofNat_mul, BitVec.ofNat_toNat, BitVec.setWidth_eq]
  rfl

theorem chunkEntry_succ (image : Word) (mem : Mem) (i : ℕ) :
    chunkEntry image mem i + sizeOfChunkDesc = chunkEntry image mem (i + 1) := by
  have size : sizeOfChunkDesc = BitVec.ofNat 64 40 := rfl
  rw [chunkEntry, chunkEntry, size, BitVec.add_assoc, ← BitVec.ofNat_add, Nat.mul_succ]

theorem ziChunkEntry_succ (image : Word) (mem : Mem) (i : ℕ) :
    ziChunkEntry image mem i + sizeOfZiChunkDesc = ziChunkEntry image mem (i + 1) := by
  have size : sizeOfZiChunkDesc = BitVec.ofNat 64 24 := rfl
  rw [ziChunkEntry, ziChunkEntry, size, BitVec.add_assoc, ← BitVec.ofNat_add, Nat.mul_succ]

/-! ### Reaching -/

/-- Whatever was written, some number of turns leads from one memory and place to another. -/
def Reaches (target : U54) (image : Word) (R : LoadRules) (mem : Mem) (pos : LoaderPos) (mem' : Mem)
    (pos' : LoaderPos) : Prop :=
  ∀ written, ∃ n written', loadTurns target image R n ⟨mem, written, pos⟩ = .ok ⟨mem', written', pos'⟩

theorem Reaches.refl (mem : Mem) (pos : LoaderPos) : Reaches target image R mem pos mem pos :=
  fun written => ⟨0, written, rfl⟩

theorem Reaches.turn {mem'' : Mem} {pos pos' pos'' : LoaderPos}
    (first : ∀ written, ∃ written', loadTurn target image R ⟨mem, written, pos⟩ =
      .ok ⟨mem', written', pos'⟩)
    (rest : Reaches target image R mem' pos' mem'' pos'') :
    Reaches target image R mem pos mem'' pos'' := by
  intro written
  obtain ⟨written', turned⟩ := first written
  obtain ⟨n, written'', turns⟩ := rest written'
  refine ⟨n + 1, written'', ?_⟩
  rw [loadTurns, turned]
  exact turns

theorem loadTurns_add {x y : Loader} {n : ℕ} (first : loadTurns target image R n x = .ok y) (k : ℕ) :
    loadTurns target image R (n + k) x = loadTurns target image R k y := by
  induction n generalizing x with
  | zero =>
    cases first
    rw [Nat.zero_add]
  | succ n ih =>
    obtain ⟨x', turned, rest⟩ := bind_eq_ok.mp first
    rw [Nat.add_right_comm, loadTurns, turned]
    exact ih rest

theorem Reaches.trans {mem'' : Mem} {pos pos' pos'' : LoaderPos}
    (first : Reaches target image R mem pos mem' pos')
    (rest : Reaches target image R mem' pos' mem'' pos'') :
    Reaches target image R mem pos mem'' pos'' := by
  intro written
  obtain ⟨n, written', turns⟩ := first written
  obtain ⟨k, written'', turns'⟩ := rest written'
  exact ⟨n + k, written'', (loadTurns_add turns k).trans turns'⟩

/-! ### The zero-init chunks -/

theorem ziChunksOf_cons_of_owned {z : ZiChunkDesc} (owned : z.OwnedBy target) :
    ziChunksOf target (z :: ziChunks) = z :: ziChunksOf target ziChunks :=
  List.filter_cons_of_pos (decide_eq_true owned)

theorem ziChunksOf_cons_of_not_owned {z : ZiChunkDesc} (other : ¬z.OwnedBy target) :
    ziChunksOf target (z :: ziChunks) = ziChunksOf target ziChunks :=
  List.filter_cons_of_neg fun owned => other (of_decide_eq_true owned)

/-- What is written apart from the image leaves it. -/
theorem eqOn_placeZiChunk {z : ZiChunkDesc} (kept : Set.EqOn mem mem' (imageSpan image length))
    (apart : Disjoint (span z.execAddr z.size.toNat) (imageSpan image length)) :
    Set.EqOn mem (placeZiChunk mem' z) (imageSpan image length) := fun _ inside =>
  (kept inside).trans (fill_of_notMem fun cleared => Set.disjoint_left.mp apart cleared inside).symm

theorem ImageTables.ziChunk (tables : ImageTables image length ziChunks chunks mem)
    (kept : Set.EqOn mem mem' (imageSpan image length)) (le : i ≤ ziChunks.length) :
    ziChunkDesc mem' (ziChunkEntry image mem i) = ziChunkDesc mem (ziChunkEntry image mem i) := by
  refine (ziChunkDesc_congr (kept.mono (span_entry_subset ?_))).symm
  have inside := tables.ziInside
  omega

/-- The walk clears the chunks of the hart that are left, and goes on with the chunk table. -/
theorem ImageTables.reaches_cleared (tables : ImageTables image length ziChunks chunks mem)
    (reads : R.ReadsImage image length)
    (apart : ∀ z ∈ ziChunks, z.OwnedBy target →
      Disjoint (span z.execAddr z.size.toNat) (imageSpan image length))
    (rest : List ZiChunkDesc) (here : ziChunks.drop i = rest) (le : i ≤ ziChunks.length)
    (kept : Set.EqOn mem mem' (imageSpan image length)) :
    let cleared := (ziChunksOf target rest).foldl placeZiChunk mem'
    Set.EqOn mem cleared (imageSpan image length) ∧
      Reaches target image R mem' (.zeroing (ziChunkEntry image mem i)) cleared
        (.downloading (chunkEntry image mem (R.firstChunk mem).toNat) 0 0) := by
  induction rest generalizing i mem' with
  | nil =>
    obtain rfl : i = ziChunks.length := by
      have short := congrArg List.length here
      rw [List.length_drop, List.length_nil] at short
      omega
    refine ⟨kept, .turn (fun written => ⟨written, ?_⟩) (.refl _ _)⟩
    have size := (congrArg ZiChunkDesc.size (tables.ziChunk kept le)).trans tables.ziSentinel
    rw [loadTurn_sentinel size, ← (reads mem mem' kept).1, chunkTableEntry_eq, chunkEntry, chunkEntry]
    have offset : BootImage.chunkTableOffset mem' image = BootImage.chunkTableOffset mem image :=
      (headerField_congr kept tables.header (by decide)).symm
    rw [offset]
    rfl
  | cons z rest ih =>
    have less : i < ziChunks.length := by
      have short := congrArg List.length here
      rw [List.length_drop, List.length_cons] at short
      omega
    obtain ⟨rfl, here'⟩ := List.cons.inj ((List.drop_eq_getElem_cons less).symm.trans here)
    have entry := (tables.ziChunk kept le).trans (tables.ziEntries i less)
    have size : (ziChunkDesc mem' (ziChunkEntry image mem i)).size ≠ 0 :=
      entry ▸ tables.ziSizes _ (List.getElem_mem less)
    by_cases owned : ziChunks[i].OwnedBy target
    · have kept' := eqOn_placeZiChunk kept (apart _ (List.getElem_mem less) owned)
      obtain ⟨still, reaches⟩ := ih here' less kept'
      rw [ziChunksOf_cons_of_owned owned]
      refine ⟨still, .turn (fun written => ⟨.zeroInit target ziChunks[i] :: written, ?_⟩) reaches⟩
      have notNull : ziChunkEntry image mem i ≠ 0 := tables.entry_ne_zero (k := 0) (by
        have inside := tables.ziInside
        omega)
      rw [loadTurn_clear size (entry ▸ owned), clearChunk, assert, if_pos notNull, entry,
        ziChunkEntry_succ]
      rfl
    · obtain ⟨still, reaches⟩ := ih here' less kept
      rw [ziChunksOf_cons_of_not_owned owned]
      refine ⟨still, .turn (fun written => ⟨written, ?_⟩) reaches⟩
      rw [loadTurn_pass size (entry ▸ owned), ziChunkEntry_succ]

/-! ### The chunks -/

theorem memcpyViaPdma_of_disjoint {dest src : Word} {n : ℕ} (some : 0 < n) (small : n < 2 ^ 64)
    (apart : Disjoint (span dest n) (span src n)) :
    memcpyViaPdma dest src n mem = .ok (copy mem dest src n) := by
  have ends : if src < dest then src + BitVec.ofNat 64 n - 1 < dest
      else dest + BitVec.ofNat 64 n - 1 < src := by
    rw [span_disjoint_iff] at apart
    split <;> bv_omega
  rw [memcpyViaPdma, assert, if_pos ends]
  rfl

theorem toNat_lt_copiedSize (size : Word) : size.toNat < copiedSize size := by
  rw [copiedSize, bootSubChunkSize]
  omega

theorem copiedSize_le (size : Word) : copiedSize size ≤ size.toNat + bootSubChunkSize := by
  rw [copiedSize, bootSubChunkSize]
  omega

/-- What is put apart from the image leaves it. -/
theorem eqOn_put {dst : Word} {n : ℕ} {bytes : ℕ → BitVec 8}
    (kept : Set.EqOn mem mem' (imageSpan image length))
    (apart : Disjoint (span dst n) (imageSpan image length)) :
    Set.EqOn mem (put mem' dst n bytes) (imageSpan image length) := fun _ inside =>
  (kept inside).trans (put_of_notMem fun written => Set.disjoint_left.mp apart written inside).symm

theorem ImageTables.chunk (tables : ImageTables image length ziChunks chunks mem)
    (kept : Set.EqOn mem mem' (imageSpan image length)) (le : i ≤ chunks.length) :
    chunkDesc mem' (chunkEntry image mem i) = chunkDesc mem (chunkEntry image mem i) := by
  refine (chunkDesc_congr (kept.mono (span_entry_subset ?_))).symm
  have inside := tables.inside
  omega

/-- A chunk whose copy is apart from the image that it is in. -/
structure Placeable (image : Word) (length : ℕ) (c : ChunkDesc) : Prop where
  size : c.size ≠ 0
  source : c.loadAddr.toNat + c.size.toNat ≤ length
  apart : Disjoint (span c.execAddr (copiedSize c.size)) (imageSpan image length)

/-- A slice of a chunk -/
theorem Placeable.copySlice_eq {c : ChunkDesc} (placeable : Placeable image length c)
    (kept : Set.EqOn mem mem' (imageSpan image length)) (notNull : p ≠ 0) (entry : chunkDesc mem' p = c)
    {k : ℕ} (le : k ≤ c.size.toNat / bootSubChunkSize) :
    copySlice image p (BitVec.ofNat 64 (k * bootSubChunkSize)) mem' =
      .ok (put mem' (c.execAddr + BitVec.ofNat 64 (k * bootSubChunkSize)) bootSubChunkSize fun i =>
        mem (image + c.loadAddr + BitVec.ofNat 64 (k * bootSubChunkSize + i))) := by
  have source : span (image + c.loadAddr + BitVec.ofNat 64 (k * bootSubChunkSize)) bootSubChunkSize ⊆
      imageSpan image length := by
    have place : image + c.loadAddr + BitVec.ofNat 64 (k * bootSubChunkSize) =
        image + BitVec.ofNat 64 (c.loadAddr.toNat + k * bootSubChunkSize) := by
      rw [BitVec.add_assoc, BitVec.ofNat_add, BitVec.ofNat_toNat, BitVec.setWidth_eq]
    have inside := placeable.source
    rw [place]
    refine span_offset_subset ?_
    rw [bootSubChunkSize] at le ⊢
    omega
  have dest : span (c.execAddr + BitVec.ofNat 64 (k * bootSubChunkSize)) bootSubChunkSize ⊆
      span c.execAddr (copiedSize c.size) := by
    refine span_offset_subset ?_
    rw [copiedSize, bootSubChunkSize] at *
    omega
  have apart := placeable.apart.mono dest source
  rw [copySlice, assert, if_pos notNull, entry, assert, if_pos placeable.size]
  show memcpyViaPdma _ _ _ _ = _
  rw [memcpyViaPdma_of_disjoint (by decide) (by decide) apart]
  congr 1
  funext a
  by_cases written : a ∈ span (c.execAddr + BitVec.ofNat 64 (k * bootSubChunkSize)) bootSubChunkSize
  · have place : image + c.loadAddr + BitVec.ofNat 64 (k * bootSubChunkSize) +
        (a - (c.execAddr + BitVec.ofNat 64 (k * bootSubChunkSize))) = image + c.loadAddr +
        BitVec.ofNat 64 (k * bootSubChunkSize +
          (a - (c.execAddr + BitVec.ofNat 64 (k * bootSubChunkSize))).toNat) := by
      rw [BitVec.ofNat_add, BitVec.ofNat_toNat, BitVec.setWidth_eq, BitVec.add_assoc]
    rw [copy_of_mem written, put_of_mem written, ← place]
    refine (kept (source ?_)).symm
    rw [mem_span, add_sub_cancel_left]
    exact written
  · rw [copy_of_notMem written, put_of_notMem written]

/-- Behind a slice the walk is at the next one, or at the next chunk. -/
theorem next_slice {size : Word} (small : size.toNat + bootSubChunkSize < 2 ^ 64) (p count : Word) {k : ℕ}
    (le : k ≤ size.toNat / bootSubChunkSize) :
    LoaderPos.next size p (BitVec.ofNat 64 (k * bootSubChunkSize)) count =
      if k = size.toNat / bootSubChunkSize then .downloading (p + sizeOfChunkDesc) 0 (count + 1)
      else .downloading p (BitVec.ofNat 64 ((k + 1) * bootSubChunkSize)) count := by
  have offset : BitVec.ofNat 64 (k * bootSubChunkSize) + BitVec.ofNat 64 bootSubChunkSize =
      BitVec.ofNat 64 ((k + 1) * bootSubChunkSize) := by
    rw [← BitVec.ofNat_add, Nat.succ_mul]
  have behind : BitVec.ofNat 64 ((k + 1) * bootSubChunkSize) > size ↔
      k = size.toNat / bootSubChunkSize := by
    rw [gt_iff_lt, BitVec.lt_def, BitVec.toNat_ofNat, bootSubChunkSize] at *
    omega
  rw [LoaderPos.next, offset]
  simp only [behind]

/-- A slice behind the others, from where they were read. -/
theorem put_slice {c : ChunkDesc} (small : c.size.toNat + bootSubChunkSize < 2 ^ 64) {k : ℕ}
    (le : k ≤ c.size.toNat / bootSubChunkSize) (source : ℕ → BitVec 8) :
    put (put mem' c.execAddr (k * bootSubChunkSize) source)
        (c.execAddr + BitVec.ofNat 64 (k * bootSubChunkSize)) bootSubChunkSize
        (fun i => source (k * bootSubChunkSize + i)) =
      put mem' c.execAddr ((k + 1) * bootSubChunkSize) source := by
  have fits : k * bootSubChunkSize + bootSubChunkSize ≤ 2 ^ 64 := by
    rw [bootSubChunkSize] at *
    omega
  rw [put_put fits, Nat.succ_mul]

/-- The walk copies the slices of a chunk that are left, and goes on with the next entry. -/
theorem Placeable.reaches_copied {c : ChunkDesc} (placeable : Placeable image length c)
    (small : c.size.toNat + bootSubChunkSize < 2 ^ 64) (reads : R.ReadsImage image length)
    (notNull : p ≠ 0) (inside : span p 40 ⊆ imageSpan image length) (entry : chunkDesc mem p = c)
    {count : Word} (goes : ¬R.ends mem count = true) (takes : R.takes c = true)
    (kept : Set.EqOn mem mem' (imageSpan image length)) (left k : ℕ)
    (all : k + left = c.size.toNat / bootSubChunkSize) :
    Reaches target image R
      (put mem' c.execAddr (k * bootSubChunkSize) fun i => mem (image + c.loadAddr + BitVec.ofNat 64 i))
      (.downloading p (BitVec.ofNat 64 (k * bootSubChunkSize)) count)
      (placeChunk mem image mem' c) (.downloading (p + sizeOfChunkDesc) 0 (count + 1)) := by
  have within {k : ℕ} (le : k ≤ c.size.toNat / bootSubChunkSize + 1) :
      Set.EqOn mem (put mem' c.execAddr (k * bootSubChunkSize) fun i =>
        mem (image + c.loadAddr + BitVec.ofNat 64 i)) (imageSpan image length) :=
    eqOn_put kept (placeable.apart.mono_left (span_mono (Nat.mul_le_mul_right _ le)))
  -- one slice more, after which the entry is read again
  have slice {k : ℕ} (le : k ≤ c.size.toNat / bootSubChunkSize) (written : List Access) :
      loadTurn target image R
        ⟨put mem' c.execAddr (k * bootSubChunkSize) fun i => mem (image + c.loadAddr + BitVec.ofNat 64 i),
          written, .downloading p (BitVec.ofNat 64 (k * bootSubChunkSize)) count⟩ =
        .ok ⟨put mem' c.execAddr ((k + 1) * bootSubChunkSize) fun i =>
            mem (image + c.loadAddr + BitVec.ofNat 64 i),
          .download target image c (BitVec.ofNat 64 (k * bootSubChunkSize)) bootSubChunkSize :: written,
          .next c.size p (BitVec.ofNat 64 (k * bootSubChunkSize)) count⟩ := by
    have before := within (Nat.le_succ_of_le le)
    have entry' := (chunkDesc_congr (before.mono inside)).symm.trans entry
    have after := (chunkDesc_congr ((within (Nat.succ_le_succ le)).mono inside)).symm.trans entry
    rw [loadTurn_take, entry', placeable.copySlice_eq before notNull entry' le, ok_bind,
      put_slice small le, after]
    · rfl
    · rw [entry', ← (reads _ _ before).2]
      exact not_or.mpr ⟨placeable.size, goes⟩
    · rw [entry', takes]
  induction left generalizing k with
  | zero =>
    obtain rfl : k = c.size.toNat / bootSubChunkSize := all
    refine .turn (fun written => ⟨_, slice le_rfl written⟩) ?_
    rw [next_slice small p count le_rfl, if_pos rfl]
    exact .refl _ _
  | succ left ih =>
    have less : k < c.size.toNat / bootSubChunkSize := by omega
    refine .turn (fun written => ⟨_, slice (Nat.le_of_lt less) written⟩) ?_
    rw [next_slice small p count (Nat.le_of_lt less), if_neg (Nat.ne_of_lt less)]
    exact ih (k + 1) (by omega)

/-- The walk copies the chunks that it takes of the entries that are left, and ends. -/
theorem ImageTables.reaches_finished (tables : ImageTables image length ziChunks chunks mem)
    (reads : R.ReadsImage image length) (rest : List ChunkDesc) (here : chunks.drop i = rest)
    (le : i ≤ chunks.length) (count : ℕ)
    (placeable : ∀ c ∈ R.taken mem count rest, Placeable image length c)
    (kept : Set.EqOn mem mem' (imageSpan image length)) :
    Reaches target image R mem' (.downloading (chunkEntry image mem i) 0 (BitVec.ofNat 64 count))
      ((R.taken mem count rest).foldl (placeChunk mem image) mem') .finished := by
  induction rest generalizing i mem' count with
  | nil =>
    obtain rfl : i = chunks.length := by
      have short := congrArg List.length here
      rw [List.length_drop, List.length_nil] at short
      omega
    have size := (congrArg ChunkDesc.size (tables.chunk kept le)).trans tables.sentinel
    exact .turn (fun written => ⟨written, loadTurn_end (.inl size)⟩) (.refl _ _)
  | cons c rest ih =>
    have less : i < chunks.length := by
      have short := congrArg List.length here
      rw [List.length_drop, List.length_cons] at short
      omega
    obtain ⟨rfl, here'⟩ := List.cons.inj ((List.drop_eq_getElem_cons less).symm.trans here)
    have entry := (tables.chunk kept le).trans (tables.entries i less)
    have ends := congrFun (reads mem mem' kept).2 (BitVec.ofNat 64 count)
    rw [LoadRules.taken] at placeable ⊢
    by_cases stops : R.ends mem (BitVec.ofNat 64 count) = true
    · rw [if_pos stops]
      exact .turn (fun written => ⟨written, loadTurn_end (.inr (ends.symm.trans stops))⟩) (.refl _ _)
    rw [if_neg stops] at placeable ⊢
    by_cases takes : R.takes chunks[i] = true
    · rw [if_pos takes] at placeable ⊢
      have first := placeable _ List.mem_cons_self
      have inside := tables.inside
      have small : chunks[i].size.toNat + bootSubChunkSize < 2 ^ 64 := by
        have fits := tables.fits
        have source := first.source
        have positive : image.toNat ≠ 0 := fun zero => tables.notNull (BitVec.eq_of_toNat_eq zero)
        omega
      have notNull : chunkEntry image mem i ≠ 0 := tables.entry_ne_zero (k := 0) (by omega)
      have within : span (chunkEntry image mem i) 40 ⊆ imageSpan image length :=
        span_entry_subset (by omega)
      have copied : Reaches target image R _ _ _ _ := first.reaches_copied small reads notNull within
        (tables.entries i less) stops takes kept _ 0 (Nat.zero_add _)
      have next : BitVec.ofNat 64 count + 1 = BitVec.ofNat 64 (count + 1) := (BitVec.ofNat_add ..).symm
      rw [Nat.zero_mul, put_zero, next, chunkEntry_succ] at copied
      refine copied.trans ?_
      exact ih here' less (count + 1) (fun d mem => placeable d (List.mem_cons_of_mem _ mem))
        (eqOn_put kept first.apart)
    · rw [if_neg takes] at placeable ⊢
      refine .turn (fun written => ⟨written, ?_⟩) (ih here' less count placeable kept)
      have goes : ¬((chunkDesc mem' (chunkEntry image mem i)).size = 0 ∨
          R.ends mem' (BitVec.ofNat 64 count) = true) := by
        rw [entry, ← ends]
        exact not_or.mpr ⟨tables.sizes _ (List.getElem_mem less), stops⟩
      rw [loadTurn_skip goes (by rw [entry]; exact Bool.eq_false_iff.mpr takes), chunkEntry_succ]

/-- The image is not written over. -/
theorem eqOn_loadedMem {ziChunks : List ZiChunkDesc} {chunks : List ChunkDesc}
    (apart : ∀ z ∈ ziChunks, Disjoint (span z.execAddr z.size.toNat) (imageSpan image length))
    (apart' : ∀ c ∈ chunks, Disjoint (span c.execAddr (copiedSize c.size)) (imageSpan image length)) :
    Set.EqOn mem (loadedMem image ziChunks chunks mem) (imageSpan image length) := by
  have cleared : Set.EqOn mem (ziChunks.foldl placeZiChunk mem) (imageSpan image length) :=
    List.foldlRecOn (motive := fun m => Set.EqOn mem m (imageSpan image length)) ziChunks placeZiChunk
      (Set.eqOn_refl mem _) fun _ kept z present => eqOn_placeZiChunk kept (apart z present)
  exact List.foldlRecOn (motive := fun m => Set.EqOn mem m (imageSpan image length)) chunks
    (placeChunk mem image) cleared fun _ kept c present => eqOn_put kept (apart' c present)

theorem taken_of_ends (ends : R.ends mem 0 = true) (chunks : List ChunkDesc) :
    R.taken mem 0 chunks = [] := by
  cases chunks with
  | nil => rfl
  | cons c chunks => exact if_pos ends

/-- A walk along rules that read the image only sets to zero and copies what is to be, and ends. -/
theorem ImageTables.reaches_loadedMem (tables : ImageTables image length ziChunks chunks mem)
    (reads : R.ReadsImage image length)
    (first : R.ends mem 0 = true ∨ (R.firstChunk mem).toNat ≤ chunks.length)
    (apart : ∀ z ∈ ziChunks, z.OwnedBy target →
      Disjoint (span z.execAddr z.size.toNat) (imageSpan image length))
    (placeable : ∀ c ∈ R.taken mem 0 (chunks.drop (R.firstChunk mem).toNat), Placeable image length c) :
    Reaches target image R mem (.zeroing (ziTableStart image mem))
      (loadedMem image (ziChunksOf target ziChunks)
        (R.taken mem 0 (chunks.drop (R.firstChunk mem).toNat)) mem) .finished := by
  have start : ziChunkEntry image mem 0 = ziTableStart image mem := BitVec.add_zero _
  obtain ⟨kept, cleared⟩ := tables.reaches_cleared reads apart ziChunks rfl (Nat.zero_le _)
    (Set.eqOn_refl mem _)
  rw [start] at cleared
  refine cleared.trans ?_
  rcases first with ends | first
  · rw [taken_of_ends ends]
    have ends' := (congrFun (reads _ _ kept).2 0).symm.trans ends
    exact .turn (fun written => ⟨written, loadTurn_end (.inr ends')⟩) (.refl _ _)
  · exact tables.reaches_finished reads _ rfl first 0 placeable kept

end

/-! ### Bytes of the loaded memory -/

section
variable {image a : Word} {mem mem' : Mem} {ziChunks : List ZiChunkDesc} {chunks : List ChunkDesc}

theorem foldl_placeChunk_of_notMem (mem' : Mem)
    (out : ∀ c ∈ chunks, a ∉ span c.execAddr (copiedSize c.size)) :
    chunks.foldl (placeChunk mem image) mem' a = mem' a := by
  induction chunks generalizing mem' with
  | nil => rfl
  | cons c chunks ih =>
    rw [List.foldl_cons, ih _ fun d present => out d (List.mem_cons_of_mem _ present)]
    exact put_of_notMem (out c List.mem_cons_self)

/-- A byte of a chunk is in place, unless a later chunk is put over it. -/
theorem loadedMem_chunk {before after : List ChunkDesc} {c : ChunkDesc} {i : ℕ}
    (inside : i < copiedSize c.size) (fits : copiedSize c.size ≤ 2 ^ 64)
    (last : ∀ d ∈ after, c.execAddr + BitVec.ofNat 64 i ∉ span d.execAddr (copiedSize d.size)) :
    loadedMem image ziChunks (before ++ c :: after) mem (c.execAddr + BitVec.ofNat 64 i) =
      mem (image + c.loadAddr + BitVec.ofNat 64 i) := by
  rw [loadedMem, List.foldl_append, List.foldl_cons, foldl_placeChunk_of_notMem _ last, placeChunk,
    put_apply inside fits]

theorem foldl_placeZiChunk_of_notMem (mem' : Mem)
    (out : ∀ z ∈ ziChunks, a ∉ span z.execAddr z.size.toNat) :
    ziChunks.foldl placeZiChunk mem' a = mem' a := by
  induction ziChunks generalizing mem' with
  | nil => rfl
  | cons z ziChunks ih =>
    rw [List.foldl_cons, ih _ fun d present => out d (List.mem_cons_of_mem _ present)]
    exact fill_of_notMem (out z List.mem_cons_self)

theorem foldl_placeZiChunk_of_mem (mem' : Mem)
    (cleared : mem' a = 0 ∨ ∃ z ∈ ziChunks, a ∈ span z.execAddr z.size.toNat) :
    ziChunks.foldl placeZiChunk mem' a = 0 := by
  induction ziChunks generalizing mem' with
  | nil =>
    rcases cleared with zero | ⟨z, none, -⟩
    · exact zero
    · cases none
  | cons y ziChunks ih =>
    refine ih _ ?_
    by_cases inside : a ∈ span y.execAddr y.size.toNat
    · exact .inl (fill_of_mem inside)
    · rcases cleared with zero | ⟨z, present, within⟩
      · exact .inl ((fill_of_notMem inside).trans zero)
      · rcases List.mem_cons.mp present with rfl | later
        · exact absurd within inside
        · exact .inr ⟨z, later, within⟩

end

/-! ### The boot machine -/

section
variable {cfg : Config} {target : U54} {s t : State} {image : Word} {length : ℕ} {mem mem' : Mem}
  {pmpEntry : ℕ → PmpEntry} {ziChunks : List ZiChunkDesc} {chunks : List ChunkDesc}

/-- A chunk is for the hart, and its memory protection permits it. -/
def loadsChunk (target : U54) (pmpEntry : ℕ → PmpEntry) (c : ChunkDesc) : Bool :=
  c.OwnedBy target ∧ hssPmpCheckWrite pmpEntry c.execAddr c.size

/-- The chunks that the machine of a hart takes. -/
def machineChunks (target : U54) (pmpEntry : ℕ → PmpEntry) (image : Word) (mem : Mem)
    (chunks : List ChunkDesc) : List ChunkDesc :=
  if BootImage.numChunks mem image target = 0 then []
  else ((chunks.drop (BootImage.firstChunk mem image target).toNat).filter
    (loadsChunk target pmpEntry)).take ((BootImage.lastChunk mem image target).toNat + 1)

theorem hartField_eq (image : Word) (u : U54) (k : ℕ) : BootImage.hart image u + BitVec.ofNat 64 k =
    image + BitVec.ofNat 64 (40 + 296 * (u.num - 1) + k) := by
  rw [BootImage.hart, BitVec.ofNat_add, BitVec.ofNat_add, BitVec.ofNat_mul, ← BitVec.add_assoc,
    ← BitVec.add_assoc]
  rfl

/-- A field of a hart is the same where the image is. -/
theorem hartField_congr (same : Set.EqOn mem mem' (imageSpan image length))
    (header : BootImage.sizeOf ≤ length) (u : U54) {k : ℕ} (inside : k ≤ 32) :
    load64 mem (BootImage.hart image u + BitVec.ofNat 64 k) =
      load64 mem' (BootImage.hart image u + BitVec.ofNat 64 k) := by
  have num := u.num_le
  rw [hartField_eq]
  refine headerField_congr same header ?_
  rw [BootImage.sizeOf]
  omega

theorem numChunks_congr (same : Set.EqOn mem mem' (imageSpan image length))
    (header : BootImage.sizeOf ≤ length) (u : U54) :
    BootImage.numChunks mem image u = BootImage.numChunks mem' image u :=
  hartField_congr same header u (k := 16) (by decide)

theorem readsImage_machineRules (target : U54) (pmpEntry : ℕ → PmpEntry) (image : Word)
    (header : BootImage.sizeOf ≤ length) :
    (machineRules target pmpEntry image).ReadsImage image length := by
  intro mem mem' same
  have lastChunk : BootImage.lastChunk mem image target = BootImage.lastChunk mem' image target :=
    hartField_congr same header target (k := 32) (by decide)
  refine ⟨hartField_congr same header target (k := 24) (by decide), ?_⟩
  funext count
  simp only [machineRules, numChunks_congr same header target, lastChunk]

/-- The machine takes chunks as long as it has taken no more than the number of the last one. -/
theorem taken_machineRules (count : ℕ) (some : BootImage.numChunks mem image target ≠ 0)
    (small : count + chunks.length < 2 ^ 64) :
    (machineRules target pmpEntry image).taken mem count chunks =
      (chunks.filter (loadsChunk target pmpEntry)).take
        ((BootImage.lastChunk mem image target).toNat + 1 - count) := by
  induction chunks generalizing count with
  | nil => simp [LoadRules.taken]
  | cons c chunks ih =>
    rw [List.length_cons] at small
    have ends : (machineRules target pmpEntry image).ends mem (BitVec.ofNat 64 count) = true ↔
        (BootImage.lastChunk mem image target).toNat < count := by
      refine decide_eq_true_iff.trans ((or_iff_right some).trans ?_)
      rw [BitVec.le_def, BitVec.toNat_ofNat, Nat.mod_eq_of_lt (by omega), Nat.not_le]
    rw [LoadRules.taken]
    by_cases past : (BootImage.lastChunk mem image target).toNat < count
    · rw [if_pos (ends.mpr past), Nat.sub_eq_zero_of_le past, List.take_zero]
    rw [if_neg (mt ends.mp past)]
    have rule : (machineRules target pmpEntry image).takes c = loadsChunk target pmpEntry c := rfl
    rw [rule]
    by_cases takes : loadsChunk target pmpEntry c = true
    · have more : (BootImage.lastChunk mem image target).toNat + 1 - count =
          (BootImage.lastChunk mem image target).toNat + 1 - (count + 1) + 1 := by omega
      rw [if_pos takes, ih _ (by omega), List.filter_cons_of_pos takes, more, List.take_succ_cons]
    · rw [if_neg takes, ih _ (by omega), List.filter_cons_of_neg takes]

theorem taken_eq_machineChunks (small : chunks.length < 2 ^ 64) :
    (machineRules target pmpEntry image).taken mem 0
        (chunks.drop (BootImage.firstChunk mem image target).toNat) =
      machineChunks target pmpEntry image mem chunks := by
  by_cases none : BootImage.numChunks mem image target = 0
  · rw [machineChunks, if_pos none]
    cases chunks.drop (BootImage.firstChunk mem image target).toNat with
    | nil => rfl
    | cons c rest => exact if_pos (decide_eq_true (.inl none))
  · rw [machineChunks, if_neg none, taken_machineRules 0 none, Nat.sub_zero]
    rw [List.length_drop]
    omega

/-- The machine is loading, or where it goes when it has loaded. -/
def LoadsOrDone (target : U54) (s : State) : Prop :=
  (s.machine target).state.loading = true ∨
    (s.machine target).state = if s.numChunks target = 0 then .complete else .opensbiInit

theorem LoadsOrDone.of_goto {state : BootState} {b : State}
    (goes : state = if b.numChunks target = 0 then .complete else .opensbiInit) :
    LoadsOrDone target (b.goto target state) := by
  right
  rw [goto_state, goes]
  rfl

/-- A handler of a state in which the machine loads stays in such states, or is done. -/
theorem loadsOrDone_handler {inputs : Inputs} {a b : State}
    (loading : (a.machine target).state.loading = true)
    (handled : (bootStateDescs cfg inputs target (a.machine target).state).handler a = .ok b) :
    LoadsOrDone target b := by
  cases state : (a.machine target).state with
  | zeroInitChunks =>
    rw [state] at handled
    rcases bootZeroInitChunksHandler_cases handled with ⟨-, rfl⟩ | ⟨-, -, rfl⟩ | ⟨-, -, rfl⟩ |
      ⟨-, -, rfl⟩
    · left
      rw [goto_state]
      rfl
    all_goals exact .inl loading
  | downloadChunks =>
    rw [state] at handled
    rcases bootDownloadChunksHandler_cases handled with ⟨none, rfl⟩ | ⟨some, -, rfl⟩ | ⟨some, -, rfl⟩ |
      ⟨-, -, -, rfl⟩ | ⟨-, -, -, -, rfl⟩
    · exact .of_goto (if_pos none).symm
    · exact .of_goto (if_neg some).symm
    · exact .of_goto (if_neg some).symm
    · exact .inl loading
    · refine .inl ?_
      obtain ⟨-, machine, -⟩ := noteAncilliaryData_loading target (chunkDesc (copy a.mem
        ((chunkDesc a.mem (a.localData target).pChunk).execAddr + (a.localData target).subChunkOffset)
        (a.pBootImage + (chunkDesc a.mem (a.localData target).pChunk).loadAddr +
          (a.localData target).subChunkOffset) bootSubChunkSize) (a.localData target).pChunk)
        ({ a.access (.readChunk target (a.localData target).pChunk) with
          mem := copy a.mem ((chunkDesc a.mem (a.localData target).pChunk).execAddr +
              (a.localData target).subChunkOffset)
            (a.pBootImage + (chunkDesc a.mem (a.localData target).pChunk).loadAddr +
              (a.localData target).subChunkOffset) bootSubChunkSize }.access
          (.download target a.pBootImage (chunkDesc a.mem (a.localData target).pChunk)
            (a.localData target).subChunkOffset bootSubChunkSize))
      exact (congrArg (fun m => (m target).state.loading) machine).trans loading
  | _ =>
    rw [state] at loading
    cases loading

theorem LoadsOrDone.call {inputs : Inputs} (loads : LoadsImage target image pmpEntry s)
    (notNull : image ≠ 0) (before : LoadsOrDone target s)
    (called : loadCall cfg target inputs s = .ok t) : LoadsOrDone target t := by
  rw [loadCall] at called
  split at called
  next loading =>
    obtain ⟨a, b, entered, handled, rfl⟩ := runBootService_cases called
    obtain ⟨a', entered', came, -⟩ := loads.enter cfg inputs notNull loading
    obtain rfl : a = a' := Except.ok.inj (entered.symm.trans entered')
    have after := loadsOrDone_handler (came.state ▸ loading) (came.state ▸ handled)
    rw [LoadsOrDone, State.setMachine_machine, Function.update_self]
    exact after
  next =>
    cases called
    exact before

theorem LoadsOrDone.calls {n : ℕ} {inputs : ℕ → Inputs} (loads : LoadsImage target image pmpEntry s)
    (notNull : image ≠ 0) (before : LoadsOrDone target s)
    (called : loadCalls cfg target n inputs s = .ok t) : LoadsOrDone target t := by
  induction n generalizing s inputs with
  | zero =>
    cases called
    exact before
  | succ n ih =>
    obtain ⟨u, first, rest⟩ := bind_eq_ok.mp called
    exact ih (loadCall_loads loads notNull first) (before.call loads notNull first) rest

theorem loadCalls_loads {n : ℕ} {inputs : ℕ → Inputs} (loads : LoadsImage target image pmpEntry s)
    (notNull : image ≠ 0) (called : loadCalls cfg target n inputs s = .ok t) :
    LoadsImage target image pmpEntry t := by
  induction n generalizing s inputs with
  | zero =>
    cases called
    exact loads
  | succ n ih =>
    obtain ⟨u, first, rest⟩ := bind_eq_ok.mp called
    exact ih (loadCall_loads loads notNull first) rest

theorem not_loading_of_finished (finished : (s.loader target).pos = .finished) :
    (s.machine target).state.loading = false := by
  rw [State.loader] at finished
  cases state : (s.machine target).state with
  | zeroInitChunks | downloadChunks =>
    rw [state] at finished
    dsimp only at finished
    split at finished <;> cases finished
  | _ => rfl

/-- The machine of the hart is about to load the image that is registered.  DDR memory is trained
before. -/
structure StartsLoading (target : U54) (s : State) : Prop where
  notNull : s.pBootImage ≠ 0
  state : (s.machine target).state = .zeroInitChunks
  prevState : (s.machine target).prevState = some .setupPmpComplete
  ddrTrained : s.triggers .ddrTrained = true

theorem StartsLoading.loads (starts : StartsLoading target s) :
    LoadsImage target s.pBootImage (s.pmpEntry target) s := by
  refine ⟨rfl, rfl, starts.ddrTrained, fun _ => .inr starts.prevState, fun download => ?_⟩
  cases download.symm.trans starts.state

theorem StartsLoading.loader (starts : StartsLoading target s) :
    s.loader target = ⟨s.mem, s.written, .zeroing (ziTableStart s.pBootImage s.mem)⟩ := by
  refine loader_toZeroing starts.state ?_
  rw [starts.prevState]
  decide

/-- The machine of a hart loads an image that it does not write over: some number of calls clears the
zero-init chunks of the hart and copies its chunks that memory protection permits, in the order of the
tables, and does nothing else to memory; then the machine goes on. -/
theorem loadCalls_loadedMem (starts : StartsLoading target s)
    (tables : ImageTables s.pBootImage length ziChunks chunks s.mem)
    (first : s.numChunks target ≠ 0 → (s.firstChunk target).toNat ≤ chunks.length)
    (apartZi : ∀ z ∈ ziChunks, z.OwnedBy target →
      Disjoint (span z.execAddr z.size.toNat) (imageSpan s.pBootImage length))
    (apart : ∀ c ∈ machineChunks target (s.pmpEntry target) s.pBootImage s.mem chunks,
      Disjoint (span c.execAddr (copiedSize c.size)) (imageSpan s.pBootImage length))
    (cfg : Config) (inputs : ℕ → Inputs) :
    ∃ n, ∀ k, ∃ t, loadCalls cfg target (n + k) inputs s = .ok t ∧
      (t.machine target).state =
        (if s.numChunks target = 0 then .complete else .opensbiInit) ∧
      t.mem = loadedMem s.pBootImage (ziChunksOf target ziChunks)
        (machineChunks target (s.pmpEntry target) s.pBootImage s.mem chunks) s.mem := by
  have loads := starts.loads
  have small : chunks.length < 2 ^ 64 := by
    have fits := tables.fits
    have inside := tables.inside
    omega
  have taken : (machineRules target (s.pmpEntry target) s.pBootImage).taken s.mem 0
      (chunks.drop (s.firstChunk target).toNat) = _ := taken_eq_machineChunks small
  have places : ∀ c ∈ machineChunks target (s.pmpEntry target) s.pBootImage s.mem chunks,
      Placeable s.pBootImage length c := by
    intro c present
    have entry : c ∈ chunks := by
      rw [machineChunks] at present
      split at present
      · cases present
      · exact List.mem_of_mem_drop (List.mem_of_mem_filter (List.mem_of_mem_take present))
    exact ⟨tables.sizes c entry, tables.sources c entry, apart c present⟩
  have first' : (machineRules target (s.pmpEntry target) s.pBootImage).ends s.mem 0 = true ∨
      (s.firstChunk target).toNat ≤ chunks.length := by
    by_cases none : s.numChunks target = 0
    · exact .inl (decide_eq_true (.inl none))
    · exact .inr (first none)
  obtain ⟨n, written, turns⟩ := tables.reaches_loadedMem
    (readsImage_machineRules target (s.pmpEntry target) s.pBootImage tables.header) first' apartZi
    (fun c present => places c (taken ▸ present)) s.written
  rw [← starts.loader] at turns
  refine ⟨n, fun k => ?_⟩
  have reached : (loadCalls cfg target (n + k) inputs s).map _ = _ :=
    loadCalls_loader loads starts.notNull (n + k) inputs
  rw [loadTurns_add turns k, loadTurns_finished] at reached
  cases called : loadCalls cfg target (n + k) inputs s with
  | error e =>
    rw [called] at reached
    cases reached
  | ok t =>
    rw [called] at reached
    have same : t.loader target = _ := Except.ok.inj reached
    have mem : t.mem = _ :=
      (congrArg Loader.mem same).trans (congrArg (loadedMem _ _ · s.mem) taken)
    refine ⟨t, rfl, ?_, mem⟩
    have done := LoadsOrDone.calls loads starts.notNull (.inl (by rw [starts.state]; rfl)) called
    have quiet := not_loading_of_finished (congrArg Loader.pos same)
    have numChunks : t.numChunks target = s.numChunks target := by
      rw [State.numChunks, State.numChunks, (loadCalls_loads loads starts.notNull called).pBootImage, mem]
      refine (numChunks_congr (eqOn_loadedMem (fun z present => ?_) apart) tables.header target).symm
      obtain ⟨present, owned⟩ := List.mem_filter.mp present
      exact apartZi z present (of_decide_eq_true owned)
    rw [← numChunks]
    exact done.resolve_left (Bool.eq_false_iff.mp quiet)

/-- The tables of the image of three harts -/
theorem threeHarts_tables : ImageTables 0x1000 0x2018 []
    [⟨1, 0x700, 0x80000000, 1⟩, ⟨2, 0x700, 0x90000000, 1⟩] threeHarts := by
  refine ⟨by decide, by decide, by decide, by decide +kernel, ?_, ?_, by decide +kernel,
    by decide +kernel, ?_, by decide, by decide +kernel, by decide⟩
  · intro i less
    cases less
  · intro z none
    cases none
  · decide +kernel

theorem loadCalls_loadedMem_threeHarts : ∃ n, ∀ k, ∃ t,
    loadCalls .icicleKitEs .u54_2 (n + k) (fun _ => tick) (aboutToLoad threeHarts) = .ok t ∧
      (t.machine .u54_2).state = .opensbiInit ∧
      t.mem = loadedMem 0x1000 [] [⟨2, 0x700, 0x90000000, 1⟩] threeHarts := by
  have taken : machineChunks .u54_2 ((aboutToLoad threeHarts).pmpEntry .u54_2) 0x1000 threeHarts
      [⟨1, 0x700, 0x80000000, 1⟩, ⟨2, 0x700, 0x90000000, 1⟩] = [⟨2, 0x700, 0x90000000, 1⟩] := by
    decide +kernel
  have starts : StartsLoading .u54_2 (aboutToLoad threeHarts) := ⟨by decide, rfl, rfl, rfl⟩
  obtain ⟨n, loads⟩ := loadCalls_loadedMem starts threeHarts_tables (by decide +kernel) (by rintro z ⟨⟩) (by
      intro c present
      cases List.mem_singleton.mp (taken ▸ present)
      exact span_disjoint_iff.mpr (.inr (.inr (by decide)))) .icicleKitEs fun _ => tick
  refine ⟨n, fun k => ?_⟩
  obtain ⟨t, called, state, mem⟩ := loads k
  refine ⟨t, called, state.trans (if_neg (by decide +kernel)), mem.trans ?_⟩
  exact congrArg (loadedMem _ _ · _) taken

end

end Hss
