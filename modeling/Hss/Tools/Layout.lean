import Hss.Tools.Bin2chunks
import Hss.Tools.Payload

/-! The whole image that `bin2chunks` writes: the table of the chunks, the other table and the padded
binaries, and what is found in it of each input. -/

namespace Hss

open ByteMemory Outcome

/-! ### The command line and its files -/

/-- An image of the command line, with the bytes of its file and where they are executed. -/
structure InputImage extends ImageArgs where
  contents : Bytes
  length_contents : contents.length = binSize
  execAddr : Word

structure Arguments where
  entryPoint : U54 → Word
  chunkSize : Word
  images : List InputImage
  images_ne : images ≠ []

/-! ### What is written -/

/-- The entries that `fileOut_WriteBootChunkTable_` has for an image; `total` is `totalIdx`, and the
binaries are at `start`. -/
def imageChunks (start chunkSize total : ℕ) (image : InputImage) : List ChunkDesc :=
  (chunkStarts image.binSize chunkSize).map fun idx =>
    { owner := BitVec.ofInt 32 image.owner
      loadAddr := BitVec.ofNat 64 (start + idx + total)
      execAddr := image.execAddr + BitVec.ofNat 64 idx
      size := BitVec.ofNat 64 (min (image.binSize - idx) chunkSize) }

/-- The entries of the table, without its sentinel. -/
def bootChunks (start chunkSize : ℕ) : ℕ → List InputImage → List ChunkDesc
  | _, [] => []
  | total, image :: images =>
    if image.owner = 0 ∨ image.binSize = 0 then bootChunks start chunkSize total images
    else imageChunks start chunkSize total image ++
      bootChunks start chunkSize (total + (chunkStarts image.binSize chunkSize).length * chunkSize) images

/-- `struct HSS_BootChunkDesc` in the file, its checksum zero. -/
def ChunkDesc.bytes (d : ChunkDesc) : Bytes :=
  bytesLE 4 d.owner.toNat ++ List.replicate 4 0 ++ bytesLE 8 d.loadAddr.toNat ++
    bytesLE 8 d.execAddr.toNat ++ bytesLE 8 d.size.toNat ++ bytesLE 4 0 ++ List.replicate 4 0

/-- `fileOut_WritePad_` -/
def writePad (pad : Word) : Bytes := List.replicate pad.toNat 0

/-- `fileOut_WriteBootZIChunkTable_` -/
def bootZiChunkTable : Bytes :=
  List.replicate ziChunkDescSize 0 ++ writePad (CommandLine.ziChunkTablePaddedSize - sizeOfZiChunkDesc)

/-- One turn of `fileOut_WriteBinaryFileArray_` -/
def binaryBytes (chunkSize : Word) (image : InputImage) : Bytes :=
  image.contents ++ writePad
    (CommandLine.mPad (BitVec.ofNat 64 image.binSize) chunkSize - BitVec.ofNat 64 image.binSize)

namespace Arguments

variable (args : Arguments)

/-- What the header is made of. -/
def commandLine : CommandLine where
  entryPoint := args.entryPoint
  chunkSize := args.chunkSize
  images := args.images.map InputImage.toImageArgs
  images_ne := fun none => args.images_ne (List.map_eq_nil_iff.mp none)

/-- The images that are processed. -/
def processed : List InputImage := args.images.take nrCpus

/-- Where the binaries are. -/
def binaryStart : Word :=
  CommandLine.bootImagePaddedSize + args.commandLine.chunkTablePaddedSize +
    CommandLine.ziChunkTablePaddedSize

/-- The entries of the table. -/
def chunks : List ChunkDesc :=
  bootChunks args.binaryStart.toNat args.chunkSize.toNat 0 args.processed

/-- What `fileOut_WriteBootChunkTable_` and `fileOut_WriteBinaryFileArray_` write. -/
def bootChunkTable : Bytes :=
  args.chunks.flatMap ChunkDesc.bytes ++ List.replicate chunkDescSize 0 ++
    writePad (args.commandLine.chunkTablePaddedSize -
      sizeOfChunkDesc * BitVec.ofNat 64 args.commandLine.chunkCount)

def binaries : Bytes := args.processed.flatMap (binaryBytes args.chunkSize)

/-- `main`: the file.  What is in a file that gets longer than `off_t` holds is open, since no write is
checked. -/
def image : Except ToolError Bytes := do
  let bootImage ← bin2chunks args.commandLine
  let file := bootImage.bytes ++
    writePad (CommandLine.bootImagePaddedSize - BitVec.ofNat 64 BootImage.sizeOf) ++
      (args.bootChunkTable ++ bootZiChunkTable ++ args.binaries)
  if file.length < offLimit then return file
  else throw .undefined

/-! ### What is to be found -/

/-- The input of a hart: the files that it owns, one after another. -/
def inputOf (u : U54) : Bytes :=
  (args.images.filter fun image => ownerHart image.owner = some u).flatMap InputImage.contents

/-- The image at `p` has the inputs of the harts, by the entries of its table. -/
structure LaidOut (mem : Mem) (p : Word) (chunks : List ChunkDesc) : Prop where
  slices : ∀ d ∈ chunks, ∃ image ∈ args.images, ∃ idx,
    d.owner = BitVec.ofInt 32 image.owner ∧ d.execAddr = image.execAddr + BitVec.ofNat 64 idx ∧
      idx + d.size.toNat ≤ image.binSize ∧
      bytesAt mem (p + d.loadAddr) d.size.toNat = (image.contents.drop idx).take d.size.toNat
  whole : ∀ u, ((chunks.filter fun d => d.OwnedBy u).flatMap fun d =>
    bytesAt mem (p + d.loadAddr) d.size.toNat) = args.inputOf u
  firstChunk : ∀ u i, ∀ less : i < chunks.length, chunks[i].OwnedBy u →
    (BootImage.firstChunk mem p u).toNat ≤ i
  harts : ∀ image ∈ args.images, ∀ u, ownerHart image.owner = some u →
    BootImage.privMode mem p u = image.privMode ∧ BootImage.entryPoint mem p u = args.entryPoint u

/-- Wherever the file is put in memory, the table leads to the inputs of the harts. -/
def Recovers (file : Bytes) : Prop :=
  ∀ mem p, HoldsAt mem p 0 file → ∃ chunks,
    walkTable (chunkDesc mem) (fun d => d.size = 0) sizeOfChunkDesc file.length
      (p + BootImage.chunkTableOffset mem p) = some chunks ∧ args.LaidOut mem p chunks

/-- The condition: at most one of the images that are processed has bytes, the others of a hart are
empty, and each image has the mode of the image whose place in the command line is its owner's. -/
structure Plain : Prop where
  one : (args.processed.filter fun image => image.binSize ≠ 0).length ≤ 1
  rest : ∀ image ∈ args.images.drop nrCpus, ownerHart image.owner ≠ none → image.binSize = 0
  modes : ∀ image ∈ args.images, ∀ u, ownerHart image.owner = some u →
    image.privMode = args.images[u.num - 1]?.elim 1 fun other => other.privMode

end Arguments

/-! ### Sizes -/

variable {args : Arguments} {image : InputImage} {images : List InputImage} {mem : Mem} {p : Word}
  {start size total off : ℕ} {file : Bytes}

@[simp] theorem ChunkDesc.length_bytes (d : ChunkDesc) : d.bytes.length = chunkDescSize := by
  simp [ChunkDesc.bytes, chunkDescSize]

theorem length_flatMap_bytes (chunks : List ChunkDesc) :
    (chunks.flatMap ChunkDesc.bytes).length = chunkDescSize * chunks.length := by
  simp [List.length_flatMap, Nat.mul_comm]

@[simp] theorem length_writePad (pad : Word) : (writePad pad).length = pad.toNat :=
  List.length_replicate

theorem length_chunkStarts (binSize : ℕ) :
    (chunkStarts binSize size).length = (binSize + size - 1) / size := by
  rw [chunkStarts, List.length_map, List.length_range]

/-- The chunks reach over the whole file, and the last one starts in it. -/
theorem binSize_le_chunks (positive : 0 < size) (binSize : ℕ) :
    binSize ≤ (binSize + size - 1) / size * size := by
  have mod := Nat.mod_lt (binSize + size - 1) positive
  have division := Nat.div_add_mod (binSize + size - 1) size
  rw [Nat.mul_comm] at division
  omega

theorem lt_of_mem_chunkStarts {binSize idx : ℕ} (mem : idx ∈ chunkStarts binSize size) :
    idx < binSize := by
  obtain ⟨k, inside, rfl⟩ := List.mem_map.mp mem
  have some := List.mem_range.mp inside
  have positive : 0 < size := by
    by_contra zero
    rw [Nat.eq_zero_of_not_pos zero, Nat.div_zero] at some
    exact absurd some (Nat.not_lt_zero k)
  have le := (Nat.le_div_iff_mul_le positive).mp (Nat.succ_le_of_lt some)
  rw [Nat.succ_mul] at le
  omega

/-- A multiple of 8 needs no padding to 8. -/
theorem mPad_eight {x : Word} (whole : 8 ∣ x.toNat) : CommandLine.mPad x 8 = x := by
  obtain ⟨k, multiple⟩ := whole
  have inside := x.isLt
  apply BitVec.eq_of_toNat_eq
  have seven : ((8 : Word) - 1).toNat = 7 := rfl
  have eight : (8 : Word).toNat = 8 := rfl
  rw [CommandLine.mPad, BitVec.toNat_mul, BitVec.toNat_udiv, BitVec.toNat_add, seven, eight]
  omega

theorem bootImagePaddedSize_eq : CommandLine.bootImagePaddedSize = BitVec.ofNat 64 BootImage.sizeOf := by
  decide

theorem bootZiChunkTable_eq : bootZiChunkTable = List.replicate ziChunkDescSize 0 := by decide

namespace CommandLine

theorem chunkTablePaddedSize_eq (cmd : CommandLine) :
    cmd.chunkTablePaddedSize = sizeOfChunkDesc * BitVec.ofNat 64 cmd.chunkCount := by
  apply mPad_eight
  have forty : sizeOfChunkDesc.toNat = 40 := rfl
  rw [BitVec.toNat_mul, forty, BitVec.toNat_ofNat]
  omega

end CommandLine

namespace Arguments

theorem bootChunkTable_eq (args : Arguments) :
    args.bootChunkTable = args.chunks.flatMap ChunkDesc.bytes ++ List.replicate chunkDescSize 0 := by
  rw [bootChunkTable, CommandLine.chunkTablePaddedSize_eq, BitVec.sub_self, writePad]
  exact List.append_nil _

end Arguments

/-- The padded size of a file, which wraps to zero when the chunk size is too large. -/
theorem toNat_mPad {chunkSize : Word} (positive : 0 < chunkSize.toNat) {binSize : ℕ}
    (small : binSize < 2 ^ 63) :
    (CommandLine.mPad (BitVec.ofNat 64 binSize) chunkSize).toNat =
      if binSize + chunkSize.toNat - 1 < 2 ^ 64 then
        (binSize + chunkSize.toNat - 1) / chunkSize.toNat * chunkSize.toNat
      else 0 := by
  have inside := chunkSize.isLt
  have pred : (chunkSize - 1).toNat = chunkSize.toNat - 1 := by
    have one : (1 : Word).toNat = 1 := rfl
    rw [BitVec.toNat_sub, one]
    omega
  have sum : (BitVec.ofNat 64 binSize + (chunkSize - 1)).toNat =
      (binSize + chunkSize.toNat - 1) % 2 ^ 64 := by
    rw [BitVec.toNat_add, pred, BitVec.toNat_ofNat]
    omega
  rw [CommandLine.mPad, BitVec.toNat_mul, BitVec.toNat_udiv, sum]
  by_cases fits : binSize + chunkSize.toNat - 1 < 2 ^ 64
  · rw [if_pos fits, Nat.mod_eq_of_lt fits]
    exact Nat.mod_eq_of_lt (Nat.lt_of_le_of_lt (Nat.div_mul_le_self _ _) fits)
  · have wraps : (binSize + chunkSize.toNat - 1) % 2 ^ 64 < chunkSize.toNat := by omega
    rw [if_neg fits, Nat.div_eq_of_lt wraps, Nat.zero_mul]

/-- A file that is written whole is padded to a multiple of the chunk size. -/
theorem length_binaryBytes {chunkSize : Word} (positive : 0 < chunkSize.toNat)
    (fits : (binaryBytes chunkSize image).length < offLimit) :
    (binaryBytes chunkSize image).length =
      (chunkStarts image.binSize chunkSize.toNat).length * chunkSize.toNat := by
  have small := image.binSize_lt
  have le := binSize_le_chunks positive image.binSize
  have padded := toNat_mPad positive small
  rw [offLimit] at fits
  rw [binaryBytes, List.length_append, image.length_contents, length_writePad, BitVec.toNat_sub, padded,
    BitVec.toNat_ofNat] at fits ⊢
  rw [length_chunkStarts]
  split at fits
  · next whole =>
    have less := Nat.lt_of_le_of_lt (Nat.div_mul_le_self (image.binSize + chunkSize.toNat - 1)
      chunkSize.toNat) whole
    rw [if_pos whole]
    omega
  · next wraps =>
    -- the padding wraps, too, and no file is as long
    have inside := chunkSize.isLt
    omega

/-! ### Slices -/

/-- The slices of a list, one after another. -/
theorem flatMap_slices {α : Type} (l : List α) (size n : ℕ) :
    ((List.range n).flatMap fun k => (l.drop (k * size)).take size) = l.take (n * size) := by
  induction n with
  | zero => simp
  | succ n ih =>
    rw [List.range_succ, List.flatMap_append, ih, Nat.succ_mul, List.take_add]
    simp

theorem bytesAt_of_holds {l : Bytes} (holds : HoldsAt mem p off l) :
    bytesAt mem (p + BitVec.ofNat 64 off) l.length = l := by
  apply List.ext_getElem
  · rw [bytesAt, List.length_map, List.length_range]
  · intro i less less'
    rw [← holds i less', ← offset_offset]
    simp [bytesAt]

theorem slice_of_holds {l : Bytes} (holds : HoldsAt mem p off l) {idx n : ℕ}
    (inside : idx + n ≤ l.length) :
    bytesAt mem (p + BitVec.ofNat 64 (off + idx)) n = (l.drop idx).take n := by
  have length : ((l.drop idx).take n).length = n := by
    rw [List.length_take, List.length_drop]
    omega
  have part : HoldsAt mem p (off + idx) ((l.drop idx).take n) := by
    intro i less
    rw [List.getElem_take, List.getElem_drop, ← holds (idx + i) (by omega), Nat.add_assoc]
  rw [← bytesAt_of_holds part, length]

/-- The size of the chunk at `idx`. -/
theorem toNat_size (image : InputImage) (size idx : ℕ) :
    (BitVec.ofNat 64 (min (image.binSize - idx) size)).toNat = min (image.binSize - idx) size := by
  have small := image.binSize_lt
  rw [BitVec.toNat_ofNat, Nat.mod_eq_of_lt (by omega)]

/-- A chunk has the slice of its image that starts at `idx`. -/
structure SliceOf (mem : Mem) (p : Word) (image : InputImage) (idx : ℕ) (d : ChunkDesc) : Prop where
  owner : d.owner = BitVec.ofInt 32 image.owner
  execAddr : d.execAddr = image.execAddr + BitVec.ofNat 64 idx
  inside : idx + d.size.toNat ≤ image.binSize
  bytes : bytesAt mem (p + d.loadAddr) d.size.toNat = (image.contents.drop idx).take d.size.toNat

theorem sliceOf_of_holds (holds : HoldsAt mem p (start + total) image.contents) {d : ChunkDesc}
    (present : d ∈ imageChunks start size total image) : ∃ idx, SliceOf mem p image idx d := by
  obtain ⟨idx, starts, rfl⟩ := List.mem_map.mp present
  have less := lt_of_mem_chunkStarts starts
  have inside : idx + min (image.binSize - idx) size ≤ image.binSize := by omega
  refine ⟨idx, rfl, rfl, ?_, ?_⟩
  · rwa [toNat_size]
  · show bytesAt mem (p + BitVec.ofNat 64 (start + idx + total)) _ = _
    rw [toNat_size, Nat.add_right_comm, slice_of_holds holds (by rwa [image.length_contents])]

/-- The chunks of an image have the whole of it. -/
theorem flatMap_imageChunks (positive : 0 < size)
    (holds : HoldsAt mem p (start + total) image.contents) :
    ((imageChunks start size total image).flatMap fun d => bytesAt mem (p + d.loadAddr) d.size.toNat) =
      image.contents := by
  have slices : ∀ k ∈ List.range ((image.binSize + size - 1) / size),
      bytesAt mem (p + BitVec.ofNat 64 (start + k * size + total))
          (BitVec.ofNat 64 (min (image.binSize - k * size) size)).toNat =
        (image.contents.drop (k * size)).take size := by
    intro k inside
    have less : k * size < image.binSize := lt_of_mem_chunkStarts (List.mem_map_of_mem inside)
    rw [toNat_size, Nat.add_right_comm, slice_of_holds holds (by rw [image.length_contents]; omega),
      List.take_eq_take_iff, List.length_drop, image.length_contents]
    omega
  rw [imageChunks, chunkStarts, List.map_map, List.flatMap_map, List.flatMap_def]
  show ((List.range _).map fun k => bytesAt mem (p + BitVec.ofNat 64 (start + k * size + total))
    (BitVec.ofNat 64 (min (image.binSize - k * size) size)).toNat).flatten = _
  rw [List.map_congr_left slices, ← List.flatMap_def, flatMap_slices, List.take_of_length_le]
  rw [image.length_contents]
  exact binSize_le_chunks positive _

/-! ### The table -/

/-- An image without bytes has no chunks. -/
theorem imageChunks_of_empty (positive : 0 < size) (empty : image.binSize = 0) :
    imageChunks start size total image = [] := by
  have pred : 0 + size - 1 < size := by omega
  rw [imageChunks, chunkStarts, empty, Nat.div_eq_of_lt pred]
  rfl

/-- The entries for the images of the first hart. -/
theorem bootChunks_cons (positive : 0 < size) (owned : image.owner = 1) :
    bootChunks start size total (image :: images) = imageChunks start size total image ++
      bootChunks start size (total + (chunkStarts image.binSize size).length * size) images := by
  rw [bootChunks]
  by_cases empty : image.binSize = 0
  · have none : (chunkStarts image.binSize size).length = 0 := by
      rw [length_chunkStarts, empty]
      exact Nat.div_eq_of_lt (by omega)
    rw [if_pos (.inr empty), imageChunks_of_empty positive empty, none, Nat.zero_mul]
    rfl
  · have skips : ¬(image.owner = 0 ∨ image.binSize = 0) := by
      rw [owned]
      rintro (zero | zero)
      · exact absurd zero (by decide)
      · exact empty zero
    rw [if_neg skips]

theorem length_bootChunks (start total : ℕ) (positive : 0 < size)
    (owned : ∀ image ∈ images, image.owner = 1) :
    (bootChunks start size total images).length =
      (images.map fun image => (chunkStarts image.binSize size).length).sum := by
  induction images generalizing total with
  | nil => rfl
  | cons image images ih =>
    rw [bootChunks_cons positive (owned _ (List.mem_cons_self ..)), List.length_append,
      ih _ fun i present => owned i (List.mem_cons_of_mem _ present), imageChunks, List.length_map,
      List.map_cons, List.sum_cons]

theorem size_ne_of_mem_bootChunks (positive : 0 < size) {d : ChunkDesc}
    (present : d ∈ bootChunks start size total images) : d.size ≠ 0 := by
  induction images generalizing total with
  | nil => cases present
  | cons image images ih =>
    rw [bootChunks] at present
    split at present
    · exact ih present
    · rcases List.mem_append.mp present with first | later
      · obtain ⟨idx, starts, rfl⟩ := List.mem_map.mp first
        have less := lt_of_mem_chunkStarts starts
        intro zero
        have value := toNat_size image size idx
        rw [show BitVec.ofNat 64 (min (image.binSize - idx) size) = 0 from zero] at value
        have none : (0 : Word).toNat = 0 := rfl
        omega
      · exact ih later

/-- Where the padded files are in memory, each chunk has a slice of one of them, and the chunks together
have all of them. -/
theorem bootChunks_holds {chunkSize : Word} (positive : 0 < chunkSize.toNat)
    (owned : ∀ image ∈ images, image.owner = 1)
    (holds : HoldsAt mem p (start + total) (images.flatMap (binaryBytes chunkSize)))
    (fits : (images.flatMap (binaryBytes chunkSize)).length < offLimit) :
    (∀ d ∈ bootChunks start chunkSize.toNat total images, ∃ image ∈ images, ∃ idx,
        SliceOf mem p image idx d) ∧
      ((bootChunks start chunkSize.toNat total images).flatMap fun d =>
        bytesAt mem (p + d.loadAddr) d.size.toNat) = images.flatMap InputImage.contents := by
  induction images generalizing total with
  | nil => exact ⟨fun d present => absurd present List.not_mem_nil, rfl⟩
  | cons image images ih =>
    rw [List.flatMap_cons, List.length_append] at fits
    rw [List.flatMap_cons, holdsAt_append] at holds
    obtain ⟨first, rest⟩ := holds
    rw [length_binaryBytes positive (Nat.lt_of_le_of_lt (Nat.le_add_right _ _) fits),
      Nat.add_assoc] at rest
    rw [binaryBytes, holdsAt_append] at first
    obtain ⟨slices, whole⟩ := ih (fun i present => owned i (List.mem_cons_of_mem _ present)) rest
      (Nat.lt_of_le_of_lt (Nat.le_add_left _ _) fits)
    rw [bootChunks_cons positive (owned _ (List.mem_cons_self ..))]
    constructor
    · intro d present
      rcases List.mem_append.mp present with here | later
      · exact ⟨image, List.mem_cons_self .., sliceOf_of_holds first.1 here⟩
      · obtain ⟨other, present, slice⟩ := slices d later
        exact ⟨other, List.mem_cons_of_mem _ present, slice⟩
    · rw [List.flatMap_append, flatMap_imageChunks positive first.1, whole, List.flatMap_cons]

/-! ### The walk -/

theorem chunkDesc_of_bytes {d : ChunkDesc} (holds : HoldsAt mem p off d.bytes) :
    chunkDesc mem (p + BitVec.ofNat 64 off) = d := by
  simp only [ChunkDesc.bytes, holdsAt_append, List.length_append, length_bytesLE,
    List.length_replicate, and_assoc] at holds
  obtain ⟨owner, -, load, exec, length, -⟩ := holds
  rw [chunkDesc, load32_of_holds owner]
  congr 1
  · exact load64_at load
  · exact load64_at exec
  · exact load64_at length

/-- The walk finds the entries before the sentinel. -/
theorem walkTable_descs {chunks : List ChunkDesc} {fuel : ℕ} (some : ∀ d ∈ chunks, d.size ≠ 0)
    (holds : HoldsAt mem p off (chunks.flatMap ChunkDesc.bytes ++ List.replicate chunkDescSize 0))
    (enough : chunks.length < fuel) :
    walkTable (chunkDesc mem) (fun d => d.size = 0) sizeOfChunkDesc fuel (p + BitVec.ofNat 64 off) =
      .some chunks := by
  rw [holdsAt_append, length_flatMap_bytes] at holds
  obtain ⟨entries, sentinel⟩ := holds
  rw [List.flatMap_def] at entries
  refine walkTable_whole (k := chunkDescSize) (fun d present => decide_eq_false (some d present))
    (fun i less => ?_) ?_ enough
  · have entry := entries.entry (k := chunkDescSize) (by simp) (i := i) (by simpa using less)
    rw [List.getElem_map] at entry
    rw [offset_offset, chunkDesc_of_bytes entry]
  · rw [offset_offset, decide_eq_true_iff]
    exact chunkDesc_sentinel sentinel

/-! ### The file -/

namespace Arguments

/-- A command line that the tool accepts, and the file that it gives. -/
structure Accepted (args : Arguments) (file : Bytes) : Prop where
  positive : 0 < args.chunkSize.toNat
  owned : ∀ image ∈ args.processed, image.owner = 1
  bytes : file = (args.commandLine.bootImage args.commandLine.chunkArrays args.commandLine.endPosn
    (crc32Calculate args.commandLine.blankImage.bytes)).bytes ++
      (args.chunks.flatMap ChunkDesc.bytes ++ List.replicate chunkDescSize 0 ++
        List.replicate ziChunkDescSize 0 ++ args.binaries)
  fits : file.length < offLimit

theorem processed_commandLine (args : Arguments) :
    args.commandLine.processed = args.processed.map InputImage.toImageArgs :=
  List.map_take.symm

theorem accepted_of_image (done : args.image = .ok file) : args.Accepted file := by
  obtain ⟨h, header, done⟩ := bind_eq_ok.mp done
  obtain ⟨some, -, owned, rfl⟩ := bin2chunks_eq_ok.mp header
  have noPad : writePad (CommandLine.bootImagePaddedSize - BitVec.ofNat 64 BootImage.sizeOf) = [] := by
    decide
  rw [noPad, List.append_nil, bootChunkTable_eq, bootZiChunkTable_eq] at done
  dsimp only at done
  split at done
  · next fits =>
    cases done
    refine ⟨Nat.pos_of_ne_zero fun zero => some (BitVec.eq_of_toNat_eq zero),
      fun image present => ?_, rfl, fits⟩
    rw [processed_commandLine] at owned
    exact owned _ (List.mem_map_of_mem present)
  · cases done

theorem Accepted.chunkCount (accepted : args.Accepted file) :
    args.commandLine.chunkCount = args.chunks.length + 1 := by
  rw [CommandLine.chunkCount, processed_commandLine, chunks,
    length_bootChunks _ _ accepted.positive accepted.owned, List.map_map]
  rfl

theorem Accepted.length (accepted : args.Accepted file) :
    file.length = BootImage.sizeOf + chunkDescSize * (args.chunks.length + 1) + ziChunkDescSize +
      args.binaries.length := by
  rw [accepted.bytes]
  simp only [List.length_append, BootImageHeader.length_bytes, length_flatMap_bytes,
    List.length_replicate, Nat.mul_succ]
  omega

/-- The binaries are right behind the tables. -/
theorem Accepted.toNat_binaryStart (accepted : args.Accepted file) :
    args.binaryStart.toNat =
      BootImage.sizeOf + chunkDescSize * (args.chunks.length + 1) + ziChunkDescSize := by
  have fits := accepted.fits
  rw [accepted.length, offLimit, BootImage.sizeOf, chunkDescSize, ziChunkDescSize] at fits
  have forty : sizeOfChunkDesc = BitVec.ofNat 64 40 := rfl
  have zi : CommandLine.ziChunkTablePaddedSize = BitVec.ofNat 64 24 := by decide
  rw [binaryStart, CommandLine.chunkTablePaddedSize_eq, accepted.chunkCount, bootImagePaddedSize_eq, zi,
    forty, ← BitVec.ofNat_mul, ← BitVec.ofNat_add, ← BitVec.ofNat_add, BitVec.toNat_ofNat,
    BootImage.sizeOf, chunkDescSize, ziChunkDescSize, Nat.mod_eq_of_lt (by omega)]

/-- Where the file is in memory: the header, the entries of the table, and the binaries. -/
theorem Accepted.parts (accepted : args.Accepted file) (holds : HoldsAt mem p 0 file) :
    (args.commandLine.bootImage args.commandLine.chunkArrays args.commandLine.endPosn
        (crc32Calculate args.commandLine.blankImage.bytes)).InMem mem p ∧
      HoldsAt mem p BootImage.sizeOf
        (args.chunks.flatMap ChunkDesc.bytes ++ List.replicate chunkDescSize 0) ∧
      HoldsAt mem p args.binaryStart.toNat args.binaries := by
  rw [accepted.bytes, holdsAt_append, holdsAt_append, holdsAt_append] at holds
  obtain ⟨header, ⟨table, -⟩, binaries⟩ := holds
  rw [BootImageHeader.length_bytes, Nat.zero_add] at table binaries
  refine ⟨header, table, ?_⟩
  rw [List.length_append, List.length_append, length_flatMap_bytes, List.length_replicate,
    List.length_replicate] at binaries
  rwa [accepted.toNat_binaryStart, Nat.mul_succ, Nat.add_assoc]

theorem Accepted.walk (accepted : args.Accepted file) (holds : HoldsAt mem p 0 file) :
    walkTable (chunkDesc mem) (fun d => d.size = 0) sizeOfChunkDesc file.length
      (p + BootImage.chunkTableOffset mem p) = some args.chunks := by
  obtain ⟨header, table, -⟩ := accepted.parts holds
  have offset : BootImage.chunkTableOffset mem p = BitVec.ofNat 64 BootImage.sizeOf :=
    (BootImageHeader.InMem.chunkTableOffset header).trans bootImagePaddedSize_eq
  have length := accepted.length
  rw [BootImage.sizeOf, chunkDescSize] at length
  rw [offset]
  exact walkTable_descs (fun d => size_ne_of_mem_bootChunks accepted.positive) table (by omega)

end Arguments

/-! ### The first chunk of a hart -/

theorem ownerHart_one : ownerHart 1 = some .u54_1 := by decide

/-- What an image of the first hart does to the arrays. -/
theorem firstChunk_add {arrays : ChunkArrays} {image : ImageArgs} (owned : image.owner = 1) (u : U54) :
    (arrays.add size image).firstChunk u =
      if u = .u54_1 ∧ image.binSize ≠ 0 then BitVec.ofNat 64 arrays.totalChunkCount
      else arrays.firstChunk u := by
  rw [ChunkArrays.add, owned, ownerHart_one]
  dsimp only
  by_cases empty : image.binSize = 0
  · rw [if_pos empty, if_neg fun both => both.2 empty]
  · rw [if_neg empty]
    show Function.update arrays.firstChunk .u54_1 (BitVec.ofNat 64 arrays.totalChunkCount) u = _
    by_cases first : u = .u54_1
    · rw [if_pos ⟨first, empty⟩, first, Function.update_self]
    · rw [if_neg fun both => first both.1, Function.update_of_ne first]

theorem length_chunkStarts_eq_zero (positive : 0 < size) {binSize : ℕ} :
    (chunkStarts binSize size).length = 0 ↔ binSize = 0 := by
  rw [length_chunkStarts, Nat.div_eq_zero_iff]
  omega

/-- Each image with bytes sets the first chunk, so it stays zero for one such image at most. -/
theorem firstChunk_eq_zero_iff (positive : 0 < size) {images : List ImageArgs}
    (owned : ∀ image ∈ images, image.owner = 1)
    (small : (images.map fun image => (chunkStarts image.binSize size).length).sum < 2 ^ 64) :
    (images.foldl (ChunkArrays.add size) .none).firstChunk .u54_1 = 0 ↔
      (images.filter fun image => image.binSize ≠ 0).length ≤ 1 := by
  induction images using List.reverseRecOn with
  | nil => exact ⟨fun _ => Nat.zero_le 1, fun _ => rfl⟩
  | append_singleton images image ih =>
    rw [List.map_append, List.sum_append] at small
    have owned' : ∀ image ∈ images, image.owner = 1 := fun i present =>
      owned i (List.mem_append_left _ present)
    have total : (images.foldl (ChunkArrays.add size) .none).totalChunkCount =
        (images.map fun image => (chunkStarts image.binSize size).length).sum := by
      rw [CommandLine.totalChunkCount_foldl (Nat.ne_of_gt positive) fun i present => by
        rw [owned' i present]; decide]
      exact Nat.zero_add _
    rw [List.foldl_append, List.foldl_cons, List.foldl_nil,
      firstChunk_add (owned image (List.mem_append_right _ (List.mem_singleton_self image))),
      List.filter_append, List.length_append, total]
    by_cases empty : image.binSize = 0
    · rw [if_neg fun both => both.2 empty, ih owned' (by omega)]
      simp [empty]
    · have none : (images.map fun image => (chunkStarts image.binSize size).length).sum = 0 ↔
          (images.filter fun image => image.binSize ≠ 0).length = 0 := by
        rw [List.length_eq_zero_iff, List.filter_eq_nil_iff, List.sum_eq_zero_iff_forall_eq_nat]
        simp [length_chunkStarts_eq_zero positive]
      have one : ([image].filter fun image => image.binSize ≠ 0).length = 1 := by simp [empty]
      rw [if_pos ⟨rfl, empty⟩, one, ← BitVec.toNat_inj, BitVec.toNat_ofNat, Nat.mod_eq_of_lt (by omega)]
      exact none.trans (by omega)

theorem firstChunk_of_ne {images : List ImageArgs} (owned : ∀ image ∈ images, image.owner = 1) {u : U54}
    (other : u ≠ .u54_1) {arrays : ChunkArrays} :
    (images.foldl (ChunkArrays.add size) arrays).firstChunk u = arrays.firstChunk u := by
  induction images generalizing arrays with
  | nil => rfl
  | cons image images ih =>
    rw [List.foldl_cons, ih fun i present => owned i (List.mem_cons_of_mem _ present),
      firstChunk_add (owned image (List.mem_cons_self ..)), if_neg fun both => other both.1]

/-! ### What is recovered -/

namespace Arguments

theorem ownedBy_iff {d : ChunkDesc} (owner : d.owner = BitVec.ofInt 32 1) (u : U54) :
    d.OwnedBy u ↔ u = .u54_1 := by
  rw [ChunkDesc.OwnedBy, owner]
  cases u <;> decide

/-- The files that are not processed, of a hart. -/
def restOf (args : Arguments) (u : U54) : Bytes :=
  ((args.images.drop nrCpus).filter fun image => ownerHart image.owner = some u).flatMap
    InputImage.contents

theorem Accepted.inputOf_eq (accepted : args.Accepted file) (u : U54) :
    args.inputOf u =
      (if u = .u54_1 then args.processed.flatMap InputImage.contents else []) ++ args.restOf u := by
  have parts : args.images = args.processed ++ args.images.drop nrCpus := (List.take_append_drop ..).symm
  rw [inputOf, restOf]
  nth_rewrite 1 [parts]
  rw [List.filter_append, List.flatMap_append]
  congr 1
  by_cases first : u = .u54_1
  · rw [if_pos first, List.filter_eq_self.mpr]
    intro image present
    rw [accepted.owned image present, first]
    decide
  · rw [if_neg first, List.filter_eq_nil_iff.mpr]
    · rfl
    · intro image present
      rw [accepted.owned image present, ownerHart_one, decide_eq_true_iff]
      exact fun same => first (Option.some.inj same).symm

theorem restOf_eq_nil_iff :
    (∀ u, args.restOf u = []) ↔
      ∀ image ∈ args.images.drop nrCpus, ownerHart image.owner ≠ none → image.binSize = 0 := by
  have empty (image : InputImage) : image.contents = [] ↔ image.binSize = 0 := by
    rw [← image.length_contents, List.length_eq_zero_iff]
  simp only [restOf, List.flatMap_eq_nil_iff, List.mem_filter, decide_eq_true_iff, empty]
  constructor
  · intro none image present owned
    obtain ⟨u, owner⟩ := Option.ne_none_iff_exists'.mp owned
    exact none u image ⟨present, owner⟩
  · intro none u image present
    refine none image present.1 fun absent => ?_
    rw [present.2] at absent
    cases absent

theorem Accepted.privMode (accepted : args.Accepted file) (holds : HoldsAt mem p 0 file) (u : U54) :
    BootImage.privMode mem p u = args.images[u.num - 1]?.elim 1 fun other => other.privMode := by
  have inside : u.num - 1 < nrCpus := by cases u <;> decide
  have place : args.commandLine.processed[u.num - 1]? =
      args.images[u.num - 1]?.map InputImage.toImageArgs := by
    rw [processed_commandLine, List.getElem?_map, processed, List.getElem?_take_of_lt inside]
  rw [BootImageHeader.InMem.privMode (accepted.parts holds).1]
  show args.commandLine.privMode u = _
  rw [CommandLine.privMode, place]
  cases args.images[u.num - 1]? with
  | none => rfl
  | some image => rfl

/-- The table of an accepted command line, and the first chunk that the header has for a hart. -/
theorem Accepted.firstChunk (accepted : args.Accepted file) (holds : HoldsAt mem p 0 file) :
    (BootImage.firstChunk mem p .u54_1 = 0 ↔
        (args.processed.filter fun image => image.binSize ≠ 0).length ≤ 1) ∧
      ∀ u, u ≠ .u54_1 → BootImage.firstChunk mem p u = 0 := by
  have owned : ∀ image ∈ args.commandLine.processed, image.owner = 1 := by
    intro image present
    rw [processed_commandLine] at present
    obtain ⟨input, inside, rfl⟩ := List.mem_map.mp present
    exact accepted.owned input inside
  have count := accepted.chunkCount
  have fits := accepted.fits
  rw [accepted.length, offLimit, chunkDescSize] at fits
  rw [CommandLine.chunkCount] at count
  have zero := firstChunk_eq_zero_iff accepted.positive owned (by
    show (args.commandLine.processed.map fun image =>
      (chunkStarts image.binSize args.commandLine.chunkSize.toNat).length).sum < _
    omega)
  have some : (args.commandLine.processed.filter fun image => image.binSize ≠ 0).length =
      (args.processed.filter fun image => image.binSize ≠ 0).length := by
    rw [processed_commandLine, List.filter_map, List.length_map]
    rfl
  constructor
  · rw [BootImageHeader.InMem.firstChunk (accepted.parts holds).1, ← some]
    exact zero
  · intro u other
    rw [BootImageHeader.InMem.firstChunk (accepted.parts holds).1]
    exact firstChunk_of_ne owned other

/-- The slices that the table leads to, and all of the chunks together. -/
theorem Accepted.slices (accepted : args.Accepted file) (holds : HoldsAt mem p 0 file) :
    (∀ d ∈ args.chunks, ∃ image ∈ args.processed, ∃ idx, SliceOf mem p image idx d) ∧
      (args.chunks.flatMap fun d => bytesAt mem (p + d.loadAddr) d.size.toNat) =
        args.processed.flatMap InputImage.contents := by
  have fits := accepted.fits
  rw [accepted.length] at fits
  exact bootChunks_holds accepted.positive accepted.owned (accepted.parts holds).2.2
    (Nat.lt_of_le_of_lt (Nat.le_add_left _ _) fits)

theorem Accepted.ownedBy_iff (accepted : args.Accepted file) (holds : HoldsAt mem p 0 file) {d : ChunkDesc}
    (present : d ∈ args.chunks) (u : U54) : d.OwnedBy u ↔ u = .u54_1 := by
  obtain ⟨image, inside, idx, slice⟩ := (accepted.slices holds).1 d present
  exact Arguments.ownedBy_iff (accepted.owned image inside ▸ slice.owner) u

/-- The chunks of a hart, all of them of the first one. -/
theorem Accepted.whole (accepted : args.Accepted file) (holds : HoldsAt mem p 0 file) (u : U54) :
    ((args.chunks.filter fun d => d.OwnedBy u).flatMap fun d =>
      bytesAt mem (p + d.loadAddr) d.size.toNat) =
        if u = .u54_1 then args.processed.flatMap InputImage.contents else [] := by
  by_cases first : u = .u54_1
  · rw [if_pos first, List.filter_eq_self.mpr, (accepted.slices holds).2]
    intro d present
    exact decide_eq_true ((accepted.ownedBy_iff holds present u).mpr first)
  · rw [if_neg first, List.filter_eq_nil_iff.mpr]
    · rfl
    · intro d present
      rw [decide_eq_true_iff, accepted.ownedBy_iff holds present]
      exact first

theorem Accepted.laidOut_of_plain (accepted : args.Accepted file) (holds : HoldsAt mem p 0 file)
    (plain : args.Plain) : args.LaidOut mem p args.chunks := by
  obtain ⟨zero, others⟩ := accepted.firstChunk holds
  refine ⟨fun d present => ?_, fun u => ?_, fun u i less owned => ?_, fun image present u owner => ?_⟩
  · obtain ⟨image, inside, idx, slice⟩ := (accepted.slices holds).1 d present
    exact ⟨image, List.mem_of_mem_take inside, idx, slice.owner, slice.execAddr, slice.inside, slice.bytes⟩
  · rw [accepted.whole holds, accepted.inputOf_eq, restOf_eq_nil_iff.mpr plain.rest u, List.append_nil]
  · rw [(accepted.ownedBy_iff holds (List.getElem_mem less) u).mp owned, zero.mpr plain.one]
    exact Nat.zero_le i
  · rw [accepted.privMode holds, plain.modes image present u owner]
    exact ⟨rfl, BootImageHeader.InMem.entryPoint (accepted.parts holds).1 u⟩

theorem Accepted.plain_of_laidOut (accepted : args.Accepted file) (holds : HoldsAt mem p 0 file)
    (laidOut : args.LaidOut mem p args.chunks) : args.Plain := by
  obtain ⟨zero, -⟩ := accepted.firstChunk holds
  refine ⟨?_, restOf_eq_nil_iff.mp fun u => ?_, fun image present u owner => ?_⟩
  · cases table : args.chunks with
    | nil =>
      -- without chunks no image has bytes
      have none := length_bootChunks args.binaryStart.toNat 0 accepted.positive accepted.owned
      rw [← chunks, table, List.length_nil, eq_comm, List.sum_eq_zero_iff_forall_eq_nat] at none
      have empty : (args.processed.filter fun image => image.binSize ≠ 0) = [] := by
        rw [List.filter_eq_nil_iff]
        intro image present
        have zero := none _ (List.mem_map_of_mem present)
        rw [length_chunkStarts_eq_zero accepted.positive] at zero
        simp [zero]
      rw [empty]
      exact Nat.zero_le 1
    | cons d rest =>
      have less : 0 < args.chunks.length := by rw [table]; exact Nat.succ_pos _
      have owned := (accepted.ownedBy_iff holds (List.getElem_mem less) .u54_1).mpr rfl
      have first := laidOut.firstChunk .u54_1 0 less owned
      exact zero.mp (BitVec.eq_of_toNat_eq (Nat.le_zero.mp first))
  · have whole := laidOut.whole u
    rw [accepted.whole holds, accepted.inputOf_eq] at whole
    exact List.self_eq_append_right.mp whole
  · rw [← accepted.privMode holds]
    exact (laidOut.harts image present u owner).1.symm

theorem Accepted.recovers_iff (accepted : args.Accepted file) : args.Recovers file ↔ args.Plain := by
  constructor
  · intro recovers
    have fits := accepted.fits
    rw [offLimit] at fits
    obtain ⟨mem, holds⟩ := exists_holdsAt (w := 64) (l := file) (by omega) 0
    obtain ⟨chunks, walk, laidOut⟩ := recovers mem 0 holds
    cases (accepted.walk holds).symm.trans walk
    exact accepted.plain_of_laidOut holds laidOut
  · intro plain mem p holds
    exact ⟨args.chunks, accepted.walk holds, accepted.laidOut_of_plain holds plain⟩

/-- An image that is accepted is as the command line says just under the condition on its images. -/
theorem layout_iff (args : Arguments) :
    (∀ file, args.image = .ok file → args.Recovers file) ↔
      ((∃ file, args.image = .ok file) → args.Plain) := by
  constructor
  · rintro recovers ⟨file, done⟩
    exact (accepted_of_image done).recovers_iff.mp (recovers file done)
  · intro plain file done
    exact (accepted_of_image done).recovers_iff.mpr (plain ⟨file, done⟩)

theorem byteImage_noNul : (0 : BitVec 8) ∉ [(0x61 : BitVec 8)] := by decide

/-- An image of one byte for the first hart. -/
def byteImage : InputImage where
  owner := 1
  privMode := 1
  fileName := [0x61]
  fileName_noNul := byteImage_noNul
  binSize := 1
  binSize_lt := Nat.one_lt_two_pow (Nat.succ_ne_zero 62)
  contents := [0x13]
  length_contents := rfl
  execAddr := 0x80000000

def twoImages : Arguments where
  entryPoint := fun _ => 0x80000000
  chunkSize := 1024
  images := [byteImage, byteImage]
  images_ne := List.cons_ne_nil _ _

/-- The first chunk of the hart is the one of its second image. -/
theorem twoImages_wrong : ¬∀ file, twoImages.image = .ok file → twoImages.Recovers file := by
  intro recovers
  have done : (twoImages.image).toOption.isSome = true := by decide +kernel
  cases result : twoImages.image with
  | error e =>
    rw [result] at done
    cases done
  | ok file =>
    have plain := (accepted_of_image result).recovers_iff.mp (recovers file result)
    exact absurd plain.one (by decide)

end Arguments

end Hss
