import Hss.Lib.Outcome
import Hss.Lib.XorLinear
import Hss.Tools.Header

/-! The other tool that writes boot images, `bin2chunks`, and whether the validation accepts the
header that it writes: the tool takes the checksum of a whole header that has no version. -/

namespace Hss

open ByteMemory Outcome XorMap

/-! ### The command line -/

/-- One image of the command line: `owner` and `privMode` as `strtol` gives them, the name of a file
that can be opened, and the file's length. -/
structure ImageArgs where
  owner : ℤ
  privMode : BitVec 8
  fileName : Bytes
  fileName_noNul : 0 ∉ fileName
  binSize : ℕ
  binSize_lt : binSize < 2 ^ 63

/-- A command line with the right number of arguments. -/
structure CommandLine where
  entryPoint : U54 → Word
  chunkSize : Word
  images : List ImageArgs
  images_ne : images ≠ []

/-- `NR_CPUs` -/
def nrCpus : ℕ := 4

/-- `PRV_U` and `PRV_S` -/
def prvU : ℤ := 0
def prvS : ℤ := 1

/-- `validate_owner_` -/
def validateOwner (owner : ℤ) : Except ToolError Unit :=
  if owner ≥ 0 ∧ owner ≤ 4 then .ok () else .error .assertion

/-- `validate_privmode_` -/
def validatePrivmode (privmode : ℤ) : Except ToolError Unit :=
  if privmode ≥ prvU ∧ privmode ≤ prvS then .ok () else .error .assertion

/-- The entry of the arrays at `owner - 1`, if there is one. -/
def ownerHart (owner : ℤ) : Option U54 :=
  if owner = 1 then some .u54_1
  else if owner = 2 then some .u54_2
  else if owner = 3 then some .u54_3
  else if owner = 4 then some .u54_4
  else none

namespace CommandLine

variable (cmd : CommandLine)

/-- The images that are processed: the rest of the command line is not looked at. -/
def processed : List ImageArgs := cmd.images.take nrCpus

/-- `imageNameBuf` -/
def imageName : Bytes :=
  cmd.processed.foldl
    (fun buf image =>
      let buf := if buf.length ≠ 0 then buf ++ [0x2B] else buf
      buf ++ image.fileName.take (bootImageMaxNameLen - 1))
    []

/-- `privMode`, which has the place of the image in the command line, not of its owner. -/
def privMode (u : U54) : BitVec 8 :=
  match cmd.processed[u.num - 1]? with
  | none => 1
  | some image => image.privMode

end CommandLine

/-! ### Chunks -/

/-- The values of `idx` for which there is a chunk. -/
def chunkStarts (binSize chunkSize : ℕ) : List ℕ :=
  (List.range ((binSize + chunkSize - 1) / chunkSize)).map (· * chunkSize)

/-- `chunkCountArray`, `firstChunkArray` and `lastChunkArray`, with the number of chunks so far. -/
structure ChunkArrays where
  chunkCount : U54 → Word
  firstChunk : U54 → Word
  lastChunk : U54 → Word
  totalChunkCount : ℕ

def ChunkArrays.none : ChunkArrays := ⟨fun _ => 0, fun _ => 0, fun _ => 0, 0⟩

/-- One turn of the loop of `fileOut_WriteBootChunkTable_` -/
def ChunkArrays.add (chunkSize : ℕ) (arrays : ChunkArrays) (image : ImageArgs) : ChunkArrays :=
  match ownerHart image.owner with
  | Option.none => arrays
  | some u =>
    if image.binSize = 0 then arrays
    else
      let n := (chunkStarts image.binSize chunkSize).length
      { chunkCount := Function.update arrays.chunkCount u (arrays.chunkCount u + BitVec.ofNat 64 n)
        firstChunk :=
          Function.update arrays.firstChunk u (BitVec.ofNat 64 arrays.totalChunkCount)
        lastChunk :=
          Function.update arrays.lastChunk u (BitVec.ofNat 64 (arrays.totalChunkCount + n - 1))
        totalChunkCount := arrays.totalChunkCount + n }

namespace CommandLine

variable (cmd : CommandLine)

/-- `chunkCount` after `calculateChunkCounts_`, with the sentinel. -/
def chunkCount : ℕ :=
  (cmd.processed.map fun image => (chunkStarts image.binSize cmd.chunkSize.toNat).length).sum + 1

/-- The arrays after `fileOut_WriteBootChunkTable_` -/
def chunkArrays : ChunkArrays :=
  cmd.processed.foldl (ChunkArrays.add cmd.chunkSize.toNat) .none

/-! ### The header -/

/-- `mPAD` -/
def mPad (x pad : Word) : Word := (x + (pad - 1)) / pad * pad

/-- The sizes of the header and of the two tables, padded to `PAD_SIZE`. -/
def bootImagePaddedSize : Word := mPad (BitVec.ofNat 64 BootImage.sizeOf) 8
def chunkTablePaddedSize : Word := mPad (sizeOfChunkDesc * BitVec.ofNat 64 cmd.chunkCount) 8
def ziChunkTablePaddedSize : Word := mPad (sizeOfZiChunkDesc * 1) 8

/-- The position in the file once the header, the tables and the padded binaries are written. -/
def endPosn : Word :=
  bootImagePaddedSize + cmd.chunkTablePaddedSize + ziChunkTablePaddedSize +
    (cmd.processed.map fun image => mPad (BitVec.ofNat 64 image.binSize) cmd.chunkSize).sum

/-- `"PolarFireSOC-HSS::"` -/
def setNamePrefix : Bytes :=
  [0x50, 0x6F, 0x6C, 0x61, 0x72, 0x46, 0x69, 0x72, 0x65, 0x53, 0x4F, 0x43, 0x2D, 0x48, 0x53, 0x53, 0x3A,
    0x3A]

/-- `set_name` before the final zero. -/
def setName : Bytes := setNamePrefix ++ cmd.imageName.take (bootImageMaxNameLen - 1)

/-- The characters of a name and zeros after them. -/
def padName (chars : Bytes) : Bytes :=
  (chars ++ List.replicate bootImageMaxNameLen 0).take bootImageMaxNameLen

/-- `hart[u - 1].name`, which the last of the owner's images sets. -/
def hartName (u : U54) : Bytes :=
  match cmd.processed.reverse.find? fun image => ownerHart image.owner = some u with
  | none => padName []
  | some image => padName (image.fileName.take (bootImageMaxNameLen - 1))

theorem length_padName (chars : Bytes) : (padName chars).length = bootImageMaxNameLen := by
  rw [padName, List.length_take, List.length_append, List.length_replicate]
  exact Nat.min_eq_left (Nat.le_add_left _ _)

theorem length_hartName (u : U54) : (cmd.hartName u).length = bootImageMaxNameLen := by
  rw [hartName]
  split
  · exact length_padName _
  · exact length_padName _

/-- `bootImage` in `fileOut_WriteBootImageHeader_`: the initializer leaves the version zero. -/
def bootImage (arrays : ChunkArrays) (bootImageLength : Word) (headerCrc : BitVec 32) :
    BootImageHeader where
  magic := bootMagic
  version := 0
  headerLength := bootImagePaddedSize + cmd.chunkTablePaddedSize + ziChunkTablePaddedSize
  headerCrc := headerCrc
  chunkTableOffset := bootImagePaddedSize
  ziChunkTableOffset := bootImagePaddedSize + cmd.chunkTablePaddedSize
  hart u :=
    { entryPoint := cmd.entryPoint u
      privMode := cmd.privMode u
      flags := 0
      numChunks := arrays.chunkCount u
      firstChunk := arrays.firstChunk u
      lastChunk := arrays.lastChunk u
      name := cmd.hartName u
      length_name := cmd.length_hartName u }
  setName := padName cmd.setName
  length_setName := length_padName _
  bootImageLength := bootImageLength
  signature := List.replicate 144 0
  length_signature := BootImageHeader.length_noSignature

/-- `fileOut_WriteBootImageHeader_`, with the checksum that it returns.  The name of the set has to
fit with its final zero, and every file has to have an entry for its name. -/
def writeBootImageHeader (arrays : ChunkArrays) (bootImageLength : Word) (headerCrc : BitVec 32) :
    Except ToolError (BootImageHeader × BitVec 32) := do
  if cmd.setName.length + 1 > bootImageMaxNameLen then
    throw .undefined
  if ∃ image ∈ cmd.processed, ownerHart image.owner = none then
    throw .undefined
  let bootImage := cmd.bootImage arrays bootImageLength headerCrc
  return (bootImage, crc32Calculate bootImage.bytes)

end CommandLine

/-- `main`: the header that is in the file at the end. -/
def bin2chunks (cmd : CommandLine) : Except ToolError BootImageHeader := do
  cmd.processed.forM fun image => do
    validateOwner image.owner
    validatePrivmode image.owner
  -- `calculateChunkCounts_` counts in steps of the chunk size
  if cmd.chunkSize = 0 ∧ ∃ image ∈ cmd.processed, image.binSize ≠ 0 then
    throw .hangs
  let _ ← cmd.writeBootImageHeader .none 0 0
  -- after its sentinel the chunk table has `pChunkOffset[idx / chunkSize]`
  if cmd.chunkSize = 0 then
    throw .undefined
  let arrays := cmd.chunkArrays
  -- the position is where `fileOut_WriteBootZIChunkTable_` expects it
  if arrays.totalChunkCount + 1 ≠ cmd.chunkCount then
    throw .assertion
  let (_, headerCrc) ← cmd.writeBootImageHeader arrays cmd.endPosn 0
  let (bootImage, _) ← cmd.writeBootImageHeader arrays cmd.endPosn headerCrc
  return bootImage

/-! ### The checksum over zeros -/

/-- One bit of `CRC32_genTable_` -/
def crcBit (crc : BitVec 32) : BitVec 32 :=
  if crc &&& 1 = 1 then crc >>> 1 ^^^ 0xEDB88320 else crc >>> 1

theorem and_one_eq_one (x : BitVec 32) : x &&& 1 = 1 ↔ x.getLsbD 0 = true := by
  have low : x &&& 1 = BitVec.setWidth 32 (BitVec.ofBool (x.getLsbD 0)) :=
    BitVec.and_one_eq_setWidth_ofBool_getLsbD
  rw [low]
  cases x.getLsbD 0 with
  | true => decide
  | false => decide

theorem linear_crcBit : Linear crcBit := by
  intro x y
  have cancel (a b p : BitVec 32) : a ^^^ b = a ^^^ p ^^^ (b ^^^ p) := by
    rw [BitVec.xor_assoc, BitVec.xor_comm b p, ← BitVec.xor_assoc p, BitVec.xor_self, BitVec.zero_xor]
  rw [crcBit, crcBit, crcBit, BitVec.ushiftRight_xor_distrib]
  simp only [and_one_eq_one, BitVec.getLsbD_xor]
  cases x.getLsbD 0 with
  | true =>
    cases y.getLsbD 0 with
    | true => exact cancel _ _ _
    | false =>
      show x >>> 1 ^^^ y >>> 1 ^^^ 0xEDB88320 = x >>> 1 ^^^ 0xEDB88320 ^^^ y >>> 1
      ac_rfl
  | false =>
    cases y.getLsbD 0 with
    | true => exact BitVec.xor_assoc _ _ _
    | false => rfl

/-- A byte that is zero. -/
def crcZero (crc : BitVec 32) : BitVec 32 := crc32UpdateByte crc 0

theorem linear_crcZero : Linear crcZero := by
  have table : Linear fun crc : BitVec 32 => crcBit^[8] ((crc.setWidth 8).setWidth 32) :=
    (linear_crcBit.iterate 8).comp (Linear.comp Linear.setWidth Linear.setWidth)
  have same : crcZero = fun crc : BitVec 32 => crc >>> 8 ^^^ crcBit^[8] ((crc.setWidth 8).setWidth 32) := by
    funext crc
    have index : crc.setWidth 8 ^^^ (0 : BitVec 8) = crc.setWidth 8 := BitVec.xor_zero
    rw [crcZero, crc32UpdateByte, index]
    rfl
  rw [same]
  exact (Linear.ushiftRight 8).xor table

theorem commute_crcZero : Function.Commute crcZero crcBit :=
  (linear_crcZero.comp linear_crcBit).ext (linear_crcBit.comp linear_crcZero) (by decide +kernel)

/-- What 80 bytes that are zero change. -/
def crcShift (crc : BitVec 32) : BitVec 32 := crcZero^[80] crc ^^^ crc

theorem linear_crcShift : Linear crcShift := (linear_crcZero.iterate 80).xor Linear.id

/-- The coefficients of a polynomial in single steps that inverts `crcShift`. -/
def unshiftCoefficients : List Bool := (List.range 32).map (0xA9EE9DBE : BitVec 32).getLsbD

def crcUnshift (crc : BitVec 32) : BitVec 32 := polynomial crcBit unshiftCoefficients crc

theorem linear_crcUnshift : Linear crcUnshift := linear_crcBit.polynomial unshiftCoefficients

theorem crcUnshift_crcShift (crc : BitVec 32) : crcUnshift (crcShift crc) = crc := by
  have commute : Function.Commute (fun crc => crcUnshift (crcShift crc)) crcBit := by
    intro crc
    have shift : crcShift (crcBit crc) = crcBit (crcShift crc) := by
      rw [crcShift, commute_crcZero.iterate_left 80 crc, ← linear_crcBit]
      rfl
    have unshift := linear_crcBit.commute_polynomial (Function.Commute.refl crcBit) unshiftCoefficients
    show crcUnshift (crcShift (crcBit crc)) = crcBit (crcUnshift (crcShift crc))
    rw [shift]
    exact (unshift (crcShift crc)).symm
  -- the steps of the top bit, which stands for one, are the single bits
  exact (linear_crcUnshift.comp linear_crcShift).eq_self commute 0x80000000 (fun i => 31 - i)
    (by decide +kernel) (by decide +kernel) crc

theorem crcZero_iterate_eq_iff {crc : BitVec 32} : crcZero^[80] crc = crc ↔ crc = 0 := by
  constructor
  · intro same
    have shift : crcShift crc = 0 := by
      rw [crcShift, same]
      exact BitVec.xor_self
    rw [← crcUnshift_crcShift crc, shift, linear_crcUnshift.map_zero]
  · rintro rfl
    exact (linear_crcZero.iterate 80).map_zero

theorem crc32Calculate_append_zeros {l : Bytes} :
    crc32Calculate (l ++ List.replicate 80 0) = crc32Calculate l ↔ crc32Calculate l = 0xFFFFFFFF := by
  have zeros (n : ℕ) (crc : BitVec 32) :
      (List.replicate n 0).foldl crc32UpdateByte crc = crcZero^[n] crc := by
    induction n generalizing crc with
    | zero => rfl
    | succ n ih =>
      rw [List.replicate_succ, List.foldl_cons, ih, Function.iterate_succ_apply]
      rfl
  have ones : (0xFFFFFFFF : BitVec 32) = ~~~0 := by decide
  rw [crc32Calculate, crc32Calculate, List.foldl_append, zeros, ones, BitVec.not_inj, BitVec.not_inj]
  exact crcZero_iterate_eq_iff

/-! ### What the tool writes -/

variable {cmd : CommandLine} {image : ImageArgs} {h : BootImageHeader}

theorem validate_eq_ok {owner : ℤ} :
    (do validateOwner owner; validatePrivmode owner) = .ok () ↔ owner = 0 ∨ owner = 1 := by
  rw [bind_eq_ok, validateOwner, validatePrivmode, prvU, prvS]
  constructor
  · rintro ⟨_, first, second⟩
    split at second
    · omega
    · cases second
  · intro valid
    refine ⟨(), if_pos ?_, if_pos ?_⟩
    · omega
    · omega

theorem ownerHart_eq_none {owner : ℤ} (valid : owner = 0 ∨ owner = 1) :
    ownerHart owner = none ↔ owner ≠ 1 := by
  rcases valid with rfl | rfl
  · decide
  · decide

namespace CommandLine

/-- A header is written when the name fits and the images have entries. -/
theorem writeBootImageHeader_eq_ok {arrays : ChunkArrays} {bootImageLength : Word}
    {headerCrc : BitVec 32} {written : BootImageHeader × BitVec 32} :
    cmd.writeBootImageHeader arrays bootImageLength headerCrc = .ok written ↔
      cmd.setName.length < bootImageMaxNameLen ∧
      (∀ image ∈ cmd.processed, ownerHart image.owner ≠ none) ∧
      written = (cmd.bootImage arrays bootImageLength headerCrc,
        crc32Calculate (cmd.bootImage arrays bootImageLength headerCrc).bytes) := by
  rw [writeBootImageHeader]
  by_cases long : cmd.setName.length + 1 > bootImageMaxNameLen
  · rw [if_pos long]
    constructor
    · intro done
      cases done
    · rintro ⟨fits, -, -⟩
      exact absurd fits (Nat.not_lt_of_le (Nat.le_of_lt_succ long))
  · rw [if_neg long]
    by_cases outside : ∃ image ∈ cmd.processed, ownerHart image.owner = none
    · rw [if_pos outside]
      obtain ⟨image, present, none⟩ := outside
      constructor
      · intro done
        cases done
      · rintro ⟨-, inside, -⟩
        exact absurd none (inside image present)
    · rw [if_neg outside]
      constructor
      · intro done
        cases done
        exact ⟨Nat.lt_of_succ_le (Nat.le_of_not_lt long),
          fun image present none => outside ⟨image, present, none⟩, rfl⟩
      · rintro ⟨-, -, rfl⟩
        rfl

/-- The table has the chunks that were counted when all images have an owner. -/
theorem totalChunkCount_foldl {images : List ImageArgs} {chunkSize : ℕ} {arrays : ChunkArrays}
    (some : chunkSize ≠ 0) (owned : ∀ image ∈ images, ownerHart image.owner ≠ none) :
    (images.foldl (ChunkArrays.add chunkSize) arrays).totalChunkCount = arrays.totalChunkCount +
      (images.map fun image => (chunkStarts image.binSize chunkSize).length).sum := by
  induction images generalizing arrays with
  | nil => rfl
  | cons image images ih =>
    have first : (arrays.add chunkSize image).totalChunkCount =
        arrays.totalChunkCount + (chunkStarts image.binSize chunkSize).length := by
      obtain ⟨u, owner⟩ := Option.ne_none_iff_exists'.mp (owned image (List.mem_cons_self ..))
      rw [ChunkArrays.add, owner]
      dsimp only
      split
      · rename_i empty
        have pred : 0 + chunkSize - 1 < chunkSize := by omega
        rw [chunkStarts, empty, Nat.div_eq_of_lt pred]
        rfl
      · rfl
    rw [List.foldl_cons, ih fun i present => owned i (List.mem_cons_of_mem _ present), first,
      List.map_cons, List.sum_cons, Nat.add_assoc]

/-- The header before its checksum is put in. -/
def blankImage (cmd : CommandLine) : BootImageHeader :=
  cmd.bootImage cmd.chunkArrays cmd.endPosn 0

end CommandLine

/-- A header is in the file at the end when there is a chunk size, the name fits and all images are the
first hart's. -/
theorem bin2chunks_eq_ok : bin2chunks cmd = .ok h ↔
    cmd.chunkSize ≠ 0 ∧ cmd.setName.length < bootImageMaxNameLen ∧
      (∀ image ∈ cmd.processed, image.owner = 1) ∧
      h = cmd.bootImage cmd.chunkArrays cmd.endPosn (crc32Calculate cmd.blankImage.bytes) := by
  constructor
  · intro done
    rw [bin2chunks, bind_eq_ok] at done
    obtain ⟨⟨⟩, valid, done⟩ := done
    rw [forM_eq_ok] at valid
    by_cases hangs : cmd.chunkSize = 0 ∧ ∃ image ∈ cmd.processed, image.binSize ≠ 0
    · rw [if_pos hangs] at done
      cases done
    · rw [if_neg hangs] at done
      obtain ⟨_, first, done⟩ := bind_eq_ok.mp done
      obtain ⟨fits, inside, -⟩ := CommandLine.writeBootImageHeader_eq_ok.mp first
      have owned : ∀ image ∈ cmd.processed, image.owner = 1 := by
        intro image present
        by_contra other
        exact inside image present
          ((ownerHart_eq_none (validate_eq_ok.mp (valid image present))).mpr other)
      by_cases zero : cmd.chunkSize = 0
      · rw [if_pos zero] at done
        cases done
      · rw [if_neg zero] at done
        by_cases differ : cmd.chunkArrays.totalChunkCount + 1 ≠ cmd.chunkCount
        · rw [if_pos differ] at done
          cases done
        · rw [if_neg differ] at done
          obtain ⟨_, second, done⟩ := bind_eq_ok.mp done
          obtain ⟨-, -, rfl⟩ := CommandLine.writeBootImageHeader_eq_ok.mp second
          obtain ⟨_, third, done⟩ := bind_eq_ok.mp done
          obtain ⟨-, -, rfl⟩ := CommandLine.writeBootImageHeader_eq_ok.mp third
          cases done
          exact ⟨zero, fits, owned, rfl⟩
  · rintro ⟨some, fits, owned, rfl⟩
    have inside : ∀ image ∈ cmd.processed, ownerHart image.owner ≠ none := by
      intro image present
      rw [owned image present]
      decide
    have writes (arrays : ChunkArrays) (bootImageLength : Word) (headerCrc : BitVec 32) :
        cmd.writeBootImageHeader arrays bootImageLength headerCrc =
          .ok (cmd.bootImage arrays bootImageLength headerCrc,
            crc32Calculate (cmd.bootImage arrays bootImageLength headerCrc).bytes) :=
      CommandLine.writeBootImageHeader_eq_ok.mpr ⟨fits, inside, rfl⟩
    have valid : (cmd.processed.forM fun image => do
        validateOwner image.owner
        validatePrivmode image.owner) = .ok () :=
      forM_eq_ok.mpr fun image present => validate_eq_ok.mpr (.inr (owned image present))
    have turns : ¬ (cmd.chunkSize = 0 ∧ ∃ image ∈ cmd.processed, image.binSize ≠ 0) :=
      fun hangs => some hangs.1
    have nonzero : cmd.chunkSize.toNat ≠ 0 := fun zero => some (BitVec.eq_of_toNat_eq zero)
    have counted : ¬ cmd.chunkArrays.totalChunkCount + 1 ≠ cmd.chunkCount := by
      rw [CommandLine.chunkArrays, CommandLine.totalChunkCount_foldl nonzero inside,
        CommandLine.chunkCount]
      exact not_not_intro (congrArg (· + 1) (Nat.zero_add _))
    rw [bin2chunks, valid, ok_bind, if_neg turns, writes, ok_bind, if_neg some]
    dsimp only
    rw [if_neg counted, writes, ok_bind, writes, ok_bind]
    rfl

/-! ### What the validation makes of it -/

theorem BootImageHeader.bytes_of_unsigned (unsigned : h.signature = List.replicate 144 0) :
    h.bytes = h.bytes.take BootImage.sizeOfV0 ++ List.replicate 80 0 := by
  have zeros : (List.replicate 144 0 : Bytes) = List.replicate 64 0 ++ List.replicate 80 0 := by
    rw [List.replicate_append_replicate]
  have bytes : h.bytes = (h.front ++ bytesLE 4 h.headerCrc.toNat ++ h.middle ++
      List.replicate 64 0) ++ List.replicate 80 0 := by
    rw [BootImageHeader.bytes, unsigned, zeros, List.append_assoc _ (List.replicate 64 0)]
  have length : BootImage.sizeOfV0 = (h.front ++ bytesLE 4 h.headerCrc.toNat ++ h.middle ++
      (List.replicate 64 0 : Bytes)).length := by
    simp [BootImage.sizeOfV0]
  rw [bytes, length, List.take_left]

/-- The tool's checksum is the one that the validation computes just when the part that the validation
looks at has a checksum of ones. -/
theorem CommandLine.validate_iff {mem : Mem} {p : Word}
    (holds : (cmd.bootImage cmd.chunkArrays cmd.endPosn
      (crc32Calculate cmd.blankImage.bytes)).InMem mem p) (notNull : p ≠ 0) :
    hssBootValidateImage mem p = true ↔
      crc32Calculate (cmd.blankImage.bytes.take BootImage.sizeOfV0) = 0xFFFFFFFF := by
  have split := BootImageHeader.bytes_of_unsigned (h := cmd.blankImage) rfl
  have crc : validateCrc mem p = true ↔ crc32Calculate cmd.blankImage.bytes =
      crc32Calculate (cmd.blankImage.bytes.take BootImage.sizeOfV0) :=
    holds.validateCrc_iff.trans eq_comm
  have magic : BootImage.magic mem p = bootMagic := holds.magic
  rw [congrArg crc32Calculate split, crc32Calculate_append_zeros] at crc
  rw [← crc, hssBootValidateImage, magic, decide_eq_true notNull, decide_eq_true rfl,
    Bool.true_and, Bool.true_and]

theorem CommandLine.length_setName_lt :
    cmd.setName.length < bootImageMaxNameLen ↔ cmd.imageName.length ≤ 237 := by
  have first : setNamePrefix.length = 18 := by decide
  rw [setName, List.length_append, List.length_take, first, bootImageMaxNameLen]
  omega

/-- The validation accepts what the tool writes just when there is a chunk size, the names of the files
are not too long, all images are the first hart's, and the older format's part of the header happens to
have a checksum of ones. -/
theorem bin2chunks_accepted_iff (cmd : CommandLine) :
    (∃ h, bin2chunks cmd = .ok h ∧
      ∀ mem p, p ≠ 0 → h.InMem mem p → hssBootValidateImage mem p = true) ↔
    cmd.chunkSize ≠ 0 ∧ cmd.imageName.length ≤ 237 ∧
      (∀ image ∈ cmd.processed, image.owner = 1) ∧
      crc32Calculate (cmd.blankImage.bytes.take BootImage.sizeOfV0) = 0xFFFFFFFF := by
  rw [← CommandLine.length_setName_lt]
  constructor
  · rintro ⟨h, done, accepted⟩
    obtain ⟨some, fits, owned, rfl⟩ := bin2chunks_eq_ok.mp done
    have notNull : (1 : Word) ≠ 0 := by decide
    obtain ⟨mem, holds⟩ := exists_holdsAt (w := 64) (l := (cmd.bootImage cmd.chunkArrays cmd.endPosn
      (crc32Calculate cmd.blankImage.bytes)).bytes) (by rw [BootImageHeader.length_bytes]; decide) 1
    exact ⟨some, fits, owned,
      (CommandLine.validate_iff holds notNull).mp (accepted mem 1 notNull holds)⟩
  · rintro ⟨some, fits, owned, ones⟩
    exact ⟨_, bin2chunks_eq_ok.mpr ⟨some, fits, owned, rfl⟩,
      fun mem p notNull holds => (CommandLine.validate_iff holds notNull).mpr ones⟩

/-- One image of 100 bytes for the first hart, in chunks of 1024 bytes. -/
def plainImage : CommandLine where
  entryPoint := fun _ => 0x80000000
  chunkSize := 1024
  images := [{ owner := 1, privMode := 1, fileName := [0x61], fileName_noNul := by decide,
               binSize := 100, binSize_lt := by decide }]
  images_ne := List.cons_ne_nil _ _

/-- The tool writes a header that the validation rejects. -/
theorem plainImage_rejected : ¬ ∃ h, bin2chunks plainImage = .ok h ∧
    ∀ mem p, p ≠ 0 → h.InMem mem p → hssBootValidateImage mem p = true := by
  rintro ⟨h, done, accepted⟩
  obtain ⟨-, -, -, rfl⟩ := bin2chunks_eq_ok.mp done
  have notNull : (1 : Word) ≠ 0 := by decide
  obtain ⟨mem, holds⟩ := exists_holdsAt (w := 64) (l := (plainImage.bootImage plainImage.chunkArrays
    plainImage.endPosn (crc32Calculate plainImage.blankImage.bytes)).bytes)
    (by rw [BootImageHeader.length_bytes]; decide) 1
  have ones := (CommandLine.validate_iff holds notNull).mp (accepted mem 1 notNull holds)
  rw [crc32Calculate_eq] at ones
  exact absurd ones (by decide +kernel)

end Hss
