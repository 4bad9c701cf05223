import Hss.Boot.System

/-! The boot image of a storage provider: decompression of a compressed image, and its
registration. -/

namespace Hss

/-! ### Decompression -/

/-- `tinfl_status` -/
inductive TinflStatus
  | failedCannotMakeProgress | badParam | adler32Mismatch | failed
  | done | needsMoreInput | hasMoreOutput
  deriving DecidableEq, Repr

/-- What `tinfl_decompress` did: the bytes taken and put, and the memory after it. -/
structure TinflResult where
  status : TinflStatus
  inBytes : Word
  outBytes : Word
  mem : Mem

/-- The part of miniz under its one-call interface: whether its state can be allocated, and
`tinfl_decompress` of a whole stream from `src` to `dst`, which may overlap. -/
structure Miniz where
  allocates : Bool
  tinflDecompress : (mem : Mem) → (src : Word) → (inBytes : BitVec 32) → (dst : Word) →
    (outBytes : BitVec 32) → TinflResult

/-- The statuses of miniz, an `int` each. -/
def mzOk : BitVec 32 := 0
def mzStreamEnd : BitVec 32 := 1
def mzDataError : BitVec 32 := -3
def mzMemError : BitVec 32 := -4
def mzBufError : BitVec 32 := -5
def mzParamError : BitVec 32 := -10000

/-- `mz_inflate` with `MZ_FINISH` in its first call: the status, what is left of the input, the
output so far and the memory. -/
def mzInflate (miniz : Miniz) (mem : Mem) (nextIn : Word) (availIn : BitVec 32) (nextOut : Word)
    (availOut : BitVec 32) : BitVec 32 × BitVec 32 × Word × Mem :=
  let tinfl := miniz.tinflDecompress mem nextIn availIn nextOut availOut
  let availIn := availIn - tinfl.inBytes.setWidth 32
  let totalOut := (tinfl.outBytes.setWidth 32).setWidth 64
  match tinfl.status with
  | .failedCannotMakeProgress | .badParam | .adler32Mismatch | .failed =>
      (mzDataError, availIn, totalOut, tinfl.mem)
  | .needsMoreInput | .hasMoreOutput => (mzBufError, availIn, totalOut, tinfl.mem)
  | .done => (mzStreamEnd, availIn, totalOut, tinfl.mem)

/-- `mz_uncompress`: the status, the length of the output and the memory. -/
def mzUncompress (miniz : Miniz) (mem : Mem) (pDest destLen pSource sourceLen : Word) :
    BitVec 32 × Word × Mem :=
  if sourceLen ||| destLen > 0xFFFFFFFF then
    (mzParamError, destLen, mem)
  else if !miniz.allocates then
    (mzMemError, destLen, mem)
  else
    let (status, availIn, totalOut, mem) :=
      mzInflate miniz mem pSource (sourceLen.setWidth 32) pDest (destLen.setWidth 32)
    if status ≠ mzStreamEnd then
      (if status = mzBufError ∧ availIn = 0 then mzDataError else status, destLen, mem)
    else
      (mzOk, totalOut, mem)

/-! ### `struct HSS_CompressedImage` -/

namespace CompressedImage

variable (mem : Mem) (pInputBuffer : Word)

def magic : BitVec 32 := load32 mem pInputBuffer
def headerCrc : BitVec 32 := load32 mem (pInputBuffer + 16)
def compressedImageLen : Word := load64 mem (pInputBuffer + 32)
def originalImageLen : Word := load64 mem (pInputBuffer + 40)

/-- `sizeof(struct HSS_CompressedImage)`, which ends with a signature or with the padding in its
place. -/
def sizeOf (cryptoSigning : Bool) : ℕ := if cryptoSigning then 192 else 112

/-- Byte `i` of the copy of the header that the checksum is taken of. -/
def shadowHdr (i : ℕ) : BitVec 8 :=
  if 16 ≤ i ∧ i < 20 then 0 else mem (pInputBuffer + BitVec.ofNat 64 i)

end CompressedImage

/-- `mHSS_COMPRESSED_MAGIC` -/
def compressedMagic : BitVec 32 := 0xC08B8355

/-- The build options of the boot initialisation. -/
structure InitConfig where
  /-- `CONFIG_COMPRESSION` -/
  compression : Bool
  /-- `CONFIG_CRYPTO_SIGNING` -/
  cryptoSigning : Bool
  /-- `CONFIG_SERVICE_BOOT_DDR_TARGET_ADDR` -/
  ddrTargetAddr : Word
  ddrTargetAddr_ne : ddrTargetAddr ≠ 0

section Decompress

variable (cfg : InitConfig) (miniz : Miniz) (mem : Mem) (pInputBuffer pOutputBuffer : Word)

/-- The checksum of a compressed image's header is right. -/
def headerCrcGood : Bool :=
  crc32Calculate ((List.range (CompressedImage.sizeOf cfg.cryptoSigning)).map
    (CompressedImage.shadowHdr mem pInputBuffer)) = CompressedImage.headerCrc mem pInputBuffer

/-- The call of `mz_uncompress` for an image: its length goes through an `int`. -/
def uncompressImage : BitVec 32 × Word × Mem :=
  mzUncompress miniz mem pOutputBuffer (CompressedImage.originalImageLen mem pInputBuffer)
    (pInputBuffer + BitVec.ofNat 64 (CompressedImage.sizeOf cfg.cryptoSigning))
    (((CompressedImage.compressedImageLen mem pInputBuffer).setWidth 32).signExtend 64)

/-- `HSS_Decompress` -/
def hssDecompress : BitVec 32 × Mem :=
  if CompressedImage.magic mem pInputBuffer ≠ compressedMagic then
    (0, mem)
  else if !headerCrcGood cfg mem pInputBuffer then
    (0, mem)
  else
    let (result, decompressedOutputSize, mem) :=
      uncompressImage cfg miniz mem pInputBuffer pOutputBuffer
    (if result = 0 then decompressedOutputSize.setWidth 32 else result, mem)

end Decompress

/-! ### Registration -/

/-- What a storage provider's `getBootImage` left: its result, the image pointer, which is null
before, and the memory. -/
structure BootImageResult where
  result : Bool
  pBootImage : Word
  mem : Mem

/-- The provider delivered a compressed image. -/
def BootImageResult.DeliversCompressed (got : BootImageResult) : Prop :=
  got.result = true ∧ got.pBootImage ≠ 0 ∧
    CompressedImage.magic got.mem got.pBootImage = compressedMagic

instance (got : BootImageResult) : Decidable got.DeliversCompressed :=
  inferInstanceAs (Decidable (_ ∧ _))

/-- `HSS_Register_Boot_Image` -/
def hssRegisterBootImage (pImage : Word) (s : State) : State :=
  { s with pBootImage := pImage }

/-- The image to register: the one of the storage, or what it decompresses to, null if to nothing. -/
def imageToRegister (cfg : InitConfig) (miniz : Miniz) (got : BootImageResult) :
    BootImageResult :=
  if !cfg.compression then
    got
  else if got.DeliversCompressed then
    let (outputSize, mem) := hssDecompress cfg miniz got.mem got.pBootImage cfg.ddrTargetAddr
    ⟨got.result, if outputSize ≠ 0 then cfg.ddrTargetAddr else 0, mem⟩
  else if !got.result then
    { got with result := false }
  else if got.pBootImage = 0 then
    { got with result := false }
  else
    got

/-- `tryBootFunction_` -/
def tryBootFunction (cfg : InitConfig) (miniz : Miniz) (bootImageFunction : Mem → BootImageResult)
    (s : State) : Bool × State :=
  let image := imageToRegister cfg miniz (bootImageFunction s.mem)
  let s := { s with mem := image.mem }
  if image.result then
    (true, hssRegisterBootImage image.pBootImage s)
  else
    (false, hssRegisterBootImage 0 s)

/-! ### What is registered -/

variable {cfg : InitConfig} {miniz : Miniz} {mem : Mem} {p dst : Word}
  {bootImageFunction : Mem → BootImageResult} {s : State}

/-- The image at `p` has a good header, and its stream inflates to the end into as many bytes at
`dst` as the header says, and to some. -/
structure FullyInflates (cfg : InitConfig) (miniz : Miniz) (mem : Mem) (p dst : Word) : Prop where
  magic : CompressedImage.magic mem p = compressedMagic
  headerCrc : headerCrcGood cfg mem p = true
  status : (uncompressImage cfg miniz mem p dst).1 = mzOk
  size : (uncompressImage cfg miniz mem p dst).2.1 = CompressedImage.originalImageLen mem p
  someBytes : CompressedImage.originalImageLen mem p ≠ 0

/-- The stream of the image at `p` inflates to the end into another number of bytes than the header
says, which is positive as an `int`. -/
structure InflatesToOtherSize (cfg : InitConfig) (miniz : Miniz) (mem : Mem) (p dst : Word) :
    Prop where
  magic : CompressedImage.magic mem p = compressedMagic
  headerCrc : headerCrcGood cfg mem p = true
  status : (uncompressImage cfg miniz mem p dst).1 = mzOk
  positive : 0 < ((uncompressImage cfg miniz mem p dst).2.1.setWidth 32).toInt
  size : (uncompressImage cfg miniz mem p dst).2.1 ≠ CompressedImage.originalImageLen mem p

/-- What `mz_inflate` returns in its first call. -/
theorem mzInflate_status (miniz : Miniz) (mem : Mem) (nextIn : Word) (availIn : BitVec 32) (nextOut : Word)
    (availOut : BitVec 32) :
    ((mzInflate miniz mem nextIn availIn nextOut availOut).1 = mzStreamEnd ∧
      (miniz.tinflDecompress mem nextIn availIn nextOut availOut).status = .done) ∨
    (mzInflate miniz mem nextIn availIn nextOut availOut).1 = mzDataError ∨
    (mzInflate miniz mem nextIn availIn nextOut availOut).1 = mzBufError := by
  cases status : (miniz.tinflDecompress mem nextIn availIn nextOut availOut).status with
  | done => exact .inl ⟨by simp only [mzInflate, status], rfl⟩
  | needsMoreInput | hasMoreOutput => exact .inr (.inr (by simp only [mzInflate, status]))
  | _ => exact .inr (.inl (by simp only [mzInflate, status]))

/-- `mz_uncompress` fails with a negative status, and succeeds only when the inflation went to the
end of the stream. -/
theorem mzUncompress_status (miniz : Miniz) (mem : Mem) (pDest destLen pSource sourceLen : Word) :
    ((mzUncompress miniz mem pDest destLen pSource sourceLen).1 = mzOk ∧
      sourceLen ||| destLen ≤ 0xFFFFFFFF ∧
      (miniz.tinflDecompress mem pSource (sourceLen.setWidth 32) pDest
        (destLen.setWidth 32)).status = .done) ∨
    (mzUncompress miniz mem pDest destLen pSource sourceLen).1.toInt < 0 := by
  unfold mzUncompress
  split
  · exact .inr (show mzParamError.toInt < 0 by decide)
  · rename_i range
    split
    · exact .inr (show mzMemError.toInt < 0 by decide)
    · obtain ⟨ended, done⟩ | failed | failed := mzInflate_status miniz mem pSource
        (sourceLen.setWidth 32) pDest (destLen.setWidth 32)
      · refine .inl ⟨?_, BitVec.not_lt.mp range, done⟩
        simp only [ended, ne_eq, not_true_eq_false, if_false]
      · refine .inr ?_
        simp only [failed]
        rw [if_pos (by decide), ite_self]
        show mzDataError.toInt < 0
        decide
      · refine .inr ?_
        simp only [failed]
        rw [if_pos (by decide)]
        split
        · show mzDataError.toInt < 0
          decide
        · show mzBufError.toInt < 0
          decide

theorem mzOk_not_negative : ¬ mzOk.toInt < 0 := by decide

theorem FullyInflates.setWidth_ne (good : FullyInflates cfg miniz mem p dst) :
    (uncompressImage cfg miniz mem p dst).2.1.setWidth 32 ≠ 0 := by
  obtain ⟨-, range, -⟩ := (mzUncompress_status _ _ _ _ _ _).resolve_right
    fun negative => mzOk_not_negative (good.status ▸ negative)
  have bound := BitVec.le_def.mp range
  rw [BitVec.toNat_or] at bound
  have part := Nat.le_trans Nat.right_le_or bound
  have some := good.someBytes
  rw [good.size]
  bv_omega

theorem hssDecompress_size :
    (hssDecompress cfg miniz mem p dst).1 =
      if CompressedImage.magic mem p = compressedMagic ∧ headerCrcGood cfg mem p = true then
        if (uncompressImage cfg miniz mem p dst).1 = mzOk then
          (uncompressImage cfg miniz mem p dst).2.1.setWidth 32
        else (uncompressImage cfg miniz mem p dst).1
      else 0 := by
  unfold hssDecompress
  by_cases magic : CompressedImage.magic mem p = compressedMagic
  · cases crc : headerCrcGood cfg mem p with
    | false => simp [magic]
    | true =>
      simp only [magic, ne_eq, not_true_eq_false, Bool.not_true, Bool.false_eq_true, if_false,
        and_self, if_true]
      rfl
  · simp [magic]

theorem FullyInflates.hssDecompress_ne (good : FullyInflates cfg miniz mem p dst) :
    (hssDecompress cfg miniz mem p dst).1 ≠ 0 := by
  rw [hssDecompress_size, if_pos ⟨good.magic, good.headerCrc⟩, if_pos good.status]
  exact good.setWidth_ne

/-- Decompression to a positive size goes to the end of the stream, but maybe not to the size that
the header says. -/
theorem hssDecompress_positive (positive : 0 < (hssDecompress cfg miniz mem p dst).1.toInt) :
    FullyInflates cfg miniz mem p dst ∨ InflatesToOtherSize cfg miniz mem p dst := by
  rw [hssDecompress_size] at positive
  split at positive
  · rename_i header
    split at positive
    · rename_i status
      by_cases size : (uncompressImage cfg miniz mem p dst).2.1 =
          CompressedImage.originalImageLen mem p
      · refine .inl ⟨header.1, header.2, status, size, fun zero => ?_⟩
        rw [size, zero] at positive
        exact absurd positive (by decide)
      · exact .inr ⟨header.1, header.2, status, positive, size⟩
    · rename_i failed
      obtain ⟨ok, -⟩ | negative := mzUncompress_status miniz mem dst
        (CompressedImage.originalImageLen mem p) _ _
      · exact absurd ok failed
      · exact absurd positive (not_lt.mpr negative.le)
  · exact absurd positive (by decide)

theorem InflatesToOtherSize.hssDecompress_positive (other : InflatesToOtherSize cfg miniz mem p dst) :
    0 < (hssDecompress cfg miniz mem p dst).1.toInt := by
  rw [hssDecompress_size, if_pos ⟨other.magic, other.headerCrc⟩, if_pos other.status]
  exact other.positive

/-! ### Only good images are registered -/

/-- What a try of a storage provider promises, by what the provider got. -/
structure OnlyGoodImages (cfg : InitConfig) (miniz : Miniz) (got : BootImageResult)
    (returned : Bool) (registered : Word) : Prop where
  /-- True is returned exactly when an image is registered. -/
  registers : returned = true ↔ registered ≠ 0
  /-- A compressed image that does not inflate fully is not registered. -/
  refuses : CompressedImage.magic got.mem got.pBootImage = compressedMagic →
    ¬ FullyInflates cfg miniz got.mem got.pBootImage cfg.ddrTargetAddr → registered = 0
  /-- A positive size is that of the whole output. -/
  positive : 0 < (hssDecompress cfg miniz got.mem got.pBootImage cfg.ddrTargetAddr).1.toInt →
    FullyInflates cfg miniz got.mem got.pBootImage cfg.ddrTargetAddr

/-- The contents of a storage with which only good images are registered. -/
structure GoodContent (cfg : InitConfig) (miniz : Miniz) (got : BootImageResult) : Prop where
  /-- Without compression built in, a provider that succeeds gives an image. -/
  image : cfg.compression = false → got.result = true → got.pBootImage ≠ 0
  inflates : got.DeliversCompressed →
    FullyInflates cfg miniz got.mem got.pBootImage cfg.ddrTargetAddr
  size : ¬ InflatesToOtherSize cfg miniz got.mem got.pBootImage cfg.ddrTargetAddr

/-- The image of a provider that did not deliver a compressed one, or without decompression. -/
theorem imageToRegister_plain {got : BootImageResult}
    (plain : cfg.compression = true → ¬ got.DeliversCompressed) :
    imageToRegister cfg miniz got =
      { got with result := got.result && (!cfg.compression || got.pBootImage ≠ 0) } := by
  unfold imageToRegister
  cases compression : cfg.compression with
  | false => simp
  | true =>
    rw [if_neg (by decide), if_neg (plain compression)]
    cases result : got.result with
    | false => simp
    | true =>
      by_cases null : got.pBootImage = 0
      · simp [null]
      · rw [if_neg (by decide), if_neg null, decide_eq_true null, Bool.or_true, Bool.and_true,
          ← result]

/-- The image of a provider that delivered a compressed one. -/
theorem imageToRegister_compressed {got : BootImageResult} (compression : cfg.compression = true)
    (delivers : got.DeliversCompressed) :
    imageToRegister cfg miniz got =
      let (outputSize, mem) := hssDecompress cfg miniz got.mem got.pBootImage cfg.ddrTargetAddr
      ⟨true, if outputSize ≠ 0 then cfg.ddrTargetAddr else 0, mem⟩ := by
  unfold imageToRegister
  rw [if_neg (by simp [compression]), if_pos delivers, delivers.1]

theorem tryBootFunction_returned :
    (tryBootFunction cfg miniz bootImageFunction s).1 =
      (imageToRegister cfg miniz (bootImageFunction s.mem)).result := by
  unfold tryBootFunction
  cases result : (imageToRegister cfg miniz (bootImageFunction s.mem)).result <;> simp [result]

theorem tryBootFunction_registered :
    (tryBootFunction cfg miniz bootImageFunction s).2.pBootImage =
      if (imageToRegister cfg miniz (bootImageFunction s.mem)).result then
        (imageToRegister cfg miniz (bootImageFunction s.mem)).pBootImage
      else 0 := by
  unfold tryBootFunction
  cases result : (imageToRegister cfg miniz (bootImageFunction s.mem)).result <;>
    simp [result, hssRegisterBootImage]

theorem FullyInflates.not_otherSize (good : FullyInflates cfg miniz mem p dst) :
    ¬ InflatesToOtherSize cfg miniz mem p dst := fun other => other.size good.size

/-- With decompression, the images of a provider that delivers a compressed one are good exactly when
it inflates fully. -/
theorem onlyGoodImages_compressed {got : BootImageResult} (compression : cfg.compression = true)
    (delivers : got.DeliversCompressed) :
    OnlyGoodImages cfg miniz got (imageToRegister cfg miniz got).result
        (imageToRegister cfg miniz got).pBootImage ↔
      FullyInflates cfg miniz got.mem got.pBootImage cfg.ddrTargetAddr := by
  rw [imageToRegister_compressed compression delivers]
  constructor
  · intro only
    have registered := only.registers.mp rfl
    by_contra partly
    exact registered (only.refuses delivers.2.2 partly)
  · intro good
    refine ⟨iff_of_true rfl ?_, fun _ partly => absurd good partly, fun _ => good⟩
    show (if _ then cfg.ddrTargetAddr else 0) ≠ 0
    rw [if_pos good.hssDecompress_ne]
    exact cfg.ddrTargetAddr_ne

/-- Sizes are right exactly when the output is never of another size. -/
theorem positive_iff :
    (0 < (hssDecompress cfg miniz mem p dst).1.toInt → FullyInflates cfg miniz mem p dst) ↔
      ¬ InflatesToOtherSize cfg miniz mem p dst := by
  constructor
  · intro positive other
    exact (positive other.hssDecompress_positive).not_otherSize other
  · intro never positive
    exact (hssDecompress_positive positive).resolve_right never

/-- Without a compressed image, or without decompression, the image is registered as it is. -/
theorem onlyGoodImages_plain {got : BootImageResult}
    (plain : cfg.compression = true → ¬ got.DeliversCompressed) :
    OnlyGoodImages cfg miniz got (imageToRegister cfg miniz got).result
        (if (imageToRegister cfg miniz got).result then
          (imageToRegister cfg miniz got).pBootImage else 0) ↔
      GoodContent cfg miniz got := by
  rw [imageToRegister_plain plain]
  constructor
  · intro only
    refine ⟨fun off result null => ?_, fun delivers => ?_, positive_iff.mp only.positive⟩
    · exact only.registers.mp (by simp [off, result]) (by simp [null])
    · by_contra partly
      have off : cfg.compression = false :=
        eq_false_of_ne_true fun on => plain on delivers
      have none := only.refuses delivers.2.2 partly
      exact delivers.2.1 (by simpa [off, delivers.1] using none)
  · intro good
    refine ⟨?_, fun magic partly => ?_, positive_iff.mpr good.size⟩
    · cases compression : cfg.compression with
      | true => simp
      | false =>
        cases result : got.result with
        | false => simp
        | true => simpa using good.image compression result
    · by_contra registered
      refine partly (good.inflates ⟨?_, ?_, magic⟩)
      · by_contra failed
        simp [failed] at registered
      · intro null
        simp [null] at registered

/-- A try returns true exactly when it has registered an image, refuses compressed images that do not
inflate fully, and takes for good only sizes of whole outputs, exactly when the content of the
storage is good. -/
theorem tryBootFunction_onlyGoodImages_iff :
    OnlyGoodImages cfg miniz (bootImageFunction s.mem)
        (tryBootFunction cfg miniz bootImageFunction s).1
        (tryBootFunction cfg miniz bootImageFunction s).2.pBootImage ↔
      GoodContent cfg miniz (bootImageFunction s.mem) := by
  rw [tryBootFunction_returned, tryBootFunction_registered]
  by_cases compressed : cfg.compression = true ∧ (bootImageFunction s.mem).DeliversCompressed
  · obtain ⟨compression, delivers⟩ := compressed
    have returned : (imageToRegister cfg miniz (bootImageFunction s.mem)).result = true := by
      rw [imageToRegister_compressed compression delivers]
    have only : OnlyGoodImages cfg miniz _ _ _ ↔ _ := onlyGoodImages_compressed compression delivers
    rw [returned] at only
    rw [returned, if_pos rfl, only]
    constructor
    · intro good
      refine ⟨fun off => ?_, fun _ => good, good.not_otherSize⟩
      rw [compression] at off
      cases off
    · intro good
      exact good.inflates delivers
  · exact onlyGoodImages_plain fun on delivers => compressed ⟨on, delivers⟩

/-! ### Compressed images that are taken for good -/

/-- A stream of one byte in a stored block. -/
def storedByte : Bytes := [0x78, 0x01, 0x01, 0x01, 0x00, 0xFE, 0xFF, 0x41, 0x00, 0x42, 0x00, 0x42]

/-- The inflation of that stream, where others end too early. -/
def inflateStoredByte : Miniz where
  allocates := true
  tinflDecompress mem src inBytes dst outBytes :=
    if bytesAt mem src 12 = storedByte ∧ inBytes = 12 ∧ 1 ≤ outBytes then
      ⟨.done, 12, 1, Function.update mem dst 0x41⟩
    else
      ⟨.failedCannotMakeProgress, 0, 0, mem⟩

def icicleKitInit : InitConfig := ⟨true, false, 0x103FC00000, by decide⟩

/-- A compressed image at `0x1000`: the lengths of its stream and of its output, its checksum, and
its stream. -/
def compressedImage (compressedImageLen originalImageLen headerCrc stream : ℕ) : Mem := fieldsMem
  [(0x1000, 4, 0xC08B8355), (0x1010, 4, headerCrc), (0x1020, 8, compressedImageLen),
    (0x1028, 8, originalImageLen), (0x1070, 12, stream)]

/-- A try of the payload in memory at `0x1000`. -/
def tryPayload (mem : Mem) : Bool × State :=
  tryBootFunction icicleKitInit inflateStoredByte (fun mem => ⟨true, 0x1000, mem⟩)
    (powerOn .icicleKitEs mem (fun _ _ => ⟨0, 0, .nullRegion, false, false, false, false⟩) 0)

/-- True is returned with no image when the header's checksum is wrong; an empty stream does not
inflate, but is registered; and one byte is taken for the output when the header says two. -/
theorem tryPayload_notOnlyGood :
    ((tryPayload (compressedImage 0 2 0 0)).1 = true ∧
      (tryPayload (compressedImage 0 2 0 0)).2.pBootImage = 0) ∧
    ((uncompressImage icicleKitInit inflateStoredByte (compressedImage 0 2 3118414909 0) 0x1000
        0x103FC00000).1 = mzDataError ∧
      (tryPayload (compressedImage 0 2 3118414909 0)).2.pBootImage = 0x103FC00000) ∧
    ((hssDecompress icicleKitInit inflateStoredByte
        (compressedImage 12 2 679320769 0x4200420041FFFE0001010178) 0x1000 0x103FC00000).1 = 1 ∧
      CompressedImage.originalImageLen
        (compressedImage 12 2 679320769 0x4200420041FFFE0001010178) 0x1000 = 2) := by
  decide +kernel

end Hss
