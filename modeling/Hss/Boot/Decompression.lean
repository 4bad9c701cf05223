import Hss.Boot.Providers

/-! Where the decompressor reads and writes: for the image of each boot source, and for a compressed
file that the loader received. -/

namespace Hss

open ByteMemory

/-! ### The other providers -/

/-- The SPI flash behind the system controller: its content, which of the copies from it succeed, and
how much one that fails brings. -/
structure SpiFlash where
  content : ℕ → BitVec 8
  succeeds : ℕ → Bool
  delivers : ℕ → ℕ

/-- `spiFlashReadBlock_` as copy `n` -/
def spiFlashReadBlock (d : SpiFlash) (n : ℕ) (dst offs count : Word) (mem : Mem) : ReadOutcome :=
  let count := (count.setWidth 32).toNat
  let came := if d.succeeds n then count else min (d.delivers n) count
  ⟨some (d.succeeds n), put mem dst came fun i => d.content ((offs.setWidth 32).toNat + i), n + 1,
    [(dst, came)]⟩

section
variable (lay : BootLayout)

/-- `getBootImageFromSpiFlash_` -/
def getBootImageFromSpiFlash (d : SpiFlash) (srcOffset : Word) (n : ℕ) (mem : Mem) : FetchOutcome :=
  fetchBootImage lay (spiFlashReadBlock d) srcOffset n mem

/-- `getBootImageFromYModemPayload_`, over what `ymodem_receive` does. -/
def getBootImageFromYModemPayload (ymodemReceive : Mem → BitVec 32 × Mem) (mem : Mem) :
    BootImageResult :=
  let (receivedCount, mem) := ymodemReceive mem
  if receivedCount = 0 then
    ⟨false, 0, mem⟩
  else
    let mem := copy mem lay.bootImage lay.ddrTargetAddr BootImage.sizeOf
    if hssBootVerifyMagic mem lay.bootImage then ⟨true, lay.ddrTargetAddr, mem⟩
    else ⟨false, 0, mem⟩

/-- `getBootImageFromPayload_` of a payload in memory -/
def getBootImageFromPayload (payloadStart : Word) (mem : Mem) : BootImageResult :=
  ⟨hssBootVerifyMagic mem payloadStart, payloadStart, mem⟩

end

/-- A source of a boot image, with what its device does. -/
inductive BootSource
  | mmc (d : Mmc) (srcOffset : Word) (n : ℕ)
  | qspi (d : QspiFlash) (n : ℕ)
  | fpgaQspi (d : FpgaFlash) (turns n : ℕ)
  | spi (d : SpiFlash) (srcOffset : Word) (n : ℕ)
  | ymodemPayload (ymodemReceive : Mem → BitVec 32 × Mem)
  | payload (payloadStart : Word)

/-- `getBootImage` of a source, when it returns -/
def BootSource.getBootImage (lay : BootLayout) (mem : Mem) : BootSource → Option BootImageResult
  | mmc d srcOffset n => (getBootImageFromMmc lay d srcOffset n mem).returned
  | qspi d n => (getBootImageFromQspi lay d n mem).returned
  | fpgaQspi d turns n => (getBootImageFromFpgaQspi lay d turns n mem).returned
  | spi d srcOffset n => (getBootImageFromSpiFlash lay d srcOffset n mem).returned
  | ymodemPayload ymodemReceive => some (getBootImageFromYModemPayload lay ymodemReceive mem)
  | payload payloadStart => some (getBootImageFromPayload payloadStart mem)

/-- Where the image of a source is. -/
def BootSource.place (lay : BootLayout) : BootSource → Word
  | payload payloadStart => payloadStart
  | _ => lay.ddrTargetAddr

/-! ### The loader -/

/-- `HEADROOM_SZ` -/
def headroomSz : Word := 0x10000000

/-- `pBuffer` of `hss_loader_ymodem_loop` -/
def loaderBuffer (ddrHiStart : Word) : Word := ddrHiStart + headroomSz

/-- What case `'8'` of the loader's menu decompresses, once it has received: the memory after it. -/
def loaderDecompress (cfg : InitConfig) (miniz : Miniz) (ddrHiStart : Word) (received : Mem) :
    BitVec 32 × Mem :=
  hssDecompress cfg miniz received (loaderBuffer ddrHiStart + headroomSz) (loaderBuffer ddrHiStart)

/-! ### Input and output -/

/-- The header and the stream at `p` are apart from the output at `dst`, which is in the `size` bytes
set aside for it. -/
structure KeepsInput (cfg : InitConfig) (mem : Mem) (p dst : Word) (size : ℕ) : Prop where
  apart : Disjoint
    (span p (CompressedImage.sizeOf cfg.cryptoSigning +
      (CompressedImage.compressedImageLen mem p).toNat))
    (span dst (CompressedImage.originalImageLen mem p).toNat)
  inside : span dst (CompressedImage.originalImageLen mem p).toNat ⊆ span dst size

/-- The same of the lengths: the stream ends before the output starts, and the output before the
header does. -/
structure EndsBefore (cfg : InitConfig) (mem : Mem) (p dst : Word) : Prop where
  input : CompressedImage.sizeOf cfg.cryptoSigning +
    (CompressedImage.compressedImageLen mem p).toNat ≤ (dst - p).toNat
  output : (CompressedImage.originalImageLen mem p).toNat ≤ (p - dst).toNat

/-- Decompression by a miniz that inflates: between buffers that are apart, a stream that goes to its
end leaves what it inflates to. -/
structure Inflater extends Miniz where
  inflate : Bytes → Option Bytes
  inflates : ∀ mem src (inBytes : BitVec 32) dst (outBytes : BitVec 32),
    Disjoint (span src inBytes.toNat) (span dst outBytes.toNat) →
    (tinflDecompress mem src inBytes dst outBytes).status = .done →
    ∃ image, inflate (bytesAt mem src inBytes.toNat) = some image ∧
      ∀ i, ∀ less : i < image.length,
        (tinflDecompress mem src inBytes dst outBytes).mem (dst + BitVec.ofNat 64 i) =
          image.get ⟨i, less⟩

/-- The inflation of one stream, where others end too early. -/
def inflateStream (stream image : Bytes) (short : image.length < 2 ^ 32) : Inflater where
  allocates := true
  tinflDecompress mem src inBytes dst outBytes :=
    if bytesAt mem src inBytes.toNat = stream ∧ image.length ≤ outBytes.toNat then
      ⟨.done, BitVec.ofNat 64 stream.length, BitVec.ofNat 64 image.length,
        put mem dst image.length fun i => image.getD i 0⟩
    else
      ⟨.failedCannotMakeProgress, 0, 0, mem⟩
  inflate bytes := if bytes = stream then some image else none
  inflates mem src inBytes dst outBytes _ done := by
    split at done
    · next known =>
      refine ⟨image, if_pos known.1, fun i less => ?_⟩
      rw [if_pos known]
      change put mem dst image.length (fun i => image.getD i 0) (dst + BitVec.ofNat 64 i) = _
      rw [put_apply less (by omega), List.getD_eq_getElem?_getD, List.getElem?_eq_getElem less,
        Option.getD_some]
      rfl
    · cases done

variable {lay : BootLayout} {cfg : InitConfig} {mem : Mem} {p dst : Word} {size : ℕ}
  {got : BootImageResult}

theorem CompressedImage.sizeOf_pos (cryptoSigning : Bool) :
    0 < CompressedImage.sizeOf cryptoSigning := by
  cases cryptoSigning <;> decide

theorem keepsInput_iff (fits : size < 2 ^ 64) :
    KeepsInput cfg mem p dst size ↔
      (CompressedImage.originalImageLen mem p).toNat ≤ size ∧
        (CompressedImage.originalImageLen mem p = 0 ∨ EndsBefore cfg mem p dst) := by
  have header := CompressedImage.sizeOf_pos cfg.cryptoSigning
  have none : (CompressedImage.originalImageLen mem p).toNat = 0 ↔
      CompressedImage.originalImageLen mem p = 0 :=
    ⟨fun zero => BitVec.eq_of_toNat_eq zero, fun zero => by rw [zero]; rfl⟩
  constructor
  · rintro ⟨apart, inside⟩
    refine ⟨(span_subset_span_iff fits).mp inside, ?_⟩
    rcases span_disjoint_iff.mp apart with empty | empty | ⟨input, output⟩
    · omega
    · exact .inl (none.mp empty)
    · exact .inr ⟨input, output⟩
  · rintro ⟨inside, apart⟩
    refine ⟨span_disjoint_iff.mpr (.inr ?_), (span_subset_span_iff fits).mpr inside⟩
    rcases apart with empty | ends
    · exact .inl (none.mpr empty)
    · exact .inr ⟨ends.input, ends.output⟩

theorem not_endsBefore_self : ¬ EndsBefore cfg mem p p := by
  intro ends
  have input := ends.input
  rw [sub_self] at input
  have positive := CompressedImage.sizeOf_pos cfg.cryptoSigning
  exact absurd input (by show ¬ _ ≤ 0; omega)

/-- A provider that succeeds leaves the image at the target. -/
theorem fetchBootImage_pBootImage {readBlock : ℕ → Word → Word → Word → Mem → ReadOutcome}
    {srcOffset : Word} {n : ℕ}
    (comes : (fetchBootImage lay readBlock srcOffset n mem).result = some true) :
    (fetchBootImage lay readBlock srcOffset n mem).pBootImage = lay.ddrTargetAddr := by
  unfold fetchBootImage at comes ⊢
  dsimp only at comes ⊢
  split at comes
  · next header =>
    rw [if_pos header]
    split at comes
    · next magic => rw [if_pos magic]
    · exact absurd (Option.some.inj comes) Bool.false_ne_true
  · next failed => exact absurd comes failed

theorem getBootImageFromFpgaQspi_pBootImage {d : FpgaFlash} {turns n : ℕ}
    (comes : (getBootImageFromFpgaQspi lay d turns n mem).result = some true) :
    (getBootImageFromFpgaQspi lay d turns n mem).pBootImage = lay.ddrTargetAddr := by
  unfold getBootImageFromFpgaQspi at comes ⊢
  dsimp only at comes ⊢
  split at comes
  · next header =>
    rw [if_pos header]
    split at comes
    · next magic => rw [if_pos magic, if_pos comes]
    · exact absurd (Option.some.inj comes) Bool.false_ne_true
  · next failed => exact absurd comes failed

theorem FetchOutcome.of_returned {fetched : FetchOutcome} (returns : fetched.returned = some got)
    (delivers : got.result = true) :
    fetched.result = some true ∧ got.pBootImage = fetched.pBootImage := by
  obtain ⟨result, comes, rfl⟩ := Option.map_eq_some_iff.mp returns
  exact ⟨comes.trans (congrArg some delivers), rfl⟩

theorem BootSource.pBootImage_eq {source : BootSource}
    (returns : source.getBootImage lay mem = some got) (delivers : got.result = true) :
    got.pBootImage = source.place lay := by
  cases source with
  | mmc | qspi | spi =>
    obtain ⟨comes, same⟩ := FetchOutcome.of_returned returns delivers
    exact same.trans (fetchBootImage_pBootImage comes)
  | fpgaQspi =>
    obtain ⟨comes, same⟩ := FetchOutcome.of_returned returns delivers
    exact same.trans (getBootImageFromFpgaQspi_pBootImage comes)
  | ymodemPayload ymodemReceive =>
    obtain rfl := Option.some.inj returns
    unfold getBootImageFromYModemPayload at delivers ⊢
    dsimp only at delivers ⊢
    split at delivers
    · exact absurd delivers Bool.false_ne_true
    · next received =>
      rw [if_neg received]
      split at delivers
      · next magic =>
        rw [if_pos magic]
        rfl
      · exact absurd delivers Bool.false_ne_true
  | payload payloadStart =>
    obtain rfl := Option.some.inj returns
    rfl

theorem mzInflate_mem (miniz : Miniz) (nextIn nextOut : Word) (availIn availOut : BitVec 32) :
    (mzInflate miniz mem nextIn availIn nextOut availOut).2.2.2 =
      (miniz.tinflDecompress mem nextIn availIn nextOut availOut).mem := by
  unfold mzInflate
  dsimp only
  split <;> rfl

/-- The memory after a decompression that succeeds. -/
theorem mzUncompress_mem {miniz : Miniz} {pDest destLen pSource sourceLen : Word}
    (ok : (mzUncompress miniz mem pDest destLen pSource sourceLen).1 = mzOk) :
    (mzUncompress miniz mem pDest destLen pSource sourceLen).2.2 =
      (miniz.tinflDecompress mem pSource (sourceLen.setWidth 32) pDest (destLen.setWidth 32)).mem := by
  unfold mzUncompress at ok ⊢
  split at ok
  · exact absurd ok (show mzParamError ≠ mzOk by decide)
  · next range =>
    rw [if_neg range]
    split at ok
    · exact absurd ok (show mzMemError ≠ mzOk by decide)
    · next allocates =>
      rw [if_neg allocates, ← mzInflate_mem]
      dsimp only
      split <;> rfl

theorem hssDecompress_mem {miniz : Miniz} (magic : CompressedImage.magic mem p = compressedMagic)
    (headerCrc : headerCrcGood cfg mem p = true) :
    (hssDecompress cfg miniz mem p dst).2 = (uncompressImage cfg miniz mem p dst).2.2 := by
  unfold hssDecompress
  rw [if_neg (not_not.mpr magic), headerCrc]
  rfl

theorem setWidth_signExtend (len : BitVec 32) : (len.signExtend 64).setWidth 32 = len := by
  ext i inside
  rw [BitVec.getElem_setWidth, BitVec.getLsbD_signExtend, if_pos inside,
    decide_eq_true (by omega : i < 64), Bool.true_and, BitVec.getLsbD_eq_getElem inside]

/-- What an image whose input is kept inflates to is what its stream, as it was, inflates to. -/
theorem KeepsInput.inflates {miniz : Inflater} (keeps : KeepsInput cfg mem p dst size)
    (magic : CompressedImage.magic mem p = compressedMagic)
    (headerCrc : headerCrcGood cfg mem p = true)
    (status : (uncompressImage cfg miniz.toMiniz mem p dst).1 = mzOk) :
    ∃ image, miniz.inflate (bytesAt mem
        (p + BitVec.ofNat 64 (CompressedImage.sizeOf cfg.cryptoSigning))
        ((CompressedImage.compressedImageLen mem p).setWidth 32).toNat) = some image ∧
      ∀ i, ∀ less : i < image.length,
        (hssDecompress cfg miniz.toMiniz mem p dst).2 (dst + BitVec.ofNat 64 i) =
          image.get ⟨i, less⟩ := by
  obtain ⟨-, -, done⟩ := (mzUncompress_status _ _ _ _ _ _).resolve_right
    fun negative => mzOk_not_negative (status ▸ negative)
  rw [setWidth_signExtend] at done
  have apart := keeps.apart.mono
    (span_offset_subset (n := ((CompressedImage.compressedImageLen mem p).setWidth 32).toNat)
      (Nat.add_le_add_left (by rw [BitVec.toNat_setWidth]; exact Nat.mod_le _ _) _))
    (span_mono (BitVec.toNat_setWidth 32 (CompressedImage.originalImageLen mem p) ▸ Nat.mod_le _ _))
  obtain ⟨image, inflates, bytes⟩ := miniz.inflates _ _ _ _ _ apart done
  refine ⟨image, inflates, fun i less => ?_⟩
  rw [← bytes i less, hssDecompress_mem magic headerCrc, uncompressImage, mzUncompress_mem status,
    setWidth_signExtend]

/-- What the decompression of a delivered image keeps, by its source: all but a payload in memory are
fetched to where the output goes. -/
def BootSource.Keeps (lay : BootLayout) (mem : Mem) : BootSource → Prop
  | payload payloadStart =>
    (CompressedImage.originalImageLen mem payloadStart).toNat ≤ lay.size ∧
      (CompressedImage.originalImageLen mem payloadStart = 0 ∨
        EndsBefore lay.toInitConfig mem payloadStart lay.ddrTargetAddr)
  | _ => CompressedImage.originalImageLen mem lay.ddrTargetAddr = 0

theorem BootLayout.size_lt (lay : BootLayout) : lay.size < 2 ^ 64 := by
  have fits := lay.size_fits
  have positive := Nat.pos_of_ne_zero fun zero => lay.ddrTargetAddr_ne (BitVec.eq_of_toNat_eq zero)
  omega

theorem keepsInput_self_iff (fits : size < 2 ^ 64) :
    KeepsInput cfg mem p p size ↔ CompressedImage.originalImageLen mem p = 0 := by
  rw [keepsInput_iff fits]
  refine ⟨fun keeps => keeps.2.resolve_right not_endsBefore_self, fun none => ⟨?_, .inl none⟩⟩
  rw [none]
  exact Nat.zero_le _

theorem BootSource.keepsInput_iff {source : BootSource}
    (returns : source.getBootImage lay mem = some got) (delivers : got.DeliversCompressed) :
    KeepsInput lay.toInitConfig got.mem got.pBootImage lay.ddrTargetAddr lay.size ↔
      source.Keeps lay got.mem := by
  rw [BootSource.pBootImage_eq returns delivers.1]
  cases source with
  | payload payloadStart => exact Hss.keepsInput_iff lay.size_lt
  | _ => exact keepsInput_self_iff lay.size_lt

/-- The loader's input and output, with the headroom between them. -/
theorem loader_keepsInput_iff {ddrHiStart : Word} {received : Mem} :
    KeepsInput cfg received (loaderBuffer ddrHiStart + headroomSz) (loaderBuffer ddrHiStart)
        headroomSz.toNat ↔
      (CompressedImage.originalImageLen received (loaderBuffer ddrHiStart + headroomSz)).toNat ≤
          headroomSz.toNat ∧
        (CompressedImage.originalImageLen received (loaderBuffer ddrHiStart + headroomSz) = 0 ∨
          CompressedImage.sizeOf cfg.cryptoSigning + (CompressedImage.compressedImageLen received
            (loaderBuffer ddrHiStart + headroomSz)).toNat + headroomSz.toNat ≤ 2 ^ 64) := by
  rw [Hss.keepsInput_iff headroomSz.isLt]
  refine and_congr_right fun inside => or_congr_right ?_
  have ahead : loaderBuffer ddrHiStart + headroomSz - loaderBuffer ddrHiStart = headroomSz :=
    add_sub_cancel_left _ _
  have around : (loaderBuffer ddrHiStart - (loaderBuffer ddrHiStart + headroomSz)).toNat =
      2 ^ 64 - headroomSz.toNat := by
    rw [show loaderBuffer ddrHiStart - (loaderBuffer ddrHiStart + headroomSz) = -headroomSz by abel]
    rfl
  have small : headroomSz.toNat ≤ 2 ^ 64 := headroomSz.isLt.le
  constructor
  · rintro ⟨input, -⟩
    rw [around] at input
    omega
  · intro input
    refine ⟨by rw [around]; omega, ?_⟩
    rw [ahead]
    exact inside

/-- The images that are decompressed from where they were fetched to are never apart from what they
decompress to, unless that is empty; a payload in memory and a file that the loader received can be. -/
theorem hssDecompress_keepsInput_iff (lay : BootLayout) (miniz : Inflater) :
    (∀ source mem got, BootSource.getBootImage lay mem source = some got →
      got.DeliversCompressed →
      (KeepsInput lay.toInitConfig got.mem got.pBootImage lay.ddrTargetAddr lay.size ↔
        source.Keeps lay got.mem)) ∧
    (∀ ddrHiStart received, KeepsInput lay.toInitConfig received
          (loaderBuffer ddrHiStart + headroomSz) (loaderBuffer ddrHiStart) headroomSz.toNat ↔
        (CompressedImage.originalImageLen received (loaderBuffer ddrHiStart + headroomSz)).toNat ≤
            headroomSz.toNat ∧
          (CompressedImage.originalImageLen received (loaderBuffer ddrHiStart + headroomSz) = 0 ∨
            CompressedImage.sizeOf lay.cryptoSigning + (CompressedImage.compressedImageLen received
              (loaderBuffer ddrHiStart + headroomSz)).toNat + headroomSz.toNat ≤ 2 ^ 64)) ∧
    ∀ mem p dst size, KeepsInput lay.toInitConfig mem p dst size →
      CompressedImage.magic mem p = compressedMagic → headerCrcGood lay.toInitConfig mem p = true →
      (uncompressImage lay.toInitConfig miniz.toMiniz mem p dst).1 = mzOk →
      ∃ image, miniz.inflate (bytesAt mem
          (p + BitVec.ofNat 64 (CompressedImage.sizeOf lay.cryptoSigning))
          ((CompressedImage.compressedImageLen mem p).setWidth 32).toNat) = some image ∧
        ∀ i, ∀ less : i < image.length,
          (hssDecompress lay.toInitConfig miniz.toMiniz mem p dst).2 (dst + BitVec.ofNat 64 i) =
            image.get ⟨i, less⟩ :=
  ⟨fun _ _ _ returns delivers => BootSource.keepsInput_iff returns delivers,
    fun _ _ => loader_keepsInput_iff,
    fun _ _ _ _ keeps magic headerCrc status => keeps.inflates magic headerCrc status⟩

/-- A payload in memory: the stream of its three bytes is a stored block. -/
def storedPayload : Mem := fieldsMem
  [(0x1000, 4, 0xC08B8355), (0x1010, 4, 3191471999), (0x1020, 8, 14), (0x1028, 8, 3),
    (0x1070, 14, 0xEF00D401535348FFFC0003010178)]

def inflateStored : Inflater :=
  inflateStream
    [0x78, 0x01, 0x01, 0x03, 0x00, 0xFC, 0xFF, 0x48, 0x53, 0x53, 0x01, 0xD4, 0x00, 0xEF]
    [0x48, 0x53, 0x53] (by decide)

theorem hssDecompress_keepsInput_iff_storedPayload :
    KeepsInput icicleKitInit storedPayload 0x1000 0x103FC00000 icicleKitLayout.size ∧
      bytesAt (hssDecompress icicleKitInit inflateStored.toMiniz storedPayload 0x1000
        0x103FC00000).2 0x103FC00000 3 = [0x48, 0x53, 0x53] := by
  obtain ⟨sources, -, inflates⟩ := hssDecompress_keepsInput_iff icicleKitLayout inflateStored
  have delivers : (BootImageResult.mk true 0x1000 storedPayload).DeliversCompressed := by
    decide +kernel
  have magic : hssBootVerifyMagic storedPayload 0x1000 = true := by decide +kernel
  have returns : (BootSource.payload 0x1000).getBootImage icicleKitLayout storedPayload =
      some ⟨true, 0x1000, storedPayload⟩ := by
    rw [BootSource.getBootImage, getBootImageFromPayload, magic]
  have keeps := (sources _ _ _ returns delivers).mpr
    ⟨by decide +kernel, .inr ⟨by decide +kernel, by decide +kernel⟩⟩
  obtain ⟨image, inflated, bytes⟩ := inflates _ _ _ _ keeps delivers.2.2 (by decide +kernel)
    (by decide +kernel)
  have stream : inflateStored.inflate (bytesAt storedPayload
      (0x1000 + BitVec.ofNat 64 (CompressedImage.sizeOf icicleKitLayout.cryptoSigning))
      ((CompressedImage.compressedImageLen storedPayload 0x1000).setWidth 32).toNat) =
      some [0x48, 0x53, 0x53] := by decide +kernel
  obtain rfl := Option.some.inj (stream.symm.trans inflated)
  refine ⟨keeps, List.ext_getElem (by simp [bytesAt]) fun i less less' => ?_⟩
  simp only [bytesAt, List.getElem_map, List.getElem_range]
  exact bytes i less'

/-- A flash with a compressed image, of 12 bytes that are 2 inflated. -/
def compressedFlash : QspiFlash where
  content := fun i => fieldsMem [(0, 4, 0xC08B8355), (0x10, 4, 679320769), (0x20, 8, 12), (0x28, 8, 2),
    (0x70, 12, 0x4200420041FFFE0001010178), (1480, 8, 2048)] (BitVec.ofNat 64 i)
  delivers _ := 2 ^ 32

/-- What the QSPI provider fetches of it. -/
def compressedFetch : FetchOutcome :=
  getBootImageFromQspi icicleKitLayout compressedFlash 0 fun _ => 0

/-- That is where it is then decompressed to. -/
theorem compressedFlash_eatsInput :
    ¬ ∀ lay source mem got, BootSource.getBootImage lay mem source = some got →
      got.DeliversCompressed →
      KeepsInput lay.toInitConfig got.mem got.pBootImage lay.ddrTargetAddr lay.size := by
  intro keeps
  have comes : compressedFetch.result = some true := by decide +kernel
  have returns : compressedFetch.returned =
      some ⟨true, compressedFetch.pBootImage, compressedFetch.mem⟩ := by
    rw [FetchOutcome.returned, comes]
    rfl
  have kept := keeps icicleKitLayout (.qspi compressedFlash 0) _ _ returns (by decide +kernel)
  have place : compressedFetch.pBootImage = icicleKitLayout.ddrTargetAddr := by decide +kernel
  rw [place] at kept
  exact absurd ((keepsInput_self_iff icicleKitLayout.size_lt).mp kept) (by decide +kernel)

end Hss
