import Hss.Boot.Image

/-! Code signing: the check of an image's signature with either crypto library, and the validation
of an image with the check built in (`CONFIG_CRYPTO_SIGNING`). -/

namespace Hss

open ByteMemory

/-! ### The crypto libraries -/

/-- What the check uses of libecc (`CONFIG_CRYPTO_LIBECC`). -/
structure Libecc where
  /-- The affine point is one of the curve. -/
  ecPubKeyImportFromAffBuf : (pubKeyBuf : Bytes) → Bool
  ecVerify : (sig pubKey m : Bytes) → Bool

/-- What the check uses of the user crypto core (`CONFIG_CRYPTO_USER_CRYPTO`).  The two reversals
work in place on the words of a number. -/
structure UserCrypto where
  calWordReverse : Bytes → Bytes
  calByteReverseWord : Bytes → Bytes
  calEcPtValidate : (px py : Bytes) → Bool
  calEcdsaVerifyHash : (msg qx qy sigR sigS : Bytes) → Bool

inductive CryptoLibrary
  | libecc (lib : Libecc)
  | userCrypto (lib : UserCrypto)

/-- The header of an uncompressed key on the curve, in DER. -/
def x509Asn1EcDerP384Root : Bytes :=
  [0x30, 0x76, 0x30, 0x10, 0x06, 0x07, 0x2a, 0x86, 0x48, 0xce, 0x3d, 0x02,
    0x01, 0x06, 0x05, 0x2b, 0x81, 0x04, 0x00, 0x22, 0x03, 0x62, 0x00, 0x04]

/-- `strncmp` finds no difference: it compares up to the first zero byte. -/
def strncmpSame : Bytes → Bytes → ℕ → Bool
  | _, _, 0 => true
  | c₁ :: s₁, c₂ :: s₂, n + 1 => c₁ = c₂ && (c₁ = 0 || strncmpSame s₁ s₂ n)
  | s₁, s₂, _ + 1 => s₁.isEmpty && s₂.isEmpty

/-- `PUB_KEY_X_OFFSET` -/
def pubKeyXOffset : ℕ := 24

/-- `SHA384_DIGEST_SIZE` -/
def sha384DigestSize : ℕ := 48

/-- `HSS_Crypto_Verify_ECDSA_P384`.  The key is a constant of the build that each call works on its
own copy of. -/
def hssCryptoVerifyEcdsaP384 (lib : CryptoLibrary) (publicKey sigBuffer dataBuf : Bytes) : Bool :=
  strncmpSame x509Asn1EcDerP384Root publicKey 24 &&
    match lib with
    | .libecc lib =>
        let pubKey := publicKey.drop pubKeyXOffset
        lib.ecPubKeyImportFromAffBuf pubKey && lib.ecVerify sigBuffer pubKey dataBuf
    | .userCrypto lib =>
        let adjust (number : Bytes) := lib.calByteReverseWord (lib.calWordReverse number)
        let pubKeyX := adjust ((publicKey.drop pubKeyXOffset).take sha384DigestSize)
        let pubKeyY :=
          adjust ((publicKey.drop (pubKeyXOffset + sha384DigestSize)).take sha384DigestSize)
        let sigR := adjust (sigBuffer.take sha384DigestSize)
        let sigS := adjust ((sigBuffer.drop sha384DigestSize).take sha384DigestSize)
        lib.calEcPtValidate pubKeyX pubKeyY &&
          lib.calEcdsaVerifyHash dataBuf pubKeyX pubKeyY sigR sigS

/-! ### The check of an image -/

namespace BootImage

variable (mem : Mem) (pImage : Word)

/-- The address of `signature`, and of `ecdsaSig` in it. -/
def signature (pImage : Word) : Word := pImage + 1488
def ecdsaSig (pImage : Word) : Word := pImage + 1536

/-- `sizeof(struct HSS_Signature)` -/
def sizeOfSignature : ℕ := 144

/-- `ARRAY_SIZE(originalSig.ecdsaSig)` -/
def sizeOfEcdsaSig : ℕ := 96

/-- The addresses of an image: its header and the rest up to its length. -/
def extent : Set Word := span pImage (max sizeOf (bootImageLength mem pImage).toNat)

/-- No byte of the signature is set. -/
def SignatureBlank : Prop := ∀ a ∈ span (signature pImage) sizeOfSignature, mem a = 0

end BootImage

/-- The memory with the signature of an image blanked. -/
def blankSignature (mem : Mem) (pImage : Word) : Mem :=
  fill mem (BootImage.signature pImage) BootImage.sizeOfSignature 0

/-- The bytes that the libraries digest, which take a length of 32 bits. -/
def signedBytes (mem : Mem) (pImage : Word) : Bytes :=
  bytesAt mem pImage ((BootImage.bootImageLength mem pImage).setWidth 32).toNat

section Signing

variable (lib : CryptoLibrary) (publicKey : Bytes)

/-- `HSS_Boot_Secure_CheckCodeSigning`: a failure ends in `boot_secure_failure_`, which spins. -/
def hssBootSecureCheckCodeSigning (mem : Mem) (pBootImage : Word) : Except Halt (Bool × Mem) := do
  assert (pBootImage ≠ 0) .bootImageNotNull
  let originalSig := bytesAt mem (BootImage.ecdsaSig pBootImage) BootImage.sizeOfEcdsaSig
  let mem := blankSignature mem pBootImage
  let result := hssCryptoVerifyEcdsaP384 lib publicKey originalSig (signedBytes mem pBootImage)
  assert result .codeSigningFailed
  return (result, mem)

/-- `HSS_Boot_ValidateImage`, with code signing and without a custom flow -/
def hssBootValidateSignedImage (mem : Mem) (pImage : Word) : Except Halt (Bool × Mem) :=
  if pImage = 0 then
    return (false, mem)
  else if BootImage.magic mem pImage ≠ bootMagic then
    return (false, mem)
  else do
    let (signed, mem) ← hssBootSecureCheckCodeSigning lib publicKey mem pImage
    if !signed then
      return (false, mem)
    else
      return (validateCrc mem pImage, mem)

/-! ### What a validation leaves behind -/

variable {lib publicKey} {mem mem' : Mem} {pImage : Word}

theorem blankSignature_header {i : ℕ} (before : i < 1488) :
    blankSignature mem pImage (pImage + BitVec.ofNat 64 i) =
      mem (pImage + BitVec.ofNat 64 i) := by
  refine fill_of_notMem ?_
  rw [mem_span]
  unfold BootImage.signature BootImage.sizeOfSignature
  bv_omega

theorem magic_blankSignature :
    BootImage.magic (blankSignature mem pImage) pImage = BootImage.magic mem pImage := by
  unfold BootImage.magic load32
  refine congrArg (BitVec.ofNat 32) (loadLE_congr fun i inside => ?_)
  exact blankSignature_header (by omega)

/-- The checksum is taken of a copy whose signature is blank anyway. -/
theorem validateCrc_blankSignature :
    validateCrc (blankSignature mem pImage) pImage = validateCrc mem pImage := by
  have field (offset : ℕ) (before : offset + 4 ≤ 1488) :
      load32 (blankSignature mem pImage) (pImage + BitVec.ofNat 64 offset) =
        load32 mem (pImage + BitVec.ofNat 64 offset) := by
    unfold load32
    refine congrArg (BitVec.ofNat 32) (loadLE_congr fun i inside => ?_)
    rw [BitVec.add_assoc, ← BitVec.ofNat_add]
    exact blankSignature_header (by omega)
  have version : BootImage.version (blankSignature mem pImage) pImage =
      BootImage.version mem pImage := field 4 (by decide)
  have headerCrc : BootImage.headerCrc (blankSignature mem pImage) pImage =
      BootImage.headerCrc mem pImage := field 16 (by decide)
  have copy (n : ℕ) (inHeader : n ≤ 1632) :
      (List.range n).map (shadowHdr (blankSignature mem pImage) pImage) =
        (List.range n).map (shadowHdr mem pImage) := by
    refine List.map_congr_left fun i inside => ?_
    have less := List.mem_range.mp inside
    rw [shadowHdr, shadowHdr]
    by_cases before : i < 1488
    · exact if_congr Iff.rfl rfl (if_congr Iff.rfl rfl (blankSignature_header before))
    · rw [if_neg (by omega), if_pos (by omega), if_neg (by omega), if_pos (by omega)]
  rw [validateCrc, validateCrc, version, headerCrc, copy]
  split <;> decide

theorem blankSignature_blankSignature :
    blankSignature (blankSignature mem pImage) pImage = blankSignature mem pImage :=
  fill_fill

theorem blankSignature_eq_self_iff :
    blankSignature mem pImage = mem ↔ BootImage.SignatureBlank mem pImage :=
  fill_eq_self_iff

theorem ecdsaSig_blankSignature :
    bytesAt (blankSignature mem pImage) (BootImage.ecdsaSig pImage) BootImage.sizeOfEcdsaSig =
      List.replicate BootImage.sizeOfEcdsaSig 0 := by
  refine List.eq_replicate_iff.mpr ⟨by simp [bytesAt], fun byte present => ?_⟩
  obtain ⟨i, inside, rfl⟩ := List.mem_map.mp present
  have bound : i < 96 := List.mem_range.mp inside
  refine fill_of_mem ?_
  rw [mem_span]
  unfold BootImage.ecdsaSig BootImage.signature BootImage.sizeOfSignature
  bv_omega

theorem signature_subset_extent :
    span (BootImage.signature pImage) BootImage.sizeOfSignature ⊆ BootImage.extent mem pImage :=
  span_offset_subset (i := 1488) (le_max_left _ _)

/-- The check returns only when the signature is good, with the signature blanked. -/
theorem hssBootSecureCheckCodeSigning_eq_ok {result : Bool} :
    hssBootSecureCheckCodeSigning lib publicKey mem pImage = .ok (result, mem') ↔
      pImage ≠ 0 ∧
        hssCryptoVerifyEcdsaP384 lib publicKey
          (bytesAt mem (BootImage.ecdsaSig pImage) BootImage.sizeOfEcdsaSig)
          (signedBytes (blankSignature mem pImage) pImage) = true ∧
        result = true ∧ mem' = blankSignature mem pImage := by
  unfold hssBootSecureCheckCodeSigning
  simp only [bind_eq_ok, assert_eq_ok]
  constructor
  · rintro ⟨_, notNull, _, verified, returned⟩
    cases returned
    exact ⟨notNull, verified, verified, rfl⟩
  · rintro ⟨notNull, verified, rfl, rfl⟩
    exact ⟨(), notNull, (), verified, by rw [verified]; rfl⟩

/-- What a validation checks when it succeeds, and the memory that it leaves. -/
theorem hssBootValidateSignedImage_eq_ok :
    hssBootValidateSignedImage lib publicKey mem pImage = .ok (true, mem') ↔
      pImage ≠ 0 ∧ BootImage.magic mem pImage = bootMagic ∧
        hssCryptoVerifyEcdsaP384 lib publicKey
          (bytesAt mem (BootImage.ecdsaSig pImage) BootImage.sizeOfEcdsaSig)
          (signedBytes (blankSignature mem pImage) pImage) = true ∧
        validateCrc (blankSignature mem pImage) pImage = true ∧
        mem' = blankSignature mem pImage := by
  unfold hssBootValidateSignedImage
  by_cases null : pImage = 0
  · rw [if_pos null]
    exact ⟨nofun, fun checks => absurd null checks.1⟩
  by_cases magic : BootImage.magic mem pImage = bootMagic
  · rw [if_neg null, if_neg (not_not.mpr magic)]
    simp only [bind_eq_ok, Prod.exists, hssBootSecureCheckCodeSigning_eq_ok]
    constructor
    · rintro ⟨_, _, ⟨-, verified, rfl, rfl⟩, crc⟩
      have returned := Prod.ext_iff.mp (Except.ok.inj crc)
      exact ⟨null, magic, verified, returned.1, returned.2.symm⟩
    · rintro ⟨-, -, verified, crc, rfl⟩
      exact ⟨true, _, ⟨null, verified, rfl, rfl⟩, congrArg (fun b => Except.ok (b, _)) crc⟩
  · rw [if_neg null, if_pos magic]
    exact ⟨nofun, fun checks => absurd checks.2.1 magic⟩

/-- A validated image passes a second validation exactly when the key accepts the signature that is
all zero, since that is the one it then has. -/
theorem hssBootValidateSignedImage_again_iff
    (validated : hssBootValidateSignedImage lib publicKey mem pImage = .ok (true, mem')) :
    (∃ mem'', hssBootValidateSignedImage lib publicKey mem' pImage = .ok (true, mem'')) ↔
      hssCryptoVerifyEcdsaP384 lib publicKey (List.replicate BootImage.sizeOfEcdsaSig 0)
        (signedBytes mem' pImage) = true := by
  obtain ⟨notNull, magic, -, crc, rfl⟩ := hssBootValidateSignedImage_eq_ok.mp validated
  simp only [hssBootValidateSignedImage_eq_ok, magic_blankSignature, ecdsaSig_blankSignature,
    blankSignature_blankSignature]
  constructor
  · rintro ⟨_, -, -, verified, -, -⟩
    exact verified
  · intro verified
    exact ⟨_, notNull, magic, verified, crc, rfl⟩

/-- A validation that succeeds leaves the image as it was, so that the next one succeeds too, exactly
when the image carries no signature to begin with: the check does not put back what it blanks. -/
theorem hssBootValidateSignedImage_repeatable_iff
    (validated : hssBootValidateSignedImage lib publicKey mem pImage = .ok (true, mem')) :
    ((∀ a ∈ BootImage.extent mem pImage, mem' a = mem a) ∧
        ∃ mem'', hssBootValidateSignedImage lib publicKey mem' pImage = .ok (true, mem'')) ↔
      BootImage.SignatureBlank mem pImage := by
  obtain ⟨-, -, -, -, left⟩ := hssBootValidateSignedImage_eq_ok.mp validated
  constructor
  · rintro ⟨unchanged, -⟩ a inside
    rw [← unchanged a (signature_subset_extent inside), left]
    exact fill_of_mem inside
  · intro blank
    have same : mem' = mem := left.trans (blankSignature_eq_self_iff.mpr blank)
    rw [same] at validated ⊢
    exact ⟨fun _ _ => rfl, mem, validated⟩

end Signing

/-! ### A signed image -/

/-- A library that takes one signature to be good, and a key on the curve. -/
def oneSignature : CryptoLibrary :=
  .libecc ⟨fun _ => true, fun sig _ _ => sig = 7 :: List.replicate 47 0 ++ 9 :: List.replicate 47 0⟩

def curveKey : Bytes := x509Asn1EcDerP384Root ++ List.replicate 96 1

/-- An image at `0x1000` without harts, with a digest and the signature. -/
def signedImage : Mem := fieldsMem
  [(0x1000, 4, 0xB007C0DE), (0x1004, 4, 1), (0x1010, 4, 2741453806), (0x15C8, 8, 1632),
    (0x15D0, 48, 0x11), (0x1600, 48, 7), (0x1630, 48, 9)]

theorem signedImage_valid :
    hssBootValidateSignedImage oneSignature curveKey signedImage 0x1000 =
      .ok (true, blankSignature signedImage 0x1000) :=
  hssBootValidateSignedImage_eq_ok.mpr
    ⟨by decide, by decide +kernel, by decide +kernel,
      validateCrc_blankSignature.trans <| validateCrc_fieldsMem (n := BootImage.sizeOf)
        (by decide +kernel) (by decide) (by decide) (by decide +kernel), rfl⟩

theorem signedImage_repeatable_iff :
    ((∀ a ∈ BootImage.extent signedImage 0x1000, blankSignature signedImage 0x1000 a =
          signedImage a) ∧
        ∃ mem, hssBootValidateSignedImage oneSignature curveKey (blankSignature signedImage 0x1000)
          0x1000 = .ok (true, mem)) ↔
      BootImage.SignatureBlank signedImage 0x1000 :=
  hssBootValidateSignedImage_repeatable_iff signedImage_valid

/-- The signed image is valid, its signature is then gone, and it is not valid again. -/
theorem signedImage_notRepeatable :
    ∃ mem, hssBootValidateSignedImage oneSignature curveKey signedImage 0x1000 = .ok (true, mem) ∧
      (∃ a ∈ BootImage.extent signedImage 0x1000, mem a ≠ signedImage a) ∧
      ∀ mem', hssBootValidateSignedImage oneSignature curveKey mem 0x1000 ≠ .ok (true, mem') := by
  refine ⟨_, signedImage_valid, ⟨0x1600, ?_, by decide +kernel⟩, fun mem' again => ?_⟩
  · exact signature_subset_extent (a := 0x1600) (by decide)
  · have accepts := (hssBootValidateSignedImage_again_iff signedImage_valid).mp ⟨mem', again⟩
    have rejects : hssCryptoVerifyEcdsaP384 oneSignature curveKey
        (List.replicate BootImage.sizeOfEcdsaSig 0)
        (signedBytes (blankSignature signedImage 0x1000) 0x1000) = false := by decide +kernel
    exact Bool.false_ne_true (rejects.symm.trans accepts)

end Hss
