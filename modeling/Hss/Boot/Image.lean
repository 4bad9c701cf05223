import Hss.Lib.ByteMemory
import Hss.Lib.SlotTable
import Hss.Types

/-! Boot images in memory: the fields of the header and of the table entries, the validation of the
header, and the table of memory protection that writes are checked against. -/

namespace Hss

open ByteMemory SlotTable

/-- The physical memory of the system. -/
abbrev Mem := Memory 64 (BitVec 8)

@[irreducible] def load32 (mem : Mem) (p : Word) : BitVec 32 := BitVec.ofNat 32 (loadLE mem p 4)

@[irreducible] def load64 (mem : Mem) (p : Word) : Word := BitVec.ofNat 64 (loadLE mem p 8)

/-- The `n` bytes from `p` on. -/
def bytesAt (mem : Mem) (p : Word) (n : ℕ) : Bytes :=
  (List.range n).map fun i => mem (p + BitVec.ofNat 64 i)

/-- Memory that holds little-endian fields, each an address, a number of bytes and a value, and zero
elsewhere. -/
def fieldsMem (fields : List (ℕ × ℕ × ℕ)) : Mem := fun a =>
  match fields.find? fun (p, n, _) => p ≤ a.toNat ∧ a.toNat < p + n with
  | none => 0
  | some (p, _, value) => BitVec.ofNat 8 (value >>> (8 * (a.toNat - p)))

/-! ### `struct HSS_BootImage` -/

namespace BootImage

variable (mem : Mem) (pImage : Word)

def magic : BitVec 32 := load32 mem pImage
def version : BitVec 32 := load32 mem (pImage + 4)
def headerCrc : BitVec 32 := load32 mem (pImage + 16)
def chunkTableOffset : Word := load64 mem (pImage + 24)
def ziChunkTableOffset : Word := load64 mem (pImage + 32)
def bootImageLength : Word := load64 mem (pImage + 1480)

/-- The address of `hart[u - 1]`. -/
def hart (pImage : Word) (u : U54) : Word := pImage + 40 + 296 * BitVec.ofNat 64 (u.num - 1)

variable (u : U54)

def entryPoint : Word := load64 mem (hart pImage u)
def privMode : BitVec 8 := mem (hart pImage u + 8)
def flags : BitVec 8 := mem (hart pImage u + 9)
def numChunks : Word := load64 mem (hart pImage u + 16)
def firstChunk : Word := load64 mem (hart pImage u + 24)
def lastChunk : Word := load64 mem (hart pImage u + 32)

/-- The first `n` characters of `hart[u - 1].name`. -/
def name (n : ℕ) : List (BitVec 8) := (List.range n).map fun i => mem (hart pImage u + 40 + i)

/-- `sizeof(struct HSS_BootImage)` -/
def sizeOf : ℕ := 1632

/-- `sizeof(struct HSS_BootImage_v0)` -/
def sizeOfV0 : ℕ := 1552

end BootImage

/-- The flags of a hart. -/
def bootFlagSkipOpensbi : BitVec 8 := 0x40
def bootFlagAllowColdReboot : BitVec 8 := 0x20
def bootFlagAllowWarmReboot : BitVec 8 := 0x10
def bootFlagSkipAutoboot : BitVec 8 := 0x08

/-- The flag of a chunk's owner. -/
def bootFlagAncilliaryData : BitVec 32 := 0x80

/-! ### Table entries -/

/-- `struct HSS_BootChunkDesc`, at `p` -/
structure ChunkDesc where
  owner : BitVec 32
  loadAddr : Word
  execAddr : Word
  size : Word
  deriving DecidableEq, Repr

def chunkDesc (mem : Mem) (p : Word) : ChunkDesc :=
  ⟨load32 mem p, load64 mem (p + 8), load64 mem (p + 16), load64 mem (p + 24)⟩

/-- `sizeof(struct HSS_BootChunkDesc)` -/
def sizeOfChunkDesc : Word := 40

/-- `struct HSS_BootZIChunkDesc`, at `p` -/
structure ZiChunkDesc where
  owner : BitVec 32
  execAddr : Word
  size : Word
  deriving DecidableEq, Repr

def ziChunkDesc (mem : Mem) (p : Word) : ZiChunkDesc :=
  ⟨load32 mem p, load64 mem (p + 8), load64 mem (p + 16)⟩

/-- `sizeof(struct HSS_BootZIChunkDesc)` -/
def sizeOfZiChunkDesc : Word := 24

/-- The chunk is for hart `u`, as program or as ancilliary data. -/
def ChunkDesc.OwnedBy (chunk : ChunkDesc) (u : U54) : Prop :=
  chunk.owner &&& ~~~bootFlagAncilliaryData = BitVec.ofNat 32 u.num

instance (chunk : ChunkDesc) (u : U54) : Decidable (chunk.OwnedBy u) :=
  inferInstanceAs (Decidable (_ = _))

def ZiChunkDesc.OwnedBy (chunk : ZiChunkDesc) (u : U54) : Prop :=
  chunk.owner = BitVec.ofNat 32 u.num

instance (chunk : ZiChunkDesc) (u : U54) : Decidable (chunk.OwnedBy u) :=
  inferInstanceAs (Decidable (_ = _))

/-! ### Validation -/

/-- `CRC32_genTable_`: entry `i` of the table. -/
def precalcTable (i : BitVec 8) : BitVec 32 :=
  (List.range 8).foldl
    (fun crc _ => if crc &&& 1 = 1 then crc >>> 1 ^^^ 0xEDB88320 else crc >>> 1)
    (i.setWidth 32)

/-- `CRC32_updateByte` -/
def crc32UpdateByte (crc : BitVec 32) (byte : BitVec 8) : BitVec 32 :=
  crc >>> 8 ^^^ precalcTable (crc.setWidth 8 ^^^ byte)

/-- `CRC32_calculate` -/
def crc32Calculate (input : List (BitVec 8)) : BitVec 32 :=
  ~~~input.foldl crc32UpdateByte (~~~0)

/-- Byte `i` of the copy of the header that the checksum is taken of: the checksum and the signature
are zero. -/
def shadowHdr (mem : Mem) (pImage : Word) (i : ℕ) : BitVec 8 :=
  if 16 ≤ i ∧ i < 20 then 0
  else if 1488 ≤ i ∧ i < 1632 then 0
  else mem (pImage + i)

/-- `validateCrc_` -/
def validateCrc (mem : Mem) (pImage : Word) : Bool :=
  let crcLen := if BootImage.version mem pImage = 0 then BootImage.sizeOfV0 else BootImage.sizeOf
  crc32Calculate ((List.range crcLen).map (shadowHdr mem pImage)) = BootImage.headerCrc mem pImage

/-- `mHSS_BOOT_MAGIC` -/
def bootMagic : BitVec 32 := 0xB007C0DE

/-- `HSS_Boot_ValidateImage`, without code signing and without a custom flow -/
def hssBootValidateImage (mem : Mem) (pImage : Word) : Bool :=
  pImage ≠ 0 && BootImage.magic mem pImage = bootMagic && validateCrc mem pImage

/-! ### Evaluation -/

/-- A turn of the loop of `CRC32_genTable_`, on naturals. -/
def crcTurn (crc : ℕ) : ℕ := crc / 2 ^^^ crc % 2 * 0xEDB88320

/-- `CRC32_updateByte`, on naturals. -/
def crcByte (crc : ℕ) (byte : BitVec 8) : ℕ :=
  crc / 256 ^^^ crcTurn (crcTurn (crcTurn (crcTurn (crcTurn (crcTurn (crcTurn (crcTurn
    ((crc ^^^ byte.toNat) % 256))))))))

theorem toNat_crcTurn (crc : BitVec 32) :
    (if crc &&& 1 = 1 then crc >>> 1 ^^^ 0xEDB88320 else crc >>> 1).toNat = crcTurn crc.toNat := by
  have odd : crc &&& 1 = 1 ↔ crc.toNat % 2 = 1 := by
    rw [← BitVec.toNat_inj, BitVec.toNat_and]
    exact Nat.and_one_is_mod crc.toNat ▸ Iff.rfl
  rw [crcTurn]
  split
  next one =>
    rw [odd.mp one, Nat.one_mul, BitVec.toNat_xor, BitVec.toNat_ushiftRight, Nat.shiftRight_one]
    rfl
  next other =>
    have even : crc.toNat % 2 = 0 := (Nat.mod_two_eq_zero_or_one _).resolve_right (odd.not.mp other)
    rw [even, Nat.zero_mul, Nat.xor_zero, BitVec.toNat_ushiftRight, Nat.shiftRight_one]

theorem toNat_crc32UpdateByte (crc : BitVec 32) (byte : BitVec 8) :
    (crc32UpdateByte crc byte).toNat = crcByte crc.toNat byte := by
  have index : ((crc.setWidth 8 ^^^ byte).setWidth 32 : BitVec 32).toNat =
      (crc.toNat ^^^ byte.toNat) % 256 := by
    rw [BitVec.toNat_setWidth_of_le (by decide), BitVec.toNat_xor, BitVec.toNat_setWidth,
      show 256 = 2 ^ 8 from rfl, Nat.xor_mod_two_pow, Nat.mod_eq_of_lt byte.isLt]
  rw [crc32UpdateByte, BitVec.toNat_xor, BitVec.toNat_ushiftRight, Nat.shiftRight_eq_div_pow,
    precalcTable, crcByte, ← index]
  simp only [← toNat_crcTurn]
  rfl

/-- The checksum by natural numbers, which evaluates faster. -/
theorem crc32Calculate_eq (input : List (BitVec 8)) :
    crc32Calculate input = ~~~BitVec.ofNat 32 (input.foldl crcByte 0xFFFFFFFF) := by
  have turns (crc : BitVec 32) :
      (input.foldl crc32UpdateByte crc).toNat = input.foldl crcByte crc.toNat := by
    induction input generalizing crc with
    | nil => rfl
    | cons byte input ih => rw [List.foldl_cons, List.foldl_cons, ih, toNat_crc32UpdateByte]
  have all : _ = input.foldl crcByte 0xFFFFFFFF := turns (~~~0)
  refine congrArg _ (BitVec.eq_of_toNat_eq ?_)
  rw [BitVec.toNat_ofNat, ← all, Nat.mod_eq_of_lt (BitVec.isLt _)]

/-- The bytes from `start` on of memory that holds the fields, piece by piece: those of the first field,
and what the others leave on both sides of it. -/
def fieldsBytes : List (ℕ × ℕ × ℕ) → ℕ → ℕ → Bytes
  | [], _, n => List.replicate n 0
  | (p, k, value) :: fields, start, n =>
      if p + k ≤ start ∨ start + n ≤ p then fieldsBytes fields start n
      else if start ≤ p ∧ p + k ≤ start + n then
        fieldsBytes fields start (p - start) ++
          ((List.range k).map fun i => BitVec.ofNat 8 (value >>> (8 * i))) ++
          fieldsBytes fields (p + k) (start + n - (p + k))
      else (List.range n).map fun i =>
        fieldsMem ((p, k, value) :: fields) (BitVec.ofNat 64 (start + i))

theorem fieldsMem_cons (p k value : ℕ) (fields : List (ℕ × ℕ × ℕ)) (a : Word) :
    fieldsMem ((p, k, value) :: fields) a =
      if p ≤ a.toNat ∧ a.toNat < p + k then BitVec.ofNat 8 (value >>> (8 * (a.toNat - p)))
      else fieldsMem fields a := by
  by_cases inside : p ≤ a.toNat ∧ a.toNat < p + k
  · rw [fieldsMem, List.find?_cons_of_pos (by simpa using inside), if_pos inside]
  · rw [fieldsMem, List.find?_cons_of_neg (by simpa using inside), if_neg inside, fieldsMem]

theorem toNat_place {start i n : ℕ} (inMem : start + n ≤ 2 ^ 64) (inside : i < n) :
    (BitVec.ofNat 64 (start + i)).toNat = start + i := by
  rw [BitVec.toNat_ofNat, Nat.mod_eq_of_lt (by omega)]

theorem fieldsBytes_eq {fields : List (ℕ × ℕ × ℕ)} {start n : ℕ} (inMem : start + n ≤ 2 ^ 64) :
    fieldsBytes fields start n =
      (List.range n).map fun i => fieldsMem fields (BitVec.ofNat 64 (start + i)) := by
  induction fields generalizing start n with
  | nil =>
    rw [fieldsBytes]
    exact List.ext_getElem (by simp) (by simp [fieldsMem])
  | cons field fields ih =>
    obtain ⟨p, k, value⟩ := field
    rw [fieldsBytes]
    split
    next apart =>
      rw [ih inMem]
      refine List.map_congr_left fun i inside => ?_
      have less := List.mem_range.mp inside
      rw [fieldsMem_cons, toNat_place inMem less, if_neg (by omega)]
    next meets =>
      split
      next within =>
        obtain ⟨before, rfl⟩ := Nat.exists_eq_add_of_le within.1
        obtain ⟨after, rfl⟩ : ∃ after, n = before + k + after :=
          Nat.exists_eq_add_of_le (by omega)
        rw [ih (by omega), ih (by omega), Nat.add_sub_cancel_left,
          show start + (before + k + after) - (start + before + k) = after by omega,
          List.range_add, List.range_add, List.map_append, List.map_append, List.map_map, List.map_map]
        refine congr (congrArg _ (congr (congrArg _ ?_) ?_)) ?_
        · refine List.map_congr_left fun i inside => ?_
          have less := List.mem_range.mp inside
          rw [fieldsMem_cons, toNat_place inMem (by omega), if_neg (by omega)]
        · refine List.map_congr_left fun i inside => ?_
          have less := List.mem_range.mp inside
          rw [Function.comp_apply, fieldsMem_cons, toNat_place inMem (by omega), if_pos (by omega),
            ← Nat.add_assoc, Nat.add_sub_cancel_left]
        · refine List.map_congr_left fun i inside => ?_
          have less := List.mem_range.mp inside
          rw [Function.comp_apply, fieldsMem_cons, toNat_place inMem (by omega), if_neg (by omega),
            Nat.add_assoc, Nat.add_assoc, Nat.add_assoc]
      next => rfl

/-- The copy of the header that the checksum is taken of has the fields and two that are zero. -/
theorem shadowHdr_fieldsMem {fields : List (ℕ × ℕ × ℕ)} {p : Word} {n : ℕ}
    (inHeader : n ≤ BootImage.sizeOf) (inMem : p.toNat + n ≤ 2 ^ 64) :
    (List.range n).map (shadowHdr (fieldsMem fields) p) =
      fieldsBytes ((p.toNat + 16, 4, 0) :: (p.toNat + 1488, n - 1488, 0) :: fields) p.toNat n := by
  rw [fieldsBytes_eq inMem]
  refine List.map_congr_left fun i inside => ?_
  have less := List.mem_range.mp inside
  have toNat := toNat_place inMem less
  have place : BitVec.ofNat 64 (p.toNat + i) = p + (i : Word) := by
    rw [BitVec.ofNat_add, BitVec.ofNat_toNat, BitVec.setWidth_eq]
    rfl
  have header : p.toNat + 16 ≤ p.toNat + i ∧ p.toNat + i < p.toNat + 16 + 4 ↔ 16 ≤ i ∧ i < 20 := by
    omega
  have signature : p.toNat + 1488 ≤ p.toNat + i ∧ p.toNat + i < p.toNat + 1488 + (n - 1488) ↔
      1488 ≤ i ∧ i < 1632 := by
    rw [BootImage.sizeOf] at inHeader
    omega
  rw [fieldsMem_cons, fieldsMem_cons, toNat, shadowHdr, Nat.zero_shiftRight, Nat.zero_shiftRight, place]
  simp only [header, signature]
  rfl

theorem validateCrc_fieldsMem {fields : List (ℕ × ℕ × ℕ)} {p : Word} {n : ℕ}
    (length : (if BootImage.version (fieldsMem fields) p = 0 then BootImage.sizeOfV0
      else BootImage.sizeOf) = n) (inHeader : n ≤ BootImage.sizeOf) (inMem : p.toNat + n ≤ 2 ^ 64)
    (crc : ~~~BitVec.ofNat 32 ((fieldsBytes ((p.toNat + 16, 4, 0) :: (p.toNat + 1488, n - 1488, 0) ::
      fields) p.toNat n).foldl crcByte 0xFFFFFFFF) = BootImage.headerCrc (fieldsMem fields) p) :
    validateCrc (fieldsMem fields) p = true := by
  rw [validateCrc, length, shadowHdr_fieldsMem inHeader inMem, crc32Calculate_eq, crc]
  exact decide_eq_true rfl

theorem hssBootValidateImage_fieldsMem {fields : List (ℕ × ℕ × ℕ)} {p : Word}
    (magic : p ≠ 0 ∧ BootImage.magic (fieldsMem fields) p = bootMagic)
    (crc : validateCrc (fieldsMem fields) p = true) :
    hssBootValidateImage (fieldsMem fields) p = true := by
  rw [hssBootValidateImage, crc, decide_eq_true magic.1, decide_eq_true magic.2]
  rfl

/-! ### What is read -/

section
variable {mem mem' : Mem} {p pImage : Word} {u : U54}

theorem load32_congr (same : Set.EqOn mem mem' (span p 4)) : load32 mem p = load32 mem' p := by
  rw [load32, load32, loadLE_congr fun i inside => same (add_mem_span inside)]

theorem load64_congr (same : Set.EqOn mem mem' (span p 8)) : load64 mem p = load64 mem' p := by
  rw [load64, load64, loadLE_congr fun i inside => same (add_mem_span inside)]

/-- The validation of an image reads its header only. -/
theorem hssBootValidateImage_congr (same : Set.EqOn mem mem' (span pImage BootImage.sizeOf)) :
    hssBootValidateImage mem pImage = hssBootValidateImage mem' pImage := by
  have field (offset : ℕ) (inside : offset + 4 ≤ BootImage.sizeOf) :
      load32 mem (pImage + BitVec.ofNat 64 offset) = load32 mem' (pImage + BitVec.ofNat 64 offset) :=
    load32_congr (same.mono (span_offset_subset inside))
  have magic : BootImage.magic mem pImage = BootImage.magic mem' pImage := by
    simpa [BootImage.magic] using field 0 (by decide)
  have version : BootImage.version mem pImage = BootImage.version mem' pImage := field 4 (by decide)
  have headerCrc : BootImage.headerCrc mem pImage = BootImage.headerCrc mem' pImage :=
    field 16 (by decide)
  have length : (if BootImage.version mem' pImage = 0 then BootImage.sizeOfV0 else BootImage.sizeOf) ≤
      BootImage.sizeOf := by
    split <;> decide
  have bytes (n : ℕ) (inside : n ≤ BootImage.sizeOf) :
      (List.range n).map (shadowHdr mem pImage) = (List.range n).map (shadowHdr mem' pImage) := by
    refine List.map_congr_left fun i member => ?_
    have byte := same (add_mem_span ((List.mem_range.mp member).trans_le inside))
    simp only [shadowHdr]
    split
    · rfl
    · split
      · rfl
      · exact byte
  simp only [hssBootValidateImage, validateCrc, magic, version, headerCrc, bytes _ length]

end

/-! ### Memory protection -/

inductive AddressMatchingMode
  | nullRegion | tor | na4 | napot
  deriving DecidableEq, Repr

/-- `struct PmpEntry` -/
structure PmpEntry where
  baseAddr : Word
  size : Word
  A : AddressMatchingMode
  R : Bool
  W : Bool
  X : Bool
  L : Bool
  deriving DecidableEq, Repr

/-- `MAX_NUM_PMPS` -/
def maxNumPmps : ℕ := 16

/-- The entry is active and holds the region, with an end that is compared strictly. -/
def PmpEntry.Matches (entry : PmpEntry) (regionStart : Word) (length : Word) : Bool :=
  entry.A ≠ .nullRegion && entry.baseAddr.sle regionStart &&
    (regionStart + length).slt (entry.baseAddr + entry.size)

/-- `HSS_PMP_CheckWrite` on the decoded table of a hart: the first entry that matches decides, and a
region that none matches is permitted. -/
def hssPmpCheckWrite (pmpEntry : ℕ → PmpEntry) (regionStart length : Word) : Bool :=
  match firstBelow maxNumPmps fun i => (pmpEntry i).Matches regionStart length with
  | none => true
  | some i => (pmpEntry i).W

/-- `HSS_PMP_CheckRead`, where a region that no entry matches is not permitted. -/
def hssPmpCheckRead (pmpEntry : ℕ → PmpEntry) (regionStart length : Word) : Bool :=
  match firstBelow maxNumPmps fun i => (pmpEntry i).Matches regionStart length with
  | none => false
  | some i => (pmpEntry i).R

/-- `HSS_DDR_IsAddrInDDR` -/
def hssDdrIsAddrInDdr (cfg : Config) (addr : Word) : Bool :=
  (cfg.ddr.1 ≤ addr && addr ≤ cfg.ddr.1 + cfg.ddr.2) ||
    (cfg.ddrHi.1 ≤ addr && addr ≤ cfg.ddrHi.1 + cfg.ddrHi.2)

end Hss
