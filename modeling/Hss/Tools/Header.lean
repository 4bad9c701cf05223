import Hss.Boot.Image
import Hss.Lib.ByteLayout

/-! The header of a boot image as the tools lay it out, and what the validation makes of it. -/

namespace Hss

open ByteMemory

/-- How a tool ends without a result: it exits after a write that failed, an assertion fails, it does
what C leaves undefined, or it loops for ever. -/
inductive ToolError
  | exits | assertion | undefined | hangs
  deriving DecidableEq, Repr

/-- `BOOT_IMAGE_MAX_NAME_LEN` -/
def bootImageMaxNameLen : ℕ := 256

/-- The entry of a hart in `struct HSS_BootImage` -/
structure HartHeader where
  entryPoint : Word
  privMode : BitVec 8
  flags : BitVec 8
  numChunks : Word
  firstChunk : Word
  lastChunk : Word
  name : Bytes
  length_name : name.length = bootImageMaxNameLen

/-- `struct HSS_BootImage` -/
structure BootImageHeader where
  magic : BitVec 32
  version : BitVec 32
  headerLength : Word
  headerCrc : BitVec 32
  chunkTableOffset : Word
  ziChunkTableOffset : Word
  hart : U54 → HartHeader
  setName : Bytes
  length_setName : setName.length = bootImageMaxNameLen
  bootImageLength : Word
  signature : Bytes
  length_signature : signature.length = 144

def HartHeader.bytes (h : HartHeader) : Bytes :=
  bytesLE 8 h.entryPoint.toNat ++ [h.privMode, h.flags] ++ List.replicate 6 0 ++
    bytesLE 8 h.numChunks.toNat ++ bytesLE 8 h.firstChunk.toNat ++ bytesLE 8 h.lastChunk.toNat ++ h.name

namespace BootImageHeader

theorem length_noSignature : (List.replicate 144 (0 : BitVec 8)).length = 144 :=
  List.length_replicate

/-- The fields before the checksum. -/
def front (h : BootImageHeader) : Bytes :=
  bytesLE 4 h.magic.toNat ++ bytesLE 4 h.version.toNat ++ bytesLE 8 h.headerLength.toNat

/-- The fields between the checksum and the signature. -/
def middle (h : BootImageHeader) : Bytes :=
  List.replicate 4 0 ++ bytesLE 8 h.chunkTableOffset.toNat ++ bytesLE 8 h.ziChunkTableOffset.toNat ++
    (h.hart .u54_1).bytes ++ (h.hart .u54_2).bytes ++ (h.hart .u54_3).bytes ++ (h.hart .u54_4).bytes ++
    h.setName ++ bytesLE 8 h.bootImageLength.toNat

/-- The structure in a file. -/
def bytes (h : BootImageHeader) : Bytes :=
  h.front ++ bytesLE 4 h.headerCrc.toNat ++ h.middle ++ h.signature

/-- The header with neither checksum nor signature, which the checksum is taken of. -/
def blank (h : BootImageHeader) : BootImageHeader :=
  { h with headerCrc := 0, signature := List.replicate 144 0, length_signature := length_noSignature }

end BootImageHeader

variable {h : BootImageHeader} {mem : Mem} {p : Word}

@[simp] theorem HartHeader.length_bytes (h : HartHeader) : h.bytes.length = 296 := by
  simp [HartHeader.bytes, h.length_name, bootImageMaxNameLen]

@[simp] theorem BootImageHeader.length_front (h : BootImageHeader) : h.front.length = 16 := by
  simp [front]

@[simp] theorem BootImageHeader.length_middle (h : BootImageHeader) : h.middle.length = 1468 := by
  simp [middle, h.length_setName, bootImageMaxNameLen]

@[simp] theorem BootImageHeader.length_bytes (h : BootImageHeader) :
    h.bytes.length = BootImage.sizeOf := by
  simp [bytes, h.length_signature, BootImage.sizeOf]

theorem load32_of_holds {k : ℕ} {value : BitVec 32}
    (holds : HoldsAt mem p k (bytesLE 4 value.toNat)) :
    load32 mem (p + BitVec.ofNat 64 k) = value := by
  have inside := value.isLt
  rw [load32, holds.loadLE, Nat.mod_eq_of_lt (by omega), BitVec.ofNat_toNat, BitVec.setWidth_eq]

theorem load64_of_holds {k : ℕ} {value : Word} (holds : HoldsAt mem p k (bytesLE 8 value.toNat)) :
    load64 mem (p + BitVec.ofNat 64 k) = value := by
  have inside := value.isLt
  rw [load64, holds.loadLE, Nat.mod_eq_of_lt (by omega), BitVec.ofNat_toNat, BitVec.setWidth_eq]

/-- The header is in memory at `p`. -/
abbrev BootImageHeader.InMem (h : BootImageHeader) (mem : Mem) (p : Word) : Prop :=
  HoldsAt mem p 0 h.bytes

theorem BootImageHeader.InMem.parts (holds : h.InMem mem p) :
    HoldsAt mem p 0 h.front ∧ HoldsAt mem p 16 (bytesLE 4 h.headerCrc.toNat) ∧
      HoldsAt mem p 20 h.middle ∧ HoldsAt mem p 1488 h.signature := by
  simpa only [InMem, bytes, holdsAt_append, List.length_append, length_front, length_bytesLE,
    length_middle, Nat.zero_add, Nat.reduceAdd, and_assoc] using holds

theorem BootImageHeader.InMem.magic (holds : h.InMem mem p) : BootImage.magic mem p = h.magic := by
  have front := holds.parts.1
  simp only [BootImageHeader.front, holdsAt_append] at front
  have load := load32_of_holds front.1.1
  rwa [BitVec.add_zero] at load

theorem BootImageHeader.InMem.version (holds : h.InMem mem p) :
    BootImage.version mem p = h.version := by
  have front := holds.parts.1
  simp only [BootImageHeader.front, holdsAt_append] at front
  exact load32_of_holds (k := 4) (by simpa using front.1.2)

theorem BootImageHeader.InMem.headerCrc (holds : h.InMem mem p) :
    BootImage.headerCrc mem p = h.headerCrc :=
  load32_of_holds (k := 16) holds.parts.2.1

theorem BootImageHeader.InMem.chunkTableOffset (holds : h.InMem mem p) :
    BootImage.chunkTableOffset mem p = h.chunkTableOffset := by
  have middle := holds.parts.2.2.1
  simp only [BootImageHeader.middle, holdsAt_append, and_assoc] at middle
  exact load64_of_holds (k := 24) (by simpa using middle.2.1)

theorem BootImageHeader.InMem.ziChunkTableOffset (holds : h.InMem mem p) :
    BootImage.ziChunkTableOffset mem p = h.ziChunkTableOffset := by
  have middle := holds.parts.2.2.1
  simp only [BootImageHeader.middle, holdsAt_append, and_assoc] at middle
  exact load64_of_holds (k := 32) (by simpa using middle.2.2.1)

theorem BootImage.hart_eq (p : Word) (u : U54) :
    BootImage.hart p u = p + BitVec.ofNat 64 (40 + 296 * (u.num - 1)) := by
  have offset : (40 : Word) + 296 * BitVec.ofNat 64 (u.num - 1) =
      BitVec.ofNat 64 (40 + 296 * (u.num - 1)) := by cases u <;> rfl
  rw [BootImage.hart, BitVec.add_assoc, offset]

/-- The entry of a hart is where the reader looks for it. -/
theorem BootImageHeader.InMem.hart (holds : h.InMem mem p) (u : U54) :
    HoldsAt mem p (40 + 296 * (u.num - 1)) (h.hart u).bytes := by
  have middle := holds.parts.2.2.1
  simp only [BootImageHeader.middle, holdsAt_append, List.length_append, length_bytesLE,
    List.length_replicate, HartHeader.length_bytes, Nat.reduceAdd, and_assoc] at middle
  obtain ⟨-, -, -, first, second, third, fourth, -⟩ := middle
  cases u with
  | u54_1 => exact first
  | u54_2 => exact second
  | u54_3 => exact third
  | u54_4 => exact fourth

theorem BootImageHeader.InMem.entryPoint (holds : h.InMem mem p) (u : U54) :
    BootImage.entryPoint mem p u = (h.hart u).entryPoint := by
  have entry := holds.hart u
  simp only [HartHeader.bytes, holdsAt_append, and_assoc] at entry
  rw [BootImage.entryPoint, BootImage.hart_eq]
  exact load64_of_holds entry.1

theorem BootImageHeader.InMem.firstChunk (holds : h.InMem mem p) (u : U54) :
    BootImage.firstChunk mem p u = (h.hart u).firstChunk := by
  have entry := holds.hart u
  simp only [HartHeader.bytes, holdsAt_append, List.length_append, length_bytesLE,
    List.length_replicate, List.length_cons, List.length_nil, Nat.reduceAdd, and_assoc] at entry
  rw [BootImage.firstChunk, BootImage.hart_eq]
  have load := load64_of_holds entry.2.2.2.2.1
  rwa [← offset_offset] at load

theorem BootImageHeader.InMem.numChunks (holds : h.InMem mem p) (u : U54) :
    BootImage.numChunks mem p u = (h.hart u).numChunks := by
  have entry := holds.hart u
  simp only [HartHeader.bytes, holdsAt_append, List.length_append, length_bytesLE,
    List.length_replicate, List.length_cons, List.length_nil, Nat.reduceAdd, and_assoc] at entry
  rw [BootImage.numChunks, BootImage.hart_eq]
  have load := load64_of_holds entry.2.2.2.1
  rwa [← offset_offset] at load

theorem BootImageHeader.InMem.lastChunk (holds : h.InMem mem p) (u : U54) :
    BootImage.lastChunk mem p u = (h.hart u).lastChunk := by
  have entry := holds.hart u
  simp only [HartHeader.bytes, holdsAt_append, List.length_append, length_bytesLE,
    List.length_replicate, List.length_cons, List.length_nil, Nat.reduceAdd, and_assoc] at entry
  rw [BootImage.lastChunk, BootImage.hart_eq]
  have load := load64_of_holds entry.2.2.2.2.2.1
  rwa [← offset_offset] at load

theorem BootImageHeader.InMem.privMode (holds : h.InMem mem p) (u : U54) :
    BootImage.privMode mem p u = (h.hart u).privMode := by
  have entry := holds.hart u
  simp only [HartHeader.bytes, holdsAt_append, length_bytesLE, and_assoc] at entry
  have byte := entry.2.1 0 (Nat.succ_pos _)
  rw [Nat.add_zero, ← offset_offset, ← BootImage.hart_eq] at byte
  exact byte

theorem BootImageHeader.InMem.bootImageLength (holds : h.InMem mem p) :
    BootImage.bootImageLength mem p = h.bootImageLength := by
  have middle := holds.parts.2.2.1
  simp only [BootImageHeader.middle, holdsAt_append, and_assoc] at middle
  exact load64_of_holds (k := 1480) (by
    simpa [h.length_setName, bootImageMaxNameLen] using middle.2.2.2.2.2.2.2.2)

/-! ### The checksum -/

/-- The copy of the header that the checksum is taken of, as a memory. -/
def shadowMem (mem : Mem) (p : Word) : Mem := fun a => shadowHdr mem p a.toNat

theorem shadowMem_apply {i : ℕ} (small : i < 2 ^ 64) :
    shadowMem mem p (0 + BitVec.ofNat 64 i) = shadowHdr mem p i := by
  rw [shadowMem, zero_add, BitVec.toNat_ofNat, Nat.mod_eq_of_lt small]

theorem shadowMem_kept {off : ℕ} {l : Bytes} (holds : HoldsAt mem p off l)
    (apart : off + l.length ≤ 16 ∨ 20 ≤ off ∧ off + l.length ≤ 1488) :
    HoldsAt (shadowMem mem p) 0 off l := by
  intro i less
  rw [shadowMem_apply (by omega), shadowHdr, if_neg (by omega), if_neg (by omega)]
  exact holds i less

theorem shadowMem_blank {k n : ℕ} (inside : 16 ≤ k ∧ k + n ≤ 20 ∨ 1488 ≤ k ∧ k + n ≤ 1632) :
    HoldsAt (shadowMem mem p) 0 k (List.replicate n 0) := by
  intro i less
  rw [List.length_replicate] at less
  rw [shadowMem_apply (by omega), List.getElem_replicate, shadowHdr]
  split
  · rfl
  · rw [if_pos (by omega)]

theorem BootImageHeader.InMem.shadowHdr (holds : h.InMem mem p) :
    (List.range BootImage.sizeOf).map (shadowHdr mem p) = h.blank.bytes := by
  obtain ⟨front, -, middle, -⟩ := holds.parts
  have zero : bytesLE 4 h.blank.headerCrc.toNat = List.replicate 4 0 :=
    show bytesLE 4 0 = List.replicate 4 0 by decide
  have shadow : HoldsAt (shadowMem mem p) 0 0 h.blank.bytes := by
    simp only [bytes, holdsAt_append, List.length_append, length_front, length_bytesLE,
      length_middle, Nat.zero_add, Nat.reduceAdd, and_assoc]
    refine ⟨shadowMem_kept front (by simp), ?_, shadowMem_kept middle (by simp), ?_⟩
    · rw [zero]
      exact shadowMem_blank (by decide)
    · exact shadowMem_blank (k := 1488) (n := 144) (by decide)
  apply List.ext_getElem
  · simp
  · intro i less inside
    have small : i < 2 ^ 64 := by
      rw [length_bytes] at inside
      exact Nat.lt_of_lt_of_le inside (by decide)
    have same := shadow i inside
    rw [Nat.zero_add, shadowMem_apply small] at same
    rw [List.getElem_map, List.getElem_range, same]

/-- What the validation of a header comes down to: the blank header, as long as its version says, has
the checksum. -/
theorem BootImageHeader.InMem.validateCrc_iff (holds : h.InMem mem p) :
    validateCrc mem p = true ↔
      crc32Calculate (h.blank.bytes.take
        (if h.version = 0 then BootImage.sizeOfV0 else BootImage.sizeOf)) = h.headerCrc := by
  rw [validateCrc, holds.version, holds.headerCrc, ← holds.shadowHdr, ← List.map_take,
    List.take_range, decide_eq_true_iff]
  split <;> rfl

end Hss
