import Hss.Boot.Decompression
import Hss.Lib.Regions
import Hss.Scai.Mt29f
import Hss.Ymodem.Bounds

/-! The areas that the loader carves from the high DDR: for the files that it receives, for the input
and the output of the decompressor and for `malloc`. -/

namespace Hss

open ByteMemory

/-! ### The areas -/

/-- The region of `HSS_DDRHi_GetStart` and `HSS_DDRHi_GetSize`. -/
structure DdrHi where
  start : Word
  size : Word

namespace DdrHi

variable (d : DdrHi)

def region : Area 64 := ⟨d.start, d.size.toNat⟩

/-- `pBuffer` of `hss_loader_ymodem_loop` -/
def pBuffer : Word := loaderBuffer d.start

/-- `g_rx_size`, a `uint32_t` -/
def gRxSize : BitVec 32 := d.size.setWidth 32

/-- What `malloc` returns for any size. -/
def malloc : Word := d.start + headroomSz * 3

/-- `compressedBuffer` of `jtag_receive`, for the buffer and the size that it is called with. -/
def compressedBuffer : Word := d.pBuffer + d.gRxSize.setWidth 64 - headroomSz

end DdrHi

/-- `sizeof(inflate_state)` -/
def sizeOfInflateState : ℕ := 43792

/-! ### Receiving and decompressing -/

/-- `ymodem_receive` to a buffer in memory: the size that it returns, and the memory. -/
def ymodemReceiveTo (mem : Mem) (buffer bufferSize : Word) (line : Line) : ℕ × Mem :=
  let (size, r) := ymodemReceive (fun i => mem (buffer + BitVec.ofNat 64 i)) bufferSize line
  (size, fun a => r.buffer (a - buffer).toNat)

section
variable (cfg : InitConfig) (d : DdrHi)

/-- `mz_uncompress` gets so far as to decompress an image. -/
def Inflates (mem : Mem) (src : Word) : Prop :=
  CompressedImage.magic mem src = compressedMagic ∧ headerCrcGood cfg mem src = true ∧
    ((CompressedImage.compressedImageLen mem src).setWidth 32).signExtend 64 |||
      CompressedImage.originalImageLen mem src ≤ 0xFFFFFFFF ∧ d.malloc ≠ 0

instance (mem : Mem) (src : Word) : Decidable (Inflates cfg d mem src) :=
  inferInstanceAs (Decidable (_ ∧ _))

/-- The header and the stream of an image. -/
def compressedLength (mem : Mem) (src : Word) : ℕ :=
  CompressedImage.sizeOf cfg.cryptoSigning +
    (((CompressedImage.compressedImageLen mem src).setWidth 32).signExtend 64).toNat

def originalLength (mem : Mem) (src : Word) : ℕ := (CompressedImage.originalImageLen mem src).toNat

/-- The areas that `HSS_Decompress` has in use together: the header alone, or the whole image, the
output and the state of the decompressor. -/
def decompressAreas (mem : Mem) (src dst : Word) : List (Area 64) :=
  if Inflates cfg d mem src then
    [⟨src, compressedLength cfg mem src⟩, ⟨dst, originalLength mem src⟩, ⟨d.malloc, sizeOfInflateState⟩]
  else [⟨src, CompressedImage.sizeOf cfg.cryptoSigning⟩]

/-! ### The commands -/

/-- What a debugger leaves for `jtag_receive`: whether it is compressed, its bytes, which are put where
the two kinds are expected, and the result that it sets. -/
structure JtagFile where
  compressed : Bool
  bytes : ℕ → BitVec 8
  length : ℕ
  result : Word

/-- The commands of the loader's menu, and those to test the flash, which come between two of its
loops. -/
inductive LoaderCommand
  /-- `'3'` -/
  | ymodemReceive (line : Line)
  /-- `'7'` -/
  | jtagReceive (file : JtagFile)
  /-- `'8'` -/
  | ymodemReceiveCompressed (line : Line)
  /-- `'6'`, after which the loop is entered anew -/
  | quit
  /-- any other byte -/
  | other (rxByte : BitVec 8)
  /-- `scai_flash_test`, with whether it selects the chip, and what it leaves in its buffers -/
  | flashTest (selects : Bool) (buffers : ℕ → BitVec 8)
  /-- `scai_fpga_page_read` -/
  | pageRead (selects : Bool) (length : BitVec 32) (data : ℕ → BitVec 8)
  /-- `scai_fpga_page_write` -/
  | pageWrite (selects : Bool) (data : ℕ → BitVec 8)

structure LoaderState where
  mem : Mem
  receivedCount : BitVec 32

/-- `page_length` of `scai_fpga_page_read` -/
def scaiPageLength (length : BitVec 32) : BitVec 32 :=
  (length + BitVec.ofNat 32 mt29fPageSizeBytes - 1) &&& ~~~(BitVec.ofNat 32 mt29fPageSizeBytes - 1)

/-- There is enough memory for `scai_flash_test`. -/
def flashTestFits : Bool := mt29fTotalBlocks * mt29fBlockSizeBytes + mt29fBlockSizeBytes ≤ d.size.toNat

/-- The memory once the debugger is done. -/
def jtagMemory (file : JtagFile) (mem : Mem) : Mem :=
  put mem (if file.compressed then d.compressedBuffer else d.pBuffer) file.length file.bytes

/-- The areas of a command, those together that are in use at the same time. -/
def LoaderCommand.areas (s : LoaderState) : LoaderCommand → List (List (Area 64))
  | ymodemReceive _ => [[⟨d.pBuffer, d.gRxSize.toNat⟩]]
  | jtagReceive file =>
      if file.compressed then
        [[⟨d.compressedBuffer, file.length⟩],
          decompressAreas cfg d (jtagMemory d file s.mem) d.compressedBuffer d.pBuffer]
      else []
  | ymodemReceiveCompressed line =>
      let received := ymodemReceiveTo s.mem (d.pBuffer + headroomSz) (d.gRxSize.setWidth 64) line
      [[⟨d.pBuffer + headroomSz, d.gRxSize.toNat⟩],
        decompressAreas cfg d received.2 (d.pBuffer + headroomSz) d.pBuffer]
  | quit => []
  | other _ => []
  | flashTest selects _ =>
      if selects && flashTestFits d then [[⟨d.malloc, mt29fBlockSizeBytes * 2⟩]] else []
  | pageRead selects length _ => if selects then [[⟨d.malloc, (scaiPageLength length).toNat⟩]] else []
  | pageWrite selects _ => if selects then [[⟨d.malloc, mt29fBlockSizeBytes⟩]] else []

/-- The miniz of the loader, whose state is where `malloc` says. -/
def loaderMiniz (miniz : Miniz) : Miniz := { miniz with allocates := decide (d.malloc ≠ 0) }

def LoaderCommand.step (miniz : Miniz) (s : LoaderState) : LoaderCommand → LoaderState
  | ymodemReceive line =>
      let (size, mem) := ymodemReceiveTo s.mem d.pBuffer (d.gRxSize.setWidth 64) line
      ⟨mem, BitVec.ofNat 32 size⟩
  | jtagReceive file =>
      let mem := jtagMemory d file s.mem
      if file.compressed then
        let (result, mem) := hssDecompress cfg (loaderMiniz d miniz) mem d.compressedBuffer d.pBuffer
        ⟨mem, result⟩
      else ⟨mem, file.result.setWidth 32⟩
  | ymodemReceiveCompressed line =>
      let received := ymodemReceiveTo s.mem (d.pBuffer + headroomSz) (d.gRxSize.setWidth 64) line
      let (result, mem) := loaderDecompress cfg (loaderMiniz d miniz) d.start received.2
      ⟨mem, result⟩
  | quit => ⟨s.mem, 0⟩
  | other _ => s
  | flashTest selects buffers =>
      if selects && flashTestFits d then
        ⟨put s.mem d.malloc (mt29fBlockSizeBytes * 2) buffers, s.receivedCount⟩
      else s
  | pageRead selects length data =>
      if selects then ⟨put s.mem d.malloc (scaiPageLength length).toNat data, s.receivedCount⟩ else s
  | pageWrite selects data =>
      if selects then ⟨put s.mem d.malloc mt29fBlockSizeBytes data, s.receivedCount⟩ else s

/-- The lengths of the region, of the files and of the images for which the areas of a command are in
the region and apart. -/
def LoaderCommand.Fits (s : LoaderState) : LoaderCommand → Prop
  | ymodemReceive _ => d.size = 0 ∨ 2 ^ 32 ≤ d.size.toNat
  | jtagReceive file => file.compressed = true →
      let mem := jtagMemory d file s.mem
      let start := d.gRxSize.toNat
      let compressed := compressedLength cfg mem d.compressedBuffer
      let original := originalLength mem d.compressedBuffer
      2 ^ 32 ≤ d.size.toNat ∧ (file.length = 0 ∨ start + file.length ≤ d.size.toNat) ∧
        (Inflates cfg d mem d.compressedBuffer →
          start + compressed ≤ d.size.toNat ∧
          (original = 0 ∨ start + compressed ≤ headroomSz.toNat ∨
            headroomSz.toNat + original ≤ start) ∧
          original ≤ 2 * headroomSz.toNat ∧
          (start + compressed ≤ 3 * headroomSz.toNat ∨
            3 * headroomSz.toNat + sizeOfInflateState ≤ start))
  | ymodemReceiveCompressed line =>
      let received := ymodemReceiveTo s.mem (d.pBuffer + headroomSz) (d.gRxSize.setWidth 64) line
      2 ^ 32 ≤ d.size.toNat ∧
        (Inflates cfg d received.2 (d.pBuffer + headroomSz) →
          compressedLength cfg received.2 (d.pBuffer + headroomSz) ≤ headroomSz.toNat ∧
            originalLength received.2 (d.pBuffer + headroomSz) ≤ headroomSz.toNat)
  | pageRead selects length _ => selects = true →
      (scaiPageLength length).toNat = 0 ∨
        3 * headroomSz.toNat + (scaiPageLength length).toNat ≤ d.size.toNat
  | pageWrite selects _ => selects = true →
      3 * headroomSz.toNat + mt29fBlockSizeBytes ≤ d.size.toNat
  | flashTest _ _ => True
  | quit => True
  | other _ => True

/-- The commands in a row, each with the state that it finds. -/
def loaderRun (miniz : Miniz) : List LoaderCommand → LoaderState → List (LoaderState × LoaderCommand)
  | [], _ => []
  | command :: rest, s => (s, command) :: loaderRun miniz rest (command.step cfg d miniz s)

end

/-- The receiver leaves the memory as it is but for what it was handed. -/
theorem ymodemReceiveTo_frame (mem : Mem) {buffer bufferSize a : Word} (line : Line)
    (outside : a ∉ span buffer bufferSize.toNat) :
    (ymodemReceiveTo mem buffer bufferSize line).2 a = mem a := by
  have started : Receiver.Inside (fun i => mem (buffer + BitVec.ofNat 64 i)) bufferSize.toNat
      (startReceiver .ymodem (fun i => mem (buffer + BitVec.ofNat 64 i)) bufferSize line) :=
    startReceiver_inside
  have received := Receiver.receiveLoop_inside (bufferSize.toNat + 12) started
  have purged := received.after (Receiver.purge_same 10) rfl rfl
  have past : bufferSize.toNat ≤ (a - buffer).toNat := Nat.le_of_not_lt outside
  have same := purged.outside (a - buffer).toNat past
  change _ = mem (buffer + BitVec.ofNat 64 (a - buffer).toNat) at same
  rw [BitVec.ofNat_toNat, BitVec.setWidth_eq, add_sub_cancel] at same
  exact same

/-! ### The areas as parts of the region -/

section
variable (d : DdrHi) (n : ℕ)

theorem pBuffer_part : (⟨d.pBuffer, n⟩ : Area 64) = d.region.part headroomSz.toNat n := rfl

theorem pBuffer_headroom_part :
    (⟨d.pBuffer + headroomSz, n⟩ : Area 64) = d.region.part (2 * headroomSz.toNat) n := by
  change (⟨d.start + headroomSz + headroomSz, n⟩ : Area 64) = ⟨d.start + (headroomSz + headroomSz), n⟩
  rw [add_assoc]

theorem malloc_part : (⟨d.malloc, n⟩ : Area 64) = d.region.part (3 * headroomSz.toNat) n := rfl

theorem compressedBuffer_part :
    (⟨d.compressedBuffer, n⟩ : Area 64) = d.region.part d.gRxSize.toNat n := by
  have size : d.gRxSize.setWidth 64 = BitVec.ofNat 64 d.gRxSize.toNat := by
    rw [BitVec.ofNat_toNat]
  have base : d.compressedBuffer = d.start + BitVec.ofNat 64 d.gRxSize.toNat := by
    rw [DdrHi.compressedBuffer, DdrHi.pBuffer, loaderBuffer, size]
    abel
  rw [base]
  rfl

theorem gRxSize_toNat : d.gRxSize.toNat = d.size.toNat % 2 ^ 32 := BitVec.toNat_setWidth ..

variable {d n} {offset : ℕ}

/-- One part is in the region. -/
theorem holds_part_iff (starts : offset < 2 ^ 64) :
    d.region.Holds [d.region.part offset n] ↔ n = 0 ∨ offset + n ≤ d.size.toNat := by
  rw [Area.holds_singleton_iff, Area.part_subset_iff starts d.size.isLt]
  rfl

/-- The whole size is handed on for a buffer that starts later than the region: it fits only where the
size is cut off. -/
theorem holds_received_iff (some : 0 < offset) (small : offset ≤ 2 ^ 32) :
    d.region.Holds [d.region.part offset d.gRxSize.toNat] ↔ d.size = 0 ∨ 2 ^ 32 ≤ d.size.toNat := by
  have zero : d.size = 0 ↔ d.size.toNat = 0 := BitVec.toNat_eq
  rw [holds_part_iff (by omega), gRxSize_toNat, zero]
  omega

variable {cfg : InitConfig} {mem : Mem} {src : Word}

theorem decompressAreas_idle (idle : ¬Inflates cfg d mem src) (dst : Word) :
    decompressAreas cfg d mem src dst = [⟨src, CompressedImage.sizeOf cfg.cryptoSigning⟩] :=
  if_neg idle

/-- An image that is decompressed: each of the three areas ends with the region at the latest, and no
two of them meet. -/
theorem holds_inflating_iff (inflates : Inflates cfg d mem src) (starts : offset < 2 ^ 64)
    (at_offset : ∀ n, (⟨src, n⟩ : Area 64) = d.region.part offset n) :
    d.region.Holds (decompressAreas cfg d mem src d.pBuffer) ↔
      (offset + compressedLength cfg mem src ≤ d.size.toNat ∧
        (originalLength mem src = 0 ∨ headroomSz.toNat + originalLength mem src ≤ d.size.toNat) ∧
        3 * headroomSz.toNat + sizeOfInflateState ≤ d.size.toNat) ∧
      (originalLength mem src = 0 ∨ offset + compressedLength cfg mem src ≤ headroomSz.toNat ∨
        headroomSz.toNat + originalLength mem src ≤ offset) ∧
      (offset + compressedLength cfg mem src ≤ 3 * headroomSz.toNat ∨
        3 * headroomSz.toNat + sizeOfInflateState ≤ offset) ∧
      (originalLength mem src = 0 ∨ headroomSz.toNat + originalLength mem src ≤ 3 * headroomSz.toNat) := by
  have header : 0 < compressedLength cfg mem src :=
    Nat.add_pos_left (CompressedImage.sizeOf_pos _) _
  have size := d.size.isLt
  have length : d.region.len = d.size.toNat := rfl
  have headroom : headroomSz.toNat = 0x10000000 := rfl
  have state : sizeOfInflateState = 43792 := rfl
  rw [decompressAreas, if_pos inflates, at_offset, pBuffer_part, malloc_part, Area.holds_three_iff,
    Area.part_subset_iff starts size, Area.part_subset_iff (by decide) size,
    Area.part_subset_iff (by decide) size, length]
  constructor
  · rintro ⟨⟨input, output, heap⟩, apart⟩
    rw [Area.part_disjoint_iff (by omega) (by omega), Area.part_disjoint_iff (by omega) (by omega),
      Area.part_disjoint_iff (by omega) (by omega)] at apart
    omega
  · rintro ⟨⟨input, output, heap⟩, apart⟩
    refine ⟨⟨.inr input, output, .inr heap⟩, ?_⟩
    rw [Area.part_disjoint_iff (by omega) (by omega), Area.part_disjoint_iff (by omega) (by omega),
      Area.part_disjoint_iff (by omega) (by omega)]
    omega

end

/-! ### The commands -/

section
variable (cfg : InitConfig) (d : DdrHi) (s : LoaderState)

theorem receiveCompressed_holds_iff (line : Line) :
    (∀ used ∈ (LoaderCommand.ymodemReceiveCompressed line).areas cfg d s, d.region.Holds used) ↔
      (LoaderCommand.ymodemReceiveCompressed line).Fits cfg d s := by
  rw [LoaderCommand.areas, LoaderCommand.Fits]
  generalize (ymodemReceiveTo s.mem (d.pBuffer + headroomSz) (d.gRxSize.setWidth 64) line).2 = mem
  have headroom : headroomSz.toNat = 0x10000000 := rfl
  have state : sizeOfInflateState = 43792 := rfl
  have header : CompressedImage.sizeOf cfg.cryptoSigning ≤ 192 := by
    unfold CompressedImage.sizeOf
    split <;> omega
  have some := CompressedImage.sizeOf_pos cfg.cryptoSigning
  have zero : d.size = 0 ↔ d.size.toNat = 0 := BitVec.toNat_eq
  simp only [List.forall_mem_cons, List.not_mem_nil, false_imp_iff, implies_true, and_true]
  rw [pBuffer_headroom_part, holds_received_iff (by decide) (by decide), zero]
  by_cases inflates : Inflates cfg d mem (d.pBuffer + headroomSz)
  · rw [holds_inflating_iff inflates (by decide) (pBuffer_headroom_part d)]
    simp only [inflates, true_imp_iff]
    have length : 0 < compressedLength cfg mem (d.pBuffer + headroomSz) := Nat.add_pos_left some _
    omega
  · rw [decompressAreas_idle inflates, pBuffer_headroom_part, holds_part_iff (by decide)]
    simp only [inflates, false_imp_iff, and_true]
    omega

theorem jtagReceive_holds_iff (file : JtagFile) :
    (∀ used ∈ (LoaderCommand.jtagReceive file).areas cfg d s, d.region.Holds used) ↔
      (LoaderCommand.jtagReceive file).Fits cfg d s := by
  rw [LoaderCommand.areas, LoaderCommand.Fits]
  by_cases compressed : file.compressed = true
  swap
  · simp [compressed]
  simp only [compressed, if_true, true_imp_iff, List.forall_mem_cons, List.not_mem_nil, false_imp_iff,
    implies_true, and_true]
  generalize jtagMemory d file s.mem = mem
  have headroom : headroomSz.toNat = 0x10000000 := rfl
  have state : sizeOfInflateState = 43792 := rfl
  have header : CompressedImage.sizeOf cfg.cryptoSigning ≤ 192 := by
    unfold CompressedImage.sizeOf
    split <;> omega
  have some := CompressedImage.sizeOf_pos cfg.cryptoSigning
  have starts := gRxSize_toNat d
  have below : d.gRxSize.toNat < 2 ^ 64 := by
    have := d.gRxSize.isLt
    omega
  rw [compressedBuffer_part, holds_part_iff below]
  by_cases inflates : Inflates cfg d mem d.compressedBuffer
  · rw [holds_inflating_iff inflates below (compressedBuffer_part d)]
    simp only [inflates, true_imp_iff]
    have length : 0 < compressedLength cfg mem d.compressedBuffer := Nat.add_pos_left some _
    omega
  · rw [decompressAreas_idle inflates, compressedBuffer_part, holds_part_iff below]
    simp only [inflates, false_imp_iff, and_true]
    omega

/-- Of each command: its areas are in the region and apart just when its lengths fit. -/
theorem areas_hold_iff (command : LoaderCommand) :
    (∀ used ∈ command.areas cfg d s, d.region.Holds used) ↔ command.Fits cfg d s := by
  have single (used : List (Area 64)) :
      (∀ areas ∈ [used], d.region.Holds areas) ↔ d.region.Holds used := List.forall_mem_singleton
  have none : ∀ areas ∈ ([] : List (List (Area 64))), d.region.Holds areas := nofun
  cases command with
  | ymodemReceive line =>
    rw [LoaderCommand.areas, LoaderCommand.Fits, single, pBuffer_part,
      holds_received_iff (by decide) (by decide)]
  | jtagReceive file => exact jtagReceive_holds_iff cfg d s file
  | ymodemReceiveCompressed line => exact receiveCompressed_holds_iff cfg d s line
  | quit => exact iff_of_true none trivial
  | other rxByte => exact iff_of_true none trivial
  | flashTest selects buffers =>
    refine iff_of_true ?_ trivial
    rw [LoaderCommand.areas]
    split
    · next runs =>
      -- what the test checks for is more than the headroom before its buffers
      have enough : flashTestFits d = true := (Bool.and_eq_true _ _ ▸ runs).2
      have memory : 0x40040000 ≤ d.size.toNat := of_decide_eq_true enough
      have buffers : mt29fBlockSizeBytes * 2 = 0x80000 := rfl
      have headroom : headroomSz.toNat = 0x10000000 := rfl
      rw [single, malloc_part, holds_part_iff (by decide)]
      omega
    · exact none
  | pageRead selects length data =>
    rw [LoaderCommand.areas, LoaderCommand.Fits]
    by_cases selected : selects = true
    · rw [if_pos selected, single, malloc_part, holds_part_iff (by decide)]
      exact (imp_iff_right selected).symm
    · rw [if_neg selected]
      exact iff_of_true none fun selects => absurd selects selected
  | pageWrite selects data =>
    rw [LoaderCommand.areas, LoaderCommand.Fits]
    by_cases selected : selects = true
    · have some : mt29fBlockSizeBytes ≠ 0 := by decide
      rw [if_pos selected, single, malloc_part, holds_part_iff (by decide), or_iff_right some]
      exact (imp_iff_right selected).symm
    · rw [if_neg selected]
      exact iff_of_true none fun selects => absurd selects selected

end

/-- In every run of commands the areas are in the region and apart just when each command fits. -/
theorem loader_staysInDdr_iff (cfg : InitConfig) (d : DdrHi) (miniz : Miniz)
    (commands : List LoaderCommand) (s : LoaderState) :
    (∀ taken ∈ loaderRun cfg d miniz commands s, ∀ used ∈ taken.2.areas cfg d taken.1,
        d.region.Holds used) ↔
      ∀ taken ∈ loaderRun cfg d miniz commands s, taken.2.Fits cfg d taken.1 :=
  forall₂_congr fun taken _ => areas_hold_iff cfg d taken.1 taken.2

/-- `'3'` with 1 GiB: the memory that is handed on ends 256 MiB after the region. -/
theorem loader_not_staysInDdr : ¬∀ (cfg : InitConfig) (d : DdrHi) (miniz : Miniz)
    (commands : List LoaderCommand) (s : LoaderState),
    ∀ taken ∈ loaderRun cfg d miniz commands s, ∀ used ∈ taken.2.areas cfg d taken.1,
      d.region.Holds used := by
  intro all
  let cfg : InitConfig := ⟨true, false, 0x103FC00000, by decide⟩
  let d : DdrHi := ⟨0x1000000000, 0x40000000⟩
  let miniz : Miniz := ⟨true, fun mem _ _ _ _ => ⟨.failed, 0, 0, mem⟩⟩
  let quiet : LoaderCommand := .ymodemReceive (Stream'.const none)
  let s : LoaderState := ⟨fun _ => 0, 0⟩
  have inside := all cfg d miniz [quiet] s (s, quiet) List.mem_cons_self
  have fits : d.size = 0 ∨ 2 ^ 32 ≤ d.size.toNat := (areas_hold_iff cfg d s quiet).mp inside
  exact absurd fits (by decide)

end Hss
