import Hss.Boot.FpgaFlash
import Hss.Buffer
import Hss.Lib.Pieces

/-! Writes and erases of the NAND flash behind the FPGA: what was programmed and erased when they
return true. -/

namespace Hss

open ByteMemory Pieces

/-- The flash with its erase blocks, and which of the programs of a page and of the erases of a block
succeed, by their number. -/
structure FpgaFlashDevice extends FpgaFlash where
  erasesize : ℕ
  erasesize_pos : 0 < erasesize
  programs : ℕ → Bool
  erases : ℕ → Bool

/-- A page given to `mtd_write_oob`. -/
structure PageProgram where
  off : BitVec 32
  data : Bytes
  succeeds : Bool

/-- A block given to `mtd_erase`. -/
structure BlockErase where
  addr : Word
  succeeds : Bool

variable (d : FpgaFlashDevice)

/-- `mtd_write_oob` of a page at `off`, as program `n`, succeeds. -/
def mtdWriteOob (n : ℕ) (off : BitVec 32) : Bool :=
  d.programs n && off.toNat + d.writesize ≤ d.size

/-- `mtd_erase` of the block at `addr`, as erase `n`, succeeds. -/
def mtdErase (n : ℕ) (addr : Word) : Bool := d.erases n && addr.toNat + d.erasesize ≤ d.size

/-- The page that is programmed with `writeLen` bytes of `source`: the rest of it is blank. -/
def pageData (source : ℕ → BitVec 8) (writeLen : ℕ) : Bytes :=
  let datbuf :=
    if writeLen ≠ d.writesize then writeBuffer (fun _ => 0xFF) 0 (firstBytes source writeLen)
    else source
  firstBytes datbuf d.writesize

/-- The loop of `FPGA_Flash_write` over the pieces of the source that are left, from program `n` on.
The offset in the flash goes on by what was written, the source by what was asked for. -/
def flashWritePages (src : Word) (mem : Mem) :
    List (ℕ × ℕ) → ℕ → BitVec 32 → List PageProgram
  | [], _, _ => []
  | (offset, writeLen) :: rest, n, off =>
      let source := fun i => mem (src + BitVec.ofNat 64 (offset + i))
      let succeeds := mtdWriteOob d n off
      let retlen := if succeeds then d.writesize else 0
      ⟨off, pageData d source writeLen, succeeds⟩ ::
        flashWritePages src mem rest (n + 1) (off + BitVec.ofNat 32 retlen)

/-- `FPGA_Flash_write`: the result, and the pages given to the flash.  An offset that is not aligned
only rounds `len`, which is not used after. -/
def fpgaFlashWrite (n : ℕ) (src : Word) (off : BitVec 32) (len : Word) (mem : Mem) :
    Bool × List PageProgram :=
  if !d.isInitialized then (false, [])
  else (true, flashWritePages d src mem (pieces d.writesize 0 len.toNat) n off)

/-- The loop of `FPGA_Flash_erase` over the blocks that are left, from erase `n` on. -/
def flashEraseBlocks (off : BitVec 32) : List (ℕ × ℕ) → ℕ → List BlockErase
  | [], _ => []
  | (offset, _) :: rest, n =>
      let addr := off.setWidth 64 + BitVec.ofNat 64 offset
      ⟨addr, mtdErase d n addr⟩ :: flashEraseBlocks off rest (n + 1)

/-- `FPGA_Flash_erase`: the result, and the blocks given to the flash. -/
def fpgaFlashErase (n : ℕ) (off : BitVec 32) (len : Word) : Bool × List BlockErase :=
  if !d.isInitialized then (false, [])
  else if off.toNat % d.erasesize ≠ 0 then (false, [])
  else if len.toNat % d.erasesize ≠ 0 then (false, [])
  else (true, flashEraseBlocks d off (pieces d.erasesize 0 len.toNat) n)

/-- Page `k` of the range is programmed with the bytes of the source for it. -/
structure ProgramsPage (src : Word) (off : BitVec 32) (len : Word) (mem : Mem) (k : ℕ)
    (p : PageProgram) : Prop where
  off : p.off.toNat = off.toNat + k * d.writesize
  data : ∀ i < d.writesize, k * d.writesize + i < len.toNat →
    p.data.getD i 0 = mem (src + BitVec.ofNat 64 (k * d.writesize + i))

/-- A write is true only with all its pages in place, and programs no other page and none with other
data. -/
structure WritesTruly (n : ℕ) (src : Word) (off : BitVec 32) (len : Word) (mem : Mem) : Prop where
  aligned : (fpgaFlashWrite d n src off len mem).1 = true → off.toNat % d.writesize = 0
  all : (fpgaFlashWrite d n src off len mem).1 = true → ∀ k < d.pages len,
    ∃ p ∈ (fpgaFlashWrite d n src off len mem).2, p.succeeds ∧ ProgramsPage d src off len mem k p
  inside : ∀ p ∈ (fpgaFlashWrite d n src off len mem).2, p.succeeds →
    ∃ k < d.pages len, ProgramsPage d src off len mem k p

/-- An erase is true only with every block of the range erased. -/
def ErasesTruly (n : ℕ) (off : BitVec 32) (len : Word) : Prop :=
  (fpgaFlashErase d n off len).1 = true → ∀ addr, addr % d.erasesize = 0 → off.toNat ≤ addr →
    addr < off.toNat + len.toNat →
      ∃ e ∈ (fpgaFlashErase d n off len).2, e.succeeds ∧ e.addr.toNat = addr

variable {d : FpgaFlashDevice} {n : ℕ} {src len : Word} {off : BitVec 32} {mem : Mem}

theorem mtdWriteOob_fits (succeeds : mtdWriteOob d n off = true) :
    off.toNat + d.writesize ≤ d.size := by
  simp only [mtdWriteOob, Bool.and_eq_true, decide_eq_true_eq] at succeeds
  exact succeeds.2

/-- The offset after a program that succeeds. -/
theorem mtdWriteOob_next (succeeds : mtdWriteOob d n off = true) :
    (off + BitVec.ofNat 32 d.writesize).toNat = off.toNat + d.writesize := by
  have inside := mtdWriteOob_fits succeeds
  have small := d.size_lt
  have page : d.writesize ≤ 2048 := d.writesize_le
  rw [BitVec.toNat_add, BitVec.toNat_ofNat, Nat.mod_eq_of_lt (a := d.writesize) (by omega),
    Nat.mod_eq_of_lt (by omega)]

/-- The first `pages` programs succeed, of pages in the device. -/
def ProgramsSucceed (d : FpgaFlashDevice) (n : ℕ) (off : BitVec 32) (pages : ℕ) : Prop :=
  ∀ k < pages, d.programs (n + k) = true ∧ off.toNat + (k + 1) * d.writesize ≤ d.size

theorem programsSucceed_succ (pages : ℕ) : ProgramsSucceed d n off (pages + 1) ↔
    mtdWriteOob d n off = true ∧
      ProgramsSucceed d (n + 1) (off + BitVec.ofNat 32 d.writesize) pages := by
  constructor
  · intro all
    have first := all 0 (Nat.succ_pos _)
    have succeeds : mtdWriteOob d n off = true := by
      simpa [mtdWriteOob] using first
    refine ⟨succeeds, fun k less => ?_⟩
    have next := all (k + 1) (Nat.succ_lt_succ less)
    rw [mtdWriteOob_next succeeds]
    rw [show n + (k + 1) = n + 1 + k by omega, Nat.succ_mul] at next
    exact ⟨next.1, by omega⟩
  · rintro ⟨succeeds, rest⟩ k less
    cases k with
    | zero => simpa [mtdWriteOob] using succeeds
    | succ k =>
      have next := rest k (Nat.lt_of_succ_lt_succ less)
      rw [mtdWriteOob_next succeeds] at next
      rw [show n + (k + 1) = n + 1 + k by omega, Nat.succ_mul]
      exact ⟨next.1, by omega⟩

theorem length_flashWritePages (rest : List (ℕ × ℕ)) :
    (flashWritePages d src mem rest n off).length = rest.length := by
  induction rest generalizing n off with
  | nil => rfl
  | cons piece rest ih => exact congrArg (· + 1) ih

/-- All programs of a run succeed if and only if the flash makes them so. -/
theorem flashWritePages_succeed_iff (src : Word) (mem : Mem) (rest : List (ℕ × ℕ)) :
    (∀ p ∈ flashWritePages d src mem rest n off, p.succeeds = true) ↔
      ProgramsSucceed d n off rest.length := by
  induction rest generalizing n off with
  | nil => simp [flashWritePages, ProgramsSucceed]
  | cons piece rest ih =>
    rw [flashWritePages, List.forall_mem_cons, List.length_cons, programsSucceed_succ]
    refine and_congr_right fun succeeds => ?_
    dsimp only at succeeds ⊢
    rw [if_pos succeeds, ih]

/-- The page of program `k`, when those before it succeed. -/
theorem getElem?_flashWritePages (rest : List (ℕ × ℕ)) {k : ℕ}
    (before : ProgramsSucceed d n off k) :
    (flashWritePages d src mem rest n off)[k]? = (rest[k]?).map fun piece =>
      ⟨off + BitVec.ofNat 32 (k * d.writesize),
        pageData d (fun i => mem (src + BitVec.ofNat 64 (piece.1 + i))) piece.2,
        mtdWriteOob d (n + k) (off + BitVec.ofNat 32 (k * d.writesize))⟩ := by
  induction rest generalizing n off k with
  | nil => rfl
  | cons piece rest ih =>
    cases k with
    | zero => simp [flashWritePages]
    | succ k =>
      obtain ⟨succeeds, after⟩ := (programsSucceed_succ k).mp before
      have place : off + BitVec.ofNat 32 d.writesize + BitVec.ofNat 32 (k * d.writesize) =
          off + BitVec.ofNat 32 ((k + 1) * d.writesize) := by
        rw [BitVec.add_assoc, ← BitVec.ofNat_add, Nat.succ_mul, Nat.add_comm d.writesize]
      rw [flashWritePages, if_pos succeeds, List.getElem?_cons_succ, ih after, place,
        show n + 1 + k = n + (k + 1) by omega]
      rfl

/-- No program that succeeds is further on than the pages that were programmed. -/
theorem flashWritePages_reach (rest : List (ℕ × ℕ)) :
    ∀ p ∈ flashWritePages d src mem rest n off, p.succeeds = true →
      p.off.toNat + d.writesize ≤ off.toNat +
        (flashWritePages d src mem rest n off).countP (·.succeeds) * d.writesize := by
  induction rest generalizing n off with
  | nil => simp [flashWritePages]
  | cons piece rest ih =>
    rw [flashWritePages, List.forall_mem_cons, List.countP_cons]
    cases succeeds : mtdWriteOob d n off with
    | true =>
      rw [if_pos rfl, if_pos rfl, Nat.succ_mul]
      refine ⟨fun _ => ?_, fun p member done => ?_⟩
      · dsimp only
        omega
      · have reach := ih p member done
        rw [mtdWriteOob_next succeeds] at reach
        omega
    | false =>
      refine ⟨fun done => absurd done Bool.false_ne_true, fun p member done => ?_⟩
      simpa using ih p (by simpa using member) done

theorem pageData_getD {source : ℕ → BitVec 8} {writeLen i : ℕ} (less : i < writeLen)
    (inPage : i < d.writesize) : (pageData d source writeLen).getD i 0 = source i := by
  rw [pageData, firstBytes, List.getD_eq_getElem _ _ (by simpa using inPage)]
  split
  · have inside := writeBuffer_firstBytes (fun _ => 0xFF) source 0 writeLen i
    rw [Nat.zero_add, if_pos less] at inside
    simpa using inside
  · simp

theorem length_pieces : (pieces d.writesize 0 len.toNat).length = d.pages len := by
  have same : ∀ k, k < (pieces d.writesize 0 len.toNat).length ↔ k < d.pages len := fun k => by
    rw [lt_length_pieces d.writesize_pos (Nat.zero_mod _), lt_pages_iff]
  exact Nat.le_antisymm (le_of_forall_lt fun k => (same k).mp) (le_of_forall_lt fun k => (same k).mpr)

theorem length_programs :
    (flashWritePages d src mem (pieces d.writesize 0 len.toNat) n off).length = d.pages len := by
  rw [length_flashWritePages, length_pieces]

/-- When its programs succeed, program `k` of a write is that of page `k`. -/
theorem programsPage (src : Word) (mem : Mem) (all : ProgramsSucceed d n off (d.pages len)) {k : ℕ}
    (less : k < d.pages len) :
    ∃ p, (flashWritePages d src mem (pieces d.writesize 0 len.toNat) n off)[k]? = some p ∧
      p.succeeds = true ∧ ProgramsPage d src off len mem k p := by
  have inside := (all k less).2
  have small := d.size_lt
  have next : (k + 1) * d.writesize = k * d.writesize + d.writesize := Nat.succ_mul ..
  have place : (off + BitVec.ofNat 32 (k * d.writesize)).toNat = off.toNat + k * d.writesize := by
    rw [BitVec.toNat_add, BitVec.toNat_ofNat, Nat.mod_eq_of_lt (a := k * d.writesize) (by omega),
      Nat.mod_eq_of_lt (by omega)]
  rw [getElem?_flashWritePages _ fun j before => all j (before.trans less),
    getElem?_pieces d.writesize_pos (Nat.zero_mod _), if_pos (lt_pages_iff.mp less), Nat.zero_add]
  refine ⟨_, rfl, ?_, place, fun i inPage more => ?_⟩
  · simp only [mtdWriteOob, place, (all k less).1, Bool.true_and, decide_eq_true_eq]
    omega
  · exact pageData_getD (lt_min inPage (by omega)) inPage

/-- A program that fails leaves the last page of the range as it was. -/
theorem programs_succeed_of_all
    (all : ∀ k < d.pages len, ∃ p ∈ flashWritePages d src mem (pieces d.writesize 0 len.toNat) n off,
      p.succeeds = true ∧ ProgramsPage d src off len mem k p) :
    ProgramsSucceed d n off (d.pages len) := by
  have pos := d.writesize_pos
  rw [← length_pieces, ← flashWritePages_succeed_iff src mem,
    ← List.countP_eq_length, length_programs]
  refine Nat.le_antisymm (List.countP_le_length.trans_eq length_programs) ?_
  cases pages : d.pages len with
  | zero => exact Nat.zero_le _
  | succ last =>
    obtain ⟨p, member, succeeds, programs⟩ := all last (by omega)
    have reach := flashWritePages_reach _ p member succeeds
    rw [programs.off, Nat.add_assoc, ← Nat.succ_mul] at reach
    exact Nat.le_of_mul_le_mul_right (Nat.le_of_add_le_add_left reach) pos

/-- A write tells the truth if and only if the flash is not initialised, or the offset is aligned and
no program of a page fails. -/
theorem writesTruly_iff : WritesTruly d n src off len mem ↔ d.isInitialized = false ∨
    (off.toNat % d.writesize = 0 ∧ ProgramsSucceed d n off (d.pages len)) := by
  cases initialized : d.isInitialized with
  | false =>
    refine iff_of_true ?_ (.inl rfl)
    constructor <;> simp [fpgaFlashWrite, initialized]
  | true =>
    have write : fpgaFlashWrite d n src off len mem =
        (true, flashWritePages d src mem (pieces d.writesize 0 len.toNat) n off) := by
      simp [fpgaFlashWrite, initialized]
    constructor
    · intro truly
      have all := truly.all (by rw [write])
      rw [write] at all
      exact .inr ⟨truly.aligned (by rw [write]), programs_succeed_of_all all⟩
    · rintro (never | ⟨aligned, all⟩)
      · cases never
      · refine ⟨fun _ => aligned, fun _ k less => ?_, fun p member _ => ?_⟩
        · obtain ⟨p, here, succeeds, programs⟩ := programsPage src mem all less
          rw [write]
          exact ⟨p, List.mem_of_getElem? here, succeeds, programs⟩
        · rw [write] at member
          obtain ⟨k, here⟩ := List.getElem?_of_mem member
          have less : k < d.pages len := by
            rw [← length_programs]
            exact (List.getElem?_eq_some_iff.mp here).1
          obtain ⟨p', there, _, programs⟩ := programsPage src mem all less
          exact ⟨k, less, Option.some.inj (here.symm.trans there) ▸ programs⟩

/-! ### Erases -/

theorem getElem?_flashEraseBlocks (rest : List (ℕ × ℕ)) (k : ℕ) :
    (flashEraseBlocks d off rest n)[k]? = (rest[k]?).map fun piece =>
      let addr := off.setWidth 64 + BitVec.ofNat 64 piece.1
      ⟨addr, mtdErase d (n + k) addr⟩ := by
  induction rest generalizing n k with
  | nil => rfl
  | cons piece rest ih =>
    cases k with
    | zero => rfl
    | succ k =>
      rw [flashEraseBlocks, List.getElem?_cons_succ, ih, show n + 1 + k = n + (k + 1) by omega]
      rfl

/-- The erases of the blocks of a range succeed, and the blocks are in the device. -/
def ErasesSucceed (d : FpgaFlashDevice) (n : ℕ) (off : BitVec 32) (len : Word) : Prop :=
  ∀ k, k * d.erasesize < len.toNat →
    d.erases (n + k) = true ∧ off.toNat + (k + 1) * d.erasesize ≤ d.size

/-- The address of block `k`, unless it wraps. -/
theorem eraseAddr_toNat (d : FpgaFlashDevice) (off : BitVec 32) (k : ℕ) :
    (off.setWidth 64 + BitVec.ofNat 64 (0 + k * d.erasesize)).toNat =
      (off.toNat + k * d.erasesize) % 2 ^ 64 := by
  have := off.isLt
  rw [Nat.zero_add, BitVec.toNat_add, BitVec.toNat_ofNat, BitVec.toNat_setWidth, Nat.add_mod_mod,
    Nat.mod_add_mod]

theorem mem_flashEraseBlocks {e : BlockErase} :
    e ∈ flashEraseBlocks d off (pieces d.erasesize 0 len.toNat) n ↔ ∃ k, k * d.erasesize < len.toNat ∧
      e = let addr := off.setWidth 64 + BitVec.ofNat 64 (0 + k * d.erasesize)
        ⟨addr, mtdErase d (n + k) addr⟩ := by
  rw [List.mem_iff_getElem?]
  refine exists_congr fun k => ?_
  rw [getElem?_flashEraseBlocks, getElem?_pieces d.erasesize_pos (Nat.zero_mod _)]
  by_cases inside : k * d.erasesize < len.toNat <;> simp [inside, eq_comm]

/-- The erases of a range all succeed if and only if each block of it is erased. -/
theorem erasesSucceed_iff (n : ℕ) (len : Word) (aligned : off.toNat % d.erasesize = 0) :
    ErasesSucceed d n off len ↔
    ∀ addr, addr % d.erasesize = 0 → off.toNat ≤ addr → addr < off.toNat + len.toNat →
      ∃ e ∈ flashEraseBlocks d off (pieces d.erasesize 0 len.toNat) n,
        e.succeeds = true ∧ e.addr.toNat = addr := by
  have pos := d.erasesize_pos
  have small := d.size_lt
  constructor
  · intro all addr multiple low high
    obtain ⟨q, rfl⟩ := Nat.exists_eq_add_of_le low
    have whole : q % d.erasesize = 0 := by
      rw [Nat.add_mod, aligned, Nat.zero_add, Nat.mod_mod] at multiple
      exact multiple
    obtain ⟨k, rfl⟩ := Nat.dvd_of_mod_eq_zero whole
    rw [Nat.mul_comm] at high ⊢
    have inside : k * d.erasesize < len.toNat := by omega
    obtain ⟨succeeds, fits⟩ := all k inside
    rw [Nat.succ_mul] at fits
    have place := eraseAddr_toNat d off k
    rw [Nat.mod_eq_of_lt (by omega)] at place
    refine ⟨_, mem_flashEraseBlocks.mpr ⟨k, inside, rfl⟩, ?_, place⟩
    simp only [mtdErase, succeeds, place, Bool.true_and, decide_eq_true_eq]
    omega
  · intro all
    have erased : ∀ k, k * d.erasesize < len.toNat → ∃ j, j * d.erasesize < len.toNat ∧
        d.erases (n + j) = true ∧ off.toNat + (k + 1) * d.erasesize ≤ d.size ∧
        (off.toNat + j * d.erasesize) % 2 ^ 64 = off.toNat + k * d.erasesize := by
      intro k inside
      obtain ⟨e, member, succeeds, place⟩ := all (off.toNat + k * d.erasesize)
        (by rw [Nat.add_mul_mod_self_right, aligned]) (Nat.le_add_right ..) (by omega)
      obtain ⟨j, more, rfl⟩ := mem_flashEraseBlocks.mp member
      simp only [mtdErase, Bool.and_eq_true, decide_eq_true_eq] at succeeds
      rw [place] at succeeds
      rw [eraseAddr_toNat] at place
      refine ⟨j, more, succeeds.1, ?_, place⟩
      rw [Nat.succ_mul]
      omega
    intro k inside
    obtain ⟨j, more, succeeds, fits, place⟩ := erased k inside
    obtain ⟨_, _, _, fits', _⟩ := erased j more
    rw [Nat.succ_mul] at fits'
    rw [Nat.mod_eq_of_lt (by omega)] at place
    have same : j = k := Nat.eq_of_mul_eq_mul_right pos (Nat.add_left_cancel place)
    exact ⟨same ▸ succeeds, fits⟩

/-- Writes and erases tell the truth if and only if the flash is not initialised, or the offset of a
write is aligned and no program of a page fails; for an erase, the range is refused or no erase of a
block fails. -/
theorem fpgaFlash_truthful_iff (d : FpgaFlashDevice) (n : ℕ) (src : Word) (off : BitVec 32)
    (len : Word) (mem : Mem) :
    (WritesTruly d n src off len mem ↔ d.isInitialized = false ∨
      (off.toNat % d.writesize = 0 ∧ ProgramsSucceed d n off (d.pages len))) ∧
    (ErasesTruly d n off len ↔ d.isInitialized = false ∨ off.toNat % d.erasesize ≠ 0 ∨
      len.toNat % d.erasesize ≠ 0 ∨ ErasesSucceed d n off len) := by
  refine ⟨writesTruly_iff, ?_⟩
  unfold ErasesTruly fpgaFlashErase
  cases initialized : d.isInitialized with
  | false => simp
  | true =>
    by_cases offset : off.toNat % d.erasesize = 0
    · by_cases length : len.toNat % d.erasesize = 0
      · have all := erasesSucceed_iff n len offset
        simpa [offset, length] using all.symm
      · simp [offset, length]
    · simp [offset]

theorem unluckyFlash_size_lt : 2 ^ 27 < 2 ^ 32 := Nat.pow_lt_pow_right (by decide) (by decide)

/-- A flash of which the first program of a page fails. -/
def unluckyFlash : FpgaFlashDevice where
  isInitialized := true
  pageShift := 11
  pageShift_lt := Nat.lt_succ_self 11
  size := 2 ^ 27
  size_lt := unluckyFlash_size_lt
  content := fun _ => 0xFF
  reads := fun _ => true
  erasesize := 2 ^ 17
  erasesize_pos := Nat.two_pow_pos 17
  programs := fun n => n ≠ 0
  erases := fun _ => true

/-- A write of two pages is true although the first one failed and its place has the data of the
second. -/
theorem fpgaFlash_not_truthful :
    ¬ WritesTruly unluckyFlash 0 0x1000 0 4096 (fun a => a.setWidth 8) := by
  rw [writesTruly_iff]
  rintro (never | ⟨_, all⟩)
  · cases never
  · exact absurd (all 0 (lt_pages_iff.mpr (by decide))).1 (by decide)

end Hss
