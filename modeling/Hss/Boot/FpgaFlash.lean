import Hss.Boot.Image
import Mathlib.Data.Nat.Count

/-! Reads of the NAND flash behind the FPGA, page by page: the reader asks for a page again until it
gets it. -/

namespace Hss

open ByteMemory

/-- The flash: its content, and which of the reads of a page of it succeed, by their number. -/
structure FpgaFlash where
  isInitialized : Bool
  /-- A page is `2 ^ pageShift` bytes. -/
  pageShift : ℕ
  pageShift_lt : pageShift < 12
  size : ℕ
  size_lt : size < 2 ^ 32
  content : ℕ → BitVec 8
  reads : ℕ → Bool

def FpgaFlash.writesize (d : FpgaFlash) : ℕ := 2 ^ d.pageShift

/-- `io_op.retlen` after `mtd_read_oob` of the page at `off`, as read `n`: a page, or nothing when the
read fails or the page is not in the device. -/
def mtdReadOob (d : FpgaFlash) (n : ℕ) (off : BitVec 32) : ℕ :=
  if d.reads n && off.toNat + d.writesize ≤ d.size then d.writesize else 0

/-- `round_up` -/
def roundUp (x y : Word) : Word := ((x - 1) ||| (y - 1)) + 1

/-- What `len` is rounded to. -/
def FpgaFlash.rounded (d : FpgaFlash) (len : Word) : Word :=
  if len.toNat % d.writesize ≠ 0 then roundUp len (BitVec.ofNat 64 d.writesize) else len

/-- The variables of the loop of `FPGA_Flash_read`, the number of reads so far, and what was written
to memory, the newest first. -/
structure FlashRead where
  mem : Mem
  cur : Word
  remaining : Word
  off : BitVec 32
  len : Word
  reads : ℕ
  written : List (Word × ℕ)

/-- What a read came to so far: its result, unless it goes on or has halted, the memory, the number of
reads of the device, and what was written to memory, the newest first. -/
structure ReadOutcome where
  result : Option Bool
  mem : Mem
  reads : ℕ
  written : List (Word × ℕ)

section
variable (d : FpgaFlash)

/-- `FPGA_Flash_read` up to its loop, unless it returns false before. -/
def flashReadStart (reads : ℕ) (dest : Word) (off : BitVec 32) (len : Word) (mem : Mem) :
    Option FlashRead :=
  if !d.isInitialized then none
  else if off.toNat % d.writesize ≠ 0 then none
  else some ⟨mem, dest, len, off, d.rounded len, reads, []⟩

/-- A turn of the loop.  A null destination is for a dump. -/
def flashReadTurn (l : FlashRead) : FlashRead :=
  let retlen := mtdReadOob d l.reads l.off
  let copyLen := if l.remaining.toNat < retlen then l.remaining.toNat else retlen
  let l :=
    if l.cur ≠ 0 then { l with
      mem := put l.mem l.cur copyLen fun i => d.content (l.off.toNat + i)
      cur := l.cur + BitVec.ofNat 64 copyLen
      remaining := l.remaining - BitVec.ofNat 64 copyLen
      written := (l.cur, copyLen) :: l.written }
    else l
  { l with
    off := l.off + BitVec.ofNat 32 retlen
    len := l.len - BitVec.ofNat 64 retlen
    reads := l.reads + 1 }

/-- `n` turns of the loop, or fewer if it ends before. -/
def flashReadRun : ℕ → FlashRead → FlashRead
  | 0, l => l
  | n + 1, l => if l.len = 0 then l else flashReadRun n (flashReadTurn d l)

/-- `FPGA_Flash_read` when its loop is given `n` turns: the result, unless the loop goes on, the
memory, the number of reads so far and what was written. -/
def fpgaFlashRead (n reads : ℕ) (dest : Word) (off : BitVec 32) (len : Word) (mem : Mem) :
    ReadOutcome :=
  match flashReadStart d reads dest off len mem with
  | none => ⟨some false, mem, reads, []⟩
  | some l =>
    let l := flashReadRun d n l
    ⟨if l.len = 0 then some true else none, l.mem, l.reads, l.written⟩

end

/-- A read ends, is true only with the bytes of the flash in place, and writes nowhere else. -/
structure ReadsTruly (d : FpgaFlash) (reads : ℕ) (dest : Word) (off : BitVec 32) (len : Word) :
    Prop where
  ends : ∀ mem, ∃ n, (fpgaFlashRead d n reads dest off len mem).result ≠ none
  holds : ∀ mem n, (fpgaFlashRead d n reads dest off len mem).result = some true →
    ∀ i < len.toNat, (fpgaFlashRead d n reads dest off len mem).mem (dest + BitVec.ofNat 64 i) =
      d.content (off.toNat + i)
  inside : ∀ mem n, ∀ w ∈ (fpgaFlashRead d n reads dest off len mem).written,
    span w.1 w.2 ⊆ span dest len.toNat

/-- The number of pages that `len` bytes are on. -/
def FpgaFlash.pages (d : FpgaFlash) (len : Word) : ℕ := (len.toNat + d.writesize - 1) / d.writesize

/-- The pages of a read are in the device, and enough reads succeed for all of them. -/
structure FlashAnswers (d : FpgaFlash) (reads : ℕ) (off : BitVec 32) (pages : ℕ) : Prop where
  inDevice : ∀ k < pages, off.toNat + (k + 1) * d.writesize ≤ d.size
  enough : ∃ n, Nat.count (fun i => d.reads i) reads + pages ≤ Nat.count (fun i => d.reads i) n

/-- What a read relies on, if it starts at all. -/
structure FlashReadable (d : FpgaFlash) (reads : ℕ) (dest : Word) (off : BitVec 32) (len : Word) :
    Prop where
  answers : FlashAnswers d reads off (d.pages len)
  notNull : ∀ k, k * d.writesize < len.toNat → dest + BitVec.ofNat 64 (k * d.writesize) ≠ 0

variable {d : FpgaFlash} {n m reads : ℕ} {dest len : Word} {off : BitVec 32} {mem : Mem}
  {l : FlashRead}

theorem FpgaFlash.writesize_pos (d : FpgaFlash) : 0 < d.writesize := Nat.two_pow_pos _

theorem FpgaFlash.writesize_le (d : FpgaFlash) : d.writesize ≤ 2048 :=
  Nat.pow_le_pow_right (by decide) (Nat.le_of_lt_succ d.pageShift_lt)

theorem lt_pages_iff {k : ℕ} : k < d.pages len ↔ k * d.writesize < len.toNat := by
  have pos := d.writesize_pos
  rw [FpgaFlash.pages, Nat.lt_iff_add_one_le, Nat.le_div_iff_mul_le pos, Nat.add_mul, Nat.one_mul]
  omega

theorem le_pages_mul : len.toNat ≤ d.pages len * d.writesize := by
  by_contra less
  exact absurd (lt_pages_iff.mpr (not_le.mp less)) (lt_irrefl _)

theorem pages_mul_lt (d : FpgaFlash) (len : Word) :
    d.pages len * d.writesize < len.toNat + d.writesize := by
  have pos := d.writesize_pos
  have := Nat.div_mul_le_self (len.toNat + d.writesize - 1) d.writesize
  change (len.toNat + d.writesize - 1) / d.writesize * d.writesize < _
  omega

theorem or_two_pow_sub_one (y s : ℕ) : y ||| (2 ^ s - 1) = y / 2 ^ s * 2 ^ s + (2 ^ s - 1) := by
  have pos := Nat.two_pow_pos s
  rw [Nat.mul_comm, Nat.two_pow_add_eq_or_of_lt (by omega)]
  apply Nat.eq_of_testBit_eq
  intro i
  simp only [Nat.testBit_or, Nat.testBit_two_pow_sub_one, Nat.testBit_two_pow_mul]
  by_cases low : i < s
  · simp [low]
  · simp only [low, decide_false, Bool.or_false, decide_eq_true (not_lt.mp low), Bool.true_and,
      Nat.testBit_div_two_pow]
    rw [Nat.sub_add_cancel (not_lt.mp low)]

theorem roundUp_toNat {x : Word} {s : ℕ} (small : s < 12) (part : x.toNat % 2 ^ s ≠ 0) :
    (roundUp x (BitVec.ofNat 64 (2 ^ s))).toNat = (x.toNat / 2 ^ s + 1) * 2 ^ s % 2 ^ 64 := by
  have pos := Nat.two_pow_pos s
  have page : 2 ^ s < 2 ^ 64 := Nat.pow_lt_pow_right (by decide) (by omega)
  have positive : x.toNat ≠ 0 := fun zero => part (by rw [zero, Nat.zero_mod])
  have mask : (BitVec.ofNat 64 (2 ^ s) - 1).toNat = 2 ^ s - 1 := by
    have value : (BitVec.ofNat 64 (2 ^ s)).toNat = 2 ^ s := by
      rw [BitVec.toNat_ofNat, Nat.mod_eq_of_lt page]
    rw [BitVec.toNat_sub_of_le (by rw [BitVec.le_def, value]; exact pos), value]
    rfl
  have before : (x - 1).toNat = x.toNat - 1 := by
    rw [BitVec.toNat_sub_of_le (by rw [BitVec.le_def]; exact Nat.pos_of_ne_zero positive)]
    rfl
  have quotient : (x.toNat - 1) / 2 ^ s = x.toNat / 2 ^ s := by
    have whole := Nat.div_add_mod x.toNat (2 ^ s)
    have less := Nat.mod_lt x.toNat pos
    rw [Nat.div_eq_iff pos]
    rw [Nat.mul_comm] at whole
    omega
  rw [roundUp, BitVec.toNat_add, BitVec.toNat_or, mask, before, or_two_pow_sub_one, quotient]
  congr 1
  have one : (1 : Word).toNat = 1 := rfl
  rw [one, Nat.add_assoc, Nat.sub_add_cancel pos, Nat.add_mul, Nat.one_mul]

theorem rounded_toNat : (d.rounded len).toNat = d.pages len * d.writesize % 2 ^ 64 := by
  have pos := d.writesize_pos
  have whole := Nat.div_add_mod len.toNat d.writesize
  unfold FpgaFlash.rounded
  split
  · next part =>
    have pages : d.pages len = len.toNat / d.writesize + 1 := by
      rw [FpgaFlash.pages, ← Nat.add_div_right _ pos, Nat.div_eq_iff pos]
      have less := Nat.mod_lt len.toNat pos
      have total := Nat.div_add_mod (len.toNat + d.writesize) d.writesize
      rw [Nat.add_mod_right, Nat.mul_comm] at total
      omega
    rw [pages]
    exact roundUp_toNat d.pageShift_lt part
  · next aligned =>
    have aligned := not_not.mp aligned
    have pages : d.pages len * d.writesize = len.toNat := by
      refine Nat.le_antisymm ?_ le_pages_mul
      have factor : len.toNat = len.toNat / d.writesize * d.writesize := by
        rw [Nat.mul_comm]
        omega
      have less := pages_mul_lt d len
      rw [factor, ← Nat.succ_mul] at less
      rw [factor]
      exact Nat.mul_le_mul_right _ (Nat.le_of_lt_succ (Nat.lt_of_mul_lt_mul_right less))
    rw [pages, Nat.mod_eq_of_lt len.isLt]

theorem rounded_of_wraps (wraps : 2 ^ 64 ≤ d.pages len * d.writesize) : d.rounded len = 0 := by
  have less := pages_mul_lt d len
  have inside := len.isLt
  have all : 2 ^ 64 = 2 ^ (64 - d.pageShift) * d.writesize := by
    rw [FpgaFlash.writesize, ← Nat.pow_add, Nat.sub_add_cancel (by have := d.pageShift_lt; omega)]
  have same : d.pages len * d.writesize = 2 ^ 64 := by
    rw [all] at wraps ⊢
    have least := Nat.le_of_mul_le_mul_right wraps d.writesize_pos
    have most : d.pages len * d.writesize < (2 ^ (64 - d.pageShift) + 1) * d.writesize := by
      rw [Nat.add_mul, Nat.one_mul, ← all]
      omega
    have most := Nat.lt_of_mul_lt_mul_right most
    rw [Nat.le_antisymm (Nat.le_of_lt_succ most) least]
  apply BitVec.eq_of_toNat_eq
  rw [rounded_toNat, same]
  rfl

/-! ### Progress -/

theorem mtdReadOob_eq (d : FpgaFlash) (n : ℕ) (off : BitVec 32) : (mtdReadOob d n off = 0 ∧
      (d.reads n = true → ¬ off.toNat + d.writesize ≤ d.size)) ∨
    (mtdReadOob d n off = d.writesize ∧ d.reads n = true ∧ off.toNat + d.writesize ≤ d.size) := by
  unfold mtdReadOob
  split
  · next succeeds => exact .inr ⟨rfl, by simpa using succeeds⟩
  · next fails => exact .inl ⟨rfl, by simpa using fails⟩

@[simp] theorem flashReadTurn_off (d : FpgaFlash) (l : FlashRead) :
    (flashReadTurn d l).off = l.off + BitVec.ofNat 32 (mtdReadOob d l.reads l.off) := by
  unfold flashReadTurn
  split <;> rfl

@[simp] theorem flashReadTurn_len (d : FpgaFlash) (l : FlashRead) :
    (flashReadTurn d l).len = l.len - BitVec.ofNat 64 (mtdReadOob d l.reads l.off) := by
  unfold flashReadTurn
  split <;> rfl

@[simp] theorem flashReadTurn_reads (d : FpgaFlash) (l : FlashRead) :
    (flashReadTurn d l).reads = l.reads + 1 := by
  unfold flashReadTurn
  split <;> rfl

/-- The number of bytes that a turn copies. -/
def copyLen (d : FpgaFlash) (l : FlashRead) : ℕ :=
  min l.remaining.toNat (mtdReadOob d l.reads l.off)

/-- A turn that copies. -/
theorem flashReadTurn_copies (notNull : l.cur ≠ 0) :
    flashReadTurn d l = ⟨put l.mem l.cur (copyLen d l) fun i => d.content (l.off.toNat + i),
      l.cur + BitVec.ofNat 64 (copyLen d l), l.remaining - BitVec.ofNat 64 (copyLen d l),
      (flashReadTurn d l).off, (flashReadTurn d l).len, l.reads + 1,
      (l.cur, copyLen d l) :: l.written⟩ := by
  have least : (if l.remaining.toNat < mtdReadOob d l.reads l.off then l.remaining.toNat
      else mtdReadOob d l.reads l.off) = copyLen d l := by
    rw [copyLen]
    split <;> omega
  rw [flashReadTurn_off, flashReadTurn_len]
  simp only [flashReadTurn, if_pos notNull, least]

theorem flashReadTurn_dumps (null : l.cur = 0) :
    (flashReadTurn d l).mem = l.mem ∧ (flashReadTurn d l).cur = 0 ∧
      (flashReadTurn d l).remaining = l.remaining ∧ (flashReadTurn d l).written = l.written := by
  simp [flashReadTurn, null]

/-- `k` of `pages` pages have come. -/
structure FlashProgress (d : FpgaFlash) (reads : ℕ) (off : BitVec 32) (pages k : ℕ) (l : FlashRead) :
    Prop where
  le : k ≤ pages
  len_eq : l.len.toNat = (pages - k) * d.writesize
  off_eq : l.off.toNat = off.toNat + k * d.writesize
  inDevice : ∀ j < k, off.toNat + (j + 1) * d.writesize ≤ d.size
  count : (∀ j < pages, off.toNat + (j + 1) * d.writesize ≤ d.size) →
    Nat.count (fun i => d.reads i) l.reads = Nat.count (fun i => d.reads i) reads + k

section
variable {pages k : ℕ}

/-- A turn gets nothing, or the next page. -/
theorem FlashProgress.turn (progress : FlashProgress d reads off pages k l) (going : l.len ≠ 0) :
    (mtdReadOob d l.reads l.off = 0 ∧ FlashProgress d reads off pages k (flashReadTurn d l)) ∨
      (mtdReadOob d l.reads l.off = d.writesize ∧
        FlashProgress d reads off pages (k + 1) (flashReadTurn d l)) := by
  have pos := d.writesize_pos
  have more : k < pages := by
    refine lt_of_le_of_ne progress.le fun all => going (BitVec.eq_of_toNat_eq ?_)
    rw [progress.len_eq, all, Nat.sub_self, Nat.zero_mul]
    rfl
  rcases mtdReadOob_eq d l.reads l.off with ⟨none, fails⟩ | ⟨page, comes, fits⟩
  · refine .inl ⟨none, progress.le, ?_, ?_, progress.inDevice, fun all => ?_⟩
    · rw [flashReadTurn_len, none, BitVec.sub_zero, progress.len_eq]
    · rw [flashReadTurn_off, none, BitVec.add_zero, progress.off_eq]
    · have failed : ¬ d.reads l.reads = true := fun comes => fails comes <| by
        rw [progress.off_eq, Nat.add_assoc, ← Nat.succ_mul]
        exact all k more
      rw [flashReadTurn_reads, Nat.count_succ, if_neg failed, Nat.add_zero, progress.count all]
  · rw [progress.off_eq, Nat.add_assoc, ← Nat.succ_mul] at fits
    have small := d.writesize_le
    have inside := d.size_lt
    have rest : (pages - k) * d.writesize = (pages - (k + 1)) * d.writesize + d.writesize := by
      rw [← Nat.succ_mul]
      congr 1
      omega
    refine .inr ⟨page, more, ?_, ?_, ?_, fun all => ?_⟩
    · have value : (BitVec.ofNat 64 d.writesize).toNat = d.writesize := by
        rw [BitVec.toNat_ofNat, Nat.mod_eq_of_lt (by omega)]
      have le : BitVec.ofNat 64 d.writesize ≤ l.len := by
        rw [BitVec.le_def, value, progress.len_eq, rest]
        exact Nat.le_add_left _ _
      rw [flashReadTurn_len, page, BitVec.toNat_sub_of_le le, value, progress.len_eq, rest,
        Nat.add_sub_cancel]
    · rw [flashReadTurn_off, page, BitVec.toNat_add, BitVec.toNat_ofNat, progress.off_eq,
        Nat.mod_eq_of_lt (a := d.writesize) (by omega), Nat.add_assoc, ← Nat.succ_mul,
        Nat.mod_eq_of_lt (Nat.lt_of_le_of_lt fits inside)]
    · intro j le
      rcases Nat.lt_succ_iff_lt_or_eq.mp le with less | rfl
      · exact progress.inDevice j less
      · exact fits
    · rw [flashReadTurn_reads, Nat.count_succ, if_pos comes, progress.count all, Nat.add_assoc]

theorem FlashProgress.run (progress : FlashProgress d reads off pages k l) (n : ℕ) :
    ∃ k, FlashProgress d reads off pages k (flashReadRun d n l) := by
  induction n generalizing k l with
  | zero => exact ⟨k, progress⟩
  | succ n ih =>
    rw [flashReadRun]
    split
    · exact ⟨k, progress⟩
    · next going =>
      rcases progress.turn going with ⟨-, next⟩ | ⟨-, next⟩
      · exact ih next
      · exact ih next

theorem FlashProgress.all (progress : FlashProgress d reads off pages k l) (done : l.len = 0) :
    k = pages := by
  have none := progress.len_eq
  rw [done] at none
  rcases Nat.mul_eq_zero.mp none.symm with zero | zero
  · exact Nat.le_antisymm progress.le (Nat.sub_eq_zero_iff_le.mp zero)
  · exact absurd zero d.writesize_pos.ne'

theorem FlashProgress.answers (progress : FlashProgress d reads off pages k l) (done : l.len = 0) :
    FlashAnswers d reads off pages := by
  cases progress.all done
  exact ⟨progress.inDevice, l.reads, (progress.count progress.inDevice).ge⟩

theorem FlashAnswers.fits (answers : FlashAnswers d reads off pages) :
    pages * d.writesize < 2 ^ 64 := by
  have inside := d.size_lt
  cases pages with
  | zero => rw [Nat.zero_mul]; decide
  | succ last =>
    have page := answers.inDevice last (Nat.lt_succ_self last)
    omega

theorem FlashAnswers.ends (answers : FlashAnswers d reads off pages)
    (progress : FlashProgress d reads off pages k l) : ∃ n, (flashReadRun d n l).len = 0 := by
  obtain ⟨last, enough⟩ := answers.enough
  induction left : last - l.reads generalizing k l with
  | zero =>
    -- the reads so far had all the successes
    refine ⟨0, BitVec.eq_of_toNat_eq ?_⟩
    have counted := progress.count answers.inDevice
    have before := Nat.count_monotone (fun i => d.reads i = true) (Nat.sub_eq_zero_iff_le.mp left)
    have all : k = pages := Nat.le_antisymm progress.le (by omega)
    rw [flashReadRun, progress.len_eq, all, Nat.sub_self, Nat.zero_mul]
    rfl
  | succ left ih =>
    by_cases done : l.len = 0
    · exact ⟨0, done⟩
    have next : ∃ k, FlashProgress d reads off pages k (flashReadTurn d l) := by
      rcases progress.turn done with ⟨-, next⟩ | ⟨-, next⟩
      · exact ⟨k, next⟩
      · exact ⟨k + 1, next⟩
    obtain ⟨k, next⟩ := next
    obtain ⟨n, ends⟩ := ih next (by rw [flashReadTurn_reads]; omega)
    exact ⟨n + 1, by rw [flashReadRun, if_neg done]; exact ends⟩

end

theorem flashReadRun_of_done (done : l.len = 0) (n : ℕ) : flashReadRun d n l = l := by
  cases n with
  | zero => rfl
  | succ n => rw [flashReadRun, if_pos done]

theorem flashReadRun_add (n k : ℕ) (l : FlashRead) :
    flashReadRun d (n + k) l = flashReadRun d k (flashReadRun d n l) := by
  induction n generalizing l with
  | zero => rw [Nat.zero_add, flashReadRun]
  | succ n ih =>
    rw [Nat.add_right_comm, flashReadRun, flashReadRun]
    split
    · next done => rw [flashReadRun_of_done done]
    · exact ih _

/-! ### What is copied -/

/-- The number of bytes that the first `k` pages bring. -/
def FpgaFlash.brought (d : FpgaFlash) (len : Word) (k : ℕ) : ℕ := min (k * d.writesize) len.toNat

/-- The first `k` pages are in place. -/
structure FlashCopied (d : FpgaFlash) (mem : Mem) (dest : Word) (off : BitVec 32) (len : Word)
    (k : ℕ) (l : FlashRead) : Prop where
  mem_eq : l.mem = put mem dest (d.brought len k) fun i => d.content (off.toNat + i)
  cur_eq : l.cur = dest + BitVec.ofNat 64 (d.brought len k)
  remaining_eq : l.remaining.toNat = len.toNat - d.brought len k
  inside : ∀ w ∈ l.written, span w.1 w.2 ⊆ span dest (d.brought len k)

section
variable {pages k : ℕ}

/-- A turn at a destination that is not null brings as many bytes as its pages have. -/
theorem FlashCopied.turn (copied : FlashCopied d mem dest off len k l) {next : ℕ}
    (from_page : l.off.toNat = off.toNat + k * d.writesize) (more : k * d.writesize < len.toNat)
    (notNull : dest + BitVec.ofNat 64 (k * d.writesize) ≠ 0)
    (got : next * d.writesize = k * d.writesize + mtdReadOob d l.reads l.off) :
    FlashCopied d mem dest off len next (flashReadTurn d l) := by
  have range := len.isLt
  have brought : d.brought len k = k * d.writesize := Nat.min_eq_left more.le
  have length : d.brought len next = d.brought len k + copyLen d l := by
    rw [copyLen, copied.remaining_eq, FpgaFlash.brought, got, brought]
    omega
  have least : d.brought len next ≤ len.toNat := Nat.min_le_right _ _
  have small : copyLen d l < 2 ^ 64 := by omega
  have place : l.cur ≠ 0 := by
    rw [copied.cur_eq, brought]
    exact notNull
  rw [flashReadTurn_copies place]
  refine ⟨?_, ?_, ?_, ?_⟩
  · dsimp only
    rw [copied.mem_eq, copied.cur_eq, length, ← put_put (by omega), from_page, brought]
    simp only [Nat.add_assoc]
  · dsimp only
    rw [copied.cur_eq, length, BitVec.ofNat_add, BitVec.add_assoc]
  · show (l.remaining - BitVec.ofNat 64 (copyLen d l)).toNat = _
    have value : (BitVec.ofNat 64 (copyLen d l)).toNat = copyLen d l := by
      rw [BitVec.toNat_ofNat, Nat.mod_eq_of_lt small]
    have le : BitVec.ofNat 64 (copyLen d l) ≤ l.remaining := by
      rw [BitVec.le_def, value]
      exact Nat.min_le_left _ _
    rw [BitVec.toNat_sub_of_le le, value, copied.remaining_eq, length, Nat.sub_sub]
  · intro w written
    rw [length]
    rcases List.mem_cons.mp written with rfl | before
    · rw [copied.cur_eq]
      exact span_offset_subset le_rfl
    · exact (copied.inside w before).trans (span_mono (Nat.le_add_right _ _))

/-- A turn that gets nothing leaves what is copied, also at a null destination. -/
theorem FlashCopied.wait (copied : FlashCopied d mem dest off len k l)
    (from_page : l.off.toNat = off.toNat + k * d.writesize) (more : k * d.writesize < len.toNat)
    (none : mtdReadOob d l.reads l.off = 0) :
    FlashCopied d mem dest off len k (flashReadTurn d l) := by
  by_cases null : l.cur = 0
  · obtain ⟨mem_eq, cur_eq, remaining_eq, written_eq⟩ := flashReadTurn_dumps (d := d) null
    refine ⟨mem_eq.trans copied.mem_eq, ?_, ?_, ?_⟩
    · rw [cur_eq, ← null, copied.cur_eq]
    · rw [remaining_eq, copied.remaining_eq]
    · rw [written_eq]
      exact copied.inside
  · refine copied.turn from_page more ?_ (by rw [none, Nat.add_zero])
    rw [copied.cur_eq, FpgaFlash.brought, Nat.min_eq_left more.le] at null
    exact null

/-- No page of the device goes to a null destination. -/
def NeverNull (d : FpgaFlash) (dest : Word) (off : BitVec 32) (len : Word) : Prop :=
  ∀ k, k * d.writesize < len.toNat → off.toNat + (k + 1) * d.writesize ≤ d.size →
    dest + BitVec.ofNat 64 (k * d.writesize) ≠ 0

/-- So many pages have come, and they are in place. -/
structure FlashLoop (d : FpgaFlash) (mem : Mem) (reads : ℕ) (dest : Word) (off : BitVec 32)
    (len : Word) (k : ℕ) (l : FlashRead) : Prop where
  progress : FlashProgress d reads off (d.pages len) k l
  copied : FlashCopied d mem dest off len k l

theorem FlashLoop.turn (loop : FlashLoop d mem reads dest off len k l)
    (notNull : NeverNull d dest off len) (going : l.len ≠ 0) :
    ∃ k, FlashLoop d mem reads dest off len k (flashReadTurn d l) := by
  have from_page := loop.progress.off_eq
  have more : k * d.writesize < len.toNat := by
    refine lt_pages_iff.mp (lt_of_le_of_ne loop.progress.le fun all => going ?_)
    apply BitVec.eq_of_toNat_eq
    rw [loop.progress.len_eq, all, Nat.sub_self, Nat.zero_mul]
    rfl
  rcases loop.progress.turn going with ⟨none, next⟩ | ⟨page, next⟩
  · exact ⟨k, next, loop.copied.wait from_page more none⟩
  · refine ⟨k + 1, next, loop.copied.turn from_page more ?_ ?_⟩
    · exact notNull k more (next.inDevice k (Nat.lt_succ_self k))
    · rw [page, Nat.succ_mul]

theorem FlashLoop.run (loop : FlashLoop d mem reads dest off len k l)
    (notNull : NeverNull d dest off len) (n : ℕ) :
    ∃ k, FlashLoop d mem reads dest off len k (flashReadRun d n l) := by
  induction n generalizing k l with
  | zero => exact ⟨k, loop⟩
  | succ n ih =>
    rw [flashReadRun]
    split
    · exact ⟨k, loop⟩
    · next going =>
      obtain ⟨k, next⟩ := loop.turn notNull going
      exact ih next

end

/-! ### A page for a null destination -/

/-- The destination is null, or is to be, and the byte there is as before. -/
structure FlashStuck (d : FpgaFlash) (mem : Mem) (l : FlashRead) : Prop where
  kept : l.mem 0 = mem 0
  comes : l.cur = 0 ∨ ∃ j, l.cur + BitVec.ofNat 64 (j * d.writesize) = 0 ∧
    j * d.writesize < l.remaining.toNat

theorem FlashStuck.turn (stuck : FlashStuck d mem l) : FlashStuck d mem (flashReadTurn d l) := by
  by_cases null : l.cur = 0
  · obtain ⟨mem_eq, cur_eq, -, -⟩ := flashReadTurn_dumps (d := d) null
    exact ⟨by rw [mem_eq, stuck.kept], .inl cur_eq⟩
  · obtain ⟨j, zero, more⟩ := stuck.comes.resolve_left null
    have range := l.remaining.isLt
    have away : (0 - l.cur).toNat = j * d.writesize := by
      rw [← zero, show l.cur + BitVec.ofNat 64 (j * d.writesize) - l.cur =
        BitVec.ofNat 64 (j * d.writesize) by abel, BitVec.toNat_ofNat]
      exact Nat.mod_eq_of_lt (by omega)
    have positive : j ≠ 0 := by
      rintro rfl
      rw [Nat.zero_mul, BitVec.add_zero] at zero
      exact null zero
    obtain ⟨j, rfl⟩ := Nat.exists_eq_succ_of_ne_zero positive
    rw [Nat.succ_mul] at away more zero
    rw [flashReadTurn_copies null]
    rcases mtdReadOob_eq d l.reads l.off with ⟨none, -⟩ | ⟨page, -, -⟩
    · have nothing : copyLen d l = 0 := by rw [copyLen, none, Nat.min_zero]
      rw [nothing]
      exact ⟨by simpa using stuck.kept, .inr ⟨j + 1, by simpa [Nat.succ_mul] using zero, by
        simpa [Nat.succ_mul] using more⟩⟩
    · have full : copyLen d l = d.writesize := by
        rw [copyLen, page]
        exact Nat.min_eq_right (by omega)
      have small := d.writesize_le
      have value : (BitVec.ofNat 64 d.writesize).toNat = d.writesize := by
        rw [BitVec.toNat_ofNat, Nat.mod_eq_of_lt (by omega)]
      rw [full]
      refine ⟨?_, .inr ⟨j, ?_, ?_⟩⟩
      · dsimp only
        rw [put_of_notMem (by rw [mem_span, away]; omega), stuck.kept]
      · rw [BitVec.ofNat_add] at zero
        dsimp only
        rw [← zero]
        abel
      · have le : BitVec.ofNat 64 d.writesize ≤ l.remaining := by
          rw [BitVec.le_def, value]
          omega
        dsimp only
        rw [BitVec.toNat_sub_of_le le, value]
        omega

theorem FlashStuck.run (stuck : FlashStuck d mem l) (n : ℕ) :
    FlashStuck d mem (flashReadRun d n l) := by
  induction n generalizing l with
  | zero => exact stuck
  | succ n ih =>
    rw [flashReadRun]
    split
    · exact stuck
    · exact ih stuck.turn

/-! ### Reads -/

theorem flashReadStart_eq (initialized : d.isInitialized = true)
    (aligned : off.toNat % d.writesize = 0) :
    flashReadStart d reads dest off len mem = some ⟨mem, dest, len, off, d.rounded len, reads, []⟩ := by
  rw [flashReadStart, initialized, aligned]
  rfl

/-- A length that does not wrap starts the loop with all pages to come. -/
theorem FlashLoop.start (mem : Mem) (dest : Word) (fits : d.pages len * d.writesize < 2 ^ 64) :
    FlashLoop d mem reads dest off len 0 ⟨mem, dest, len, off, d.rounded len, reads, []⟩ where
  progress := {
    le := Nat.zero_le _
    len_eq := by rw [rounded_toNat, Nat.mod_eq_of_lt fits, Nat.sub_zero]
    off_eq := by rw [Nat.zero_mul, Nat.add_zero]
    inDevice := fun j less => absurd less (Nat.not_lt_zero j)
    count := fun _ => rfl }
  copied := {
    mem_eq := by simp [FpgaFlash.brought]
    cur_eq := by simp [FpgaFlash.brought]
    remaining_eq := by simp [FpgaFlash.brought]
    inside := List.forall_mem_nil _ }

section
variable (initialized : d.isInitialized = true) (aligned : off.toNat % d.writesize = 0)
include initialized aligned

theorem fpgaFlashRead_result : (fpgaFlashRead d n reads dest off len mem).result =
    if (flashReadRun d n ⟨mem, dest, len, off, d.rounded len, reads, []⟩).len = 0 then some true
    else none := by
  rw [fpgaFlashRead, flashReadStart_eq initialized aligned]

theorem fpgaFlashRead_mem : (fpgaFlashRead d n reads dest off len mem).mem =
    (flashReadRun d n ⟨mem, dest, len, off, d.rounded len, reads, []⟩).mem := by
  rw [fpgaFlashRead, flashReadStart_eq initialized aligned]

theorem fpgaFlashRead_reads : (fpgaFlashRead d n reads dest off len mem).reads =
    (flashReadRun d n ⟨mem, dest, len, off, d.rounded len, reads, []⟩).reads := by
  rw [fpgaFlashRead, flashReadStart_eq initialized aligned]

theorem fpgaFlashRead_written : (fpgaFlashRead d n reads dest off len mem).written =
    (flashReadRun d n ⟨mem, dest, len, off, d.rounded len, reads, []⟩).written := by
  rw [fpgaFlashRead, flashReadStart_eq initialized aligned]

theorem FlashAnswers.of_ends (fits : d.pages len * d.writesize < 2 ^ 64)
    (ends : (fpgaFlashRead d n reads dest off len mem).result ≠ none) :
    FlashAnswers d reads off (d.pages len) := by
  rw [fpgaFlashRead_result initialized aligned] at ends
  split at ends
  · next done =>
    obtain ⟨k, progress⟩ := (FlashLoop.start mem dest fits).progress.run n
    exact progress.answers done
  · exact absurd rfl ends

/-- What a read that is true brought. -/
structure FlashBrought (d : FpgaFlash) (reads : ℕ) (dest : Word) (off : BitVec 32) (len : Word)
    (mem : Mem) (read : ReadOutcome) : Prop where
  mem_eq : read.mem = put mem dest len.toNat fun i => d.content (off.toNat + i)
  count : Nat.count (fun i => d.reads i) read.reads =
    Nat.count (fun i => d.reads i) reads + d.pages len

theorem FlashBrought.of_true (fits : d.pages len * d.writesize < 2 ^ 64)
    (notNull : NeverNull d dest off len)
    (comes : (fpgaFlashRead d n reads dest off len mem).result = some true) :
    FlashBrought d reads dest off len mem (fpgaFlashRead d n reads dest off len mem) := by
  rw [fpgaFlashRead_result initialized aligned] at comes
  split at comes
  · next done =>
    obtain ⟨k, loop⟩ := (FlashLoop.start mem dest fits).run notNull n
    have last := loop.progress.all done
    have all : d.brought len k = len.toNat := by
      rw [FpgaFlash.brought, last]
      exact Nat.min_eq_right le_pages_mul
    refine ⟨?_, ?_⟩
    · rw [fpgaFlashRead_mem initialized aligned, loop.copied.mem_eq, all]
    · rw [fpgaFlashRead_reads initialized aligned, ← last]
      exact loop.progress.count (last ▸ loop.progress.inDevice)
  · exact absurd comes.symm (Option.some_ne_none true)

theorem fpgaFlashRead_not_false :
    (fpgaFlashRead d n reads dest off len mem).result ≠ some false := by
  rw [fpgaFlashRead_result initialized aligned]
  split
  · exact fun same => absurd (Option.some.inj same).symm Bool.false_ne_true
  · exact (Option.some_ne_none false).symm

theorem FlashAnswers.comes (answers : FlashAnswers d reads off (d.pages len)) (dest : Word)
    (mem : Mem) : ∃ n, (fpgaFlashRead d n reads dest off len mem).result = some true := by
  obtain ⟨n, done⟩ := answers.ends (FlashLoop.start mem dest answers.fits).progress
  exact ⟨n, by rw [fpgaFlashRead_result initialized aligned, if_pos done]⟩

theorem ReadsTruly.not_wraps (truly : ReadsTruly d reads dest off len) :
    d.pages len * d.writesize < 2 ^ 64 := by
  by_contra wraps
  have wraps := not_lt.mp wraps
  have zero := rounded_of_wraps wraps
  have some : 0 < len.toNat := by
    have less := pages_mul_lt d len
    have small := d.writesize_le
    omega
  have holds := truly.holds (fun _ => d.content off.toNat + 1) 0
  rw [fpgaFlashRead_result initialized aligned, fpgaFlashRead_mem initialized aligned] at holds
  have same := holds (if_pos zero) 0 some
  exact absurd (add_eq_left.mp same) (by decide)

theorem ReadsTruly.readable (truly : ReadsTruly d reads dest off len) :
    FlashReadable d reads dest off len := by
  have fits := truly.not_wraps initialized aligned
  refine ⟨?_, fun k more null => ?_⟩
  · obtain ⟨n, ends⟩ := truly.ends fun _ => 0
    exact .of_ends initialized aligned fits ends
  · -- the byte at the null address is one that the read is to bring
    obtain ⟨n, ends⟩ := truly.ends fun _ => d.content (off.toNat + k * d.writesize) + 1
    have result : (fpgaFlashRead d n reads dest off len fun _ =>
        d.content (off.toNat + k * d.writesize) + 1).result = some true := by
      rw [fpgaFlashRead_result initialized aligned] at ends ⊢
      split at ends
      · next done => rw [if_pos done]
      · exact absurd rfl ends
    have holds := truly.holds _ n result (k * d.writesize) more
    have start : FlashStuck d (fun _ => d.content (off.toNat + k * d.writesize) + 1)
        ⟨fun _ => d.content (off.toNat + k * d.writesize) + 1, dest, len, off, d.rounded len, reads,
          []⟩ := ⟨rfl, .inr ⟨k, null, more⟩⟩
    rw [null, fpgaFlashRead_mem initialized aligned, (start.run n).kept] at holds
    exact absurd (add_eq_left.mp holds) (by decide)

end

/-- More turns change nothing about a read that has ended. -/
theorem fpgaFlashRead_more {k : ℕ} (ends : (fpgaFlashRead d n reads dest off len mem).result ≠ none)
    (more : n ≤ k) :
    fpgaFlashRead d k reads dest off len mem = fpgaFlashRead d n reads dest off len mem := by
  obtain ⟨k, rfl⟩ := Nat.exists_eq_add_of_le more
  unfold fpgaFlashRead at ends ⊢
  cases start : flashReadStart d reads dest off len mem with
  | none => rfl
  | some l =>
    rw [start] at ends
    have done : (flashReadRun d n l).len = 0 := by
      by_contra going
      exact ends (if_neg going)
    dsimp only
    rw [flashReadRun_add, flashReadRun_of_done done]

theorem fpgaFlashRead_of_wraps (initialized : d.isInitialized = true)
    (aligned : off.toNat % d.writesize = 0) (wraps : 2 ^ 64 ≤ d.pages len * d.writesize) :
    (fpgaFlashRead d n reads dest off len mem).result = some true := by
  rw [fpgaFlashRead_result initialized aligned, rounded_of_wraps wraps, flashReadRun_of_done rfl,
    if_pos rfl]

theorem fpgaFlashRead_stops (stops : ¬ (d.isInitialized = true ∧ off.toNat % d.writesize = 0)) :
    fpgaFlashRead d n reads dest off len mem = ⟨some false, mem, reads, []⟩ := by
  have none : flashReadStart d reads dest off len mem = none := by
    rw [flashReadStart]
    split
    · rfl
    · next initialized =>
      rw [if_pos fun aligned => stops ⟨by simpa using initialized, aligned⟩]
  rw [fpgaFlashRead, none]

theorem fpgaFlashRead_inside (notNull : NeverNull d dest off len) :
    ∀ w ∈ (fpgaFlashRead d n reads dest off len mem).written, span w.1 w.2 ⊆ span dest len.toNat := by
  intro w written
  by_cases starts : d.isInitialized = true ∧ off.toNat % d.writesize = 0
  · rw [fpgaFlashRead_written starts.1 starts.2] at written
    by_cases fits : d.pages len * d.writesize < 2 ^ 64
    · obtain ⟨k, loop⟩ := (FlashLoop.start mem dest fits).run notNull n
      exact (loop.copied.inside w written).trans (span_mono (Nat.min_le_right _ _))
    · -- nothing is read
      rw [rounded_of_wraps (not_lt.mp fits), flashReadRun_of_done rfl] at written
      exact absurd written List.not_mem_nil
  · rw [fpgaFlashRead_stops starts] at written
    exact absurd written List.not_mem_nil

theorem FlashReadable.truly (initialized : d.isInitialized = true)
    (aligned : off.toNat % d.writesize = 0) (readable : FlashReadable d reads dest off len) :
    ReadsTruly d reads dest off len := by
  have notNull : NeverNull d dest off len := fun k more _ => readable.notNull k more
  refine ⟨fun mem => ?_, fun mem n comes i less => ?_, fun mem n => fpgaFlashRead_inside notNull⟩
  · obtain ⟨n, comes⟩ := readable.answers.comes initialized aligned dest mem
    exact ⟨n, by rw [comes]; exact Option.some_ne_none true⟩
  · rw [(FlashBrought.of_true initialized aligned readable.answers.fits notNull comes).mem_eq]
    exact put_apply less len.isLt.le

theorem readsTruly_iff : ReadsTruly d reads dest off len ↔
    (d.isInitialized = true → off.toNat % d.writesize = 0 → FlashReadable d reads dest off len) := by
  refine ⟨fun truly initialized aligned => truly.readable initialized aligned, fun readable => ?_⟩
  by_cases starts : d.isInitialized = true ∧ off.toNat % d.writesize = 0
  · exact FlashReadable.truly starts.1 starts.2 (readable starts.1 starts.2)
  · refine ⟨fun mem => ⟨0, ?_⟩, fun mem n holds => ?_, fun mem n w written => ?_⟩
    · rw [fpgaFlashRead_stops starts]
      exact Option.some_ne_none false
    · rw [fpgaFlashRead_stops starts] at holds
      exact absurd (Option.some.inj holds) Bool.false_ne_true
    · rw [fpgaFlashRead_stops starts] at written
      exact absurd written List.not_mem_nil

end Hss
