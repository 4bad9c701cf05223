import Hss.Lib.ByteMemory
import Mathlib.Data.List.TakeWhile

/-! Lists of bytes laid out in memory: little-endian fields, concatenations and tables, and the loads
that read them back. -/

namespace ByteMemory

variable {w : ℕ} {β : Type} {m : Memory w β} {p : BitVec w} {off : ℕ} {a b : List β}

theorem offset_offset (p : BitVec w) (i j : ℕ) :
    p + BitVec.ofNat w i + BitVec.ofNat w j = p + BitVec.ofNat w (i + j) := by
  rw [BitVec.add_assoc, ← BitVec.ofNat_add]

/-- From `off` past `p` on, the memory holds the list. -/
def HoldsAt (m : Memory w β) (p : BitVec w) (off : ℕ) (l : List β) : Prop :=
  ∀ i, ∀ less : i < l.length, m (p + BitVec.ofNat w (off + i)) = l[i]

theorem exists_holdsAt [Inhabited β] {l : List β} (small : l.length ≤ 2 ^ w) (p : BitVec w) :
    ∃ m : Memory w β, HoldsAt m p 0 l := by
  refine ⟨fun a => l.getD (a - p).toNat default, fun i less => ?_⟩
  have offset : p + BitVec.ofNat w (0 + i) - p = BitVec.ofNat w i := by
    rw [Nat.zero_add, add_sub_cancel_left]
  show l.getD (p + BitVec.ofNat w (0 + i) - p).toNat default = l[i]
  rw [offset, BitVec.toNat_ofNat, Nat.mod_eq_of_lt (Nat.lt_of_lt_of_le less small),
    List.getD_eq_getElem?_getD, List.getElem?_eq_getElem less, Option.getD_some]

theorem HoldsAt.congr {m' : Memory w β} {l : List β} (holds : HoldsAt m p 0 l)
    (same : Set.EqOn m m' (span p l.length)) : HoldsAt m' p 0 l := by
  intro i less
  rw [← holds i less, Nat.zero_add]
  exact (same (add_mem_span less)).symm

theorem holdsAt_append :
    HoldsAt m p off (a ++ b) ↔ HoldsAt m p off a ∧ HoldsAt m p (off + a.length) b := by
  constructor
  · intro holds
    refine ⟨fun i less => ?_, fun i less => ?_⟩
    · have inside : i < (a ++ b).length := by
        rw [List.length_append]
        omega
      rw [holds i inside, List.getElem_append_left less]
    · have inside : a.length + i < (a ++ b).length := by
        rw [List.length_append]
        omega
      rw [Nat.add_assoc, holds _ inside, List.getElem_append_right (Nat.le_add_right _ _)]
      simp only [Nat.add_sub_cancel_left]
  · rintro ⟨first, second⟩ i less
    rcases Nat.lt_or_ge i a.length with inside | past
    · rw [first i inside, List.getElem_append_left inside]
    · have rest : i - a.length < b.length := by
        rw [List.length_append] at less
        omega
      have holds := second (i - a.length) rest
      rw [Nat.add_assoc, Nat.add_sub_cancel' past] at holds
      rw [holds, List.getElem_append_right past]

/-- An entry of a table whose entries are `k` elements each. -/
theorem HoldsAt.entry {table : List (List β)} {k : ℕ} (length : ∀ entry ∈ table, entry.length = k)
    (holds : HoldsAt m p off table.flatten) {i : ℕ} (less : i < table.length) :
    HoldsAt m p (off + k * i) table[i] := by
  induction table generalizing off i with
  | nil => exact absurd less (Nat.not_lt_zero _)
  | cons entry table ih =>
    rw [List.flatten_cons, holdsAt_append, length _ (List.mem_cons_self ..)] at holds
    cases i with
    | zero => exact holds.1
    | succ i =>
      have rest := ih (fun x present => length x (List.mem_cons_of_mem _ present)) holds.2
        (Nat.lt_of_succ_lt_succ less)
      rwa [Nat.add_assoc, Nat.add_comm k, ← Nat.mul_succ] at rest

/-! ### Tables that a final entry ends -/

section
variable {α : Type} {read : BitVec w → α} {final : α → Bool} {k fuel : ℕ} {table : List α}

/-- Reads the entries of a table, which are `stride` apart, up to the first that is final. -/
def walkTable (read : BitVec w → α) (final : α → Bool) (stride : BitVec w) :
    ℕ → BitVec w → Option (List α)
  | 0, _ => none
  | fuel + 1, p =>
    if final (read p) then some []
    else (walkTable read final stride fuel (p + stride)).map (read p :: ·)

/-- A walk finds the entries before the first that is final. -/
theorem walkTable_eq
    (reads : ∀ i, ∀ less : i < table.length, read (p + BitVec.ofNat w (k * i)) = table[i])
    (ends : final (read (p + BitVec.ofNat w (k * table.length))) = true)
    (enough : table.length < fuel) :
    walkTable read final (BitVec.ofNat w k) fuel p = some (table.takeWhile fun x => !final x) := by
  induction table generalizing p fuel with
  | nil =>
    obtain ⟨fuel, rfl⟩ := Nat.exists_eq_succ_of_ne_zero (Nat.ne_zero_of_lt enough)
    rw [List.length_nil, Nat.mul_zero, BitVec.add_zero] at ends
    rw [walkTable, if_pos ends, List.takeWhile_nil]
  | cons x table ih =>
    obtain ⟨fuel, rfl⟩ := Nat.exists_eq_succ_of_ne_zero (Nat.ne_zero_of_lt enough)
    have shift (i : ℕ) : p + BitVec.ofNat w k + BitVec.ofNat w (k * i) =
        p + BitVec.ofNat w (k * (i + 1)) := by
      rw [offset_offset, Nat.mul_succ, Nat.add_comm]
    have first := reads 0 (Nat.succ_pos _)
    rw [Nat.mul_zero, BitVec.add_zero] at first
    have rest := @ih (p + BitVec.ofNat w k) fuel
      (fun i less => by
        rw [shift]
        exact reads (i + 1) (Nat.succ_lt_succ less))
      (by rwa [shift]) (Nat.lt_of_succ_lt_succ enough)
    rw [walkTable, first, rest, List.getElem_cons_zero]
    cases stops : final x with
    | true => rw [if_pos rfl, List.takeWhile_cons_of_neg (by simp [stops])]
    | false =>
      rw [if_neg Bool.false_ne_true, List.takeWhile_cons_of_pos (by simp [stops]), Option.map_some]

/-- A walk finds all entries of a table that has no final one before its end. -/
theorem walkTable_whole (others : ∀ x ∈ table, final x = false)
    (reads : ∀ i, ∀ less : i < table.length, read (p + BitVec.ofNat w (k * i)) = table[i])
    (ends : final (read (p + BitVec.ofNat w (k * table.length))) = true)
    (enough : table.length < fuel) :
    walkTable read final (BitVec.ofNat w k) fuel p = some table := by
  have whole : (table.takeWhile fun x => !final x) = table := by
    rw [List.takeWhile_eq_self_iff]
    intro x present
    rw [others x present]
    rfl
  rw [walkTable_eq reads ends enough, whole]

end

/-! ### Little-endian fields -/

/-- The `n` bytes of a value, the lowest first. -/
def bytesLE : ℕ → ℕ → List (BitVec 8)
  | 0, _ => []
  | n + 1, value => BitVec.ofNat 8 value :: bytesLE n (value / 256)

@[simp] theorem length_bytesLE (n value : ℕ) : (bytesLE n value).length = n := by
  induction n generalizing value with
  | zero => rfl
  | succ n ih => rw [bytesLE, List.length_cons, ih]

theorem HoldsAt.loadLE {m : Memory w (BitVec 8)} {n value : ℕ}
    (holds : HoldsAt m p off (bytesLE n value)) :
    loadLE m (p + BitVec.ofNat w off) n = value % 256 ^ n := by
  induction n generalizing off value with
  | zero => rw [Nat.pow_zero, Nat.mod_one, ByteMemory.loadLE]
  | succ n ih =>
    have first := holds 0 (Nat.succ_pos _)
    have rest : HoldsAt m p (off + 1) (bytesLE n (value / 256)) := by
      intro i less
      have holds := holds (i + 1) (Nat.succ_lt_succ less)
      rwa [show off + (i + 1) = off + 1 + i by omega] at holds
    have next : p + BitVec.ofNat w off + 1 = p + BitVec.ofNat w (off + 1) := offset_offset p off 1
    have digits : value % 256 ^ (n + 1) = value % 256 + 256 * (value / 256 % 256 ^ n) := by
      rw [Nat.pow_succ', Nat.mod_mul]
    rw [Nat.add_zero] at first
    rw [ByteMemory.loadLE, first, next, ih rest, digits]
    show (BitVec.ofNat 8 value).toNat + _ = _
    rw [BitVec.toNat_ofNat]

end ByteMemory
