import Mathlib.Data.BitVec
import Mathlib.Data.Set.Lattice
import Mathlib.Order.CompletePartialOrder
import Mathlib.Tactic.Abel
import Mathlib.Tactic.Ring

/-! Flat memory addressed by words of `w` bits: spans of addresses that may wrap around the end of
the address space, fills and copies of a span, and little-endian loads. -/

namespace ByteMemory

variable {w : ℕ} {β : Type}

/-- A memory: the content of each address. -/
abbrev Memory (w : ℕ) (β : Type) := BitVec w → β

/-- The `len` addresses from `base` on, modulo the size of the address space. -/
def span (base : BitVec w) (len : ℕ) : Set (BitVec w) := {a | (a - base).toNat < len}

instance (base : BitVec w) (len : ℕ) (a : BitVec w) : Decidable (a ∈ span base len) :=
  inferInstanceAs (Decidable ((a - base).toNat < len))

theorem mem_span {base a : BitVec w} {len : ℕ} : a ∈ span base len ↔ (a - base).toNat < len :=
  Iff.rfl

theorem span_mono {base : BitVec w} {len len' : ℕ} (h : len ≤ len') :
    span base len ⊆ span base len' := fun _ ha => Nat.lt_of_lt_of_le ha h

theorem add_mem_span {base : BitVec w} {i len : ℕ} (h : i < len) :
    base + BitVec.ofNat w i ∈ span base len := by
  rw [mem_span, show base + BitVec.ofNat w i - base = BitVec.ofNat w i by abel,
    BitVec.toNat_ofNat]
  exact Nat.lt_of_le_of_lt (Nat.mod_le _ _) h

theorem span_offset_subset {base : BitVec w} {i n len : ℕ} (h : i + n ≤ len) :
    span (base + BitVec.ofNat w i) n ⊆ span base len := by
  intro a ha
  rw [mem_span] at ha ⊢
  have hsum : a - base = (a - (base + BitVec.ofNat w i)) + BitVec.ofNat w i := by abel
  rw [hsum, BitVec.toNat_add, BitVec.toNat_ofNat]
  have h1 := Nat.mod_le ((a - (base + BitVec.ofNat w i)).toNat + i % 2 ^ w) (2 ^ w)
  have h2 := Nat.mod_le i (2 ^ w)
  omega

theorem span_zero {base : BitVec w} : span base 0 = ∅ :=
  Set.eq_empty_of_forall_notMem fun _ => Nat.not_lt_zero _

theorem base_mem_span {base : BitVec w} {len : ℕ} (some : 0 < len) : base ∈ span base len := by
  rw [mem_span, sub_self]
  exact some

theorem span_subset_span_iff {base : BitVec w} {n k : ℕ} (fits : k < 2 ^ w) :
    span base n ⊆ span base k ↔ n ≤ k := by
  refine ⟨fun subset => not_lt.mp fun longer => ?_, span_mono⟩
  have past := subset (add_mem_span longer)
  rw [mem_span, add_sub_cancel_left, BitVec.toNat_ofNat, Nat.mod_eq_of_lt fits] at past
  exact lt_irrefl _ past

/-- Two spans are disjoint when one is empty, or each ends before the other starts. -/
theorem span_disjoint_iff {a b : BitVec w} {n k : ℕ} :
    Disjoint (span a n) (span b k) ↔
      n = 0 ∨ k = 0 ∨ (n ≤ (b - a).toNat ∧ k ≤ (a - b).toNat) := by
  rcases Nat.eq_zero_or_pos n with rfl | someA
  · simp [span_zero]
  rcases Nat.eq_zero_or_pos k with rfl | someB
  · simp [span_zero]
  have splits : (n = 0 ∨ k = 0 ∨ (n ≤ (b - a).toNat ∧ k ≤ (a - b).toNat)) ↔
      n ≤ (b - a).toNat ∧ k ≤ (a - b).toNat := by omega
  rw [splits, Set.disjoint_left]
  constructor
  · intro apart
    refine ⟨not_lt.mp fun inside => ?_, not_lt.mp fun inside => ?_⟩
    · exact apart (mem_span.mpr inside) (base_mem_span someB)
    · exact apart (base_mem_span someA) (mem_span.mpr inside)
  · rintro ⟨first, second⟩ x inA inB
    rw [mem_span] at inA inB
    -- the way around is no longer than the address space
    have around : (a - b).toNat + (b - a).toNat = 2 ^ w := by
      have opposite : a - b = -(b - a) := by abel
      have inside := (b - a).isLt
      rw [opposite, BitVec.toNat_neg, Nat.mod_eq_of_lt (by omega)]
      omega
    have sum : (x - a).toNat = (x - b).toNat + (b - a).toNat := by
      rw [show x - a = (x - b) + (b - a) by abel, BitVec.toNat_add, Nat.mod_eq_of_lt (by omega)]
    omega

/-- The memory after the `len` addresses from `dst` on are set to `value`. -/
def fill (m : Memory w β) (dst : BitVec w) (len : ℕ) (value : β) : Memory w β :=
  fun a => if (a - dst).toNat < len then value else m a

/-- The memory after the `len` addresses from `src` on are copied to `dst`. -/
def copy (m : Memory w β) (dst src : BitVec w) (len : ℕ) : Memory w β :=
  fun a => if (a - dst).toNat < len then m (src + (a - dst)) else m a

/-- The memory after `bytes` are stored at the `len` addresses from `dst` on. -/
def put (m : Memory w β) (dst : BitVec w) (len : ℕ) (bytes : ℕ → β) : Memory w β :=
  fun a => if (a - dst).toNat < len then bytes (a - dst).toNat else m a

variable {m m' : Memory w β} {dst src base a : BitVec w} {len : ℕ}

theorem fill_of_mem {value : β} (h : a ∈ span dst len) : fill m dst len value a = value :=
  if_pos h

theorem fill_of_notMem {value : β} (h : a ∉ span dst len) : fill m dst len value a = m a :=
  if_neg h

theorem fill_eq_self_iff {value : β} :
    fill m dst len value = m ↔ ∀ a ∈ span dst len, m a = value := by
  constructor
  · intro same a inside
    rw [← congrFun same a, fill_of_mem inside]
  · intro holds
    funext a
    by_cases inside : a ∈ span dst len
    · rw [fill_of_mem inside, holds a inside]
    · exact fill_of_notMem inside

theorem fill_fill {value : β} :
    fill (fill m dst len value) dst len value = fill m dst len value :=
  fill_eq_self_iff.mpr fun _ inside => fill_of_mem inside

theorem copy_of_mem (h : a ∈ span dst len) : copy m dst src len a = m (src + (a - dst)) :=
  if_pos h

theorem copy_of_notMem (h : a ∉ span dst len) : copy m dst src len a = m a :=
  if_neg h

theorem put_of_mem {bytes : ℕ → β} (h : a ∈ span dst len) :
    put m dst len bytes a = bytes (a - dst).toNat :=
  if_pos h

theorem put_of_notMem {bytes : ℕ → β} (h : a ∉ span dst len) : put m dst len bytes a = m a :=
  if_neg h

@[simp] theorem put_zero {bytes : ℕ → β} : put m dst 0 bytes = m :=
  funext fun _ => if_neg (Nat.not_lt_zero _)

theorem put_apply {bytes : ℕ → β} {i : ℕ} (inside : i < len) (fits : len ≤ 2 ^ w) :
    put m dst len bytes (dst + BitVec.ofNat w i) = bytes i := by
  have offset : (dst + BitVec.ofNat w i - dst).toNat = i := by
    rw [show dst + BitVec.ofNat w i - dst = BitVec.ofNat w i by abel, BitVec.toNat_ofNat]
    exact Nat.mod_eq_of_lt (Nat.lt_of_lt_of_le inside fits)
  rw [put_of_mem (by rw [mem_span, offset]; exact inside), offset]

theorem put_put {bytes : ℕ → β} {n k : ℕ} (fits : n + k ≤ 2 ^ w) :
    put (put m dst n bytes) (dst + BitVec.ofNat w n) k (fun i => bytes (n + i)) =
      put m dst (n + k) bytes := by
  funext a
  have split : a - (dst + BitVec.ofNat w n) = a - dst - BitVec.ofNat w n := by abel
  by_cases first : (a - dst).toNat < n
  · have past : ¬ (a - (dst + BitVec.ofNat w n)).toNat < k := by
      rw [split, BitVec.toNat_sub, BitVec.toNat_ofNat]
      by_cases all : n = 2 ^ w
      · omega
      · rw [Nat.mod_eq_of_lt (a := n) (by omega), Nat.mod_eq_of_lt (by omega)]
        omega
    simp only [put, if_neg past, if_pos first, if_pos (Nat.lt_add_right k first)]
  · have inside := (a - dst).isLt
    have le : BitVec.ofNat w n ≤ a - dst := by
      rw [BitVec.le_def, BitVec.toNat_ofNat]
      exact Nat.le_trans (Nat.mod_le _ _) (not_lt.mp first)
    have offset : (a - (dst + BitVec.ofNat w n)).toNat = (a - dst).toNat - n := by
      rw [split, BitVec.toNat_sub_of_le le, BitVec.toNat_ofNat,
        Nat.mod_eq_of_lt (Nat.lt_of_le_of_lt (not_lt.mp first) inside)]
    have whole : (a - dst).toNat - n < k ↔ (a - dst).toNat < n + k := by omega
    simp only [put, offset, whole, if_neg first]
    rw [Nat.add_sub_cancel' (not_lt.mp first)]

/-- The little-endian value of the `n` bytes from `p` on. -/
def loadLE (m : Memory w (BitVec 8)) (p : BitVec w) : ℕ → ℕ
  | 0 => 0
  | n + 1 => (m p).toNat + 256 * loadLE m (p + 1) n

theorem loadLE_eq {m m' : Memory w (BitVec 8)} {p p' : BitVec w} {n : ℕ}
    (same : ∀ i < n, m (p + BitVec.ofNat w i) = m' (p' + BitVec.ofNat w i)) :
    loadLE m p n = loadLE m' p' n := by
  induction n generalizing p p' with
  | zero => rfl
  | succ n ih =>
    have shift (q : BitVec w) (i : ℕ) :
        q + BitVec.ofNat w (i + 1) = q + 1 + BitVec.ofNat w i := by
      rw [BitVec.ofNat_add]
      abel
    have first := same 0 (Nat.succ_pos n)
    rw [show p + BitVec.ofNat w 0 = p by simp, show p' + BitVec.ofNat w 0 = p' by simp] at first
    have rest : loadLE m (p + 1) n = loadLE m' (p' + 1) n := by
      refine ih fun i hi => ?_
      rw [← shift, ← shift]
      exact same (i + 1) (Nat.succ_lt_succ hi)
    rw [loadLE, loadLE, first, rest]

theorem loadLE_congr {m m' : Memory w (BitVec 8)} {p : BitVec w} {n : ℕ}
    (same : ∀ i < n, m (p + BitVec.ofNat w i) = m' (p + BitVec.ofNat w i)) :
    loadLE m p n = loadLE m' p n := loadLE_eq same

end ByteMemory
