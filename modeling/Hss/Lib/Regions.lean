import Hss.Lib.ByteMemory

/-! Areas of memory that are carved from one region: when they lie inside of it, and when they are
apart, in terms of their offsets. -/

namespace ByteMemory

variable {w : ℕ}

/-- Addresses in a row, from a base on. -/
structure Area (w : ℕ) where
  base : BitVec w
  len : ℕ

namespace Area

def bytes (a : Area w) : Set (BitVec w) := span a.base a.len

/-- The part of a region from an offset on. -/
def part (region : Area w) (offset len : ℕ) : Area w := ⟨region.base + BitVec.ofNat w offset, len⟩

/-- The areas are in the region, and no two of them share an address. -/
structure Holds (region : Area w) (areas : List (Area w)) : Prop where
  inside : ∀ a ∈ areas, a.bytes ⊆ region.bytes
  apart : areas.Pairwise fun a b => Disjoint a.bytes b.bytes

variable {region : Area w} {offset n offset' k : ℕ}

theorem bytes_part_zero : (region.part offset 0).bytes = ∅ := span_zero

theorem mem_bytes_part_iff (fits : offset + n ≤ 2 ^ w) {a : BitVec w} :
    a ∈ (region.part offset n).bytes ↔
      offset ≤ (a - region.base).toNat ∧ (a - region.base).toNat < offset + n := by
  change (a - (region.base + BitVec.ofNat w offset)).toNat < n ↔ _
  rw [show a - (region.base + BitVec.ofNat w offset) = a - region.base - BitVec.ofNat w offset by abel,
    BitVec.toNat_sub, BitVec.toNat_ofNat]
  generalize a - region.base = d
  have inside := d.isLt
  rcases Nat.eq_zero_or_pos n with rfl | some
  · constructor
    · exact fun less => absurd less (Nat.not_lt_zero _)
    · rintro ⟨from', upTo⟩
      omega
  rw [Nat.mod_eq_of_lt (a := offset) (by omega)]
  rcases Nat.lt_or_ge d.toNat offset with before | past
  · rw [Nat.mod_eq_of_lt (by omega)]
    omega
  · rw [show 2 ^ w - offset + d.toNat = 2 ^ w + (d.toNat - offset) by omega, Nat.add_mod_left,
      Nat.mod_eq_of_lt (by omega)]
    omega

/-- A part is in its region when it is empty or ends with the region at the latest. -/
theorem part_subset_iff (starts : offset < 2 ^ w) (fits : region.len < 2 ^ w) :
    (region.part offset n).bytes ⊆ region.bytes ↔ n = 0 ∨ offset + n ≤ region.len := by
  constructor
  · intro subset
    by_contra outside
    -- the first address of the part that is past the region
    have less : region.len - offset < n := by omega
    have first : region.base + BitVec.ofNat w offset + BitVec.ofNat w (region.len - offset) ∈
        (region.part offset n).bytes := add_mem_span less
    have past := subset first
    change (_ - region.base).toNat < region.len at past
    rw [show region.base + BitVec.ofNat w offset + BitVec.ofNat w (region.len - offset) - region.base =
      BitVec.ofNat w offset + BitVec.ofNat w (region.len - offset) by abel, ← BitVec.ofNat_add,
      BitVec.toNat_ofNat, Nat.mod_eq_of_lt (by omega)] at past
    omega
  · rintro (rfl | inside)
    · rw [bytes_part_zero]
      exact Set.empty_subset _
    · exact span_offset_subset inside

/-- Two parts are apart when one is empty, or one ends before the other starts. -/
theorem part_disjoint_iff (fits : offset + n ≤ 2 ^ w) (fits' : offset' + k ≤ 2 ^ w) :
    Disjoint (region.part offset n).bytes (region.part offset' k).bytes ↔
      n = 0 ∨ k = 0 ∨ offset + n ≤ offset' ∨ offset' + k ≤ offset := by
  rw [Set.disjoint_left]
  constructor
  · intro apart
    by_contra overlap
    have common : max offset offset' < 2 ^ w := by omega
    have distance : (region.base + BitVec.ofNat w (max offset offset') - region.base).toNat =
        max offset offset' := by
      rw [add_sub_cancel_left, BitVec.toNat_ofNat, Nat.mod_eq_of_lt common]
    refine apart (a := region.base + BitVec.ofNat w (max offset offset')) ?_ ?_
    · rw [mem_bytes_part_iff fits, distance]
      omega
    · rw [mem_bytes_part_iff fits', distance]
      omega
  · intro apart a inFirst inSecond
    rw [mem_bytes_part_iff fits] at inFirst
    rw [mem_bytes_part_iff fits'] at inSecond
    omega

theorem holds_singleton_iff {a : Area w} : region.Holds [a] ↔ a.bytes ⊆ region.bytes :=
  ⟨fun h => h.inside a List.mem_cons_self, fun h => ⟨by simpa using h, List.pairwise_singleton ..⟩⟩

theorem holds_three_iff {a b c : Area w} : region.Holds [a, b, c] ↔
    (a.bytes ⊆ region.bytes ∧ b.bytes ⊆ region.bytes ∧ c.bytes ⊆ region.bytes) ∧
      Disjoint a.bytes b.bytes ∧ Disjoint a.bytes c.bytes ∧ Disjoint b.bytes c.bytes := by
  constructor
  · rintro ⟨inside, apart⟩
    simp only [List.forall_mem_cons, List.not_mem_nil, false_imp_iff, implies_true, and_true] at inside
    simp only [List.pairwise_cons, List.forall_mem_cons, List.not_mem_nil, false_imp_iff, implies_true,
      and_true, List.Pairwise.nil] at apart
    exact ⟨inside, apart.1.1, apart.1.2, apart.2⟩
  · rintro ⟨⟨a, b, c⟩, ab, ac, bc⟩
    refine ⟨?_, ?_⟩
    · simp only [List.forall_mem_cons, List.not_mem_nil, false_imp_iff, implies_true, and_true]
      exact ⟨a, b, c⟩
    · simp only [List.pairwise_cons, List.forall_mem_cons, List.not_mem_nil, false_imp_iff, implies_true,
        and_true, List.Pairwise.nil]
      exact ⟨⟨ab, ac⟩, bc⟩

end Area

end ByteMemory
