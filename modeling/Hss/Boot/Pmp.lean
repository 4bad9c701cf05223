import Hss.Lib.PriorityRegions
import Hss.Boot.Image

/-! Memory protection: the rule by which the hardware's entries decide on an access, against the
checks that the boot service makes on its table of decoded entries, and what the table holds once
`HSS_PMP_Init` has run. -/

namespace Hss

open PriorityRegions SlotTable

/-! ### The checks -/

/-- The end of an entry. -/
def PmpEntry.endAddr (entry : PmpEntry) : Word := entry.baseAddr + entry.size

/-- The addresses that an entry covers. -/
def PmpEntry.cover (entry : PmpEntry) : Set ℕ :=
  {a | entry.A ≠ .nullRegion ∧ entry.baseAddr.toNat ≤ a ∧ a < entry.endAddr.toNat}

/-- The addresses of a region. -/
def region (regionStart length : Word) : Set ℕ :=
  {a | regionStart.toNat ≤ a ∧ a < regionStart.toNat + length.toNat}

/-- An entry as it is decoded: registers of 54 bits hold addresses of 56 bits, and ranges of at most
`2 ^ 57` bytes. -/
def PmpEntry.Decoded (entry : PmpEntry) : Prop :=
  entry.baseAddr.toNat ≤ 2 ^ 57 ∧ entry.endAddr.toNat ≤ 2 ^ 57

/-- The first entry of a table that the code takes to hold the region. -/
def firstMatch (pmpEntry : ℕ → PmpEntry) (regionStart length : Word) : Option ℕ :=
  firstBelow maxNumPmps fun i => (pmpEntry i).Matches regionStart length

/-- The checks, with the permission that they read and their answer where no entry matches. -/
def pmpCheck (permission : PmpEntry → Bool) (unmatched : Bool) (pmpEntry : ℕ → PmpEntry)
    (regionStart length : Word) : Bool :=
  match firstMatch pmpEntry regionStart length with
  | none => unmatched
  | some i => permission (pmpEntry i)

theorem hssPmpCheckWrite_eq : hssPmpCheckWrite = pmpCheck PmpEntry.W true := rfl

theorem hssPmpCheckRead_eq : hssPmpCheckRead = pmpCheck PmpEntry.R false := rfl

/-- What the rule prescribes for an access that needs a permission. -/
def PmpPermits (permission : PmpEntry → Bool) (pmpEntry : ℕ → PmpEntry)
    (regionStart length : Word) : Prop :=
  Permits maxNumPmps (fun i => (pmpEntry i).cover) (fun i => permission (pmpEntry i) = true)
    (region regionStart length)

/-- The entry that decides for the region. -/
def PmpDecides (pmpEntry : ℕ → PmpEntry) (regionStart length : Word) (i : ℕ) : Prop :=
  Decides maxNumPmps (fun i => (pmpEntry i).cover) (region regionStart length) i

/-- When a check gives the answer of the rule: the entry that decides ends behind the region, or it
ends with the region and the first entry that matches, if any, else the answer without a match, has
the same permission, or no deciding entry contains the region and the first entry that matches denies
it too. -/
inductive PmpAgrees (permission : PmpEntry → Bool) (unmatched : Bool) (pmpEntry : ℕ → PmpEntry)
    (regionStart length : Word) : Prop
  | endsBehind (i : ℕ) (decides : PmpDecides pmpEntry regionStart length i)
      (base : (pmpEntry i).baseAddr.toNat ≤ regionStart.toNat)
      (past : regionStart.toNat + length.toNat < (pmpEntry i).endAddr.toNat)
  | endsWith (i : ℕ) (decides : PmpDecides pmpEntry regionStart length i)
      (base : (pmpEntry i).baseAddr.toNat ≤ regionStart.toNat)
      (exactEnd : regionStart.toNat + length.toNat = (pmpEntry i).endAddr.toNat)
      (later : ∀ k, firstMatch pmpEntry regionStart length = some k →
        permission (pmpEntry k) = permission (pmpEntry i))
      (alone : firstMatch pmpEntry regionStart length = none →
        unmatched = permission (pmpEntry i))
  | outside (decides : ∀ i, PmpDecides pmpEntry regionStart length i →
        ¬ region regionStart length ⊆ (pmpEntry i).cover)
      (later : ∀ k, firstMatch pmpEntry regionStart length = some k →
        permission (pmpEntry k) = false)
      (alone : firstMatch pmpEntry regionStart length = none → unmatched = false)

variable {permission : PmpEntry → Bool} {unmatched : Bool} {pmpEntry : ℕ → PmpEntry}
  {regionStart length : Word} {entry : PmpEntry} {i k : ℕ}

/-- The answer of a check, from the first entry that matches. -/
theorem pmpCheck_eq_iff {answer : Bool} :
    pmpCheck permission unmatched pmpEntry regionStart length = answer ↔
      (∀ k, firstMatch pmpEntry regionStart length = some k → permission (pmpEntry k) = answer) ∧
      (firstMatch pmpEntry regionStart length = none → unmatched = answer) := by
  unfold pmpCheck
  cases firstMatch pmpEntry regionStart length <;> simp

theorem mem_region {a : ℕ} : a ∈ region regionStart length ↔
    regionStart.toNat ≤ a ∧ a < regionStart.toNat + length.toNat := Iff.rfl

/-- A region that is not empty lies in an entry if the entry is active and its bounds lie around
those of the region. -/
theorem region_subset_cover_iff (some : 0 < length.toNat) :
    region regionStart length ⊆ entry.cover ↔
      entry.A ≠ .nullRegion ∧ entry.baseAddr.toNat ≤ regionStart.toNat ∧
        regionStart.toNat + length.toNat ≤ entry.endAddr.toNat := by
  constructor
  · intro inside
    have low := inside (mem_region.mpr ⟨le_refl _, by omega⟩ : regionStart.toNat ∈ _)
    have high := inside (mem_region.mpr ⟨by omega, by omega⟩ :
      regionStart.toNat + length.toNat - 1 ∈ region regionStart length)
    exact ⟨low.1, low.2.1, by have := high.2.2; omega⟩
  · rintro ⟨active, base, limit⟩ a ⟨above, below⟩
    exact ⟨active, by omega, by omega⟩

/-- The comparison of the code, where the region ends among the addresses that entries have. -/
theorem PmpEntry.matches_iff (decoded : entry.Decoded)
    (fits : regionStart.toNat + length.toNat ≤ 2 ^ 57) :
    entry.Matches regionStart length = true ↔ entry.A ≠ .nullRegion ∧
      entry.baseAddr.toNat ≤ regionStart.toNat ∧
        regionStart.toNat + length.toNat < entry.endAddr.toNat := by
  obtain ⟨base, limit⟩ := decoded
  have sum : (regionStart + length).toNat = regionStart.toNat + length.toNat := by
    rw [BitVec.toNat_add]
    omega
  have signed : ∀ v : Word, v.toNat ≤ 2 ^ 57 → v.toInt = v.toNat := fun v small =>
    BitVec.toInt_eq_toNat_of_lt (by omega)
  rw [PmpEntry.Matches, Bool.and_eq_true, Bool.and_eq_true, decide_eq_true_eq, and_assoc,
    BitVec.sle_iff_toInt_le, BitVec.slt_iff_toInt_lt, ← PmpEntry.endAddr, signed _ base,
    signed regionStart (by omega), signed _ limit, signed (regionStart + length) (by omega), sum,
    Int.ofNat_le, Int.ofNat_lt]

/-- The entry that decides is the first that matches, if it ends behind the region. -/
theorem firstMatch_of_endsBehind (decoded : ∀ i < maxNumPmps, (pmpEntry i).Decoded)
    (decides : PmpDecides pmpEntry regionStart length i)
    (base : (pmpEntry i).baseAddr.toNat ≤ regionStart.toNat)
    (past : regionStart.toNat + length.toNat < (pmpEntry i).endAddr.toNat) :
    firstMatch pmpEntry regionStart length = some i := by
  obtain ⟨a, ⟨active, -, -⟩, above, below⟩ := decides.meets
  have fits : regionStart.toNat + length.toNat ≤ 2 ^ 57 :=
    past.le.trans (decoded i decides.bound).2
  refine firstBelow_eq_some.mpr ⟨decides.bound, ?_, fun k before => ?_⟩
  · exact (PmpEntry.matches_iff (decoded i decides.bound) fits).mpr ⟨active, base, past⟩
  · -- an earlier entry that matched would meet the region too
    by_contra match_
    obtain ⟨activeK, baseK, pastK⟩ := (PmpEntry.matches_iff
      (decoded k (before.trans decides.bound)) fits).mp (Bool.eq_true_of_not_eq_false match_)
    refine decides.first k before ⟨regionStart.toNat, ⟨activeK, baseK, ?_⟩, le_refl _, ?_⟩
    · omega
    · omega

/-- A check gives the answer of the rule exactly in the cases of `PmpAgrees`. -/
theorem pmpCheck_agrees_iff (decoded : ∀ i < maxNumPmps, (pmpEntry i).Decoded) :
    (pmpCheck permission unmatched pmpEntry regionStart length = true ↔
        PmpPermits permission pmpEntry regionStart length) ↔
      PmpAgrees permission unmatched pmpEntry regionStart length := by
  constructor
  · intro same
    by_cases contained : ∃ i, PmpDecides pmpEntry regionStart length i ∧
        region regionStart length ⊆ (pmpEntry i).cover
    · obtain ⟨i, decides, inside⟩ := contained
      obtain ⟨a, -, above, below⟩ := decides.meets
      obtain ⟨-, base, limit⟩ := (region_subset_cover_iff (by omega)).mp inside
      rw [PmpPermits, Decides.permits_iff decides] at same
      rcases Nat.lt_or_eq_of_le limit with past | exactEnd
      · exact .endsBehind i decides base past
      · have answer : pmpCheck permission unmatched pmpEntry regionStart length =
            permission (pmpEntry i) := by
          rw [Bool.eq_iff_iff, same]
          exact and_iff_right inside
        obtain ⟨later, alone⟩ := pmpCheck_eq_iff.mp answer
        exact .endsWith i decides base exactEnd later alone
    · have outside : ∀ i, PmpDecides pmpEntry regionStart length i →
          ¬ region regionStart length ⊆ (pmpEntry i).cover := fun i decides inside =>
        contained ⟨i, decides, inside⟩
      have denied : ¬ PmpPermits permission pmpEntry regionStart length := fun ⟨i, decides, inside, _⟩ =>
        outside i decides inside
      obtain ⟨later, alone⟩ := pmpCheck_eq_iff.mp (Bool.eq_false_of_not_eq_true (mt same.mp denied))
      exact .outside outside later alone
  · rintro (⟨i, decides, base, past⟩ | ⟨i, decides, base, exactEnd, later, alone⟩ |
      ⟨outside, later, alone⟩)
    · obtain ⟨a, ⟨active, -, -⟩, above, below⟩ := decides.meets
      have inside := (region_subset_cover_iff (by omega)).mpr ⟨active, base, past.le⟩
      rw [pmpCheck, firstMatch_of_endsBehind decoded decides base past, PmpPermits,
        Decides.permits_iff decides]
      exact (and_iff_right inside).symm
    · obtain ⟨a, ⟨active, -, -⟩, above, below⟩ := decides.meets
      have inside := (region_subset_cover_iff (by omega)).mpr ⟨active, base, exactEnd.le⟩
      rw [pmpCheck_eq_iff.mpr ⟨later, alone⟩, PmpPermits, Decides.permits_iff decides]
      exact (and_iff_right inside).symm
    · rw [pmpCheck_eq_iff.mpr ⟨later, alone⟩]
      refine iff_of_false Bool.false_ne_true ?_
      rintro ⟨i, decides, inside, -⟩
      exact outside i decides inside

/-- On every table of decoded entries and for every region, `HSS_PMP_CheckWrite` and
`HSS_PMP_CheckRead` return what the rule prescribes exactly in the cases of `PmpAgrees`, with
permission where no entry matches for a write and denial for a read. -/
theorem hssPmpChecks_agree_iff (decoded : ∀ i < maxNumPmps, (pmpEntry i).Decoded)
    (regionStart length : Word) :
    ((hssPmpCheckWrite pmpEntry regionStart length = true ↔
        PmpPermits PmpEntry.W pmpEntry regionStart length) ↔
      PmpAgrees PmpEntry.W true pmpEntry regionStart length) ∧
    ((hssPmpCheckRead pmpEntry regionStart length = true ↔
        PmpPermits PmpEntry.R pmpEntry regionStart length) ↔
      PmpAgrees PmpEntry.R false pmpEntry regionStart length) :=
  ⟨pmpCheck_agrees_iff decoded, pmpCheck_agrees_iff decoded⟩

/-- A page that may be read and written, and nothing else. -/
def onePage : ℕ → PmpEntry := fun i =>
  if i = 0 then ⟨0x80000000, 0x1000, .napot, true, true, false, false⟩
  else ⟨0, 0, .nullRegion, false, false, false, false⟩

theorem onePage_decoded : ∀ i < maxNumPmps, (onePage i).Decoded := by
  unfold PmpEntry.Decoded
  decide +kernel

theorem hssPmpChecks_agree_iff_onePage :
    hssPmpCheckWrite onePage 0x80000000 0x800 = true ↔
      PmpPermits PmpEntry.W onePage 0x80000000 0x800 := by
  have decides : PmpDecides onePage 0x80000000 0x800 0 :=
    ⟨by decide, ⟨0x80000000, ⟨by decide, by decide, by decide⟩, by decide, by decide⟩,
      fun k before => absurd before (Nat.not_lt_zero k)⟩
  exact (hssPmpChecks_agree_iff onePage_decoded 0x80000000 0x800).1.mpr
    (.endsBehind 0 decides (by decide) (by decide))

/-- The page as a whole may not be read, though its entry contains it and grants that, and the page
behind it may be written, though no entry meets it. -/
theorem onePage_misjudged :
    (hssPmpCheckRead onePage 0x80000000 0x1000 = false ∧
      PmpPermits PmpEntry.R onePage 0x80000000 0x1000) ∧
    (hssPmpCheckWrite onePage 0x80001000 0x1000 = true ∧
      ¬ PmpPermits PmpEntry.W onePage 0x80001000 0x1000) := by
  refine ⟨⟨by decide +kernel, 0, ⟨by decide, ⟨0x80000000, ⟨by decide, by decide, by decide⟩,
    by decide, by decide⟩, fun k before => absurd before (Nat.not_lt_zero k)⟩, ?_, rfl⟩,
    by decide +kernel, ?_⟩
  · exact (region_subset_cover_iff (by decide)).mpr ⟨by decide, by decide, by decide⟩
  · refine not_permits_of_disjoint fun i _ => ?_
    rintro ⟨a, ⟨active, -, below⟩, above, -⟩
    by_cases first : i = 0
    · subst first
      exact absurd (lt_of_le_of_lt above below) (by decide)
    · exact active (by rw [onePage, if_neg first])

/-! ### The table -/

/-- The registers of a hart: the configuration bytes lie in those of `pmpcfg` with even numbers,
eight in each. -/
structure PmpRegisters where
  pmpcfg : ℕ → Word
  pmpaddr : ℕ → BitVec 54

/-- The configuration byte of an entry. -/
def PmpRegisters.config (registers : PmpRegisters) (i : ℕ) : BitVec 8 :=
  (registers.pmpcfg (2 * (i / 8)) >>> (8 * (i % 8))).setWidth 8

/-- The mode in a configuration byte. -/
def addressMatchingMode (config : BitVec 8) : AddressMatchingMode :=
  match (config.extractLsb' 3 2).toNat with
  | 0 => .nullRegion
  | 1 => .tor
  | 2 => .na4
  | _ => .napot

/-! #### The decoder, which `HSS_PMP_Init` does not call -/

/-- The loop of `pmp_decode_napot_size_encoding` from the mask of `ones` ones on: the exponent of the
size, and the mask that it stopped at. -/
def napotLoop (addrVal : Word) : ℕ → ℕ × Word
  | 0 => (3, 0)
  | ones + 1 =>
    let mask := BitVec.ofNat 64 (2 ^ (ones + 1) - 1)
    if addrVal &&& mask = mask then (ones + 1 + 3, mask) else napotLoop addrVal ones

/-- `pmp_decode_napot_size_encoding` -/
def pmpDecodeNapotSizeEncoding (addrVal : Word) : ℕ × Word := napotLoop addrVal 63

/-- `pmp_decode`, past its assertion that an entry in mode TOR has one before it: the entry that it
leaves where `entry` was. -/
def pmpDecode (entry : PmpEntry) (previous : Option PmpEntry) (configVal : BitVec 8)
    (addrVal : Word) : PmpEntry :=
  let mode := addressMatchingMode configVal
  let entry :=
    if mode = .nullRegion then { entry with A := mode }
    else
      { entry with
        A := mode
        R := configVal.getLsbD 0
        W := configVal.getLsbD 1
        X := configVal.getLsbD 2
        L := configVal.getLsbD 7 }
  match mode with
  | .nullRegion => entry
  | .tor =>
    let baseAddr := previous.elim 0 PmpEntry.endAddr
    { entry with baseAddr, size := addrVal <<< 2 - baseAddr }
  | .na4 => { entry with baseAddr := addrVal <<< 2, size := 4 }
  | .napot =>
    let (range, mask) := pmpDecodeNapotSizeEncoding addrVal
    { entry with baseAddr := (addrVal &&& ~~~mask) <<< 2, size := (1 : Word) <<< range }

theorem napotLoop_spec (addrVal : Word) (ones : ℕ) (few : ones < 64) :
    ∃ m ≤ ones, napotLoop addrVal ones = (m + 3, BitVec.ofNat 64 (2 ^ m - 1)) ∧
      addrVal &&& BitVec.ofNat 64 (2 ^ m - 1) = BitVec.ofNat 64 (2 ^ m - 1) := by
  induction ones with
  | zero => exact ⟨0, le_refl _, rfl, BitVec.and_zero⟩
  | succ ones ih =>
    by_cases has : addrVal &&& BitVec.ofNat 64 (2 ^ (ones + 1) - 1) =
        BitVec.ofNat 64 (2 ^ (ones + 1) - 1)
    · exact ⟨ones + 1, le_refl _, by rw [napotLoop, if_pos has], has⟩
    · obtain ⟨m, less, stopped, has'⟩ := ih (by omega)
      exact ⟨m, by omega, by rw [napotLoop, if_neg has, stopped], has'⟩

/-- Taking the ones of a mask from an address that has them all. -/
theorem toNat_and_not {addrVal mask : Word} (has : addrVal &&& mask = mask)
    (small : addrVal.toNat < 2 ^ 54) : (addrVal &&& ~~~mask).toNat = addrVal.toNat - mask.toNat ∧
      mask.toNat ≤ addrVal.toNat := by
  have within : mask.toNat ≤ addrVal.toNat := by
    rw [← has, BitVec.toNat_and]
    exact Nat.and_le_left
  have rest : (addrVal &&& ~~~mask).toNat ≤ addrVal.toNat := by
    rw [BitVec.toNat_and]
    exact Nat.and_le_left
  have parts : (addrVal &&& ~~~mask) + mask = addrVal := by
    have apart : (addrVal &&& ~~~mask) &&& mask = 0#64 := by
      rw [BitVec.and_assoc, BitVec.and_comm (~~~mask), BitVec.and_not_self]
      exact BitVec.and_zero
    calc (addrVal &&& ~~~mask) + mask
        = (addrVal &&& ~~~mask) ||| (addrVal &&& mask) := by
          rw [BitVec.add_eq_or_of_and_eq_zero _ _ apart, has]
      _ = addrVal &&& (~~~mask ||| mask) := BitVec.and_or_distrib_left.symm
      _ = addrVal := by rw [BitVec.or_comm, BitVec.or_not_self, BitVec.and_allOnes]
  have sum := congrArg BitVec.toNat parts
  rw [BitVec.toNat_add] at sum
  omega

/-- Registers of 54 bits give entries that count as decoded. -/
theorem pmpDecode_decoded {previous : Option PmpEntry} {configVal : BitVec 8} {addrVal : Word}
    (small : addrVal.toNat < 2 ^ 54) (old : entry.Decoded)
    (before : ∀ e ∈ previous, e.Decoded) : (pmpDecode entry previous configVal addrVal).Decoded := by
  have shifted : ∀ v : Word, v.toNat < 2 ^ 54 → (v <<< 2).toNat = 4 * v.toNat := fun v less => by
    rw [BitVec.toNat_shiftLeft, Nat.shiftLeft_eq]
    omega
  unfold pmpDecode
  cases addressMatchingMode configVal with
  | nullRegion => exact old
  | tor =>
    refine ⟨?_, ?_⟩
    · cases previous with
      | none => exact Nat.zero_le _
      | some e => exact (before e rfl).2
    · rw [PmpEntry.endAddr, BitVec.add_comm, BitVec.sub_add_cancel, shifted _ small]
      omega
  | na4 =>
    have base := shifted _ small
    refine ⟨by dsimp only; omega, ?_⟩
    rw [PmpEntry.endAddr, BitVec.toNat_add, base]
    change (4 * addrVal.toNat + 4) % 2 ^ 64 ≤ 2 ^ 57
    omega
  | napot =>
    obtain ⟨m, most, stopped, has⟩ := napotLoop_spec addrVal 63 (by decide)
    have ones : (BitVec.ofNat 64 (2 ^ m - 1)).toNat = 2 ^ m - 1 := by
      rw [BitVec.toNat_ofNat, Nat.mod_eq_of_lt]
      have := Nat.pow_le_pow_right (n := 2) (by decide) most
      omega
    obtain ⟨rest, within⟩ := toNat_and_not has small
    rw [ones] at rest within
    have bits : m ≤ 54 := by
      by_contra many
      have := Nat.pow_le_pow_right (n := 2) (by decide) (Nat.lt_of_not_le many)
      omega
    have size : ((1 : Word) <<< (m + 3)).toNat = 8 * 2 ^ m := by
      rw [BitVec.toNat_shiftLeft, Nat.shiftLeft_eq, pow_add]
      have := Nat.pow_le_pow_right (n := 2) (by decide) bits
      change 1 * (2 ^ m * 8) % 2 ^ 64 = 8 * 2 ^ m
      omega
    have base := shifted (addrVal &&& ~~~(BitVec.ofNat 64 (2 ^ m - 1))) (by omega)
    simp only [pmpDecodeNapotSizeEncoding, stopped, PmpEntry.Decoded, PmpEntry.endAddr,
      BitVec.toNat_add, base, rest, size]
    have := Nat.pow_le_pow_right (n := 2) (by decide) bits
    omega

/-- What an entry of the registers means. -/
inductive PmpMeaning
  | inactive
  | range (low high : ℕ) (r w x l : Bool)
  deriving DecidableEq, Repr

/-- The number of ones below the lowest zero of an address register. -/
def trailingOnes (addr : BitVec 54) : ℕ := (firstBelow 54 fun k => !addr.getLsbD k).getD 54

/-- The meaning of entry `i`. -/
def PmpRegisters.meaning (registers : PmpRegisters) (i : ℕ) : PmpMeaning :=
  let config := registers.config i
  let addr := 4 * (registers.pmpaddr i).toNat
  let range low high := .range low high (config.getLsbD 0) (config.getLsbD 1) (config.getLsbD 2)
    (config.getLsbD 7)
  match addressMatchingMode config with
  | .nullRegion => .inactive
  | .tor => range (if i = 0 then 0 else 4 * (registers.pmpaddr (i - 1)).toNat) addr
  | .na4 => range addr (addr + 4)
  | .napot =>
    let size := 2 ^ (trailingOnes (registers.pmpaddr i) + 3)
    range (addr / size * size) (addr / size * size + size)

/-- The entry of the table describes a meaning. -/
def PmpEntry.Describes (entry : PmpEntry) : PmpMeaning → Prop
  | .inactive => entry.A = .nullRegion
  | .range low high r w x l => entry.A ≠ .nullRegion ∧ entry.baseAddr.toNat = low ∧
      entry.endAddr.toNat = high ∧ entry.R = r ∧ entry.W = w ∧ entry.X = x ∧ entry.L = l

/-- `pmpEntry` before any code has run. -/
def pmpEntryZero : U54 → ℕ → PmpEntry := fun _ _ => ⟨0, 0, .nullRegion, false, false, false, false⟩

/-- `HSS_PMP_Init`: its loops over the targets and entries have no body, as the calls of the decoder
are compiled out. -/
def hssPmpInit (_registers : U54 → PmpRegisters) (pmpEntry : U54 → ℕ → PmpEntry) :
    (U54 → ℕ → PmpEntry) × Bool :=
  (pmpEntry, true)

/-- `pmpEntry` after calls of `HSS_PMP_Init`, with the registers that each found. -/
def pmpEntryAfter (calls : List (U54 → PmpRegisters)) : U54 → ℕ → PmpEntry :=
  calls.foldl (fun pmpEntry registers => (hssPmpInit registers pmpEntry).1) pmpEntryZero

theorem pmpEntryAfter_eq (calls : List (U54 → PmpRegisters)) : pmpEntryAfter calls = pmpEntryZero := by
  induction calls with
  | nil => rfl
  | cons registers calls ih => exact ih

/-- The initial entry describes the meaning of an entry exactly if that is switched off. -/
theorem pmpEntryZero_describes_iff {registers : PmpRegisters} (target : U54) :
    (pmpEntryZero target i).Describes (registers.meaning i) ↔
      addressMatchingMode (registers.config i) = .nullRegion := by
  simp only [PmpRegisters.meaning]
  cases mode : addressMatchingMode (registers.config i) <;> simp [PmpEntry.Describes, pmpEntryZero]

/-- Once `HSS_PMP_Init` has run, the table describes the registers it found, and so all entries of
all target harts, exactly if every one of them is switched off. -/
theorem hssPmpInit_describes_iff (earlier : List (U54 → PmpRegisters))
    (registers : U54 → PmpRegisters) :
    (∀ target, ∀ i < maxNumPmps,
        ((hssPmpInit registers (pmpEntryAfter earlier)).1 target i).Describes
          ((registers target).meaning i)) ↔
      ∀ target, ∀ i < maxNumPmps,
        addressMatchingMode ((registers target).config i) = .nullRegion := by
  rw [hssPmpInit, pmpEntryAfter_eq]
  exact forall_congr' fun target => forall_congr' fun i => imp_congr_right fun _ =>
    pmpEntryZero_describes_iff target

/-- The registers hold an entry for a page, and the table has none. -/
theorem hssPmpInit_leaves_zero :
    let registers : U54 → PmpRegisters := fun _ => ⟨fun _ => 0x1B, fun _ => 0x200001FF⟩
    (registers .u54_1).meaning 0 = .range 0x80000000 0x80001000 true true false false ∧
      ((hssPmpInit registers pmpEntryZero).1 .u54_1 0).A = .nullRegion ∧
      ¬ ∀ target, ∀ i < maxNumPmps,
        ((hssPmpInit registers pmpEntryZero).1 target i).Describes ((registers target).meaning i) := by
  refine ⟨by decide +kernel, rfl, fun all => ?_⟩
  have off := pmpEntryZero_describes_iff .u54_1 |>.mp (all .u54_1 0 (by decide))
  exact absurd off (by decide +kernel)

end Hss
