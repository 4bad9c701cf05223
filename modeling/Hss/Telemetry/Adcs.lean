import Hss.Ecalls
import Hss.Lib.Checked
import Mathlib.Tactic.IntervalCases

/-! The samples of the converters, the values that are made of them, and the powers and the texts that
the monitor makes of the values: for which samples all of it is exact. -/

namespace Hss

/-! ### The values -/

section
variable (adc : ℕ → BitVec 12)

/-- A sample, as a `uint64_t`. -/
def sample (i : ℕ) : Checked 64 := .const ((adc i).setWidth 64)

/-- `scale * adc[i] / adc[7]` -/
def railValue (scale : BitVec 64) (i : ℕ) : Checked 32 :=
  (((Checked.const scale).mul (sample adc i)).div (sample adc 7)).convert 32

/-- `get_adc0_telemetry` -/
def getAdc0Telemetry : ℕ → Checked 32
  | 6 => railValue adc 5000000 6
  | 7 => .const 2500000
  | i => railValue adc 2500000 i

/-- `get_adc1_telemetry` -/
def getAdc1Telemetry : ℕ → Checked 32
  | 3 => railValue adc 5000000 3
  | 6 => railValue adc 2401620 6
  | 7 => .const 2500000
  | i => railValue adc 2500000 i

def r2t (r : Checked 64) : Checked 32 :=
  ((((Checked.const 1000).mul r).sub (.const 1000000)).div (.const 385)).convert 32

/-- `R2T((10*N/(4095-N))-10)` -/
def thermistorPlus (n : Checked 64) : Checked 32 :=
  r2t ((((Checked.const 10).mul n).div ((Checked.const 4095).sub n)).sub (.const 10))

/-- `R2T(((uint64_t)40950/N)-20)` -/
def thermistorMinus (n : Checked 64) : Checked 32 :=
  r2t (((Checked.const 40950).div n).sub (.const 20))

/-- `N*((uint64_t)adc[i])*aux2` with the `N` of 2 -/
def cameraValue (i : ℕ) : Checked 32 :=
  (((Checked.const 2).mul (sample adc i)).mul ((Checked.const 2500000).div (sample adc 4))).convert 32

/-- `get_adc2_telemetry` -/
def getAdc2Telemetry : ℕ → Checked 32
  | 0 => thermistorPlus (sample adc 0)
  | 1 => thermistorMinus (sample adc 1)
  | 2 => thermistorPlus (sample adc 2)
  | 3 => thermistorMinus (sample adc 3)
  | 4 => .const 2500000
  | i => cameraValue adc i

/-- `get_adc_telemetry` -/
def getAdcTelemetry (i : ℕ) : Checked 32 :=
  if i < 8 then getAdc0Telemetry adc i
  else if i < 16 then getAdc1Telemetry (fun j => adc (8 + j)) (i - 8)
  else getAdc2Telemetry (fun j => adc (16 + j)) (i - 16)

end

/-! ### What the monitor prints of them -/

/-- `power` of `format_tel_line` -/
def telPower (d1 d2 : BitVec 32) : BitVec 32 := d1 / 100 * (d2 / 100) / 100

/-- The voltages and the currents that `tm_monitoring_print` hands to `format_tel_line`. -/
def telLines : List (ℕ × ℕ) := [(6, 14), (1, 0), (3, 2), (5, 4), (9, 8), (11, 10)]

/-- The values that it hands to `format_tel_line1` and to `format_thermistor`. -/
def telSingles : List ℕ := [13, 12, 7, 15, 16, 17, 18, 19, 22, 21, 23, 20]

/-- All that is handed to `format_telemetry`. -/
def formatted (d : ℕ → BitVec 32) : List (BitVec 32) :=
  (telLines.flatMap fun line => [d line.1, d line.2, telPower (d line.1) (d line.2)]) ++ telSingles.map d

/-- The digits of a value down to the thousandth, which is all that `"%d.%03d"` asks for. -/
def telemetryText (data : BitVec 32) : Bytes :=
  decimal (data.toNat / 1000000) ++ [0x2E] ++ decimal3 (data.toNat % 1000000 / 1000)

/-- The conversions, the powers and the texts are all exact. -/
structure TelemetryExact (adc : ℕ → BitVec 12) : Prop where
  conversions : ∀ i < 24, (getAdcTelemetry adc i).exact = true
  powers : ∀ line ∈ telLines,
    (telPower (getAdcTelemetry adc line.1).value (getAdcTelemetry adc line.2).value).toNat =
      (getAdcTelemetry adc line.1).value.toNat / 100 * ((getAdcTelemetry adc line.2).value.toNat / 100)
        / 100
  texts : ∀ data ∈ formatted fun i => (getAdcTelemetry adc i).value,
    formatTelemetry data = telemetryText data

/-- The hundredth of a rail, from the samples. -/
def railHundredth (s : ℕ → ℕ) : ℕ → ℕ
  | 6 => 50000 * s 6 / s 7
  | 11 => 50000 * s 11 / s 15
  | 14 => 2401620 * s 14 / (100 * s 15)
  | i => if i < 8 then 25000 * s i / s 7 else 25000 * s i / s 15

/-- The samples for which that is so: no rail is further from its reference than 1000 V and 1000 A are,
the thermistors are near the ends of their range, and no product of two rails has more than 32 bits. -/
structure SamplesInRange (s : ℕ → ℕ) : Prop where
  rails0 : ∀ i < 6, s i < 400 * s 7
  input : s 6 < 200 * s 7
  rails1 : ∀ i ∈ [8, 9, 10, 12, 13], s i < 400 * s 15
  rail3V3 : s 11 < 200 * s 15
  inputCurrent : 2401620 * s 14 < 1000000000 * s 15
  plus : ∀ i ∈ [16, 18], 4055 ≤ s i ∧ s i ≤ 4094
  minus : ∀ i ∈ [17, 19], 1 ≤ s i ∧ s i ≤ 40
  cameraReference : s 20 ≠ 0
  cameras : ∀ i ∈ [21, 22, 23], 2 * s i * (2500000 / s 20) < 1000000000
  powers : ∀ line ∈ telLines, railHundredth s line.1 * railHundredth s line.2 < 2 ^ 32

/-! ### The texts and the powers -/

theorem length_decimal_le_iff {n k : ℕ} (pos : 0 < k) : (decimal n).length ≤ k ↔ n < 10 ^ k := by
  rw [decimal, List.length_map]
  exact Nat.length_toDigits_le_iff (by omega) pos

theorem length_decimal3 {n : ℕ} (small : n < 1000) : (decimal3 n).length = 3 := by
  have short : (decimal n).length ≤ 3 := (length_decimal_le_iff (by omega)).mpr small
  rw [decimal3, List.length_append, List.length_replicate]
  omega

theorem length_telemetryText (data : BitVec 32) :
    (telemetryText data).length = (decimal (data.toNat / 1000000)).length + 4 := by
  have fraction : data.toNat % 1000000 / 1000 < 1000 := by omega
  rw [telemetryText, List.length_append, length_decimal3 fraction, List.length_append]
  rfl

theorem formatTelemetry_eq (data : BitVec 32) : formatTelemetry data = (telemetryText data).take 7 := by
  have whole : (data / 1000000).toNat = data.toNat / 1000000 := BitVec.toNat_udiv
  have part : ((data - data / 1000000 * 1000000) / 1000).toNat = data.toNat % 1000000 / 1000 := by
    have mul : (data / 1000000 * 1000000).toNat = data.toNat / 1000000 * 1000000 := by
      have fits : data.toNat / 1000000 * 1000000 < 2 ^ 32 := by
        have := data.isLt
        omega
      rw [BitVec.toNat_mul, whole]
      exact Nat.mod_eq_of_lt fits
    have below : data / 1000000 * 1000000 ≤ data := by
      rw [BitVec.le_def, mul]
      exact Nat.div_mul_le_self ..
    rw [BitVec.toNat_udiv, BitVec.toNat_sub_of_le below, mul]
    change (data.toNat - data.toNat / 1000000 * 1000000) / 1000 = _
    omega
  rw [formatTelemetry, telemetryText, whole, part]

/-- The text has all its digits just when there are at most three before the point. -/
theorem formatTelemetry_whole_iff (data : BitVec 32) :
    formatTelemetry data = telemetryText data ↔ data.toNat < 1000000000 := by
  have digits := length_decimal_le_iff (n := data.toNat / 1000000) (k := 3) (by omega)
  rw [formatTelemetry_eq, List.take_eq_self_iff, length_telemetryText]
  omega

theorem telPower_toNat (d1 d2 : BitVec 32) :
    (telPower d1 d2).toNat = d1.toNat / 100 * (d2.toNat / 100) % 2 ^ 32 / 100 := by
  rw [telPower, BitVec.toNat_udiv, BitVec.toNat_mul, BitVec.toNat_udiv, BitVec.toNat_udiv]
  rfl

theorem telPower_exact_iff (d1 d2 : BitVec 32) :
    (telPower d1 d2).toNat = d1.toNat / 100 * (d2.toNat / 100) / 100 ↔
      d1.toNat / 100 * (d2.toNat / 100) < 2 ^ 32 := by
  rw [telPower_toNat]
  omega

theorem telPower_whole (d1 d2 : BitVec 32) : (telPower d1 d2).toNat < 1000000000 := by
  rw [telPower_toNat]
  omega

/-! ### The conversions -/

open Checked

/-- A value that is exact and has all its digits in its text. -/
def Printed (c : Checked 32) : Prop := c.exact = true ∧ c.value.toNat < 1000000000

theorem printed_iff {c : Checked 32} {p : Prop} {n : ℕ} (h : c.Meets p n) :
    Printed c ↔ p ∧ n < 1000000000 :=
  h.exact_and_lt_iff _

theorem printed_const {value : BitVec 32} (small : value.toNat < 1000000000) : Printed (.const value) :=
  ⟨rfl, small⟩

section
variable (adc : ℕ → BitVec 12)

theorem sample_meets (i : ℕ) : (sample adc i).Meets True (adc i).toNat := by
  have same : ((adc i).setWidth 64).toNat = (adc i).toNat := by
    rw [BitVec.toNat_setWidth]
    exact Nat.mod_eq_of_lt (by have := (adc i).isLt; omega)
  exact (Meets.const _).value_eq same

theorem sample_lt (i : ℕ) : (adc i).toNat < 4096 := (adc i).isLt

/-- A rail is exact unless the reference is zero or the value has more than 32 bits. -/
theorem railValue_meets {scale : BitVec 64} (small : scale.toNat < 2 ^ 32) (i : ℕ) :
    (railValue adc scale i).Meets
      ((adc 7).toNat ≠ 0 ∧ scale.toNat * (adc i).toNat / (adc 7).toNat < 2 ^ 32)
      (scale.toNat * (adc i).toNat / (adc 7).toNat) := by
  have product : scale.toNat * (adc i).toNat < 2 ^ 64 := by
    have := sample_lt adc i
    calc scale.toNat * (adc i).toNat ≤ 2 ^ 32 * 4096 := Nat.mul_le_mul (by omega) (by omega)
      _ < 2 ^ 64 := by decide
  have meets := ((((Meets.const scale).mul (sample_meets adc i)).div (sample_meets adc 7)).convert 32)
  refine meets.congr ?_
  simp only [product, true_and, ne_eq, and_true]

theorem railValue_printed_iff {scale : BitVec 64} (small : scale.toNat < 2 ^ 32) (i : ℕ) :
    Printed (railValue adc scale i) ↔ scale.toNat * (adc i).toNat < 1000000000 * (adc 7).toNat := by
  rw [printed_iff (railValue_meets adc small i)]
  constructor
  · rintro ⟨⟨reference, -⟩, bound⟩
    exact (Nat.div_lt_iff_lt_mul (by omega)).mp bound
  · intro bound
    have reference : 0 < (adc 7).toNat := by
      by_contra none
      rw [Nat.eq_zero_of_not_pos none] at bound
      omega
    have below := (Nat.div_lt_iff_lt_mul reference).mpr bound
    exact ⟨⟨by omega, by omega⟩, below⟩

theorem railValue_toNat {scale : BitVec 64} (small : scale.toNat < 2 ^ 32) {i : ℕ}
    (printed : Printed (railValue adc scale i)) :
    (railValue adc scale i).value.toNat = scale.toNat * (adc i).toNat / (adc 7).toNat :=
  (railValue_meets adc small i).toNat ((railValue_meets adc small i).exact_iff.mp printed.1)

end

theorem r2t_meets {r : Checked 64} {p : Prop} {n : ℕ} (hr : r.Meets p n) (small : n < 2 ^ 30) :
    (r2t r).Meets (p ∧ 1000 ≤ n) ((1000 * n - 1000000) / 385) := by
  have meets :=
    ((((Meets.const (1000 : BitVec 64)).mul hr).sub (Meets.const 1000000)).div (Meets.const 385)).convert 32
  refine meets.congr ?_
  change (((True ∧ p ∧ 1000 * n < 2 ^ 64) ∧ True ∧ 1000000 ≤ 1000 * n) ∧ True ∧ (385 : ℕ) ≠ 0) ∧
    (1000 * n - 1000000) / 385 < 2 ^ 32 ↔ p ∧ 1000 ≤ n
  constructor
  · rintro ⟨⟨⟨⟨-, hp, -⟩, -, enough⟩, -⟩, -⟩
    exact ⟨hp, by omega⟩
  · rintro ⟨hp, enough⟩
    exact ⟨⟨⟨⟨trivial, hp, by omega⟩, trivial, by omega⟩, trivial, by omega⟩, by omega⟩

/-- The resistance to the higher side is above that of 0 degrees only in the last 40 steps. -/
theorem thermistorPlus_printed_iff (adc : ℕ → BitVec 12) (i : ℕ) :
    Printed (thermistorPlus (sample adc i)) ↔ 4055 ≤ (adc i).toNat ∧ (adc i).toNat ≤ 4094 := by
  have top := sample_lt adc i
  have meets := (((Meets.const (10 : BitVec 64)).mul (sample_meets adc i)).div
    ((Meets.const 4095).sub (sample_meets adc i))).sub (Meets.const 10)
  have quotient : 10 * (adc i).toNat / (4095 - (adc i).toNat) ≤ 10 * (adc i).toNat := Nat.div_le_self ..
  have small : 10 * (adc i).toNat / (4095 - (adc i).toNat) - 10 < 2 ^ 30 := by omega
  rw [thermistorPlus, printed_iff (r2t_meets meets small)]
  change ((((True ∧ True ∧ 10 * (adc i).toNat < 2 ^ 64) ∧ (True ∧ True ∧ (adc i).toNat ≤ 4095) ∧
    4095 - (adc i).toNat ≠ 0) ∧ True ∧ 10 ≤ 10 * (adc i).toNat / (4095 - (adc i).toNat)) ∧
    1000 ≤ 10 * (adc i).toNat / (4095 - (adc i).toNat) - 10) ∧
    (1000 * (10 * (adc i).toNat / (4095 - (adc i).toNat) - 10) - 1000000) / 385 < 1000000000 ↔ _
  constructor
  · rintro ⟨⟨⟨⟨-, -, below⟩, -, -⟩, enough⟩, -⟩
    have high : 1010 ≤ 10 * (adc i).toNat / (4095 - (adc i).toNat) := by omega
    have := (Nat.le_div_iff_mul_le (by omega)).mp high
    omega
  · rintro ⟨low, high⟩
    have enough : 1010 ≤ 10 * (adc i).toNat / (4095 - (adc i).toNat) :=
      (Nat.le_div_iff_mul_le (by omega)).mpr (by omega)
    exact ⟨⟨⟨⟨⟨trivial, trivial, by omega⟩, ⟨trivial, trivial, by omega⟩, by omega⟩, trivial, by omega⟩,
      by omega⟩, by omega⟩

/-- The resistance to the lower side is above that of 0 degrees only in the first 40 steps. -/
theorem thermistorMinus_printed_iff (adc : ℕ → BitVec 12) (i : ℕ) :
    Printed (thermistorMinus (sample adc i)) ↔ 1 ≤ (adc i).toNat ∧ (adc i).toNat ≤ 40 := by
  have meets := ((Meets.const (40950 : BitVec 64)).div (sample_meets adc i)).sub (Meets.const 20)
  have quotient : 40950 / (adc i).toNat ≤ 40950 := Nat.div_le_self ..
  have small : 40950 / (adc i).toNat - 20 < 2 ^ 30 := by omega
  rw [thermistorMinus, printed_iff (r2t_meets meets small)]
  change (((True ∧ True ∧ (adc i).toNat ≠ 0) ∧ True ∧ 20 ≤ 40950 / (adc i).toNat) ∧
    1000 ≤ 40950 / (adc i).toNat - 20) ∧
    (1000 * (40950 / (adc i).toNat - 20) - 1000000) / 385 < 1000000000 ↔ _
  constructor
  · rintro ⟨⟨⟨⟨-, -, nonzero⟩, -⟩, enough⟩, -⟩
    have high : 1020 ≤ 40950 / (adc i).toNat := by omega
    have := (Nat.le_div_iff_mul_le (by omega)).mp high
    omega
  · rintro ⟨low, high⟩
    have enough : 1020 ≤ 40950 / (adc i).toNat := (Nat.le_div_iff_mul_le (by omega)).mpr (by omega)
    exact ⟨⟨⟨⟨trivial, trivial, by omega⟩, trivial, by omega⟩, by omega⟩, by omega⟩

theorem cameraValue_printed_iff (adc : ℕ → BitVec 12) (i : ℕ) :
    Printed (cameraValue adc i) ↔
      (adc 4).toNat ≠ 0 ∧ 2 * (adc i).toNat * (2500000 / (adc 4).toNat) < 1000000000 := by
  have top := sample_lt adc i
  have meets := (((Meets.const (2 : BitVec 64)).mul (sample_meets adc i)).mul
    ((Meets.const 2500000).div (sample_meets adc 4))).convert 32
  have quotient : 2500000 / (adc 4).toNat ≤ 2500000 := Nat.div_le_self ..
  have product : 2 * (adc i).toNat * (2500000 / (adc 4).toNat) ≤ 2 * 4096 * 2500000 :=
    Nat.mul_le_mul (by omega) quotient
  rw [cameraValue, printed_iff meets]
  change ((((True ∧ True ∧ 2 * (adc i).toNat < 2 ^ 64) ∧ (True ∧ True ∧ (adc 4).toNat ≠ 0) ∧
    2 * (adc i).toNat * (2500000 / (adc 4).toNat) < 2 ^ 64)) ∧
    2 * (adc i).toNat * (2500000 / (adc 4).toNat) < 2 ^ 32) ∧
    2 * (adc i).toNat * (2500000 / (adc 4).toNat) < 1000000000 ↔ _
  constructor
  · rintro ⟨⟨⟨-, ⟨-, -, nonzero⟩, -⟩, -⟩, bound⟩
    exact ⟨nonzero, bound⟩
  · rintro ⟨nonzero, bound⟩
    exact ⟨⟨⟨⟨trivial, trivial, by omega⟩, ⟨trivial, trivial, nonzero⟩, by omega⟩, by omega⟩, bound⟩

/-! ### All of it -/

/-- Each value is printed by itself or as one of a line. -/
theorem forall_formatted_iff (d : ℕ → BitVec 32) (p : BitVec 32 → Prop)
    (powers : ∀ d1 d2, p (telPower d1 d2)) : (∀ data ∈ formatted d, p data) ↔ ∀ i < 24, p (d i) := by
  constructor
  · intro all i bound
    apply all
    have named : i ∈ telLines.flatMap (fun line => [line.1, line.2]) ++ telSingles := by
      have all : ∀ i < 24, i ∈ telLines.flatMap (fun line => [line.1, line.2]) ++ telSingles := by decide
      exact all i bound
    rcases List.mem_append.mp named with paired | single
    · obtain ⟨line, mem, eq⟩ := List.mem_flatMap.mp paired
      refine List.mem_append_left _ (List.mem_flatMap.mpr ⟨line, mem, ?_⟩)
      rcases List.mem_pair.mp eq with rfl | rfl <;> simp
    · exact List.mem_append_right _ (List.mem_map_of_mem single)
  · intro all data printed
    rcases List.mem_append.mp printed with paired | single
    · obtain ⟨line, mem, eq⟩ := List.mem_flatMap.mp paired
      have bounds : ∀ line ∈ telLines, line.1 < 24 ∧ line.2 < 24 := by decide
      simp only [List.mem_cons, List.not_mem_nil, or_false] at eq
      rcases eq with rfl | rfl | rfl
      · exact all _ (bounds line mem).1
      · exact all _ (bounds line mem).2
      · exact powers _ _
    · obtain ⟨i, mem, rfl⟩ := List.mem_map.mp single
      have bounds : ∀ i ∈ telSingles, i < 24 := by decide
      exact all i (bounds i mem)

section
variable (adc : ℕ → BitVec 12)

theorem telemetryExact_iff : TelemetryExact adc ↔ (∀ i < 24, Printed (getAdcTelemetry adc i)) ∧
    ∀ line ∈ telLines, (getAdcTelemetry adc line.1).value.toNat / 100 *
      ((getAdcTelemetry adc line.2).value.toNat / 100) < 2 ^ 32 := by
  have texts := forall_formatted_iff (fun i => (getAdcTelemetry adc i).value)
    (fun data => formatTelemetry data = telemetryText data)
    fun d1 d2 => (formatTelemetry_whole_iff _).mpr (telPower_whole d1 d2)
  constructor
  · intro exact
    refine ⟨fun i bound => ⟨exact.conversions i bound, ?_⟩, fun line mem => ?_⟩
    · exact (formatTelemetry_whole_iff _).mp (texts.mp exact.texts i bound)
    · exact (telPower_exact_iff _ _).mp (exact.powers line mem)
  · rintro ⟨printed, small⟩
    refine ⟨fun i bound => (printed i bound).1, fun line mem => ?_, texts.mpr fun i bound => ?_⟩
    · exact (telPower_exact_iff _ _).mpr (small line mem)
    · exact (formatTelemetry_whole_iff _).mpr (printed i bound).2

theorem forall_lt_24_iff (p : ℕ → Prop) :
    (∀ i < 24, p i) ↔ (∀ i < 8, p i) ∧ (∀ i < 8, p (8 + i)) ∧ ∀ i < 8, p (16 + i) := by
  constructor
  · intro all
    exact ⟨fun i h => all i (by omega), fun i h => all _ (by omega), fun i h => all _ (by omega)⟩
  · rintro ⟨low, middle, high⟩ i bound
    rcases Nat.lt_or_ge i 8 with h | h
    · exact low i h
    · rcases Nat.lt_or_ge i 16 with h' | h'
      · simpa [Nat.add_sub_cancel' h] using middle (i - 8) (by omega)
      · simpa [Nat.add_sub_cancel' h'] using high (i - 16) (by omega)

theorem getAdcTelemetry_low {i : ℕ} (bound : i < 8) : getAdcTelemetry adc i = getAdc0Telemetry adc i :=
  if_pos bound

theorem getAdcTelemetry_middle {i : ℕ} (bound : i < 8) :
    getAdcTelemetry adc (8 + i) = getAdc1Telemetry (fun j => adc (8 + j)) i := by
  have high : ¬8 + i < 8 := by omega
  have low : 8 + i < 16 := by omega
  rw [getAdcTelemetry, if_neg high, if_pos low, Nat.add_sub_cancel_left]

theorem getAdcTelemetry_high (i : ℕ) :
    getAdcTelemetry adc (16 + i) = getAdc2Telemetry (fun j => adc (16 + j)) i := by
  have above8 : ¬16 + i < 8 := by omega
  have above16 : ¬16 + i < 16 := by omega
  rw [getAdcTelemetry, if_neg above8, if_neg above16, Nat.add_sub_cancel_left]

theorem forall_lt_8_iff (p : ℕ → Prop) :
    (∀ i < 8, p i) ↔ p 0 ∧ p 1 ∧ p 2 ∧ p 3 ∧ p 4 ∧ p 5 ∧ p 6 ∧ p 7 := by
  constructor
  · intro all
    exact ⟨all 0 (by omega), all 1 (by omega), all 2 (by omega), all 3 (by omega), all 4 (by omega),
      all 5 (by omega), all 6 (by omega), all 7 (by omega)⟩
  · rintro ⟨h0, h1, h2, h3, h4, h5, h6, h7⟩ i bound
    interval_cases i <;> assumption

theorem rail2500_printed_iff (i : ℕ) :
    Printed (railValue adc 2500000 i) ↔ (adc i).toNat < 400 * (adc 7).toNat := by
  rw [railValue_printed_iff adc (by decide)]
  change 2500000 * (adc i).toNat < _ ↔ _
  omega

theorem rail5000_printed_iff (i : ℕ) :
    Printed (railValue adc 5000000 i) ↔ (adc i).toNat < 200 * (adc 7).toNat := by
  rw [railValue_printed_iff adc (by decide)]
  change 5000000 * (adc i).toNat < _ ↔ _
  omega

theorem getAdc0_printed_iff : (∀ i < 8, Printed (getAdc0Telemetry adc i)) ↔
    (∀ i < 6, (adc i).toNat < 400 * (adc 7).toNat) ∧ (adc 6).toNat < 200 * (adc 7).toNat := by
  have reference : Printed (.const 2500000) := printed_const (by decide)
  rw [forall_lt_8_iff]
  simp only [getAdc0Telemetry, rail2500_printed_iff, rail5000_printed_iff, reference, and_true]
  constructor
  · rintro ⟨h0, h1, h2, h3, h4, h5, h6⟩
    refine ⟨fun i bound => ?_, h6⟩
    interval_cases i <;> assumption
  · rintro ⟨all, h6⟩
    exact ⟨all 0 (by omega), all 1 (by omega), all 2 (by omega), all 3 (by omega), all 4 (by omega),
      all 5 (by omega), h6⟩

theorem getAdc1_printed_iff : (∀ i < 8, Printed (getAdc1Telemetry adc i)) ↔
    (∀ i ∈ [0, 1, 2, 4, 5], (adc i).toNat < 400 * (adc 7).toNat) ∧
      (adc 3).toNat < 200 * (adc 7).toNat ∧ 2401620 * (adc 6).toNat < 1000000000 * (adc 7).toNat := by
  have reference : Printed (.const 2500000) := printed_const (by decide)
  have current : Printed (railValue adc 2401620 6) ↔
      2401620 * (adc 6).toNat < 1000000000 * (adc 7).toNat :=
    railValue_printed_iff adc (by decide) 6
  rw [forall_lt_8_iff]
  simp only [getAdc1Telemetry, rail2500_printed_iff, rail5000_printed_iff, reference, current, and_true,
    List.forall_mem_cons, List.not_mem_nil, false_imp_iff, implies_true]
  constructor
  · rintro ⟨h0, h1, h2, h3, h4, h5, h6⟩
    exact ⟨⟨h0, h1, h2, h4, h5⟩, h3, h6⟩
  · rintro ⟨⟨h0, h1, h2, h4, h5⟩, h3, h6⟩
    exact ⟨h0, h1, h2, h3, h4, h5, h6⟩

theorem getAdc2_printed_iff : (∀ i < 8, Printed (getAdc2Telemetry adc i)) ↔
    (∀ i ∈ [0, 2], 4055 ≤ (adc i).toNat ∧ (adc i).toNat ≤ 4094) ∧
      (∀ i ∈ [1, 3], 1 ≤ (adc i).toNat ∧ (adc i).toNat ≤ 40) ∧ (adc 4).toNat ≠ 0 ∧
        ∀ i ∈ [5, 6, 7], 2 * (adc i).toNat * (2500000 / (adc 4).toNat) < 1000000000 := by
  have reference : Printed (.const 2500000) := printed_const (by decide)
  rw [forall_lt_8_iff]
  simp only [getAdc2Telemetry, thermistorPlus_printed_iff, thermistorMinus_printed_iff,
    cameraValue_printed_iff, reference, List.forall_mem_cons, List.not_mem_nil, false_imp_iff,
    implies_true, and_true, true_and]
  constructor
  · rintro ⟨h0, h1, h2, h3, ⟨nonzero, h5⟩, ⟨-, h6⟩, -, h7⟩
    exact ⟨⟨h0, h2⟩, ⟨h1, h3⟩, nonzero, h5, h6, h7⟩
  · rintro ⟨⟨h0, h2⟩, ⟨h1, h3⟩, nonzero, h5, h6, h7⟩
    exact ⟨h0, h1, h2, h3, ⟨nonzero, h5⟩, ⟨nonzero, h6⟩, nonzero, h7⟩

/-! ### The powers of the samples -/

theorem railValue_div_100 {scale : BitVec 64} (small : scale.toNat < 2 ^ 32) {i : ℕ}
    (printed : Printed (railValue adc scale i)) :
    (railValue adc scale i).value.toNat / 100 = scale.toNat * (adc i).toNat / (100 * (adc 7).toNat) := by
  rw [railValue_toNat adc small printed, Nat.div_div_eq_div_mul, Nat.mul_comm 100]

theorem rail2500_div_100 {i : ℕ} (printed : Printed (railValue adc 2500000 i)) :
    (railValue adc 2500000 i).value.toNat / 100 = 25000 * (adc i).toNat / (adc 7).toNat := by
  rw [railValue_div_100 adc (by decide) printed]
  change 100 * 25000 * (adc i).toNat / _ = _
  rw [Nat.mul_assoc, Nat.mul_div_mul_left _ _ (by omega)]

theorem rail5000_div_100 {i : ℕ} (printed : Printed (railValue adc 5000000 i)) :
    (railValue adc 5000000 i).value.toNat / 100 = 50000 * (adc i).toNat / (adc 7).toNat := by
  rw [railValue_div_100 adc (by decide) printed]
  change 100 * 50000 * (adc i).toNat / _ = _
  rw [Nat.mul_assoc, Nat.mul_div_mul_left _ _ (by omega)]

theorem printed_iff_samples : (∀ i < 24, Printed (getAdcTelemetry adc i)) ↔
    (∀ i < 8, Printed (getAdc0Telemetry adc i)) ∧
      (∀ i < 8, Printed (getAdc1Telemetry (fun j => adc (8 + j)) i)) ∧
        ∀ i < 8, Printed (getAdc2Telemetry (fun j => adc (16 + j)) i) := by
  rw [forall_lt_24_iff]
  refine and_congr (forall₂_congr fun i bound => ?_)
    (and_congr (forall₂_congr fun i bound => ?_) (forall₂_congr fun i _ => ?_))
  · rw [getAdcTelemetry_low adc bound]
  · rw [getAdcTelemetry_middle adc bound]
  · rw [getAdcTelemetry_high adc i]

/-- The rails, as `format_tel_line` divides them. -/
theorem value_div_100 (printed : ∀ i < 24, Printed (getAdcTelemetry adc i)) :
    ∀ i ∈ telLines.flatMap (fun line => [line.1, line.2]),
      (getAdcTelemetry adc i).value.toNat / 100 = railHundredth (fun j => (adc j).toNat) i := by
  have low (i : ℕ) (bound : i < 24) (rail : getAdcTelemetry adc i = railValue adc 2500000 i) :
      (getAdcTelemetry adc i).value.toNat / 100 = 25000 * (adc i).toNat / (adc 7).toNat := by
    rw [rail, rail2500_div_100 adc (rail ▸ printed i bound)]
  have high (i : ℕ) (bound : 8 + i < 24)
      (rail : getAdcTelemetry adc (8 + i) = railValue (fun j => adc (8 + j)) 2500000 i) :
      (getAdcTelemetry adc (8 + i)).value.toNat / 100 =
        25000 * (adc (8 + i)).toNat / (adc 15).toNat := by
    rw [rail, rail2500_div_100 (fun j => adc (8 + j)) (rail ▸ printed _ bound)]
  have input := rail5000_div_100 adc (printed 6 (by omega))
  have rail3V3 := rail5000_div_100 (fun j => adc (8 + j)) (printed 11 (by omega))
  have width : (2401620 : BitVec 64).toNat < 2 ^ 32 := by decide
  have current := railValue_div_100 (fun j => adc (8 + j)) width (printed 14 (by omega))
  intro i mem
  change i ∈ [6, 14, 1, 0, 3, 2, 5, 4, 9, 8, 11, 10] at mem
  simp only [List.mem_cons, List.not_mem_nil, or_false] at mem
  rcases mem with rfl | rfl | rfl | rfl | rfl | rfl | rfl | rfl | rfl | rfl | rfl | rfl
  · exact input
  · exact current
  · exact low 1 (by omega) rfl
  · exact low 0 (by omega) rfl
  · exact low 3 (by omega) rfl
  · exact low 2 (by omega) rfl
  · exact low 5 (by omega) rfl
  · exact low 4 (by omega) rfl
  · exact high 1 (by omega) rfl
  · exact high 0 (by omega) rfl
  · exact rail3V3
  · exact high 2 (by omega) rfl

theorem powers_iff_samples (printed : ∀ i < 24, Printed (getAdcTelemetry adc i)) :
    (∀ line ∈ telLines, (getAdcTelemetry adc line.1).value.toNat / 100 *
      ((getAdcTelemetry adc line.2).value.toNat / 100) < 2 ^ 32) ↔
    ∀ line ∈ telLines, railHundredth (fun j => (adc j).toNat) line.1 *
      railHundredth (fun j => (adc j).toNat) line.2 < 2 ^ 32 := by
  refine forall₂_congr fun line mem => ?_
  have first : line.1 ∈ telLines.flatMap (fun line => [line.1, line.2]) :=
    List.mem_flatMap.mpr ⟨line, mem, List.mem_cons_self⟩
  have second : line.2 ∈ telLines.flatMap (fun line => [line.1, line.2]) :=
    List.mem_flatMap.mpr ⟨line, mem, List.mem_cons_of_mem _ List.mem_cons_self⟩
  rw [value_div_100 adc printed _ first, value_div_100 adc printed _ second]

/-- The values are printed just for the samples in these ranges. -/
theorem printed_iff_ranges : (∀ i < 24, Printed (getAdcTelemetry adc i)) ↔
    ((∀ i < 6, (adc i).toNat < 400 * (adc 7).toNat) ∧ (adc 6).toNat < 200 * (adc 7).toNat) ∧
    ((∀ i ∈ [8, 9, 10, 12, 13], (adc i).toNat < 400 * (adc 15).toNat) ∧
      (adc 11).toNat < 200 * (adc 15).toNat ∧
      2401620 * (adc 14).toNat < 1000000000 * (adc 15).toNat) ∧
    (∀ i ∈ [16, 18], 4055 ≤ (adc i).toNat ∧ (adc i).toNat ≤ 4094) ∧
      (∀ i ∈ [17, 19], 1 ≤ (adc i).toNat ∧ (adc i).toNat ≤ 40) ∧ (adc 20).toNat ≠ 0 ∧
      ∀ i ∈ [21, 22, 23], 2 * (adc i).toNat * (2500000 / (adc 20).toNat) < 1000000000 := by
  have shift (k : ℕ) (channels : List ℕ) (p : ℕ → Prop) :
      (∀ i ∈ channels, p (k + i)) ↔ ∀ i ∈ channels.map (k + ·), p i := List.forall_mem_map.symm
  rw [printed_iff_samples, getAdc0_printed_iff, getAdc1_printed_iff, getAdc2_printed_iff]
  refine and_congr_right' (and_congr (and_congr_left' ?_) (and_congr ?_ (and_congr ?_ ?_)))
  · exact shift 8 [0, 1, 2, 4, 5] fun i => (adc i).toNat < 400 * (adc 15).toNat
  · exact shift 16 [0, 2] fun i => 4055 ≤ (adc i).toNat ∧ (adc i).toNat ≤ 4094
  · exact shift 16 [1, 3] fun i => 1 ≤ (adc i).toNat ∧ (adc i).toNat ≤ 40
  · exact and_congr_right' (shift 16 [5, 6, 7] fun i =>
      2 * (adc i).toNat * (2500000 / (adc 20).toNat) < 1000000000)

end

/-- The conversions, the powers and the texts are exact just for the samples in range. -/
theorem telemetry_exact_iff (adc : ℕ → BitVec 12) :
    TelemetryExact adc ↔ SamplesInRange fun i => (adc i).toNat := by
  rw [telemetryExact_iff]
  constructor
  · rintro ⟨printed, small⟩
    have powers := (powers_iff_samples adc printed).mp small
    obtain ⟨⟨rails0, input⟩, ⟨rails1, rail3V3, current⟩, plus, minus, reference, cameras⟩ :=
      (printed_iff_ranges adc).mp printed
    exact ⟨rails0, input, rails1, rail3V3, current, plus, minus, reference, cameras, powers⟩
  · intro h
    have printed := (printed_iff_ranges adc).mpr ⟨⟨h.rails0, h.input⟩,
      ⟨h.rails1, h.rail3V3, h.inputCurrent⟩, h.plus, h.minus, h.cameraReference, h.cameras⟩
    exact ⟨printed, (powers_iff_samples adc printed).mpr h.powers⟩

/-- There are such samples. -/
example : SamplesInRange fun i => if i ∈ [16, 18] then 4060 else if i ∈ [17, 19] then 40 else 2000 :=
  ⟨by decide, by decide, by decide, by decide, by decide, by decide, by decide, by decide, by decide,
    by decide⟩

/-- A thermistor of 1.1 kOhm, which is one at 26 degrees, is taken for one of 1 Ohm. -/
theorem telemetry_not_exact : ¬∀ adc : ℕ → BitVec 12, TelemetryExact adc := by
  intro all
  have warm := (all fun _ => 2154).conversions 16 (by omega)
  have below : (getAdcTelemetry (fun _ => 2154) 16).exact = false := by decide
  exact Bool.false_ne_true (below.symm.trans warm)

end Hss
