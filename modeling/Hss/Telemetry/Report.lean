import Hss.Telemetry.Adcs
import Mathlib.Data.List.TakeWhile

/-! The two forms of a report of the monitor, the lines of text and the record of numbers: where each
takes its quantities from, and for which readings the numbers are those of the lines. -/

namespace Hss

/-! ### Numbers in texts -/

/-- The number that digits stand for. -/
def readDigits (digits : Bytes) : ℕ := digits.foldl (fun n c => 10 * n + (c.toNat - 0x30)) 0

/-- The digits before the point. -/
def wholeDigits (text : Bytes) : Bytes := text.takeWhile (· ≠ 0x2E)

/-- The digits after the point. -/
def fractionDigits (text : Bytes) : Bytes := (text.dropWhile (· ≠ 0x2E)).drop 1

/-- A number with at most three digits after the point, in thousandths. -/
def readThousandths (text : Bytes) : ℕ :=
  1000 * readDigits (wholeDigits text) +
    10 ^ (3 - (fractionDigits text).length) * readDigits (fractionDigits text)

/-- The whole part of a number that may have a sign. -/
def readWhole (text : Bytes) : ℤ :=
  if text.head? = some 0x2D then -readDigits (wholeDigits text.tail) else readDigits (wholeDigits text)

theorem readDigits_append_singleton (digits : Bytes) (c : BitVec 8) :
    readDigits (digits ++ [c]) = 10 * readDigits digits + (c.toNat - 0x30) := by
  rw [readDigits, List.foldl_append]
  rfl

theorem readDigits_zeros (k : ℕ) (digits : Bytes) :
    readDigits (List.replicate k 0x30 ++ digits) = readDigits digits := by
  induction k with
  | zero => rfl
  | succ k ih => rw [List.replicate_succ, List.cons_append, ← ih]; rfl

/-- The character of a digit. -/
theorem digitChar_byte {d : ℕ} (digit : d < 10) :
    (BitVec.ofNat 8 d.digitChar.toNat).toNat = 0x30 + d := by
  interval_cases d <;> rfl

theorem decimal_of_lt {n : ℕ} (digit : n < 10) : decimal n = [BitVec.ofNat 8 n.digitChar.toNat] := by
  rw [decimal, Nat.toDigits_of_lt_base digit]
  rfl

theorem decimal_of_le {n : ℕ} (more : 10 ≤ n) :
    decimal n = decimal (n / 10) ++ [BitVec.ofNat 8 (n % 10).digitChar.toNat] := by
  rw [decimal, Nat.toDigits_of_base_le (by omega) more, List.map_append]
  rfl

theorem readDigits_decimal (n : ℕ) : readDigits (decimal n) = n := by
  induction n using Nat.strong_induction_on with
  | h n ih =>
    rcases Nat.lt_or_ge n 10 with digit | more
    · rw [decimal_of_lt digit]
      have last := readDigits_append_singleton [] (BitVec.ofNat 8 n.digitChar.toNat)
      rw [List.nil_append, digitChar_byte digit] at last
      simpa [readDigits] using last
    · have digit : n % 10 < 10 := Nat.mod_lt _ (by omega)
      rw [decimal_of_le more, readDigits_append_singleton, ih (n / 10) (by omega), digitChar_byte digit]
      omega

/-- All characters of a number are digits. -/
theorem mem_decimal {n : ℕ} {c : BitVec 8} (mem : c ∈ decimal n) :
    0x30 ≤ c.toNat ∧ c.toNat < 0x3A := by
  induction n using Nat.strong_induction_on with
  | h n ih =>
    rcases Nat.lt_or_ge n 10 with digit | more
    · rw [decimal_of_lt digit, List.mem_singleton] at mem
      rw [mem, digitChar_byte digit]
      omega
    · rw [decimal_of_le more, List.mem_append, List.mem_singleton] at mem
      have digit : n % 10 < 10 := Nat.mod_lt _ (by omega)
      rcases mem with front | last
      · exact ih (n / 10) (by omega) front
      · rw [last, digitChar_byte digit]
        omega

theorem mem_decimal3 {n : ℕ} {c : BitVec 8} (mem : c ∈ decimal3 n) :
    0x30 ≤ c.toNat ∧ c.toNat < 0x3A := by
  rw [decimal3, List.mem_append] at mem
  rcases mem with zero | digit
  · rw [List.eq_of_mem_replicate zero]
    decide
  · exact mem_decimal digit

theorem readDigits_decimal3 (n : ℕ) : readDigits (decimal3 n) = n := by
  rw [decimal3, readDigits_zeros, readDigits_decimal]

/-- Without its last digit, a number is divided by ten. -/
theorem readDigits_dropLast {digits : Bytes} (some : digits ≠ [])
    (all : ∀ c ∈ digits, 0x30 ≤ c.toNat ∧ c.toNat < 0x3A) :
    readDigits digits.dropLast = readDigits digits / 10 := by
  have last := all _ (List.getLast_mem some)
  have whole := readDigits_append_singleton digits.dropLast (digits.getLast some)
  rw [List.dropLast_append_getLast some] at whole
  omega

theorem wholeDigits_append {digits : Bytes} (all : ∀ c ∈ digits, 0x30 ≤ c.toNat) (rest : Bytes) :
    wholeDigits (digits ++ 0x2E :: rest) = digits := by
  have digit : ∀ c ∈ digits, decide (c ≠ (0x2E : BitVec 8)) = true := by
    intro c mem
    have low := all c mem
    rw [decide_eq_true_iff]
    rintro rfl
    exact absurd low (by decide)
  rw [wholeDigits, List.takeWhile_append_of_pos digit]
  simp

theorem fractionDigits_append {digits : Bytes} (all : ∀ c ∈ digits, 0x30 ≤ c.toNat) (rest : Bytes) :
    fractionDigits (digits ++ 0x2E :: rest) = rest := by
  have digit : ∀ c ∈ digits, decide (c ≠ (0x2E : BitVec 8)) = true := by
    intro c mem
    have low := all c mem
    rw [decide_eq_true_iff]
    rintro rfl
    exact absurd low (by decide)
  rw [fractionDigits, List.dropWhile_append_of_pos digit]
  simp

/-- A number with a point is read back. -/
theorem readThousandths_text {whole : ℕ} {rest : Bytes} : readThousandths (decimal whole ++ 0x2E :: rest) =
    1000 * whole + 10 ^ (3 - rest.length) * readDigits rest := by
  have low : ∀ c ∈ decimal whole, 0x30 ≤ c.toNat := fun c mem => (mem_decimal mem).1
  rw [readThousandths, wholeDigits_append low, fractionDigits_append low, readDigits_decimal]

theorem readWhole_of_digits {digits : Bytes} (all : ∀ c ∈ digits, 0x30 ≤ c.toNat) (rest : Bytes) :
    readWhole (digits ++ 0x2E :: rest) = readDigits digits := by
  have unsigned : (digits ++ 0x2E :: rest).head? ≠ some 0x2D := by
    cases digits with
    | nil => simp
    | cons c digits =>
      have low := all c List.mem_cons_self
      simp only [List.cons_append, List.head?_cons, ne_eq, Option.some.injEq]
      rintro rfl
      exact absurd low (by decide)
  rw [readWhole, if_neg unsigned, wholeDigits_append all]

/-- `%d` -/
def decimalInt (n : ℤ) : Bytes := if n < 0 then 0x2D :: decimal n.natAbs else decimal n.natAbs

theorem wholeDigits_decimal (n : ℕ) : wholeDigits (decimal n) = decimal n := by
  rw [wholeDigits, List.takeWhile_eq_self_iff]
  intro c mem
  have low := (mem_decimal mem).1
  rw [decide_eq_true_iff]
  rintro rfl
  exact absurd low (by decide)

theorem readWhole_decimalInt (n : ℤ) : readWhole (decimalInt n) = n := by
  rw [decimalInt]
  split
  · rw [readWhole, List.head?_cons, if_pos rfl, List.tail_cons, wholeDigits_decimal,
      readDigits_decimal]
    omega
  · have unsigned : (decimal n.natAbs).head? ≠ some 0x2D := by
      intro sign
      have low := (mem_decimal (List.mem_of_head? sign)).1
      exact absurd low (by decide)
    rw [readWhole, if_neg unsigned, wholeDigits_decimal, readDigits_decimal]
    omega

/-- What a text of `format_telemetry` shows: from 1000 units on, the last digit is lost. -/
def shownThousandths (data : BitVec 32) : ℕ :=
  if data.toNat < 1000000000 then data.toNat / 1000 else data.toNat / 10000 * 10

theorem readThousandths_formatTelemetry (data : BitVec 32) :
    readThousandths (formatTelemetry data) = shownThousandths data := by
  have fraction : data.toNat % 1000000 / 1000 < 1000 := by omega
  have text : telemetryText data =
      decimal (data.toNat / 1000000) ++ 0x2E :: decimal3 (data.toNat % 1000000 / 1000) := by
    rw [telemetryText, List.append_assoc]
    rfl
  by_cases small : data.toNat < 1000000000
  · rw [(formatTelemetry_whole_iff data).mpr small, text, readThousandths_text, readDigits_decimal3,
      length_decimal3 fraction, shownThousandths, if_pos small]
    omega
  · -- four digits and the point leave room for two more
    have four : (decimal (data.toNat / 1000000)).length = 4 := by
      have le := (length_decimal_le_iff (n := data.toNat / 1000000) (k := 4) (by omega)).mpr (by omega)
      have ge := (length_decimal_le_iff (n := data.toNat / 1000000) (k := 3) (by omega)).not.mpr (by omega)
      omega
    have short : (decimal3 (data.toNat % 1000000 / 1000)).take 2 =
        (decimal3 (data.toNat % 1000000 / 1000)).dropLast := by
      rw [List.dropLast_eq_take, length_decimal3 fraction]
    have some : decimal3 (data.toNat % 1000000 / 1000) ≠ [] :=
      List.ne_nil_of_length_pos (by rw [length_decimal3 fraction]; omega)
    have cut : formatTelemetry data = decimal (data.toNat / 1000000) ++
        0x2E :: (decimal3 (data.toNat % 1000000 / 1000)).dropLast := by
      rw [formatTelemetry_eq, text, List.take_append, List.take_of_length_le (by omega), four, ← short]
      rfl
    rw [cut, readThousandths_text, readDigits_dropLast some fun c mem => mem_decimal3 mem,
      readDigits_decimal3, List.length_dropLast, length_decimal3 fraction, shownThousandths,
      if_neg small]
    omega

/-! ### The record and the lines -/

/-- The samples of the converters, and what `pf_init` reads of the system monitor. -/
structure TelemetryReadings where
  samples : ℕ → BitVec 12
  pfTel : ℕ → BitVec 16

/-- `adc` after `get_adc_telemetry` -/
def TelemetryReadings.adc (r : TelemetryReadings) (i : ℕ) : BitVec 32 := (getAdcTelemetry r.samples i).value

/-- `in_celsius` -/
def TelemetryReadings.inCelsius (r : TelemetryReadings) : BitVec 16 := r.pfTel 3 >>> 4 - 273

/-- The fields of `struct telemetry_data` that are not states of status signals or counts. -/
inductive TelemetryField
  | tempK | tempC | inputMV | inputMA | rail10MV | rail10MA | rail10FromPfMV | rail12MV | rail12MA
  | rail18MV | rail18MA | rail18FromPfMV | rail25MV | rail25MA | rail25FromPfMV | rail33MV | rail33MA
  | sddrMV | fddrMV | adc1MV | adc2MV
  | camera1ThermistorMOhmPlus | camera1ThermistorMOhmMinus
  | camera2ThermistorMOhmPlus | camera2ThermistorMOhmMinus
  | camera1MV | camera2MV | camsTelemMV | adcTelMV
  deriving DecidableEq

/-- Where a reading comes from. -/
inductive Channel
  | adc (i : ℕ)
  | pf (i : ℕ)
  deriving DecidableEq

/-- What the record and the lines are given. -/
inductive Source
  | adc (i : ℕ)
  | pfVoltage (i : ℕ)
  | kelvin
  | celsius
  deriving DecidableEq

def Source.channel : Source → Channel
  | .adc i => .adc i
  | .pfVoltage i => .pf i
  | .kelvin => .pf 3
  | .celsius => .pf 3

/-- What `tm_monitoring_print` assigns to a field of the record. -/
def fieldSource : TelemetryField → Source
  | .tempK => .kelvin
  | .tempC => .celsius
  | .inputMV => .adc 6
  | .inputMA => .adc 14
  | .rail10MV => .adc 1
  | .rail10MA => .adc 0
  | .rail10FromPfMV => .pfVoltage 0
  | .rail12MV => .adc 3
  | .rail12MA => .adc 2
  | .rail18MV => .adc 5
  | .rail18MA => .adc 4
  | .rail18FromPfMV => .pfVoltage 1
  | .rail25MV => .adc 9
  | .rail25MA => .adc 8
  | .rail25FromPfMV => .pfVoltage 2
  | .rail33MV => .adc 11
  | .rail33MA => .adc 10
  | .sddrMV => .adc 13
  | .fddrMV => .adc 12
  | .adc1MV => .adc 7
  | .adc2MV => .adc 15
  | .camera1ThermistorMOhmPlus => .adc 16
  | .camera1ThermistorMOhmMinus => .adc 17
  | .camera2ThermistorMOhmPlus => .adc 16
  | .camera2ThermistorMOhmMinus => .adc 17
  | .camera1MV => .adc 22
  | .camera2MV => .adc 21
  | .camsTelemMV => .adc 23
  | .adcTelMV => .adc 20

/-- What the line of the field's name is given: that of the second camera's thermistor has channels of
its own. -/
def lineSource : TelemetryField → Source
  | .camera2ThermistorMOhmPlus => .adc 18
  | .camera2ThermistorMOhmMinus => .adc 19
  | field => fieldSource field

/-- The number that goes into the record. -/
def Source.number (r : TelemetryReadings) : Source → BitVec 32
  | .adc i => r.adc i / 1000
  | .pfVoltage i => (r.pfTel i >>> 3).setWidth 32
  | .kelvin => (r.pfTel 3 >>> 4).setWidth 32
  | .celsius => r.inCelsius.signExtend 32

/-- The text that goes on the line. -/
def Source.text (r : TelemetryReadings) : Source → Bytes
  | .adc i => formatTelemetry (r.adc i)
  | .pfVoltage i =>
    decimal ((r.pfTel i >>> 3).toNat / 1000) ++ 0x2E :: decimal3 ((r.pfTel i >>> 3).toNat % 1000)
  | .kelvin => decimal (r.pfTel 3 >>> 4).toNat ++ 0x2E :: decimal (r.pfTel 3 &&& 0xF).toNat
  | .celsius => decimalInt r.inCelsius.toInt

/-- The number on the line in the unit of the field: kelvins and degrees are whole, the others are
thousandths of what is printed. -/
def Source.read : Source → Bytes → ℤ
  | .adc _, text => readThousandths text
  | .pfVoltage _, text => readThousandths text
  | .kelvin, text => readWhole text
  | .celsius, text => readWhole text

/-- The field of the record is the number on the line of its name. -/
def FieldAgrees (r : TelemetryReadings) (field : TelemetryField) : Prop :=
  ((fieldSource field).number r).toInt = (lineSource field).read ((lineSource field).text r)

/-- The two temperatures are one quantity. -/
def TelemetryField.quantity : TelemetryField → TelemetryField
  | .tempC => .tempK
  | field => field

/-- The record agrees with the lines, and different quantities have different channels. -/
structure TelemetryAgrees (r : TelemetryReadings) : Prop where
  fields : ∀ field, FieldAgrees r field
  channels : ∀ field field' : TelemetryField,
    (fieldSource field).channel = (fieldSource field').channel → field.quantity = field'.quantity

/-- The last digit of a value is not lost on its line, or it is zero. -/
def LastDigitShown (data : BitVec 32) : Prop := data.toNat < 1000000000 ∨ data.toNat / 1000 % 10 = 0

/-- The readings for which all fields agree, though two have another one's channel. -/
structure ReadingsAgree (r : TelemetryReadings) : Prop where
  shown : ∀ i < 24, i ≠ 18 → i ≠ 19 → LastDigitShown (r.adc i)
  plus : (r.adc 16).toNat / 1000 = shownThousandths (r.adc 18)
  minus : (r.adc 17).toNat / 1000 = shownThousandths (r.adc 19)

section
variable (r : TelemetryReadings)

/-- The fields that are filled from a converter. -/
def converterFields : List TelemetryField :=
  [.inputMV, .inputMA, .rail10MV, .rail10MA, .rail12MV, .rail12MA, .rail18MV, .rail18MA, .rail25MV,
    .rail25MA, .rail33MV, .rail33MA, .sddrMV, .fddrMV, .adc1MV, .adc2MV, .camera1ThermistorMOhmPlus,
    .camera1ThermistorMOhmMinus, .camera1MV, .camera2MV, .camsTelemMV, .adcTelMV]

theorem exists_converterField : ∀ i < 24, i ≠ 18 → i ≠ 19 →
    ∃ field ∈ converterFields, fieldSource field = .adc i ∧ lineSource field = .adc i := by decide

/-- A field has the source of its line, unless it is one of the second camera's thermistor. -/
theorem source_cases (field : TelemetryField) :
    (∃ i, i < 24 ∧ i ≠ 18 ∧ i ≠ 19 ∧ fieldSource field = .adc i ∧ lineSource field = .adc i) ∨
      (∃ i, fieldSource field = .pfVoltage i ∧ lineSource field = .pfVoltage i) ∨
      (fieldSource field = .kelvin ∧ lineSource field = .kelvin) ∨
      (fieldSource field = .celsius ∧ lineSource field = .celsius) ∨
      (fieldSource field = .adc 16 ∧ lineSource field = .adc 18) ∨
      (fieldSource field = .adc 17 ∧ lineSource field = .adc 19) := by
  cases field <;> simp [fieldSource, lineSource]

theorem adc_number_toInt (i : ℕ) : ((Source.adc i).number r).toInt = ((r.adc i).toNat / 1000 : ℕ) := by
  have quotient : (r.adc i / 1000).toNat = (r.adc i).toNat / 1000 := BitVec.toNat_udiv
  have bound := (r.adc i).isLt
  rw [Source.number, BitVec.toInt_eq_toNat_of_lt (by omega), quotient]

theorem adc_read_text (i : ℕ) :
    (Source.adc i).read ((Source.adc i).text r) = shownThousandths (r.adc i) := by
  rw [Source.read, Source.text, readThousandths_formatTelemetry]

theorem shownThousandths_eq_iff (data : BitVec 32) :
    data.toNat / 1000 = shownThousandths data ↔ LastDigitShown data := by
  rw [shownThousandths, LastDigitShown]
  split <;> omega

theorem pfVoltage_agrees (i : ℕ) : ((Source.pfVoltage i).number r).toInt =
    (Source.pfVoltage i).read ((Source.pfVoltage i).text r) := by
  have bound := (r.pfTel i >>> 3).isLt
  have wide : ((r.pfTel i >>> 3).setWidth 32).toNat = (r.pfTel i >>> 3).toNat := by
    rw [BitVec.toNat_setWidth]
    omega
  have part : (r.pfTel i >>> 3).toNat % 1000 < 1000 := Nat.mod_lt _ (by omega)
  rw [Source.number, Source.read, Source.text, readThousandths_text, readDigits_decimal3, length_decimal3 part,
    BitVec.toInt_eq_toNat_of_lt (by omega), wide]
  omega

theorem kelvin_agrees : (Source.kelvin.number r).toInt = Source.kelvin.read (Source.kelvin.text r) := by
  have bound := (r.pfTel 3 >>> 4).isLt
  have wide : ((r.pfTel 3 >>> 4).setWidth 32).toNat = (r.pfTel 3 >>> 4).toNat := by
    rw [BitVec.toNat_setWidth]
    omega
  have low : ∀ c ∈ decimal (r.pfTel 3 >>> 4).toNat, 0x30 ≤ c.toNat := fun c mem => (mem_decimal mem).1
  have unsigned := readWhole_of_digits low (decimal (r.pfTel 3 &&& 0xF).toNat)
  rw [Source.number, Source.read, Source.text, unsigned, readDigits_decimal, BitVec.toInt_eq_toNat_of_lt (by omega), wide]

theorem celsius_agrees :
    (Source.celsius.number r).toInt = Source.celsius.read (Source.celsius.text r) := by
  rw [Source.number, Source.read, Source.text, readWhole_decimalInt]
  exact BitVec.toInt_signExtend_of_le (by omega)

theorem field_agrees_iff {field : TelemetryField} {i j : ℕ} (filled : fieldSource field = .adc i)
    (printed : lineSource field = .adc j) :
    FieldAgrees r field ↔ (r.adc i).toNat / 1000 = shownThousandths (r.adc j) := by
  rw [FieldAgrees, filled, printed, adc_number_toInt, adc_read_text]
  omega

/-- All fields agree just for these readings. -/
theorem fields_agree_iff : (∀ field, FieldAgrees r field) ↔ ReadingsAgree r := by
  constructor
  · intro all
    refine ⟨fun i bound plus minus => ?_, ?_, ?_⟩
    · obtain ⟨field, -, filled, printed⟩ := exists_converterField i bound plus minus
      rw [← shownThousandths_eq_iff]
      exact (field_agrees_iff r filled printed).mp (all field)
    · exact (field_agrees_iff r rfl rfl).mp (all .camera2ThermistorMOhmPlus)
    · exact (field_agrees_iff r rfl rfl).mp (all .camera2ThermistorMOhmMinus)
  · intro h field
    rcases source_cases field with ⟨i, bound, plus, minus, filled, printed⟩ | ⟨i, filled, printed⟩ |
      ⟨filled, printed⟩ | ⟨filled, printed⟩ | ⟨filled, printed⟩ | ⟨filled, printed⟩
    · apply (field_agrees_iff r filled printed).mpr
      apply (shownThousandths_eq_iff _).mpr
      exact h.shown i bound plus minus
    · rw [FieldAgrees, filled, printed]
      exact pfVoltage_agrees r i
    · rw [FieldAgrees, filled, printed]
      exact kelvin_agrees r
    · rw [FieldAgrees, filled, printed]
      exact celsius_agrees r
    · exact (field_agrees_iff r filled printed).mpr h.plus
    · exact (field_agrees_iff r filled printed).mpr h.minus

theorem not_telemetryAgrees : ¬TelemetryAgrees r := by
  intro agrees
  have same := agrees.channels .camera1ThermistorMOhmPlus .camera2ThermistorMOhmPlus rfl
  cases same

end

/-- The record never agrees with the lines, since the second camera's thermistor has the first one's
channels in it; the fields are nevertheless the numbers on their lines just for some readings. -/
theorem telemetry_agrees_never (r : TelemetryReadings) :
    ¬TelemetryAgrees r ∧ ((∀ field, FieldAgrees r field) ↔ ReadingsAgree r) :=
  ⟨not_telemetryAgrees r, fields_agree_iff r⟩

/-- The first camera's thermistor is at 1.15 kOhm, the second one's at 40.93 kOhm. -/
def twoThermistors : TelemetryReadings where
  samples i := if i = 16 then 4060 else if i = 18 then 4094 else 40
  pfTel _ := 0

theorem twoThermistors_disagree : ¬∀ r : TelemetryReadings, TelemetryAgrees r := by
  intro all
  have plus := (fields_agree_iff twoThermistors).mp (all twoThermistors).fields
  have differ : (twoThermistors.adc 16).toNat / 1000 ≠ shownThousandths (twoThermistors.adc 18) := by
    decide
  exact differ plus.plus

end Hss
