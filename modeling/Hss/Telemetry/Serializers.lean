import Hss.Telemetry.RoundTrip

/-! What the serializers append to a buffer, and when they stay in it. -/

namespace Hss

/-! ### The other serializers -/

/-- `PUS_TcSecondaryHeader_t` -/
structure PusTcSecondaryHeader where
  versionTcPus : BitVec 4
  acknowledgementFlags : BitVec 4
  serviceType : BitVec 8
  serviceSubType : BitVec 8
  sourceId : BitVec 16
  spare0 : BitVec 8
  deriving DecidableEq, Repr

/-- `PUS_AcceptanceReport_t` -/
structure PusAcceptanceReport where
  packetVersionNumber : BitVec 3
  packetType : BitVec 1
  secondaryHeaderFlag : BitVec 1
  applicationProcessId : BitVec 11
  sequenceFlags : BitVec 2
  packetSequenceCount : BitVec 14
  deriving DecidableEq, Repr

/-- `sizeof` of these -/
def sizeOfPusTcSecondaryHeader : ℕ := 6
def sizeOfPusAcceptanceReport : ℕ := 4

/-- The bytes of a primary header: byte 5 is the high byte of the length, and byte 6 the low one. -/
def CcsdsPrimaryHeader.bytes (h : CcsdsPrimaryHeader) : List (BitVec 8) :=
  [((h.versionNumber.setWidth 8 &&& 0x03) <<< 5) |||
      ((h.packetType.setWidth 8 &&& 0x01) <<< 4) |||
      ((h.secondaryHeader.setWidth 8 &&& 0x01) <<< 3) |||
      ((h.apid.setWidth 32 &&& 0x300) >>> 8).setWidth 8,
    (h.apid.setWidth 32 &&& 0xFF).setWidth 8,
    ((h.sequenceFlag.setWidth 8 &&& 0x03) <<< 6) |||
      ((h.sequenceCount.setWidth 32 &&& 0x3F00) >>> 8).setWidth 8,
    (h.sequenceCount.setWidth 32 &&& 0xFF).setWidth 8,
    ((h.dataLength &&& 0xFF00) >>> 8).setWidth 8,
    (h.dataLength &&& 0xFF).setWidth 8]

/-- The bytes of a telecommand's secondary header, in the order in which they are written. -/
def PusTcSecondaryHeader.bytes (h : PusTcSecondaryHeader) : List (BitVec 8) :=
  [((h.versionTcPus.setWidth 8 &&& 0x0F) <<< 4) ||| (h.acknowledgementFlags.setWidth 8 &&& 0x0F),
    h.serviceType,
    h.serviceSubType,
    ((h.sourceId &&& 0xFF00) >>> 8).setWidth 8,
    (h.sourceId &&& 0x00FF).setWidth 8,
    h.spare0]

/-- The bytes of an acceptance report in memory, whose fields are packed from the low bits on. -/
def PusAcceptanceReport.bytes (r : PusAcceptanceReport) : List (BitVec 8) :=
  hostBytes (r.packetVersionNumber.setWidth 16 ||| r.packetType.setWidth 16 <<< 3 |||
      r.secondaryHeaderFlag.setWidth 16 <<< 4 ||| r.applicationProcessId.setWidth 16 <<< 5) ++
    hostBytes (r.sequenceFlags.setWidth 16 ||| r.packetSequenceCount.setWidth 16 <<< 2)

/-- `BOOTSU_SerializePUS_TcSecondaryHeader` -/
def bootsuSerializePusTcSecondaryHeader (targetNb : BitVec 16) (h : PusTcSecondaryHeader)
    (buf : PacketBuffer) : PacketBuffer × Bool :=
  if buf.hasRoom targetNb sizeOfPusTcSecondaryHeader then (h.bytes.foldl PacketBuffer.put buf, true)
  else (buf, false)

/-- `BOOTSU_SerializePUS_AcceptanceReport` -/
def bootsuSerializePusAcceptanceReport (targetNb : BitVec 16) (r : PusAcceptanceReport)
    (buf : PacketBuffer) : PacketBuffer × Bool :=
  if buf.hasRoom targetNb sizeOfPusAcceptanceReport then (buf.putBytes r.bytes, true)
  else (buf, false)

/-- `BOOTS_SerializeHkReport` and what it returns: `isValid` is as it was at first. -/
def bootsSerializeHkReportResult (target : ℕ → BitVec 8) (targetNb : BitVec 16)
    (report : HkReport) : PacketBuffer × Bool :=
  (bootsSerializeHkReport target targetNb report, true)

/-! ### The law of appending -/

/-- A serializer of `bytes` appends them, inside of the buffer, and returns true, or it returns false
and leaves the buffer. -/
def Appends (targetNb : BitVec 16) (bytes : List (BitVec 8)) (buf : PacketBuffer)
    (after : PacketBuffer × Bool) : Prop :=
  (after.2 = true ∧ buf.totalDataSize.toNat + bytes.length ≤ targetNb.toNat ∧
    after.1.target = copyBytes buf.target buf.totalDataSize.toNat bytes ∧
    after.1.totalDataSize.toNat = buf.totalDataSize.toNat + bytes.length) ∨
  after = (buf, false)

/-- It does so whatever the buffer holds. -/
def AppendLaw (serialize : PacketBuffer → PacketBuffer × Bool) (targetNb : BitVec 16)
    (bytes : List (BitVec 8)) (totalDataSize : BitVec 16) : Prop :=
  ∀ target, Appends targetNb bytes ⟨target, totalDataSize⟩ (serialize ⟨target, totalDataSize⟩)

theorem copyBytes_inside {target : ℕ → BitVec 8} {offset i : ℕ} {data : List (BitVec 8)}
    (less : i < data.length) : copyBytes target offset data (offset + i) = data[i] := by
  rw [copyBytes, if_pos (Nat.le_add_right _ _), Nat.add_sub_cancel_left, List.getD_eq_getElem]

theorem copyBytes_outside {target : ℕ → BitVec 8} {offset i : ℕ} {data : List (BitVec 8)}
    (outside : i < offset ∨ offset + data.length ≤ i) : copyBytes target offset data i = target i := by
  unfold copyBytes
  split
  · rw [List.getD_eq_default]
    omega
  · rfl

/-- The test for room passes in the buffer when there is room, and always past its end. -/
theorem PacketBuffer.hasRoom_past {buf : PacketBuffer} {targetNb : BitVec 16} {size : ℕ}
    (past : targetNb.toNat < buf.totalDataSize.toNat) (small : size < 2 ^ 16) :
    buf.hasRoom targetNb size = true := by
  have written := buf.totalDataSize.isLt
  rw [PacketBuffer.hasRoom, decide_eq_true_eq, BitVec.le_def, BitVec.toNat_sub,
    BitVec.toNat_setWidth, BitVec.toNat_setWidth, BitVec.toNat_ofNat]
  omega

theorem PacketBuffer.putBytes_size {buf : PacketBuffer} {bytes : List (BitVec 8)}
    (room : buf.totalDataSize.toNat + bytes.length < 2 ^ 16) :
    (buf.putBytes bytes).totalDataSize.toNat = buf.totalDataSize.toNat + bytes.length :=
  (buf.written_putBytes bytes room).2

theorem PacketBuffer.put_target {buf : PacketBuffer} {byte : BitVec 8} :
    (buf.put byte).target = Function.update buf.target buf.totalDataSize.toNat byte := rfl

/-- Bytes that are put one after another are copied to the end. -/
theorem PacketBuffer.foldl_put_target {buf : PacketBuffer} {bytes : List (BitVec 8)}
    (room : buf.totalDataSize.toNat + bytes.length < 2 ^ 16) :
    (bytes.foldl put buf).target = copyBytes buf.target buf.totalDataSize.toNat bytes := by
  induction bytes generalizing buf with
  | nil =>
    funext i
    exact (copyBytes_outside (Nat.lt_or_ge i _)).symm
  | cons byte bytes ih =>
    rw [List.length_cons] at room
    have next : (buf.put byte).totalDataSize.toNat = buf.totalDataSize.toNat + 1 := by
      have one : (1 : BitVec 16).toNat = 1 := rfl
      rw [put, BitVec.toNat_add, one, Nat.mod_eq_of_lt (by omega)]
    rw [List.foldl_cons, ih (by omega), next]
    funext i
    rcases Nat.lt_trichotomy i buf.totalDataSize.toNat with before | here | behind
    · rw [copyBytes_outside (.inl (by omega)), copyBytes_outside (.inl before), put_target,
        Function.update_of_ne before.ne]
    · subst here
      have first : copyBytes buf.target buf.totalDataSize.toNat (byte :: bytes)
          (buf.totalDataSize.toNat + 0) = byte := copyBytes_inside (Nat.succ_pos _)
      rw [Nat.add_zero] at first
      rw [copyBytes_outside (.inl (Nat.lt_succ_self _)), first, put_target, Function.update_self]
    · obtain ⟨k, rfl⟩ : ∃ k, i = buf.totalDataSize.toNat + 1 + k :=
        ⟨i - (buf.totalDataSize.toNat + 1), by omega⟩
      by_cases inside : k < bytes.length
      · have shifted : buf.totalDataSize.toNat + 1 + k = buf.totalDataSize.toNat + (k + 1) := by omega
        rw [copyBytes_inside inside, shifted, copyBytes_inside (by rw [List.length_cons]; omega)]
        rfl
      · rw [copyBytes_outside (.inr (by omega)),
          copyBytes_outside (.inr (by rw [List.length_cons]; omega)), put_target,
          Function.update_of_ne (by omega)]

/-- A serializer that tests for room appends its bytes exactly when it starts in the buffer: past its end
the test passes too. -/
theorem appendLaw_iff {write : PacketBuffer → PacketBuffer} {bytes : List (BitVec 8)}
    (some : 0 < bytes.length) (short : bytes.length < 2 ^ 16)
    (writes : ∀ buf, buf.totalDataSize.toNat + bytes.length < 2 ^ 16 →
      (write buf).target = copyBytes buf.target buf.totalDataSize.toNat bytes ∧
        (write buf).totalDataSize.toNat = buf.totalDataSize.toNat + bytes.length)
    {targetNb totalDataSize : BitVec 16} :
    AppendLaw (fun buf => if buf.hasRoom targetNb bytes.length then (write buf, true)
      else (buf, false)) targetNb bytes totalDataSize ↔
        totalDataSize.toNat ≤ targetNb.toNat := by
  have small := targetNb.isLt
  constructor
  · intro law
    by_contra past
    have room : (⟨fun _ => 0, totalDataSize⟩ : PacketBuffer).hasRoom targetNb bytes.length = true :=
      PacketBuffer.hasRoom_past (not_le.mp past) short
    rcases law fun _ => 0 with ⟨-, inside, -⟩ | refused
    · dsimp only at inside
      omega
    · dsimp only at refused
      rw [if_pos room] at refused
      cases congrArg Prod.snd refused
  · intro inside target
    dsimp only
    split
    · next room =>
      have ends := (PacketBuffer.hasRoom_iff inside short).mp room
      obtain ⟨copied, counted⟩ := writes ⟨target, totalDataSize⟩ (by omega)
      exact .inl ⟨rfl, ends, copied, counted⟩
    · exact .inr rfl

theorem PacketBuffer.foldl_put_writes {bytes : List (BitVec 8)} (buf : PacketBuffer)
    (room : buf.totalDataSize.toNat + bytes.length < 2 ^ 16) :
    (bytes.foldl put buf).target = copyBytes buf.target buf.totalDataSize.toNat bytes ∧
      (bytes.foldl put buf).totalDataSize.toNat = buf.totalDataSize.toNat + bytes.length :=
  ⟨foldl_put_target room, (buf.written_foldl_put bytes room).2⟩

theorem PacketBuffer.putBytes_writes {bytes : List (BitVec 8)} (buf : PacketBuffer)
    (room : buf.totalDataSize.toNat + bytes.length < 2 ^ 16) :
    (buf.putBytes bytes).target = copyBytes buf.target buf.totalDataSize.toNat bytes ∧
      (buf.putBytes bytes).totalDataSize.toNat = buf.totalDataSize.toNat + bytes.length :=
  ⟨rfl, putBytes_size room⟩

theorem PacketBuffer.putBytes_outside {buf : PacketBuffer} {bytes : List (BitVec 8)} {i : ℕ}
    (outside : i < buf.totalDataSize.toNat ∨ buf.totalDataSize.toNat + bytes.length ≤ i) :
    (buf.putBytes bytes).target i = buf.target i := copyBytes_outside outside

/-! ### The primary header -/

/-- What is written of a primary header: its bytes go to the start of the buffer, the last to byte 5,
and nothing to byte 4. -/
theorem primaryHeader_target {targetNb : BitVec 16} {h : CcsdsPrimaryHeader} {buf : PacketBuffer}
    (room : buf.hasRoom targetNb sizeOfCcsdsPrimaryHeader = true) {i : ℕ} (other : i = 4 ∨ 6 ≤ i) :
    (bootsuSerializeCcsdsPrimaryHeader targetNb h buf).1.target i = buf.target i := by
  rw [bootsuSerializeCcsdsPrimaryHeader, if_pos room]
  simp only [PacketBuffer.putAt]
  rw [Function.update_of_ne (by omega), Function.update_of_ne (by omega),
    Function.update_of_ne (by omega), Function.update_of_ne (by omega),
    Function.update_of_ne (by omega), Function.update_of_ne (by omega)]

theorem primaryHeader_true {targetNb : BitVec 16} {h : CcsdsPrimaryHeader} {buf : PacketBuffer}
    (room : buf.hasRoom targetNb sizeOfCcsdsPrimaryHeader = true) :
    (bootsuSerializeCcsdsPrimaryHeader targetNb h buf).2 = true := by
  rw [bootsuSerializeCcsdsPrimaryHeader, if_pos room]

/-- Wherever a primary header is to go, one of its bytes is not written there. -/
theorem primaryHeader_appendLaw_iff {targetNb totalDataSize : BitVec 16} {h : CcsdsPrimaryHeader} :
    AppendLaw (bootsuSerializeCcsdsPrimaryHeader targetNb h) targetNb h.bytes totalDataSize ↔
      totalDataSize.toNat ≤ targetNb.toNat ∧ targetNb.toNat < totalDataSize.toNat + 6 := by
  have six : sizeOfCcsdsPrimaryHeader = 6 := rfl
  have length : h.bytes.length = 6 := rfl
  constructor
  · intro law
    by_contra passes
    -- byte `k` of the header is for a place that is not written to
    obtain ⟨k, less, place⟩ : ∃ k < h.bytes.length,
        totalDataSize.toNat + k = 4 ∨ 6 ≤ totalDataSize.toNat + k := by
      rw [length]
      rcases Nat.eq_zero_or_pos totalDataSize.toNat with start | later
      · exact ⟨4, by omega, by omega⟩
      · exact ⟨5, by omega, by omega⟩
    generalize aside : (fun _ => ~~~ h.bytes[k] : ℕ → BitVec 8) = target
    have room : (⟨target, totalDataSize⟩ : PacketBuffer).hasRoom targetNb
        sizeOfCcsdsPrimaryHeader = true := by
      by_cases inside : totalDataSize.toNat ≤ targetNb.toNat
      · refine (PacketBuffer.hasRoom_iff inside (by decide)).mpr ?_
        rw [six]
        dsimp only
        omega
      · exact PacketBuffer.hasRoom_past (not_le.mp inside) (by decide)
    rcases law target with ⟨-, -, copied, -⟩ | refused
    · have written := congrFun copied (totalDataSize.toNat + k)
      rw [primaryHeader_target room place, copyBytes_inside less, ← aside] at written
      have changed (byte : BitVec 8) : ~~~ byte ≠ byte := by
        revert byte
        decide
      exact changed _ written
    · have passed := primaryHeader_true (h := h) room
      rw [refused] at passed
      cases passed
  · rintro ⟨inside, full⟩ target
    refine .inr ?_
    rw [bootsuSerializeCcsdsPrimaryHeader, if_neg]
    rw [PacketBuffer.hasRoom_iff inside (by decide), six]
    dsimp only
    omega

/-! ### The report -/

/-- The number of bytes of a report, without its checksum. -/
def HkReport.size (report : HkReport) : ℕ :=
  sizeOfCcsdsPrimaryHeader + sizeOfPusTmSecondaryHeader + 2 +
    (if report.structureId = bootHkidBootHk then 2 else 0)

/-- A report stays in its buffer, and is refused when it does not fit. -/
def ReportLaw (targetNb : BitVec 16) (report : HkReport) : Prop :=
  ∀ target, (∀ i, targetNb.toNat ≤ i →
      (bootsSerializeHkReportResult target targetNb report).1.target i = target i) ∧
    (targetNb.toNat < report.size →
      (bootsSerializeHkReportResult target targetNb report).2 = false)

theorem primaryHeader_start {target : ℕ → BitVec 8} {targetNb : BitVec 16} {h : CcsdsPrimaryHeader}
    (fits : 6 ≤ targetNb.toNat) :
    (bootsuSerializeCcsdsPrimaryHeader targetNb h ⟨target, 0⟩).1.totalDataSize = 6 ∧
      ∀ i, 6 ≤ i → (bootsuSerializeCcsdsPrimaryHeader targetNb h ⟨target, 0⟩).1.target i = target i := by
  have room : (⟨target, 0⟩ : PacketBuffer).hasRoom targetNb sizeOfCcsdsPrimaryHeader = true :=
    (PacketBuffer.hasRoom_iff (Nat.zero_le _) (by decide)).mpr (by
      have zero : (0 : BitVec 16).toNat = 0 := rfl
      have six : sizeOfCcsdsPrimaryHeader = 6 := rfl
      rw [six]
      dsimp only
      omega)
  refine ⟨?_, fun i past => primaryHeader_target room (.inr past)⟩
  rw [bootsuSerializeCcsdsPrimaryHeader, if_pos room]
  rfl

theorem bootsSerializeHkReport_inside {target : ℕ → BitVec 8} {targetNb : BitVec 16}
    {report : HkReport} (fits : report.size ≤ targetNb.toNat) {i : ℕ} (past : report.size ≤ i) :
    (bootsSerializeHkReport target targetNb report).target i = target i := by
  have sizes : report.size = 20 + (if report.structureId = bootHkidBootHk then 2 else 0) := rfl
  rw [sizes] at fits past
  obtain ⟨six, primary⟩ := @primaryHeader_start target targetNb report.ccsdsPrimaryHeader
    (show 6 ≤ targetNb.toNat by omega)
  have room : (bootsuSerializeCcsdsPrimaryHeader targetNb report.ccsdsPrimaryHeader
      ⟨target, 0⟩).1.hasRoom targetNb sizeOfPusTmSecondaryHeader = true := by
    have twelve : sizeOfPusTmSecondaryHeader = 12 := rfl
    have start : (6 : BitVec 16).toNat = 6 := rfl
    refine (PacketBuffer.hasRoom_iff ?_ (by decide)).mpr ?_
    · rw [six, start]
      omega
    · rw [six, start, twelve]
      omega
  rw [bootsSerializeHkReport, bootsuSerializePusTmSecondaryHeader, if_pos room]
  dsimp only
  generalize (bootsuSerializeCcsdsPrimaryHeader targetNb report.ccsdsPrimaryHeader ⟨target, 0⟩).1 =
    buf at six primary ⊢
  have start : buf.totalDataSize.toNat = 6 := by rw [six]; rfl
  have twelve : report.pusTmSecondaryHeader.bytes.length = 12 := rfl
  obtain ⟨header, counted⟩ := @PacketBuffer.foldl_put_writes
    report.pusTmSecondaryHeader.bytes buf (by omega)
  generalize report.pusTmSecondaryHeader.bytes.foldl PacketBuffer.put buf = buf₁ at header counted ⊢
  have two : (lendHost2Network (hostBytes report.structureId)).length = 2 := rfl
  obtain ⟨named, counted'⟩ := @PacketBuffer.putBytes_writes
    (lendHost2Network (hostBytes report.structureId)) buf₁ (by omega)
  generalize buf₁.putBytes (lendHost2Network (hostBytes report.structureId)) = buf₂
    at named counted' ⊢
  have before : buf₂.target i = target i := by
    rw [named, copyBytes_outside (.inr (by omega)), header, copyBytes_outside (.inr (by omega)),
      primary i (by omega)]
  split
  · next hk =>
    rw [if_pos hk] at past
    have one (byte : BitVec 8) : [byte].length = 1 := rfl
    have counted'' := @PacketBuffer.putBytes_size buf₂ [report.hkData.bootDevice]
      (by rw [one]; omega)
    rw [one] at counted''
    rw [bootsSerializeHkBootSw, PacketBuffer.putBytes_outside (.inr (by rw [one]; omega)),
      PacketBuffer.putBytes_outside (.inr (by rw [one]; omega)), before]
  · exact before

theorem reportLaw_iff {targetNb : BitVec 16} {report : HkReport} :
    ReportLaw targetNb report ↔ report.size ≤ targetNb.toNat := by
  constructor
  · intro law
    by_contra outsize
    cases (law fun _ => 0).2 (not_le.mp outsize)
  · intro fits target
    exact ⟨fun i past => bootsSerializeHkReport_inside fits (Nat.le_trans fits past),
      fun outsize => absurd fits (not_le.mpr outsize)⟩

/-- When the serializers append: the secondary headers and the acceptance report when they start in the
buffer, the primary header only when it is refused; and a report is serialized as it should when it
fits. -/
theorem serializers_append_iff (targetNb totalDataSize : BitVec 16) :
    (∀ h, AppendLaw (bootsuSerializeCcsdsPrimaryHeader targetNb h) targetNb h.bytes totalDataSize ↔
      totalDataSize.toNat ≤ targetNb.toNat ∧ targetNb.toNat < totalDataSize.toNat + 6) ∧
    (∀ h, AppendLaw (bootsuSerializePusTcSecondaryHeader targetNb h) targetNb h.bytes totalDataSize ↔
      totalDataSize.toNat ≤ targetNb.toNat) ∧
    (∀ h, AppendLaw (bootsuSerializePusTmSecondaryHeader targetNb h) targetNb h.bytes totalDataSize ↔
      totalDataSize.toNat ≤ targetNb.toNat) ∧
    (∀ r, AppendLaw (bootsuSerializePusAcceptanceReport targetNb r) targetNb r.bytes totalDataSize ↔
      totalDataSize.toNat ≤ targetNb.toNat) ∧
    ∀ report, ReportLaw targetNb report ↔ report.size ≤ targetNb.toNat := by
  refine ⟨fun h => primaryHeader_appendLaw_iff, fun h => ?_, fun h => ?_, fun r => ?_,
    fun report => reportLaw_iff⟩
  · have length : h.bytes.length = 6 := rfl
    exact appendLaw_iff (by omega) (by omega) PacketBuffer.foldl_put_writes
  · have length : h.bytes.length = 12 := rfl
    exact appendLaw_iff (by omega) (by omega) PacketBuffer.foldl_put_writes
  · have length : r.bytes.length = 4 := rfl
    exact appendLaw_iff (by omega) (by omega) PacketBuffer.putBytes_writes

/-- A primary header at byte 6 of a buffer goes to its start, and a report of 22 bytes is accepted for a
buffer of 10. -/
theorem serializers_misplace :
    (¬ ∀ targetNb h totalDataSize,
      AppendLaw (bootsuSerializeCcsdsPrimaryHeader targetNb h) targetNb h.bytes totalDataSize) ∧
    (¬ ∀ targetNb h totalDataSize,
      AppendLaw (bootsuSerializePusTmSecondaryHeader targetNb h) targetNb h.bytes totalDataSize) ∧
    ¬ ∀ targetNb report, ReportLaw targetNb report := by
  refine ⟨fun law => ?_, fun law => ?_, fun law => ?_⟩
  · have start := primaryHeader_appendLaw_iff.mp (law sbroPacketMaxNb fullReport.ccsdsPrimaryHeader 6)
    exact absurd start (by decide)
  · have inside := (@appendLaw_iff _ fullReport.pusTmSecondaryHeader.bytes (by decide) (by decide)
      PacketBuffer.foldl_put_writes _ _).mp (law 10 fullReport.pusTmSecondaryHeader 11)
    exact absurd inside (by decide)
  · exact absurd (reportLaw_iff.mp (law 10 fullReport)) (by decide)

end Hss
