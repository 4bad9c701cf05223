import Hss.Lib.BitStream
import Hss.Telemetry.Packet
import Mathlib.Data.List.GetD

/-! The packets of housekeeping reports read back with the documented layout: each field big endian,
the most significant bit first. -/

namespace Hss

open BitStream

/-! ### The layout -/

/-- What the packet of a report holds.  The data after the identifier are those of its structure. -/
structure HkPacket where
  ccsdsPrimaryHeader : CcsdsPrimaryHeader
  pusTmSecondaryHeader : PusTmSecondaryHeader
  structureId : BitVec 16
  hkData : Option HkBootSw
  deriving DecidableEq, Repr

def CcsdsPrimaryHeader.layout (h : CcsdsPrimaryHeader) : List Bool :=
  bits h.versionNumber ++ bits h.packetType ++ bits h.secondaryHeader ++ bits h.apid ++
    bits h.sequenceFlag ++ bits h.sequenceCount ++ bits h.dataLength

def PusTmSecondaryHeader.layout (h : PusTmSecondaryHeader) : List Bool :=
  bits h.versionTmPus ++ bits h.scTimeReferenceStatus ++ bits h.serviceType ++
    bits h.serviceSubType ++ bits h.messageTypeCounter ++ bits h.destinationId ++ bits h.time ++
    bits h.spare0

def HkBootSw.layout (data : HkBootSw) : List Bool := bits data.bootDevice ++ bits data.bootStatus

def HkPacket.layout (p : HkPacket) : List Bool :=
  p.ccsdsPrimaryHeader.layout ++ p.pusTmSecondaryHeader.layout ++ bits p.structureId ++
    (p.hkData.elim [] HkBootSw.layout)

def decodeCcsdsPrimaryHeader (stream : List Bool) : Option (CcsdsPrimaryHeader × List Bool) := do
  let (versionNumber, stream) ← take 3 stream
  let (packetType, stream) ← take 1 stream
  let (secondaryHeader, stream) ← take 1 stream
  let (apid, stream) ← take 11 stream
  let (sequenceFlag, stream) ← take 2 stream
  let (sequenceCount, stream) ← take 14 stream
  let (dataLength, stream) ← take 16 stream
  return (⟨versionNumber, packetType, secondaryHeader, apid, sequenceFlag, sequenceCount,
    dataLength⟩, stream)

def decodePusTmSecondaryHeader (stream : List Bool) :
    Option (PusTmSecondaryHeader × List Bool) := do
  let (versionTmPus, stream) ← take 4 stream
  let (scTimeReferenceStatus, stream) ← take 4 stream
  let (serviceType, stream) ← take 8 stream
  let (serviceSubType, stream) ← take 8 stream
  let (messageTypeCounter, stream) ← take 16 stream
  let (destinationId, stream) ← take 16 stream
  let (time, stream) ← take 32 stream
  let (spare0, stream) ← take 8 stream
  return (⟨versionTmPus, scTimeReferenceStatus, serviceType, serviceSubType, messageTypeCounter,
    destinationId, time, spare0⟩, stream)

def decodeHkBootSw (stream : List Bool) : Option (HkBootSw × List Bool) := do
  let (bootDevice, stream) ← take 8 stream
  let (bootStatus, stream) ← take 8 stream
  return (⟨bootDevice, bootStatus⟩, stream)

/-- The fields of a packet, whose last two bytes are its checksum. -/
def decodeHkPacket (bytes : List (BitVec 8)) : Option HkPacket := do
  let (primary, stream) ← decodeCcsdsPrimaryHeader (bytes.flatMap bits)
  let (secondary, stream) ← decodePusTmSecondaryHeader stream
  let (structureId, stream) ← take 16 stream
  if structureId = bootHkidBootHk then
    let (data, stream) ← decodeHkBootSw stream
    if stream.length = 16 then return ⟨primary, secondary, structureId, some data⟩ else none
  else if stream.length = 16 then return ⟨primary, secondary, structureId, none⟩ else none

@[simp] theorem decodeCcsdsPrimaryHeader_layout (h : CcsdsPrimaryHeader) (rest : List Bool) :
    decodeCcsdsPrimaryHeader (h.layout ++ rest) = some (h, rest) := by
  simp [decodeCcsdsPrimaryHeader, CcsdsPrimaryHeader.layout]

@[simp] theorem decodePusTmSecondaryHeader_layout (h : PusTmSecondaryHeader) (rest : List Bool) :
    decodePusTmSecondaryHeader (h.layout ++ rest) = some (h, rest) := by
  simp [decodePusTmSecondaryHeader, PusTmSecondaryHeader.layout]

@[simp] theorem decodeHkBootSw_layout (data : HkBootSw) (rest : List Bool) :
    decodeHkBootSw (data.layout ++ rest) = some (data, rest) := by
  simp [decodeHkBootSw, HkBootSw.layout]

/-- A packet that is laid out as documented is decoded to its fields. -/
theorem decodeHkPacket_layout {bytes : List (BitVec 8)} {p : HkPacket} {crc : BitVec 16}
    (tagged : p.hkData.isSome = true ↔ p.structureId = bootHkidBootHk)
    (laidOut : bytes.flatMap bits = p.layout ++ bits crc) : decodeHkPacket bytes = some p := by
  obtain ⟨primary, secondary, structureId, data⟩ := p
  rw [decodeHkPacket, laidOut, HkPacket.layout]
  cases data with
  | none =>
    have other : structureId ≠ bootHkidBootHk := fun same => by simpa using tagged.mpr same
    simp [other]
  | some data =>
    have hk : structureId = bootHkidBootHk := tagged.mp rfl
    simp [hk]

/-! ### What the serializers write -/

namespace PacketBuffer

variable (buf : PacketBuffer)

theorem written_put (room : buf.totalDataSize.toNat + 1 < 2 ^ 16) (byte : BitVec 8) :
    (buf.put byte).written = buf.written ++ [byte] := by
  have size : (buf.totalDataSize + 1).toNat = buf.totalDataSize.toNat + 1 := by
    rw [BitVec.toNat_add]
    exact Nat.mod_eq_of_lt room
  rw [written, put, size, List.range_succ, List.map_append, List.map_singleton, written]
  dsimp only
  rw [Function.update_self]
  congr 1
  apply List.map_congr_left
  intro i hi
  exact Function.update_of_ne (List.mem_range.mp hi).ne _ _

theorem written_foldl_put (bytes : List (BitVec 8))
    (room : buf.totalDataSize.toNat + bytes.length < 2 ^ 16) :
    (bytes.foldl put buf).written = buf.written ++ bytes ∧
      (bytes.foldl put buf).totalDataSize.toNat = buf.totalDataSize.toNat + bytes.length := by
  induction bytes generalizing buf with
  | nil => simp
  | cons byte bytes ih =>
    rw [List.length_cons] at room
    have size : (buf.put byte).totalDataSize.toNat = buf.totalDataSize.toNat + 1 := by
      rw [put, BitVec.toNat_add]
      exact Nat.mod_eq_of_lt (by simp; omega)
    obtain ⟨after, size'⟩ := ih (buf.put byte) (by omega)
    rw [List.foldl_cons, after, size', written_put buf (by omega), size, List.length_cons]
    exact ⟨by simp, by omega⟩

theorem written_putBytes (data : List (BitVec 8))
    (room : buf.totalDataSize.toNat + data.length < 2 ^ 16) :
    (buf.putBytes data).written = buf.written ++ data ∧
      (buf.putBytes data).totalDataSize.toNat = buf.totalDataSize.toNat + data.length := by
  have size : (buf.putBytes data).totalDataSize.toNat = buf.totalDataSize.toNat + data.length := by
    rw [putBytes, BitVec.toNat_add, BitVec.toNat_ofNat, Nat.add_mod_mod]
    exact Nat.mod_eq_of_lt room
  refine ⟨?_, size⟩
  apply List.ext_getElem
  · rw [written, List.length_map, List.length_range, size, List.length_append, written,
      List.length_map, List.length_range]
  · intro i h h'
    simp only [written, List.getElem_map, List.getElem_range, putBytes, copyBytes,
      List.getElem_append, List.length_map, List.length_range]
    simp only [written, List.length_map, List.length_range, size] at h
    split
    · rw [dif_neg (by omega), List.getD_eq_getElem _ _ (by omega)]
    · rw [dif_pos (by omega)]

end PacketBuffer

/-- The test for room, where what was written is in the buffer. -/
theorem PacketBuffer.hasRoom_iff {buf : PacketBuffer} {targetNb : BitVec 16} {size : ℕ}
    (inside : buf.totalDataSize.toNat ≤ targetNb.toNat) (small : size < 2 ^ 16) :
    buf.hasRoom targetNb size = true ↔ buf.totalDataSize.toNat + size ≤ targetNb.toNat := by
  have target := targetNb.isLt
  have written := buf.totalDataSize.isLt
  rw [PacketBuffer.hasRoom, decide_eq_true_eq, BitVec.le_def, BitVec.toNat_sub,
    BitVec.toNat_setWidth, BitVec.toNat_setWidth, BitVec.toNat_ofNat]
  omega

theorem written_pusFinalizePacket (buf : PacketBuffer) (head : 6 ≤ buf.totalDataSize.toNat)
    (room : buf.totalDataSize.toNat + 2 < 2 ^ 16) :
    let dataLength := BitVec.ofNat 16 (buf.totalDataSize.toNat - 5)
    ∃ crc, (pusFinalizePacket buf).written =
      (buf.written.set 4 (((dataLength &&& 0xFF00) >>> 8).setWidth 8)).set 5
          ((dataLength &&& 0xFF).setWidth 8) ++ lendHost2Network (hostBytes crc) := by
  have total : (buf.totalDataSize + BitVec.ofNat 16 sizeOfPusCrc).toNat =
      buf.totalDataSize.toNat + 2 := by
    rw [BitVec.toNat_add]
    exact Nat.mod_eq_of_lt room
  have length : buf.totalDataSize + BitVec.ofNat 16 sizeOfPusCrc - 1 -
      BitVec.ofNat 16 sizeOfCcsdsPrimaryHeader = BitVec.ofNat 16 (buf.totalDataSize.toNat - 5) := by
    apply BitVec.eq_of_toNat_eq
    have one : (1 : BitVec 16).toNat = 1 := rfl
    simp only [BitVec.toNat_sub, total, BitVec.toNat_ofNat, sizeOfCcsdsPrimaryHeader, one]
    omega
  intro dataLength
  rw [PacketBuffer.written, pusFinalizePacket, length]
  dsimp only
  rw [total]
  generalize crcCcsdsCrc16Get _ _ _ = crc
  refine ⟨crc, ?_⟩
  apply List.ext_getElem
  · simp [PacketBuffer.written, lendHost2Network, hostBytes]
  · intro i h h'
    simp only [List.length_map, List.length_range] at h
    simp only [List.getElem_map, List.getElem_range, copyBytes, List.getElem_append,
      List.length_set, PacketBuffer.written, List.length_map, List.length_range, sizeOfPusCrc,
      Nat.add_sub_cancel]
    by_cases tail : buf.totalDataSize.toNat ≤ i
    · rw [if_pos tail, dif_neg (by omega), List.getD_eq_getElem]
    · rw [if_neg tail, dif_pos (by omega), List.getElem_set, List.getElem_set]
      simp only [Function.update_apply, List.getElem_map, List.getElem_range, eq_comm]
      rfl

/-! ### The bits that were written -/

theorem bits_bytes (x : BitVec 16) :
    bits (((x &&& 0xFF00) >>> 8).setWidth 8) ++ bits ((x &&& 0xFF).setWidth 8) = bits x := by
  simp [bits, List.ofFn_succ]

theorem bits_bytes32 (x : BitVec 32) :
    bits (((x &&& 0xFF000000) >>> 24).setWidth 8) ++ bits (((x &&& 0xFF0000) >>> 16).setWidth 8) ++
      bits (((x &&& 0xFF00) >>> 8).setWidth 8) ++ bits ((x &&& 0xFF).setWidth 8) = bits x := by
  simp [bits, List.ofFn_succ]

theorem bits_lendHost2Network (x : BitVec 16) :
    (lendHost2Network (hostBytes x)).flatMap bits = bits x := by
  simp [lendHost2Network, hostBytes, bits, List.ofFn_succ]

/-- What the code writes of a primary header: two bits of the version and ten of the identifier. -/
def CcsdsPrimaryHeader.masked (h : CcsdsPrimaryHeader) : CcsdsPrimaryHeader :=
  { h with versionNumber := h.versionNumber &&& 0x3, apid := h.apid &&& 0x3FF }

theorem bits_identification (h : CcsdsPrimaryHeader) :
    bits (((h.versionNumber.setWidth 8 &&& 0x03) <<< 5) |||
        ((h.packetType.setWidth 8 &&& 0x01) <<< 4) |||
        ((h.secondaryHeader.setWidth 8 &&& 0x01) <<< 3) |||
        ((h.apid.setWidth 32 &&& 0x300) >>> 8).setWidth 8) ++
      bits ((h.apid.setWidth 32 &&& 0xFF).setWidth 8) =
    bits (h.versionNumber &&& 0x3) ++ bits h.packetType ++ bits h.secondaryHeader ++
      bits (h.apid &&& 0x3FF) := by
  simp [bits, List.ofFn_succ]

theorem bits_sequenceControl (h : CcsdsPrimaryHeader) :
    bits (((h.sequenceFlag.setWidth 8 &&& 0x03) <<< 6) |||
        ((h.sequenceCount.setWidth 32 &&& 0x3F00) >>> 8).setWidth 8) ++
      bits ((h.sequenceCount.setWidth 32 &&& 0xFF).setWidth 8) =
    bits h.sequenceFlag ++ bits h.sequenceCount := by
  simp [bits, List.ofFn_succ]

/-- The header of a fresh buffer, before its length is written: byte 4 is left as it was. -/
theorem written_primaryHeader (target : ℕ → BitVec 8) {targetNb : BitVec 16}
    (room : 6 ≤ targetNb.toNat) (h : CcsdsPrimaryHeader) :
    let buf := (bootsuSerializeCcsdsPrimaryHeader targetNb h ⟨target, 0⟩).1
    buf.totalDataSize = 6 ∧ ∃ b1 b2 b3 b4 b5 b6, buf.written = [b1, b2, b3, b4, b5, b6] ∧
      bits b1 ++ bits b2 = bits h.masked.versionNumber ++ bits h.packetType ++
        bits h.secondaryHeader ++ bits h.masked.apid ∧
      bits b3 ++ bits b4 = bits h.sequenceFlag ++ bits h.sequenceCount := by
  have fits : (⟨target, 0⟩ : PacketBuffer).hasRoom targetNb sizeOfCcsdsPrimaryHeader = true :=
    (PacketBuffer.hasRoom_iff (Nat.zero_le _) (by decide)).mpr (by
      rw [show sizeOfCcsdsPrimaryHeader = 6 from rfl]
      simpa using room)
  rw [bootsuSerializeCcsdsPrimaryHeader, if_pos fits]
  refine ⟨rfl, _, _, _, _, _, _, rfl, ?_, ?_⟩
  · exact bits_identification h
  · exact bits_sequenceControl h

theorem written_secondaryHeader (buf : PacketBuffer) {targetNb : BitVec 16}
    (room : buf.totalDataSize.toNat + 12 ≤ targetNb.toNat) (h : PusTmSecondaryHeader) :
    let after := (bootsuSerializePusTmSecondaryHeader targetNb h buf).1
    after.totalDataSize.toNat = buf.totalDataSize.toNat + 12 ∧
      ∃ bytes, bytes.length = 12 ∧ after.written = buf.written ++ bytes ∧
        bytes.flatMap bits = h.layout := by
  have target := targetNb.isLt
  have fits : buf.hasRoom targetNb sizeOfPusTmSecondaryHeader = true :=
    (PacketBuffer.hasRoom_iff (by omega) (by decide)).mpr room
  rw [bootsuSerializePusTmSecondaryHeader, if_pos fits]
  have length : h.bytes.length = 12 := rfl
  obtain ⟨after, size⟩ := PacketBuffer.written_foldl_put buf h.bytes (by omega)
  refine ⟨size, _, rfl, after, ?_⟩
  have version : bits (((h.versionTmPus.setWidth 8 &&& 0x0F) <<< 4) |||
      (h.scTimeReferenceStatus.setWidth 8 &&& 0x0F)) =
      bits h.versionTmPus ++ bits h.scTimeReferenceStatus := by
    simp [bits, List.ofFn_succ]
  rw [PusTmSecondaryHeader.layout, ← bits_bytes h.messageTypeCounter, ← bits_bytes h.destinationId,
    ← bits_bytes32 h.time]
  simp only [PusTmSecondaryHeader.bytes, List.flatMap_cons, List.flatMap_nil, List.append_nil,
    List.append_assoc, version]

/-- What the packet of a report should hold: the fields of the report, and the length of the packet,
which counts from the end of the primary header and is one less. -/
def HkReport.packet (report : HkReport) (totalDataLength : ℕ) : HkPacket where
  ccsdsPrimaryHeader := { report.ccsdsPrimaryHeader with
    dataLength := BitVec.ofNat 16 (totalDataLength - sizeOfCcsdsPrimaryHeader - 1) }
  pusTmSecondaryHeader := report.pusTmSecondaryHeader
  structureId := report.structureId
  hkData := if report.structureId = bootHkidBootHk then some report.hkData else none

theorem written_hkReport_body (buf : PacketBuffer) (room : buf.totalDataSize.toNat + 4 < 2 ^ 16)
    (report : HkReport) :
    let buf' := buf.putBytes (lendHost2Network (hostBytes report.structureId))
    let after := if report.structureId = bootHkidBootHk then
      bootsSerializeHkBootSw report.hkData buf' else buf'
    ∃ body, after.written = buf.written ++ body ∧
      after.totalDataSize.toNat = buf.totalDataSize.toNat + body.length ∧
      body.length = (if report.structureId = bootHkidBootHk then 4 else 2) ∧
      body.flatMap bits = bits report.structureId ++ (if report.structureId = bootHkidBootHk then
        some report.hkData else none).elim [] HkBootSw.layout := by
  have two : (lendHost2Network (hostBytes report.structureId)).length = 2 := rfl
  obtain ⟨named, size⟩ := PacketBuffer.written_putBytes buf
    (lendHost2Network (hostBytes report.structureId)) (by omega)
  intro buf' after
  change buf'.written = _ at named
  change buf'.totalDataSize.toNat = _ at size
  by_cases hk : report.structureId = bootHkidBootHk
  · simp only [after, if_pos hk]
    have one (byte : BitVec 8) : [byte].length = 1 := rfl
    obtain ⟨device, size'⟩ := PacketBuffer.written_putBytes buf'
      [report.hkData.bootDevice] (by rw [one]; omega)
    obtain ⟨status, size''⟩ := PacketBuffer.written_putBytes
      (buf'.putBytes [report.hkData.bootDevice]) [report.hkData.bootStatus]
      (by rw [one, size', one]; omega)
    refine ⟨lendHost2Network (hostBytes report.structureId) ++
      [report.hkData.bootDevice, report.hkData.bootStatus], ?_, ?_, rfl, ?_⟩
    · rw [bootsSerializeHkBootSw, status, device, named]
      simp
    · rw [bootsSerializeHkBootSw, size'', size', size]
      simp
      omega
    · rw [List.flatMap_append, bits_lendHost2Network]
      simp [HkBootSw.layout]
  · simp only [after, if_neg hk]
    refine ⟨_, named, size, two, ?_⟩
    rw [bits_lendHost2Network]
    simp

theorem written_hkReport (target : ℕ → BitVec 8) {targetNb : BitVec 16} (room : 24 ≤ targetNb.toNat)
    (report : HkReport) :
    let bytes := (pusFinalizePacket (bootsSerializeHkReport target targetNb report)).written
    bytes.length = (if report.structureId = bootHkidBootHk then 24 else 22) ∧
      ∃ crc : BitVec 16, bytes.flatMap bits = ({ report with
        ccsdsPrimaryHeader := report.ccsdsPrimaryHeader.masked }.packet bytes.length).layout ++
          bits crc := by
  obtain ⟨size, b1, b2, b3, b4, b5, b6, primary, word1, word2⟩ := written_primaryHeader target
    (Nat.le_trans (by decide) room) report.ccsdsPrimaryHeader
  rw [bootsSerializeHkReport]
  dsimp only
  generalize (bootsuSerializeCcsdsPrimaryHeader targetNb _ _).1 = buf at size primary ⊢
  obtain ⟨size', header, twelve, secondary, layout⟩ := written_secondaryHeader buf
    (by rw [size]; exact Nat.le_trans (by decide) room) report.pusTmSecondaryHeader
  generalize (bootsuSerializePusTmSecondaryHeader targetNb _ buf).1 = buf' at size' secondary ⊢
  have small : buf'.totalDataSize.toNat = 18 := by rw [size', size]; rfl
  obtain ⟨body, written, size'', length, fields⟩ :=
    written_hkReport_body buf' (by rw [small]; decide) report
  generalize (if report.structureId = bootHkidBootHk then _ else _ : PacketBuffer) = last
    at written size'' ⊢
  have body4 : body.length ≤ 4 := by rw [length]; split <;> decide
  obtain ⟨crc, finalized⟩ := written_pusFinalizePacket last (by omega) (by omega)
  rw [written, secondary, primary] at finalized
  rw [finalized]
  have total : last.totalDataSize.toNat = 18 + body.length := by rw [size'', small]
  have bytes : ([b1, b2, b3, b4, b5, b6] ++ header ++ body).length = 18 + body.length := by
    rw [List.length_append, List.length_append, twelve]
    rfl
  refine ⟨?_, crc, ?_⟩
  · rw [List.length_append, List.length_set, List.length_set, bytes, length]
    split <;> rfl
  · rw [List.length_append, List.length_set, List.length_set, bytes, total]
    have counted : 18 + body.length + (lendHost2Network (hostBytes crc)).length -
        sizeOfCcsdsPrimaryHeader - 1 = 18 + body.length - 5 := rfl
    have word : ({ report with
        ccsdsPrimaryHeader := report.ccsdsPrimaryHeader.masked }.packet (18 + body.length +
          (lendHost2Network (hostBytes crc)).length)).layout =
        (bits b1 ++ bits b2) ++ (bits b3 ++ bits b4) ++
          bits (BitVec.ofNat 16 (18 + body.length - 5)) ++ report.pusTmSecondaryHeader.layout ++
          body.flatMap bits := by
      rw [word1, word2, fields, HkReport.packet, HkPacket.layout, CcsdsPrimaryHeader.layout,
        counted]
      simp only [CcsdsPrimaryHeader.masked, List.append_assoc]
    rw [word, ← layout, ← bits_bytes, List.flatMap_append, bits_lendHost2Network]
    simp only [List.cons_append, List.nil_append, List.set_cons_succ, List.set_cons_zero,
      List.flatMap_cons, List.flatMap_append, List.append_assoc]

/-! ### The round trip -/

theorem CcsdsPrimaryHeader.masked_eq {h : CcsdsPrimaryHeader}
    (version : h.masked.versionNumber = h.versionNumber) (apid : h.masked.apid = h.apid) :
    h.masked = h := by
  obtain ⟨⟩ := h
  simp only [masked, CcsdsPrimaryHeader.mk.injEq] at version apid ⊢
  exact ⟨version, trivial, trivial, apid, trivial, trivial, trivial⟩

theorem CcsdsPrimaryHeader.masked_eq_iff {h : CcsdsPrimaryHeader} :
    h.masked = h ↔ h.versionNumber.toNat < 4 ∧ h.apid.toNat < 1024 := by
  have version : h.masked.versionNumber = h.versionNumber ↔ h.versionNumber.toNat < 4 := by
    rw [masked, ← BitVec.toNat_inj, BitVec.toNat_and,
      show (0x3 : BitVec 3).toNat = 2 ^ 2 - 1 from rfl, Nat.and_two_pow_sub_one_eq_mod]
    exact Nat.mod_eq_iff_lt (by decide)
  have apid : h.masked.apid = h.apid ↔ h.apid.toNat < 1024 := by
    rw [masked, ← BitVec.toNat_inj, BitVec.toNat_and,
      show (0x3FF : BitVec 11).toNat = 2 ^ 10 - 1 from rfl, Nat.and_two_pow_sub_one_eq_mod]
    exact Nat.mod_eq_iff_lt (by decide)
  rw [← version, ← apid]
  constructor
  · intro same
    rw [same]
    exact ⟨rfl, rfl⟩
  · rintro ⟨version, apid⟩
    exact masked_eq version apid

theorem HkReport.tagged_packet (report : HkReport) (totalDataLength : ℕ) :
    (report.packet totalDataLength).hkData.isSome = true ↔
      (report.packet totalDataLength).structureId = bootHkidBootHk := by
  simp only [packet]
  split <;> simp_all

/-- A report is read back from its packet exactly when the bits fit that the code keeps: two of the
three bits of the version and ten of the eleven bits of the identifier. -/
theorem hkReport_roundTrip_iff (target : ℕ → BitVec 8) {targetNb : BitVec 16}
    (room : 24 ≤ targetNb.toNat) (report : HkReport) :
    let bytes := (pusFinalizePacket (bootsSerializeHkReport target targetNb report)).written
    decodeHkPacket bytes = some (report.packet bytes.length) ↔
      report.ccsdsPrimaryHeader.versionNumber.toNat < 4 ∧
        report.ccsdsPrimaryHeader.apid.toNat < 1024 := by
  intro bytes
  obtain ⟨_, crc, laidOut⟩ := written_hkReport target room report
  rw [decodeHkPacket_layout (HkReport.tagged_packet _ _) laidOut, Option.some.injEq,
    ← CcsdsPrimaryHeader.masked_eq_iff]
  constructor
  · intro same
    exact CcsdsPrimaryHeader.masked_eq
      (congrArg (fun p => p.ccsdsPrimaryHeader.versionNumber) same)
      (congrArg (fun p => p.ccsdsPrimaryHeader.apid) same)
  · intro same
    rw [same]

/-- A report with every bit of its fields set. -/
def fullReport : HkReport where
  ccsdsPrimaryHeader := ⟨-1, -1, -1, -1, -1, -1, -1⟩
  pusTmSecondaryHeader := ⟨-1, -1, -1, -1, -1, -1, -1, -1⟩
  structureId := bootHkidBootHk
  hkData := ⟨-1, -1⟩

/-- `SBRO_PACKET_MAX_NB`, the size of the caller's buffer. -/
def sbroPacketMaxNb : BitVec 16 := 200

theorem hkReport_roundTrip_iff_full :
    24 ≤ sbroPacketMaxNb.toNat ∧
      let bytes :=
        (pusFinalizePacket (bootsSerializeHkReport (fun _ => 0) sbroPacketMaxNb fullReport)).written
      (decodeHkPacket bytes = some (fullReport.packet bytes.length) ↔
        fullReport.ccsdsPrimaryHeader.versionNumber.toNat < 4 ∧
          fullReport.ccsdsPrimaryHeader.apid.toNat < 1024) :=
  ⟨by decide, hkReport_roundTrip_iff (fun _ => 0) (by decide) fullReport⟩

/-- The identifier 2047 is read back as 1023, and the version 7 as 3. -/
theorem hkReport_not_readBack :
    let bytes :=
      (pusFinalizePacket (bootsSerializeHkReport (fun _ => 0) sbroPacketMaxNb fullReport)).written
    decodeHkPacket bytes ≠ some (fullReport.packet bytes.length) ∧
      (decodeHkPacket bytes).map (fun p => p.ccsdsPrimaryHeader.apid) = some 1023 ∧
      (decodeHkPacket bytes).map (fun p => p.ccsdsPrimaryHeader.versionNumber) = some 3 := by
  intro bytes
  obtain ⟨_, crc, laidOut⟩ := written_hkReport (fun _ => 0) (show 24 ≤ sbroPacketMaxNb.toNat by decide)
    fullReport
  rw [decodeHkPacket_layout (HkReport.tagged_packet _ _) laidOut]
  refine ⟨?_, rfl, rfl⟩
  intro same
  have apid := congrArg (fun p => p.map fun p => p.ccsdsPrimaryHeader.apid) same
  exact absurd apid (by decide)

end Hss
