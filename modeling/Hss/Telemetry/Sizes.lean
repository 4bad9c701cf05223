import Hss.Telemetry.Serializers

/-! The checks of a received packet's size, and the data that its accessors give. -/

namespace Hss

/-! ### The packet in memory -/

/-- A received packet: its bytes, which are read as `CCSDS_Packet_t`.  The fields of its header are
packed from the low bits on, and the length is little endian. -/
abbrev CcsdsPacket := ℕ → BitVec 8

namespace CcsdsPacket

variable (packet : CcsdsPacket)

def packetType : Bool := (packet 0).getLsbD 3
def secondaryHeader : Bool := (packet 0).getLsbD 4
def dataLength : BitVec 16 := packet 5 ++ packet 4

/-- `CCSDS_PACKET_TOTAL_LENGHT`: the length that the packet declares. -/
def totalLength : ℕ := (dataLength packet).toNat + 1 + sizeOfCcsdsPrimaryHeader

/-- The size of the secondary header that the packet claims to have. -/
def secondarySize : ℕ :=
  if secondaryHeader packet then
    if packetType packet then sizeOfPusTcSecondaryHeader else sizeOfPusTmSecondaryHeader
  else 0

end CcsdsPacket

section
variable (packet : CcsdsPacket) (packetNb : BitVec 16)

/-- `CCSDS_IsPacketSizeValid` -/
def ccsdsIsPacketSizeValid : Bool :=
  if packetNb.toNat < sizeOfCcsdsPrimaryHeader then false
  else
    let packetDataLength := packet.dataLength
    let totalLength : BitVec 16 :=
      BitVec.ofNat 16 (packetDataLength.toNat + 1 + sizeOfCcsdsPrimaryHeader)
    !(packetNb < totalLength)

/-- `PUS_IsPacketSizeValid` -/
def pusIsPacketSizeValid : Bool :=
  let isValid := ccsdsIsPacketSizeValid packet packetNb
  if isValid then
    if packet.secondaryHeader then
      let expectedSize : BitVec 16 := BitVec.ofNat 16 sizeOfCcsdsPrimaryHeader
      let expectedSize := expectedSize + BitVec.ofNat 16
        (if packet.packetType then sizeOfPusTcSecondaryHeader else sizeOfPusTmSecondaryHeader)
      if packetNb < expectedSize then false else isValid
    else isValid
  else isValid

end

/-- `PUS_GetTcDataPointer`: where the data are in the packet, and their size. -/
def pusGetTcDataPointer (pusDataLength : BitVec 16) : ℕ × BitVec 16 :=
  (sizeOfCcsdsPrimaryHeader + sizeOfPusTcSecondaryHeader,
    pusDataLength - BitVec.ofNat 16 sizeOfPusTcSecondaryHeader)

/-- `PUS_GetTmDataPointer` -/
def pusGetTmDataPointer (pusDataLength : BitVec 16) : ℕ × BitVec 16 :=
  (sizeOfCcsdsPrimaryHeader + sizeOfPusTmSecondaryHeader,
    pusDataLength - BitVec.ofNat 16 sizeOfPusTmSecondaryHeader)

/-- `PUS_GET_TC_DATA_SIZE` and `PUS_GET_TM_DATA_SIZE`, on unsigned words. -/
def pusGetTcDataSize (packet : CcsdsPacket) : BitVec 64 :=
  packet.dataLength.setWidth 64 + 1 - BitVec.ofNat 64 sizeOfPusTcSecondaryHeader

def pusGetTmDataSize (packet : CcsdsPacket) : BitVec 64 :=
  packet.dataLength.setWidth 64 + 1 - BitVec.ofNat 64 sizeOfPusTmSecondaryHeader

/-! ### What a check should promise -/

/-- Data at a place of the packet, as an accessor gives them, are all after the secondary header and
end in the packet. -/
structure DataInside (packet : CcsdsPacket) (packetNb : BitVec 16) (data : ℕ × ℕ) : Prop where
  start : data.1 = sizeOfCcsdsPrimaryHeader + packet.secondarySize
  size : data.2 + packet.secondarySize = packet.dataLength.toNat + 1
  ends : data.1 + data.2 ≤ packetNb.toNat

/-- What a telecommand's and a telemetry packet's accessors give. -/
def tcData (packet : CcsdsPacket) : List (ℕ × ℕ) :=
  let pointer := pusGetTcDataPointer (packet.dataLength + 1)
  [(pointer.1, pointer.2.toNat), (pointer.1, (pusGetTcDataSize packet).toNat)]

def tmData (packet : CcsdsPacket) : List (ℕ × ℕ) :=
  let pointer := pusGetTmDataPointer (packet.dataLength + 1)
  [(pointer.1, pointer.2.toNat), (pointer.1, (pusGetTmDataSize packet).toNat)]

/-- The packet is as long as it declares, its headers and its checksum are in that length, and with a
secondary header its accessors give data in it. -/
structure PacketFits (packet : CcsdsPacket) (packetNb : BitVec 16) : Prop where
  declared : packet.totalLength ≤ packetNb.toNat
  headers : sizeOfCcsdsPrimaryHeader + packet.secondarySize + sizeOfPusCrc ≤ packet.totalLength
  data : packet.secondaryHeader = true →
    ∀ data ∈ (if packet.packetType then tcData packet else tmData packet),
      DataInside packet packetNb data

/-- The length that a packet declares, which is not past 16 bits, has room for what is in the packet. -/
def DeclaresEnough (packet : CcsdsPacket) : Prop :=
  packet.totalLength < 2 ^ 16 ∧
    sizeOfCcsdsPrimaryHeader + packet.secondarySize + sizeOfPusCrc ≤ packet.totalLength

variable {packet : CcsdsPacket} {packetNb : BitVec 16}

theorem CcsdsPacket.totalLength_eq : packet.totalLength = packet.dataLength.toNat + 7 := rfl

theorem CcsdsPacket.secondarySize_of_tc (tc : packet.packetType = true)
    (secondary : packet.secondaryHeader = true) : packet.secondarySize = 6 := by
  rw [secondarySize, if_pos secondary, if_pos tc]
  rfl

theorem CcsdsPacket.secondarySize_of_tm (tm : ¬ packet.packetType = true)
    (secondary : packet.secondaryHeader = true) : packet.secondarySize = 12 := by
  rw [secondarySize, if_pos secondary, if_neg tm]
  rfl

theorem CcsdsPacket.secondarySize_of_none (none : ¬ packet.secondaryHeader = true) :
    packet.secondarySize = 0 := by
  rw [secondarySize, if_neg none]

theorem ccsdsIsPacketSizeValid_iff : ccsdsIsPacketSizeValid packet packetNb = true ↔
    6 ≤ packetNb.toNat ∧ packet.totalLength % 2 ^ 16 ≤ packetNb.toNat := by
  have six : sizeOfCcsdsPrimaryHeader = 6 := rfl
  unfold ccsdsIsPacketSizeValid
  split
  · next short => exact iff_of_false Bool.false_ne_true fun both => by omega
  · next header =>
    rw [Bool.not_eq_true', decide_eq_false_iff_not, BitVec.not_lt, BitVec.le_def,
      BitVec.toNat_ofNat, six, CcsdsPacket.totalLength_eq]
    have declared : packet.dataLength.toNat + 1 + 6 = packet.dataLength.toNat + 7 := rfl
    rw [declared]
    exact ⟨fun le => ⟨by omega, le⟩, And.right⟩

/-- The secondary header is compared with the length of the packet, not with the declared one. -/
theorem pusIsPacketSizeValid_iff : pusIsPacketSizeValid packet packetNb = true ↔
    6 + packet.secondarySize ≤ packetNb.toNat ∧
      packet.totalLength % 2 ^ 16 ≤ packetNb.toNat := by
  have header : pusIsPacketSizeValid packet packetNb = true ↔
      ccsdsIsPacketSizeValid packet packetNb = true ∧ 6 + packet.secondarySize ≤ packetNb.toNat := by
    unfold pusIsPacketSizeValid
    dsimp only
    split
    · next valid =>
      rw [and_iff_right valid]
      split
      · next secondary =>
        have expected : (BitVec.ofNat 16 sizeOfCcsdsPrimaryHeader + BitVec.ofNat 16
            (if packet.packetType = true then sizeOfPusTcSecondaryHeader
              else sizeOfPusTmSecondaryHeader)).toNat = 6 + packet.secondarySize := by
          rw [CcsdsPacket.secondarySize, if_pos secondary]
          split <;> rfl
        generalize BitVec.ofNat 16 sizeOfCcsdsPrimaryHeader + _ = expectedSize at expected ⊢
        split
        · next less =>
          rw [BitVec.lt_def, expected] at less
          exact iff_of_false Bool.false_ne_true (not_le.mpr less)
        · next enough =>
          rw [BitVec.lt_def, expected, not_lt] at enough
          exact iff_of_true valid enough
      · next none =>
        rw [CcsdsPacket.secondarySize_of_none none]
        exact iff_of_true valid (ccsdsIsPacketSizeValid_iff.mp valid).1
    · next invalid => exact iff_of_false invalid fun both => invalid both.1
  rw [header, ccsdsIsPacketSizeValid_iff]
  constructor
  · rintro ⟨⟨-, declared⟩, secondary⟩
    exact ⟨secondary, declared⟩
  · rintro ⟨secondary, declared⟩
    exact ⟨⟨by omega, declared⟩, secondary⟩

/-- The accessors' sizes do not underflow when the header is in the declared length. -/
theorem dataInside_of_declared {size : ℕ} (declared : packet.totalLength ≤ packetNb.toNat)
    (header : packet.secondarySize = size) (fits : size ≤ packet.dataLength.toNat + 1) :
    DataInside packet packetNb
        (sizeOfCcsdsPrimaryHeader + size,
          ((packet.dataLength + 1) - BitVec.ofNat 16 size).toNat) ∧
      DataInside packet packetNb
        (sizeOfCcsdsPrimaryHeader + size,
          (packet.dataLength.setWidth 64 + 1 - BitVec.ofNat 64 size).toNat) := by
  have six : sizeOfCcsdsPrimaryHeader = 6 := rfl
  have small := packetNb.isLt
  rw [CcsdsPacket.totalLength_eq] at declared
  have one : (1 : BitVec 16).toNat = 1 := rfl
  have one' : (1 : BitVec 64).toNat = 1 := rfl
  have pointer : ((packet.dataLength + 1) - BitVec.ofNat 16 size).toNat + size =
      packet.dataLength.toNat + 1 := by
    simp only [BitVec.toNat_sub, BitVec.toNat_add, BitVec.toNat_ofNat, one]
    omega
  have macros : (packet.dataLength.setWidth 64 + 1 - BitVec.ofNat 64 size).toNat + size =
      packet.dataLength.toNat + 1 := by
    simp only [BitVec.toNat_sub, BitVec.toNat_add, BitVec.toNat_setWidth, BitVec.toNat_ofNat, one']
    omega
  refine ⟨⟨by rw [header], by rw [header]; exact pointer, ?_⟩,
    ⟨by rw [header], by rw [header]; exact macros, ?_⟩⟩
  · dsimp only
    omega
  · dsimp only
    omega

theorem packetFits_iff (accepted : packet.totalLength % 2 ^ 16 ≤ packetNb.toNat) :
    PacketFits packet packetNb ↔ DeclaresEnough packet := by
  have small := packetNb.isLt
  constructor
  · rintro ⟨declared, headers, -⟩
    exact ⟨by omega, headers⟩
  · rintro ⟨fits, headers⟩
    have declared : packet.totalLength ≤ packetNb.toNat := by
      rwa [Nat.mod_eq_of_lt fits] at accepted
    have six : sizeOfCcsdsPrimaryHeader = 6 := rfl
    have two : sizeOfPusCrc = 2 := rfl
    refine ⟨declared, headers, fun secondary => ?_⟩
    rw [CcsdsPacket.totalLength_eq] at headers
    split
    · next tc =>
      have size := CcsdsPacket.secondarySize_of_tc tc secondary
      obtain ⟨pointer, macros⟩ := dataInside_of_declared declared size (by omega)
      intro data mem
      rcases List.mem_pair.mp mem with rfl | rfl
      · exact pointer
      · exact macros
    · next tm =>
      have size := CcsdsPacket.secondarySize_of_tm tm secondary
      obtain ⟨pointer, macros⟩ := dataInside_of_declared declared size (by omega)
      intro data mem
      rcases List.mem_pair.mp mem with rfl | rfl
      · exact pointer
      · exact macros

/-- What each check accepts is as it should be, if and only if the packet declares enough or is refused:
the declared length is compared modulo 2^16, and the headers are not compared with it. -/
theorem packetSizeValid_fits_iff (packet : CcsdsPacket) (packetNb : BitVec 16) :
    ((ccsdsIsPacketSizeValid packet packetNb = true → PacketFits packet packetNb) ↔
      (6 ≤ packetNb.toNat → packet.totalLength % 2 ^ 16 ≤ packetNb.toNat →
        DeclaresEnough packet)) ∧
    ((pusIsPacketSizeValid packet packetNb = true → PacketFits packet packetNb) ↔
      (6 + packet.secondarySize ≤ packetNb.toNat →
        packet.totalLength % 2 ^ 16 ≤ packetNb.toNat → DeclaresEnough packet)) := by
  rw [ccsdsIsPacketSizeValid_iff, pusIsPacketSizeValid_iff, and_imp, and_imp]
  exact ⟨forall_congr' fun _ => forall_congr' packetFits_iff,
    forall_congr' fun _ => forall_congr' packetFits_iff⟩

/-- A telemetry packet of 18 bytes with a secondary header that declares `dataLength`. -/
def hostilePacket (dataLength : BitVec 16) : CcsdsPacket := fun i =>
  if i = 0 then 0x10
  else if i = 4 then dataLength.setWidth 8
  else if i = 5 then (dataLength >>> 8).setWidth 8
  else 0

/-- The lengths 65542 and 7 are accepted of a packet of 18 bytes. -/
theorem packetSizeValid_unfit :
    (ccsdsIsPacketSizeValid (hostilePacket 0xFFFF) 18 = true ∧
      pusIsPacketSizeValid (hostilePacket 0xFFFF) 18 = true ∧
      ¬ PacketFits (hostilePacket 0xFFFF) 18) ∧
    ccsdsIsPacketSizeValid (hostilePacket 0) 18 = true ∧
      pusIsPacketSizeValid (hostilePacket 0) 18 = true ∧
      ¬ PacketFits (hostilePacket 0) 18 := by
  constructor
  · refine ⟨by decide, by decide, fun fits => ?_⟩
    exact absurd fits.declared (by decide)
  · refine ⟨by decide, by decide, fun fits => ?_⟩
    exact absurd fits.headers (by decide)

end Hss
