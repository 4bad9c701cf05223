import Mathlib.Data.BitVec

/-! Telemetry packets: the headers and the housekeeping report, their serializers, and the end of a
packet with its length and its checksum. -/

namespace Hss

/-! ### The fields of a report -/

/-- `CCSDS_PrimaryHeader_t` -/
structure CcsdsPrimaryHeader where
  versionNumber : BitVec 3
  packetType : BitVec 1
  secondaryHeader : BitVec 1
  apid : BitVec 11
  sequenceFlag : BitVec 2
  sequenceCount : BitVec 14
  dataLength : BitVec 16
  deriving DecidableEq, Repr

/-- `PUS_TmSecondaryHeader_t` -/
structure PusTmSecondaryHeader where
  versionTmPus : BitVec 4
  scTimeReferenceStatus : BitVec 4
  serviceType : BitVec 8
  serviceSubType : BitVec 8
  messageTypeCounter : BitVec 16
  destinationId : BitVec 16
  time : BitVec 32
  spare0 : BitVec 8
  deriving DecidableEq, Repr

/-- `BOOT_HkBootSw_t` -/
structure HkBootSw where
  bootDevice : BitVec 8
  bootStatus : BitVec 8
  deriving DecidableEq, Repr

/-- `BOOT_HkReport_t`.  The union has one member. -/
structure HkReport where
  ccsdsPrimaryHeader : CcsdsPrimaryHeader
  pusTmSecondaryHeader : PusTmSecondaryHeader
  structureId : BitVec 16
  hkData : HkBootSw
  deriving DecidableEq, Repr

/-- `BOOT_HKID_BOOT_HK` -/
def bootHkidBootHk : BitVec 16 := 255

/-- `sizeof` of the headers and of the checksum -/
def sizeOfCcsdsPrimaryHeader : ℕ := 6
def sizeOfPusTmSecondaryHeader : ℕ := 12
def sizeOfPusCrc : ℕ := 2

/-! ### Buffers -/

/-- A buffer with `*totalDataSize`, the number of bytes written so far. -/
structure PacketBuffer where
  target : ℕ → BitVec 8
  totalDataSize : BitVec 16

/-- `memcpy(&target[offset], data, ..)` -/
def copyBytes (target : ℕ → BitVec 8) (offset : ℕ) (data : List (BitVec 8)) : ℕ → BitVec 8 :=
  fun i => if offset ≤ i then data.getD (i - offset) (target i) else target i

/-- The bytes of a 16-bit variable in memory, which is little endian. -/
def hostBytes (x : BitVec 16) : List (BitVec 8) := [x.setWidth 8, (x >>> 8).setWidth 8]

/-- `LEND_Host2Network`, which is `LEND_Swap` on a little endian host. -/
def lendHost2Network (data : List (BitVec 8)) : List (BitVec 8) :=
  if data.length ≤ 8 then data.reverse else data

namespace PacketBuffer

/-- `target[*totalDataSize] = byte; *totalDataSize += 1` -/
def put (buf : PacketBuffer) (byte : BitVec 8) : PacketBuffer :=
  ⟨Function.update buf.target buf.totalDataSize.toNat byte, buf.totalDataSize + 1⟩

/-- `target[index] = byte; *totalDataSize += 1` -/
def putAt (buf : PacketBuffer) (index : ℕ) (byte : BitVec 8) : PacketBuffer :=
  ⟨Function.update buf.target index byte, buf.totalDataSize + 1⟩

/-- Bytes are copied to the end and counted. -/
def putBytes (buf : PacketBuffer) (data : List (BitVec 8)) : PacketBuffer :=
  ⟨copyBytes buf.target buf.totalDataSize.toNat data,
    buf.totalDataSize + BitVec.ofNat 16 data.length⟩

/-- The test of the serializers for room, on unsigned words. -/
def hasRoom (buf : PacketBuffer) (targetNb : BitVec 16) (size : ℕ) : Bool :=
  BitVec.ofNat 64 size ≤ targetNb.setWidth 64 - buf.totalDataSize.setWidth 64

/-- The bytes that were written. -/
def written (buf : PacketBuffer) : List (BitVec 8) :=
  (List.range buf.totalDataSize.toNat).map buf.target

end PacketBuffer

/-! ### Serializers -/

/-- `BOOTSU_SerializeCCSDS_PrimaryHeader`: it writes at the start of the buffer, and byte 5 twice. -/
def bootsuSerializeCcsdsPrimaryHeader (targetNb : BitVec 16) (h : CcsdsPrimaryHeader)
    (buf : PacketBuffer) : PacketBuffer × Bool :=
  if buf.hasRoom targetNb sizeOfCcsdsPrimaryHeader then
    let byte1 := ((h.versionNumber.setWidth 8 &&& 0x03) <<< 5) |||
      ((h.packetType.setWidth 8 &&& 0x01) <<< 4) |||
      ((h.secondaryHeader.setWidth 8 &&& 0x01) <<< 3) |||
      ((h.apid.setWidth 32 &&& 0x300) >>> 8).setWidth 8
    let byte2 := (h.apid.setWidth 32 &&& 0xFF).setWidth 8
    let byte3 := ((h.sequenceFlag.setWidth 8 &&& 0x03) <<< 6) |||
      ((h.sequenceCount.setWidth 32 &&& 0x3F00) >>> 8).setWidth 8
    let byte4 := (h.sequenceCount.setWidth 32 &&& 0xFF).setWidth 8
    let byte5 := ((h.dataLength &&& 0xFF00) >>> 8).setWidth 8
    let byte6 := (h.dataLength &&& 0xFF).setWidth 8
    (((((((buf.putAt 0 byte1).putAt 1 byte2).putAt 2 byte3).putAt 3 byte4).putAt 5 byte5).putAt 5
      byte6), true)
  else (buf, false)

/-- The bytes of a secondary header, in the order in which they are written. -/
def PusTmSecondaryHeader.bytes (h : PusTmSecondaryHeader) : List (BitVec 8) :=
  [((h.versionTmPus.setWidth 8 &&& 0x0F) <<< 4) ||| (h.scTimeReferenceStatus.setWidth 8 &&& 0x0F),
    h.serviceType,
    h.serviceSubType,
    ((h.messageTypeCounter &&& 0xFF00) >>> 8).setWidth 8,
    (h.messageTypeCounter &&& 0x00FF).setWidth 8,
    ((h.destinationId &&& 0xFF00) >>> 8).setWidth 8,
    (h.destinationId &&& 0x00FF).setWidth 8,
    ((h.time &&& 0xFF000000) >>> 24).setWidth 8,
    ((h.time &&& 0x00FF0000) >>> 16).setWidth 8,
    ((h.time &&& 0x0000FF00) >>> 8).setWidth 8,
    (h.time &&& 0x000000FF).setWidth 8,
    h.spare0]

/-- `BOOTSU_SerializePUS_TmSecondaryHeader` -/
def bootsuSerializePusTmSecondaryHeader (targetNb : BitVec 16) (h : PusTmSecondaryHeader)
    (buf : PacketBuffer) : PacketBuffer × Bool :=
  if buf.hasRoom targetNb sizeOfPusTmSecondaryHeader then (h.bytes.foldl PacketBuffer.put buf, true)
  else (buf, false)

/-- `BOOTS_SerializeHkBootSw` -/
def bootsSerializeHkBootSw (data : HkBootSw) (buf : PacketBuffer) : PacketBuffer :=
  (buf.putBytes [data.bootDevice]).putBytes [data.bootStatus]

/-- `BOOTS_SerializeHkReport`, which does not look at the answers of the serializers of the headers. -/
def bootsSerializeHkReport (target : ℕ → BitVec 8) (targetNb : BitVec 16) (report : HkReport) :
    PacketBuffer :=
  let buf : PacketBuffer := ⟨target, 0⟩
  let buf := (bootsuSerializeCcsdsPrimaryHeader targetNb report.ccsdsPrimaryHeader buf).1
  let buf := (bootsuSerializePusTmSecondaryHeader targetNb report.pusTmSecondaryHeader buf).1
  let buf := buf.putBytes (lendHost2Network (hostBytes report.structureId))
  if report.structureId = bootHkidBootHk then bootsSerializeHkBootSw report.hkData buf else buf

/-! ### The end of a packet -/

/-- `ccsdsCrcTable` -/
def ccsdsCrcTable : List (BitVec 16) :=
  [0x0000, 0x1021, 0x2042, 0x3063, 0x4084, 0x50a5, 0x60c6, 0x70e7, 0x8108, 0x9129, 0xa14a,
    0xb16b, 0xc18c, 0xd1ad, 0xe1ce, 0xf1ef, 0x1231, 0x0210, 0x3273, 0x2252, 0x52b5, 0x4294,
    0x72f7, 0x62d6, 0x9339, 0x8318, 0xb37b, 0xa35a, 0xd3bd, 0xc39c, 0xf3ff, 0xe3de, 0x2462,
    0x3443, 0x0420, 0x1401, 0x64e6, 0x74c7, 0x44a4, 0x5485, 0xa56a, 0xb54b, 0x8528, 0x9509,
    0xe5ee, 0xf5cf, 0xc5ac, 0xd58d, 0x3653, 0x2672, 0x1611, 0x0630, 0x76d7, 0x66f6, 0x5695,
    0x46b4, 0xb75b, 0xa77a, 0x9719, 0x8738, 0xf7df, 0xe7fe, 0xd79d, 0xc7bc, 0x48c4, 0x58e5,
    0x6886, 0x78a7, 0x0840, 0x1861, 0x2802, 0x3823, 0xc9cc, 0xd9ed, 0xe98e, 0xf9af, 0x8948,
    0x9969, 0xa90a, 0xb92b, 0x5af5, 0x4ad4, 0x7ab7, 0x6a96, 0x1a71, 0x0a50, 0x3a33, 0x2a12,
    0xdbfd, 0xcbdc, 0xfbbf, 0xeb9e, 0x9b79, 0x8b58, 0xbb3b, 0xab1a, 0x6ca6, 0x7c87, 0x4ce4,
    0x5cc5, 0x2c22, 0x3c03, 0x0c60, 0x1c41, 0xedae, 0xfd8f, 0xcdec, 0xddcd, 0xad2a, 0xbd0b,
    0x8d68, 0x9d49, 0x7e97, 0x6eb6, 0x5ed5, 0x4ef4, 0x3e13, 0x2e32, 0x1e51, 0x0e70, 0xff9f,
    0xefbe, 0xdfdd, 0xcffc, 0xbf1b, 0xaf3a, 0x9f59, 0x8f78, 0x9188, 0x81a9, 0xb1ca, 0xa1eb,
    0xd10c, 0xc12d, 0xf14e, 0xe16f, 0x1080, 0x00a1, 0x30c2, 0x20e3, 0x5004, 0x4025, 0x7046,
    0x6067, 0x83b9, 0x9398, 0xa3fb, 0xb3da, 0xc33d, 0xd31c, 0xe37f, 0xf35e, 0x02b1, 0x1290,
    0x22f3, 0x32d2, 0x4235, 0x5214, 0x6277, 0x7256, 0xb5ea, 0xa5cb, 0x95a8, 0x8589, 0xf56e,
    0xe54f, 0xd52c, 0xc50d, 0x34e2, 0x24c3, 0x14a0, 0x0481, 0x7466, 0x6447, 0x5424, 0x4405,
    0xa7db, 0xb7fa, 0x8799, 0x97b8, 0xe75f, 0xf77e, 0xc71d, 0xd73c, 0x26d3, 0x36f2, 0x0691,
    0x16b0, 0x6657, 0x7676, 0x4615, 0x5634, 0xd94c, 0xc96d, 0xf90e, 0xe92f, 0x99c8, 0x89e9,
    0xb98a, 0xa9ab, 0x5844, 0x4865, 0x7806, 0x6827, 0x18c0, 0x08e1, 0x3882, 0x28a3, 0xcb7d,
    0xdb5c, 0xeb3f, 0xfb1e, 0x8bf9, 0x9bd8, 0xabbb, 0xbb9a, 0x4a75, 0x5a54, 0x6a37, 0x7a16,
    0x0af1, 0x1ad0, 0x2ab3, 0x3a92, 0xfd2e, 0xed0f, 0xdd6c, 0xcd4d, 0xbdaa, 0xad8b, 0x9de8,
    0x8dc9, 0x7c26, 0x6c07, 0x5c64, 0x4c45, 0x3ca2, 0x2c83, 0x1ce0, 0x0cc1, 0xef1f, 0xff3e,
    0xcf5d, 0xdf7c, 0xaf9b, 0xbfba, 0x8fd9, 0x9ff8, 0x6e17, 0x7e36, 0x4e55, 0x5e74, 0x2e93,
    0x3eb2, 0x0ed1, 0x1ef0]

/-- `CRC_CcsdsCrc16Get` -/
def crcCcsdsCrc16Get (seed : BitVec 16) (bias : BitVec 8) (buf : List (BitVec 8)) : BitVec 16 :=
  buf.foldl
    (fun crc byte =>
      (ccsdsCrcTable.getD ((crc >>> 8 ^^^ byte.setWidth 16) &&& 0xFF).toNat 0 ^^^ (crc <<< 8)) +
        bias.setWidth 16)
    seed

/-- `PUS_DEFAULT_CRC_SEED` and `PUS_DEFAULT_CRC_OFFSET` -/
def pusDefaultCrcSeed : BitVec 16 := 0xFFFF
def pusDefaultCrcOffset : BitVec 8 := 0

/-- `PUS_FinalizePacket` -/
def pusFinalizePacket (buf : PacketBuffer) : PacketBuffer :=
  let totalDataLength := buf.totalDataSize + BitVec.ofNat 16 sizeOfPusCrc
  let dataLength := totalDataLength - 1 - BitVec.ofNat 16 sizeOfCcsdsPrimaryHeader
  let target := Function.update buf.target 4 (((dataLength &&& 0xFF00) >>> 8).setWidth 8)
  let target := Function.update target 5 ((dataLength &&& 0xFF).setWidth 8)
  let crc := crcCcsdsCrc16Get pusDefaultCrcSeed pusDefaultCrcOffset
    ((List.range (totalDataLength.toNat - sizeOfPusCrc)).map target)
  ⟨copyBytes target (totalDataLength.toNat - sizeOfPusCrc) (lendHost2Network (hostBytes crc)),
    totalDataLength⟩

end Hss
