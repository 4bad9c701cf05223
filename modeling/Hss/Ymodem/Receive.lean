import Hss.Buffer
import Mathlib.Data.Stream.Init

/-! The YMODEM receiver: the reader of packets, the main loop, and the size that it returns. -/

namespace Hss

/-! ### The serial line -/

/-- What the reads of the serial line give: a byte, or none when a read times out or fails. -/
abbrev Line := Stream' (Option (BitVec 8))

/-- `enum XYModem_Signals` -/
def xymodemSoh : BitVec 8 := 0x01
def xymodemStx : BitVec 8 := 0x02
def xymodemEtx : BitVec 8 := 0x03
def xymodemEot : BitVec 8 := 0x04
def xymodemAck : BitVec 8 := 0x06
def xymodemNak : BitVec 8 := 0x15
def xymodemCan : BitVec 8 := 0x18
def xymodemC : BitVec 8 := 0x43

/-! ### `CRC16_calculate` -/

def crc16Shift (result : BitVec 16) : BitVec 16 :=
  if result &&& 0x8000 ≠ 0 then result <<< 1 ^^^ 0x1021 else result <<< 1

def crc16UpdateByte (result : BitVec 16) (byte : BitVec 8) : BitVec 16 :=
  crc16Shift^[8] (result ^^^ byte.setWidth 16 <<< 8)

def crc16Calculate (input : Bytes) : BitVec 16 := input.foldl crc16UpdateByte 0

/-! ### The state of the receiver -/

inductive XYModemProtocol
  | xmodem | ymodem
  deriving DecidableEq, Repr

/-- `struct XYModem_Packet` -/
structure XYModemPacket where
  startByte : BitVec 8
  blkNum : BitVec 8
  blkNumOnesComplement : BitVec 8
  buffer : ℕ → BitVec 8
  length : ℕ

/-- `struct XYModem_State` -/
structure XYModemState where
  protocol : XYModemProtocol
  syncFail : Bool
  endOfSession : Bool
  abort : Bool
  eotReceived : Bool
  lastReceivedBlkNum : BitVec 8
  expectedBlkNum : BitVec 8
  totalReceivedSize : ℕ
  numReceivedPackets : ℕ
  filename : Bytes
  expectedSize : Word
  maxSize : ℕ

/-- What `XYMODEM_Receive` works on: its state, the packet, the caller's buffer, the bad packets so
far, the line, and the bytes that it sent, the last one first. -/
structure Receiver extends XYModemState where
  packet : XYModemPacket
  buffer : ℕ → BitVec 8
  retries : ℕ
  line : Line
  sent : Bytes

namespace Receiver

variable (r : Receiver)

/-- `status.done` -/
def done : Bool := r.syncFail || r.endOfSession || r.abort

/-- `getchar_with_timeout_` -/
def getchar : Option (BitVec 8) × Receiver := (r.line.head, { r with line := r.line.tail })

/-- `putchar_` -/
def putchar (byte : BitVec 8) : Receiver := { r with sent := byte :: r.sent }

/-- `pPacket->length = length` -/
def setLength (length : ℕ) : Receiver := { r with packet := { r.packet with length } }

def setStartByte (startByte : BitVec 8) : Receiver :=
  { r with packet := { r.packet with startByte } }

/-- `XYMODEM_SendReadyChar` -/
def sendReadyChar : Receiver :=
  if r.protocol = .ymodem then r.putchar xymodemC else r.putchar xymodemNak

/-- `XYMODEM_SendCAN` -/
def sendCan : Receiver := { r with sent := List.replicate 8 xymodemCan ++ r.sent }

/-- `XYMODEM_Purge`: at most `n` bytes are taken from the line. -/
def purge : ℕ → Receiver → Receiver
  | 0, r => r
  | n + 1, r =>
      match r.getchar.1 with
      | none => r.getchar.2
      | some _ => purge n r.getchar.2

/-! ### `XYMODEM_ReadPacket` -/

/-- The cases of a start byte. -/
inductive StartSignal
  | soh | stx | eot | etx | can | other
  deriving DecidableEq, Repr

def startSignal : Option (BitVec 8) → StartSignal
  | none => .other
  | some byte =>
      if byte = xymodemSoh then .soh
      else if byte = xymodemStx then .stx
      else if byte = xymodemEot then .eot
      else if byte = xymodemEtx then .etx
      else if byte = xymodemCan then .can
      else .other

/-- The loop that synchronizes, with the attempts that are left: whether it did. -/
def synchronize : ℕ → ℕ → Receiver → Bool × Receiver
  | 0, _, r => (false, r)
  | attempts + 1, canRxCount, r =>
      let (rawStartByte, r) := r.getchar
      let r := r.setStartByte (rawStartByte.getD 0)
      match startSignal rawStartByte with
      | .soh => (true, r.setLength 128)
      | .stx => (true, r.setLength 1024)
      | .eot => (true, { r.setLength 0 with eotReceived := true })
      | .etx => (false, { r.setLength 0 with abort := true })
      | .can =>
          if canRxCount + 1 = 2 then (false, { r.setLength 0 with abort := true })
          else synchronize attempts (canRxCount + 1) r
      | .other => synchronize attempts 0 r.sendReadyChar

/-- A read of a byte of a packet, where a timeout is the byte -1. -/
def getByte : BitVec 8 × Receiver := (r.getchar.1.getD 0xFF, r.getchar.2)

def getBytes : ℕ → Receiver → Bytes × Receiver
  | 0, r => ([], r)
  | n + 1, r =>
      let (byte, r) := r.getByte
      let (bytes, r) := getBytes n r
      (byte :: bytes, r)

/-- `XYMODEM_ValidatePacket` -/
def validatePacket : Bool :=
  if crc16Calculate (firstBytes r.packet.buffer (r.packet.length + 2)) ≠ 0 then false
  else if r.packet.blkNum ≠ r.packet.blkNumOnesComplement ^^^ 0xFF then false
  else if r.packet.blkNum ≠ r.expectedBlkNum then false
  else true

/-- The extraction of a packet, after the start byte. -/
def extractPacket : Receiver :=
  let (blkNum, r) := r.getByte
  let (blkNumOnesComplement, r) := r.getByte
  let r := { r with
    packet := { r.packet with blkNum, blkNumOnesComplement }
    numReceivedPackets := r.numReceivedPackets + 1 }
  let (bytes, r) := getBytes (r.packet.length + 2) r
  { r with packet := { r.packet with buffer := writeBuffer r.packet.buffer 0 bytes } }

/-- `XYMODEM_ReadPacket` -/
def readPacket : Bool × Receiver :=
  if r.done then
    (false, r)
  else
    let (synced, r) := synchronize 20 0 r
    if r.endOfSession then
      (true, r)
    else if synced then
      let r := r.extractPacket
      if r.done then
        (true, r)
      else if r.eotReceived then
        (true, r)
      else if r.validatePacket then
        (true, { r with
          lastReceivedBlkNum := r.packet.blkNum
          expectedBlkNum := r.expectedBlkNum + 1 })
      else
        (false, r)
    else
      (r.abort, { r.setLength 0 with syncFail := true })

/-! ### `XYMODEM_Receive` -/

/-- `XYMODEM_GetFileSize`: the number after the first zero byte. -/
def getFileSize : Bool → Word → Bytes → Word
  | _, fileSize, [] => fileSize
  | hunting, fileSize, char :: rest =>
      if char = 0 then
        if hunting then getFileSize false fileSize rest else fileSize
      else if 0x30 ≤ char ∧ char ≤ 0x39 then
        if hunting then getFileSize hunting fileSize rest
        else getFileSize hunting (fileSize * 10 + (char - 0x30).setWidth 64) rest
      else if hunting then getFileSize hunting fileSize rest
      else fileSize

/-- `ARRAY_SIZE(packet.buffer)` -/
def packetBufferSize : ℕ := 1026

/-- The header block: its file name, and its size if that fits. -/
def takeHeader : Receiver :=
  let r := { r with
    filename := firstBytes r.packet.buffer 63
    expectedSize := getFileSize true 0 (firstBytes r.packet.buffer packetBufferSize) }
  if r.expectedSize.toNat > r.maxSize then
    { r with abort := true, totalReceivedSize := 0 }.sendCan
  else r

/-- A block of data, if it fits. -/
def takeData : Receiver :=
  if r.totalReceivedSize + r.packet.length < r.maxSize then
    { r with
      buffer := writeBuffer r.buffer r.totalReceivedSize
        (firstBytes r.packet.buffer r.packet.length)
      totalReceivedSize := r.totalReceivedSize + r.packet.length }
  else { r with abort := true, totalReceivedSize := 0 }.sendCan

/-- The packet that was read is the header block. -/
def IsHeader : Prop :=
  r.protocol = .ymodem ∧ r.lastReceivedBlkNum = 0 ∧ r.numReceivedPackets = 1

instance : Decidable r.IsHeader := inferInstanceAs (Decidable (_ ∧ _))

/-- The answer to a good packet, and what is done with it.  Each `break` of the source follows an
abort, with which the loop ends. -/
def takePacket : Receiver :=
  let r := r.putchar xymodemAck
  if !r.done then
    if r.IsHeader then r.takeHeader
    else if r.eotReceived then { r with endOfSession := true }.putchar xymodemAck
    else r.takeData
  else if r.abort then
    { r with totalReceivedSize := 0 }.sendCan
  else if r.endOfSession then
    (r.putchar xymodemAck).purge 10
  else r

/-- The answer to a bad packet. -/
def refusePacket : Receiver :=
  let r := { r with retries := r.retries + 1 }
  if r.numReceivedPackets ≠ 0 then (r.purge 10).putchar xymodemNak else r

/-- A turn of the main loop. -/
def turn : Receiver := if r.readPacket.1 then r.readPacket.2.takePacket else r.readPacket.2.refusePacket

/-- The condition of the main loop. -/
def Waits : Prop := r.done = false ∧ r.retries < 10

instance : Decidable r.Waits := inferInstanceAs (Decidable (_ ∧ _))

/-- The main loop, for at most `turns` turns. -/
def receiveLoop : ℕ → Receiver → Receiver
  | 0, r => r
  | turns + 1, r => if r.Waits then receiveLoop turns r.turn else r

/-- The number of bytes that the receiver reports. -/
def receivedSize : ℕ :=
  if r.expectedSize ≠ 0 then min r.expectedSize.toNat r.totalReceivedSize else r.totalReceivedSize

end Receiver

/-- The packet and the state as they are set up before the first turn. -/
def startReceiver (protocol : XYModemProtocol) (buffer : ℕ → BitVec 8) (bufferSize : Word)
    (line : Line) : Receiver :=
  let r : Receiver := {
    protocol, syncFail := false, endOfSession := false, abort := false, eotReceived := false
    lastReceivedBlkNum := 0, expectedBlkNum := 0, totalReceivedSize := 0, numReceivedPackets := 0
    filename := List.replicate 64 0, expectedSize := 0, maxSize := bufferSize.toNat
    packet := ⟨0, 0, 0, fun _ => 0, 0⟩, buffer, retries := 0, line, sent := [] }
  let r := r.sendReadyChar
  if protocol ≠ .ymodem then { r with expectedBlkNum := 1 } else r

/-- `XYMODEM_Receive`, with a number of turns that the main loop does not reach. -/
def xymodemReceive (protocol : XYModemProtocol) (buffer : ℕ → BitVec 8) (bufferSize : Word)
    (line : Line) : ℕ × Receiver :=
  let r := (startReceiver protocol buffer bufferSize line).receiveLoop (bufferSize.toNat + 12)
  (r.receivedSize, r.purge 10)

/-- `ymodem_receive` -/
def ymodemReceive (buffer : ℕ → BitVec 8) (bufferSize : Word) (line : Line) : ℕ × Receiver :=
  xymodemReceive .ymodem buffer bufferSize line

end Hss
