import Hss.Telemetry.Finalize

/-! The frame that a packet is published in: its headers and its data, each with a checksum, between
two marks. -/

namespace Hss

/-! ### The frame -/

/-- The marks at the start and at the end of a frame. -/
def hex20Start : List (BitVec 8) := [0x1A, 0xCF, 0xFC, 0x1D]
def hex20End : List (BitVec 8) := [0x1D, 0xFC, 0xCF, 0x1A]

/-- The bytes from `p` on. -/
def bytesFrom (target : ℕ → BitVec 8) (p n : ℕ) : List (BitVec 8) :=
  (List.range n).map fun i => target (p + i)

/-- The checksum of bytes, as it is sent. -/
def sentCrc (bytes : List (BitVec 8)) : List (BitVec 8) :=
  networkBytes (crcCcsdsCrc16Get pusDefaultCrcSeed pusDefaultCrcOffset bytes)

/-- Bytes are added to `dataOut2`, which has `SBRO_PACKET_MAX_NB` bytes. -/
def addToFrame (out : PacketBuffer) (bytes : List (BitVec 8)) : Option PacketBuffer :=
  if out.totalDataSize.toNat + bytes.length ≤ sbroPacketMaxNb.toNat then some (out.putBytes bytes)
  else none

/-- `headersSize` -/
def headersSize : ℕ := sizeOfCcsdsPrimaryHeader + sizeOfPusTmSecondaryHeader

/-- `ConvertToHex20Format`, with anything in `dataOut2` at first; none when it writes past the end of
that. -/
def convertToHex20Format (dataOut dataOut2 : ℕ → BitVec 8) (totalDataSize : BitVec 16) :
    Option PacketBuffer := do
  let dataOutNb := totalDataSize
  let out ← addToFrame ⟨dataOut2, 0⟩ hex20Start
  let out ← addToFrame out (bytesFrom dataOut 0 headersSize)
  let out ← addToFrame out (sentCrc (bytesFrom dataOut 0 headersSize))
  let dataSize := dataOutNb - BitVec.ofNat 16 headersSize - 2
  let out ← addToFrame out (bytesFrom dataOut headersSize dataSize.toNat)
  let out ← addToFrame out (sentCrc (bytesFrom dataOut headersSize dataSize.toNat))
  let out ← addToFrame out hex20End
  return ⟨copyBytes dataOut 0 out.written, out.totalDataSize⟩

/-- A receiver of a frame: the marks and the checksums are right. -/
def receiveHex20 (frame : List (BitVec 8)) : Option (List (BitVec 8) × List (BitVec 8)) :=
  let (start, frame) := frame.splitAt 4
  let (headers, frame) := frame.splitAt headersSize
  let (headersCrc, frame) := frame.splitAt 2
  let (data, frame) := frame.splitAt (frame.length - 6)
  let (dataCrc, stop) := frame.splitAt 2
  if start = hex20Start ∧ headersCrc = sentCrc headers ∧ dataCrc = sentCrc data ∧ stop = hex20End then
    some (headers, data)
  else none

/-- A frame as a receiver expects it. -/
def hex20Frame (headers data : List (BitVec 8)) : List (BitVec 8) :=
  hex20Start ++ (headers ++ (sentCrc headers ++ (data ++ (sentCrc data ++ hex20End))))

theorem splitAt_append {α : Type} {left right : List α} {n : ℕ} (length : left.length = n) :
    (left ++ right).splitAt n = (left, right) := by
  rw [List.splitAt_eq, List.take_left' length, List.drop_left' length]

theorem receiveHex20_frame {headers data : List (BitVec 8)} (whole : headers.length = headersSize) :
    receiveHex20 (hex20Frame headers data) = some (headers, data) := by
  have crc (bytes : List (BitVec 8)) : (sentCrc bytes).length = 2 := rfl
  have mark : hex20End.length = 4 := rfl
  have rest : (data ++ (sentCrc data ++ hex20End)).length - 6 = data.length := by
    rw [List.length_append, List.length_append, crc, mark, Nat.add_sub_cancel]
  simp only [receiveHex20, hex20Frame, splitAt_append (show hex20Start.length = 4 from rfl),
    splitAt_append whole, splitAt_append (crc headers), rest, splitAt_append rfl,
    splitAt_append (crc data), and_self, if_true]

/-! ### The conversion -/

theorem addToFrame_eq_some_iff {out after : PacketBuffer} {bytes : List (BitVec 8)} :
    addToFrame out bytes = some after ↔
      out.totalDataSize.toNat + bytes.length ≤ 200 ∧ out.putBytes bytes = after := by
  have size : sbroPacketMaxNb.toNat = 200 := rfl
  unfold addToFrame
  rw [size]
  split
  · next fits => rw [Option.some.injEq, and_iff_right fits]
  · next outsize =>
    constructor
    · intro added
      cases added
    · intro both
      exact absurd both.1 outsize

theorem addToFrame_written {out after : PacketBuffer} {bytes : List (BitVec 8)}
    (added : addToFrame out bytes = some after) : after.written = out.written ++ bytes ∧
      after.totalDataSize.toNat = out.totalDataSize.toNat + bytes.length := by
  obtain ⟨fits, rfl⟩ := addToFrame_eq_some_iff.mp added
  exact out.written_putBytes bytes (by omega)

theorem length_bytesFrom (target : ℕ → BitVec 8) (p n : ℕ) : (bytesFrom target p n).length = n := by
  rw [bytesFrom, List.length_map, List.length_range]

/-- The size of the data, which wraps when there is less than the headers and a checksum. -/
theorem hex20DataSize {totalDataSize : BitVec 16} :
    (20 ≤ totalDataSize.toNat →
      (totalDataSize - BitVec.ofNat 16 headersSize - 2).toNat = totalDataSize.toNat - 20) ∧
    (totalDataSize.toNat < 20 →
      65516 ≤ (totalDataSize - BitVec.ofNat 16 headersSize - 2).toNat) := by
  have less := totalDataSize.isLt
  have headers : (BitVec.ofNat 16 headersSize).toNat = 18 := rfl
  have two : (2 : BitVec 16).toNat = 2 := rfl
  rw [BitVec.toNat_sub, BitVec.toNat_sub, headers, two]
  constructor <;> intro <;> omega

/-- What the conversion leaves behind when it stays in `dataOut2`: the frame, at the start of
`dataOut`. -/
theorem convertToHex20Format_eq_some {dataOut dataOut2 : ℕ → BitVec 8} {totalDataSize : BitVec 16}
    {out : PacketBuffer} (converted : convertToHex20Format dataOut dataOut2 totalDataSize = some out) :
    let dataSize := (totalDataSize - BitVec.ofNat 16 headersSize - 2).toNat
    out.totalDataSize.toNat = dataSize + 30 ∧ dataSize + 30 ≤ 200 ∧
      out.target = copyBytes dataOut 0
        (hex20Frame (bytesFrom dataOut 0 headersSize) (bytesFrom dataOut headersSize dataSize)) := by
  intro dataSize
  simp only [convertToHex20Format, Option.bind_eq_bind, Option.bind_eq_some_iff, Option.pure_def,
    Option.some.injEq] at converted
  obtain ⟨out₁, start, out₂, headers, out₃, headersCrc, out₄, data, out₅, dataCrc, out₆, stop, rfl⟩ :=
    converted
  obtain ⟨written₁, size₁⟩ := addToFrame_written start
  obtain ⟨written₂, size₂⟩ := addToFrame_written headers
  obtain ⟨written₃, size₃⟩ := addToFrame_written headersCrc
  obtain ⟨written₄, size₄⟩ := addToFrame_written data
  obtain ⟨written₅, size₅⟩ := addToFrame_written dataCrc
  obtain ⟨written₆, size₆⟩ := addToFrame_written stop
  obtain ⟨fits, -⟩ := addToFrame_eq_some_iff.mp stop
  have crc (bytes : List (BitVec 8)) : (sentCrc bytes).length = 2 := rfl
  have mark : hex20Start.length = 4 := rfl
  have endMark : hex20End.length = 4 := rfl
  have headersNb : headersSize = 18 := rfl
  have zero : (0 : BitVec 16).toNat = 0 := rfl
  simp only [length_bytesFrom, crc, mark, endMark, zero] at size₁ size₂ size₃ size₄ size₅ size₆ fits
  have total : out₆.totalDataSize.toNat = dataSize + 30 := by omega
  refine ⟨total, by omega, ?_⟩
  have empty : (⟨dataOut2, 0⟩ : PacketBuffer).written = [] := rfl
  rw [written₆, written₅, written₄, written₃, written₂, written₁, empty]
  simp only [hex20Frame, List.nil_append, List.append_assoc, dataSize]

/-- The conversion stays in `dataOut2` when the frame does. -/
theorem convertToHex20Format_isSome {dataOut dataOut2 : ℕ → BitVec 8} {totalDataSize : BitVec 16}
    (fits : (totalDataSize - BitVec.ofNat 16 headersSize - 2).toNat + 30 ≤ 200) :
    ∃ out, convertToHex20Format dataOut dataOut2 totalDataSize = some out := by
  have added (out : PacketBuffer) (bytes : List (BitVec 8))
      (room : out.totalDataSize.toNat + bytes.length ≤ 200) : ∃ after, addToFrame out bytes = some after ∧
        after.totalDataSize.toNat = out.totalDataSize.toNat + bytes.length := by
    have step := addToFrame_eq_some_iff.mpr ⟨room, rfl⟩
    exact ⟨_, step, (addToFrame_written step).2⟩
  have crc (bytes : List (BitVec 8)) : (sentCrc bytes).length = 2 := rfl
  have mark : hex20Start.length = 4 := rfl
  have endMark : hex20End.length = 4 := rfl
  have headersNb : headersSize = 18 := rfl
  have zero : (⟨dataOut2, 0⟩ : PacketBuffer).totalDataSize.toNat = 0 := rfl
  obtain ⟨out₁, start, size₁⟩ := added ⟨dataOut2, 0⟩ hex20Start (by omega)
  obtain ⟨out₂, headers, size₂⟩ := added out₁ (bytesFrom dataOut 0 headersSize)
    (by rw [length_bytesFrom]; omega)
  rw [length_bytesFrom] at size₂
  obtain ⟨out₃, headersCrc, size₃⟩ := added out₂ (sentCrc (bytesFrom dataOut 0 headersSize))
    (by rw [crc]; omega)
  rw [crc] at size₃
  obtain ⟨out₄, data, size₄⟩ := added out₃ (bytesFrom dataOut headersSize
    (totalDataSize - BitVec.ofNat 16 headersSize - 2).toNat) (by rw [length_bytesFrom]; omega)
  rw [length_bytesFrom] at size₄
  obtain ⟨out₅, dataCrc, size₅⟩ := added out₄ (sentCrc (bytesFrom dataOut headersSize
    (totalDataSize - BitVec.ofNat 16 headersSize - 2).toNat)) (by rw [crc]; omega)
  rw [crc] at size₅
  obtain ⟨out₆, stop, size₆⟩ := added out₅ hex20End (by omega)
  simp only [convertToHex20Format, start, headers, headersCrc, data, dataCrc, stop,
    Option.bind_eq_bind, Option.bind_some, Option.pure_def]
  exact ⟨_, rfl⟩

theorem written_copyBytes {target : ℕ → BitVec 8} {bytes : List (BitVec 8)} {size : BitVec 16}
    (length : size.toNat = bytes.length) :
    (⟨copyBytes target 0 bytes, size⟩ : PacketBuffer).written = bytes := by
  refine List.ext_getElem ?_ fun i _ less => ?_
  · rw [PacketBuffer.written, List.length_map, List.length_range, length]
  · have copied : copyBytes target 0 bytes (0 + i) = bytes[i] := copyBytes_inside less
    rw [Nat.zero_add] at copied
    simpa only [PacketBuffer.written, List.getElem_map, List.getElem_range] using copied

/-- A packet is framed and received again, with its headers and its data, just when the frame fits
in `dataOut2`, which is no longer than the longest packet. -/
theorem convertToHex20Format_receives_iff (dataOut dataOut2 : ℕ → BitVec 8)
    (totalDataSize : BitVec 16) :
    (∃ out, convertToHex20Format dataOut dataOut2 totalDataSize = some out ∧
      out.totalDataSize.toNat = totalDataSize.toNat + 10 ∧
      receiveHex20 out.written = some (bytesFrom dataOut 0 headersSize,
        bytesFrom dataOut headersSize (totalDataSize.toNat - 20))) ↔
    20 ≤ totalDataSize.toNat ∧ totalDataSize.toNat ≤ 190 := by
  obtain ⟨exact, wraps⟩ := @hex20DataSize totalDataSize
  constructor
  · rintro ⟨out, converted, size, -⟩
    obtain ⟨-, fits, -⟩ := convertToHex20Format_eq_some converted
    have packet : 20 ≤ totalDataSize.toNat := by
      by_contra short
      have outsize := wraps (by omega)
      omega
    have dataSize := exact packet
    omega
  · rintro ⟨packet, fits⟩
    have dataSize := exact packet
    obtain ⟨out, converted⟩ := @convertToHex20Format_isSome dataOut dataOut2
      totalDataSize (by omega)
    obtain ⟨size, -, target⟩ := convertToHex20Format_eq_some converted
    rw [dataSize] at size target
    refine ⟨out, converted, by omega, ?_⟩
    have length : out.totalDataSize.toNat = (hex20Frame (bytesFrom dataOut 0 headersSize)
        (bytesFrom dataOut headersSize (totalDataSize.toNat - 20))).length := by
      have crc (bytes : List (BitVec 8)) : (sentCrc bytes).length = 2 := rfl
      have mark : hex20Start.length = 4 := rfl
      have endMark : hex20End.length = 4 := rfl
      have headersNb : headersSize = 18 := rfl
      simp only [hex20Frame, List.length_append, length_bytesFrom, crc, mark, endMark]
      omega
    have written := @written_copyBytes dataOut _ _ length
    rw [← target] at written
    rw [written, receiveHex20_frame (length_bytesFrom dataOut 0 headersSize)]

/-- A packet that is as long as its buffer: the frame is longer. -/
theorem convertToHex20Format_overflow :
    ¬∃ out, convertToHex20Format (fun _ => 0) (fun _ => 0) sbroPacketMaxNb = some out := by
  rintro ⟨out, converted⟩
  obtain ⟨-, fits, -⟩ := convertToHex20Format_eq_some converted
  have dataSize : (sbroPacketMaxNb - BitVec.ofNat 16 headersSize - 2).toNat = 180 := by decide
  omega

end Hss
