import Hss.Lib.Crc
import Hss.Ymodem.Frames

/-! The checksum of YMODEM packets: a packet leaves no residue exactly when it ends in the checksum of
its data. -/

namespace Hss

theorem crc16Shift_eq (result : BitVec 16) : crc16Shift result = Crc.upward.step 0x1021 result := by
  rw [Crc.Register.step, Crc.Register.feed, Bool.xor_false, crc16Shift]
  change _ = if result.msb = true then _ else _
  have top : result &&& 0x8000 ≠ 0 ↔ result.msb = true := by
    have mask : (0x8000 : BitVec 16) = BitVec.twoPow 16 15 := by decide
    rw [mask, BitVec.and_twoPow, BitVec.msb_eq_getLsbD_last]
    cases result.getLsbD 15 with
    | true => decide
    | false => decide
  simp only [top]
  rfl

/-- The checksum is the check bit by bit with the polynomial 1021h. -/
theorem crc16Calculate_eq (input : Bytes) : crc16Calculate input = Crc.up 0x1021 0 input := by
  have bytewise (crc : BitVec 16) (byte : BitVec 8) :
      (Crc.highFirst byte).foldl (Crc.upward.feed 0x1021) crc = crc16UpdateByte crc byte := by
    rw [Crc.foldl_highFirst (by decide), crc16UpdateByte, funext crc16Shift_eq]
  rw [crc16Calculate, Crc.up, Crc.flatMap_foldl bytewise]

/-- The trailer is the big-endian form of the checksum. -/
theorem crcTrailer_eq_iff {a b : BitVec 8} {data : Bytes} :
    [a, b] = crcTrailer data ↔ crc16Calculate data = a ++ b := by
  rw [crcTrailer, List.cons.injEq, List.cons.injEq]
  generalize crc16Calculate data = crc
  have halves (x : BitVec (8 + 8)) : (x >>> 8).setWidth 8 ++ x.setWidth 8 = x := by
    ext i inside
    rw [BitVec.getElem_append, ← BitVec.getLsbD_eq_getElem inside]
    by_cases low : i < 8
    · simp [low]
    · simp [low, show 8 + (i - 8) = i by omega]
  constructor
  · rintro ⟨rfl, rfl, -⟩
    exact (halves crc).symm
  · rintro rfl
    have high : ((a ++ b) >>> 8).setWidth 8 = a := by
      ext i inside
      rw [BitVec.getElem_setWidth, BitVec.getLsbD_ushiftRight, BitVec.getLsbD_append]
      simp [inside]
    have low : (a ++ b).setWidth 8 = b := by
      ext i inside
      rw [BitVec.getElem_setWidth, BitVec.getLsbD_append]
      simp [inside]
    exact ⟨high.symm, low.symm, rfl⟩

/-- Two bytes after a message leave no residue exactly when they are its checksum, the high byte
first. -/
theorem crc16Calculate_eq_zero_iff {a b : BitVec 8} {data : Bytes} :
    crc16Calculate (data ++ [a, b]) = 0 ↔ [a, b] = crcTrailer data := by
  have bits : [a, b].flatMap Crc.highFirst = (List.range 16).map (a ++ b).getMsbD :=
    Crc.highFirst_append a b
  rw [crcTrailer_eq_iff, crc16Calculate_eq, Crc.up_append, ← crc16Calculate_eq, Crc.up, bits]
  exact Crc.foldl_upward_eq_zero_iff rfl

/-- A packet is accepted exactly when its trailer is the checksum of its data, its number is the one
that comes next, and the number's complement is right. -/
theorem validatePacket_iff (r : Receiver) (m : Bytes) (t₀ t₁ : BitVec 8) :
    (crc16Calculate (m ++ [t₀, t₁]) = 0 ↔ [t₀, t₁] = crcTrailer m) ∧
      (r.validatePacket = true ↔
        firstBytes (fun i => r.packet.buffer (r.packet.length + i)) 2 =
            crcTrailer (firstBytes r.packet.buffer r.packet.length) ∧
          r.packet.blkNum = r.packet.blkNumOnesComplement ^^^ 0xFF ∧
          r.packet.blkNum = r.expectedBlkNum) := by
  refine ⟨crc16Calculate_eq_zero_iff, ?_⟩
  have trailer : firstBytes (fun i => r.packet.buffer (r.packet.length + i)) 2 =
      [r.packet.buffer r.packet.length, r.packet.buffer (r.packet.length + 1)] := rfl
  rw [Receiver.validatePacket, firstBytes_add, trailer, ← crc16Calculate_eq_zero_iff]
  split
  · next residue => exact iff_of_false Bool.false_ne_true fun accepted => residue accepted.1
  · next clear =>
    split
    · next wrong => exact iff_of_false Bool.false_ne_true fun accepted => wrong accepted.2.1
    · next right =>
      split
      · next other => exact iff_of_false Bool.false_ne_true fun accepted => other accepted.2.2
      · next next => exact iff_of_true rfl ⟨not_not.mp clear, not_not.mp right, not_not.mp next⟩

end Hss
