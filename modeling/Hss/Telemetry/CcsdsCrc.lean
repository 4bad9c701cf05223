import Hss.Lib.Crc
import Hss.Telemetry.Packet

/-! The checksum of the telemetry packets, whose table holds the steps of eight bits. -/

namespace Hss

theorem ccsdsCrcTable_eq (i : BitVec 8) : ccsdsCrcTable.getD i.toNat 0 =
    (Crc.upward.step 0x1021)^[8] (i.setWidth 16 <<< 8) := by
  revert i
  decide +kernel

/-- One turn of the loop of `CRC_CcsdsCrc16Get`, with the bias 0. -/
theorem ccsdsCrc_byte (crc : BitVec 16) (byte : BitVec 8) :
    (Crc.highFirst byte).foldl (Crc.upward.feed 0x1021) crc =
      (ccsdsCrcTable.getD ((crc >>> 8 ^^^ byte.setWidth 16) &&& 0xFF).toNat 0 ^^^ (crc <<< 8)) +
        (0 : BitVec 8).setWidth 16 := by
  have index : ((crc >>> 8 ^^^ byte.setWidth 16) &&& 0xFF).toNat =
      ((crc >>> 8).setWidth 8 ^^^ byte).toNat := by
    have ones : (BitVec.allOnes 8).setWidth (8 + 8) = (0xFF : BitVec 16) := by decide
    rw [← ones]
    refine (Crc.toNat_and_byte (v := 8) (crc >>> 8 ^^^ byte.setWidth 16)).trans ?_
    rw [BitVec.setWidth_xor, BitVec.setWidth_setWidth_of_le byte (by decide), BitVec.setWidth_eq]
  rw [Crc.foldl_highFirst (by decide), Crc.upward_table (by decide), index, ccsdsCrcTable_eq,
    BitVec.xor_comm]
  exact (BitVec.add_zero _).symm

/-- Without bias the checksum is the check bit by bit with the polynomial 1021h, and a checksum is the
seed of what follows. -/
theorem crcCcsdsCrc16Get_eq (seed : BitVec 16) (buf rest : List (BitVec 8)) :
    crcCcsdsCrc16Get seed 0 buf = Crc.up 0x1021 seed buf ∧
      crcCcsdsCrc16Get seed 0 (buf ++ rest) =
        crcCcsdsCrc16Get (crcCcsdsCrc16Get seed 0 buf) 0 rest := by
  constructor
  · rw [Crc.up, Crc.flatMap_foldl ccsdsCrc_byte]
    rfl
  · rw [crcCcsdsCrc16Get, List.foldl_append]
    rfl

end Hss
