import Hss.Telemetry.Serializers

/-! The end of a packet: its length, its checksum, and the check of that. -/

namespace Hss

/-! ### The check of the checksum -/

/-- The 16-bit variable that these bytes are in memory, which is little endian. -/
def hostWord (data : List (BitVec 8)) : BitVec 16 := data.getD 1 0 ++ data.getD 0 0

/-- `PUS_IsCrcValid`: `*foundCrc` after it, and what it returns. -/
def pusIsCrcValid (target : ℕ → BitVec 8) (packetNb expectedCrc : BitVec 16) : BitVec 16 × Bool :=
  let foundCrc := hostWord (lendHost2Network
    [target (packetNb.toNat - 2), target (packetNb.toNat - 2 + 1)])
  (foundCrc, foundCrc = expectedCrc)

/-- The checksum of the first `n` bytes. -/
def crcOf (target : ℕ → BitVec 8) (n : ℕ) : BitVec 16 :=
  crcCcsdsCrc16Get pusDefaultCrcSeed pusDefaultCrcOffset ((List.range n).map target)

/-- The high and the low byte of a word, in the order in which they are sent. -/
def networkBytes (x : BitVec 16) : List (BitVec 8) :=
  [((x &&& 0xFF00) >>> 8).setWidth 8, (x &&& 0xFF).setWidth 8]

theorem lendHost2Network_hostBytes (x : BitVec 16) :
    lendHost2Network (hostBytes x) = networkBytes x := by
  have high : (x >>> 8).setWidth 8 = ((x &&& 0xFF00) >>> 8).setWidth 8 := by
    apply BitVec.eq_of_getLsbD_eq
    intro i less
    simp only [BitVec.getLsbD_setWidth, BitVec.getLsbD_ushiftRight, BitVec.getLsbD_and, less,
      decide_true, Bool.true_and]
    have mask : (0xFF00 : BitVec 16).getLsbD (8 + i) = true := by
      revert i
      decide
    rw [mask, Bool.and_true]
  have low : x.setWidth 8 = (x &&& 0xFF).setWidth 8 := by
    apply BitVec.eq_of_getLsbD_eq
    intro i less
    simp only [BitVec.getLsbD_setWidth, BitVec.getLsbD_and, less, decide_true, Bool.true_and]
    have mask : (0xFF : BitVec 16).getLsbD i = true := by
      revert i
      decide
    rw [mask, Bool.and_true]
  rw [networkBytes, ← high, ← low]
  rfl

theorem hostWord_networkBytes (x : BitVec 16) : hostWord (lendHost2Network (networkBytes x)) = x := by
  rw [← lendHost2Network_hostBytes]
  apply BitVec.eq_of_getLsbD_eq
  intro i less
  have bytes : hostWord (lendHost2Network (lendHost2Network (hostBytes x))) =
      (x >>> 8).setWidth 8 ++ x.setWidth 8 := rfl
  rw [bytes, BitVec.getLsbD_append]
  by_cases low : i < 8
  · simp [low]
  · have shifted : 8 + (i - 8) = i := by omega
    have high : i - 8 < 8 := by omega
    simp [low, high, shifted]

/-! ### A finalised packet -/

/-- The buffer with this length in the header. -/
def withLength (target : ℕ → BitVec 8) (dataLength : BitVec 16) : ℕ → BitVec 8 :=
  Function.update (Function.update target 4 (((dataLength &&& 0xFF00) >>> 8).setWidth 8)) 5
    ((dataLength &&& 0xFF).setWidth 8)

theorem withLength_field (target : ℕ → BitVec 8) (dataLength : BitVec 16) :
    withLength target dataLength 4 ++ withLength target dataLength 5 = dataLength := by
  have bytes : withLength target dataLength 4 ++ withLength target dataLength 5 =
      hostWord (lendHost2Network (networkBytes dataLength)) := rfl
  rw [bytes, hostWord_networkBytes]

theorem withLength_again (target : ℕ → BitVec 8) (dataLength : BitVec 16) :
    withLength (withLength target dataLength) dataLength = withLength target dataLength := by
  funext i
  simp only [withLength, Function.update_apply]
  split
  · rfl
  · split <;> rfl

theorem withLength_copyBytes {target : ℕ → BitVec 8} {dataLength : BitVec 16} {offset : ℕ}
    {data : List (BitVec 8)} (behind : 6 ≤ offset) :
    withLength (copyBytes target offset data) dataLength =
      copyBytes (withLength target dataLength) offset data := by
  funext i
  by_cases head : i < 6
  · have before : i < offset := by omega
    rw [copyBytes_outside (.inl before)]
    simp only [withLength, Function.update_apply]
    rw [copyBytes_outside (.inl before)]
  · have fourth : i ≠ 4 := by omega
    have fifth : i ≠ 5 := by omega
    simp only [withLength, Function.update_apply, fourth, fifth, if_false, copyBytes]

theorem copyBytes_again (target : ℕ → BitVec 8) (offset : ℕ) (data : List (BitVec 8)) :
    copyBytes (copyBytes target offset data) offset data = copyBytes target offset data := by
  funext i
  by_cases inside : offset ≤ i ∧ i < offset + data.length
  · obtain ⟨k, rfl⟩ : ∃ k, i = offset + k := ⟨i - offset, by omega⟩
    rw [copyBytes_inside (by omega), copyBytes_inside (by omega)]
  · rw [copyBytes_outside (by omega)]

theorem crcOf_copyBytes (target : ℕ → BitVec 8) (offset : ℕ) (data : List (BitVec 8)) :
    crcOf (copyBytes target offset data) offset = crcOf target offset := by
  refine congrArg _ (List.map_congr_left fun i mem => ?_)
  exact copyBytes_outside (.inl (List.mem_range.mp mem))

variable {buf : PacketBuffer}

/-- The length goes to the header, and then the checksum to the end. -/
theorem pusFinalizePacket_eq (head : 6 ≤ buf.totalDataSize.toNat)
    (room : buf.totalDataSize.toNat + 2 < 2 ^ 16) :
    (pusFinalizePacket buf).totalDataSize.toNat = buf.totalDataSize.toNat + 2 ∧
      (pusFinalizePacket buf).target =
        let target := withLength buf.target (BitVec.ofNat 16 (buf.totalDataSize.toNat - 5))
        copyBytes target buf.totalDataSize.toNat
          (networkBytes (crcOf target buf.totalDataSize.toNat)) := by
  have total : (buf.totalDataSize + BitVec.ofNat 16 sizeOfPusCrc).toNat =
      buf.totalDataSize.toNat + 2 := by
    rw [BitVec.toNat_add]
    exact Nat.mod_eq_of_lt room
  have length : buf.totalDataSize + BitVec.ofNat 16 sizeOfPusCrc - 1 -
      BitVec.ofNat 16 sizeOfCcsdsPrimaryHeader = BitVec.ofNat 16 (buf.totalDataSize.toNat - 5) := by
    apply BitVec.eq_of_toNat_eq
    have one : (1 : BitVec 16).toNat = 1 := rfl
    simp only [BitVec.toNat_sub, total, BitVec.toNat_ofNat, sizeOfCcsdsPrimaryHeader, one]
    omega
  have before : buf.totalDataSize.toNat + 2 - sizeOfPusCrc = buf.totalDataSize.toNat := rfl
  refine ⟨total, ?_⟩
  rw [pusFinalizePacket, length]
  dsimp only
  rw [total, before, lendHost2Network_hostBytes]
  rfl

/-- What a finalised packet of `n` bytes is like. -/
structure Finalized (packet : PacketBuffer) (n : ℕ) : Prop where
  size : packet.totalDataSize.toNat = n
  dataLength : (packet.target 4 ++ packet.target 5 : BitVec 16).toNat = n - 7
  crc : [packet.target (n - 2), packet.target (n - 1)] = networkBytes (crcOf packet.target (n - 2))
  valid : pusIsCrcValid packet.target packet.totalDataSize (crcOf packet.target (n - 2)) =
    (crcOf packet.target (n - 2), true)

theorem pusFinalizePacket_finalized (head : 6 ≤ buf.totalDataSize.toNat)
    (room : buf.totalDataSize.toNat + 2 < 2 ^ 16) :
    Finalized (pusFinalizePacket buf) (buf.totalDataSize.toNat + 2) := by
  obtain ⟨size, target⟩ := pusFinalizePacket_eq head room
  dsimp only at target
  generalize aside : withLength buf.target (BitVec.ofNat 16 (buf.totalDataSize.toNat - 5)) = before
    at target
  have length (x : BitVec 16) : (networkBytes x).length = 2 := rfl
  have checksum : crcOf (pusFinalizePacket buf).target buf.totalDataSize.toNat =
      crcOf before buf.totalDataSize.toNat := by rw [target, crcOf_copyBytes]
  have crc : [(pusFinalizePacket buf).target buf.totalDataSize.toNat,
      (pusFinalizePacket buf).target (buf.totalDataSize.toNat + 1)] =
        networkBytes (crcOf (pusFinalizePacket buf).target buf.totalDataSize.toNat) := by
    have high := @copyBytes_inside before buf.totalDataSize.toNat 0
      (networkBytes (crcOf before buf.totalDataSize.toNat)) (by rw [length]; omega)
    have low := @copyBytes_inside before buf.totalDataSize.toNat 1
      (networkBytes (crcOf before buf.totalDataSize.toNat)) (by rw [length]; omega)
    rw [Nat.add_zero] at high
    rw [checksum, target, high, low]
    rfl
  refine ⟨size, ?_, crc, ?_⟩
  · have field : (pusFinalizePacket buf).target 4 ++ (pusFinalizePacket buf).target 5 =
        BitVec.ofNat 16 (buf.totalDataSize.toNat - 5) := by
      rw [target, copyBytes_outside (.inl (by omega)), copyBytes_outside (.inl (by omega)), ← aside,
        withLength_field]
    rw [field, BitVec.toNat_ofNat]
    omega
  · have found : (pusFinalizePacket buf).totalDataSize.toNat - 2 = buf.totalDataSize.toNat := by omega
    have tail : buf.totalDataSize.toNat + 2 - 2 = buf.totalDataSize.toNat := rfl
    rw [pusIsCrcValid, found, crc, hostWord_networkBytes, tail, decide_eq_true rfl]

/-- A packet that is finalised once more, from its size before, is the same. -/
theorem pusFinalizePacket_again (head : 6 ≤ buf.totalDataSize.toNat)
    (room : buf.totalDataSize.toNat + 2 < 2 ^ 16) :
    pusFinalizePacket ⟨(pusFinalizePacket buf).target, buf.totalDataSize⟩ =
      pusFinalizePacket buf := by
  obtain ⟨-, target⟩ := pusFinalizePacket_eq head room
  obtain ⟨-, target'⟩ := @pusFinalizePacket_eq
    ⟨(pusFinalizePacket buf).target, buf.totalDataSize⟩ head room
  have same : (pusFinalizePacket ⟨(pusFinalizePacket buf).target, buf.totalDataSize⟩).target =
      (pusFinalizePacket buf).target := by
    dsimp only at target target'
    rw [target', target, withLength_copyBytes head, withLength_again, crcOf_copyBytes,
      copyBytes_again]
  have size : (pusFinalizePacket ⟨(pusFinalizePacket buf).target, buf.totalDataSize⟩).totalDataSize =
      (pusFinalizePacket buf).totalDataSize := rfl
  generalize pusFinalizePacket ⟨(pusFinalizePacket buf).target, buf.totalDataSize⟩ = again
    at same size ⊢
  obtain ⟨_, _⟩ := again
  generalize pusFinalizePacket buf = once at same size ⊢
  obtain ⟨_, _⟩ := once
  dsimp only at same size
  rw [same, size]

/-- A packet whose header is complete verifies when it is finalised, and stays as it is when it is
finalised once more from its size before. -/
theorem finalizedPacket_verifies (buf : PacketBuffer) (head : 6 ≤ buf.totalDataSize.toNat)
    (room : buf.totalDataSize.toNat + 2 < 2 ^ 16) :
    Finalized (pusFinalizePacket buf) (buf.totalDataSize.toNat + 2) ∧
      pusFinalizePacket ⟨(pusFinalizePacket buf).target, buf.totalDataSize⟩ =
        pusFinalizePacket buf :=
  ⟨pusFinalizePacket_finalized head room, pusFinalizePacket_again head room⟩

theorem finalizedPacket_verifies_header :
    Finalized (pusFinalizePacket ⟨fun _ => 0, 6⟩) 8 ∧
      pusFinalizePacket ⟨(pusFinalizePacket ⟨fun _ => 0, 6⟩).target, 6⟩ =
        pusFinalizePacket ⟨fun _ => 0, 6⟩ :=
  finalizedPacket_verifies ⟨fun _ => 0, 6⟩ (by decide) (by decide)

/-- Finalised again from where it ended, a packet has another length and a second checksum. -/
theorem finalizedAgain_longer : ¬ ∀ buf : PacketBuffer, 6 ≤ buf.totalDataSize.toNat →
    buf.totalDataSize.toNat + 2 < 2 ^ 16 →
      (pusFinalizePacket (pusFinalizePacket buf)).target 5 = (pusFinalizePacket buf).target 5 ∧
        (pusFinalizePacket (pusFinalizePacket buf)).written = (pusFinalizePacket buf).written := by
  intro same
  exact absurd (same ⟨fun _ => 0, 6⟩ (by decide) (by decide)).1 (by decide +kernel)

end Hss
