import Hss.Ymodem.Turns

/-! The frames of a sender, and what the reader makes of them. -/

namespace Hss

/-! ### The checksum of a frame -/

theorem crc16Shift_short (byte : BitVec 8) :
    crc16Shift^[8] (byte.setWidth 16) = byte.setWidth 16 <<< 8 := by
  revert byte
  decide +kernel

/-- The two bytes that follow the data of a frame. -/
def crcTrailer (data : Bytes) : Bytes :=
  [(crc16Calculate data >>> 8).setWidth 8, (crc16Calculate data).setWidth 8]

theorem crc16Calculate_trailer (data : Bytes) : crc16Calculate (data ++ crcTrailer data) = 0 := by
  have high : ∀ crc : BitVec 16,
      crc ^^^ ((crc >>> 8).setWidth 8).setWidth 16 <<< 8 = (crc.setWidth 8).setWidth 16 := by
    intro crc
    ext i inside
    simp
    grind
  have low : ∀ byte : BitVec 8,
      byte.setWidth 16 <<< 8 ^^^ byte.setWidth 16 <<< 8 = (0 : BitVec 8).setWidth 16 := by
    intro byte
    rw [BitVec.xor_self]
    rfl
  unfold crcTrailer
  rw [crc16Calculate, List.foldl_append, ← crc16Calculate]
  simp only [List.foldl_cons, List.foldl_nil, crc16UpdateByte]
  rw [high, crc16Shift_short, low, crc16Shift_short]
  rfl

/-! ### Frames -/

/-- The data of a packet, in either of the two sizes. -/
structure Block where
  data : Bytes
  length : data.length = 128 ∨ data.length = 1024

theorem Block.data_ne_nil (block : Block) : block.data ≠ [] := fun empty => by
  have := block.length
  rw [empty] at this
  simp at this

/-- The first byte of the frame of a block. -/
def Block.startByte (block : Block) : BitVec 8 :=
  if block.data.length = 128 then xymodemSoh else xymodemStx

/-- The rest of the frame of a block with the number `blkNum`. -/
def Block.body (block : Block) (blkNum : BitVec 8) : Bytes :=
  blkNum :: (blkNum ^^^ 0xFF) :: (block.data ++ crcTrailer block.data)

/-- The bytes that the reader takes for what it reads: a timeout is the byte -1. -/
def readBytes (chars : List (Option (BitVec 8))) : Bytes := chars.map (·.getD 0xFF)

/-- The rest of a frame is spoilt so that it shows: in the number's complement or in the checksum. -/
def Corrupt (body : List (Option (BitVec 8))) : Prop :=
  crc16Calculate ((readBytes body).drop 2) ≠ 0 ∨
    (readBytes body)[0]? ≠ (readBytes body)[1]?.map (· ^^^ 0xFF)

instance (body : List (Option (BitVec 8))) : Decidable (Corrupt body) :=
  inferInstanceAs (Decidable (_ ∨ _))

namespace Receiver

variable {r : Receiver} {rest : Line}

theorem getBytes_line {chunk : List (Option (BitVec 8))} (line : r.line = chunk ++ₛ rest) :
    r.getBytes chunk.length = (readBytes chunk, { r with line := rest }) := by
  induction chunk generalizing r with
  | nil =>
    cases r
    cases line
    rfl
  | cons char chunk ih =>
    have head : r.getByte = (char.getD 0xFF, { r with line := chunk ++ₛ rest }) := by
      unfold getByte getchar
      rw [line]
      rfl
    rw [List.length_cons, getBytes, head]
    dsimp only
    rw [ih (r := { r with line := chunk ++ₛ rest }) rfl]
    rfl

theorem extractPacket_line {number complement : Option (BitVec 8)}
    {chunk : List (Option (BitVec 8))}
    (line : r.line = (number :: complement :: chunk) ++ₛ rest)
    (size : chunk.length = r.packet.length + 2) :
    r.extractPacket = { r with
      packet := { r.packet with
        blkNum := number.getD 0xFF
        blkNumOnesComplement := complement.getD 0xFF
        buffer := writeBuffer r.packet.buffer 0 (readBytes chunk) }
      numReceivedPackets := r.numReceivedPackets + 1
      line := rest } := by
  have first : r.getByte = (number.getD 0xFF, { r with line := (complement :: chunk) ++ₛ rest }) := by
    unfold getByte getchar
    rw [line]
    rfl
  unfold extractPacket
  rw [first]
  dsimp only
  have second : ({ r with line := (complement :: chunk) ++ₛ rest } : Receiver).getByte =
      (complement.getD 0xFF, { r with line := chunk ++ₛ rest }) := rfl
  rw [second]
  dsimp only
  rw [← size, getBytes_line rfl]

/-- Bytes that are no start byte use up attempts, and leave the transfer as it is. -/
theorem synchronize_quiet {before : List (Option (BitVec 8))} (attempts canRxCount : ℕ)
    (quiet : ∀ char ∈ before, startSignal char = .other) (line : r.line = before ++ₛ rest) :
    ∃ canRxCount' r', r.synchronize (before.length + attempts) canRxCount =
        synchronize attempts canRxCount' r' ∧
      SameTransfer r r' ∧ r'.packet.buffer = r.packet.buffer ∧ r'.line = rest := by
  induction before generalizing r canRxCount with
  | nil => exact ⟨canRxCount, r, by rw [List.length_nil, Nat.zero_add], .refl, rfl, line⟩
  | cons char before ih =>
    have head : r.getchar = (char, { r with line := before ++ₛ rest }) := by
      unfold getchar
      rw [line]
      rfl
    have other := quiet char (List.mem_cons_self ..)
    let q := ({ r with line := before ++ₛ rest } : Receiver).setStartByte (char.getD 0)
    have line' : q.sendReadyChar.line = before ++ₛ rest := sendReadyChar_line
    obtain ⟨canRxCount', r', synced, same, buffer, left⟩ :=
      @ih q.sendReadyChar 0 (fun c present => quiet c (List.mem_cons_of_mem _ present)) line'
    refine ⟨canRxCount', r', ?_, ?_, ?_, left⟩
    · rw [List.length_cons, Nat.add_right_comm, synchronize, head]
      dsimp only
      rw [other]
      exact synced
    · have asked : SameTransfer q q.sendReadyChar := sendReadyChar_same
      exact After.same ⟨asked.state, asked.buffer, asked.retries⟩ same
    · rw [buffer, sendReadyChar_packet]
      rfl

/-- The packet that the reader extracted is the one on the line. -/
structure FrameRead (r : Receiver) (body : List (Option (BitVec 8))) (rest : Line) (q : Receiver) :
    Prop where
  after : After r { r.toXYModemState with numReceivedPackets := r.numReceivedPackets + 1 } q
  line : q.line = rest
  length : body.length = q.packet.length + 4
  contents : firstBytes q.packet.buffer (q.packet.length + 2) = (readBytes body).drop 2
  blkNum : (readBytes body)[0]? = some q.packet.blkNum
  complement : (readBytes body)[1]? = some q.packet.blkNumOnesComplement

/-- The start byte of a block is followed by the extraction of a packet of its size. -/
theorem synchronize_start {block : Block} {chars : List (Option (BitVec 8))} (attempts canRxCount : ℕ)
    (line : r.line = (some block.startByte :: chars) ++ₛ rest) :
    ∃ q, r.synchronize (attempts + 1) canRxCount = (true, q) ∧ SameTransfer r q ∧
      q.packet.buffer = r.packet.buffer ∧ q.packet.length = block.data.length ∧
      q.line = chars ++ₛ rest := by
  have head : r.getchar = (some block.startByte, { r with line := chars ++ₛ rest }) := by
    unfold getchar
    rw [line]
    rfl
  rw [synchronize, head]
  dsimp only
  unfold Block.startByte
  by_cases short : block.data.length = 128
  · rw [if_pos short, short]
    exact ⟨_, rfl, ⟨rfl, rfl, rfl⟩, rfl, rfl, rfl⟩
  · rw [if_neg short, block.length.resolve_left short]
    exact ⟨_, rfl, ⟨rfl, rfl, rfl⟩, rfl, rfl, rfl⟩

theorem synchronize_eot (attempts canRxCount : ℕ) (line : r.line = [some xymodemEot] ++ₛ rest) :
    ∃ q, r.synchronize (attempts + 1) canRxCount = (true, q) ∧
      After r { r.toXYModemState with eotReceived := true } q := by
  have head : r.getchar = (some xymodemEot, { r with line := rest }) := by
    unfold getchar
    rw [line]
    rfl
  rw [synchronize, head]
  exact ⟨_, rfl, rfl, rfl, rfl⟩

theorem readPacket_frame (notDone : r.done = false) (going : r.eotReceived = false)
    {before body : List (Option (BitVec 8))} {block : Block}
    (quiet : ∀ char ∈ before, startSignal char = .other) (few : before.length < 20)
    (size : body.length = block.data.length + 4)
    (line : r.line = (before ++ some block.startByte :: body) ++ₛ rest) :
    ∃ q, FrameRead r body rest q ∧ q.packet.length = block.data.length ∧
      r.readPacket = if q.validatePacket then
        (true, { q with
          lastReceivedBlkNum := q.packet.blkNum
          expectedBlkNum := q.expectedBlkNum + 1 })
      else (false, q) := by
  obtain ⟨inSync, open', notAborted⟩ := done_eq_false.mp notDone
  rw [Stream'.append_append_stream] at line
  obtain ⟨canRxCount, r', quieted, same, -, left⟩ :=
    synchronize_quiet (19 - before.length + 1) 0 quiet line
  obtain ⟨s, synced, started, -, length, left⟩ := synchronize_start (19 - before.length) canRxCount left
  rw [show before.length + (19 - before.length + 1) = 20 by omega, synced] at quieted
  have start := same.same started
  obtain ⟨number, complement, chunk, rfl⟩ :
      ∃ number complement chunk, body = number :: complement :: chunk := by
    match body, size with
    | number :: complement :: chunk, _ => exact ⟨number, complement, chunk, rfl⟩
  have chunkSize : chunk.length = s.packet.length + 2 := by
    rw [length]
    simpa using size
  have extracted := extractPacket_line left chunkSize
  have after := start.trans (extractPacket_after (r := s))
  rw [start.state] at after
  have flag : s.endOfSession = false := (congrArg XYModemState.endOfSession start.state).trans open'
  have eot : s.extractPacket.eotReceived = false :=
    (congrArg XYModemState.eotReceived after.state).trans going
  refine ⟨s.extractPacket, ⟨after, ?_, ?_, ?_, ?_, ?_⟩, extractPacket_length.trans length, ?_⟩
  · rw [extracted]
  · rw [extractPacket_length, length]
    exact size
  · have written := firstBytes_writeBuffer s.packet.buffer 0 (readBytes chunk)
    rw [Nat.zero_add, show (readBytes chunk).length = s.packet.length + 2 from
      (List.length_map _).trans chunkSize] at written
    rw [extractPacket_length, extracted]
    exact written
  · rw [extracted]
    rfl
  · rw [extracted]
    rfl
  · unfold readPacket
    rw [if_neg (by simp [notDone]), quieted]
    dsimp only
    rw [if_neg (by simp [flag]), if_pos rfl,
      if_neg (by simp [after.done, inSync, open', notAborted]), if_neg (by simp [eot])]

/-- The end of a session is read. -/
theorem readPacket_eot (notDone : r.done = false) {before : List (Option (BitVec 8))}
    (quiet : ∀ char ∈ before, startSignal char = .other) (few : before.length < 20)
    (line : r.line = (before ++ [some xymodemEot]) ++ₛ rest) :
    r.readPacket.1 = true ∧ r.readPacket.2.eotReceived = true ∧ r.readPacket.2.abort = false := by
  obtain ⟨inSync, open', notAborted⟩ := done_eq_false.mp notDone
  rw [Stream'.append_append_stream] at line
  obtain ⟨canRxCount, r', quieted, same, -, left⟩ :=
    synchronize_quiet (19 - before.length + 1) 0 quiet line
  rw [show before.length + (19 - before.length + 1) = 20 by omega] at quieted
  obtain ⟨q, ended, reached⟩ :=
    synchronize_eot (19 - before.length) canRxCount left
  rw [ended] at quieted
  rw [same.state] at reached
  replace reached := same.trans reached
  have after := reached.trans (extractPacket_after (r := q))
  rw [reached.state] at after
  obtain ⟨-, abort, eot, -⟩ := after.flags
  have flag : q.endOfSession = false :=
    (congrArg XYModemState.endOfSession reached.state).trans open'
  unfold readPacket
  rw [if_neg (by simp [notDone]), quieted]
  dsimp only
  rw [if_neg (by simp [flag]), if_pos rfl,
    if_neg (by simp [after.done, inSync, open', notAborted]), if_pos eot]
  exact ⟨rfl, eot, abort.trans notAborted⟩

/-- Twenty bytes that are no start byte are one too many. -/
theorem readPacket_lost (notDone : r.done = false) {before : List (Option (BitVec 8))}
    (quiet : ∀ char ∈ before, startSignal char = .other) (many : 20 ≤ before.length)
    (line : r.line = before ++ₛ rest) :
    r.readPacket.1 = false ∧ r.readPacket.2.syncFail = true := by
  obtain ⟨-, open', notAborted⟩ := done_eq_false.mp notDone
  rw [← List.take_append_drop 20 before, Stream'.append_append_stream] at line
  have quiet' : ∀ char ∈ before.take 20, startSignal char = .other :=
    fun char present => quiet char (List.mem_of_mem_take present)
  obtain ⟨canRxCount, r', lost, same, -⟩ :=
    synchronize_quiet 0 0 quiet' line
  rw [List.length_take_of_le many, Nat.add_zero, synchronize] at lost
  have flag : r'.endOfSession = false :=
    (congrArg XYModemState.endOfSession same.state).trans open'
  unfold readPacket
  rw [if_neg (by simp [notDone]), lost]
  dsimp only
  rw [if_neg (by simp [flag]), if_neg (by decide)]
  exact ⟨(congrArg XYModemState.abort same.state).trans notAborted, rfl⟩

end Receiver

end Hss
