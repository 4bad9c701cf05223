import Hss.Ymodem.Turns

/-! The arrays of the YMODEM receiver: a receiver that checks every index computes the same, and the
file stays inside of the caller's buffer. -/

namespace Hss

/-! ### A receiver that checks its indexes -/

/-- A write of `data` from `offset` on to an array of `size` bytes. -/
def writeChecked (size : ℕ) (buffer : ℕ → BitVec 8) (offset : ℕ) (data : Bytes) :
    Option (ℕ → BitVec 8) :=
  if ∀ i < data.length, offset + i < size then some (writeBuffer buffer offset data) else none

/-- A read of the first `n` bytes of an array of `size` bytes. -/
def readChecked (size : ℕ) (buffer : ℕ → BitVec 8) (n : ℕ) : Option Bytes :=
  if ∀ i < n, i < size then some (firstBytes buffer n) else none

namespace Receiver

variable (r : Receiver)

def extractPacketChecked : Option Receiver := do
  let (blkNum, r) := r.getByte
  let (blkNumOnesComplement, r) := r.getByte
  let r := { r with
    packet := { r.packet with blkNum, blkNumOnesComplement }
    numReceivedPackets := r.numReceivedPackets + 1 }
  let (bytes, r) := getBytes (r.packet.length + 2) r
  let buffer ← writeChecked packetBufferSize r.packet.buffer 0 bytes
  return { r with packet := { r.packet with buffer } }

def validatePacketChecked : Option Bool := do
  let bytes ← readChecked packetBufferSize r.packet.buffer (r.packet.length + 2)
  return if crc16Calculate bytes ≠ 0 then false
    else if r.packet.blkNum ≠ r.packet.blkNumOnesComplement ^^^ 0xFF then false
    else if r.packet.blkNum ≠ r.expectedBlkNum then false
    else true

def readPacketChecked : Option (Bool × Receiver) :=
  if r.done then
    some (false, r)
  else
    let (synced, r) := synchronize 20 0 r
    if r.endOfSession then
      some (true, r)
    else if synced then do
      let r ← r.extractPacketChecked
      if r.done then
        return (true, r)
      else if r.eotReceived then
        return (true, r)
      else
        let valid ← r.validatePacketChecked
        return if valid then
            (true, { r with
              lastReceivedBlkNum := r.packet.blkNum
              expectedBlkNum := r.expectedBlkNum + 1 })
          else
            (false, r)
    else
      some (r.abort, { r.setLength 0 with syncFail := true })

def takeHeaderChecked : Option Receiver := do
  let filename ← readChecked packetBufferSize r.packet.buffer 63
  let header ← readChecked packetBufferSize r.packet.buffer packetBufferSize
  let r := { r with filename, expectedSize := getFileSize true 0 header }
  return if r.expectedSize.toNat > r.maxSize then
      { r with abort := true, totalReceivedSize := 0 }.sendCan
    else r

def takeDataChecked : Option Receiver :=
  if r.totalReceivedSize + r.packet.length < r.maxSize then do
    let data ← readChecked packetBufferSize r.packet.buffer r.packet.length
    let buffer ← writeChecked r.maxSize r.buffer r.totalReceivedSize data
    return { r with buffer, totalReceivedSize := r.totalReceivedSize + r.packet.length }
  else some { r with abort := true, totalReceivedSize := 0 }.sendCan

def takePacketChecked : Option Receiver :=
  let r := r.putchar xymodemAck
  if !r.done then
    if r.IsHeader then r.takeHeaderChecked
    else if r.eotReceived then some ({ r with endOfSession := true }.putchar xymodemAck)
    else r.takeDataChecked
  else if r.abort then
    some { r with totalReceivedSize := 0 }.sendCan
  else if r.endOfSession then
    some ((r.putchar xymodemAck).purge 10)
  else some r

def turnChecked : Option Receiver := do
  let (good, r) ← r.readPacketChecked
  if good then r.takePacketChecked else return r.refusePacket

def receiveLoopChecked : ℕ → Receiver → Option Receiver
  | 0, r => some r
  | turns + 1, r => if r.Waits then r.turnChecked.bind (receiveLoopChecked turns) else some r

end Receiver

/-- `XYMODEM_Receive`, with a check of every index. -/
def xymodemReceiveChecked (protocol : XYModemProtocol) (buffer : ℕ → BitVec 8) (bufferSize : Word)
    (line : Line) : Option (ℕ × Receiver) := do
  let r ← (startReceiver protocol buffer bufferSize line).receiveLoopChecked
    (bufferSize.toNat + 12)
  return (r.receivedSize, r.purge 10)

/-! ### The packet buffer -/

namespace Receiver

variable {r : Receiver}

theorem readChecked_of_le {size n : ℕ} (buffer : ℕ → BitVec 8) (within : n ≤ size) :
    readChecked size buffer n = some (firstBytes buffer n) :=
  if_pos fun _ inside => inside.trans_le within

theorem writeChecked_of_le {size offset : ℕ} (buffer : ℕ → BitVec 8) {data : Bytes}
    (within : offset + data.length ≤ size) :
    writeChecked size buffer offset data = some (writeBuffer buffer offset data) :=
  if_pos fun _ inside => (Nat.add_lt_add_left inside offset).trans_le within

theorem length_getBytes (n : ℕ) : (r.getBytes n).1.length = n := by
  induction n generalizing r with
  | zero => rfl
  | succ n ih => exact congrArg (· + 1) ih

/-- A receiver that is synchronized has one of the lengths of a packet. -/
theorem synchronize_length (attempts canRxCount : ℕ)
    (synced : (r.synchronize attempts canRxCount).1 = true) :
    (r.synchronize attempts canRxCount).2.packet.length ≤ 1024 := by
  induction attempts generalizing r canRxCount with
  | zero => cases synced
  | succ attempts ih =>
    unfold synchronize at synced ⊢
    dsimp only at synced ⊢
    cases signal : startSignal r.getchar.1 with
    | soh => exact (by decide : 128 ≤ 1024)
    | stx => exact Nat.le_refl 1024
    | eot => exact Nat.zero_le 1024
    | etx =>
      rw [signal] at synced
      cases synced
    | can =>
      rw [signal] at synced
      dsimp only at synced ⊢
      split at synced
      · cases synced
      · rw [if_neg ‹_›]
        exact ih _ synced
    | other =>
      rw [signal] at synced
      exact ih _ synced

theorem extractPacketChecked_eq (length : r.packet.length ≤ 1024) :
    r.extractPacketChecked = some r.extractPacket := by
  have within : r.packet.length + 2 ≤ packetBufferSize := Nat.add_le_add_right length 2
  unfold extractPacketChecked extractPacket
  dsimp only
  rw [writeChecked_of_le _ (by rw [length_getBytes, Nat.zero_add]; exact within)]
  rfl

theorem validatePacketChecked_eq (length : r.packet.length ≤ 1024) :
    r.validatePacketChecked = some r.validatePacket := by
  have within : r.packet.length + 2 ≤ packetBufferSize := Nat.add_le_add_right length 2
  unfold validatePacketChecked
  rw [readChecked_of_le _ within]
  rfl

theorem readPacketChecked_eq : r.readPacketChecked = some r.readPacket := by
  unfold readPacketChecked readPacket
  split
  · rfl
  have known := synchronize_length (r := r) 20 0
  revert known
  generalize r.synchronize 20 0 = result
  obtain ⟨synced, q⟩ := result
  intro known
  dsimp only at known ⊢
  split
  · rfl
  split
  · next sync =>
    have length := known sync
    rw [extractPacketChecked_eq length]
    have length' : q.extractPacket.packet.length ≤ 1024 := extractPacket_length.trans_le length
    generalize q.extractPacket = p at length'
    show (if p.done = true then _ else if p.eotReceived = true then _ else _) = _
    rw [validatePacketChecked_eq length']
    split
    · rfl
    split
    · rfl
    cases valid : p.validatePacket <;> rfl
  · rfl

/-- The packet that was read has one of the lengths of a packet. -/
theorem readPacket_length (notDone : r.done = false) : r.readPacket.2.packet.length ≤ 1024 := by
  have open' : ∀ attempts canRxCount, (r.synchronize attempts canRxCount).2.endOfSession = false := by
    intro attempts canRxCount
    have going := (done_eq_false.mp notDone).2.1
    have outcome := synchronize_cases (r := r) attempts canRxCount
    generalize r.synchronize attempts canRxCount = result at outcome ⊢
    obtain ⟨synced, q⟩ := result
    cases outcome with
    | packet after | eot after | aborted after | lost after => exact after.flags.1.trans going
  have known := synchronize_length (r := r) 20 0
  unfold readPacket
  rw [if_neg (by simp [notDone])]
  have still := open' 20 0
  revert known still
  generalize r.synchronize 20 0 = result
  obtain ⟨synced, q⟩ := result
  intro known still
  dsimp only at known still ⊢
  rw [if_neg (by simp [still])]
  split
  · next sync =>
    have length := extractPacket_length.trans_le (known sync)
    repeat' split
    all_goals exact length
  · exact Nat.zero_le _

/-! ### The caller's buffer -/

theorem takeHeaderChecked_eq : r.takeHeaderChecked = some r.takeHeader := by
  unfold takeHeaderChecked
  rw [readChecked_of_le _ (by decide), readChecked_of_le _ (Nat.le_refl _)]
  rfl

theorem takeDataChecked_eq (length : r.packet.length ≤ 1024) :
    r.takeDataChecked = some r.takeData := by
  unfold takeDataChecked takeData
  split
  · next fits =>
    have within : r.totalReceivedSize + (firstBytes r.packet.buffer r.packet.length).length ≤
        r.maxSize := by
      rw [show (firstBytes r.packet.buffer r.packet.length).length = r.packet.length by
        simp [firstBytes]]
      exact fits.le
    rw [readChecked_of_le _ (length.trans (by decide))]
    show (writeChecked _ _ _ _).bind _ = _
    rw [writeChecked_of_le _ within]
    rfl
  · rfl

theorem takePacketChecked_eq (length : r.packet.length ≤ 1024) :
    r.takePacketChecked = some r.takePacket := by
  have length' : (r.putchar xymodemAck).packet.length ≤ 1024 := length
  unfold takePacketChecked takePacket
  dsimp only
  rw [takeHeaderChecked_eq, takeDataChecked_eq length']
  repeat' split
  all_goals rfl

theorem turnChecked_eq (notDone : r.done = false) : r.turnChecked = some r.turn := by
  have length := readPacket_length notDone
  unfold turnChecked turn
  rw [readPacketChecked_eq]
  generalize r.readPacket = result at length ⊢
  obtain ⟨good, q⟩ := result
  cases good with
  | false => rfl
  | true => exact takePacketChecked_eq length

theorem receiveLoopChecked_eq (turns : ℕ) :
    r.receiveLoopChecked turns = some (r.receiveLoop turns) := by
  induction turns generalizing r with
  | zero => rfl
  | succ turns ih =>
    unfold receiveLoopChecked receiveLoop
    split
    · next waits =>
      rw [turnChecked_eq waits.1]
      exact ih
    · rfl

/-! ### What is stored -/

/-- The bytes received are no more than fit, and those past the end of the buffer are untouched. -/
structure Inside (buffer : ℕ → BitVec 8) (size : ℕ) (r : Receiver) : Prop where
  maxSize : r.maxSize = size
  total : r.totalReceivedSize ≤ size
  outside : ∀ i, size ≤ i → r.buffer i = buffer i

variable {buffer : ℕ → BitVec 8} {size : ℕ}

theorem takeHeader_inside (inside : Inside buffer size r) : Inside buffer size r.takeHeader := by
  unfold takeHeader
  dsimp only
  split
  · exact ⟨inside.maxSize, Nat.zero_le _, inside.outside⟩
  · exact ⟨inside.maxSize, inside.total, inside.outside⟩

theorem takeData_inside (inside : Inside buffer size r) : Inside buffer size r.takeData := by
  unfold takeData
  split
  · next fits =>
    rw [inside.maxSize] at fits
    refine ⟨inside.maxSize, fits.le, fun i past => ?_⟩
    have short : (firstBytes r.packet.buffer r.packet.length).length ≤ i - r.totalReceivedSize := by
      simp only [firstBytes, List.length_map, List.length_range]
      omega
    have start : r.totalReceivedSize ≤ i := inside.total.trans past
    show writeBuffer r.buffer r.totalReceivedSize _ i = _
    rw [writeBuffer, if_pos start, List.getElem?_eq_none short]
    exact inside.outside i past
  · exact ⟨inside.maxSize, Nat.zero_le _, inside.outside⟩

/-- Only the sizes and the buffer matter. -/
theorem Inside.after {state : XYModemState} {r' : Receiver} (inside : Inside buffer size r)
    (after : After r state r') (total : state.totalReceivedSize = r.totalReceivedSize)
    (max : state.maxSize = r.maxSize) : Inside buffer size r' := by
  obtain ⟨-, -, -, -, total', max'⟩ := after.flags
  refine ⟨(max'.trans max).trans inside.maxSize, (total'.trans total).trans_le inside.total,
    fun i past => ?_⟩
  rw [after.buffer]
  exact inside.outside i past

theorem readPacket_inside (notDone : r.done = false) (inside : Inside buffer size r) :
    Inside buffer size r.readPacket.2 := by
  have read := readPacket_cases notDone
  generalize r.readPacket = result at read ⊢
  obtain ⟨good, q⟩ := result
  cases read with
  | lost after | aborted after | ended after | bad _ after | valid _ after =>
    exact inside.after after rfl rfl

theorem refusePacket_inside (inside : Inside buffer size r) :
    Inside buffer size r.refusePacket := by
  have counted : Inside buffer size { r with retries := r.retries + 1 } :=
    ⟨inside.maxSize, inside.total, inside.outside⟩
  exact counted.after (refusePacket_after .refl) rfl rfl

theorem takePacket_inside (inside : Inside buffer size r) : Inside buffer size r.takePacket := by
  have acked : Inside buffer size (r.putchar xymodemAck) :=
    ⟨inside.maxSize, inside.total, inside.outside⟩
  unfold takePacket
  dsimp only
  split
  · split
    · exact takeHeader_inside acked
    · split
      · exact ⟨acked.maxSize, acked.total, acked.outside⟩
      · exact takeData_inside acked
  · split
    · exact ⟨acked.maxSize, Nat.zero_le _, acked.outside⟩
    · split
      · have again : Inside buffer size ((r.putchar xymodemAck).putchar xymodemAck) :=
          ⟨acked.maxSize, acked.total, acked.outside⟩
        exact again.after (purge_same 10) rfl rfl
      · exact acked

theorem turn_inside (notDone : r.done = false) (inside : Inside buffer size r) :
    Inside buffer size r.turn := by
  have read := readPacket_inside notDone inside
  unfold turn
  split
  · exact takePacket_inside read
  · exact refusePacket_inside read

theorem receiveLoop_inside (turns : ℕ) (inside : Inside buffer size r) :
    Inside buffer size (r.receiveLoop turns) := by
  induction turns generalizing r with
  | zero => exact inside
  | succ turns ih =>
    unfold receiveLoop
    split
    · next waits => exact ih (turn_inside waits.1 inside)
    · exact inside

end Receiver

open Receiver

variable {protocol : XYModemProtocol} {buffer : ℕ → BitVec 8} {bufferSize : Word} {line : Line}

theorem startReceiver_inside :
    Inside buffer bufferSize.toNat (startReceiver protocol buffer bufferSize line) := by
  cases protocol <;> exact ⟨rfl, Nat.zero_le _, fun _ _ => rfl⟩

/-- The receiver that checks every index does what the receiver does: it indexes the packet's buffer
below its size, and stores inside of the caller's buffer, whose rest is untouched.  Nor is more than
that received at any time.  The sum that is compared with the size does not overflow, since the
caller's buffer shares the memory with that of the packet. -/
theorem xymodemReceive_inBounds (protocol : XYModemProtocol) (buffer : ℕ → BitVec 8)
    (bufferSize : Word) (line : Line) :
    xymodemReceiveChecked protocol buffer bufferSize line =
        some (xymodemReceive protocol buffer bufferSize line) ∧
      (∀ i, bufferSize.toNat ≤ i →
        (xymodemReceive protocol buffer bufferSize line).2.buffer i = buffer i) ∧
      (∀ turns,
        ((startReceiver protocol buffer bufferSize line).receiveLoop turns).totalReceivedSize ≤
          bufferSize.toNat) ∧
      (bufferSize.toNat + packetBufferSize ≤ 2 ^ 64 → ∀ turns r,
        (startReceiver protocol buffer bufferSize line).receiveLoop turns = r → r.Waits →
          r.readPacket.2.totalReceivedSize + r.readPacket.2.packet.length < 2 ^ 64) := by
  have inside := fun turns => receiveLoop_inside turns
    (show Inside buffer bufferSize.toNat (startReceiver protocol buffer bufferSize line) from
      startReceiver_inside)
  refine ⟨?_, fun i past => ?_, fun turns => (inside turns).total, ?_⟩
  · unfold xymodemReceiveChecked
    rw [receiveLoopChecked_eq]
    rfl
  · have purged : Inside buffer bufferSize.toNat (xymodemReceive protocol buffer bufferSize line).2 :=
      (inside _).after (purge_same 10) rfl rfl
    exact purged.outside i past
  · rintro room turns _ rfl waits
    have total := (readPacket_inside waits.1 (inside turns)).total
    have length := readPacket_length waits.1
    rw [packetBufferSize] at room
    omega

end Hss
