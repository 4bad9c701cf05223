import Hss.Ymodem.Bounds
import Mathlib.Tactic.Ring

/-! The reads of the line that the YMODEM receiver makes: what they take from it, and that they are
bounded. -/

namespace Hss

namespace Receiver

/-! ### The reads -/

/-- The reads of `synchronize`. -/
def synchronizeReads : ℕ → ℕ → Receiver → ℕ
  | 0, _, _ => 0
  | attempts + 1, canRxCount, r =>
      let (rawStartByte, r) := r.getchar
      let r := r.setStartByte (rawStartByte.getD 0)
      1 + match startSignal rawStartByte with
        | .soh | .stx | .eot | .etx => 0
        | .can => if canRxCount + 1 = 2 then 0 else synchronizeReads attempts (canRxCount + 1) r
        | .other => synchronizeReads attempts 0 r.sendReadyChar

def purgeReads : ℕ → Receiver → ℕ
  | 0, _ => 0
  | n + 1, r =>
      1 + match r.getchar.1 with
        | none => 0
        | some _ => purgeReads n r.getchar.2

variable (r : Receiver)

/-- The number of the block, its complement, the data and the checksum. -/
def extractPacketReads : ℕ := 2 + (r.packet.length + 2)

def readPacketReads : ℕ :=
  if r.done then
    0
  else
    let (synced, q) := synchronize 20 0 r
    synchronizeReads 20 0 r +
      if q.endOfSession then 0 else if synced then q.extractPacketReads else 0

def takePacketReads : ℕ :=
  let r := r.putchar xymodemAck
  if !r.done then 0
  else if r.abort then 0
  else if r.endOfSession then purgeReads 10 (r.putchar xymodemAck)
  else 0

def refusePacketReads : ℕ :=
  let r := { r with retries := r.retries + 1 }
  if r.numReceivedPackets ≠ 0 then purgeReads 10 r else 0

def turnReads : ℕ :=
  r.readPacketReads +
    if r.readPacket.1 then r.readPacket.2.takePacketReads else r.readPacket.2.refusePacketReads

def receiveLoopReads : ℕ → Receiver → ℕ
  | 0, _ => 0
  | turns + 1, r => if r.Waits then r.turnReads + receiveLoopReads turns r.turn else 0

end Receiver

/-- The reads of `xymodemReceive`. -/
def xymodemReceiveReads (protocol : XYModemProtocol) (buffer : ℕ → BitVec 8) (bufferSize : Word)
    (line : Line) : ℕ :=
  let r := startReceiver protocol buffer bufferSize line
  r.receiveLoopReads (bufferSize.toNat + 12) +
    (r.receiveLoop (bufferSize.toNat + 12)).purgeReads 10

namespace Receiver

variable {r r' r'' : Receiver}

/-! ### What they take from the line -/

/-- From `r` to `r'` the next `n` items were taken from the line. -/
def Reads (r : Receiver) (n : ℕ) (r' : Receiver) : Prop := r'.line = r.line.drop n

theorem Reads.trans {n m : ℕ} (first : Reads r n r') (second : Reads r' m r'') :
    Reads r (n + m) r'' := by
  unfold Reads at first second ⊢
  rw [second, first, Stream'.drop_drop]

theorem reads_getchar : Reads r 1 r.getchar.2 := rfl

theorem reads_purge (n : ℕ) : Reads r (purgeReads n r) (r.purge n) := by
  induction n generalizing r with
  | zero => rfl
  | succ n ih =>
    unfold purgeReads purge
    cases r.getchar.1 with
    | none => exact reads_getchar
    | some byte => exact reads_getchar.trans ih

theorem reads_synchronize (attempts canRxCount : ℕ) :
    Reads r (synchronizeReads attempts canRxCount r) (r.synchronize attempts canRxCount).2 := by
  induction attempts generalizing r canRxCount with
  | zero => rfl
  | succ attempts ih =>
    have read : Reads r 1 (r.getchar.2.setStartByte (r.getchar.1.getD 0)) := rfl
    unfold synchronizeReads synchronize
    dsimp only
    cases startSignal r.getchar.1 with
    | soh | stx | eot | etx => exact read
    | can =>
      dsimp only
      split
      · exact read
      · exact read.trans (ih _)
    | other =>
      have asked : Reads r 1 (r.getchar.2.setStartByte (r.getchar.1.getD 0)).sendReadyChar :=
        sendReadyChar_line.trans read
      exact asked.trans (ih _)

theorem reads_getBytes (n : ℕ) : Reads r n (r.getBytes n).2 := by
  induction n generalizing r with
  | zero => rfl
  | succ n ih =>
    have first : Reads r 1 r.getByte.2 := rfl
    have all := first.trans ih
    rw [Nat.add_comm] at all
    exact all

theorem reads_extractPacket : Reads r r.extractPacketReads r.extractPacket := by
  have first : Reads r 2 { r.getByte.2.getByte.2 with
    packet := { r.packet with
      blkNum := r.getByte.1, blkNumOnesComplement := r.getByte.2.getByte.1 }
    numReceivedPackets := r.numReceivedPackets + 1 } := rfl
  exact first.trans (reads_getBytes (r.packet.length + 2))

theorem reads_readPacket : Reads r r.readPacketReads r.readPacket.2 := by
  have sync := reads_synchronize (r := r) 20 0
  unfold readPacketReads readPacket
  split
  · rfl
  revert sync
  generalize r.synchronize 20 0 = result
  obtain ⟨synced, q⟩ := result
  intro sync
  dsimp only at sync ⊢
  split
  · exact sync
  split
  · have extracted := sync.trans reads_extractPacket
    repeat' split
    all_goals exact extracted
  · exact sync

theorem takeHeader_line : r.takeHeader.line = r.line := by
  unfold takeHeader
  dsimp only
  split <;> rfl

theorem takeData_line : r.takeData.line = r.line := by
  unfold takeData
  split <;> rfl

theorem reads_takePacket : Reads r r.takePacketReads r.takePacket := by
  have acked : Reads r 0 (r.putchar xymodemAck) := rfl
  unfold takePacketReads takePacket
  dsimp only
  split
  · split
    · exact takeHeader_line.trans acked
    · split
      · exact acked
      · exact takeData_line.trans acked
  · split
    · exact acked
    · split
      · exact reads_purge (r := (r.putchar xymodemAck).putchar xymodemAck) 10
      · exact acked

theorem reads_refusePacket : Reads r r.refusePacketReads r.refusePacket := by
  unfold refusePacketReads refusePacket
  dsimp only
  split
  · exact reads_purge (r := { r with retries := r.retries + 1 }) 10
  · rfl

theorem reads_turn : Reads r r.turnReads r.turn := by
  unfold turnReads turn
  split
  · exact reads_readPacket.trans reads_takePacket
  · exact reads_readPacket.trans reads_refusePacket

theorem reads_receiveLoop (turns : ℕ) : Reads r (r.receiveLoopReads turns) (r.receiveLoop turns) := by
  induction turns generalizing r with
  | zero => rfl
  | succ turns ih =>
    unfold receiveLoopReads receiveLoop
    split
    · exact reads_turn.trans ih
    · rfl

/-! ### Their number -/

theorem purgeReads_le (n : ℕ) : purgeReads n r ≤ n := by
  induction n generalizing r with
  | zero => exact Nat.le_refl 0
  | succ n ih =>
    unfold purgeReads
    split
    · omega
    · have rest := ih (r := r.getchar.2)
      omega

theorem synchronizeReads_le (attempts canRxCount : ℕ) :
    synchronizeReads attempts canRxCount r ≤ attempts := by
  induction attempts generalizing r canRxCount with
  | zero => exact Nat.le_refl 0
  | succ attempts ih =>
    unfold synchronizeReads
    dsimp only
    rw [Nat.add_comm attempts]
    refine Nat.add_le_add_left ?_ 1
    cases startSignal r.getchar.1 with
    | soh | stx | eot | etx => exact Nat.zero_le _
    | can =>
      dsimp only
      split
      · exact Nat.zero_le _
      · exact ih _
    | other => exact ih _

/-- The most reads of one packet: attempts to synchronize, the number of the block and its complement,
the data and the checksum. -/
def packetReadsMax : ℕ := 20 + (2 + (1024 + 2))

theorem readPacketReads_le : r.readPacketReads ≤ packetReadsMax := by
  have sync := synchronizeReads_le (r := r) 20 0
  have known := synchronize_length (r := r) 20 0
  unfold readPacketReads packetReadsMax
  split
  · omega
  revert known
  generalize r.synchronize 20 0 = result
  obtain ⟨synced, q⟩ := result
  intro known
  dsimp only at known ⊢
  split
  · omega
  split
  · next synced =>
    have length := known synced
    unfold extractPacketReads
    omega
  · omega

theorem takePacketReads_le : r.takePacketReads ≤ 10 := by
  unfold takePacketReads
  dsimp only
  repeat' split
  all_goals first | exact purgeReads_le 10 | exact Nat.zero_le _

theorem refusePacketReads_le : r.refusePacketReads ≤ 10 := by
  unfold refusePacketReads
  dsimp only
  split
  · exact purgeReads_le 10
  · exact Nat.zero_le _

theorem turnReads_le : r.turnReads ≤ packetReadsMax + 10 := by
  unfold turnReads
  refine Nat.add_le_add readPacketReads_le ?_
  split
  · exact takePacketReads_le
  · exact refusePacketReads_le

/-- Each turn of the main loop counts off at least one of the turns that remain. -/
theorem receiveLoopReads_le (turns : ℕ) :
    r.receiveLoopReads turns ≤ (packetReadsMax + 10) * r.remainingTurns := by
  induction turns generalizing r with
  | zero => exact Nat.zero_le _
  | succ turns ih =>
    unfold receiveLoopReads
    split
    · next waits =>
      have here := turnReads_le (r := r)
      have positive : 1 ≤ r.remainingTurns := by
        have left : r.retries < 10 := waits.2
        unfold remainingTurns
        omega
      by_cases still : r.turn.Waits
      · calc r.turnReads + r.turn.receiveLoopReads turns
            ≤ (packetReadsMax + 10) + (packetReadsMax + 10) * r.turn.remainingTurns :=
              Nat.add_le_add here ih
          _ = (packetReadsMax + 10) * (r.turn.remainingTurns + 1) := by ring
          _ ≤ (packetReadsMax + 10) * r.remainingTurns :=
              Nat.mul_le_mul_left _ (turn_remaining waits still)
      · have ended : r.turn.receiveLoopReads turns = 0 := by
          cases turns with
          | zero => rfl
          | succ turns => exact if_neg still
        rw [ended, Nat.add_zero]
        exact here.trans (Nat.le_mul_of_pos_right _ positive)
    · exact Nat.zero_le _

end Receiver

open Receiver

/-- Whatever comes from the line, the receiver returns: its main loop is left, and what it has read is
bounded by the size of the buffer.  The readers of packets and of the rest of a packet are bounded by
themselves. -/
theorem xymodemReceive_returns (protocol : XYModemProtocol) (buffer : ℕ → BitVec 8)
    (bufferSize : Word) (line : Line) :
    ¬ ((startReceiver protocol buffer bufferSize line).receiveLoop (bufferSize.toNat + 12)).Waits ∧
      (xymodemReceive protocol buffer bufferSize line).2.line =
        line.drop (xymodemReceiveReads protocol buffer bufferSize line) ∧
      xymodemReceiveReads protocol buffer bufferSize line ≤
        (packetReadsMax + 10) * (bufferSize.toNat + 11) + 10 ∧
      ∀ r : Receiver,
        (r.readPacket.2.line = r.line.drop r.readPacketReads ∧ r.readPacketReads ≤ packetReadsMax) ∧
        (r.purge 10).line = r.line.drop (r.purgeReads 10) ∧ r.purgeReads 10 ≤ 10 := by
  have start : Reads (startReceiver protocol buffer bufferSize line) 0
      (startReceiver protocol buffer bufferSize line) := rfl
  have begun : (startReceiver protocol buffer bufferSize line).line = line := by
    cases protocol <;> rfl
  refine ⟨xymodemReceive_exits, ?_, ?_, fun r => ⟨⟨reads_readPacket, readPacketReads_le⟩,
    reads_purge 10, purgeReads_le 10⟩⟩
  · have read := (reads_receiveLoop (r := startReceiver protocol buffer bufferSize line)
      (bufferSize.toNat + 12)).trans (reads_purge 10)
    unfold Reads at read
    rw [begun] at read
    exact read
  · have turns : (startReceiver protocol buffer bufferSize line).remainingTurns =
      bufferSize.toNat + 11 := startReceiver_remaining
    rw [← turns]
    exact Nat.add_le_add (receiveLoopReads_le _) (purgeReads_le 10)

end Hss
