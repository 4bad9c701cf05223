import Hss.Ymodem.Receive

/-! What a read of a packet and a turn of the main loop do to the state of a transfer, and that the
main loop ends. -/

namespace Hss.Receiver

variable {r r' r'' : Receiver}

/-! ### Reads and answers leave the transfer as it is -/

/-- `r'` has the state `state`, and the buffer and the bad packets of `r`: besides, only the line, the
packet and what was sent differ. -/
structure After (r : Receiver) (state : XYModemState) (r' : Receiver) : Prop where
  state : r'.toXYModemState = state
  buffer : r'.buffer = r.buffer
  retries : r'.retries = r.retries

/-- `r'` is as far as `r` in the transfer. -/
abbrev SameTransfer (r r' : Receiver) : Prop := After r r.toXYModemState r'

theorem After.refl : SameTransfer r r := ⟨rfl, rfl, rfl⟩

theorem After.trans {state state' : XYModemState} (first : After r state r')
    (second : After r' state' r'') : After r state' r'' :=
  ⟨second.state, second.buffer.trans first.buffer, second.retries.trans first.retries⟩

theorem After.same {state : XYModemState} (first : After r state r')
    (second : SameTransfer r' r'') : After r state r'' :=
  ⟨second.state.trans first.state, second.buffer.trans first.buffer,
    second.retries.trans first.retries⟩

theorem sendReadyChar_same : SameTransfer r r.sendReadyChar := by
  unfold sendReadyChar
  split <;> exact ⟨rfl, rfl, rfl⟩

@[simp] theorem sendReadyChar_packet : r.sendReadyChar.packet = r.packet := by
  unfold sendReadyChar
  split <;> rfl

@[simp] theorem sendReadyChar_line : r.sendReadyChar.line = r.line := by
  unfold sendReadyChar
  split <;> rfl

theorem purge_same (n : ℕ) : SameTransfer r (r.purge n) := by
  induction n generalizing r with
  | zero => exact .refl
  | succ n ih =>
    unfold purge
    split
    · exact ⟨rfl, rfl, rfl⟩
    · have read : SameTransfer r r.getchar.2 := ⟨rfl, rfl, rfl⟩
      exact read.same ih

theorem getBytes_same (n : ℕ) : SameTransfer r (r.getBytes n).2 := by
  induction n generalizing r with
  | zero => exact .refl
  | succ n ih =>
    have read : SameTransfer r r.getByte.2 := ⟨rfl, rfl, rfl⟩
    exact read.same ih

theorem getBytes_packet (n : ℕ) : (r.getBytes n).2.packet = r.packet := by
  induction n generalizing r with
  | zero => rfl
  | succ n ih => exact ih (r := r.getByte.2)

/-! ### Synchronization -/

/-- What the attempts to synchronize come to. -/
inductive Synchronized (r : Receiver) : Bool → Receiver → Prop
  | packet {r' : Receiver} (same : SameTransfer r r')
      (length : r'.packet.length = 128 ∨ r'.packet.length = 1024) : Synchronized r true r'
  | eot {r' : Receiver} (ended : After r { r.toXYModemState with eotReceived := true } r') :
      Synchronized r true r'
  | aborted {r' : Receiver} (aborted : After r { r.toXYModemState with abort := true } r') :
      Synchronized r false r'
  | lost {r' : Receiver} (same : SameTransfer r r') : Synchronized r false r'

theorem Synchronized.of_same {synced : Bool} (same : SameTransfer r r')
    (rest : Synchronized r' synced r'') : Synchronized r synced r'' := by
  cases rest with
  | packet next length => exact .packet (same.same next) length
  | eot next =>
    rw [same.state] at next
    exact .eot (same.trans next)
  | aborted next =>
    rw [same.state] at next
    exact .aborted (same.trans next)
  | lost next => exact .lost (same.same next)

theorem synchronize_cases (attempts canRxCount : ℕ) :
    Synchronized r (r.synchronize attempts canRxCount).1
      (r.synchronize attempts canRxCount).2 := by
  induction attempts generalizing r canRxCount with
  | zero => exact .lost .refl
  | succ attempts ih =>
    have read : SameTransfer r (r.getchar.2.setStartByte (r.getchar.1.getD 0)) := ⟨rfl, rfl, rfl⟩
    unfold synchronize
    dsimp only
    cases startSignal r.getchar.1 with
    | soh => exact .packet ⟨rfl, rfl, rfl⟩ (.inl rfl)
    | stx => exact .packet ⟨rfl, rfl, rfl⟩ (.inr rfl)
    | eot => exact .eot ⟨rfl, rfl, rfl⟩
    | etx => exact .aborted ⟨rfl, rfl, rfl⟩
    | can =>
      dsimp only
      split
      · exact .aborted ⟨rfl, rfl, rfl⟩
      · exact .of_same read (ih _)
    | other =>
      exact .of_same (read.same sendReadyChar_same) (ih _)

/-! ### Reading a packet -/

theorem extractPacket_after :
    After r { r.toXYModemState with numReceivedPackets := r.numReceivedPackets + 1 }
      r.extractPacket := by
  have taken := getBytes_same (r := { r.getByte.2.getByte.2 with
    packet := { r.packet with
      blkNum := r.getByte.1, blkNumOnesComplement := r.getByte.2.getByte.1 }
    numReceivedPackets := r.numReceivedPackets + 1 }) (r.packet.length + 2)
  exact ⟨taken.state, taken.buffer, taken.retries⟩

theorem extractPacket_length : r.extractPacket.packet.length = r.packet.length := by
  unfold extractPacket
  dsimp only
  rw [getBytes_packet]
  rfl

theorem validatePacket_eq_true :
    r.validatePacket = true ↔
      crc16Calculate (firstBytes r.packet.buffer (r.packet.length + 2)) = 0 ∧
        r.packet.blkNum = r.packet.blkNumOnesComplement ^^^ 0xFF ∧
        r.packet.blkNum = r.expectedBlkNum := by
  unfold validatePacket
  split
  · exact ⟨nofun, fun valid => absurd valid.1 ‹_›⟩
  · split
    · exact ⟨nofun, fun valid => absurd valid.2.1 ‹_›⟩
    · split
      · exact ⟨nofun, fun valid => absurd valid.2.2 ‹_›⟩
      · exact ⟨fun _ => ⟨not_not.mp ‹_›, not_not.mp ‹_›, not_not.mp ‹_›⟩, fun _ => rfl⟩

/-- What a read of a packet comes to. -/
inductive PacketRead (r : Receiver) : Bool → Receiver → Prop
  | lost {r' : Receiver} (after : After r { r.toXYModemState with syncFail := true } r') :
      PacketRead r false r'
  | aborted {r' : Receiver}
      (after : After r { r.toXYModemState with syncFail := true, abort := true } r') :
      PacketRead r true r'
  | ended {r' : Receiver} (after : After r { r.toXYModemState with
      eotReceived := true, numReceivedPackets := r.numReceivedPackets + 1 } r') : PacketRead r true r'
  | bad {r' : Receiver} (going : r.eotReceived = false) (after : After r { r.toXYModemState with
      numReceivedPackets := r.numReceivedPackets + 1 } r') : PacketRead r false r'
  | valid {r' : Receiver} (going : r.eotReceived = false) (after : After r { r.toXYModemState with
      numReceivedPackets := r.numReceivedPackets + 1
      lastReceivedBlkNum := r.expectedBlkNum
      expectedBlkNum := r.expectedBlkNum + 1 } r')
      (length : r'.packet.length = 128 ∨ r'.packet.length = 1024) : PacketRead r true r'

theorem done_eq_false : r.done = false ↔
    r.syncFail = false ∧ r.endOfSession = false ∧ r.abort = false := by
  unfold done
  simp [and_assoc]

theorem After.done {state : XYModemState} (after : After r state r') :
    r'.done = (state.syncFail || state.endOfSession || state.abort) := by
  unfold Receiver.done
  rw [after.state]

theorem readPacket_cases (notDone : r.done = false) :
    PacketRead r r.readPacket.1 r.readPacket.2 := by
  obtain ⟨inSync, going, notAborted⟩ := done_eq_false.mp notDone
  unfold readPacket
  rw [if_neg (by simp [notDone])]
  have outcome := synchronize_cases (r := r) 20 0
  revert outcome
  generalize r.synchronize 20 0 = result
  obtain ⟨synced, r'⟩ := result
  intro outcome
  dsimp only at outcome ⊢
  cases outcome with
  | packet same length =>
    have open' : r'.endOfSession = false :=
      (congrArg XYModemState.endOfSession same.state).trans going
    have extracted := extractPacket_after (r := r')
    rw [same.state] at extracted
    have after := same.trans extracted
    rw [if_neg (by simp [open']), if_pos rfl,
      if_neg (by simp [after.done, inSync, going, notAborted])]
    cases eot : r.eotReceived with
    | true =>
      have ended : r'.extractPacket.eotReceived = true :=
        (congrArg XYModemState.eotReceived after.state).trans eot
      rw [if_pos ended]
      refine .ended ⟨after.state.trans ?_, after.buffer, after.retries⟩
      rw [← eot]
    | false =>
      have notEnded : r'.extractPacket.eotReceived = false :=
        (congrArg XYModemState.eotReceived after.state).trans eot
      rw [if_neg (by simp [notEnded])]
      cases validated : r'.extractPacket.validatePacket with
      | false => exact .bad eot after
      | true =>
        obtain ⟨-, -, number⟩ := validatePacket_eq_true.mp validated
        have expected : r'.extractPacket.expectedBlkNum = r.expectedBlkNum :=
          (congrArg XYModemState.expectedBlkNum after.state).trans rfl
        refine .valid eot ⟨?_, after.buffer, after.retries⟩ ?_
        · show { r'.extractPacket.toXYModemState with
            lastReceivedBlkNum := r'.extractPacket.packet.blkNum
            expectedBlkNum := r'.extractPacket.expectedBlkNum + 1 } = _
          rw [number, expected, after.state]
        · exact extractPacket_length.symm ▸ length
  | eot ended =>
    have open' : r'.endOfSession = false :=
      (congrArg XYModemState.endOfSession ended.state).trans going
    have extracted := extractPacket_after (r := r')
    rw [ended.state] at extracted
    have after := ended.trans extracted
    have eot : r'.extractPacket.eotReceived = true :=
      congrArg XYModemState.eotReceived after.state
    rw [if_neg (by simp [open']), if_pos rfl,
      if_neg (by simp [after.done, inSync, going, notAborted]), if_pos eot]
    exact .ended after
  | aborted aborted =>
    have open' : r'.endOfSession = false :=
      (congrArg XYModemState.endOfSession aborted.state).trans going
    have abort : r'.abort = true := congrArg XYModemState.abort aborted.state
    rw [if_neg (by simp [open']), if_neg (by decide), abort]
    refine .aborted ⟨?_, aborted.buffer, aborted.retries⟩
    exact congrArg (fun s : XYModemState => { s with syncFail := true }) aborted.state
  | lost same =>
    have open' : r'.endOfSession = false :=
      (congrArg XYModemState.endOfSession same.state).trans going
    have abort : r'.abort = false := (congrArg XYModemState.abort same.state).trans notAborted
    rw [if_neg (by simp [open']), if_neg (by decide), abort]
    refine .lost ⟨?_, same.buffer, same.retries⟩
    exact congrArg (fun s : XYModemState => { s with syncFail := true }) same.state

/-! ### A turn of the main loop -/

/-- The state once the packet that was expected is read. -/
def acceptPacket (r : Receiver) : XYModemState :=
  { r.toXYModemState with
    numReceivedPackets := r.numReceivedPackets + 1
    lastReceivedBlkNum := r.expectedBlkNum
    expectedBlkNum := r.expectedBlkNum + 1 }

/-- What a turn of the main loop comes to, by the result of the reader, the receiver after the read, and
the one after the turn. -/
inductive TurnTaken (r : Receiver) : Bool → Receiver → Receiver → Prop
  | lost {q t : Receiver} (sync : q.syncFail = true) (going : q.abort = false)
      (after : After { r with retries := r.retries + 1 }
        { r.toXYModemState with syncFail := true } t) : TurnTaken r false q t
  | aborted {q t : Receiver} (signal : q.abort = true) (eot : q.eotReceived = r.eotReceived)
      (abort : t.abort = true) (notEnded : t.endOfSession = false)
      (empty : t.totalReceivedSize = 0) : TurnTaken r true q t
  | bad {q t : Receiver} (sync : q.syncFail = false) (eot : q.eotReceived = false)
      (after : After { r with retries := r.retries + 1 }
        { r.toXYModemState with numReceivedPackets := r.numReceivedPackets + 1 } t) :
      TurnTaken r false q t
  | ended {q t : Receiver} (sync : q.syncFail = false) (eot : q.eotReceived = true)
      (after : After r { r.toXYModemState with
        eotReceived := true, numReceivedPackets := r.numReceivedPackets + 1
        endOfSession := true } t) : TurnTaken r true q t
  /-- The end of a session is taken for a header block when it comes first. -/
  | eotFirst {q t : Receiver} {filename : Bytes} {expectedSize : Word}
      (first : r.numReceivedPackets = 0) (sync : q.syncFail = false) (eot : q.eotReceived = true)
      (after : After r { r.toXYModemState with
        eotReceived := true, numReceivedPackets := 1, filename, expectedSize } t) :
      TurnTaken r true q t
  | header {q t : Receiver} {filename : Bytes} {expectedSize : Word}
      (first : r.numReceivedPackets = 0) (sync : q.syncFail = false) (eot : q.eotReceived = false)
      (going : r.eotReceived = false)
      (after : After r { r.acceptPacket with filename, expectedSize } t) : TurnTaken r true q t
  | data {q t : Receiver} (notHeader : ¬ q.IsHeader) (sync : q.syncFail = false)
      (eot : q.eotReceived = false) (going : r.eotReceived = false) (size : q.packet.length = 128 ∨ q.packet.length = 1024)
      (fits : r.totalReceivedSize + q.packet.length < r.maxSize)
      (after : After { r with
          buffer := writeBuffer r.buffer r.totalReceivedSize
            (firstBytes q.packet.buffer q.packet.length) }
        { r.acceptPacket with
          totalReceivedSize := r.totalReceivedSize + q.packet.length } t) : TurnTaken r true q t
  /-- A file that does not fit. -/
  | rejected {q t : Receiver} (sync : q.syncFail = false)
      (eot : q.eotReceived = true → r.numReceivedPackets = 0) (abort : t.abort = true)
      (notEnded : t.endOfSession = false) (empty : t.totalReceivedSize = 0) : TurnTaken r true q t

theorem refusePacket_after {state : XYModemState} (after : After r state r') :
    After { r with retries := r.retries + 1 } state r'.refusePacket := by
  unfold refusePacket
  dsimp only
  split
  · have purged := purge_same (r := { r' with retries := r'.retries + 1 }) 10
    exact ⟨purged.state.trans after.state, purged.buffer.trans after.buffer,
      purged.retries.trans (congrArg (· + 1) after.retries)⟩
  · exact ⟨after.state, after.buffer, congrArg (· + 1) after.retries⟩

/-- A header block is taken, or its size ends the session. -/
theorem takeHeader_cases :
    (∃ filename expectedSize,
      After r { r.toXYModemState with filename, expectedSize } r.takeHeader) ∨
      (r.takeHeader.abort = true ∧ r.takeHeader.endOfSession = r.endOfSession ∧
        r.takeHeader.totalReceivedSize = 0) := by
  unfold takeHeader
  dsimp only
  split
  · exact .inr ⟨rfl, rfl, rfl⟩
  · exact .inl ⟨_, _, rfl, rfl, rfl⟩

/-- A block of data is stored, or does not fit and ends the session. -/
theorem takeData_cases :
    (r.totalReceivedSize + r.packet.length < r.maxSize ∧
      After { r with
          buffer := writeBuffer r.buffer r.totalReceivedSize
            (firstBytes r.packet.buffer r.packet.length) }
        { r.toXYModemState with totalReceivedSize := r.totalReceivedSize + r.packet.length }
        r.takeData) ∨
      (r.takeData.abort = true ∧ r.takeData.endOfSession = r.endOfSession ∧
        r.takeData.totalReceivedSize = 0) := by
  unfold takeData
  split
  · rename_i fits
    exact .inl ⟨fits, rfl, rfl, rfl⟩
  · exact .inr ⟨rfl, rfl, rfl⟩

theorem After.flags {state : XYModemState} (after : After r state r') :
    r'.endOfSession = state.endOfSession ∧ r'.abort = state.abort ∧
      r'.eotReceived = state.eotReceived ∧ r'.numReceivedPackets = state.numReceivedPackets ∧
      r'.totalReceivedSize = state.totalReceivedSize ∧ r'.maxSize = state.maxSize := by
  rw [← after.state]
  exact ⟨rfl, rfl, rfl, rfl, rfl, rfl⟩

theorem After.syncFail {state : XYModemState} (after : After r state r') :
    r'.syncFail = state.syncFail := congrArg XYModemState.syncFail after.state

theorem takePacket_acked {state : XYModemState} (after : After r state r') :
    After r state (r'.putchar xymodemAck) := ⟨after.state, after.buffer, after.retries⟩

theorem turn_taken (notDone : r.done = false) :
    TurnTaken r r.readPacket.1 r.readPacket.2 r.turn := by
  obtain ⟨inSync, going, notAborted⟩ := done_eq_false.mp notDone
  have read := readPacket_cases notDone
  unfold turn
  revert read
  generalize r.readPacket = result
  obtain ⟨good, r'⟩ := result
  intro read
  dsimp only at read ⊢
  cases read with
  | lost after =>
    obtain ⟨-, abort, -⟩ := after.flags
    rw [if_neg (by decide)]
    exact .lost after.syncFail (abort.trans notAborted) (refusePacket_after after)
  | bad notEot after =>
    obtain ⟨-, -, eot, -⟩ := after.flags
    rw [if_neg (by decide)]
    exact .bad (after.syncFail.trans inSync) (eot.trans notEot) (refusePacket_after after)
  | aborted after =>
    obtain ⟨open', abort, eot, -⟩ := after.flags
    have acked := takePacket_acked after
    rw [if_pos rfl]
    unfold takePacket
    refine .aborted abort eot ?_ ?_ ?_ <;>
      rw [if_neg (by simp [acked.done]), if_pos (show (r'.putchar xymodemAck).abort = true from abort)]
    · exact abort
    · exact open'.trans going
    · rfl
  | ended after =>
    obtain ⟨-, -, eot', -⟩ := after.flags
    have sync := after.syncFail.trans inSync
    have acked := takePacket_acked after
    rw [if_pos rfl]
    unfold takePacket
    generalize r'.putchar xymodemAck = q at acked
    obtain ⟨open', abort, eot, count, -⟩ := acked.flags
    rw [if_pos (by simp [acked.done, inSync, going, notAborted])]
    by_cases header : q.IsHeader
    · rw [if_pos header]
      have first : r.numReceivedPackets = 0 := Nat.succ_injective (count.symm.trans header.2.2)
      obtain ⟨filename, expectedSize, taken⟩ | ⟨rejected, still, empty⟩ :=
        takeHeader_cases (r := q)
      · rw [acked.state] at taken
        have counted := acked.trans taken
        rw [first] at counted
        exact .eotFirst first sync eot' counted
      · exact .rejected sync (fun _ => first) rejected (still.trans (open'.trans going)) empty
    · rw [if_neg header, if_pos (show q.eotReceived = true from eot)]
      refine .ended sync eot' ⟨?_, acked.buffer, acked.retries⟩
      exact congrArg (fun s : XYModemState => { s with endOfSession := true }) acked.state
  | valid notEot after length =>
    obtain ⟨-, -, eot', -⟩ := after.flags
    have sync := after.syncFail.trans inSync
    have acked := takePacket_acked after
    have packet : (r'.putchar xymodemAck).packet = r'.packet := rfl
    have isHeader : r'.IsHeader → (r'.putchar xymodemAck).IsHeader := id
    rw [if_pos rfl]
    unfold takePacket
    generalize r'.putchar xymodemAck = q at acked packet isHeader
    obtain ⟨open', abort, eot, count, total, max⟩ := acked.flags
    rw [if_pos (by simp [acked.done, inSync, going, notAborted])]
    by_cases header : q.IsHeader
    · rw [if_pos header]
      have first : r.numReceivedPackets = 0 := Nat.succ_injective (count.symm.trans header.2.2)
      obtain ⟨filename, expectedSize, taken⟩ | ⟨rejected, still, empty⟩ :=
        takeHeader_cases (r := q)
      · rw [acked.state] at taken
        exact .header first sync (eot'.trans notEot) notEot (acked.trans taken)
      · exact .rejected sync (fun _ => first) rejected (still.trans (open'.trans going)) empty
    · rw [if_neg header, if_neg (by simp [eot, notEot])]
      obtain ⟨fits, taken⟩ | ⟨rejected, still, empty⟩ := takeData_cases (r := q)
      · rw [total, max, packet] at fits
        refine .data (header ∘ isHeader) sync (eot'.trans notEot) notEot length fits
          ⟨taken.state.trans ?_, taken.buffer.trans ?_, taken.retries.trans acked.retries⟩
        · rw [total, packet, acked.state]
          rfl
        · show writeBuffer q.buffer q.totalReceivedSize _ = _
          rw [acked.buffer, total, packet]
      · refine .rejected sync (fun ended => ?_) rejected (still.trans (open'.trans going)) empty
        exact absurd (ended.symm.trans (eot'.trans notEot)) (by decide)

/-! ### The main loop ends -/

/-- A bound of the turns that the main loop still takes: bad packets, bytes of room, the header. -/
def remainingTurns (r : Receiver) : ℕ :=
  (10 - r.retries) + (r.maxSize - r.totalReceivedSize) + if r.numReceivedPackets = 0 then 1 else 0

theorem not_waits_of_done (done : r.done = true) : ¬ r.Waits := fun waits =>
  Bool.false_ne_true (waits.1.symm.trans done)

theorem After.not_waits {state : XYModemState} (after : After r state r')
    (done : (state.syncFail || state.endOfSession || state.abort) = true) : ¬ r'.Waits :=
  not_waits_of_done (after.done.trans done)

theorem not_waits_of_abort (abort : r.abort = true) : ¬ r.Waits :=
  not_waits_of_done (by simp [done, abort])

theorem turn_remaining (waits : r.Waits) (still : r.turn.Waits) :
    r.turn.remainingTurns < r.remainingTurns := by
  have left : r.retries < 10 := waits.2
  have taken := turn_taken waits.1
  generalize r.turn = t at still taken ⊢
  generalize r.readPacket.1 = good, r.readPacket.2 = q at taken
  unfold remainingTurns
  cases taken with
  | lost _ _ after => exact absurd still (after.not_waits rfl)
  | aborted _ _ abort | rejected _ _ abort => exact absurd still (not_waits_of_abort abort)
  | bad _ _ after =>
    obtain ⟨-, -, -, count, total, max⟩ := after.flags
    have retries : t.retries = r.retries + 1 := after.retries
    rw [count, total, max, retries, if_neg (Nat.succ_ne_zero _)]
    dsimp only
    omega
  | ended _ _ after => exact absurd still (after.not_waits (by simp))
  | eotFirst first _ _ after | header first _ _ _ after =>
    obtain ⟨-, -, -, count, total, max⟩ := after.flags
    have counted : t.numReceivedPackets ≠ 0 := by
      rw [count]
      exact Nat.succ_ne_zero _
    rw [total, max, after.retries, if_neg counted, if_pos first]
    dsimp only [acceptPacket]
    omega
  | data _ _ _ _ size fits after =>
    obtain ⟨-, -, -, count, total, max⟩ := after.flags
    have counted : t.numReceivedPackets ≠ 0 := by
      rw [count]
      exact Nat.succ_ne_zero _
    rw [total, max, after.retries, if_neg counted]
    dsimp only [acceptPacket]
    omega

theorem receiveLoop_exits {turns : ℕ} (enough : r.remainingTurns ≤ turns) :
    ¬ (r.receiveLoop turns).Waits := by
  induction turns generalizing r with
  | zero =>
    intro waits
    have left : r.retries < 10 := waits.2
    unfold remainingTurns at enough
    omega
  | succ turns ih =>
    unfold receiveLoop
    split
    · rename_i waits
      by_cases still : r.turn.Waits
      · exact ih (Nat.le_of_lt_succ (Nat.lt_of_lt_of_le (turn_remaining waits still) enough))
      · cases turns with
        | zero => exact still
        | succ turns =>
          rw [receiveLoop, if_neg still]
          exact still
    · assumption

end Hss.Receiver

namespace Hss

open Receiver

variable {protocol : XYModemProtocol} {buffer : ℕ → BitVec 8} {bufferSize : Word} {line : Line}

theorem startReceiver_waits : (startReceiver protocol buffer bufferSize line).Waits := by
  cases protocol <;> exact ⟨rfl, show 0 < 10 by decide⟩

theorem startReceiver_remaining :
    (startReceiver protocol buffer bufferSize line).remainingTurns = bufferSize.toNat + 11 := by
  cases protocol <;>
    simp [startReceiver, remainingTurns, sendReadyChar, putchar] <;> omega

theorem xymodemReceive_exits :
    ¬ ((startReceiver protocol buffer bufferSize line).receiveLoop (bufferSize.toNat + 12)).Waits :=
  receiveLoop_exits (startReceiver_remaining.trans_le (Nat.le_succ _))

end Hss
