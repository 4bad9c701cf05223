import Hss.Ymodem.Frames
import Mathlib.Data.List.Basic

/-! A sender and the receiver over a line that spoils, delays and loses packets and acknowledgements:
what the buffer holds once the session has ended. -/

namespace Hss

/-! ### The sender and the line -/

/-- A file as its sender transfers it: a block with its name, and blocks of its bytes, of which the last
is padded. -/
structure Transfer where
  header : Block
  blocks : List Block
  file : Bytes
  padding : Bytes
  contents : (blocks.map (·.data)).flatten = file ++ padding
  padded : ∀ last ∈ blocks.getLast?, padding.length < last.data.length

/-- The packets, in the order of their numbers. -/
def Transfer.packets (t : Transfer) : List Block := t.header :: t.blocks

theorem Transfer.sent_header (t : Transfer) : t.packets[0]? = some t.header := rfl

/-- How the frame of a packet comes out of the line. -/
inductive Arrival
  | intact
  | corrupt (body : List (Option (BitVec 8)))
  deriving DecidableEq

/-- A transmission of a packet: what is read before it, how it arrives, and whether its
acknowledgement is lost. -/
structure Transmission where
  before : List (Option (BitVec 8))
  arrival : Arrival
  ackLost : Bool

namespace Transfer

variable (t : Transfer) (i : ℕ) (e : Transmission)

/-- What is read of packet `i`, after the last packet the end of the session. -/
def frame (arrival : Arrival) : List (Option (BitVec 8)) :=
  match t.packets[i]? with
  | some block =>
      some block.startByte ::
        match arrival with
        | .intact => (block.body (BitVec.ofNat 8 i)).map some
        | .corrupt body => body
  | none => [some xymodemEot]

/-- Before a frame come timeouts and bytes that start none, and a frame that is spoilt keeps its
size. -/
def Possible : Prop :=
  (∀ char ∈ e.before, Receiver.startSignal char = .other) ∧
    ∀ body, e.arrival = .corrupt body →
      ∃ block, t.packets[i]? = some block ∧ body.length = block.data.length + 4 ∧ Corrupt body

end Transfer

/-- The packet that the sender sends next, by the receiver's answer: the same one again, unless an
acknowledgement arrives. -/
def nextPacket (i : ℕ) (e : Transmission) (r : Receiver) : ℕ :=
  if r.sent.head? = some xymodemAck ∧ e.ackLost = false then i + 1 else i

/-- A session from packet `i` on, with the transmissions that the receiver `r` reads.  It goes on until
the receiver or the sender stops. -/
inductive Session (t : Transfer) : ℕ → Receiver → List Transmission → Prop
  | closed {i : ℕ} {r : Receiver} (left : ¬ r.Waits) : Session t i r []
  | stopped {i : ℕ} {r : Receiver} (silent : r.line = Stream'.const none) : Session t i r []
  | send {i : ℕ} {r : Receiver} {e : Transmission} {events : List Transmission} {rest : Line}
      (possible : t.Possible i e) (line : r.line = (e.before ++ t.frame i e.arrival) ++ₛ rest)
      (later : Session t (nextPacket i e r.turn) r.turn events) : Session t i r (e :: events)

/-! ### Reading a frame of the sender -/

namespace Receiver

variable {r q : Receiver} {rest : Line} {block : Block} {blkNum : BitVec 8}

theorem firstBytes_take {buffer : ℕ → BitVec 8} {n k : ℕ} :
    (firstBytes buffer (n + k)).take n = firstBytes buffer n := by
  unfold firstBytes
  rw [← List.map_take, List.take_range, Nat.min_eq_left (Nat.le_add_right n k)]

theorem readBytes_some (bytes : Bytes) : readBytes (bytes.map some) = bytes := by
  unfold readBytes
  rw [List.map_map]
  exact List.map_id _

theorem FrameRead.valid_iff (read : FrameRead r ((block.body blkNum).map some) rest q) :
    q.validatePacket = true ↔ blkNum = r.expectedBlkNum := by
  have contents := read.contents
  have number := read.blkNum
  have complement := read.complement
  rw [readBytes_some] at contents number complement
  have number' : q.packet.blkNum = blkNum := (Option.some.inj number).symm
  have complement' : q.packet.blkNumOnesComplement = blkNum ^^^ 0xFF :=
    (Option.some.inj complement).symm
  have expected : q.expectedBlkNum = r.expectedBlkNum :=
    (congrArg XYModemState.expectedBlkNum read.after.state).trans rfl
  have crc : crc16Calculate (firstBytes q.packet.buffer (q.packet.length + 2)) = 0 := by
    rw [contents]
    exact crc16Calculate_trailer block.data
  rw [validatePacket_eq_true, number', complement', expected, BitVec.xor_assoc, BitVec.xor_self]
  exact ⟨fun valid => valid.2.2, fun same => ⟨crc, (BitVec.xor_zero).symm, same⟩⟩

theorem FrameRead.data (read : FrameRead r ((block.body blkNum).map some) rest q)
    (length : q.packet.length = block.data.length) :
    firstBytes q.packet.buffer q.packet.length = block.data := by
  rw [← firstBytes_take (k := 2), read.contents, readBytes_some, length]
  exact List.take_left

theorem FrameRead.corrupt {body : List (Option (BitVec 8))} (read : FrameRead r body rest q)
    (corrupt : Corrupt body) : q.validatePacket = false := by
  refine eq_false_of_ne_true fun valid => ?_
  obtain ⟨crc, complement, -⟩ := validatePacket_eq_true.mp valid
  rcases corrupt with wrong | wrong
  · exact wrong (read.contents ▸ crc)
  · rw [read.blkNum, read.complement] at wrong
    exact wrong (congrArg some complement)

theorem refusePacket_sent (counted : r.numReceivedPackets ≠ 0) :
    r.refusePacket.sent.head? = some xymodemNak := by
  unfold refusePacket
  rw [if_pos counted]
  rfl

end Receiver

/-! ### The progress of a session -/

/-- The receiver has accepted `n` packets, and the sender is at packet `i`.  All of them are stored but
the header, if `first`: if the first frame that came was good. -/
structure Progress (t : Transfer) (first : Bool) (i n : ℕ) (r : Receiver) : Prop where
  protocol : r.protocol = .ymodem
  notDone : r.done = false
  going : r.eotReceived = false
  counted : r.numReceivedPackets ≠ 0
  expected : r.expectedBlkNum = BitVec.ofNat 8 n
  sender : i = n ∨ i + 1 = n
  bound : n ≤ t.packets.length
  begun : first.toNat ≤ n
  stored : firstBytes r.buffer r.totalReceivedSize =
    (((t.packets.take n).drop first.toNat).map (·.data)).flatten

/-- What is stored when the session ends. -/
def Transfer.Stored (t : Transfer) (first : Bool) (r : Receiver) : Prop :=
  firstBytes r.buffer r.totalReceivedSize = ((t.packets.drop first.toNat).map (·.data)).flatten

/-- A turn of the receiver makes progress, ends the session with everything stored, or breaks it
off. -/
def Progresses (t : Transfer) (first : Bool) (i : ℕ) (e : Transmission) (r : Receiver) : Prop :=
  (∃ n, Progress t first (nextPacket i e r) n r) ∨
    (r.done = true ∧ (r.endOfSession = true → t.Stored first r))

variable {t : Transfer} {first : Bool} {i n : ℕ} {e : Transmission} {r q : Receiver} {rest : Line}
  {block : Block}

theorem nextPacket_of_nak (nak : r.sent.head? = some xymodemNak) : nextPacket i e r = i := by
  unfold nextPacket
  rw [nak]
  exact if_neg fun acked => absurd acked.1 (by decide)

theorem nextPacket_cases : nextPacket i e r = i + 1 ∨ nextPacket i e r + 1 = i + 1 := by
  unfold nextPacket
  split
  · exact .inl rfl
  · exact .inr rfl

/-- A packet that is refused leaves the receiver and the sender where they are. -/
theorem Progress.refused (progress : Progress t first i n r) {body : List (Option (BitVec 8))}
    (read : Receiver.FrameRead r body rest q) :
    Progress t first (nextPacket i e q.refusePacket) n q.refusePacket := by
  have after := Receiver.refusePacket_after read.after
  have counted : q.numReceivedPackets ≠ 0 := by
    rw [read.after.flags.2.2.2.1]
    exact Nat.succ_ne_zero _
  rw [nextPacket_of_nak (Receiver.refusePacket_sent counted)]
  obtain ⟨-, -, eot, count, total, -⟩ := after.flags
  obtain ⟨inSync, going, notAborted⟩ := Receiver.done_eq_false.mp progress.notDone
  refine ⟨?_, ?_, eot.trans progress.going, ?_, ?_, progress.sender, progress.bound, progress.begun,
    ?_⟩
  · exact (congrArg XYModemState.protocol after.state).trans progress.protocol
  · exact after.done.trans (by simp [inSync, going, notAborted])
  · rw [count]
    exact Nat.succ_ne_zero _
  · exact (congrArg XYModemState.expectedBlkNum after.state).trans progress.expected
  · rw [after.buffer, total]
    exact progress.stored

/-- A block of data that is accepted is stored after the ones before it. -/
theorem Progress.stored_succ (progress : Progress t first i n r) {block : Block}
    (sent : t.packets[n]? = some block) :
    firstBytes (writeBuffer r.buffer r.totalReceivedSize block.data)
        (r.totalReceivedSize + block.data.length) =
      (((t.packets.take (n + 1)).drop first.toNat).map (·.data)).flatten := by
  obtain ⟨within, found⟩ := List.getElem?_eq_some_iff.mp sent
  have long : first.toNat ≤ (t.packets.take n).length := by
    rw [List.length_take_of_le (Nat.le_of_lt within)]
    exact progress.begun
  rw [firstBytes_writeBuffer, progress.stored, List.take_succ_eq_append_getElem within, found,
    List.drop_append_of_le_length long]
  simp

/-- The receiver before it has read a frame. -/
structure AtStart (r : Receiver) : Prop where
  protocol : r.protocol = .ymodem
  notDone : r.done = false
  going : r.eotReceived = false
  uncounted : r.numReceivedPackets = 0
  expected : r.expectedBlkNum = 0
  empty : r.totalReceivedSize = 0

/-- A frame that is refused first leaves the header without the mark of the first packet. -/
theorem AtStart.refused (atStart : AtStart r) {body : List (Option (BitVec 8))}
    (read : Receiver.FrameRead r body rest q) :
    Progress t false (nextPacket 0 e q.refusePacket) 0 q.refusePacket := by
  have after := Receiver.refusePacket_after read.after
  have counted : q.numReceivedPackets ≠ 0 := by
    rw [read.after.flags.2.2.2.1]
    exact Nat.succ_ne_zero _
  rw [nextPacket_of_nak (Receiver.refusePacket_sent counted)]
  obtain ⟨-, -, eot, count, total, -⟩ := after.flags
  obtain ⟨inSync, going, notAborted⟩ := Receiver.done_eq_false.mp atStart.notDone
  refine ⟨?_, ?_, eot.trans atStart.going, ?_, ?_, .inl rfl, Nat.zero_le _, Nat.zero_le _, ?_⟩
  · exact (congrArg XYModemState.protocol after.state).trans atStart.protocol
  · exact after.done.trans (by simp [inSync, going, notAborted])
  · rw [count]
    exact Nat.succ_ne_zero _
  · exact (congrArg XYModemState.expectedBlkNum after.state).trans atStart.expected
  · rw [after.buffer, total.trans atStart.empty]
    rfl

/-- The receiver once it has read a valid packet. -/
structure ValidRead (r q' : Receiver) (block : Block) : Prop where
  after : Receiver.After r r.acceptPacket q'
  data : firstBytes q'.packet.buffer q'.packet.length = block.data
  length : q'.packet.length = block.data.length
  good : r.readPacket = (true, q')

/-- The progress once the expected packet is stored. -/
theorem Progress.taken (progress : Progress t first n n r) {block : Block}
    (sent : t.packets[n]? = some block) {s : Receiver}
    (after : Receiver.After
      { r with buffer := writeBuffer r.buffer r.totalReceivedSize block.data }
      { r.acceptPacket with totalReceivedSize := r.totalReceivedSize + block.data.length } s) :
    Progress t first (nextPacket n e s) (n + 1) s := by
  obtain ⟨inSync, going, notAborted⟩ := Receiver.done_eq_false.mp progress.notDone
  obtain ⟨within, -⟩ := List.getElem?_eq_some_iff.mp sent
  obtain ⟨-, -, eot, count, total, -⟩ := after.flags
  refine ⟨?_, ?_, eot.trans progress.going, ?_, ?_, nextPacket_cases, within,
    Nat.le_succ_of_le progress.begun, ?_⟩
  · exact (congrArg XYModemState.protocol after.state).trans progress.protocol
  · exact after.done.trans (by simp [Receiver.acceptPacket, inSync, going, notAborted])
  · rw [count]
    exact Nat.succ_ne_zero _
  · refine (congrArg XYModemState.expectedBlkNum after.state).trans ?_
    show r.expectedBlkNum + 1 = _
    rw [progress.expected, BitVec.ofNat_add]
    rfl
  · rw [after.buffer, total]
    exact progress.stored_succ sent

theorem Progress.accepted (progress : Progress t first n n r) {block : Block}
    (sent : t.packets[n]? = some block) (read : ValidRead r q block) :
    Progresses t first n e r.turn := by
  have taken := Receiver.turn_taken progress.notDone
  rw [read.good] at taken
  obtain ⟨-, going, notAborted⟩ := Receiver.done_eq_false.mp progress.notDone
  obtain ⟨-, abort, eot, -⟩ := read.after.flags
  generalize r.turn = s at taken ⊢
  cases taken with
  | aborted signal => exact absurd (signal.symm.trans (abort.trans notAborted)) (by decide)
  | ended _ ended | eotFirst _ _ ended =>
    exact absurd (ended.symm.trans (eot.trans progress.going)) (by decide)
  | header uncounted => exact absurd uncounted progress.counted
  | rejected _ _ abort notEnded =>
    refine .inr ⟨by simp [Receiver.done, abort], fun ended => ?_⟩
    exact absurd (ended.symm.trans notEnded) (by decide)
  | data _ _ _ _ _ _ after =>
    rw [read.data, read.length] at after
    exact .inl ⟨n + 1, progress.taken sent after⟩

theorem AtStart.taken (atStart : AtStart r) {s : Receiver} {filename : Bytes} {expectedSize : Word}
    (after : Receiver.After r { r.acceptPacket with filename, expectedSize } s) :
    Progress t true (nextPacket 0 e s) 1 s := by
  obtain ⟨inSync, going, notAborted⟩ := Receiver.done_eq_false.mp atStart.notDone
  obtain ⟨-, -, eot, count, total, -⟩ := after.flags
  refine ⟨?_, ?_, eot.trans atStart.going, ?_, ?_, nextPacket_cases,
    Nat.succ_le_succ (Nat.zero_le _), Nat.le_refl 1, ?_⟩
  · exact (congrArg XYModemState.protocol after.state).trans atStart.protocol
  · exact after.done.trans (by simp [Receiver.acceptPacket, inSync, going, notAborted])
  · rw [count]
    exact Nat.succ_ne_zero _
  · refine (congrArg XYModemState.expectedBlkNum after.state).trans ?_
    show r.expectedBlkNum + 1 = _
    rw [atStart.expected]
    rfl
  · rw [total.trans atStart.empty]
    rfl

theorem ValidRead.isHeader (read : ValidRead r q block) (atStart : AtStart r) : q.IsHeader := by
  obtain ⟨-, -, -, count, -⟩ := read.after.flags
  refine ⟨?_, ?_, count.trans (congrArg (· + 1) atStart.uncounted)⟩
  · exact (congrArg XYModemState.protocol read.after.state).trans atStart.protocol
  · exact (congrArg XYModemState.lastReceivedBlkNum read.after.state).trans atStart.expected

theorem AtStart.accepted (atStart : AtStart r) (read : ValidRead r q block) :
    Progresses t true 0 e r.turn := by
  have taken := Receiver.turn_taken atStart.notDone
  rw [read.good] at taken
  obtain ⟨-, going, notAborted⟩ := Receiver.done_eq_false.mp atStart.notDone
  obtain ⟨-, abort, eot, -⟩ := read.after.flags
  generalize r.turn = s at taken ⊢
  cases taken with
  | aborted signal => exact absurd (signal.symm.trans (abort.trans notAborted)) (by decide)
  | ended _ ended | eotFirst _ _ ended =>
    exact absurd (ended.symm.trans (eot.trans atStart.going)) (by decide)
  | data notHeader => exact absurd (read.isHeader atStart) notHeader
  | rejected _ _ abort notEnded =>
    refine .inr ⟨by simp [Receiver.done, abort], fun ended => ?_⟩
    exact absurd (ended.symm.trans notEnded) (by decide)
  | header _ _ _ _ after => exact .inl ⟨1, atStart.taken after⟩

/-- A frame of the sender is refused, or intact and expected. -/
theorem frame_cases (notDone : r.done = false) (going : r.eotReceived = false) {block : Block}
    (sent : t.packets[i]? = some block) (possible : t.Possible i e) (few : e.before.length < 20)
    (line : r.line = (e.before ++ t.frame i e.arrival) ++ₛ rest) :
    (∃ body q, Receiver.FrameRead r body rest q ∧ r.turn = q.refusePacket ∧
      (e.arrival = .intact → BitVec.ofNat 8 i ≠ r.expectedBlkNum)) ∨
    (e.arrival = .intact ∧ BitVec.ofNat 8 i = r.expectedBlkNum ∧
      ∃ q, ValidRead r q block ∧ q.line = rest) := by
  unfold Transfer.frame at line
  rw [sent] at line
  cases arrival : e.arrival with
  | corrupt body =>
    rw [arrival] at line
    obtain ⟨block', sent', size, spoilt⟩ := possible.2 body arrival
    cases Option.some.inj (sent.symm.trans sent')
    obtain ⟨q, read, -, result⟩ :=
      Receiver.readPacket_frame notDone going possible.1 few size line
    rw [read.corrupt spoilt, if_neg (by decide)] at result
    refine .inl ⟨body, q, read, ?_, nofun⟩
    unfold Receiver.turn
    rw [result]
    rfl
  | intact =>
    rw [arrival] at line
    have size : ((block.body (BitVec.ofNat 8 i)).map some).length = block.data.length + 4 := by
      simp [Block.body, crcTrailer]
    obtain ⟨q, read, length, result⟩ :=
      Receiver.readPacket_frame notDone going possible.1 few size line
    by_cases expected : BitVec.ofNat 8 i = r.expectedBlkNum
    · refine .inr ⟨rfl, expected, ?_⟩
      rw [if_pos (read.valid_iff.mpr expected)] at result
      have number : q.packet.blkNum = BitVec.ofNat 8 i := by
        have found := read.blkNum
        rw [Receiver.readBytes_some] at found
        exact (Option.some.inj found).symm
      refine ⟨{ q with
        lastReceivedBlkNum := q.packet.blkNum
        expectedBlkNum := q.expectedBlkNum + 1 },
        ⟨?_, read.data length, length, result⟩, read.line⟩
      refine ⟨?_, read.after.buffer, read.after.retries⟩
      show { q.toXYModemState with
        lastReceivedBlkNum := q.packet.blkNum, expectedBlkNum := q.expectedBlkNum + 1 } = _
      rw [number, expected, read.after.state]
      rfl
    · have invalid : q.validatePacket = false :=
        eq_false_of_ne_true fun valid => expected (read.valid_iff.mp valid)
      rw [invalid, if_neg (by decide)] at result
      refine .inl ⟨_, q, read, ?_, fun _ => expected⟩
      unfold Receiver.turn
      rw [result]
      rfl

/-! ### What a session delivers -/

/-- A turn in which the reader loses synchronization is the last one. -/
theorem turn_of_lost (notDone : r.done = false)
    (lost : r.readPacket.1 = false ∧ r.readPacket.2.syncFail = true) :
    r.turn.done = true ∧ r.turn.endOfSession = false ∧
      r.turn.totalReceivedSize = r.totalReceivedSize := by
  obtain ⟨-, going, -⟩ := Receiver.done_eq_false.mp notDone
  have taken := Receiver.turn_taken notDone
  generalize r.turn = s at taken ⊢
  generalize r.readPacket.1 = good, r.readPacket.2 = q at taken lost
  obtain ⟨rfl, lost⟩ := lost
  cases taken with
  | lost _ _ after => exact ⟨after.done.trans rfl, after.flags.1.trans going, after.flags.2.2.2.2.1⟩
  | bad sync => exact absurd (lost.symm.trans sync) (by decide)

/-- The turn that reads the end of the session, when it is not the first. -/
theorem turn_of_eot (notDone : r.done = false) (counted : r.numReceivedPackets ≠ 0)
    (quiet : ∀ char ∈ e.before, Receiver.startSignal char = .other) (few : e.before.length < 20)
    (line : r.line = (e.before ++ [some xymodemEot]) ++ₛ rest) :
    Receiver.After r { r.toXYModemState with
      eotReceived := true, numReceivedPackets := r.numReceivedPackets + 1
      endOfSession := true } r.turn := by
  obtain ⟨good, eot, going⟩ := Receiver.readPacket_eot notDone quiet few line
  have taken := Receiver.turn_taken notDone
  generalize r.turn = s at taken ⊢
  generalize r.readPacket.1 = result, r.readPacket.2 = q at taken good eot going
  cases taken with
  | lost _ _ _ | bad _ _ _ => cases good
  | aborted signal => exact absurd (signal.symm.trans going) (by decide)
  | eotFirst uncounted | header uncounted => exact absurd uncounted counted
  | data _ _ notEot => exact absurd (eot.symm.trans notEot) (by decide)
  | rejected _ first => exact absurd (first eot) counted
  | ended _ _ after => exact after

/-- The end of the session, once all packets are accepted. -/
theorem Progress.ended (progress : Progress t first t.packets.length t.packets.length r)
    (quiet : ∀ char ∈ e.before, Receiver.startSignal char = .other) (few : e.before.length < 20)
    (line : r.line = (e.before ++ [some xymodemEot]) ++ₛ rest) :
    Progresses t first i e r.turn := by
  have after := turn_of_eot progress.notDone progress.counted quiet few line
  refine .inr ⟨after.done.trans (by simp), fun _ => ?_⟩
  obtain ⟨-, -, -, -, total, -⟩ := after.flags
  unfold Transfer.Stored
  rw [after.buffer, total]
  refine progress.stored.trans ?_
  rw [List.take_length]

theorem Progress.turn (progress : Progress t first i n r) (possible : t.Possible i e)
    (line : r.line = (e.before ++ t.frame i e.arrival) ++ₛ rest) : Progresses t first i e r.turn := by
  by_cases few : e.before.length < 20
  · cases sent : t.packets[i]? with
    | none =>
      have last : t.packets.length ≤ i := List.getElem?_eq_none_iff.mp sent
      have all : i = t.packets.length ∧ n = t.packets.length := by
        have := progress.sender
        have := progress.bound
        omega
      obtain ⟨rfl, rfl⟩ := all
      unfold Transfer.frame at line
      rw [sent] at line
      exact progress.ended possible.1 few line
    | some block =>
      obtain ⟨body, q, read, refused, -⟩ | ⟨-, expected, q, read, -⟩ :=
        frame_cases progress.notDone progress.going sent possible few line
      · rw [refused]
        exact .inl ⟨n, progress.refused read⟩
      · rw [progress.expected] at expected
        -- The packet before is one that is expected no more.
        obtain rfl | before := progress.sender
        · exact progress.accepted sent read
        · rw [← before, BitVec.ofNat_add] at expected
          exact absurd expected.symm (by simp)
  · rw [Stream'.append_append_stream] at line
    have lost := Receiver.readPacket_lost progress.notDone possible.1 (Nat.not_lt.mp few) line
    obtain ⟨done, notEnded, -⟩ := turn_of_lost progress.notDone lost
    exact .inr ⟨done, fun ended => absurd (ended.symm.trans notEnded) (by decide)⟩

/-- The first turn of a session makes progress, or ends it: the header is taken as one if it arrives
intact. -/
theorem AtStart.turn (atStart : AtStart r) (possible : t.Possible 0 e)
    (line : r.line = (e.before ++ t.frame 0 e.arrival) ++ₛ rest) :
    (e.arrival = .intact → Progresses t true 0 e r.turn) ∧
      (e.arrival ≠ .intact → Progresses t false 0 e r.turn) := by
  by_cases few : e.before.length < 20
  · obtain ⟨body, q, read, refused, unexpected⟩ | ⟨intact, -, q, read, -⟩ :=
      frame_cases atStart.notDone atStart.going t.sent_header possible few line
    · refine ⟨fun intact => ?_, fun _ => ?_⟩
      · exact absurd atStart.expected.symm (unexpected intact)
      · rw [refused]
        exact .inl ⟨0, atStart.refused read⟩
    · exact ⟨fun _ => atStart.accepted read, absurd intact⟩
  · rw [Stream'.append_append_stream] at line
    have lost := Receiver.readPacket_lost atStart.notDone possible.1 (Nat.not_lt.mp few) line
    obtain ⟨done, notEnded, -⟩ := turn_of_lost atStart.notDone lost
    have progress : ∀ first, Progresses t first 0 e r.turn := fun _ =>
      .inr ⟨done, fun ended => absurd (ended.symm.trans notEnded) (by decide)⟩
    exact ⟨fun _ => progress true, fun _ => progress false⟩

theorem receiveLoop_of_done {turns : ℕ} (done : r.done = true) : r.receiveLoop turns = r := by
  cases turns with
  | zero => rfl
  | succ turns => rw [Receiver.receiveLoop, if_neg (Receiver.not_waits_of_done done)]

theorem replicate_append_const {α : Type} {a : α} (n : ℕ) :
    List.replicate n a ++ₛ Stream'.const a = Stream'.const a := by
  induction n with
  | zero => rfl
  | succ n ih => rw [List.replicate_succ, Stream'.cons_append_stream, ih, ← Stream'.const_eq]

/-- A sender that stops ends the session without an end of file. -/
theorem turn_of_silence (notDone : r.done = false) (silent : r.line = Stream'.const none) :
    r.turn.done = true ∧ r.turn.endOfSession = false ∧
      r.turn.totalReceivedSize = r.totalReceivedSize := by
  have line := silent.trans (replicate_append_const 20).symm
  refine turn_of_lost notDone (Receiver.readPacket_lost notDone ?_ ?_ line)
  · intro char present
    rw [List.eq_of_mem_replicate present]
    rfl
  · exact (List.length_replicate ..).ge

/-- What holds at the end of a session holds if it does after the next turn. -/
theorem holds_of_turn {P : Receiver → Prop} {turns : ℕ} (notDone : r.done = false)
    (ended : (r.receiveLoop turns).endOfSession = true)
    (rest : ∀ turns, (r.turn.receiveLoop turns).endOfSession = true →
      P (r.turn.receiveLoop turns)) : P (r.receiveLoop turns) := by
  obtain ⟨-, going, -⟩ := Receiver.done_eq_false.mp notDone
  cases turns with
  | zero => exact absurd (ended.symm.trans going) (by decide)
  | succ turns =>
    rw [Receiver.receiveLoop] at ended ⊢
    split at ended
    · rw [if_pos ‹_›]
      exact rest turns ended
    · exact absurd (ended.symm.trans going) (by decide)

/-- After a turn that progresses, what the rest of the session stores. -/
theorem Progresses.stored {turns : ℕ} (progresses : Progresses t first i e r)
    (ended : (r.receiveLoop turns).endOfSession = true)
    (rest : ∀ n, Progress t first (nextPacket i e r) n r → t.Stored first (r.receiveLoop turns)) :
    t.Stored first (r.receiveLoop turns) := by
  obtain ⟨n, progress⟩ | ⟨done, stored⟩ := progresses
  · exact rest n progress
  · rw [receiveLoop_of_done done] at ended ⊢
    exact stored ended

theorem Session.stored {events : List Transmission} {turns : ℕ} (session : Session t i r events)
    (progress : Progress t first i n r)
    (ended : (r.receiveLoop turns).endOfSession = true) : t.Stored first (r.receiveLoop turns) := by
  induction session generalizing n turns with
  | closed left =>
    obtain ⟨-, going, -⟩ := Receiver.done_eq_false.mp progress.notDone
    cases turns with
    | zero => exact absurd (ended.symm.trans going) (by decide)
    | succ turns =>
      rw [Receiver.receiveLoop, if_neg left] at ended
      exact absurd (ended.symm.trans going) (by decide)
  | stopped silent =>
    obtain ⟨done, notEnded, -⟩ := turn_of_silence progress.notDone silent
    refine holds_of_turn progress.notDone ended fun turns ended => ?_
    rw [receiveLoop_of_done done] at ended
    exact absurd (ended.symm.trans notEnded) (by decide)
  | send possible line _ ih =>
    refine holds_of_turn progress.notDone ended fun turns ended => ?_
    exact (progress.turn possible line).stored ended fun n progress => ih progress ended

/-- What is stored when a session ends: the header is in it unless it arrived intact at first. -/
theorem Session.stored_of_atStart {events : List Transmission} {turns : ℕ}
    (session : Session t 0 r events) (atStart : AtStart r) (waits : r.Waits)
    (ended : (r.receiveLoop turns).endOfSession = true) :
    ∃ e ∈ events.head?, (e.arrival = .intact → t.Stored true (r.receiveLoop turns)) ∧
      (e.arrival ≠ .intact → t.Stored false (r.receiveLoop turns)) := by
  cases session with
  | closed left => exact absurd waits left
  | stopped silent =>
    obtain ⟨done, notEnded, -⟩ := turn_of_silence atStart.notDone silent
    refine False.elim (holds_of_turn (P := fun _ => False) atStart.notDone ended fun turns ended => ?_)
    rw [receiveLoop_of_done done] at ended
    exact absurd (ended.symm.trans notEnded) (by decide)
  | @send _ _ e events _ possible line later =>
    refine ⟨e, rfl, fun intact => ?_, fun spoilt => ?_⟩
    · refine holds_of_turn atStart.notDone ended fun turns ended => ?_
      exact ((atStart.turn possible line).1 intact).stored ended fun n progress =>
        later.stored progress ended
    · refine holds_of_turn atStart.notDone ended fun turns ended => ?_
      exact ((atStart.turn possible line).2 spoilt).stored ended fun n progress =>
        later.stored progress ended

end Hss
