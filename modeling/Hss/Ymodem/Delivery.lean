import Hss.Ymodem.Session

/-! What a session delivers, and the sessions without a fault. -/

namespace Hss

variable {t : Transfer} {first : Bool} {i n : ℕ} {e : Transmission} {r q : Receiver} {rest : Line}
  {block : Block}

/-! ### Sessions without a fault -/

theorem firstBytes_prefix (buffer : ℕ → BitVec 8) {m n : ℕ} (within : m ≤ n) :
    ∃ rest, firstBytes buffer n = firstBytes buffer m ++ rest := by
  obtain ⟨k, rfl⟩ := Nat.exists_eq_add_of_le within
  unfold firstBytes
  rw [List.range_add, List.map_append]
  exact ⟨_, rfl⟩

/-- A transmission without a fault. -/
def faultless : Transmission := ⟨[], .intact, false⟩

theorem faultless_possible : t.Possible i faultless := ⟨nofun, nofun⟩

/-- The frames of the packets from `n` on, of which `k` are left, and the end of the session. -/
def Transfer.framesFrom (t : Transfer) (n : ℕ) : ℕ → List (Option (BitVec 8))
  | 0 => t.frame n .intact
  | k + 1 => t.frame n .intact ++ t.framesFrom (n + 1) k

theorem takePacket_data (notDone : r.done = false) (notHeader : ¬ r.IsHeader)
    (going : r.eotReceived = false) : r.takePacket = (r.putchar xymodemAck).takeData := by
  have open' : (!(r.putchar xymodemAck).done) = true := congrArg (!·) notDone
  have eot : ¬ (r.putchar xymodemAck).eotReceived = true := by
    rw [show (r.putchar xymodemAck).eotReceived = false from going]
    decide
  unfold Receiver.takePacket
  dsimp only
  rw [if_pos open', if_neg (show ¬ (r.putchar xymodemAck).IsHeader from notHeader), if_neg eot]

theorem takePacket_header (notDone : r.done = false) (isHeader : r.IsHeader) :
    r.takePacket = (r.putchar xymodemAck).takeHeader := by
  have open' : (!(r.putchar xymodemAck).done) = true := congrArg (!·) notDone
  unfold Receiver.takePacket
  dsimp only
  rw [if_pos open', if_pos (show (r.putchar xymodemAck).IsHeader from isHeader)]

theorem takeHeader_fits
    (fits : (Receiver.getFileSize true 0
      (firstBytes r.packet.buffer Receiver.packetBufferSize)).toNat ≤ r.maxSize) :
    ∃ filename expectedSize, r.takeHeader = { r with
      filename := filename
      expectedSize := expectedSize } := by
  unfold Receiver.takeHeader
  dsimp only
  rw [if_neg (Nat.not_lt.mpr fits)]
  exact ⟨_, _, rfl⟩

theorem ValidRead.notDone (read : ValidRead r q block) (notDone : r.done = false) :
    q.done = false := by
  obtain ⟨inSync, open', notAborted⟩ := Receiver.done_eq_false.mp notDone
  exact read.after.done.trans (by simp [Receiver.acceptPacket, inSync, open', notAborted])

/-- The receiver has acknowledged the packet that the reader took from the line. -/
structure Acked (q s : Receiver) : Prop where
  sent : s.sent.head? = some xymodemAck
  line : s.line = q.line

/-- A block of data that fits is stored and acknowledged. -/
theorem ValidRead.turn_data (read : ValidRead r q block) (notDone : r.done = false)
    (counted : r.numReceivedPackets ≠ 0) (going : r.eotReceived = false)
    (fits : r.totalReceivedSize + block.data.length < r.maxSize) :
    Receiver.After { r with buffer := writeBuffer r.buffer r.totalReceivedSize block.data }
        { r.acceptPacket with totalReceivedSize := r.totalReceivedSize + block.data.length }
        r.turn ∧ Acked q r.turn := by
  obtain ⟨-, -, eot, count, total, size⟩ := read.after.flags
  have notHeader : ¬ q.IsHeader := fun isHeader =>
    counted (Nat.succ.inj (count.symm.trans isHeader.2.2))
  have room : (q.putchar xymodemAck).totalReceivedSize + (q.putchar xymodemAck).packet.length <
      (q.putchar xymodemAck).maxSize := by
    show q.totalReceivedSize + q.packet.length < q.maxSize
    rw [total, size, read.length]
    exact fits
  have stored : r.turn = { q.putchar xymodemAck with
      buffer := writeBuffer q.buffer q.totalReceivedSize (firstBytes q.packet.buffer q.packet.length)
      totalReceivedSize := q.totalReceivedSize + q.packet.length } := by
    unfold Receiver.turn
    rw [read.good, if_pos rfl, takePacket_data (read.notDone notDone) notHeader (eot.trans going)]
    unfold Receiver.takeData
    rw [if_pos room]
    rfl
  rw [stored, read.data, read.length, read.after.buffer, total]
  refine ⟨⟨?_, rfl, read.after.retries⟩, rfl, rfl⟩
  exact congrArg (fun state : XYModemState => { state with
    totalReceivedSize := r.totalReceivedSize + block.data.length }) read.after.state

/-- A header whose size fits is taken as one, and acknowledged. -/
theorem ValidRead.turn_header (read : ValidRead r q block) (atStart : AtStart r)
    (fits : ∀ rest, (Receiver.getFileSize true 0 (block.data ++ rest)).toNat ≤ r.maxSize) :
    (∃ filename expectedSize,
      Receiver.After r { r.acceptPacket with filename, expectedSize } r.turn) ∧
      Acked q r.turn := by
  obtain ⟨-, -, -, -, -, size⟩ := read.after.flags
  have room : (Receiver.getFileSize true 0
      (firstBytes q.packet.buffer Receiver.packetBufferSize)).toNat ≤ q.maxSize := by
    have within : q.packet.length ≤ Receiver.packetBufferSize := by
      rw [read.length]
      rcases block.length with short | long
      · rw [short]
        decide
      · rw [long]
        decide
    obtain ⟨rest, parts⟩ := firstBytes_prefix q.packet.buffer within
    rw [parts, read.data, size]
    exact fits rest
  obtain ⟨filename, expectedSize, taken⟩ := takeHeader_fits (r := q.putchar xymodemAck) room
  have turned : r.turn = { q.putchar xymodemAck with
      filename := filename
      expectedSize := expectedSize } := by
    unfold Receiver.turn
    rw [read.good, if_pos rfl, takePacket_header (read.notDone atStart.notDone) (read.isHeader atStart),
      taken]
  rw [turned]
  refine ⟨⟨filename, expectedSize, ?_, read.after.buffer, read.after.retries⟩, rfl, rfl⟩
  exact congrArg (fun state : XYModemState => { state with
    filename := filename
    expectedSize := expectedSize }) read.after.state

theorem nextPacket_of_ack (acked : Acked q r) : nextPacket i faultless r = i + 1 :=
  if_pos ⟨acked.sent, rfl⟩

/-- The packet `n` was accepted in the turn from `r` to `s`, which stores `size` bytes of it. -/
structure Advanced (t : Transfer) (first : Bool) (n size : ℕ) (rest : Line) (r s : Receiver) :
    Prop where
  progress : Progress t first (n + 1) (n + 1) s
  next : nextPacket n faultless s = n + 1
  line : s.line = rest
  retries : s.retries = r.retries
  total : s.totalReceivedSize = r.totalReceivedSize + size
  maxSize : s.maxSize = r.maxSize

/-- A packet of a session in progress that arrives and fits is accepted. -/
theorem Progress.advance (progress : Progress t first n n r) (sent : t.packets[n]? = some block)
    (fits : r.totalReceivedSize + block.data.length < r.maxSize)
    (line : r.line = t.frame n .intact ++ₛ rest) :
    Advanced t first n block.data.length rest r r.turn := by
  obtain ⟨_, _, _, _, unexpected⟩ | ⟨-, -, q, read, left⟩ :=
    frame_cases progress.notDone progress.going sent (faultless_possible (i := n)) (Nat.succ_pos 19)
      line
  · exact absurd progress.expected.symm (unexpected rfl)
  · obtain ⟨after, acked⟩ := read.turn_data progress.notDone progress.counted progress.going fits
    obtain ⟨-, -, -, -, total, size⟩ := after.flags
    have progress' := progress.taken (e := Hss.faultless) sent after
    have next : nextPacket n Hss.faultless r.turn = n + 1 := nextPacket_of_ack acked
    rw [next] at progress'
    exact ⟨progress', next, acked.line.trans left, after.retries, total, size⟩

/-- A header that arrives first, and whose size fits, is accepted, and nothing is stored. -/
theorem AtStart.advance (atStart : AtStart r)
    (announced : ∀ rest, (Receiver.getFileSize true 0 (t.header.data ++ rest)).toNat ≤ r.maxSize)
    (line : r.line = t.frame 0 .intact ++ₛ rest) : Advanced t true 0 0 rest r r.turn := by
  obtain ⟨_, _, _, _, unexpected⟩ | ⟨-, -, q, read, left⟩ :=
    frame_cases atStart.notDone atStart.going t.sent_header (faultless_possible (i := 0))
      (Nat.succ_pos 19) line
  · exact absurd atStart.expected.symm (unexpected rfl)
  · obtain ⟨⟨_, _, after⟩, acked⟩ := read.turn_header atStart announced
    obtain ⟨-, -, -, -, total, size⟩ := after.flags
    have progress := atStart.taken (t := t) (e := Hss.faultless) after
    have next : nextPacket 0 Hss.faultless r.turn = 1 := nextPacket_of_ack acked
    rw [next] at progress
    exact ⟨progress, next, acked.line.trans left, after.retries, total, size⟩

/-- When the main loop ends, it ends with the end of the session. -/
def Receiver.Ends (r : Receiver) : Prop :=
  ∀ turns, ¬ (r.receiveLoop turns).Waits → (r.receiveLoop turns).endOfSession = true

theorem ends_of_ended (ended : r.endOfSession = true) : r.Ends := by
  intro turns _
  rw [receiveLoop_of_done (by simp [Receiver.done, ended])]
  exact ended

theorem receiveLoop_of_waits {turns : ℕ} (waits : r.Waits) (exits : ¬ (r.receiveLoop turns).Waits) :
    ∃ left, r.receiveLoop turns = r.turn.receiveLoop left := by
  cases turns with
  | zero => exact absurd waits exits
  | succ left => exact ⟨left, if_pos waits⟩

theorem ends_of_turn (waits : r.Waits) (rest : r.turn.Ends) : r.Ends := by
  intro turns exits
  obtain ⟨left, same⟩ := receiveLoop_of_waits waits exits
  rw [same] at exits ⊢
  exact rest left exits

/-- From a packet on, a session without a fault goes on to its end, when the rest of the file fits. -/
theorem Progress.faultless {k : ℕ} (progress : Progress t first n n r)
    (left : n + k = t.packets.length) (few : r.retries < 10)
    (fits : r.totalReceivedSize + ((t.packets.drop n).map (·.data.length)).sum < r.maxSize)
    (line : r.line = t.framesFrom n k ++ₛ Stream'.const none) :
    Session t n r (List.replicate (k + 1) faultless) ∧ r.Ends := by
  have waits : r.Waits := ⟨progress.notDone, few⟩
  induction k generalizing n r with
  | zero =>
    have sent : t.frame n .intact = [some xymodemEot] := by
      unfold Transfer.frame
      rw [List.getElem?_eq_none (show t.packets.length ≤ n from left.ge)]
    have after := turn_of_eot (e := Hss.faultless) progress.notDone progress.counted nofun
      (Nat.succ_pos 19) (line.trans (congrArg (· ++ₛ _) sent))
    have left : ¬ r.turn.Waits := Receiver.not_waits_of_done (after.done.trans (by simp))
    exact ⟨.send faultless_possible line (.closed left),
      ends_of_turn waits (ends_of_ended after.flags.1)⟩
  | succ k ih =>
    have within : n < t.packets.length := by omega
    rw [List.drop_eq_getElem_cons within, List.map_cons, List.sum_cons, ← Nat.add_assoc] at fits
    rw [Transfer.framesFrom, Stream'.append_append_stream] at line
    have advanced := progress.advance (List.getElem?_eq_getElem within)
      (Nat.lt_of_le_of_lt (Nat.le_add_right ..) fits) line
    have few' : r.turn.retries < 10 := advanced.retries.trans_lt few
    obtain ⟨session, ends⟩ := ih advanced.progress (by omega) few'
      (by rw [advanced.total, advanced.maxSize]; exact fits) advanced.line
      ⟨advanced.progress.notDone, few'⟩
    rw [← advanced.next] at session
    exact ⟨.send faultless_possible line session, ends_of_turn waits ends⟩

/-- A session without a fault ends with the end of the file, when its header and its file fit. -/
theorem AtStart.faultless (atStart : AtStart r) (few : r.retries < 10)
    (announced : ∀ rest, (Receiver.getFileSize true 0 (t.header.data ++ rest)).toNat ≤ r.maxSize)
    (fits : (t.blocks.map (·.data.length)).sum < r.maxSize)
    (line : r.line = t.framesFrom 0 t.packets.length ++ₛ Stream'.const none) :
    Session t 0 r (List.replicate (t.packets.length + 1) Hss.faultless) ∧ r.Ends := by
  rw [show t.packets.length = t.blocks.length + 1 from rfl, Transfer.framesFrom,
    Stream'.append_append_stream] at line
  have advanced := atStart.advance announced line
  have room : r.turn.totalReceivedSize + ((t.packets.drop 1).map (·.data.length)).sum <
      r.turn.maxSize := by
    rw [advanced.total, atStart.empty, advanced.maxSize, Nat.zero_add]
    exact fits
  obtain ⟨session, ends⟩ := advanced.progress.faultless (k := t.blocks.length) (Nat.add_comm ..)
    (advanced.retries.trans_lt few) room advanced.line
  rw [← advanced.next] at session
  exact ⟨.send faultless_possible line session, ends_of_turn ⟨atStart.notDone, few⟩ ends⟩

/-- A frame that is spoilt is taken from the line, with the timeout in which the line is purged. -/
theorem turn_line_of_corrupt (notDone : r.done = false) (going : r.eotReceived = false) {block : Block}
    (sent : t.packets[i]? = some block) (spoilt : e.arrival ≠ .intact) (possible : t.Possible i e)
    (few : e.before.length < 20)
    (line : r.line = (e.before ++ t.frame i e.arrival) ++ₛ Stream'.cons none rest) :
    r.turn.line = rest := by
  obtain ⟨body, q, read, refused, -⟩ | ⟨intact, -⟩ :=
    frame_cases notDone going sent possible few line
  · have counted : q.numReceivedPackets ≠ 0 := by
      rw [read.after.flags.2.2.2.1]
      exact Nat.succ_ne_zero _
    have silent : ({ q with retries := q.retries + 1 } : Receiver).getchar.1 = none := by
      unfold Receiver.getchar
      rw [read.line]
      rfl
    rw [refused]
    unfold Receiver.refusePacket
    rw [if_pos counted, Receiver.purge, silent]
    show q.line.tail = rest
    rw [read.line]
    rfl
  · exact absurd intact spoilt

/-- A session in which the header is spoilt at first ends with the end of the file, when its packets
fit. -/
theorem AtStart.spoilt (atStart : AtStart r) (few : r.retries < 9) (spoilt : e.arrival ≠ .intact)
    (possible : t.Possible 0 e) (short : e.before.length < 20)
    (fits : (t.packets.map (·.data.length)).sum < r.maxSize)
    (line : r.line = (e.before ++ t.frame 0 e.arrival) ++ₛ
      Stream'.cons none (t.framesFrom 0 t.packets.length ++ₛ Stream'.const none)) :
    Session t 0 r (e :: List.replicate (t.packets.length + 1) Hss.faultless) ∧ r.Ends := by
  have waits : r.Waits := ⟨atStart.notDone, Nat.lt_succ_of_lt few⟩
  have left := turn_line_of_corrupt atStart.notDone atStart.going t.sent_header spoilt possible
    short line
  obtain ⟨body, q, read, refused, -⟩ | ⟨intact, -⟩ :=
    frame_cases atStart.notDone atStart.going t.sent_header possible short line
  · have progress := atStart.refused (t := t) (e := e) read
    have counted : q.numReceivedPackets ≠ 0 := by
      rw [read.after.flags.2.2.2.1]
      exact Nat.succ_ne_zero _
    have again : nextPacket 0 e q.refusePacket = 0 :=
      nextPacket_of_nak (Receiver.refusePacket_sent counted)
    have after := Receiver.refusePacket_after read.after
    obtain ⟨-, -, -, -, total, size⟩ := after.flags
    have retries : q.refusePacket.retries < 10 := after.retries.trans_lt (Nat.succ_lt_succ few)
    rw [again, ← refused] at progress
    rw [← refused] at again total size retries
    have room : r.turn.totalReceivedSize + ((t.packets.drop 0).map (·.data.length)).sum <
        r.turn.maxSize := by
      rw [total.trans atStart.empty, size, Nat.zero_add]
      exact fits
    obtain ⟨session, ends⟩ := progress.faultless (Nat.zero_add _) retries room left
    rw [← again] at session
    exact ⟨.send possible line session, ends_of_turn waits ends⟩
  · exact absurd intact spoilt

variable {buffer : ℕ → BitVec 8} {bufferSize : Word} {line : Line}

theorem startReceiver_atStart : AtStart (startReceiver .ymodem buffer bufferSize line) :=
  ⟨rfl, rfl, rfl, rfl, rfl, rfl⟩

/-- What the buffer holds when a session has ended: before the file comes its header, unless that was
the first frame, and intact. -/
theorem ymodemReceive_stored {events : List Transmission}
    (session : Session t 0 (startReceiver .ymodem buffer bufferSize line) events)
    (ended : (ymodemReceive buffer bufferSize line).2.endOfSession = true) :
    ∃ e ∈ events.head?, firstBytes (ymodemReceive buffer bufferSize line).2.buffer
        (ymodemReceive buffer bufferSize line).2.totalReceivedSize =
      (if e.arrival = .intact then [] else t.header.data) ++ (t.file ++ t.padding) := by
  have purged := Receiver.purge_same (r := (startReceiver .ymodem buffer bufferSize line).receiveLoop
    (bufferSize.toNat + 12)) 10
  obtain ⟨flag, -, -, -, total, -⟩ := purged.flags
  unfold ymodemReceive xymodemReceive at ended ⊢
  dsimp only at ended ⊢
  rw [flag] at ended
  rw [purged.buffer, total, ← t.contents]
  obtain ⟨e, head, good, bad⟩ :=
    session.stored_of_atStart startReceiver_atStart startReceiver_waits ended
  refine ⟨e, head, ?_⟩
  by_cases intact : e.arrival = .intact
  · rw [if_pos intact]
    exact good intact
  · rw [if_neg intact]
    exact bad intact

/-- Whenever a session ends with the end of the file, the buffer holds the file and the padding of its
last packet exactly when the first frame that the receiver read was the header, intact: if it was
spoilt, the header that is sent again is stored before the file. -/
theorem ymodemReceive_delivers_iff {t : Transfer} {events : List Transmission}
    (session : Session t 0 (startReceiver .ymodem buffer bufferSize line) events)
    (ended : (ymodemReceive buffer bufferSize line).2.endOfSession = true) :
    firstBytes (ymodemReceive buffer bufferSize line).2.buffer
        (ymodemReceive buffer bufferSize line).2.totalReceivedSize = t.file ++ t.padding ↔
      ∀ e ∈ events.head?, e.arrival = .intact := by
  obtain ⟨e, head, stored⟩ := ymodemReceive_stored session ended
  rw [stored]
  constructor
  · intro delivered e' head'
    cases Option.some.inj (head.symm.trans head')
    by_contra spoilt
    rw [if_neg spoilt] at delivered
    exact t.header.data_ne_nil (List.append_left_eq_self.mp delivered)
  · intro intact
    rw [if_pos (intact e head)]
    rfl

/-! ### Two sessions -/

theorem ymodemReceive_ended (ends : (startReceiver .ymodem buffer bufferSize line).Ends) :
    (ymodemReceive buffer bufferSize line).2.endOfSession = true :=
  (Receiver.purge_same _).flags.1.trans (ends _ xymodemReceive_exits)

def threeBytesBlock : Block := ⟨[1, 2, 3] ++ List.replicate 125 0x1A, .inl rfl⟩

theorem threeBytesBlock_length : threeBytesBlock.data.length = 128 := by simp [threeBytesBlock]

/-- A file of three bytes, in one block. -/
def threeBytes : Transfer where
  header := ⟨[0x61, 0, 0x33] ++ List.replicate 125 0, .inl rfl⟩
  blocks := [threeBytesBlock]
  file := [1, 2, 3]
  padding := List.replicate 125 0x1A
  contents := rfl
  padded := by
    intro last found
    have only : some threeBytesBlock = some last := found
    rw [← Option.some.inj only, threeBytesBlock_length, List.length_replicate]
    decide

/-- The line of a session in which all three frames arrive, after `first`. -/
def threeBytesLine : Line := threeBytes.framesFrom 0 2 ++ₛ Stream'.const none

theorem threeBytes_announced (rest : Bytes) :
    (Receiver.getFileSize true 0 (threeBytes.header.data ++ rest)).toNat ≤ 1024 := by
  show (3 : Word).toNat ≤ 1024
  decide

theorem threeBytes_length :
    threeBytes.header.data.length = 128 ∧ (threeBytes.blocks.map (·.data.length)).sum = 128 := by
  simp [threeBytes, threeBytesBlock_length]

theorem threeBytes_faultless :
    Session threeBytes 0 (startReceiver .ymodem (fun _ => 0) 1024 threeBytesLine)
        (List.replicate 3 faultless) ∧
      (startReceiver .ymodem (fun _ => 0) 1024 threeBytesLine).Ends :=
  startReceiver_atStart.faultless (Nat.succ_pos 9) threeBytes_announced
    (by rw [threeBytes_length.2]; decide) rfl

theorem ymodemReceive_delivers_threeBytes :
    firstBytes (ymodemReceive (fun _ => 0) 1024 threeBytesLine).2.buffer
        (ymodemReceive (fun _ => 0) 1024 threeBytesLine).2.totalReceivedSize =
      threeBytes.file ++ threeBytes.padding :=
  (ymodemReceive_delivers_iff threeBytes_faultless.1 (ymodemReceive_ended threeBytes_faultless.2)).mpr
    fun _ head => by cases head; rfl

/-- A header that is spoilt, with a number and its complement that do not fit. -/
def spoiltHeader : Transmission := ⟨[], .corrupt (List.replicate 132 (some 0)), false⟩

/-- The line of a session in which the header is spoilt at first. -/
def spoiltLine : Line :=
  threeBytes.frame 0 spoiltHeader.arrival ++ₛ Stream'.cons none threeBytesLine

theorem threeBytes_spoilt :
    Session threeBytes 0 (startReceiver .ymodem (fun _ => 0) 1024 spoiltLine)
        (spoiltHeader :: List.replicate 3 faultless) ∧
      (startReceiver .ymodem (fun _ => 0) 1024 spoiltLine).Ends := by
  have possible : threeBytes.Possible 0 spoiltHeader := by
    refine ⟨nofun, fun body spoilt => ⟨threeBytes.header, rfl, ?_⟩⟩
    cases spoilt
    rw [threeBytes_length.1]
    exact ⟨List.length_replicate .., .inr (by decide)⟩
  have fits : (threeBytes.packets.map (·.data.length)).sum < (1024 : Word).toNat := by
    rw [Transfer.packets, List.map_cons, List.sum_cons, threeBytes_length.1, threeBytes_length.2]
    decide
  exact startReceiver_atStart.spoilt (Nat.succ_pos 8) (by decide) possible (Nat.succ_pos 19) fits rfl

/-- The header that is sent again is stored before the file, and counted with it. -/
theorem ymodemReceive_spoiltHeader :
    Session threeBytes 0 (startReceiver .ymodem (fun _ => 0) 1024 spoiltLine)
        (spoiltHeader :: List.replicate 3 faultless) ∧
      (ymodemReceive (fun _ => 0) 1024 spoiltLine).2.endOfSession = true ∧
      firstBytes (ymodemReceive (fun _ => 0) 1024 spoiltLine).2.buffer
          (ymodemReceive (fun _ => 0) 1024 spoiltLine).2.totalReceivedSize ≠
        threeBytes.file ++ threeBytes.padding := by
  obtain ⟨session, ends⟩ := threeBytes_spoilt
  have ended := ymodemReceive_ended ends
  obtain ⟨e, head, stored⟩ := ymodemReceive_stored session ended
  cases head
  rw [if_neg (by decide)] at stored
  refine ⟨session, ended, fun delivered => ?_⟩
  exact threeBytes.header.data_ne_nil (List.append_left_eq_self.mp (stored.symm.trans delivered))

end Hss
