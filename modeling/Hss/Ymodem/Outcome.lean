import Hss.Ymodem.Delivery

/-! When a size that the receiver reports is that of a whole file. -/

namespace Hss

namespace Receiver

variable {r t : Receiver}

/-- The receivers at the turns that the main loop takes. -/
def turnsTaken : ℕ → Receiver → List Receiver
  | 0, _ => []
  | turns + 1, r => if r.Waits then r :: turnsTaken turns r.turn else []

/-- The first packet in turn that the main loop takes, unless the end of the session comes before. -/
def firstBlock : ℕ → Receiver → Option Bytes
  | 0, _ => none
  | turns + 1, r =>
      if r.Waits then
        if r.readPacket.1 && !r.readPacket.2.done && !r.readPacket.2.eotReceived then
          some (firstBytes r.readPacket.2.packet.buffer r.readPacket.2.packet.length)
        else firstBlock turns r.turn
      else none

/-- The bytes that are stored are as many as were announced: not fewer than a size that was read from
the header, or without such a size, or with fewer of them, just as many. -/
def StoredAll (r : Receiver) (announced : ℕ) : Prop :=
  if r.expectedSize ≠ 0 ∧ r.expectedSize.toNat ≤ r.totalReceivedSize then
    announced = r.expectedSize.toNat
  else announced = r.totalReceivedSize

/-- A read does not break off a transfer of which bytes are stored: the reader does not lose
synchronization, the packet is not the tenth bad one, and the session ends only when the bytes are as
many as were announced.  `good` and `q` are the reader's result and the receiver after it. -/
structure GoodRead (announced : Option ℕ) (r : Receiver) (good : Bool) (q : Receiver) : Prop where
  inSync : 0 < r.totalReceivedSize → q.syncFail = true → q.abort = true
  retries : 0 < r.totalReceivedSize → good = false → r.retries + 1 < 10
  complete : 0 < r.totalReceivedSize → q.eotReceived = true → ∀ size ∈ announced, r.StoredAll size

/-- The read of a turn does not break off the transfer. -/
abbrev GoodTurn (announced : Option ℕ) (r : Receiver) : Prop :=
  GoodRead announced r r.readPacket.1 r.readPacket.2

/-- What the size `n` that the receiver reports promises of a session. -/
def WholeFile (announced : Option ℕ) (n : ℕ) (r : Receiver) : Prop :=
  0 < n → r.endOfSession = true ∧ r.abort = false ∧ r.syncFail = false ∧ r.retries < 10 ∧
    ∀ size ∈ announced, n = size

theorem receivedSize_pos : 0 < r.receivedSize ↔ 0 < r.totalReceivedSize := by
  unfold receivedSize
  split
  · rename_i known
    have : 0 < r.expectedSize.toNat := Nat.pos_of_ne_zero fun zero =>
      known (BitVec.eq_of_toNat_eq zero)
    omega
  · rfl

theorem receivedSize_eq_iff {size : ℕ} : r.receivedSize = size ↔ r.StoredAll size := by
  unfold receivedSize StoredAll
  by_cases known : r.expectedSize = 0
  · simp [known, eq_comm]
  · by_cases all : r.expectedSize.toNat ≤ r.totalReceivedSize
    · rw [if_pos known, if_pos ⟨known, all⟩, Nat.min_eq_left all, eq_comm]
    · rw [if_pos known, if_neg fun both => all both.2, Nat.min_eq_right (Nat.le_of_not_le all), eq_comm]

/-- Nothing is stored before the first packet, nor after the end of the session. -/
structure InOrder (r : Receiver) : Prop where
  first : r.numReceivedPackets = 0 → r.totalReceivedSize = 0
  ended : r.eotReceived = true → r.totalReceivedSize = 0

variable {announced : Option ℕ} {good : Bool} {q : Receiver}

theorem GoodRead.of_empty (empty : r.totalReceivedSize = 0) : GoodRead announced r good q := by
  constructor <;> exact fun some => absurd empty (Nat.ne_of_gt some)

theorem wholeFile_of_empty (empty : r.totalReceivedSize = 0) :
    WholeFile announced r.receivedSize r := fun reported =>
  absurd empty (Nat.ne_of_gt (receivedSize_pos.mp reported))

theorem After.waits {state : XYModemState} (after : After r state t) (waits : r.Waits)
    (flags : (state.syncFail || state.endOfSession || state.abort) = false) : t.Waits :=
  ⟨after.done.trans flags, after.retries.trans_lt waits.2⟩

theorem TurnTaken.goodRead (taken : TurnTaken r good q t) (inOrder : r.InOrder)
    (still : t.Waits) : GoodRead announced r good q := by
  cases taken with
  | lost _ _ after => exact absurd still (after.not_waits rfl)
  | aborted _ _ abort | rejected _ _ abort => exact absurd still (not_waits_of_abort abort)
  | bad sync eot after =>
    refine ⟨fun _ lost => ?_, fun _ _ => ?_, fun _ ended => ?_⟩
    · exact absurd (lost.symm.trans sync) (by decide)
    · exact after.retries.symm.trans_lt still.2
    · exact absurd (ended.symm.trans eot) (by decide)
  | ended _ _ after => exact absurd still (after.not_waits (by simp))
  | eotFirst first | header first => exact .of_empty (inOrder.first first)
  | data _ sync eot =>
    refine ⟨fun _ lost => ?_, nofun, fun _ ended => ?_⟩
    · exact absurd (lost.symm.trans sync) (by decide)
    · exact absurd (ended.symm.trans eot) (by decide)

theorem wholeFile_iff_empty (broken : r.syncFail = true ∨ 10 ≤ r.retries) :
    WholeFile announced r.receivedSize r ↔ r.totalReceivedSize = 0 := by
  refine ⟨fun whole => ?_, wholeFile_of_empty⟩
  by_contra some
  obtain ⟨-, -, sync, few, -⟩ := whole (receivedSize_pos.mpr (Nat.pos_of_ne_zero some))
  rcases broken with lost | many
  · exact absurd (lost.symm.trans sync) (by decide)
  · exact absurd few (Nat.not_lt.mpr many)

/-- After the last turn, the reported size is that of a whole file exactly when the turn did not break
off the transfer. -/
theorem TurnTaken.wholeFile_iff (taken : TurnTaken r good q t) (inOrder : r.InOrder)
    (waits : r.Waits) (last : ¬ t.Waits) :
    WholeFile announced t.receivedSize t ↔ GoodRead announced r good q := by
  obtain ⟨inSync, going, notAborted⟩ := done_eq_false.mp waits.1
  cases taken with
  | lost sync notAborted after =>
    obtain ⟨-, -, -, -, total, -⟩ := after.flags
    rw [wholeFile_iff_empty (.inl after.syncFail), total]
    refine ⟨.of_empty, fun read => ?_⟩
    by_contra some
    have signal := read.inSync (Nat.pos_of_ne_zero some) sync
    exact absurd (signal.symm.trans notAborted) (by decide)
  | aborted signal eot _ _ empty =>
    refine iff_of_true (wholeFile_of_empty empty) ⟨fun _ _ => signal, nofun, fun some ended => ?_⟩
    exact absurd (inOrder.ended (eot.symm.trans ended)) (Nat.ne_of_gt some)
  | rejected sync eot _ _ empty =>
    refine iff_of_true (wholeFile_of_empty empty)
      ⟨fun _ lost => absurd (lost.symm.trans sync) (by decide), nofun, fun some ended => ?_⟩
    exact absurd (inOrder.first (eot ended)) (Nat.ne_of_gt some)
  | bad sync eot after =>
    obtain ⟨-, -, -, -, total, -⟩ := after.flags
    have retries : t.retries = r.retries + 1 := after.retries
    have tenth : 10 ≤ t.retries := by
      by_contra few
      exact last ⟨after.done.trans (by simp [inSync, going, notAborted]), Nat.not_le.mp few⟩
    rw [wholeFile_iff_empty (.inr tenth), total]
    refine ⟨.of_empty, fun read => ?_⟩
    by_contra some
    have more := read.retries (Nat.pos_of_ne_zero some) rfl
    omega
  | ended sync eot after =>
    obtain ⟨ended, abort, -, -, total, -⟩ := after.flags
    have expected : t.expectedSize = r.expectedSize :=
      (congrArg XYModemState.expectedSize after.state).trans rfl
    have stored : ∀ size, t.StoredAll size ↔ r.StoredAll size := fun size => by
      unfold StoredAll
      rw [expected, total]
    constructor
    · intro whole
      refine ⟨fun _ lost => absurd (lost.symm.trans sync) (by decide), nofun, fun some _ => ?_⟩
      obtain ⟨-, -, -, -, all⟩ := whole (receivedSize_pos.mpr (total ▸ some))
      exact fun size announced => (stored size).mp (receivedSize_eq_iff.mp (all size announced))
    · intro read reported
      refine ⟨ended, abort.trans notAborted, after.syncFail.trans inSync,
        after.retries.trans_lt waits.2, fun size announced => receivedSize_eq_iff.mpr ?_⟩
      exact (stored size).mpr
        (read.complete (total ▸ receivedSize_pos.mp reported) eot size announced)
  | eotFirst _ _ _ after | header _ _ _ _ after | data _ _ _ _ _ _ after =>
    exact absurd (after.waits waits (by simp [acceptPacket, inSync, going, notAborted])) last

theorem TurnTaken.inOrder (taken : TurnTaken r good q t) (inOrder : r.InOrder)
    (still : t.Waits) : t.InOrder := by
  cases taken with
  | lost _ _ after => exact absurd still (after.not_waits rfl)
  | aborted _ _ abort | rejected _ _ abort => exact absurd still (not_waits_of_abort abort)
  | bad _ _ after =>
    obtain ⟨-, -, eot, count, total, -⟩ := after.flags
    refine ⟨fun first => ?_, fun ended => total.trans (inOrder.ended (eot.symm.trans ended))⟩
    exact absurd (count.symm.trans first) (Nat.succ_ne_zero _)
  | ended _ _ after => exact absurd still (after.not_waits (by simp))
  | eotFirst first _ _ after | header first _ _ _ after =>
    obtain ⟨-, -, -, -, total, -⟩ := after.flags
    have empty := total.trans (inOrder.first first)
    exact ⟨fun _ => empty, fun _ => empty⟩
  | data _ _ _ going _ _ after =>
    obtain ⟨-, -, eot, count, -⟩ := after.flags
    refine ⟨fun first => absurd (count.symm.trans first) (Nat.succ_ne_zero _), fun ended => ?_⟩
    exact absurd (ended.symm.trans (eot.trans going)) (by decide)

/-- Once the main loop has ended by itself, the reported size is that of a whole file exactly when no
turn broke off the transfer. -/
theorem receiveLoop_wholeFile_iff {turns : ℕ} (inOrder : r.InOrder) (waits : r.Waits)
    (exits : ¬ (r.receiveLoop turns).Waits) :
    WholeFile announced (r.receiveLoop turns).receivedSize (r.receiveLoop turns) ↔
      ∀ turn ∈ r.turnsTaken turns, GoodTurn announced turn := by
  induction turns generalizing r with
  | zero => exact absurd waits exits
  | succ turns ih =>
    rw [receiveLoop, if_pos waits] at exits ⊢
    rw [turnsTaken, if_pos waits, List.forall_mem_cons]
    have taken := turn_taken waits.1
    by_cases still : r.turn.Waits
    · rw [ih (taken.inOrder inOrder still) still exits]
      exact ⟨fun rest => ⟨taken.goodRead inOrder still, rest⟩, And.right⟩
    · have stays : r.turn.receiveLoop turns = r.turn := by
        cases turns with
        | zero => rfl
        | succ turns => rw [receiveLoop, if_neg still]
      have none : r.turn.turnsTaken turns = [] := by
        cases turns with
        | zero => rfl
        | succ turns => rw [turnsTaken, if_neg still]
      rw [stays, none, taken.wholeFile_iff inOrder waits still]
      exact ⟨fun read => ⟨read, List.forall_mem_nil _⟩, And.left⟩

end Receiver

/-- The size that a header block announces: the number after its file name, if there is one. -/
def announcedSize (header : Bytes) : Option ℕ :=
  match (header.dropWhile (· ≠ 0)).tail.takeWhile fun char => 0x30 ≤ char ∧ char ≤ 0x39 with
  | [] => none
  | digits => some (digits.foldl (fun size char => 10 * size + (char - 0x30).toNat) 0)

variable {buffer : ℕ → BitVec 8} {bufferSize : Word} {line : Line}

/-- The receiver at the start of a transfer. -/
abbrev ymodemStart (buffer : ℕ → BitVec 8) (bufferSize : Word) (line : Line) : Receiver :=
  startReceiver .ymodem buffer bufferSize line

/-- The size that the header block of a transfer announces. -/
def sessionSize (buffer : ℕ → BitVec 8) (bufferSize : Word) (line : Line) : Option ℕ :=
  ((ymodemStart buffer bufferSize line).firstBlock (bufferSize.toNat + 12)).bind announcedSize

/-- A size is reported as of a whole file, on any line, exactly when no turn of the main loop breaks off
a transfer of which bytes are stored. -/
theorem ymodemReceive_wholeFile_iff :
    (ymodemReceive buffer bufferSize line).2.WholeFile (sessionSize buffer bufferSize line)
        (ymodemReceive buffer bufferSize line).1 ↔
      ∀ turn ∈ (ymodemStart buffer bufferSize line).turnsTaken (bufferSize.toNat + 12),
        Receiver.GoodTurn (sessionSize buffer bufferSize line) turn := by
  rw [← Receiver.receiveLoop_wholeFile_iff ⟨fun _ => rfl, fun _ => rfl⟩ startReceiver_waits
    xymodemReceive_exits]
  have purged := Receiver.purge_same
    (r := (ymodemStart buffer bufferSize line).receiveLoop (bufferSize.toNat + 12)) 10
  obtain ⟨ended, abort, -⟩ := purged.flags
  unfold ymodemReceive xymodemReceive Receiver.WholeFile
  dsimp only
  rw [ended, abort, purged.syncFail, purged.retries]

/-- The line of a sender that stops after the header and a block of data. -/
def silentLine : Line :=
  (threeBytes.frame 0 .intact ++ threeBytes.frame 1 .intact) ++ₛ Stream'.const none

abbrev silentStart : Receiver := ymodemStart (fun _ => 0) 1024 silentLine

theorem silentStart_header : Advanced threeBytes true 0 0
    (threeBytes.frame 1 .intact ++ₛ Stream'.const none) silentStart silentStart.turn :=
  startReceiver_atStart.advance threeBytes_announced (Stream'.append_append_stream ..)

theorem silentStart_data :
    Advanced threeBytes true 1 128 (Stream'.const none) silentStart.turn silentStart.turn.turn := by
  have sent : threeBytes.packets[1]? = some threeBytesBlock := rfl
  rw [← threeBytesBlock_length]
  refine silentStart_header.progress.advance sent ?_ silentStart_header.line
  rw [silentStart_header.total, silentStart_header.maxSize, threeBytesBlock_length]
  show 0 + 0 + 128 < (1024 : Word).toNat
  decide

/-- A transfer that the sender does not end is reported with the bytes that are stored. -/
theorem ymodemReceive_silent :
    0 < (ymodemReceive (fun _ => 0) 1024 silentLine).1 ∧
      (ymodemReceive (fun _ => 0) 1024 silentLine).2.endOfSession = false := by
  have header := silentStart_header
  have data := silentStart_data
  obtain ⟨done, notEnded, total⟩ := turn_of_silence data.progress.notDone data.line
  have few : silentStart.turn.retries < 10 := header.retries.trans_lt (Nat.succ_pos 9)
  have exits : ¬ (silentStart.receiveLoop ((1024 : Word).toNat + 12)).Waits := xymodemReceive_exits
  obtain ⟨left, first⟩ := receiveLoop_of_waits startReceiver_waits exits
  rw [first] at exits
  obtain ⟨left, second⟩ := receiveLoop_of_waits ⟨header.progress.notDone, few⟩ exits
  rw [second] at exits
  obtain ⟨left, third⟩ := receiveLoop_of_waits
    ⟨data.progress.notDone, data.retries.trans_lt few⟩ exits
  have last : silentStart.receiveLoop ((1024 : Word).toNat + 12) = silentStart.turn.turn.turn :=
    first.trans (second.trans (third.trans (receiveLoop_of_done done)))
  unfold ymodemReceive xymodemReceive
  dsimp only
  rw [(Receiver.purge_same 10).flags.1, last]
  refine ⟨Receiver.receivedSize_pos.mpr ?_, notEnded⟩
  rw [total, data.total, header.total]
  exact Nat.succ_pos 127

end Hss
