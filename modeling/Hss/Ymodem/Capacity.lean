import Hss.Ymodem.Outcome

/-! Which files the YMODEM receiver accepts: a session without a fault goes on to its end exactly when
all packets of the file, with the padding of the last one, are shorter than the buffer. -/

namespace Hss

variable {t : Transfer} {first : Bool} {n k : ℕ} {r q : Receiver} {rest : Line} {block : Block}

/-! ### Announced sizes -/

/-- The header block carries the number `size` after its file name, and something behind it. -/
def Transfer.Announces (t : Transfer) (size : Word) : Prop :=
  ∀ rest, Receiver.getFileSize true 0 (t.header.data ++ rest) = size

/-- The session came to its end, with all blocks stored. -/
structure Transfer.Accepted (t : Transfer) (r : Receiver) : Prop where
  ended : r.endOfSession = true
  notAborted : r.abort = false
  stored : t.Stored true r

/-- The size of the packets of the file, with the padding of the last one. -/
def Transfer.paddedSize (t : Transfer) : ℕ := (t.blocks.map (·.data.length)).sum

theorem Transfer.paddedSize_eq (t : Transfer) : t.paddedSize = t.file.length + t.padding.length := by
  rw [← List.length_append, ← t.contents, List.length_flatten, List.map_map]
  rfl

/-! ### A packet that does not fit -/

/-- A block of data that does not fit aborts the session. -/
theorem ValidRead.turn_full (read : ValidRead r q block) (notDone : r.done = false)
    (counted : r.numReceivedPackets ≠ 0) (going : r.eotReceived = false)
    (full : r.maxSize ≤ r.totalReceivedSize + block.data.length) : r.turn.abort = true := by
  have taken := Receiver.turn_taken notDone
  rw [read.good] at taken
  obtain ⟨-, -, notAborted⟩ := Receiver.done_eq_false.mp notDone
  obtain ⟨-, abort, eot, -⟩ := read.after.flags
  generalize r.turn = s at taken ⊢
  cases taken with
  | aborted signal => exact absurd (signal.symm.trans (abort.trans notAborted)) (by decide)
  | ended _ ended | eotFirst _ _ ended =>
    exact absurd (ended.symm.trans (eot.trans going)) (by decide)
  | header uncounted => exact absurd uncounted counted
  | rejected _ _ abort => exact abort
  | data _ _ _ _ _ fits =>
    rw [read.length] at fits
    exact absurd fits (Nat.not_lt.mpr full)

theorem Progress.full (progress : Progress t first n n r) (sent : t.packets[n]? = some block)
    (full : r.maxSize ≤ r.totalReceivedSize + block.data.length)
    (line : r.line = t.frame n .intact ++ₛ rest) : r.turn.abort = true := by
  obtain ⟨_, _, _, _, unexpected⟩ | ⟨-, -, q, read, -⟩ :=
    frame_cases progress.notDone progress.going sent (faultless_possible (i := n)) (Nat.succ_pos 19)
      line
  · exact absurd progress.expected.symm (unexpected rfl)
  · exact read.turn_full progress.notDone progress.counted progress.going full

/-! ### A session without a fault -/

/-- The end of the session, after all packets. -/
theorem Progress.accepted_end (progress : Progress t true t.packets.length t.packets.length r)
    (line : r.line = t.frame t.packets.length .intact ++ₛ rest) : t.Accepted r.turn := by
  have sent : t.frame t.packets.length .intact = [some xymodemEot] := by
    unfold Transfer.frame
    rw [List.getElem?_eq_none (Nat.le_refl _)]
  have after := turn_of_eot (e := Hss.faultless) progress.notDone progress.counted nofun
    (Nat.succ_pos 19) (line.trans (congrArg (· ++ₛ _) sent))
  obtain ⟨ended, abort, -, -, total, -⟩ := after.flags
  refine ⟨ended, abort.trans (Receiver.done_eq_false.mp progress.notDone).2.2, ?_⟩
  unfold Transfer.Stored
  rw [after.buffer, total]
  refine progress.stored.trans ?_
  rw [List.take_length]

/-- From packet `n` on, a session without a fault comes to its end when there is no packet left, or
those that are left are shorter than the rest of the buffer. -/
theorem Progress.accepted_iff (progress : Progress t true n n r)
    (left : n + k = t.packets.length) (few : r.retries < 10)
    (line : r.line = t.framesFrom n k ++ₛ rest) {turns : ℕ}
    (exits : ¬ (r.receiveLoop turns).Waits) :
    t.Accepted (r.receiveLoop turns) ↔
      k = 0 ∨ r.totalReceivedSize + ((t.packets.drop n).map (·.data.length)).sum < r.maxSize := by
  induction k generalizing n r turns with
  | zero =>
    obtain ⟨turns', same⟩ := receiveLoop_of_waits ⟨progress.notDone, few⟩ exits
    rw [same]
    obtain rfl : n = t.packets.length := left
    have accepted := progress.accepted_end line
    rw [receiveLoop_of_done (by simp [Receiver.done, accepted.ended])]
    exact iff_of_true accepted (.inl rfl)
  | succ k ih =>
    obtain ⟨turns', same⟩ := receiveLoop_of_waits ⟨progress.notDone, few⟩ exits
    rw [same] at exits ⊢
    have within : n < t.packets.length := by omega
    have sent := List.getElem?_eq_getElem within
    rw [Transfer.framesFrom, Stream'.append_append_stream] at line
    rw [List.drop_eq_getElem_cons within, List.map_cons, List.sum_cons, ← Nat.add_assoc]
    by_cases fits : r.totalReceivedSize + t.packets[n].data.length < r.maxSize
    · have advanced := progress.advance sent fits line
      have few' : r.turn.retries < 10 := advanced.retries.trans_lt few
      rw [ih advanced.progress (by omega) few' advanced.line exits, advanced.total,
        advanced.maxSize]
      constructor
      · rintro (rfl | short)
        · right
          rw [List.drop_eq_nil_of_le (by omega)]
          exact fits
        · exact .inr short
      · rintro (none | short)
        · cases none
        · exact .inr short
    · have abort := progress.full sent (Nat.not_lt.mp fits) line
      rw [receiveLoop_of_done (by simp [Receiver.done, abort])]
      refine iff_of_false (fun accepted => ?_) ?_
      · exact absurd (abort.symm.trans accepted.notAborted) (by decide)
      · rintro (none | short)
        · cases none
        · omega

/-- A session without a fault whose header fits comes to its end when there is no packet, or the packets
are shorter than the buffer. -/
theorem AtStart.accepted_iff (atStart : AtStart r) (few : r.retries < 10) {size : Word}
    (announces : t.Announces size) (fits : size.toNat ≤ r.maxSize)
    (line : r.line = t.framesFrom 0 t.packets.length ++ₛ rest) {turns : ℕ}
    (exits : ¬ (r.receiveLoop turns).Waits) :
    t.Accepted (r.receiveLoop turns) ↔ t.blocks = [] ∨ t.paddedSize < r.maxSize := by
  rw [show t.packets.length = t.blocks.length + 1 from rfl, Transfer.framesFrom,
    Stream'.append_append_stream] at line
  have advanced := atStart.advance (fun rest => by rw [announces rest]; exact fits) line
  have few' : r.turn.retries < 10 := advanced.retries.trans_lt few
  obtain ⟨turns', same⟩ := receiveLoop_of_waits ⟨atStart.notDone, few⟩ exits
  rw [same] at exits ⊢
  rw [advanced.progress.accepted_iff (k := t.blocks.length) (Nat.add_comm ..) few' advanced.line exits,
    advanced.total, atStart.empty, advanced.maxSize, List.length_eq_zero_iff]
  show _ ∨ 0 + 0 + t.paddedSize < _ ↔ _
  rw [Nat.zero_add]

theorem Transfer.Accepted.same {s : Receiver} (same : Receiver.SameTransfer r s)
    (accepted : t.Accepted r) : t.Accepted s := by
  obtain ⟨ended, abort, -, -, total, -⟩ := same.flags
  refine ⟨ended.trans accepted.ended, abort.trans accepted.notAborted, ?_⟩
  unfold Transfer.Stored
  rw [same.buffer, total]
  exact accepted.stored

theorem accepted_purge : t.Accepted (r.purge 10) ↔ t.Accepted r := by
  have purged := Receiver.purge_same (r := r) 10
  have back : Receiver.SameTransfer (r.purge 10) r :=
    ⟨purged.state.symm, purged.buffer.symm, purged.retries.symm⟩
  exact ⟨.same back, .same purged⟩

/-- A file whose announced size fits is accepted, in packets of any mix of the two sizes, exactly when
it has no data or its packets with their padding are shorter than the buffer. -/
theorem ymodemReceive_accepts_iff (t : Transfer) (buffer : ℕ → BitVec 8) {bufferSize size : Word}
    (announces : t.Announces size) (fits : size.toNat ≤ bufferSize.toNat) (rest : Line) :
    t.Accepted (ymodemReceive buffer bufferSize (t.framesFrom 0 t.packets.length ++ₛ rest)).2 ↔
      t.blocks = [] ∨ t.paddedSize < bufferSize.toNat :=
  accepted_purge.trans
    (startReceiver_atStart.accepted_iff (Nat.succ_pos 9) announces fits rfl xymodemReceive_exits)

theorem threeBytes_announces : threeBytes.Announces 3 := fun _ => rfl

theorem ymodemReceive_accepts_threeBytes : threeBytes.Accepted (ymodemReceive (fun _ => 0) 129
    (threeBytes.framesFrom 0 threeBytes.packets.length ++ₛ Stream'.const none)).2 :=
  (ymodemReceive_accepts_iff threeBytes (fun _ => 0) threeBytes_announces (by decide) _).mpr
    (.inr (by rw [Transfer.paddedSize, threeBytes_length.2]; decide))

/-- A file with data whose packets fill the buffer is refused. -/
theorem ymodemReceive_refuses {buffer : ℕ → BitVec 8} {bufferSize size : Word}
    (announces : t.Announces size) (fits : size.toNat ≤ bufferSize.toNat) (some : t.blocks ≠ [])
    (full : bufferSize.toNat ≤ t.paddedSize) (rest : Line) :
    ¬ t.Accepted (ymodemReceive buffer bufferSize (t.framesFrom 0 t.packets.length ++ₛ rest)).2 := by
  intro accepted
  obtain none | short := (startReceiver_atStart.accepted_iff (Nat.succ_pos 9) announces fits rfl
    xymodemReceive_exits).mp (accepted_purge.mp accepted)
  · exact some none
  · exact absurd short (Nat.not_lt.mpr full)

/-- Three bytes come in a packet of 128, for which a buffer of 128 is too small. -/
theorem ymodemReceive_not_accepts : ¬ ∀ (t : Transfer) (buffer : ℕ → BitVec 8)
    (bufferSize size : Word) (rest : Line), t.Announces size → size.toNat ≤ bufferSize.toNat →
      t.Accepted (ymodemReceive buffer bufferSize (t.framesFrom 0 t.packets.length ++ₛ rest)).2 := by
  intro accepts
  have full : (128 : Word).toNat ≤ threeBytes.paddedSize := by
    rw [Transfer.paddedSize, threeBytes_length.2]
    exact Nat.le_refl 128
  exact ymodemReceive_refuses threeBytes_announces (by decide) (fun none => by cases none) full
    (Stream'.const none) (accepts threeBytes (fun _ => 0) 128 3 _ threeBytes_announces (by decide))

end Hss
