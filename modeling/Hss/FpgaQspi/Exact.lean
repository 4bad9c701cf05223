import Hss.FpgaQspi.Phases

/-! Which operations are executed exactly.  Operations whose counts are what is moved end, with a
controller that serves as many elements as its transactions count, and no others are executed exactly. -/

namespace Hss.FpgaQspi

open Fuel

variable {c : Controller} {op : SpiMemOp} {f : Fifo} {h h' : History} {s s' : State} {fuel size : ℕ}
variable {buf : TxBuf} {t t' : Transfer}

/-! ### Operations end -/

/-- A transaction is in progress that counts at least so many elements more. -/
def Room (f : Fifo) (k : ℕ) (h : History) : Prop :=
  ∃ ctrl, ctrl1 h = some ctrl ∧ Started ctrl ∧ moved f h + k ≤ f.count ctrl

theorem Room.adds {n : Fifo → ℕ} {k : ℕ} (room : Room f (n f + k) h) (adds : Adds size n h h') :
    Room f k h' := by
  obtain ⟨ctrl, last, started, le⟩ := room
  refine ⟨ctrl, adds.ctrl1.trans last, started, ?_⟩
  rw [adds.moved]
  omega

theorem looked_succ (c : Controller) (h : History) (n : ℕ) :
    (fun s : BitVec 32 × History => readl c .status2 s.2)^[n] (readl c .status2 h) =
      readl c .status2 (looked c h n) := by
  induction n generalizing h with
  | zero => rfl
  | succ n ih => exact ih (readl c .status2 h).2

theorem ends_waitStatus2 (obliging : Obliging c) {k : ℕ} (room : Room f (k + 1) h) :
    ∃ h', Ends (fun fuel => waitStatus2 c f.blocked fuel h) h' := by
  obtain ⟨ctrl, last, started, le⟩ := room
  obtain ⟨n, clear⟩ := obliging h ctrl last started f (by omega)
  have seen : ((readl c .status2 (looked c h n)).1 &&& f.blocked != 0) = false := by
    simpa [readl] using clear
  obtain ⟨s, ends⟩ := Ends.poll (fun s : BitVec 32 × History => s.1 &&& f.blocked != 0)
    (fun s => readl c .status2 s.2) n (looked_succ c h n ▸ seen)
  exact ⟨s.2, ends.bind (.ok s.2)⟩

theorem subtract_eq {len k : ℤ} (nonneg : 0 ≤ len - k) : subtract len k = .ok (len - k) := by
  rw [subtract, if_pos (by omega)]

theorem TxBuf.exists_load {offset : ℕ} (holds : buf.Holds (offset + 1)) (h : History) :
    ∃ r, buf.load offset h = .ok r := by
  cases buf with
  | stack object =>
    have less : offset < object.length := holds
    exact ⟨(object[offset], h), by rw [TxBuf.load, List.getElem?_eq_getElem less]⟩
  | data out => exact ⟨_, rfl⟩

theorem TxBuf.exists_loadWord {offset : ℕ} (holds : buf.Holds (offset + 4)) (h : History) :
    ∃ r, buf.loadWord offset h = .ok r := by
  obtain ⟨b0, ran0⟩ := TxBuf.exists_load (holds.mono (show offset + 1 ≤ offset + 4 by omega)) h
  obtain ⟨b1, ran1⟩ := TxBuf.exists_load (holds.mono (show offset + 1 + 1 ≤ offset + 4 by omega)) b0.2
  obtain ⟨b2, ran2⟩ := TxBuf.exists_load (holds.mono (show offset + 2 + 1 ≤ offset + 4 by omega)) b1.2
  obtain ⟨b3, ran3⟩ := TxBuf.exists_load (holds.mono (show offset + 3 + 1 ≤ offset + 4 by omega)) b2.2
  refine ⟨(b3.1 ++ b2.1 ++ b1.1 ++ b0.1, b3.2), ?_⟩
  rw [TxBuf.loadWord, ran0, Outcome.ok_bind, ran1, Outcome.ok_bind, ran2, Outcome.ok_bind, ran3]
  rfl

theorem ends_writeByteTurn (obliging : Obliging c) {k : ℕ} (room : Room .tx (k + 1) t.history)
    (len : 1 ≤ t.len) (holds : buf.Holds (t.offset + 1)) :
    ∃ t', Ends (fun fuel => writeByteTurn c buf fuel t) t' := by
  obtain ⟨h, waits⟩ := ends_waitStatus2 obliging room
  obtain ⟨byte, loads⟩ := buf.exists_load holds h
  refine ⟨⟨t.offset + 1, t.len - 1, .writel (txByte byte.1) .data :: byte.2⟩, ?_⟩
  simp only [writeByteTurn, subtract_eq (show 0 ≤ t.len - 1 by omega), Outcome.ok_bind]
  refine waits.bind ?_
  simp only [loads]
  exact .ok _

theorem ends_writeWordTurn (obliging : Obliging c) {k : ℕ} (room : Room .tx (k + 1) t.history)
    (len : 4 ≤ t.len) (holds : buf.Holds (t.offset + 4)) :
    ∃ t', Ends (fun fuel => writeWordTurn c buf fuel t) t' := by
  obtain ⟨h, waits⟩ := ends_waitStatus2 obliging room
  obtain ⟨data, loads⟩ := buf.exists_loadWord holds h
  refine ⟨⟨t.offset + 4, t.len - 4, .writel data.1 .data :: data.2⟩, waits.bind ?_⟩
  simp only [loads, Outcome.ok_bind, subtract_eq (show 0 ≤ t.len - 4 by omega)]
  exact .ok _

theorem ends_readByteTurn (obliging : Obliging c) {k : ℕ} (room : Room .rx (k + 1) t.history)
    (len : 1 ≤ t.len) : ∃ t', Ends (fun fuel => readByteTurn c fuel t) t' := by
  obtain ⟨h, waits⟩ := ends_waitStatus2 obliging room
  refine ⟨⟨t.offset + 1, t.len - 1, .store t.offset ((readl c .data h).1.setWidth 8) ::
    (readl c .data h).2⟩, ?_⟩
  simp only [readByteTurn, subtract_eq (show 0 ≤ t.len - 1 by omega), Outcome.ok_bind]
  exact waits.bind (.ok _)

theorem ends_readWordTurn (obliging : Obliging c) {k : ℕ} (room : Room .rx (k + 1) t.history)
    (len : 4 ≤ t.len) : ∃ t', Ends (fun fuel => readWordTurn c fuel t) t' := by
  obtain ⟨h, waits⟩ := ends_waitStatus2 obliging room
  refine ⟨⟨t.offset + 4, t.len - 4, storeWord t.offset (swap32 (readl c .data h).1)
    (readl c .data h).2⟩, waits.bind ?_⟩
  simp only [subtract_eq (show 0 ≤ t.len - 4 by omega), Outcome.ok_bind]
  exact .ok _

/-- Whole elements are left, for which there is room, and the object holds them. -/
def Left (unit : ℕ) (f : Fifo) (holds : ℕ → Prop) (t : Transfer) : Prop :=
  ∃ k : ℕ, t.len = unit * k ∧ Room f k t.history ∧ holds (t.offset + unit * k)

/-- A loop ends if its turns do while whole elements are left. -/
theorem ends_transfer {turn : ℕ → Transfer → Result Transfer} {unit : ℕ} {size : ℕ → ℕ} {holds : ℕ → Prop}
    {k : ℕ} (positive : 0 < unit) (down : ∀ i j, i ≤ j → holds j → holds i)
    (turned : ∀ fuel t t', turn fuel t = .ok t' → Turned unit f size t t')
    (ends : ∀ t k, (unit : ℤ) ≤ t.len → Room f (k + 1) t.history → holds (t.offset + unit) →
      ∃ t', Ends (turn · t) t')
    (room : Room f k h) (all : holds (unit * k)) :
    ∃ h', Ends (fun fuel => transfer turn (unit * k : ℕ) fuel h) h' := by
  have start : Left unit f holds ⟨0, (unit * k : ℕ), h⟩ := ⟨k, by simp, room, by simpa using all⟩
  have more : ∀ t, Left unit f holds t → (t.len != 0) = true →
      ∃ k, t.len = unit * ((k + 1 : ℕ) : ℤ) ∧ Room f (k + 1) t.history ∧
        holds (t.offset + unit * (k + 1)) := by
    rintro t ⟨k, len, room, all⟩ left
    cases k with
    | zero => simp [len] at left
    | succ k => exact ⟨k, len, room, all⟩
  have keeps : ∀ fuel t t', Left unit f holds t → (t.len != 0) = true → turn fuel t = .ok t' →
      Left unit f holds t' ∧ t'.len.toNat < t.len.toNat := by
    intro fuel t t' inv left turns
    obtain ⟨k, len, room, all⟩ := more t inv left
    have step := turned fuel t t' turns
    have rest : t'.len = unit * k := by
      rw [step.len, len]
      push_cast
      ring
    refine ⟨⟨k, rest, ?_, ?_⟩, ?_⟩
    · exact Room.adds (by simpa [Nat.add_comm] using room) step.adds
    · rw [step.offset]
      rwa [Nat.mul_succ, Nat.add_comm (unit * k), ← Nat.add_assoc] at all
    · rw [rest, len, ← Nat.cast_mul, ← Nat.cast_mul, Int.toNat_natCast, Int.toNat_natCast]
      exact Nat.mul_lt_mul_of_pos_left (Nat.lt_succ_self k) positive
  have turns_end : ∀ t, Left unit f holds t → (t.len != 0) = true → ∃ t', Ends (turn · t) t' := by
    intro t inv left
    obtain ⟨k, len, room, all⟩ := more t inv left
    refine ends t k ?_ room (down _ _ (Nat.add_le_add_left (Nat.le_mul_of_pos_right unit k.succ_pos) _) all)
    rw [len]
    exact_mod_cast Nat.le_mul_of_pos_right unit k.succ_pos
  obtain ⟨last, loop⟩ := Ends.whileLoop (fun t : Transfer => t.len.toNat) keeps turns_end start
  exact ⟨last.history, loop.bind (.ok _)⟩

theorem ends_writeOp (obliging : Obliging c) (buf : TxBuf) (word : Bool) {k : ℕ} (room : Room .tx k h)
    (holds : buf.Holds (unit word * k)) :
    ∃ h', Ends (fun fuel => writeOp c buf (unit word * k : ℕ) word fuel h) h' := by
  have down : ∀ i j, i ≤ j → buf.Holds j → buf.Holds i := fun _ _ => TxBuf.Holds.mono
  cases word with
  | false =>
    refine ends_transfer Nat.one_pos down (fun _ _ _ turn => (writeByteTurn_ok turn).1) ?_ room holds
    intro t k len room holds
    exact ends_writeByteTurn obliging room (by simpa [unit] using len) holds
  | true =>
    refine ends_transfer (by decide) down (fun _ _ _ turn => (writeWordTurn_ok turn).1) ?_ room holds
    intro t k len room holds
    exact ends_writeWordTurn obliging room (by simpa [unit] using len) holds

theorem ends_readOp (obliging : Obliging c) (word : Bool) {k : ℕ} (room : Room .rx k h) :
    ∃ r, Ends (fun fuel => readOp c (unit word * k : ℕ) word fuel h) r := by
  by_cases empty : ((unit word * k : ℕ) : ℤ) = 0
  · refine ⟨(-1, h), ?_⟩
    simp only [readOp, if_pos empty]
    exact .ok _
  · suffices moves : ∃ h', Ends (fun fuel => transfer (if word then readWordTurn c else readByteTurn c)
        (unit word * k : ℕ) fuel h) h' by
      obtain ⟨h', ends⟩ := moves
      refine ⟨(0, h'), ?_⟩
      simp only [readOp, if_neg empty]
      exact ends.bind (.ok _)
    have down : ∀ i j : ℕ, i ≤ j → True → True := fun _ _ _ => id
    cases word with
    | false =>
      refine ends_transfer Nat.one_pos down (fun _ _ _ => readByteTurn_ok) ?_ room trivial
      intro t k len room _
      exact ends_readByteTurn obliging room (by simpa [unit] using len)
    | true =>
      refine ends_transfer (by decide) down (fun _ _ _ => readWordTurn_ok) ?_ room trivial
      intro t k len room _
      exact ends_readWordTurn obliging room (by simpa [unit] using len)

/-- There is room in both FIFOs. -/
def Rooms (n : Fifo → ℕ) (h : History) : Prop := ∀ f, Room f (n f) h

theorem Rooms.after {n m : Fifo → ℕ} (rooms : Rooms (n + m) h) (adds : Adds size n h h') : Rooms m h' :=
  fun f => (rooms f).adds adds

theorem Rooms.left {n m : Fifo → ℕ} (rooms : Rooms (n + m) h) : Rooms n h := by
  intro f
  obtain ⟨ctrl, last, started, le⟩ := rooms f
  exact ⟨ctrl, last, started, (Nat.add_le_add_left (Nat.le_add_right ..) _).trans le⟩

theorem ends_writeStack (obliging : Obliging c) {object : List (BitVec 8)} {len : ℕ}
    (rooms : Rooms (Pi.single .tx len) h) (holds : len ≤ object.length) :
    ∃ h', Ends (fun fuel => writeOp c (.stack object) len false fuel h) h' := by
  have room : Room .tx len h := by simpa using rooms .tx
  have ends := ends_writeOp obliging (.stack object) false room
    (by simpa [unit, TxBuf.Holds] using holds)
  simpa [unit] using ends

theorem ends_sendOpcode (obliging : Obliging c) (fits : opcodeBytes op ≤ 1)
    (rooms : Rooms (Pi.single .tx (opcodeBytes op)) h) :
    ∃ h', Ends (fun fuel => sendOpcode c op fuel h) h' := by
  by_cases absent : op.cmd.opcode = 0
  · refine ⟨h, ?_⟩
    simp only [sendOpcode, if_neg (not_not.mpr absent)]
    exact .ok h
  · rw [opcodeBytes, if_neg absent] at fits rooms
    simp only [sendOpcode, if_pos absent]
    exact ends_writeStack obliging rooms fits

theorem exists_opaddrLoop (address : BitVec 32) {nbytes left : ℕ} {opaddr : List (BitVec 8)}
    (le : left ≤ nbytes) (four : nbytes ≤ 4) (object : opaddr.length = 32) :
    ∃ set, opaddrLoop address nbytes left opaddr = .ok set := by
  induction left generalizing opaddr with
  | zero => exact ⟨opaddr, rfl⟩
  | succ left ih =>
    rw [opaddrLoop, if_pos (by omega)]
    exact ih (by omega) (by rw [List.length_set, object])

theorem ends_sendAddress (obliging : Obliging c) (fits : op.addr.nbytes.toNat ≤ 4)
    (rooms : Rooms (Pi.single .tx op.addr.nbytes.toNat) h) :
    ∃ h', Ends (fun fuel => sendAddress c op fuel h) h' := by
  by_cases absent : op.addr.nbytes = 0
  · refine ⟨h, ?_⟩
    simp only [sendAddress, if_neg (not_not.mpr absent)]
    exact .ok h
  · have zeros : opaddrZero.length = 32 := rfl
    obtain ⟨opaddr, set⟩ := exists_opaddrLoop (op.addr.val.setWidth 32) (le_refl _) fits zeros
    have length := (opaddrLoop_ok set).trans zeros
    simp only [sendAddress, if_pos absent, set, Outcome.ok_bind]
    exact ends_writeStack obliging rooms (by omega)

theorem ends_sendDummy (obliging : Obliging c) (fits : op.dummy.nbytes.toNat ≤ 32)
    (rooms : Rooms (Pi.single .tx op.dummy.nbytes.toNat) h) :
    ∃ h', Ends (fun fuel => sendDummy c op fuel h) h' := by
  by_cases absent : op.dummy.nbytes = 0
  · refine ⟨h, ?_⟩
    simp only [sendDummy, if_neg (not_not.mpr absent)]
    exact .ok h
  · simp only [sendDummy, if_pos absent]
    exact ends_writeStack obliging rooms fits

theorem toInt_eq_unit_mul {n : BitVec 32} {word : Bool} (whole : n.toNat % unit word = 0)
    (less : n.toNat < 2 ^ 31) : n.toInt = (unit word * (n.toNat / unit word) : ℕ) := by
  rw [Nat.mul_div_cancel' (Nat.dvd_of_mod_eq_zero whole), BitVec.toInt_eq_toNat_cond, if_pos (by omega)]

theorem ends_moveData (obliging : Obliging c) {word : Bool} (whole : WholeData op word)
    (rooms : Rooms (dataMoves op word) h) : ∃ h', Ends (fun fuel => moveData c op word fuel h) h' := by
  cases dir : op.data.dir with
  | noData =>
    refine ⟨h, ?_⟩
    simp only [moveData, dir]
    exact .ok h
  | dataIn =>
    obtain ⟨multiple, less⟩ := whole (by rw [dir]; decide)
    rw [dataMoves, dir] at rooms
    obtain ⟨r, ends⟩ := ends_readOp obliging word (by simpa using rooms .rx)
    refine ⟨r.2, ?_⟩
    simp only [moveData, dir, toInt_eq_unit_mul multiple less]
    exact ends.bind (.ok _)
  | dataOut =>
    obtain ⟨multiple, less⟩ := whole (by rw [dir]; decide)
    rw [dataMoves, dir] at rooms
    simp only [moveData, dir, toInt_eq_unit_mul multiple less]
    exact ends_writeOp obliging (.data op.data.out) word (by simpa using rooms .tx) trivial

theorem ends_byteData (obliging : Obliging c) (whole : op.data.buswidth = 1 → WholeData op false)
    (rooms : Rooms (if op.data.buswidth = 1 then dataMoves op false else 0) h) :
    ∃ h', Ends (fun fuel => byteData c op fuel h) h' := by
  by_cases both : op.data.nbytes ≠ 0 ∧ op.data.buswidth = 1
  · rw [if_pos both.2] at rooms
    simp only [byteData, if_pos both]
    exact ends_moveData obliging (whole both.2) rooms
  · refine ⟨h, ?_⟩
    simp only [byteData, if_neg both]
    exact .ok h

/-- A transaction has room for what it counts. -/
theorem rooms_startTransaction {txLen rxLen : BitVec 32} {n : Fifo → ℕ}
    (counts : ∀ f : Fifo, (f.pick txLen rxLen).toNat % 2048 = n f) (s : State) :
    Rooms n (startTransaction txLen rxLen s).history := by
  intro f
  refine ⟨(startTransaction txLen rxLen s).ctrl1SwCopy, rfl, started_startTransaction txLen rxLen s, ?_⟩
  rw [count_startTransaction, counts]
  exact (Nat.zero_add _).le

theorem ends_execByteOp (obliging : Obliging c) (consistent : Consistent op) (s : State) :
    ∃ s', Ends (fun fuel => execByteOp c op fuel s) s' := by
  have rooms := rooms_startTransaction consistent.bytes (setOperateMode false s)
  rw [byteMoves, headerBytes, Pi.single_add, Pi.single_add, add_assoc, add_assoc] at rooms
  obtain ⟨h1, opcode⟩ := ends_sendOpcode obliging consistent.header.opcode rooms.left
  obtain ⟨fuel1, ran1⟩ := opcode.exists_eq
  have rooms1 := rooms.after (sendOpcode_ok 0 ran1).2
  obtain ⟨h2, addr⟩ := ends_sendAddress obliging consistent.header.addr rooms1.left
  obtain ⟨fuel2, ran2⟩ := addr.exists_eq
  have rooms2 := rooms1.after (sendAddress_ok 0 ran2).2
  obtain ⟨h3, dummy⟩ := ends_sendDummy obliging consistent.header.dummy rooms2.left
  obtain ⟨fuel3, ran3⟩ := dummy.exists_eq
  have rooms3 := rooms2.after (sendDummy_ok 0 ran3).2
  obtain ⟨h4, data⟩ := ends_byteData obliging consistent.wholeBytes rooms3
  exact ⟨_, opcode.bind (addr.bind (dummy.bind (data.bind (.ok _))))⟩

theorem ends_execWordOp (obliging : Obliging c) (consistent : Consistent op) (s : State) :
    ∃ s', Ends (fun fuel => execWordOp c op fuel s) s' := by
  by_cases lanes : op.data.buswidth = 4
  · have rooms := rooms_startTransaction (consistent.words lanes) (setOperateMode true s)
    obtain ⟨h, data⟩ := ends_moveData obliging (consistent.wholeWords lanes) rooms
    simp only [execWordOp, if_pos lanes]
    exact ⟨_, data.bind (.ok _)⟩
  · refine ⟨finishTransaction false s, ?_⟩
    simp only [execWordOp, if_neg lanes]
    exact .ok _

/-! ### Exactness -/

theorem pollIdle_eq_zero_iff (count : ℕ) (h : History) : (pollIdle c count h).1 = 0 ↔
    ∃ n < count, c.readl .status1 ((fun h => (readl c .status1 h).2)^[n] h) &&& status1Idle ≠ 0 := by
  induction count generalizing h with
  | zero =>
    have late : (pollIdle c 0 h).1 ≠ 0 := show -etimedout ≠ 0 by decide
    exact iff_of_false late fun ⟨n, less, _⟩ => Nat.not_lt_zero n less
  | succ count ih =>
    rw [pollIdle]
    by_cases idle : (readl c .status1 h).1 &&& status1Idle ≠ 0
    · rw [if_pos idle]
      exact ⟨fun _ => ⟨0, Nat.succ_pos count, idle⟩, fun _ => rfl⟩
    · rw [if_neg idle, ih]
      constructor
      · rintro ⟨n, less, found⟩
        exact ⟨n + 1, Nat.succ_lt_succ less, found⟩
      · rintro ⟨n, less, found⟩
        cases n with
        | zero => exact absurd found idle
        | succ n => exact ⟨n, Nat.lt_of_succ_lt_succ less, found⟩

theorem pollIdle_adds (count : ℕ) (h : History) : Adds 0 0 h (pollIdle c count h).2 := by
  induction count generalizing h with
  | zero => exact .refl 0 h
  | succ count ih =>
    have look : Adds 0 0 h (readl c .status1 h).2 := .status _ (by decide) _
    rw [pollIdle]
    split
    · exact look
    · simpa using look.trans (ih (readl c .status1 h).2)

theorem waitForReady_ne_zero_iff : (waitForReady c []).1 ≠ 0 ↔ TimesOut c := by
  rw [waitForReady, ne_eq, pollIdle_eq_zero_iff, TimesOut]
  push Not
  rfl

theorem matches_of_ctrl1_none (none : ctrl1 h = none) : Matches h :=
  fun _ some => absurd (none.symm.trans some) nofun

/-- An operation that times out touches nothing. -/
theorem executesExactly_of_timesOut (ctrl1SwCopy : BitVec 32) (op : SpiMemOp) (late : TimesOut c) :
    ExecutesExactly c ctrl1SwCopy op := by
  have nonzero := waitForReady_ne_zero_iff.mpr late
  have adds := pollIdle_adds (c := c) timeoutMs []
  refine ⟨(waitForReady c []).1, ⟨ctrl1SwCopy, (waitForReady c []).2⟩, ?_, adds.exact_iff.mpr trivial,
    matches_of_ctrl1_none adds.ctrl1, ?_, fun zero => absurd zero nonzero, fun _ => adds.ctrl1⟩
  · simp only [execOp, if_pos nonzero]
    exact .ok _
  · intro a present
    exact ((adds.mono (Nat.zero_le _)).within a present).resolve_left List.not_mem_nil

/-- The state in which an operation starts whose controller is ready. -/
def readyState (c : Controller) (ctrl1SwCopy : BitVec 32) : State := ⟨ctrl1SwCopy, (waitForReady c []).2⟩

theorem readyState_matches (c : Controller) (ctrl1SwCopy : BitVec 32) :
    Matches (readyState c ctrl1SwCopy).history :=
  matches_of_ctrl1_none (pollIdle_adds (c := c) timeoutMs []).ctrl1

theorem readyState_exact (c : Controller) (ctrl1SwCopy : BitVec 32) :
    Exact (readyState c ctrl1SwCopy).history :=
  (pollIdle_adds (c := c) timeoutMs []).exact_iff.mpr trivial

theorem executesExactly_of_consistent (obliging : Obliging c) (ctrl1SwCopy : BitVec 32)
    (ready : ¬TimesOut c) (consistent : Consistent op) : ExecutesExactly c ctrl1SwCopy op := by
  have zero := not_not.mp (waitForReady_ne_zero_iff.not.mpr ready)
  obtain ⟨s1, bytes⟩ := ends_execByteOp obliging consistent (readyState c ctrl1SwCopy)
  obtain ⟨fuel1, ran1⟩ := bytes.exists_eq
  obtain ⟨s2, words⟩ := ends_execWordOp obliging consistent s1
  obtain ⟨fuel2, ran2⟩ := words.exists_eq
  obtain ⟨-, -, exact1, matches1, within1⟩ := execByteOp_ok (readyState_matches c ctrl1SwCopy) ran1
  obtain ⟨-, exact2, matches2, cleared, within2⟩ := execWordOp_ok matches1 ran2
  refine ⟨0, s2, ?_, ?_, matches2, ?_, fun _ => cleared, fun nonzero => absurd rfl nonzero⟩
  · simp only [execOp, if_neg (not_not.mpr zero)]
    exact bytes.bind (words.bind (.ok _))
  · exact exact2.mpr ⟨exact1.mpr ⟨readyState_exact c ctrl1SwCopy, consistent.bytes⟩, consistent.words⟩
  · intro a present
    rcases within2 a present with present | within
    · rcases within1 a present with present | within
      · have adds := (pollIdle_adds (c := c) timeoutMs []).mono (Nat.zero_le op.data.nbytes.toNat)
        exact (adds.within a present).resolve_left List.not_mem_nil
      · exact within
    · exact within

theorem consistent_of_executesExactly {ctrl1SwCopy : BitVec 32} (ready : ¬TimesOut c)
    (executes : ExecutesExactly c ctrl1SwCopy op) : Consistent op := by
  have zero := not_not.mp (waitForReady_ne_zero_iff.not.mpr ready)
  obtain ⟨err, s, ends, counted, -⟩ := executes
  obtain ⟨fuel, ran⟩ := ends.exists_eq
  simp only [execOp, if_neg (not_not.mpr zero)] at ran
  obtain ⟨s1, ran1, ran⟩ := Outcome.bind_eq_ok.mp ran
  obtain ⟨s2, ran2, ran⟩ := Outcome.bind_eq_ok.mp ran
  cases ran
  obtain ⟨header, wholeBytes, exact1, matches1, -⟩ := execByteOp_ok (readyState_matches c ctrl1SwCopy) ran1
  obtain ⟨wholeWords, exact2, -⟩ := execWordOp_ok matches1 ran2
  obtain ⟨exactBytes, words⟩ := exact2.mp counted
  exact ⟨header, wholeBytes, (exact1.mp exactBytes).2, wholeWords, words⟩

/-! ### The operations that are executed exactly -/

/-- One opcode byte if there is an opcode, and none if there is not; an address of four bytes at most and
32 dummy bytes at most; and data that fit their count: received on one lane, less than 2048 bytes; on four
lanes, whole words, less than 2048; sent on one lane only; and where there are none, a length that counts
nothing. -/
structure Fits (op : SpiMemOp) : Prop where
  opcode : op.cmd.nbytes.toNat ≤ if op.cmd.opcode = 0 then 0 else 1
  addr : op.addr.nbytes.toNat ≤ 4
  dummy : op.dummy.nbytes.toNat ≤ 32
  noData : op.data.dir = .noData → (op.data.buswidth = 1 → op.data.nbytes.toNat % 2048 = 0) ∧
    (op.data.buswidth = 4 → (op.data.nbytes + 3).toNat / 4 % 2048 = 0)
  dataIn : op.data.dir = .dataIn → (op.data.buswidth = 1 → op.data.nbytes.toNat < 2048) ∧
    (op.data.buswidth = 4 → op.data.nbytes.toNat % 4 = 0 ∧ op.data.nbytes.toNat / 4 < 2048)
  dataOut : op.data.dir = .dataOut → op.data.nbytes = 0 ∨ op.data.buswidth = 1

/-- All of the opcode is sent, and there is one byte of it at most. -/
theorem opcode_fits_iff : opcodeBytes op ≤ 1 ∧ opcodeBytes op = op.cmd.nbytes.toNat ↔
    op.cmd.nbytes.toNat ≤ if op.cmd.opcode = 0 then 0 else 1 := by
  rw [opcodeBytes]
  split <;> omega

theorem header_toNat (op : SpiMemOp) : (op.cmd.nbytes.setWidth 32 + op.addr.nbytes.setWidth 32 +
    op.dummy.nbytes.setWidth 32 : BitVec 32).toNat =
      op.cmd.nbytes.toNat + op.addr.nbytes.toNat + op.dummy.nbytes.toNat := by
  have cmd := op.cmd.nbytes.isLt
  have addr := op.addr.nbytes.isLt
  have dummy := op.dummy.nbytes.isLt
  simp only [BitVec.toNat_add, BitVec.toNat_setWidth]
  omega

theorem header_lt (op : SpiMemOp) :
    op.cmd.nbytes.toNat + op.addr.nbytes.toNat + op.dummy.nbytes.toNat < 768 := by
  have cmd := op.cmd.nbytes.isLt
  have addr := op.addr.nbytes.isLt
  have dummy := op.dummy.nbytes.isLt
  omega

/-- Without data to send the header is counted right if all of the opcode is sent. -/
theorem header_counted_iff (dir : op.data.dir ≠ .dataOut) :
    (countedBytes op .tx).toNat % 2048 = headerBytes op ↔ opcodeBytes op = op.cmd.nbytes.toNat := by
  have less := header_lt op
  rw [countedBytes, Fifo.pick, totalTxBytes, if_neg dir, header_toNat, headerBytes]
  omega

theorem forall_fifo {P : Fifo → Prop} : (∀ f, P f) ↔ P .tx ∧ P .rx :=
  ⟨fun all => ⟨all .tx, all .rx⟩, fun both f => by cases f; exacts [both.1, both.2]⟩

theorem byteMoves_tx (op : SpiMemOp) :
    byteMoves op .tx = headerBytes op + if op.data.buswidth = 1 then dataMoves op false .tx else 0 := by
  rw [byteMoves, Pi.add_apply, Pi.single_eq_same]
  split <;> rfl

theorem byteMoves_rx (op : SpiMemOp) :
    byteMoves op .rx = if op.data.buswidth = 1 then dataMoves op false .rx else 0 := by
  rw [byteMoves, Pi.add_apply, Pi.single_eq_of_ne (by decide), Nat.zero_add]
  split <;> rfl

/-- Without data a length must count nothing. -/
theorem consistent_iff_of_noData (dir : op.data.dir = .noData) : Consistent op ↔ Fits op := by
  have other : op.data.dir ≠ .dataOut := by rw [dir]; decide
  have none : ∀ word, dataMoves op word = 0 := fun word => by rw [dataMoves, dir]
  have tx : (countedBytes op .tx).toNat % 2048 = byteMoves op .tx ↔
      opcodeBytes op = op.cmd.nbytes.toNat := by
    rw [← header_counted_iff other, byteMoves_tx, none]
    simp
  have rx : (countedBytes op .rx).toNat % 2048 = byteMoves op .rx ↔
      (op.data.buswidth = 1 → op.data.nbytes.toNat % 2048 = 0) := by
    rw [byteMoves_rx, none, countedBytes, Fifo.pick, totalRxBytes, if_neg other]
    split <;> simp_all
  have words : (∀ f, (countedWords op f).toNat % 2048 = dataMoves op true f) ↔
      (op.data.nbytes + 3).toNat / 4 % 2048 = 0 := by
    rw [forall_fifo, none, countedWords, countedWords, if_neg other, if_neg other]
    simp [Fifo.pick]
  constructor
  · intro consistent
    obtain ⟨sent, received⟩ := forall_fifo.mp consistent.bytes
    exact ⟨opcode_fits_iff.mp ⟨consistent.header.opcode, tx.mp sent⟩, consistent.header.addr,
      consistent.header.dummy, fun _ => ⟨rx.mp received, fun lanes => words.mp (consistent.words lanes)⟩,
      fun some => absurd (dir.symm.trans some) (by decide), fun some => absurd some other⟩
  · intro fits
    obtain ⟨one, all⟩ := opcode_fits_iff.mpr fits.opcode
    exact ⟨⟨one, fits.addr, fits.dummy⟩, fun _ some => absurd dir some,
      forall_fifo.mpr ⟨tx.mpr all, rx.mpr (fits.noData dir).1⟩, fun _ some => absurd dir some,
      fun lanes => words.mpr ((fits.noData dir).2 lanes)⟩

/-- Data that are received must fit the count. -/
theorem consistent_iff_of_dataIn (dir : op.data.dir = .dataIn) : Consistent op ↔ Fits op := by
  have other : op.data.dir ≠ .dataOut := by rw [dir]; decide
  have present : op.data.dir ≠ .noData := by rw [dir]; decide
  have moves : ∀ word, dataMoves op word = Pi.single .rx (op.data.nbytes.toNat / unit word) :=
    fun word => by rw [dataMoves, dir]
  have tx : (countedBytes op .tx).toNat % 2048 = byteMoves op .tx ↔
      opcodeBytes op = op.cmd.nbytes.toNat := by
    rw [← header_counted_iff other, byteMoves_tx, moves, Pi.single_eq_of_ne (by decide)]
    simp
  have rx : (countedBytes op .rx).toNat % 2048 = byteMoves op .rx ↔
      (op.data.buswidth = 1 → op.data.nbytes.toNat < 2048) := by
    rw [byteMoves_rx, moves, Pi.single_eq_same, countedBytes, Fifo.pick, totalRxBytes, if_neg other, unit]
    by_cases lane : op.data.buswidth = 1
    · rw [if_pos lane, if_pos lane, if_neg Bool.false_ne_true, Nat.div_one, Nat.mod_eq_iff_lt (by decide)]
      exact ⟨fun less _ => less, fun less => less lane⟩
    · rw [if_neg lane, if_neg lane]
      exact iff_of_true rfl fun one => absurd one lane
  have words (less : op.data.nbytes.toNat < 2 ^ 31) (whole : op.data.nbytes.toNat % 4 = 0) :
      (∀ f, (countedWords op f).toNat % 2048 = dataMoves op true f) ↔ op.data.nbytes.toNat / 4 < 2048 := by
    have sum : (op.data.nbytes + 3).toNat = op.data.nbytes.toNat + 3 := by
      rw [BitVec.toNat_add]
      exact Nat.mod_eq_of_lt (by simp; omega)
    rw [forall_fifo, moves, Pi.single_eq_same, Pi.single_eq_of_ne (by decide), countedWords, countedWords,
      if_neg other, if_neg other]
    simp only [Fifo.pick, BitVec.toNat_udiv, sum, unit]
    simp
    omega
  constructor
  · intro consistent
    obtain ⟨sent, received⟩ := forall_fifo.mp consistent.bytes
    refine ⟨opcode_fits_iff.mp ⟨consistent.header.opcode, tx.mp sent⟩, consistent.header.addr,
      consistent.header.dummy, fun none => absurd none present, fun _ => ⟨rx.mp received, fun lanes => ?_⟩,
      fun some => absurd some other⟩
    obtain ⟨whole, less⟩ := consistent.wholeWords lanes present
    exact ⟨whole, (words less whole).mp (consistent.words lanes)⟩
  · intro fits
    obtain ⟨one, all⟩ := opcode_fits_iff.mpr fits.opcode
    obtain ⟨bytes, lanes⟩ := fits.dataIn dir
    refine ⟨⟨one, fits.addr, fits.dummy⟩, fun lane _ => ⟨Nat.mod_one _, ?_⟩,
      forall_fifo.mpr ⟨tx.mpr all, rx.mpr bytes⟩, fun four _ => ⟨(lanes four).1, ?_⟩, fun four => ?_⟩
    · exact (bytes lane).trans (by decide)
    · have := lanes four
      omega
    · obtain ⟨whole, less⟩ := lanes four
      exact (words (by omega) whole).mpr less

/-- Data that are sent, no more than the driver allows, must be sent on one lane: on whatever lanes they
are sent they are counted in bytes. -/
theorem consistent_iff_of_dataOut (dir : op.data.dir = .dataOut)
    (capped : op.data.nbytes ≤ maxDataCmdLen) : Consistent op ↔ Fits op := by
  have less := header_lt op
  have capped : op.data.nbytes.toNat ≤ 1088 := capped
  have present : op.data.dir ≠ .noData := by rw [dir]; decide
  have moves : ∀ word, dataMoves op word = Pi.single .tx (op.data.nbytes.toNat / unit word) :=
    fun word => by rw [dataMoves, dir]
  have sum : (countedBytes op .tx).toNat =
      op.cmd.nbytes.toNat + op.addr.nbytes.toNat + op.dummy.nbytes.toNat + op.data.nbytes.toNat := by
    rw [countedBytes, Fifo.pick, totalTxBytes, if_pos dir, BitVec.toNat_add, header_toNat]
    exact Nat.mod_eq_of_lt (by omega)
  have tx (lane : op.data.nbytes = 0 ∨ op.data.buswidth = 1) :
      (countedBytes op .tx).toNat % 2048 = byteMoves op .tx ↔ opcodeBytes op = op.cmd.nbytes.toNat := by
    have data : (if op.data.buswidth = 1 then dataMoves op false .tx else 0) = op.data.nbytes.toNat := by
      rw [moves, Pi.single_eq_same, unit, if_neg Bool.false_ne_true, Nat.div_one]
      rcases lane with empty | lane
      · simp [empty]
      · rw [if_pos lane]
    rw [sum, byteMoves_tx, data, headerBytes]
    omega
  have rx : (countedBytes op .rx).toNat % 2048 = byteMoves op .rx ↔
      (op.data.nbytes = 0 ∨ op.data.buswidth = 1) := by
    rw [byteMoves_rx, moves, Pi.single_eq_of_ne (by decide), ite_self, countedBytes, Fifo.pick, totalRxBytes,
      if_pos dir]
    by_cases lane : op.data.buswidth = 1
    · simp [lane]
    · have zero : (0 : BitVec 32).toNat = 0 := rfl
      rw [if_neg lane, BitVec.toNat_sub, or_iff_left lane, BitVec.toNat_eq, zero]
      omega
  have words (empty : op.data.nbytes = 0) (f : Fifo) :
      (countedWords op f).toNat % 2048 = dataMoves op true f := by
    rw [dataMoves_zero empty, countedWords, empty, dir]
    cases f <;> rfl
  constructor
  · intro consistent
    obtain ⟨sent, received⟩ := forall_fifo.mp consistent.bytes
    exact ⟨opcode_fits_iff.mp ⟨consistent.header.opcode, (tx (rx.mp received)).mp sent⟩,
      consistent.header.addr, consistent.header.dummy, fun none => absurd none present,
      fun received => absurd (dir.symm.trans received) (by decide), fun _ => rx.mp received⟩
  · intro fits
    obtain ⟨one, all⟩ := opcode_fits_iff.mpr fits.opcode
    have lane := fits.dataOut dir
    have empty (four : op.data.buswidth = 4) : op.data.nbytes = 0 :=
      lane.resolve_right (by rw [four]; decide)
    exact ⟨⟨one, fits.addr, fits.dummy⟩, fun _ _ => ⟨Nat.mod_one _, by omega⟩,
      forall_fifo.mpr ⟨(tx lane).mpr all, rx.mpr lane⟩,
      fun four _ => by rw [empty four]; exact ⟨Nat.zero_mod _, by decide⟩,
      fun four => words (empty four)⟩

theorem adjustOpSize_capped (dir : (adjustOpSize op).data.dir = .dataOut) :
    (adjustOpSize op).data.nbytes ≤ maxDataCmdLen := by
  rw [adjustOpSize] at dir ⊢
  split
  · exact BitVec.le_refl _
  · next small =>
    rw [if_neg small] at dir
    exact BitVec.not_lt.mp fun more => small ⟨dir, more⟩

theorem consistent_adjustOpSize_iff (op : SpiMemOp) :
    Consistent (adjustOpSize op) ↔ Fits (adjustOpSize op) := by
  cases dir : (adjustOpSize op).data.dir with
  | noData => exact consistent_iff_of_noData dir
  | dataIn => exact consistent_iff_of_dataIn dir
  | dataOut => exact consistent_iff_of_dataOut dir (adjustOpSize_capped dir)

/-- An operation is executed exactly if the controller is not idle in time, so that nothing is done, or if
the operation fits; whether it is among those that the driver says it supports or not. -/
theorem execOp_exact_iff (obliging : Obliging c) (ctrl1SwCopy : BitVec 32) (op : SpiMemOp) :
    ExecutesExactly c ctrl1SwCopy (adjustOpSize op) ↔ TimesOut c ∨ Fits (adjustOpSize op) := by
  by_cases late : TimesOut c
  · exact iff_of_true (executesExactly_of_timesOut ctrl1SwCopy _ late) (Or.inl late)
  · rw [or_iff_right late, ← consistent_adjustOpSize_iff]
    exact ⟨consistent_of_executesExactly late, executesExactly_of_consistent obliging ctrl1SwCopy late⟩

/-- A controller that is always idle, with room and data. -/
def readyController : Controller where
  readl
    | .status1, _ => status1Idle
    | _, _ => 0

theorem readyController_obliging : Obliging readyController := by
  intro h ctrl _ _ f _
  exact ⟨0, BitVec.zero_and⟩

theorem readyController_ready : ¬TimesOut readyController :=
  fun late => absurd (late 0 (by decide)) (by decide)

/-- `SPINAND_GET_FEATURE_OP` -/
def getFeatureOp (reg : BitVec 64) : SpiMemOp where
  cmd := { nbytes := 1, buswidth := 1, opcode := 0x0F }
  addr := { nbytes := 1, buswidth := 1, val := reg }
  dummy := { nbytes := 0 }
  data := { buswidth := 1, dir := .dataIn, nbytes := 1, out := fun _ => 0 }

/-- The status of the flash is read. -/
theorem execOp_exact_getFeature : ExecutesExactly readyController 4 (adjustOpSize (getFeatureOp 0xC0)) :=
  (execOp_exact_iff readyController_obliging 4 (getFeatureOp 0xC0)).mpr <| Or.inr
    ⟨by decide, by decide, by decide, nofun,
      fun _ => ⟨fun _ => by decide, fun four => absurd four (by decide)⟩, nofun⟩

/-- `SPINAND_PAGE_READ_FROM_CACHE_OP(true, addr, 1, buf, len)` -/
def pageReadFromCacheOp (addr : BitVec 64) (len : BitVec 32) : SpiMemOp where
  cmd := { nbytes := 1, buswidth := 1, opcode := 0x0B }
  addr := { nbytes := 2, buswidth := 1, val := addr }
  dummy := { nbytes := 1 }
  data := { buswidth := 1, dir := .dataIn, nbytes := len, out := fun _ => 0 }

/-- A page with its spare bytes is read on one lane: 2112 bytes, which the driver counts as 64. -/
theorem execOp_not_exact : ¬∀ (c : Controller) (ctrl1SwCopy : BitVec 32) (op : SpiMemOp), Obliging c →
    supportsOp op = true → ExecutesExactly c ctrl1SwCopy (adjustOpSize op) := by
  intro all
  have executes := all readyController 4 (pageReadFromCacheOp 0 2112) readyController_obliging (by decide)
  have fits := (consistent_adjustOpSize_iff _).mp
    (consistent_of_executesExactly readyController_ready executes)
  exact absurd ((fits.dataIn (by decide)).1 (by decide)) (by decide)

end Hss.FpgaQspi
