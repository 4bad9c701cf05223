import Hss.FpgaQspi.Exact

/-! Operations as a device behind the controller sees them.  An operation that fits is one frame, and
what the device answers to it is left in the buffer. -/

namespace Hss.FpgaQspi

open Fuel

/-! ### Devices -/

/-- A device on the bus.  It answers by what it was sent since it was selected, byte by byte, and does
what it was told when it is deselected. -/
structure Device where
  State : Type
  answer : List (BitVec 8) → ℕ → State → BitVec 8
  execute : List (BitVec 8) → State → State

/-- A frame in progress: what was sent, how many bytes were answered, and the device. -/
structure Frame (σ : Type) where
  sent : List (BitVec 8)
  answered : ℕ
  device : σ

instance {f : Fifo} {k : ℕ} {h : History} : Decidable (Room f k h) :=
  decidable_of_iff (∃ ctrl ∈ ctrl1 h, ctrl.getLsbD 9 = true ∧ moved f h + k ≤ f.count ctrl) Iff.rfl

def Frame.send {σ : Type} (frame : Frame σ) (bytes : List (BitVec 8)) : Frame σ :=
  { frame with sent := frame.sent ++ bytes }

def Frame.receive {σ : Type} (frame : Frame σ) (n : ℕ) : Frame σ :=
  { frame with answered := frame.answered + n }

theorem Frame.send_nil {σ : Type} (frame : Frame σ) : frame.send [] = frame := by
  rw [send, List.append_nil]

theorem Frame.send_send {σ : Type} (frame : Frame σ) (first second : List (BitVec 8)) :
    (frame.send first).send second = frame.send (first ++ second) := by
  rw [send, send, send, List.append_assoc]

theorem Frame.receive_receive {σ : Type} (frame : Frame σ) (m n : ℕ) :
    (frame.receive m).receive n = frame.receive (m + n) := by
  rw [receive, receive, receive, Nat.add_assoc]

def wordMode (h : History) : Bool := (ctrl1 h).any (·.getLsbD 3)

/-- The bytes of a word, in the order in which they are on the bus. -/
def wordBytes (data : BitVec 32) : List (BitVec 8) :=
  [data.extractLsb' 24 8, data.extractLsb' 16 8, data.extractLsb' 8 8, data.extractLsb' 0 8]

/-- The bytes that an element written to the FIFO is on the bus: a byte is the highest one. -/
def elementBytes (word : Bool) (data : BitVec 32) : List (BitVec 8) :=
  if word then wordBytes data else [data.extractLsb' 24 8]

/-- The bytes of an element read from the FIFO: a byte is the lowest one. -/
def readBytes (word : Bool) (data : BitVec 32) : List (BitVec 8) :=
  if word then wordBytes data else [data.setWidth 8]

/-- The frame in progress after the accesses.  Elements that the transaction does not count are not on
the bus. -/
def Device.after (d : Device) (start : d.State) : History → Frame d.State
  | [] => ⟨[], 0, start⟩
  | .writel ctrl .ctrl1 :: h =>
      let frame := d.after start h
      if ctrl.getLsbD 0 then frame else ⟨[], 0, d.execute frame.sent frame.device⟩
  | .writel data .data :: h =>
      let frame := d.after start h
      if Room .tx 1 h then frame.send (elementBytes (wordMode h) data) else frame
  | .readl .data _ :: h =>
      let frame := d.after start h
      if Room .rx 1 h then frame.receive (unit (wordMode h)) else frame
  | _ :: h => d.after start h

def Device.next (d : Device) (frame : Frame d.State) (n : ℕ) : BitVec 8 :=
  d.answer frame.sent (frame.answered + n) frame.device

/-- The device is behind the controller, which reads as an element what the device answers next. -/
def Device.Behind (d : Device) (c : Controller) (start : d.State) : Prop :=
  ∀ h, Room .rx 1 h → readBytes (wordMode h) (c.readl .data h) =
    (List.range (unit (wordMode h))).map (d.next (d.after start h))

/-- A controller that is always idle, with room, and with what the device answers. -/
def Device.controller (d : Device) (start : d.State) : Controller where
  readl
    | .status1, _ => status1Idle
    | .data, h =>
        let next := d.next (d.after start h)
        if wordMode h then next 0 ++ next 1 ++ next 2 ++ next 3 else (next 0).setWidth 32
    | _, _ => 0

/-- What was last stored at a place of the buffer of an operation. -/
def stored : History → ℕ → BitVec 8
  | [], _ => 0
  | .store offset byte :: h, i => if i = offset then byte else stored h i
  | _ :: h, i => stored h i

variable {c : Controller} {op : SpiMemOp} {f : Fifo} {h h' h'' : History} {s s' : State} {fuel size : ℕ}
variable {buf : TxBuf} {d : Device} {start : d.State}

/-! ### What waiting and loading do -/

/-- Neither the bus nor the buffer are used. -/
structure Aside (h h' : History) : Prop where
  after : ∀ (d : Device) (start : d.State), d.after start h' = d.after start h
  stored : stored h' = stored h

theorem Aside.trans (first : Aside h h') (second : Aside h' h'') : Aside h h'' :=
  ⟨fun d start => (second.after d start).trans (first.after d start), second.stored.trans first.stored⟩

theorem aside_status (reg : Register) (control : reg ≠ .data) (value : BitVec 32) :
    Aside h (.readl reg value :: h) := by
  cases reg with
  | data => exact absurd rfl control
  | ctrl1 => exact ⟨fun _ _ => rfl, rfl⟩
  | status1 => exact ⟨fun _ _ => rfl, rfl⟩
  | status2 => exact ⟨fun _ _ => rfl, rfl⟩

theorem waitStatus2_aside {mask : BitVec 32} (ran : waitStatus2 c mask fuel h = .ok h') :
    Aside h h' := by
  obtain ⟨last, waited, same⟩ := Outcome.bind_eq_ok.mp ran
  cases same
  refine (whileLoop_inv (I := fun s => Aside h s.2) ?_ (aside_status _ (by decide) _) waited).1
  intro s s' aside _ looked
  cases looked
  exact aside.trans (aside_status _ (by decide) _)

theorem pollIdle_aside (count : ℕ) (h : History) : Aside h (pollIdle c count h).2 := by
  induction count generalizing h with
  | zero => exact ⟨fun _ _ => rfl, rfl⟩
  | succ count ih =>
    have look : Aside h (readl c .status1 h).2 := aside_status _ (by decide) _
    rw [pollIdle]
    split
    · exact look
    · exact look.trans (ih _)

/-- The first bytes of a buffer that is sent. -/
def TxBuf.bytes : TxBuf → ℕ → List (BitVec 8)
  | .stack object, n => object.take n
  | .data out, n => (List.range n).map out

theorem TxBuf.bytes_zero (buf : TxBuf) : buf.bytes 0 = [] := by
  cases buf <;> rfl

theorem TxBuf.load_bytes {offset : ℕ} {r : BitVec 8 × History} (ran : buf.load offset h = .ok r) :
    buf.bytes (offset + 1) = buf.bytes offset ++ [r.1] ∧ Aside h r.2 := by
  cases buf with
  | stack object =>
    rw [TxBuf.load] at ran
    split at ran
    next byte found =>
      cases ran
      obtain ⟨less, here⟩ := List.getElem?_eq_some_iff.mp found
      refine ⟨?_, fun _ _ => rfl, rfl⟩
      rw [TxBuf.bytes, TxBuf.bytes, ← here, List.take_add_one, List.getElem?_eq_getElem less]
      rfl
    next => cases ran
  | data out =>
    cases ran
    refine ⟨?_, fun _ _ => rfl, rfl⟩
    rw [TxBuf.bytes, TxBuf.bytes, List.range_succ, List.map_append, List.map_singleton]

/-! ### Loops -/

theorem Room.mono {k l : ℕ} (le : k ≤ l) (room : Room f l h) : Room f k h := by
  obtain ⟨ctrl, last, started, less⟩ := room
  exact ⟨ctrl, last, started, by omega⟩

theorem wordMode_adds {n : Fifo → ℕ} (adds : Adds size n h h') : wordMode h' = wordMode h := by
  rw [wordMode, wordMode, adds.ctrl1]

/-- What the turns of a loop keep over whole elements holds when all are moved. -/
theorem transfer_rule {turn : ℕ → Transfer → Result Transfer} {unit : ℕ} {size : ℕ → ℕ} {k : ℕ}
    (P : ℕ → History → Prop) (mono : Monotone size) (positive : 0 < unit) (begins : P 0 h)
    (turned : ∀ t t', turn fuel t = .ok t' → Turned unit f size t t')
    (step : ∀ j t t', j < k → t.offset = unit * j → Adds (size t.offset) (Pi.single f j) h t.history →
      P j t.history → turn fuel t = .ok t' → P (j + 1) t'.history)
    (ran : transfer turn (unit * k : ℕ) fuel h = .ok h') : P k h' := by
  obtain ⟨last, looped, same⟩ := Outcome.bind_eq_ok.mp ran
  cases same
  obtain ⟨⟨j, left, offset, len, sum, adds, holds⟩, done⟩ := whileLoop_inv
    (I := fun t => ∃ j left : ℕ, t.offset = unit * j ∧ t.len = ((unit * left : ℕ) : ℤ) ∧ j + left = k ∧
      Adds (size t.offset) (Pi.single f j) h t.history ∧ P j t.history)
    (by
      rintro t t' ⟨j, left, offset, len, sum, adds, holds⟩ more turns
      have goes := turned t t' turns
      cases left with
      | zero => simp [len] at more
      | succ left =>
        refine ⟨j + 1, left, by rw [goes.offset, offset, Nat.mul_succ], ?_, by omega, ?_,
          step j t t' (by omega) offset adds holds turns⟩
        · rw [goes.len, len, Nat.mul_succ]
          push_cast
          ring
        · rw [Pi.single_add]
          refine (adds.mono (mono ?_)).trans goes.adds
          rw [goes.offset]
          exact Nat.le_add_right ..)
    ⟨0, k, rfl, rfl, Nat.zero_add k, by simpa using Adds.refl _ h, begins⟩ looped
  have zero : unit * left = 0 := by
    have none : last.len = 0 := by simpa using done
    omega
  have none : left = 0 := (Nat.mul_eq_zero.mp zero).resolve_left positive.ne'
  have all : j = k := by omega
  exact all ▸ holds

theorem extractLsb'_txByte (byte : BitVec 8) : (txByte byte).extractLsb' 24 8 = byte := by
  apply BitVec.eq_of_getLsbD_eq
  intro i less
  simp only [txByte, BitVec.getLsbD_extractLsb', BitVec.getLsbD_or, BitVec.getLsbD_and,
    BitVec.getLsbD_shiftLeft, BitVec.getLsbD_setWidth]
  interval_cases i <;> simp

/-- The bytes of a buffer are sent, in a transaction with room for them. -/
theorem writeOp_after {len : ℕ} (room : Room .tx len h) (mode : wordMode h = false)
    (ran : writeOp c buf len false fuel h = .ok h') :
    d.after start h' = (d.after start h).send (buf.bytes len) := by
  have ran : transfer (writeByteTurn c buf) (1 * len : ℕ) fuel h = .ok h' := by
    rw [Nat.one_mul]
    exact ran
  refine transfer_rule (f := .tx) (fun j h' => d.after start h' = (d.after start h).send (buf.bytes j))
    buf.used_mono Nat.one_pos (by rw [buf.bytes_zero, Frame.send_nil])
    (fun _ _ turn => (writeByteTurn_ok turn).1) ?_ ran
  intro j t t' less offset adds holds turn
  obtain ⟨left, -, turn⟩ := Outcome.bind_eq_ok.mp turn
  obtain ⟨h1, waited, turn⟩ := Outcome.bind_eq_ok.mp turn
  obtain ⟨byte, loaded, turn⟩ := Outcome.bind_eq_ok.mp turn
  cases turn
  have adds1 := (waitStatus2_ok (buf.used (t.offset + 1)) waited).trans (TxBuf.load_ok loaded).1
  obtain ⟨bytes, aside⟩ := TxBuf.load_bytes loaded
  have here : Room .tx 1 t.history :=
    Room.mono (show 1 ≤ len - j by omega) (Room.adds (by rwa [Pi.single_eq_same,
      Nat.add_sub_of_le less.le]) adds)
  have mode1 : wordMode byte.2 = false := by rw [wordMode_adds adds1, wordMode_adds adds, mode]
  have room1 : Room .tx 1 byte.2 := Room.adds (n := 0 + 0) (by simpa using here) adds1
  show d.after start (.writel (txByte byte.1) .data :: byte.2) = _
  rw [Device.after, if_pos room1, mode1, ((waitStatus2_aside waited).trans aside).after, holds,
    elementBytes, if_neg Bool.false_ne_true, extractLsb'_txByte]
  rw [← offset.trans (Nat.one_mul j), bytes, Frame.send_send]

/-! ### Reading -/

/-- The bytes that the device answers next are in the first places of the buffer. -/
def Kept (d : Device) (frame : Frame d.State) (n : ℕ) (h : History) : Prop :=
  ∀ i < n, stored h i = d.next frame i

theorem stored_store {offset i : ℕ} {byte : BitVec 8} :
    stored (.store offset byte :: h) i = if i = offset then byte else stored h i := rfl

theorem extractLsb'_append4 (b3 b2 b1 b0 : BitVec 8) :
    (b3 ++ b2 ++ b1 ++ b0 : BitVec 32).extractLsb' 0 8 = b0 ∧
      (b3 ++ b2 ++ b1 ++ b0 : BitVec 32).extractLsb' 8 8 = b1 ∧
      (b3 ++ b2 ++ b1 ++ b0 : BitVec 32).extractLsb' 16 8 = b2 ∧
      (b3 ++ b2 ++ b1 ++ b0 : BitVec 32).extractLsb' 24 8 = b3 := by
  refine ⟨?_, ?_, ?_, ?_⟩ <;>
  · apply BitVec.eq_of_getLsbD_eq
    intro i less
    simp only [BitVec.getLsbD_extractLsb', BitVec.getLsbD_append]
    interval_cases i <;> simp

/-- A word is stored with the bytes in their order on the bus. -/
theorem stored_storeWord (offset : ℕ) (data : BitVec 32) (h : History) (i : ℕ) :
    stored (storeWord offset (swap32 data) h) i =
      if offset ≤ i ∧ i < offset + 4 then (wordBytes data).getD (i - offset) 0 else stored h i := by
  obtain ⟨b0, b1, b2, b3⟩ := extractLsb'_append4 (data.extractLsb' 0 8) (data.extractLsb' 8 8)
    (data.extractLsb' 16 8) (data.extractLsb' 24 8)
  rw [storeWord, swap32, b0, b1, b2, b3]
  simp only [stored_store]
  by_cases inside : offset ≤ i ∧ i < offset + 4
  · obtain ⟨k, rfl⟩ := Nat.exists_eq_add_of_le inside.1
    have less : k < 4 := by omega
    rw [if_pos inside]
    interval_cases k <;> simp [wordBytes]
  · rw [if_neg inside, if_neg (by omega), if_neg (by omega), if_neg (by omega), if_neg (by omega)]

theorem Kept.turn {word : Bool} {j : ℕ} {h2 : History} (behind : d.Behind c start)
    (room : Room .rx 1 h1) (mode : wordMode h1 = word) {frame : Frame d.State}
    (here : d.after start h1 = frame.receive (unit word * j))
    (kept : Kept d frame (unit word * j) h1)
    (stores : ∀ i, stored h2 i = if unit word * j ≤ i ∧ i < unit word * j + unit word then
      (readBytes word (c.readl .data h1)).getD (i - unit word * j) 0 else stored h1 i) :
    Kept d frame (unit word * (j + 1)) h2 := by
  intro i less
  rw [stores]
  split
  next inside =>
    rw [← mode, behind h1 room, mode, here, List.getD_eq_getElem?_getD, List.getElem?_map,
      List.getElem?_range (by omega)]
    show d.answer frame.sent (frame.answered + unit word * j + (i - unit word * j)) frame.device = _
    rw [Nat.add_assoc, Nat.add_sub_of_le inside.1]
    rfl
  next outside =>
    rw [Nat.mul_succ] at less
    exact kept i (by omega)

/-- What is read is what the device answers, in a transaction with room for it. -/
theorem readOp_after {len : ℕ} {word : Bool} {r : ℤ × History} (behind : d.Behind c start)
    (room : Room .rx len h) (mode : wordMode h = word)
    (ran : readOp c (unit word * len : ℕ) word fuel h = .ok r) :
    d.after start r.2 = (d.after start h).receive (unit word * len) ∧
      Kept d (d.after start h) (unit word * len) r.2 := by
  rw [readOp] at ran
  split at ran
  next zero =>
    cases ran
    have none : unit word * len = 0 := by exact_mod_cast zero
    rw [none]
    exact ⟨rfl, fun i less => absurd less (Nat.not_lt_zero i)⟩
  next some =>
    obtain ⟨h', moves, same⟩ := Outcome.bind_eq_ok.mp ran
    cases same
    -- before each element there is room for it
    have before {j : ℕ} {h1 h2 : History} {size : ℕ} (less : j < len)
        (adds : Adds size (Pi.single .rx j) h h1) (waited : Adds size 0 h1 h2) :
        Room .rx 1 h2 ∧ wordMode h2 = word := by
      have room1 : Room .rx 1 h1 := Room.mono (show 1 ≤ len - j by omega)
        (Room.adds (by rwa [Pi.single_eq_same, Nat.add_sub_of_le less.le]) adds)
      exact ⟨Room.adds (n := 0) room1 waited, by rw [wordMode_adds waited, wordMode_adds adds, mode]⟩
    cases word with
    | false =>
      refine transfer_rule (f := .rx) (fun j h' =>
        d.after start h' = (d.after start h).receive (unit false * j) ∧
          Kept d (d.after start h) (unit false * j) h') monotone_id Nat.one_pos
        ⟨rfl, fun i less => absurd less (Nat.not_lt_zero i)⟩ (fun _ _ => readByteTurn_ok) ?_ moves
      rintro j t t' less offset adds ⟨here, kept⟩ turn
      obtain ⟨left, -, turn⟩ := Outcome.bind_eq_ok.mp turn
      obtain ⟨h1, waited, turn⟩ := Outcome.bind_eq_ok.mp turn
      cases turn
      obtain ⟨room1, mode1⟩ := before less adds (waitStatus2_ok _ waited)
      have aside := waitStatus2_aside waited
      rw [← aside.after] at here
      have offset : t.offset = unit false * j := offset
      refine ⟨?_, Kept.turn behind room1 mode1 here (fun i less => ?_) fun i => ?_⟩
      · show d.after start (.readl .data (c.readl .data h1) :: h1) = _
        rw [Device.after, if_pos room1, mode1, here, Frame.receive_receive, Nat.mul_succ]
      · rw [aside.stored]
        exact kept i less
      · show stored (.store t.offset _ :: .readl .data _ :: h1) i = _
        rw [stored_store, offset]
        by_cases same : i = unit false * j
        · rw [if_pos same, if_pos ⟨same.ge, same ▸ Nat.lt_succ_self _⟩, same, Nat.sub_self]
          rfl
        · have one : unit false = 1 := rfl
          rw [if_neg same, if_neg (by omega)]
          rfl
    | true =>
      refine transfer_rule (f := .rx) (fun j h' =>
        d.after start h' = (d.after start h).receive (unit true * j) ∧
          Kept d (d.after start h) (unit true * j) h') monotone_id (by decide)
        ⟨rfl, fun i less => absurd less (Nat.not_lt_zero i)⟩ (fun _ _ => readWordTurn_ok) ?_ moves
      rintro j t t' less offset adds ⟨here, kept⟩ turn
      obtain ⟨h1, waited, turn⟩ := Outcome.bind_eq_ok.mp turn
      obtain ⟨left, -, turn⟩ := Outcome.bind_eq_ok.mp turn
      cases turn
      obtain ⟨room1, mode1⟩ := before less adds (waitStatus2_ok _ waited)
      have aside := waitStatus2_aside waited
      rw [← aside.after] at here
      have offset : t.offset = unit true * j := offset
      refine ⟨?_, Kept.turn behind room1 mode1 here (fun i less => ?_) fun i => ?_⟩
      · show d.after start (.readl .data (c.readl .data h1) :: h1) = _
        rw [Device.after, if_pos room1, mode1, here, Frame.receive_receive, Nat.mul_succ]
      · rw [aside.stored]
        exact kept i less
      · show stored (storeWord t.offset _ (.readl .data _ :: h1)) i = _
        rw [stored_storeWord, offset]
        rfl

/-! ### The header -/

/-- Bytes were sent: in a transaction of bytes with room for them the device has them. -/
structure Sends (d : Device) (start : d.State) (size : ℕ) (bytes : List (BitVec 8)) (h h' : History) :
    Prop where
  adds : Adds size (Pi.single .tx bytes.length) h h'
  after : Room .tx bytes.length h → wordMode h = false →
    d.after start h' = (d.after start h).send bytes

theorem Sends.nil : Sends d start size [] h h :=
  ⟨by simpa using Adds.refl size h, fun _ _ => (Frame.send_nil _).symm⟩

theorem Sends.append {first second : List (BitVec 8)} (sends : Sends d start size first h h')
    (more : Sends d start size second h' h'') : Sends d start size (first ++ second) h h'' where
  adds := by
    rw [List.length_append, Pi.single_add]
    exact sends.adds.trans more.adds
  after room mode := by
    rw [List.length_append] at room
    have room' : Room .tx second.length h' := Room.adds (by rwa [Pi.single_eq_same]) sends.adds
    rw [more.after room' ((wordMode_adds sends.adds).trans mode),
      sends.after (room.mono (Nat.le_add_right ..)) mode, Frame.send_send]

theorem writeStack_sends {object : List (BitVec 8)} {len : ℕ}
    (ran : writeOp c (.stack object) len false fuel h = .ok h') :
    Sends d start size (object.take len) h h' := by
  obtain ⟨le, adds⟩ := writeStack_ok size ran
  have length : (object.take len).length = len := List.length_take_of_le le
  exact ⟨length.symm ▸ adds, fun room mode => writeOp_after (length ▸ room) mode ran⟩

def opcodeSent (op : SpiMemOp) : List (BitVec 8) :=
  if op.cmd.opcode = 0 then [] else [op.cmd.opcode.setWidth 8].take op.cmd.nbytes.toNat

theorem sendOpcode_sends (ran : sendOpcode c op fuel h = .ok h') :
    Sends d start size (opcodeSent op) h h' := by
  rw [sendOpcode] at ran
  split at ran
  next present =>
    rw [opcodeSent, if_neg present]
    exact writeStack_sends ran
  next absent =>
    cases ran
    rw [opcodeSent, if_pos (not_not.mp absent)]
    exact .nil

/-- The address as it is sent, the highest byte first. -/
def addressSent (op : SpiMemOp) : List (BitVec 8) :=
  (List.range op.addr.nbytes.toNat).map fun i =>
    ((op.addr.val.setWidth 32 : BitVec 32) >>> (8 * (op.addr.nbytes.toNat - i - 1))).setWidth 8

theorem opaddrLoop_getElem? {address : BitVec 32} {nbytes left : ℕ} {opaddr set : List (BitVec 8)}
    (ran : opaddrLoop address nbytes left opaddr = .ok set) (le : left ≤ nbytes) (i : ℕ) :
    set[i]? = if nbytes - left ≤ i ∧ i < nbytes then
      some ((address >>> (8 * (nbytes - i - 1))).setWidth 8) else opaddr[i]? := by
  induction left generalizing opaddr with
  | zero =>
    cases ran
    rw [if_neg (by omega)]
  | succ left ih =>
    rw [opaddrLoop] at ran
    split at ran
    next inside =>
      rw [ih ran (by omega)]
      by_cases later : nbytes - left ≤ i ∧ i < nbytes
      · rw [if_pos later, if_pos (by omega)]
      · rw [if_neg later]
        by_cases here : nbytes - (left + 1) = i
        · subst here
          rw [if_pos (by omega), List.getElem?_set_self inside.2]
        · rw [if_neg (by omega), List.getElem?_set_ne here]
    next => cases ran

theorem sendAddress_sends (ran : sendAddress c op fuel h = .ok h') :
    Sends d start size (addressSent op) h h' := by
  rw [sendAddress] at ran
  split at ran
  next present =>
    obtain ⟨opaddr, set, ran⟩ := Outcome.bind_eq_ok.mp ran
    have sends : Sends d start size _ h h' := writeStack_sends ran
    have same : opaddr.take op.addr.nbytes.toNat = addressSent op := by
      refine List.ext_getElem? fun i => ?_
      rw [List.getElem?_take, addressSent, List.getElem?_map]
      split
      next less =>
        rw [opaddrLoop_getElem? set (Nat.le_refl _), if_pos ⟨by omega, less⟩, List.getElem?_range less]
        rfl
      next more => rw [List.getElem?_eq_none (by simpa using more)]; rfl
    exact same ▸ sends
  next absent =>
    cases ran
    have none : op.addr.nbytes.toNat = 0 := by rw [not_not.mp absent]; rfl
    rw [addressSent, none]
    exact .nil

theorem sendDummy_sends (ran : sendDummy c op fuel h = .ok h') :
    Sends d start size (List.replicate op.dummy.nbytes.toNat 0) h h' := by
  have fits := (sendDummy_ok 0 ran).1
  rw [sendDummy] at ran
  split at ran
  next present =>
    have sends : Sends d start size _ h h' := writeStack_sends ran
    rwa [opaddrZero, List.take_replicate, Nat.min_eq_left fits] at sends
  next absent =>
    cases ran
    have none : op.dummy.nbytes.toNat = 0 := by rw [not_not.mp absent]; rfl
    rw [none]
    exact .nil

/-! ### The data -/

def dataSent (op : SpiMemOp) : List (BitVec 8) :=
  if op.data.dir = .dataOut then (List.range op.data.nbytes.toNat).map op.data.out else []

/-- How many bytes are read on so many lanes. -/
def bytesRead (op : SpiMemOp) (lanes : BitVec 8) : ℕ :=
  if op.data.dir = .dataIn ∧ op.data.buswidth = lanes then op.data.nbytes.toNat else 0

/-- What a device is sent in an operation. -/
def frameBytes (op : SpiMemOp) : List (BitVec 8) :=
  opcodeSent op ++ addressSent op ++ List.replicate op.dummy.nbytes.toNat 0 ++ dataSent op

theorem Kept.zero {frame : Frame d.State} : Kept d frame 0 h :=
  fun i less => absurd less (Nat.not_lt_zero i)

theorem bytesRead_of_ne {lanes : BitVec 8} (other : op.data.dir ≠ .dataIn) : bytesRead op lanes = 0 :=
  if_neg fun both => other both.1

/-- What is moved of the data, in a transaction that counts them.  Words are not sent. -/
theorem moveData_after {word : Bool} (behind : d.Behind c start) (whole : WholeData op word)
    (rooms : Rooms (dataMoves op word) h) (mode : wordMode h = word)
    (bytes : op.data.dir = .dataOut → op.data.nbytes = 0 ∨ word = false)
    (ran : moveData c op word fuel h = .ok h') :
    d.after start h' = ((d.after start h).send (dataSent op)).receive (bytesRead op op.data.buswidth) ∧
      Kept d ((d.after start h).send (dataSent op)) (bytesRead op op.data.buswidth) h' := by
  cases dir : op.data.dir with
  | noData =>
    simp only [moveData, dir] at ran
    cases ran
    rw [bytesRead_of_ne (by rw [dir]; decide), dataSent, dir, if_neg (by decide), Frame.send_nil]
    exact ⟨rfl, .zero⟩
  | dataIn =>
    obtain ⟨multiple, less⟩ := whole (by rw [dir]; decide)
    simp only [moveData, dir, toInt_eq_unit_mul multiple less] at ran
    obtain ⟨r, reads, same⟩ := Outcome.bind_eq_ok.mp ran
    cases same
    rw [dataMoves, dir] at rooms
    have all : unit word * (op.data.nbytes.toNat / unit word) = bytesRead op op.data.buswidth := by
      rw [bytesRead, if_pos ⟨dir, rfl⟩, Nat.mul_div_cancel' (Nat.dvd_of_mod_eq_zero multiple)]
    obtain ⟨after, kept⟩ := readOp_after behind (by simpa using rooms .rx) mode reads
    rw [dataSent, dir, if_neg (by decide), Frame.send_nil]
    exact ⟨all ▸ after, all ▸ kept⟩
  | dataOut =>
    rw [bytesRead_of_ne (by rw [dir]; decide), dataSent, if_pos dir]
    rcases bytes dir with none | rfl
    · simp only [moveData, dir, none] at ran ⊢
      obtain ⟨last, looped, same⟩ := Outcome.bind_eq_ok.mp ran
      cases same
      rw [whileLoop_of_not (by rfl)] at looped
      cases looped
      rw [show (List.range (0 : BitVec 32).toNat).map op.data.out = [] from rfl, Frame.send_nil]
      exact ⟨rfl, .zero⟩
    · obtain ⟨multiple, less⟩ := whole (by rw [dir]; decide)
      have all : unit false * (op.data.nbytes.toNat / unit false) = op.data.nbytes.toNat :=
        Nat.mul_div_cancel' (Nat.dvd_of_mod_eq_zero multiple)
      simp only [moveData, dir, toInt_eq_unit_mul multiple less, all] at ran
      rw [dataMoves, dir] at rooms
      have room : Room .tx op.data.nbytes.toNat h := by simpa [unit] using rooms .tx
      exact ⟨writeOp_after room mode ran, .zero⟩

theorem byteData_after (behind : d.Behind c start) (fits : Fits op) (consistent : Consistent op)
    (rooms : Rooms (if op.data.buswidth = 1 then dataMoves op false else 0) h)
    (mode : wordMode h = false)
    (ran : byteData c op fuel h = .ok h') :
    d.after start h' = ((d.after start h).send (dataSent op)).receive (bytesRead op 1) ∧
      Kept d ((d.after start h).send (dataSent op)) (bytesRead op 1) h' := by
  rw [byteData] at ran
  split at ran
  next both =>
    rw [if_pos both.2] at rooms
    have moved := moveData_after behind (consistent.wholeBytes both.2) rooms mode
      (fun _ => .inr rfl) ran
    rwa [both.2] at moved
  next neither =>
    cases ran
    have none (lane : op.data.buswidth = 1) : op.data.nbytes = 0 :=
      not_not.mp fun some => neither ⟨some, lane⟩
    have sent : dataSent op = [] := by
      rw [dataSent]
      split
      next dir =>
        rw [(fits.dataOut dir).elim id none]
        rfl
      next => rfl
    have read : bytesRead op 1 = 0 := by
      rw [bytesRead]
      split
      next both =>
        rw [none both.2]
        rfl
      next => rfl
    rw [sent, read, Frame.send_nil]
    exact ⟨rfl, .zero⟩

/-! ### Transactions -/

theorem startTransaction_after (txLen rxLen : BitVec 32) (s : State) :
    d.after start (startTransaction txLen rxLen s).history = d.after start s.history := by
  show (if (startTransaction txLen rxLen s).ctrl1SwCopy.getLsbD 0 then _ else _) = _
  rw [if_pos (by simp [startTransaction, writeCtrl1, ctrl1ChipEnable])]

theorem wordMode_startTransaction (txLen rxLen : BitVec 32) (word : Bool) (s : State) :
    wordMode (startTransaction txLen rxLen (setOperateMode word s)).history = word := by
  show (startTransaction txLen rxLen (setOperateMode word s)).ctrl1SwCopy.getLsbD 3 = word
  cases word <;>
    simp [startTransaction, writeCtrl1, setOperateMode, ctrl1LaneWidthX4, ctrl1DataModeWord, ctrl1Start,
      ctrl1ChipEnable, ctrl1TxCount, ctrl1RxCount]

theorem finishTransaction_after_keep (selected : s.ctrl1SwCopy.getLsbD 0 = true) :
    d.after start (finishTransaction true s).history = d.after start s.history := by
  show (if (finishTransaction true s).ctrl1SwCopy.getLsbD 0 then _ else _) = _
  rw [if_pos (by
    simp [finishTransaction, writeCtrl1, ctrl1Start, ctrl1TxCount, ctrl1RxCount, selected])]

theorem finishTransaction_after (s : State) : d.after start (finishTransaction false s).history =
    ⟨[], 0, d.execute (d.after start s.history).sent (d.after start s.history).device⟩ := by
  show (if (finishTransaction false s).ctrl1SwCopy.getLsbD 0 then _ else _) = _
  rw [if_neg (by simp [finishTransaction, writeCtrl1, ctrl1ChipEnable])]

/-! ### An operation is a frame -/

instance : Decidable (Fits op) :=
  decidable_of_iff
    ((op.cmd.nbytes.toNat ≤ if op.cmd.opcode = 0 then 0 else 1) ∧ op.addr.nbytes.toNat ≤ 4 ∧
      op.dummy.nbytes.toNat ≤ 32 ∧
      (op.data.dir = .noData → (op.data.buswidth = 1 → op.data.nbytes.toNat % 2048 = 0) ∧
        (op.data.buswidth = 4 → (op.data.nbytes + 3).toNat / 4 % 2048 = 0)) ∧
      (op.data.dir = .dataIn → (op.data.buswidth = 1 → op.data.nbytes.toNat < 2048) ∧
        (op.data.buswidth = 4 → op.data.nbytes.toNat % 4 = 0 ∧ op.data.nbytes.toNat / 4 < 2048)) ∧
      (op.data.dir = .dataOut → op.data.nbytes = 0 ∨ op.data.buswidth = 1))
    ⟨fun ⟨opcode, addr, dummy, noData, dataIn, dataOut⟩ =>
      ⟨opcode, addr, dummy, noData, dataIn, dataOut⟩,
    fun fits => ⟨fits.opcode, fits.addr, fits.dummy, fits.noData, fits.dataIn, fits.dataOut⟩⟩

theorem length_opcodeSent (fits : opcodeBytes op ≤ 1) : (opcodeSent op).length = opcodeBytes op := by
  rw [opcodeSent, opcodeBytes] at *
  split
  next => rfl
  next present =>
    rw [if_neg present] at fits
    exact List.length_take_of_le fits

theorem execByteOp_after (behind : d.Behind c start) (fits : Fits op) (consistent : Consistent op)
    {σ : d.State} (idle : d.after start s.history = ⟨[], 0, σ⟩)
    (ran : execByteOp c op fuel s = .ok s') :
    d.after start s'.history = ⟨frameBytes op, bytesRead op 1, σ⟩ ∧
      Kept d ⟨frameBytes op, 0, σ⟩ (bytesRead op 1) s'.history := by
  obtain ⟨h1, opcode, ran⟩ := Outcome.bind_eq_ok.mp ran
  obtain ⟨h2, addr, ran⟩ := Outcome.bind_eq_ok.mp ran
  obtain ⟨h3, dummy, ran⟩ := Outcome.bind_eq_ok.mp ran
  obtain ⟨h4, data, ran⟩ := Outcome.bind_eq_ok.mp ran
  cases ran
  have header : Sends d start 0 _ _ _ :=
    ((sendOpcode_sends opcode).append (sendAddress_sends addr)).append (sendDummy_sends dummy)
  have length : (opcodeSent op ++ addressSent op ++ List.replicate op.dummy.nbytes.toNat 0).length =
      headerBytes op := by
    rw [List.length_append, List.length_append, length_opcodeSent consistent.header.opcode, addressSent,
      List.length_map, List.length_range, List.length_replicate, headerBytes]
  have rooms := rooms_startTransaction consistent.bytes (setOperateMode false s)
  have mode := wordMode_startTransaction (totalTxBytes op) (totalRxBytes op) false s
  have started : d.after start _ = ⟨[], 0, σ⟩ :=
    (startTransaction_after (totalTxBytes op) (totalRxBytes op) (setOperateMode false s)).trans idle
  rw [byteMoves, ← length] at rooms
  have sent := header.after (by simpa using rooms.left .tx) mode
  obtain ⟨after, kept⟩ := byteData_after behind fits consistent (rooms.after header.adds)
    ((wordMode_adds header.adds).trans mode) data
  have frame : (d.after start h3).send (dataSent op) = ⟨frameBytes op, 0, σ⟩ := by
    rw [sent, started, Frame.send_send]
    rfl
  rw [frame] at after kept
  refine ⟨(finishTransaction_after_keep ?_).trans (after.trans ?_), kept⟩
  · simp [startTransaction, writeCtrl1, ctrl1ChipEnable]
  · rw [Frame.receive, Nat.zero_add]

theorem execWordOp_after (behind : d.Behind c start) (fits : Fits op) (consistent : Consistent op)
    (ran : execWordOp c op fuel s = .ok s') :
    d.after start s'.history =
        ⟨[], 0, d.execute (d.after start s.history).sent (d.after start s.history).device⟩ ∧
      Kept d (d.after start s.history) (bytesRead op 4) s'.history ∧
      (op.data.buswidth ≠ 4 → stored s'.history = stored s.history) := by
  rw [execWordOp] at ran
  split at ran
  next lanes =>
    obtain ⟨h, data, ran⟩ := Outcome.bind_eq_ok.mp ran
    cases ran
    have none (dir : op.data.dir = .dataOut) : op.data.nbytes = 0 :=
      (fits.dataOut dir).resolve_right (by rw [lanes]; decide)
    have sent : dataSent op = [] := by
      rw [dataSent]
      split
      next dir =>
        rw [none dir]
        rfl
      next => rfl
    obtain ⟨after, kept⟩ := moveData_after behind (consistent.wholeWords lanes)
      (rooms_startTransaction (consistent.words lanes) (setOperateMode true s))
      (wordMode_startTransaction _ _ true s) (fun dir => .inl (none dir)) data
    have started : d.after start _ = d.after start s.history := startTransaction_after
      (if op.data.dir = .dataOut then (op.data.nbytes + 3) / 4 else 0)
      (if op.data.dir = .dataOut then 0 else (op.data.nbytes + 3) / 4) (setOperateMode true s)
    rw [sent, Frame.send_nil, lanes, started] at after kept
    refine ⟨(finishTransaction_after _).trans ?_, kept, fun other => absurd lanes other⟩
    rw [show d.after start h = _ from after]
    rfl
  next lanes =>
    cases ran
    have none : bytesRead op 4 = 0 := if_neg fun both => lanes both.2
    rw [none]
    exact ⟨finishTransaction_after s, .zero, fun _ => rfl⟩

/-- An operation that fits is one frame to the device behind the controller; what the device answers to
it is in the buffer. -/
theorem execOp_frame (behind : d.Behind c start) (fits : Fits (adjustOpSize op)) {σ : d.State}
    (idle : d.after start s.history = ⟨[], 0, σ⟩)
    (ran : execOp c (adjustOpSize op) fuel s = .ok (0, s')) :
    d.after start s'.history = ⟨[], 0, d.execute (frameBytes (adjustOpSize op)) σ⟩ ∧
      ((adjustOpSize op).data.dir = .dataIn →
        (adjustOpSize op).data.buswidth = 1 ∨ (adjustOpSize op).data.buswidth = 4 →
        ∀ i < (adjustOpSize op).data.nbytes.toNat,
          stored s'.history i = d.answer (frameBytes (adjustOpSize op)) i σ) := by
  have consistent := (consistent_adjustOpSize_iff op).mpr fits
  generalize adjustOpSize op = op at *
  rw [execOp] at ran
  split at ran
  next late => exact absurd (congrArg Prod.fst (Except.ok.inj ran)) late
  next =>
    obtain ⟨s1, bytes, ran⟩ := Outcome.bind_eq_ok.mp ran
    obtain ⟨s2, words, ran⟩ := Outcome.bind_eq_ok.mp ran
    cases ran
    have waited := (pollIdle_aside (c := c) timeoutMs s.history).after d start
    obtain ⟨frame, kept⟩ := execByteOp_after behind fits consistent (waited.trans idle) bytes
    obtain ⟨after, kept', same⟩ := execWordOp_after behind fits consistent words
    rw [frame] at after kept'
    refine ⟨after, fun dir lanes i less => ?_⟩
    -- the bytes are read in one transaction or in the other
    have read : stored s'.history i = d.next ⟨frameBytes op, 0, σ⟩ i := by
      rcases lanes with one | four
      · rw [same (by rw [one]; decide)]
        exact kept i (by rwa [bytesRead, if_pos ⟨dir, one⟩])
      · have none : bytesRead op 1 = 0 := if_neg fun both => absurd (both.2.symm.trans four) (by decide)
        rw [none] at kept'
        exact kept' i (by rwa [bytesRead, if_pos ⟨dir, four⟩])
    rw [read, Device.next, Nat.zero_add]

/-- An operation that times out is not seen by the device. -/
theorem execOp_late {err : ℤ} (late : err ≠ 0) (ran : execOp c op fuel s = .ok (err, s')) :
    d.after start s'.history = d.after start s.history := by
  rw [execOp] at ran
  split at ran
  next =>
    cases ran
    exact (pollIdle_aside timeoutMs s.history).after d start
  next =>
    obtain ⟨s1, -, ran⟩ := Outcome.bind_eq_ok.mp ran
    obtain ⟨s2, -, ran⟩ := Outcome.bind_eq_ok.mp ran
    exact absurd (congrArg Prod.fst (Except.ok.inj ran)).symm late

theorem pollIdle_le (count : ℕ) (h : History) : (pollIdle c count h).1 ≤ 0 := by
  induction count generalizing h with
  | zero => exact (by decide : -etimedout ≤ 0)
  | succ count ih =>
    rw [pollIdle]
    split
    · exact Int.le_refl 0
    · exact ih _

/-- An operation fails only if the controller is not idle in time. -/
theorem execOp_err {err : ℤ} (ran : execOp c op fuel s = .ok (err, s')) :
    err = (waitForReady c s.history).1 := by
  rw [execOp] at ran
  split at ran
  next =>
    cases ran
    rfl
  next ready =>
    obtain ⟨s1, -, ran⟩ := Outcome.bind_eq_ok.mp ran
    obtain ⟨s2, -, ran⟩ := Outcome.bind_eq_ok.mp ran
    rw [not_not.mp ready]
    exact (congrArg Prod.fst (Except.ok.inj ran)).symm

/-- With a controller that serves what its transactions count, an operation that fits has a result. -/
theorem ends_execOp (obliging : Obliging c) (fits : Fits (adjustOpSize op)) (s : State) :
    ∃ r, Ends (fun fuel => execOp c (adjustOpSize op) fuel s) r := by
  have consistent := (consistent_adjustOpSize_iff op).mpr fits
  by_cases late : (waitForReady c s.history).1 ≠ 0
  · simp only [execOp, if_pos late]
    exact ⟨_, .ok _⟩
  · obtain ⟨s1, bytes⟩ := ends_execByteOp obliging consistent
      { s with history := (waitForReady c s.history).2 }
    obtain ⟨s2, words⟩ := ends_execWordOp obliging consistent s1
    simp only [execOp, if_neg late]
    exact ⟨_, bytes.bind (words.bind (.ok _))⟩

/-! ### A controller in front of a device -/

theorem behind_controller (d : Device) (start : d.State) :
    d.Behind (d.controller start) start := by
  intro h _
  cases mode : wordMode h with
  | false =>
    have byte : (d.controller start).readl .data h = (d.next (d.after start h) 0).setWidth 32 := by
      simp only [Device.controller, mode]
      rfl
    rw [byte]
    show [((d.next (d.after start h) 0).setWidth 32).setWidth 8] = [d.next (d.after start h) 0]
    rw [BitVec.setWidth_setWidth_of_le _ (by decide), BitVec.setWidth_eq]
  | true =>
    have word : (d.controller start).readl .data h = d.next (d.after start h) 0 ++
        d.next (d.after start h) 1 ++ d.next (d.after start h) 2 ++ d.next (d.after start h) 3 := by
      simp only [Device.controller, mode]
      rfl
    obtain ⟨b3, b2, b1, b0⟩ := extractLsb'_append4 (d.next (d.after start h) 0)
      (d.next (d.after start h) 1) (d.next (d.after start h) 2) (d.next (d.after start h) 3)
    rw [word]
    show [_, _, _, _] = [d.next (d.after start h) 0, d.next (d.after start h) 1,
      d.next (d.after start h) 2, d.next (d.after start h) 3]
    rw [b0, b1, b2, b3]

theorem obliging_controller (d : Device) (start : d.State) : Obliging (d.controller start) := by
  intro h ctrl _ _ f _
  exact ⟨0, BitVec.zero_and⟩

theorem waitForReady_controller (d : Device) (start : d.State) (h : History) :
    (waitForReady (d.controller start) h).1 = 0 :=
  (pollIdle_eq_zero_iff _ _).mpr ⟨0, by decide, (by decide : status1Idle &&& status1Idle ≠ 0)⟩

end Hss.FpgaQspi
