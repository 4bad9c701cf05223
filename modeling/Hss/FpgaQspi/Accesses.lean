import Hss.FpgaQspi.Driver
import Mathlib.Algebra.Group.Pi.Lemmas
import Mathlib.Tactic.IntervalCases
import Mathlib.Tactic.Ring

/-! What the accesses of an operation are to be: as many elements moved as the transaction counts, in the
buffer, and `CTRL1` cleared at the end.  What each part of the driver adds to the accesses when it has a
result. -/

namespace Hss.FpgaQspi

open Fuel

/-! ### Transactions -/

/-- The two FIFOs of the controller. -/
inductive Fifo
  | tx
  | rx
  deriving DecidableEq, Repr

/-- The bit of `STATUS2` that says to wait. -/
def Fifo.blocked : Fifo → BitVec 32
  | .tx => status2TxFifoFull
  | .rx => status2RxFifoEmpty

/-- Where `CTRL1` has the count for a FIFO. -/
def Fifo.shift : Fifo → ℕ
  | .tx => 10
  | .rx => 21

def Fifo.count (f : Fifo) (ctrl : BitVec 32) : ℕ := (ctrl >>> f.shift &&& 0x7FF).toNat

/-- An element goes to the FIFO, or comes from it. -/
def Access.Moves : Access → Fifo → Prop
  | .writel _ .data, .tx => True
  | .readl .data _, .rx => True
  | _, _ => False

instance : DecidableRel Access.Moves := fun a f => by
  cases a with
  | readl reg value => cases reg <;> cases f <;> unfold Access.Moves <;> infer_instance
  | writel value reg => cases reg <;> cases f <;> unfold Access.Moves <;> infer_instance
  | load offset => exact .isFalse not_false
  | store offset byte => exact .isFalse not_false

/-- What was last written to `CTRL1`. -/
def ctrl1 : History → Option (BitVec 32)
  | [] => none
  | .writel ctrl .ctrl1 :: _ => some ctrl
  | _ :: h => ctrl1 h

/-- The elements moved since `CTRL1` was last written. -/
def moved (f : Fifo) : History → ℕ
  | [] => 0
  | .writel _ .ctrl1 :: _ => 0
  | a :: h => moved f h + if a.Moves f then 1 else 0

def Started (ctrl : BitVec 32) : Prop := ctrl.getLsbD 9 = true

/-- The transaction in progress, if there is one, counts the elements moved. -/
def Matches (h : History) : Prop :=
  ∀ ctrl, ctrl1 h = some ctrl → Started ctrl → ∀ f : Fifo, f.count ctrl = moved f h

/-- Every transaction counts the elements moved before `CTRL1` is written again. -/
def Exact : History → Prop
  | [] => True
  | .writel _ .ctrl1 :: h => Matches h ∧ Exact h
  | _ :: h => Exact h

/-- An access to the buffer is to one of its first bytes. -/
def Access.Within (size : ℕ) : Access → Prop
  | .load offset => offset < size
  | .store offset _ => offset < size
  | _ => True

/-- START, the counts and the chip enable are clear in `CTRL1`. -/
def Cleared (h : History) : Prop :=
  ∃ ctrl, ctrl1 h = some ctrl ∧ ¬Started ctrl ∧ (∀ f : Fifo, f.count ctrl = 0) ∧ ctrl.getLsbD 0 = false

/-- The accesses after `n` more readings of `STATUS2`. -/
def looked (c : Controller) (h : History) (n : ℕ) : History :=
  (fun h => (readl c .status2 h).2)^[n] h

/-- In a transaction the controller has room, or data, in the end, for as many elements as it counts. -/
def Obliging (c : Controller) : Prop :=
  ∀ h ctrl, ctrl1 h = some ctrl → Started ctrl → ∀ f : Fifo, moved f h < f.count ctrl →
    ∃ n, c.readl .status2 (looked c h n) &&& f.blocked = 0

/-- The controller is not idle at any of the readings for which the driver waits. -/
def TimesOut (c : Controller) : Prop :=
  ∀ n < timeoutMs, c.readl .status1 ((fun h => (readl c .status1 h).2)^[n] []) &&& status1Idle = 0

/-- An operation is executed exactly: it ends; its transactions count the elements moved; it uses no more
of the buffer than `nbytes`; and it leaves `CTRL1` cleared, or as it was if it times out. -/
def ExecutesExactly (c : Controller) (ctrl1SwCopy : BitVec 32) (op : SpiMemOp) : Prop :=
  ∃ err s, Ends (fun fuel => execOp c op fuel ⟨ctrl1SwCopy, []⟩) (err, s) ∧
    Exact s.history ∧ Matches s.history ∧ (∀ a ∈ s.history, a.Within op.data.nbytes.toNat) ∧
    (err = 0 → Cleared s.history) ∧ (err ≠ 0 → ctrl1 s.history = none)

variable {c : Controller} {f : Fifo} {h h' h'' : History} {fuel size size' : ℕ} {n m : Fifo → ℕ}

/-! ### What is added to the accesses -/

/-- Accesses were added: none of them to `CTRL1`, so many that move an element, and those to the buffer
to its first bytes. -/
structure Adds (size : ℕ) (n : Fifo → ℕ) (h h' : History) : Prop where
  ctrl1 : ctrl1 h' = ctrl1 h
  moved : ∀ f, moved f h' = moved f h + n f
  exact_iff : Exact h' ↔ Exact h
  within : ∀ a ∈ h', a ∈ h ∨ a.Within size

namespace Adds

theorem refl (size : ℕ) (h : History) : Adds size 0 h h :=
  ⟨rfl, fun _ => rfl, Iff.rfl, fun _ => Or.inl⟩

theorem trans (first : Adds size n h h') (second : Adds size m h' h'') : Adds size (n + m) h h'' where
  ctrl1 := second.ctrl1.trans first.ctrl1
  moved f := by rw [second.moved, first.moved, Pi.add_apply, Nat.add_assoc]
  exact_iff := second.exact_iff.trans first.exact_iff
  within a present := (second.within a present).elim (first.within a) Or.inr

theorem mono (le : size ≤ size') (adds : Adds size n h h') : Adds size' n h h' where
  ctrl1 := adds.ctrl1
  moved := adds.moved
  exact_iff := adds.exact_iff
  within a present := by
    refine (adds.within a present).imp_right fun within => ?_
    cases a with
    | readl => trivial
    | writel => trivial
    | load offset => exact Nat.lt_of_lt_of_le within le
    | store offset byte => exact Nat.lt_of_lt_of_le within le

/-- One access, not to `CTRL1`. -/
theorem cons {a : Access} (other : ∀ value, a ≠ .writel value .ctrl1) (within : a.Within size) :
    Adds size (fun f => if a.Moves f then 1 else 0) h (a :: h) := by
  have rest : FpgaQspi.ctrl1 (a :: h) = FpgaQspi.ctrl1 h ∧
      (∀ f, FpgaQspi.moved f (a :: h) = FpgaQspi.moved f h + if a.Moves f then 1 else 0) ∧
      (Exact (a :: h) ↔ Exact h) := by
    cases a with
    | writel value reg =>
      cases reg with
      | ctrl1 => exact absurd rfl (other value)
      | data => exact ⟨rfl, fun _ => rfl, Iff.rfl⟩
      | status1 => exact ⟨rfl, fun _ => rfl, Iff.rfl⟩
      | status2 => exact ⟨rfl, fun _ => rfl, Iff.rfl⟩
    | readl reg value => exact ⟨rfl, fun _ => rfl, Iff.rfl⟩
    | load offset => exact ⟨rfl, fun _ => rfl, Iff.rfl⟩
    | store offset byte => exact ⟨rfl, fun _ => rfl, Iff.rfl⟩
  refine ⟨rest.1, rest.2.1, rest.2.2, fun b present => ?_⟩
  rcases List.mem_cons.mp present with rfl | present
  · exact Or.inr within
  · exact Or.inl present

/-- An access that moves nothing. -/
theorem cons_none {a : Access} (other : ∀ value, a ≠ .writel value .ctrl1) (none : ∀ f, ¬a.Moves f)
    (within : a.Within size) : Adds size 0 h (a :: h) := by
  have same : (fun f => if a.Moves f then 1 else 0) = (0 : Fifo → ℕ) := funext fun f => if_neg (none f)
  exact same ▸ cons other within

/-- An access that moves an element. -/
theorem cons_one {a : Access} (other : ∀ value, a ≠ .writel value .ctrl1) (moves : ∀ g, a.Moves g ↔ g = f)
    (within : a.Within size) : Adds size (Pi.single f 1) h (a :: h) := by
  have same : (fun g => if a.Moves g then 1 else 0) = (Pi.single f 1 : Fifo → ℕ) := by
    funext g
    rw [Pi.single_apply]
    simp only [moves]
  exact same ▸ cons other within

theorem status (reg : Register) (control : reg ≠ .data) (value : BitVec 32) :
    Adds size 0 h (.readl reg value :: h) :=
  cons_none nofun (fun f moves => by cases reg <;> cases f <;> first | exact control rfl | exact moves)
    trivial

theorem push (data : BitVec 32) : Adds size (Pi.single .tx 1) h (.writel data .data :: h) :=
  cons_one nofun (fun g => by cases g <;> simp [Access.Moves]) trivial

theorem pop (data : BitVec 32) : Adds size (Pi.single .rx 1) h (.readl .data data :: h) :=
  cons_one nofun (fun g => by cases g <;> simp [Access.Moves]) trivial

theorem load {offset : ℕ} (less : offset < size) : Adds size 0 h (.load offset :: h) :=
  cons_none nofun (fun _ moves => moves) less

theorem store {offset : ℕ} (less : offset < size) (byte : BitVec 8) :
    Adds size 0 h (.store offset byte :: h) :=
  cons_none nofun (fun _ moves => moves) less

end Adds

/-! ### What each part adds -/

theorem subtract_eq_ok {len k left : ℤ} (ran : subtract len k = .ok left) : left = len - k := by
  rw [subtract] at ran
  split at ran
  · cases ran
    rfl
  · cases ran

theorem waitStatus2_ok (size : ℕ) {mask : BitVec 32} (ran : waitStatus2 c mask fuel h = .ok h') :
    Adds size 0 h h' := by
  obtain ⟨last, waited, same⟩ := Outcome.bind_eq_ok.mp ran
  cases same
  refine (whileLoop_inv (I := fun s => Adds size 0 h s.2) ?_ (.status _ (by decide) _) waited).1
  intro s s' adds _ looked
  cases looked
  exact adds.trans (.status _ (by decide) _)

/-- How much of the buffer of the operation is used up to a place. -/
def TxBuf.used : TxBuf → ℕ → ℕ
  | .stack _, _ => 0
  | .data _, n => n

/-- There are so many bytes in the object. -/
def TxBuf.Holds : TxBuf → ℕ → Prop
  | .stack object, n => n ≤ object.length
  | .data _, _ => True

theorem TxBuf.used_mono (buf : TxBuf) : Monotone buf.used := by
  cases buf with
  | stack object => exact monotone_const
  | data out => exact monotone_id

theorem TxBuf.Holds.mono {buf : TxBuf} {k l : ℕ} (le : k ≤ l) (holds : buf.Holds l) : buf.Holds k := by
  cases buf with
  | stack object => exact Nat.le_trans le holds
  | data out => trivial

theorem TxBuf.load_ok {buf : TxBuf} {offset : ℕ} {r : BitVec 8 × History}
    (ran : buf.load offset h = .ok r) :
    Adds (buf.used (offset + 1)) 0 h r.2 ∧ buf.Holds (offset + 1) := by
  cases buf with
  | stack object =>
    rw [TxBuf.load] at ran
    split at ran
    · next byte found =>
      cases ran
      exact ⟨.refl _ _, (List.getElem?_eq_some_iff.mp found).1⟩
    · cases ran
  | data out =>
    cases ran
    exact ⟨.load (Nat.lt_succ_self offset), trivial⟩

theorem TxBuf.loadWord_ok {buf : TxBuf} {offset : ℕ} {r : BitVec 32 × History}
    (ran : buf.loadWord offset h = .ok r) :
    Adds (buf.used (offset + 4)) 0 h r.2 ∧ buf.Holds (offset + 4) := by
  obtain ⟨b0, ran0, ran⟩ := Outcome.bind_eq_ok.mp ran
  obtain ⟨b1, ran1, ran⟩ := Outcome.bind_eq_ok.mp ran
  obtain ⟨b2, ran2, ran⟩ := Outcome.bind_eq_ok.mp ran
  obtain ⟨b3, ran3, ran⟩ := Outcome.bind_eq_ok.mp ran
  cases ran
  have adds0 := (load_ok ran0).1.mono (buf.used_mono (show offset + 1 ≤ offset + 4 by omega))
  have adds1 := (load_ok ran1).1.mono (buf.used_mono (show offset + 1 + 1 ≤ offset + 4 by omega))
  have adds2 := (load_ok ran2).1.mono (buf.used_mono (show offset + 2 + 1 ≤ offset + 4 by omega))
  obtain ⟨adds3, holds⟩ := load_ok ran3
  exact ⟨((adds0.trans adds1).trans adds2).trans adds3, holds⟩

theorem storeWord_adds (offset : ℕ) (data : BitVec 32) :
    Adds (offset + 4) 0 h (storeWord offset data h) := by
  have first : Adds (offset + 4) 0 h (.store offset (data.extractLsb' 0 8) :: h) := .store (by omega) _
  have second := first.trans (.store (show offset + 1 < offset + 4 by omega) (data.extractLsb' 8 8))
  have third := second.trans (.store (show offset + 2 < offset + 4 by omega) (data.extractLsb' 16 8))
  exact third.trans (.store (show offset + 3 < offset + 4 by omega) (data.extractLsb' 24 8))

/-- What a turn of a loop does that moves one element of so many bytes. -/
structure Turned (unit : ℕ) (f : Fifo) (size : ℕ → ℕ) (t t' : Transfer) : Prop where
  len : t'.len = t.len - unit
  offset : t'.offset = t.offset + unit
  adds : Adds (size t'.offset) (Pi.single f 1) t.history t'.history

variable {buf : TxBuf} {t t' : Transfer}

theorem writeByteTurn_ok (ran : writeByteTurn c buf fuel t = .ok t') :
    Turned 1 .tx buf.used t t' ∧ buf.Holds t'.offset := by
  obtain ⟨len, left, ran⟩ := Outcome.bind_eq_ok.mp ran
  obtain ⟨h, waited, ran⟩ := Outcome.bind_eq_ok.mp ran
  obtain ⟨byte, loaded, ran⟩ := Outcome.bind_eq_ok.mp ran
  cases ran
  obtain ⟨adds, holds⟩ := TxBuf.load_ok loaded
  refine ⟨⟨subtract_eq_ok left, rfl, ?_⟩, holds⟩
  simpa using ((waitStatus2_ok _ waited).trans adds).trans (.push _)

theorem writeWordTurn_ok (ran : writeWordTurn c buf fuel t = .ok t') :
    Turned 4 .tx buf.used t t' ∧ buf.Holds t'.offset := by
  obtain ⟨h, waited, ran⟩ := Outcome.bind_eq_ok.mp ran
  obtain ⟨data, loaded, ran⟩ := Outcome.bind_eq_ok.mp ran
  obtain ⟨len, left, ran⟩ := Outcome.bind_eq_ok.mp ran
  cases ran
  obtain ⟨adds, holds⟩ := TxBuf.loadWord_ok loaded
  refine ⟨⟨subtract_eq_ok left, rfl, ?_⟩, holds⟩
  simpa using ((waitStatus2_ok _ waited).trans adds).trans (.push _)

theorem readByteTurn_ok (ran : readByteTurn c fuel t = .ok t') : Turned 1 .rx id t t' := by
  obtain ⟨len, left, ran⟩ := Outcome.bind_eq_ok.mp ran
  obtain ⟨h, waited, ran⟩ := Outcome.bind_eq_ok.mp ran
  cases ran
  refine ⟨subtract_eq_ok left, rfl, ?_⟩
  have popped := (waitStatus2_ok (t.offset + 1) waited).trans (.pop (c.readl .data h))
  simpa [readl] using popped.trans (.store (Nat.lt_succ_self t.offset) _)

theorem readWordTurn_ok (ran : readWordTurn c fuel t = .ok t') : Turned 4 .rx id t t' := by
  obtain ⟨h, waited, ran⟩ := Outcome.bind_eq_ok.mp ran
  obtain ⟨len, left, ran⟩ := Outcome.bind_eq_ok.mp ran
  cases ran
  refine ⟨subtract_eq_ok left, rfl, ?_⟩
  have popped := (waitStatus2_ok (t.offset + 4) waited).trans (.pop (c.readl .data h))
  simpa [readl] using popped.trans (storeWord_adds t.offset _)

/-- Some turns of a loop were taken, from the start of the buffer. -/
def Taken (unit : ℕ) (f : Fifo) (size : ℕ → ℕ) (len : ℤ) (h : History) (t : Transfer) : Prop :=
  ∃ k : ℕ, t.offset = unit * k ∧ len = t.len + unit * k ∧ Adds (size t.offset) (Pi.single f k) h t.history

theorem Taken.turned {unit : ℕ} {size : ℕ → ℕ} {len : ℤ} (mono : Monotone size)
    (taken : Taken unit f size len h t) (turned : Turned unit f size t t') :
    Taken unit f size len h t' := by
  obtain ⟨k, offset, left, adds⟩ := taken
  refine ⟨k + 1, by rw [turned.offset, offset, Nat.mul_succ], ?_, ?_⟩
  · rw [left, turned.len, Nat.cast_succ]
    ring
  · rw [Pi.single_add]
    refine (adds.mono (mono ?_)).trans turned.adds
    rw [turned.offset]
    exact Nat.le_add_right ..

/-- A loop over the length that has a result has moved the length, in whole elements. -/
theorem transfer_ok {turn : ℕ → Transfer → Result Transfer} {unit : ℕ} {size : ℕ → ℕ} (holds : ℕ → Prop)
    {len : ℤ} (mono : Monotone size) (empty : holds 0)
    (turned : ∀ t t', turn fuel t = .ok t' → Turned unit f size t t' ∧ holds t'.offset)
    (ran : transfer turn len fuel h = .ok h') :
    ∃ k : ℕ, len = unit * k ∧ Adds (size (unit * k)) (Pi.single f k) h h' ∧ holds (unit * k) := by
  obtain ⟨last, looped, same⟩ := Outcome.bind_eq_ok.mp ran
  cases same
  have start : Taken unit f size len h ⟨0, len, h⟩ := ⟨0, rfl, by simp, by simpa using Adds.refl _ h⟩
  obtain ⟨⟨⟨k, offset, left, adds⟩, held⟩, done⟩ :=
    whileLoop_inv (I := fun t => Taken unit f size len h t ∧ holds t.offset)
      (fun t t' inv _ turn => ⟨inv.1.turned mono (turned t t' turn).1, (turned t t' turn).2⟩)
      ⟨start, empty⟩ looped
  have zero : last.len = 0 := by simpa using done
  refine ⟨k, ?_, offset ▸ adds, offset ▸ held⟩
  rw [left, zero, zero_add]

/-- The bytes of an element. -/
def unit (word : Bool) : ℕ := if word then 4 else 1

theorem writeOp_ok {len : ℤ} {word : Bool} (ran : writeOp c buf len word fuel h = .ok h') :
    ∃ k : ℕ, len = unit word * k ∧ Adds (buf.used (unit word * k)) (Pi.single .tx k) h h' ∧
      buf.Holds (unit word * k) := by
  have empty : buf.Holds 0 := by
    cases buf with
    | stack object => exact Nat.zero_le _
    | data out => trivial
  cases word with
  | false => exact transfer_ok buf.Holds buf.used_mono empty (fun _ _ => writeByteTurn_ok) ran
  | true => exact transfer_ok buf.Holds buf.used_mono empty (fun _ _ => writeWordTurn_ok) ran

theorem readOp_ok {len : ℤ} {word : Bool} {r : ℤ × History} (ran : readOp c len word fuel h = .ok r) :
    ∃ k : ℕ, len = unit word * k ∧ Adds (unit word * k) (Pi.single .rx k) h r.2 := by
  rw [readOp] at ran
  split at ran
  · next zero =>
    cases ran
    exact ⟨0, by simpa using zero, by simpa using Adds.refl _ h⟩
  · obtain ⟨h', moves, same⟩ := Outcome.bind_eq_ok.mp ran
    cases same
    cases word with
    | false =>
      obtain ⟨k, whole, adds, -⟩ := transfer_ok (fun _ => True) monotone_id trivial
        (fun _ _ turn => ⟨readByteTurn_ok turn, trivial⟩) moves
      exact ⟨k, whole, adds⟩
    | true =>
      obtain ⟨k, whole, adds, -⟩ := transfer_ok (fun _ => True) monotone_id trivial
        (fun _ _ turn => ⟨readWordTurn_ok turn, trivial⟩) moves
      exact ⟨k, whole, adds⟩

end Hss.FpgaQspi
