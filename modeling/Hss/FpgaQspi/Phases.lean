import Hss.FpgaQspi.Accesses

/-! What the phases of an operation program, and what they move when they have a result: the header and
the data in bytes, and then the data in words. -/

namespace Hss.FpgaQspi

open Fuel

variable {c : Controller} {op : SpiMemOp} {f : Fifo} {h h' : History} {s s' : State} {fuel size : ℕ}

/-! ### `CTRL1` -/

/-- Of two values, that for a FIFO. -/
def Fifo.pick {α : Type} (tx rx : α) : Fifo → α
  | .tx => tx
  | .rx => rx

theorem started_startTransaction (txLen rxLen : BitVec 32) (s : State) :
    Started (startTransaction txLen rxLen s).ctrl1SwCopy := by
  simp [Started, startTransaction, writeCtrl1, ctrl1Start]

theorem count_startTransaction (f : Fifo) (txLen rxLen : BitVec 32) (s : State) :
    f.count (startTransaction txLen rxLen s).ctrl1SwCopy = (f.pick txLen rxLen).toNat % 2048 := by
  have field : (startTransaction txLen rxLen s).ctrl1SwCopy >>> f.shift &&& 0x7FF =
      f.pick txLen rxLen &&& 0x7FF := by
    apply BitVec.eq_of_getLsbD_eq
    intro i less
    cases f <;>
      simp only [startTransaction, writeCtrl1, ctrl1TxCount, ctrl1RxCount, ctrl1Start, ctrl1ChipEnable,
        Fifo.pick, Fifo.shift, BitVec.getLsbD_and, BitVec.getLsbD_or, BitVec.getLsbD_ushiftRight,
        BitVec.getLsbD_shiftLeft] <;>
      interval_cases i <;> simp
  rw [Fifo.count, field, BitVec.toNat_and]
  exact Nat.and_two_pow_sub_one_eq_mod _ 11

theorem not_started_finishTransaction (keepCe : Bool) (s : State) :
    ¬Started (finishTransaction keepCe s).ctrl1SwCopy := by
  cases keepCe <;> simp [Started, finishTransaction, writeCtrl1, ctrl1Start]

theorem count_finishTransaction (f : Fifo) (s : State) :
    f.count (finishTransaction false s).ctrl1SwCopy = 0 := by
  have field : (finishTransaction false s).ctrl1SwCopy >>> f.shift &&& 0x7FF = 0 := by
    apply BitVec.eq_of_getLsbD_eq
    intro i less
    cases f <;>
      simp only [finishTransaction, writeCtrl1, ctrl1TxCount, ctrl1RxCount, ctrl1Start, ctrl1ChipEnable,
        Fifo.shift, BitVec.getLsbD_and, BitVec.getLsbD_ushiftRight] <;>
      interval_cases i <;> simp
  rw [Fifo.count, field]
  rfl

theorem cleared_finishTransaction (s : State) : Cleared (finishTransaction false s).history :=
  ⟨(finishTransaction false s).ctrl1SwCopy, rfl, not_started_finishTransaction false s,
    fun f => count_finishTransaction f s, by simp [finishTransaction, writeCtrl1, ctrl1ChipEnable]⟩

/-! ### The header -/

/-- The bytes of the opcode that are sent. -/
def opcodeBytes (op : SpiMemOp) : ℕ := if op.cmd.opcode = 0 then 0 else op.cmd.nbytes.toNat

def headerBytes (op : SpiMemOp) : ℕ := opcodeBytes op + op.addr.nbytes.toNat + op.dummy.nbytes.toNat

/-- The local objects hold what is sent of them, and the shifts are below the width. -/
structure HeaderFits (op : SpiMemOp) : Prop where
  opcode : opcodeBytes op ≤ 1
  addr : op.addr.nbytes.toNat ≤ 4
  dummy : op.dummy.nbytes.toNat ≤ 32

theorem writeStack_ok (size : ℕ) {object : List (BitVec 8)} {len : ℕ}
    (ran : writeOp c (.stack object) len false fuel h = .ok h') :
    len ≤ object.length ∧ Adds size (Pi.single .tx len) h h' := by
  obtain ⟨k, whole, adds, holds⟩ := writeOp_ok ran
  have same : len = k := by simpa [unit] using whole
  subst same
  exact ⟨by simpa [unit, TxBuf.Holds] using holds, adds.mono (Nat.zero_le size)⟩

theorem sendOpcode_ok (size : ℕ) (ran : sendOpcode c op fuel h = .ok h') :
    opcodeBytes op ≤ 1 ∧ Adds size (Pi.single .tx (opcodeBytes op)) h h' := by
  rw [sendOpcode] at ran
  split at ran
  · next present =>
    rw [opcodeBytes, if_neg present]
    exact writeStack_ok size ran
  · next absent =>
    cases ran
    rw [opcodeBytes, if_pos (not_not.mp absent)]
    exact ⟨Nat.zero_le 1, by simpa using Adds.refl size h⟩

theorem opaddrLoop_ok {address : BitVec 32} {nbytes left : ℕ} {opaddr set : List (BitVec 8)}
    (ran : opaddrLoop address nbytes left opaddr = .ok set) : set.length = opaddr.length := by
  induction left generalizing opaddr with
  | zero =>
    cases ran
    rfl
  | succ left ih =>
    rw [opaddrLoop] at ran
    split at ran
    · rw [ih ran, List.length_set]
    · cases ran

/-- The first shift is the widest. -/
theorem opaddrLoop_bound {address : BitVec 32} {nbytes : ℕ} {opaddr set : List (BitVec 8)}
    (ran : opaddrLoop address nbytes nbytes opaddr = .ok set) : nbytes ≤ 4 := by
  cases nbytes with
  | zero => exact Nat.zero_le 4
  | succ n =>
    rw [opaddrLoop] at ran
    split at ran
    · next below => omega
    · cases ran

theorem sendAddress_ok (size : ℕ) (ran : sendAddress c op fuel h = .ok h') :
    op.addr.nbytes.toNat ≤ 4 ∧ Adds size (Pi.single .tx op.addr.nbytes.toNat) h h' := by
  rw [sendAddress] at ran
  split at ran
  · obtain ⟨opaddr, set, ran⟩ := Outcome.bind_eq_ok.mp ran
    exact ⟨opaddrLoop_bound set, (writeStack_ok size ran).2⟩
  · next absent =>
    cases ran
    rw [not_not.mp absent]
    exact ⟨Nat.zero_le 4, by simpa using Adds.refl size h⟩

theorem sendDummy_ok (size : ℕ) (ran : sendDummy c op fuel h = .ok h') :
    op.dummy.nbytes.toNat ≤ 32 ∧ Adds size (Pi.single .tx op.dummy.nbytes.toNat) h h' := by
  rw [sendDummy] at ran
  split at ran
  · exact writeStack_ok size ran
  · next absent =>
    cases ran
    rw [not_not.mp absent]
    exact ⟨Nat.zero_le 32, by simpa using Adds.refl size h⟩

/-! ### The data -/

/-- The elements of the data. -/
def dataMoves (op : SpiMemOp) (word : Bool) : Fifo → ℕ :=
  match op.data.dir with
  | .dataOut => Pi.single .tx (op.data.nbytes.toNat / unit word)
  | .dataIn => Pi.single .rx (op.data.nbytes.toNat / unit word)
  | .noData => 0

theorem dataMoves_zero (empty : op.data.nbytes = 0) (word : Bool) : dataMoves op word = 0 := by
  rw [dataMoves, empty]
  cases op.data.dir <;> simp

/-- The data that is moved are whole elements, and `int` holds the length. -/
def WholeData (op : SpiMemOp) (word : Bool) : Prop :=
  op.data.dir ≠ .noData → op.data.nbytes.toNat % unit word = 0 ∧ op.data.nbytes.toNat < 2 ^ 31

theorem toInt_eq_mul {n : BitVec 32} {word : Bool} {k : ℕ} (whole : n.toInt = unit word * k) :
    n.toNat = unit word * k ∧ n.toNat < 2 ^ 31 := by
  have cases := BitVec.toInt_eq_toNat_cond n
  split at cases
  · omega
  · have less := n.isLt
    have nonneg : (0 : ℤ) ≤ unit word * k := by positivity
    omega

theorem unit_pos (word : Bool) : 0 < unit word := by
  cases word <;> decide

theorem moveData_ok {word : Bool} (ran : moveData c op word fuel h = .ok h') :
    WholeData op word ∧ Adds op.data.nbytes.toNat (dataMoves op word) h h' := by
  rw [moveData] at ran
  split at ran
  · next dir =>
    obtain ⟨k, whole, adds, -⟩ := writeOp_ok ran
    obtain ⟨same, less⟩ := toInt_eq_mul whole
    rw [dataMoves, dir, WholeData, same, Nat.mul_div_cancel_left k (unit_pos word)]
    exact ⟨fun _ => ⟨Nat.mul_mod_right .., same ▸ less⟩, adds⟩
  · next dir =>
    obtain ⟨r, read, last⟩ := Outcome.bind_eq_ok.mp ran
    cases last
    obtain ⟨k, whole, adds⟩ := readOp_ok read
    obtain ⟨same, less⟩ := toInt_eq_mul whole
    rw [dataMoves, dir, WholeData, same, Nat.mul_div_cancel_left k (unit_pos word)]
    exact ⟨fun _ => ⟨Nat.mul_mod_right .., same ▸ less⟩, adds⟩
  · next dir =>
    cases ran
    rw [dataMoves, dir]
    exact ⟨fun some => absurd dir some, .refl _ _⟩

/-- What is moved in bytes. -/
def byteMoves (op : SpiMemOp) : Fifo → ℕ :=
  Pi.single .tx (headerBytes op) + if op.data.buswidth = 1 then dataMoves op false else 0

theorem byteData_ok (ran : byteData c op fuel h = .ok h') :
    (op.data.buswidth = 1 → WholeData op false) ∧
      Adds op.data.nbytes.toNat (if op.data.buswidth = 1 then dataMoves op false else 0) h h' := by
  rw [byteData] at ran
  split at ran
  · next both =>
    rw [if_pos both.2]
    obtain ⟨whole, adds⟩ := moveData_ok ran
    exact ⟨fun _ => whole, adds⟩
  · next neither =>
    cases ran
    by_cases lane : op.data.buswidth = 1
    · have empty : op.data.nbytes = 0 := not_not.mp fun present => neither ⟨present, lane⟩
      rw [if_pos lane, dataMoves_zero empty]
      exact ⟨fun _ _ => by rw [empty]; exact ⟨Nat.zero_mod _, by decide⟩, .refl _ _⟩
    · rw [if_neg lane]
      exact ⟨fun one => absurd one lane, .refl _ _⟩

/-! ### Transactions -/

theorem matches_finishTransaction (keepCe : Bool) (s : State) :
    Matches (finishTransaction keepCe s).history := by
  intro ctrl last started
  cases last
  exact absurd started (not_started_finishTransaction keepCe s)

/-- A transaction is exact if it counts what is moved between its start and its end. -/
theorem exact_transaction {txLen rxLen : BitVec 32} {n : Fifo → ℕ} (quiet : Matches s.history)
    (adds : Adds size n (startTransaction txLen rxLen s).history h) (keepCe : Bool) :
    Exact (finishTransaction keepCe { startTransaction txLen rxLen s with history := h }).history ↔
      Exact s.history ∧ ∀ f : Fifo, (f.pick txLen rxLen).toNat % 2048 = n f := by
  have counts : Matches h ↔ ∀ f : Fifo, (f.pick txLen rxLen).toNat % 2048 = n f := by
    have moves : ∀ f, moved f h = n f := fun f => (adds.moved f).trans (Nat.zero_add (n f))
    constructor
    · intro all f
      rw [← count_startTransaction f txLen rxLen s, ← moves f]
      exact all _ adds.ctrl1 (started_startTransaction txLen rxLen s) f
    · intro all ctrl last _ f
      have same : (startTransaction txLen rxLen s).ctrl1SwCopy = ctrl :=
        Option.some.inj (adds.ctrl1.symm.trans last)
      rw [← same, count_startTransaction, moves]
      exact all f
  show Matches h ∧ Exact h ↔ _
  rw [counts, adds.exact_iff, and_comm]
  exact and_congr_left fun _ => and_iff_right quiet

theorem within_transaction {txLen rxLen : BitVec 32} {n : Fifo → ℕ}
    (adds : Adds size n (startTransaction txLen rxLen s).history h) (keepCe : Bool) {a : Access}
    (present : a ∈ (finishTransaction keepCe { startTransaction txLen rxLen s with history := h }).history) :
    a ∈ s.history ∨ a.Within size := by
  rcases List.mem_cons.mp present with rfl | present
  · exact Or.inr trivial
  · rcases adds.within a present with present | within
    · rcases List.mem_cons.mp present with rfl | present
      · exact Or.inr trivial
      · exact Or.inl present
    · exact Or.inr within

/-- The words that are counted. -/
def countedWords (op : SpiMemOp) (f : Fifo) : BitVec 32 :=
  f.pick (if op.data.dir = .dataOut then (op.data.nbytes + 3) / 4 else 0)
    (if op.data.dir = .dataOut then 0 else (op.data.nbytes + 3) / 4)

/-- The bytes that are counted. -/
def countedBytes (op : SpiMemOp) (f : Fifo) : BitVec 32 := f.pick (totalTxBytes op) (totalRxBytes op)

/-- What the driver counts is what it moves, and all that it does is defined. -/
structure Consistent (op : SpiMemOp) : Prop where
  header : HeaderFits op
  wholeBytes : op.data.buswidth = 1 → WholeData op false
  bytes : ∀ f, (countedBytes op f).toNat % 2048 = byteMoves op f
  wholeWords : op.data.buswidth = 4 → WholeData op true
  words : op.data.buswidth = 4 → ∀ f, (countedWords op f).toNat % 2048 = dataMoves op true f

theorem execByteOp_ok (quiet : Matches s.history) (ran : execByteOp c op fuel s = .ok s') :
    HeaderFits op ∧ (op.data.buswidth = 1 → WholeData op false) ∧
      (Exact s'.history ↔ Exact s.history ∧ ∀ f, (countedBytes op f).toNat % 2048 = byteMoves op f) ∧
      Matches s'.history ∧ ∀ a ∈ s'.history, a ∈ s.history ∨ a.Within op.data.nbytes.toNat := by
  obtain ⟨h1, opcode, ran⟩ := Outcome.bind_eq_ok.mp ran
  obtain ⟨h2, addr, ran⟩ := Outcome.bind_eq_ok.mp ran
  obtain ⟨h3, dummy, ran⟩ := Outcome.bind_eq_ok.mp ran
  obtain ⟨h4, data, ran⟩ := Outcome.bind_eq_ok.mp ran
  cases ran
  obtain ⟨opcodeFits, opcodeAdds⟩ := sendOpcode_ok _ opcode
  obtain ⟨addrFits, addrAdds⟩ := sendAddress_ok _ addr
  obtain ⟨dummyFits, dummyAdds⟩ := sendDummy_ok _ dummy
  obtain ⟨whole, dataAdds⟩ := byteData_ok data
  have adds : Adds op.data.nbytes.toNat (byteMoves op)
      (startTransaction (totalTxBytes op) (totalRxBytes op) (setOperateMode false s)).history h4 := by
    rw [byteMoves, headerBytes, Pi.single_add, Pi.single_add]
    exact ((opcodeAdds.trans addrAdds).trans dummyAdds).trans dataAdds
  exact ⟨⟨opcodeFits, addrFits, dummyFits⟩, whole,
    exact_transaction (s := setOperateMode false s) quiet adds true,
    matches_finishTransaction true _, fun _ => within_transaction (s := setOperateMode false s) adds true⟩

theorem execWordOp_ok (quiet : Matches s.history) (ran : execWordOp c op fuel s = .ok s') :
    (op.data.buswidth = 4 → WholeData op true) ∧
      (Exact s'.history ↔ Exact s.history ∧
        (op.data.buswidth = 4 → ∀ f, (countedWords op f).toNat % 2048 = dataMoves op true f)) ∧
      Matches s'.history ∧ Cleared s'.history ∧
      ∀ a ∈ s'.history, a ∈ s.history ∨ a.Within op.data.nbytes.toNat := by
  rw [execWordOp] at ran
  split at ran
  · next lanes =>
    obtain ⟨h, data, ran⟩ := Outcome.bind_eq_ok.mp ran
    cases ran
    obtain ⟨whole, adds⟩ := moveData_ok data
    refine ⟨fun _ => whole, (exact_transaction (s := setOperateMode true s) quiet adds false).trans ?_,
      matches_finishTransaction false _, cleared_finishTransaction _,
      fun _ => within_transaction (s := setOperateMode true s) adds false⟩
    exact and_congr_right fun _ => ⟨fun all _ => all, fun all => all lanes⟩
  · next lanes =>
    cases ran
    refine ⟨fun four => absurd four lanes, ?_, matches_finishTransaction false _,
      cleared_finishTransaction _, fun a present => ?_⟩
    · exact ⟨fun exact => ⟨exact.2, fun four => absurd four lanes⟩, fun exact => ⟨quiet, exact.1⟩⟩
    · exact (List.mem_cons.mp present).elim (fun same => same ▸ Or.inr trivial) Or.inl

end Hss.FpgaQspi
