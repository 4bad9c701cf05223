import Hss.Lib.Polling
import Hss.Scai.Fpga

/-! The transfers to and from the FIFOs of the controller, under any readings of its status, with flags
and counters that need not agree. -/

namespace Hss

open Polling

/-- The fields of `Scai_Qspi_Status_2_Reg_t` that the transfers use, with any values. -/
structure ScaiQspiStatus2Reading where
  txFifoFull : Bool
  txFifoWrCnt : BitVec 7
  rxFifoEmpty : Bool
  rxFifoRdCnt : BitVec 7

namespace ScaiQspiStatus2Reading

/-- `SCAI_FPGA_FIFO_LENGTH - Tx_Fifo_WrCnt`, a number of 32 bits -/
def freeSpaceWords (s : ScaiQspiStatus2Reading) : ℕ :=
  (BitVec.ofNat 32 scaiFpgaFifoLength - s.txFifoWrCnt.setWidth 32).toNat

/-- The space that is reported: none if the FIFO is full. -/
def txSpace (s : ScaiQspiStatus2Reading) : ℕ :=
  if s.txFifoFull then 0 else scaiFpgaFifoLength - s.txFifoWrCnt.toNat

/-- The data that are reported: none if the FIFO is empty. -/
def rxData (s : ScaiQspiStatus2Reading) : ℕ := if s.rxFifoEmpty then 0 else s.rxFifoRdCnt.toNat

end ScaiQspiStatus2Reading

section
variable (status : ℕ → ScaiQspiStatus2Reading)

/-- The readings as `qspi_fpga_fifo_write` takes them. -/
def txReadings : Readings where
  blocked n := (status n).txFifoFull
  room n := (status n).freeSpaceWords

/-- The readings as `qspi_fpga_fifo_read` takes them. -/
def rxReadings : Readings where
  blocked n := (status n).rxFifoEmpty
  room n := (status n).rxFifoRdCnt.toNat

/-- `qspi_fpga_fifo_write` after some turns of its loop, with what was written to the data register. -/
def qspiFpgaFifoWrite (txBuffer : ℕ → BitVec 8) (txLen : ℕ) (dataSizeIsWord : Bool) (turns : ℕ) :
    Loop (List (BitVec 32)) :=
  run (txReadings status) scaiFpgaFifoTimeout txLen
    (fun i pushed => pushed ++ [txElement dataSizeIsWord txBuffer i]) turns (start [])

/-- The loop of `qspi_fpga_fifo_read` after some turns, with the number of values that the data register
gave, which are `data`, and the memory. -/
def fifoReadTurns (data : ℕ → BitVec 32) (rxBuffer rxLen : ℕ) (dataSizeIsWord : Bool)
    (memory : ℕ → BitVec 8) (turns : ℕ) : Loop (ℕ × (ℕ → BitVec 8)) :=
  run (rxReadings status) scaiFpgaFifoTimeout rxLen
    (fun i effect => (effect.1 + 1, storeElement dataSizeIsWord rxBuffer i (data effect.1) effect.2))
    turns (start (0, memory))

/-- `qspi_fpga_fifo_read` after some turns of its loop: once all is read, what is left in the FIFO is
dropped. -/
def qspiFpgaFifoRead (data : ℕ → BitVec 32) (rxBuffer rxLen : ℕ) (dataSizeIsWord : Bool)
    (memory : ℕ → BitVec 8) (turns : ℕ) : Loop (ℕ × (ℕ → BitVec 8)) :=
  let l := fifoReadTurns status data rxBuffer rxLen dataSizeIsWord memory turns
  if l.returned ∧ rxLen ≤ l.moved then
    let dropped := (status l.readings).rxData
    { l with
      readings := l.readings + 1
      chunks := l.chunks ++ [(l.readings, dropped)]
      effect := (l.effect.1 + dropped, l.effect.2) }
  else l

/-- A write returns, has pushed the first elements in order, and after no reading more of them than the
space it reported. -/
structure FifoWriteEnds (txBuffer : ℕ → BitVec 8) (txLen : ℕ) (dataSizeIsWord : Bool) : Prop where
  returns : ∃ turns, (qspiFpgaFifoWrite status txBuffer txLen dataSizeIsWord turns).returned = true
  inOrder : ∀ turns, let l := qspiFpgaFifoWrite status txBuffer txLen dataSizeIsWord turns
    l.effect = (List.range l.moved).map (txElement dataSizeIsWord txBuffer)
  within : ∀ turns, ∀ chunk ∈ (qspiFpgaFifoWrite status txBuffer txLen dataSizeIsWord turns).chunks,
    chunk.2 ≤ (status chunk.1).txSpace

/-- A read returns, has stored the first elements in order, and has taken after no reading more than the
data it reported. -/
structure FifoReadEnds (data : ℕ → BitVec 32) (rxBuffer rxLen : ℕ) (dataSizeIsWord : Bool)
    (memory : ℕ → BitVec 8) : Prop where
  returns : ∃ turns,
    (qspiFpgaFifoRead status data rxBuffer rxLen dataSizeIsWord memory turns).returned = true
  inOrder : ∀ turns, let l := qspiFpgaFifoRead status data rxBuffer rxLen dataSizeIsWord memory turns
    l.effect.2 = (List.range l.moved).foldl
      (fun memory i => storeElement dataSizeIsWord rxBuffer i (data i) memory) memory
  within : ∀ turns,
    ∀ chunk ∈ (qspiFpgaFifoRead status data rxBuffer rxLen dataSizeIsWord memory turns).chunks,
      chunk.2 ≤ (status chunk.1).rxData

end

variable {status : ℕ → ScaiQspiStatus2Reading} {txBuffer memory : ℕ → BitVec 8}
  {data : ℕ → BitVec 32} {rxBuffer txLen rxLen : ℕ} {dataSizeIsWord : Bool}

theorem scaiFpgaFifoTimeout_pos : 0 < scaiFpgaFifoTimeout := by decide

/-! ### Elements in order -/

theorem moveChunk_push (element : ℕ → BitVec 32) (moved count : ℕ) (pushed : List (BitVec 32)) :
    moveChunk (fun i pushed => pushed ++ [element i]) moved count pushed =
      pushed ++ (List.range' moved count).map element := by
  induction count generalizing moved pushed with
  | zero => simp [moveChunk]
  | succ count ih => rw [moveChunk, ih, List.range'_succ, List.map_cons, List.append_assoc]; rfl

theorem moveChunk_pop (store : ℕ → BitVec 32 → (ℕ → BitVec 8) → ℕ → BitVec 8) (moved count : ℕ)
    (memory : ℕ → BitVec 8) :
    moveChunk (fun i (effect : ℕ × (ℕ → BitVec 8)) => (effect.1 + 1, store i (data effect.1) effect.2))
        moved count (moved, memory) =
      (moved + count,
        (List.range' moved count).foldl (fun memory i => store i (data i) memory) memory) := by
  induction count generalizing moved memory with
  | zero => rfl
  | succ count ih =>
    rw [moveChunk, ih, List.range'_succ, List.foldl_cons, show moved + 1 + count = moved + (count + 1)
      by omega]

theorem write_inv (status : ℕ → ScaiQspiStatus2Reading) (txBuffer : ℕ → BitVec 8) (txLen : ℕ)
    (dataSizeIsWord : Bool) (turns : ℕ) : Inv (txReadings status) scaiFpgaFifoTimeout txLen
    (fun i pushed => pushed ++ [txElement dataSizeIsWord txBuffer i]) []
    (qspiFpgaFifoWrite status txBuffer txLen dataSizeIsWord turns) :=
  (inv_start _ _ _ _ scaiFpgaFifoTimeout_pos).run turns

theorem read_inv (status : ℕ → ScaiQspiStatus2Reading) (data : ℕ → BitVec 32) (rxBuffer rxLen : ℕ)
    (dataSizeIsWord : Bool) (memory : ℕ → BitVec 8) (turns : ℕ) :
    Inv (rxReadings status) scaiFpgaFifoTimeout rxLen
      (fun i effect => (effect.1 + 1, storeElement dataSizeIsWord rxBuffer i (data effect.1) effect.2))
      (0, memory) (fifoReadTurns status data rxBuffer rxLen dataSizeIsWord memory turns) :=
  (inv_start _ _ _ _ scaiFpgaFifoTimeout_pos).run turns

theorem write_inOrder (turns : ℕ) :
    let l := qspiFpgaFifoWrite status txBuffer txLen dataSizeIsWord turns
    l.effect = (List.range l.moved).map (txElement dataSizeIsWord txBuffer) := by
  dsimp only
  rw [(write_inv _ _ _ _ turns).effect, moveChunk_push, List.nil_append, List.range_eq_range']

theorem readTurns_effect (status : ℕ → ScaiQspiStatus2Reading) (data : ℕ → BitVec 32)
    (rxBuffer rxLen : ℕ) (dataSizeIsWord : Bool) (memory : ℕ → BitVec 8) (turns : ℕ) :
    let l := fifoReadTurns status data rxBuffer rxLen dataSizeIsWord memory turns
    l.effect = (l.moved, (List.range l.moved).foldl
      (fun memory i => storeElement dataSizeIsWord rxBuffer i (data i) memory) memory) := by
  dsimp only
  rw [(read_inv _ _ _ _ _ _ turns).effect, moveChunk_pop, Nat.zero_add, List.range_eq_range']

/-! ### Writes -/

theorem freeSpaceWords_le {s : ScaiQspiStatus2Reading}
    (low : s.txFifoWrCnt.toNat ≤ scaiFpgaFifoLength) :
    s.freeSpaceWords = scaiFpgaFifoLength - s.txFifoWrCnt.toNat := by
  rw [scaiFpgaFifoLength] at *
  simp only [ScaiQspiStatus2Reading.freeSpaceWords, scaiFpgaFifoLength, BitVec.toNat_sub,
    BitVec.toNat_setWidth, BitVec.toNat_ofNat]
  omega

theorem freeSpaceWords_pos {s : ScaiQspiStatus2Reading}
    (high : s.txFifoWrCnt.toNat ≠ scaiFpgaFifoLength) : 0 < s.freeSpaceWords := by
  have := s.txFifoWrCnt.isLt
  rw [scaiFpgaFifoLength] at *
  simp only [ScaiQspiStatus2Reading.freeSpaceWords, scaiFpgaFifoLength, BitVec.toNat_sub,
    BitVec.toNat_setWidth, BitVec.toNat_ofNat]
  omega

/-- There comes a reading with which a write is over, and none before it that is not full counts more
elements than the FIFO holds. -/
def TxAgrees (status : ℕ → ScaiQspiStatus2Reading) (txLen : ℕ) : Prop :=
  ∃ n, Settled (txReadings status) scaiFpgaFifoTimeout txLen n ∧
    ∀ m < n, (status m).txFifoFull = false → (status m).txFifoWrCnt.toNat ≤ scaiFpgaFifoLength

theorem fifoWriteEnds_iff :
    FifoWriteEnds status txBuffer txLen dataSizeIsWord ↔ TxAgrees status txLen := by
  constructor
  · intro ends
    obtain ⟨turns, ended⟩ := ends.returns
    have inv := write_inv status txBuffer txLen dataSizeIsWord turns
    refine ⟨_, inv.settled ended, fun m less clear => ?_⟩
    by_contra high
    have short : ¬ txLen ≤ gained (txReadings status) m := fun enough =>
      inv.unsettled m less (.inl enough)
    have within := ends.within turns _ ((inv.chunks m _).mpr ⟨less, clear, rfl⟩)
    have pushes : 0 < (txReadings status).room m :=
      freeSpaceWords_pos fun same => high (Nat.le_of_eq same)
    dsimp only at within
    rw [ScaiQspiStatus2Reading.txSpace, clear, if_neg Bool.false_ne_true] at within
    omega
  · rintro ⟨n, settled, agrees⟩
    refine ⟨(returns_iff scaiFpgaFifoTimeout_pos).mpr ⟨n, settled⟩, write_inOrder,
      fun turns chunk member => ?_⟩
    have inv := write_inv status txBuffer txLen dataSizeIsWord turns
    obtain ⟨less, clear, count⟩ := (inv.chunks chunk.1 chunk.2).mp member
    have before : chunk.1 < n := by
      by_contra past
      exact inv.unsettled n (by omega) settled
    have room : (txReadings status).room chunk.1 = _ :=
      freeSpaceWords_le (agrees chunk.1 before clear)
    rw [ScaiQspiStatus2Reading.txSpace, show (status chunk.1).txFifoFull = false from clear,
      if_neg Bool.false_ne_true]
    omega

/-! ### Reads -/

theorem fifoRead_returned (turns : ℕ) :
    (qspiFpgaFifoRead status data rxBuffer rxLen dataSizeIsWord memory turns).returned =
      (fifoReadTurns status data rxBuffer rxLen dataSizeIsWord memory turns).returned := by
  unfold qspiFpgaFifoRead
  dsimp only
  split <;> rfl

theorem fifoReadEnds_iff : FifoReadEnds status data rxBuffer rxLen dataSizeIsWord memory ↔
    ∃ n, Settled (rxReadings status) scaiFpgaFifoTimeout rxLen n := by
  have returns : (∃ turns, (qspiFpgaFifoRead status data rxBuffer rxLen dataSizeIsWord memory
      turns).returned = true) ↔ ∃ n, Settled (rxReadings status) scaiFpgaFifoTimeout rxLen n := by
    simp only [fifoRead_returned]
    exact returns_iff scaiFpgaFifoTimeout_pos
  refine ⟨fun ends => returns.mp ends.returns, fun settled => ⟨returns.mpr settled, ?_, ?_⟩⟩
  · intro turns
    have effect := readTurns_effect status data rxBuffer rxLen dataSizeIsWord memory turns
    unfold qspiFpgaFifoRead
    dsimp only at effect ⊢
    split <;> exact congrArg Prod.snd effect
  · intro turns chunk member
    have inv := read_inv status data rxBuffer rxLen dataSizeIsWord memory turns
    have inLoop : chunk ∈ (fifoReadTurns status data rxBuffer rxLen dataSizeIsWord memory
        turns).chunks → chunk.2 ≤ (status chunk.1).rxData := by
      intro member
      obtain ⟨_, clear, count⟩ := (inv.chunks chunk.1 chunk.2).mp member
      have room : (rxReadings status).room chunk.1 = (status chunk.1).rxFifoRdCnt.toNat := rfl
      rw [ScaiQspiStatus2Reading.rxData, show (status chunk.1).rxFifoEmpty = false from clear,
        if_neg Bool.false_ne_true]
      omega
    unfold qspiFpgaFifoRead at member
    dsimp only at member
    split at member
    · rcases List.mem_append.mp member with member | last
      · exact inLoop member
      · rw [List.mem_singleton.mp last]
    · exact inLoop member

/-! ### Bounds -/

theorem write_accesses (status : ℕ → ScaiQspiStatus2Reading) (txBuffer : ℕ → BitVec 8) (txLen : ℕ)
    (dataSizeIsWord : Bool) (turns : ℕ) :
    let l := qspiFpgaFifoWrite status txBuffer txLen dataSizeIsWord turns
    l.readings ≤ turns * scaiFpgaFifoTimeout ∧ l.moved ≤ txLen := by
  have readings := (run_readings (txReadings status) scaiFpgaFifoTimeout txLen
    (fun i pushed => pushed ++ [txElement dataSizeIsWord txBuffer i]) turns (start [])).1
  rw [show (start ([] : List (BitVec 32))).readings = 0 from rfl, Nat.zero_add] at readings
  exact ⟨readings, (write_inv _ _ _ _ turns).moved.trans_le (min_le_left ..)⟩

theorem read_accesses (status : ℕ → ScaiQspiStatus2Reading) (data : ℕ → BitVec 32)
    (rxBuffer rxLen : ℕ) (dataSizeIsWord : Bool) (memory : ℕ → BitVec 8) (turns : ℕ) :
    let l := qspiFpgaFifoRead status data rxBuffer rxLen dataSizeIsWord memory turns
    l.readings ≤ turns * scaiFpgaFifoTimeout + 1 ∧ l.effect.1 ≤ rxLen + 127 := by
  have readings := (run_readings (rxReadings status) scaiFpgaFifoTimeout rxLen
    (fun i effect => (effect.1 + 1, storeElement dataSizeIsWord rxBuffer i (data effect.1) effect.2))
    turns (start (0, memory))).1
  rw [show (start (0, memory)).readings = 0 from rfl, Nat.zero_add] at readings
  have popped := congrArg Prod.fst
    (readTurns_effect status data rxBuffer rxLen dataSizeIsWord memory turns)
  have moved := (read_inv status data rxBuffer rxLen dataSizeIsWord memory turns).moved
  have dropped : ∀ s : ScaiQspiStatus2Reading, s.rxData ≤ 127 := fun s => by
    unfold ScaiQspiStatus2Reading.rxData
    split <;> omega
  dsimp only at popped
  unfold qspiFpgaFifoRead
  dsimp only
  split
  · have := dropped (status (fifoReadTurns status data rxBuffer rxLen dataSizeIsWord memory
      turns).readings)
    dsimp only
    unfold fifoReadTurns at *
    omega
  · unfold fifoReadTurns at *
    omega

/-- A transfer ends as it is to if and only if there comes a reading with which it is over: enough space
or data was reported, or the FIFO was full or empty a hundred thousand times in a row; for a write, none
of the readings before it counts more than the FIFO holds.  Where the flags and the counters agree, the
number of accesses is bounded by the length. -/
theorem scaiFifo_ends_iff (status : ℕ → ScaiQspiStatus2Reading) (txBuffer memory : ℕ → BitVec 8)
    (data : ℕ → BitVec 32) (rxBuffer txLen rxLen : ℕ) (dataSizeIsWord : Bool) :
    (FifoWriteEnds status txBuffer txLen dataSizeIsWord ↔ TxAgrees status txLen) ∧
    (FifoReadEnds status data rxBuffer rxLen dataSizeIsWord memory ↔
      ∃ n, Settled (rxReadings status) scaiFpgaFifoTimeout rxLen n) ∧
    ((∀ m, (status m).txFifoFull = false →
        (status m).txFifoWrCnt.toNat < scaiFpgaFifoLength) →
      let l := qspiFpgaFifoWrite status txBuffer txLen dataSizeIsWord (txLen + 1)
      l.returned = true ∧ l.readings + l.moved ≤ (txLen + 1) * scaiFpgaFifoTimeout + txLen) ∧
    ((∀ m, (status m).rxFifoEmpty = false → 0 < (status m).rxFifoRdCnt.toNat) →
      let l := qspiFpgaFifoRead status data rxBuffer rxLen dataSizeIsWord memory (rxLen + 1)
      l.returned = true ∧
        l.readings + l.effect.1 ≤ (rxLen + 1) * scaiFpgaFifoTimeout + rxLen + 128) := by
  refine ⟨fifoWriteEnds_iff, fifoReadEnds_iff, fun agrees => ?_, fun agrees => ?_⟩
  · have accesses := write_accesses status txBuffer txLen dataSizeIsWord (txLen + 1)
    exact ⟨returns_of_room scaiFpgaFifoTimeout_pos fun m clear =>
      freeSpaceWords_pos (agrees m clear).ne, Nat.add_le_add accesses.1 accesses.2⟩
  · have accesses := read_accesses status data rxBuffer rxLen dataSizeIsWord memory (rxLen + 1)
    refine ⟨?_, by dsimp only at accesses ⊢; omega⟩
    rw [fifoRead_returned]
    exact returns_of_room scaiFpgaFifoTimeout_pos agrees

/-- A FIFO of which the status says that it is not full and holds 64 elements, or that it is not empty
and holds none. -/
def stuckStatus : ScaiQspiStatus2Reading := ⟨false, 64, false, 0⟩

def idleStatus : ScaiQspiStatus2Reading := ⟨false, 0, false, 1⟩

theorem scaiFifo_ends_oneElement : FifoWriteEnds (fun _ => idleStatus) (fun _ => 0xAA) 1 false :=
  (scaiFifo_ends_iff (fun _ => idleStatus) (fun _ => 0xAA) (fun _ => 0) (fun _ => 0) 0 1 1 false).1.mpr
    ⟨1, .inl (by decide), fun _ _ _ => Nat.zero_le _⟩

theorem freeSpaceWords_stuckStatus : stuckStatus.freeSpaceWords = 0 := by decide

theorem scaiFifo_not_ends :
    ¬ FifoWriteEnds (fun _ => stuckStatus) (fun _ => 0xAA) 1 false ∧
      ¬ FifoReadEnds (fun _ => stuckStatus) (fun _ => 0) 0 1 false (fun _ => 0) := by
  constructor
  · rw [fifoWriteEnds_iff]
    rintro ⟨n, settled, _⟩
    exact not_settled_of_stuck scaiFpgaFifoTimeout_pos Nat.one_pos
      (fun _ => ⟨rfl, freeSpaceWords_stuckStatus⟩) n settled
  · rw [fifoReadEnds_iff]
    rintro ⟨n, settled⟩
    exact not_settled_of_stuck scaiFpgaFifoTimeout_pos Nat.one_pos (fun _ => ⟨rfl, rfl⟩) n settled

/-! ### Readings that agree -/

/-- The controller as the transactions see it, with flags that follow from the counters. -/
def ScaiQspiStatus2.reading (s : ScaiQspiStatus2) : ScaiQspiStatus2Reading where
  txFifoFull := s.txFifoFull
  txFifoWrCnt := BitVec.ofNat 7 s.txFifoWrCnt
  rxFifoEmpty := s.rxFifoEmpty
  rxFifoRdCnt := BitVec.ofNat 7 s.rxFifoRdCnt

/-- What a FIFO was asked so far. -/
structure FifoRecord where
  readings : ℕ
  pushed : List (BitVec 32)
  popped : ℕ

/-- A controller that gives readings and data in turn. -/
def recordingQspi (status2 : ℕ → ScaiQspiStatus2) (data : ℕ → BitVec 32) : ScaiQspi FifoRecord where
  setCtrl1 _ s := s
  setData value s := { s with pushed := s.pushed ++ [value] }
  getData s := ({ s with popped := s.popped + 1 }, data s.popped)
  getIdle s := (s, true)
  getStatus2 s := ({ s with readings := s.readings + 1 }, status2 s.readings)

variable {status2 : ℕ → ScaiQspiStatus2}

theorem recording_waitTxSpace (timeout : ℕ) (s : FifoRecord) :
    (recordingQspi status2 data).waitTxSpace timeout s =
      match wait (txReadings fun n => (status2 n).reading).blocked timeout s.readings with
      | none => ({ s with readings := s.readings + timeout }, none)
      | some m => ({ s with readings := m + 1 }, some (status2 m)) := by
  induction timeout generalizing s with
  | zero => rfl
  | succ timeout ih =>
    have blocked : (txReadings fun n => (status2 n).reading).blocked s.readings =
      (status2 s.readings).txFifoFull := rfl
    rw [ScaiQspi.waitTxSpace, wait, blocked]
    dsimp only [recordingQspi]
    split
    · rw [← recordingQspi, ih]
      dsimp only
      rw [Nat.add_right_comm, Nat.add_assoc]
    · rfl

theorem recording_writeChunk (element : ℕ → BitVec 32) (count i : ℕ) (s : FifoRecord) :
    (recordingQspi status2 data).writeChunk element count i s =
      { s with pushed := moveChunk (fun i pushed => pushed ++ [element i]) i count s.pushed } := by
  induction count generalizing i s with
  | zero => rfl
  | succ count ih => rw [ScaiQspi.writeChunk, ih]; rfl

theorem reading_room {m : ℕ} (clear : (status2 m).txFifoFull = false) :
    (txReadings fun n => (status2 n).reading).room m =
        scaiFpgaFifoLength - (status2 m).txFifoWrCnt ∧
      0 < scaiFpgaFifoLength - (status2 m).txFifoWrCnt := by
  have most := (status2 m).txFifoWrCnt_le
  have notFull : (status2 m).txFifoWrCnt ≠ scaiFpgaFifoLength := of_decide_eq_false clear
  have count : (status2 m).reading.txFifoWrCnt.toNat = (status2 m).txFifoWrCnt := by
    rw [scaiFpgaFifoLength] at most
    exact Nat.mod_eq_of_lt (by omega)
  refine ⟨?_, by omega⟩
  rw [← count] at most ⊢
  exact freeSpaceWords_le most

/-- Where flags and counters agree, the write of a transaction is this one. -/
theorem recording_fifoWrite (rounds : ℕ) (s : FifoRecord) (l : Loop (List (BitVec 32)))
    (readings : l.readings = s.readings) (pushed : l.effect = s.pushed) (going : l.returned = false)
    (enough : txLen ≤ l.moved + rounds) :
    (recordingQspi status2 data).fifoWrite (txElement dataSizeIsWord txBuffer) txLen rounds l.moved s =
      let l := run (txReadings fun n => (status2 n).reading) scaiFpgaFifoTimeout txLen
        (fun i pushed => pushed ++ [txElement dataSizeIsWord txBuffer i]) (rounds + 1) l
      ({ s with readings := l.readings, pushed := l.effect }, l.moved) := by
  induction rounds generalizing s l with
  | zero =>
    rw [Nat.add_zero] at enough
    rw [run, going, if_neg Bool.false_ne_true, run, turn, if_pos enough, ScaiQspi.fifoWrite]
    dsimp only
    rw [readings, pushed]
  | succ rounds ih =>
    rw [run, going, if_neg Bool.false_ne_true, ScaiQspi.fifoWrite, turn]
    split
    · rw [run_of_returned rfl]
      dsimp only
      rw [readings, pushed]
    · next more =>
      rw [recording_waitTxSpace, readings]
      cases found : wait (txReadings fun n => (status2 n).reading).blocked scaiFpgaFifoTimeout
          s.readings with
      | none =>
        dsimp only
        rw [run_of_returned rfl]
        dsimp only
        rw [pushed]
      | some m =>
        obtain ⟨room, positive⟩ := reading_room (wait_eq_some found).2.2.1
        dsimp only
        rw [recording_writeChunk, room, pushed]
        refine ih _ ⟨m + 1, _, _, _, l.returned⟩ rfl rfl going ?_
        dsimp only
        omega

/-- Whatever the readings, the write of a transaction has pushed the first elements in order, and has
looked no more often than it may for the length. -/
theorem fifoWrite_pushes (popped : ℕ) :
    ∃ readings moved, (recordingQspi status2 data).fifoWrite (txElement dataSizeIsWord txBuffer) txLen
        txLen 0 ⟨0, [], popped⟩ =
        (⟨readings, (List.range moved).map (txElement dataSizeIsWord txBuffer), popped⟩, moved) ∧
      readings ≤ (txLen + 1) * scaiFpgaFifoTimeout ∧ moved ≤ txLen := by
  have accesses := write_accesses (fun n => (status2 n).reading) txBuffer txLen dataSizeIsWord (txLen + 1)
  refine ⟨_, _, ?_, accesses⟩
  rw [← write_inOrder]
  exact recording_fifoWrite txLen ⟨0, [], popped⟩ (start []) rfl rfl rfl (Nat.le_add_left ..)

end Hss
