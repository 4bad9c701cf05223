import Hss.Scai.Mt29f
import Hss.W25n.Device

/-! An MT29F flash without faults behind the controller in the FPGA fabric, and what each command of
the driver does to it. -/

namespace Hss

/-! ### The flash -/

/-- What the flash holds: the pages of its two dies, the cache, the write enable latch, the die that is
selected, and for how many more readings of its features it is busy. -/
structure Mt29f where
  array : Bool → ℕ → ℕ → BitVec 8
  cache : ℕ → BitVec 8
  wel : Bool
  die : Bool
  busy : ℕ

/-- For how many readings of its features the flash is busy with a page: fewer than the driver polls. -/
structure Mt29fDelay where
  polls : ℕ
  polls_lt : polls < mt29fTimeoutIter

namespace Mt29f

def feature (s : Mt29f) (featureAddr : BitVec 8) : BitVec 8 :=
  if featureAddr = mt29fRegStatus then
    (if s.wel then 2 else 0) ||| (if s.busy ≠ 0 then 1 else 0)
  else if featureAddr = mt29fRegDieSelect then if s.die then mt29fDie1 else mt29fDie0
  else 0

/-- The byte `i` that the flash sends after the bytes `oneLane` over one lane, over one lane or four. -/
def output (s : Mt29f) (oneLane : Bytes) (laneWidth : Bool) (i : ℕ) : BitVec 8 :=
  let opcode := oneLane.headD 0
  if opcode = mt29fCmdGetFeatures ∧ oneLane.length = 2 ∧ laneWidth = false then
    s.feature (oneLane.getD 1 0)
  else if oneLane.length = 4 ∧ s.busy = 0 ∧ (opcode, laneWidth) ∈
      [(mt29fCmdReadFromCacheX1, false), (mt29fCmdReadFromCacheX4, true)] then
    s.cache (twoBytes (oneLane.getD 1 0) (oneLane.getD 2 0) + i)
  else 0

/-- A frame that ends: the bytes over one lane, and those over four.  While the flash is busy it accepts
nothing but a reading of a feature. -/
def execute (delay : Mt29fDelay) (nwp : Bool) (s : Mt29f) (oneLane fourLanes : Bytes) : Mt29f :=
  let opcode := oneLane.headD 0
  let column := twoBytes (oneLane.getD 1 0) (oneLane.getD 2 0)
  let row := (oneLane.getD 1 0).toNat * 65536 + twoBytes (oneLane.getD 2 0) (oneLane.getD 3 0)
  if opcode = mt29fCmdGetFeatures then { s with busy := s.busy - 1 }
  else if s.busy ≠ 0 then s
  else if opcode = mt29fCmdWriteEnable then { s with wel := true }
  else if opcode = mt29fCmdSetFeatures then
    if oneLane.getD 1 0 = mt29fRegDieSelect then
      { s with die := (oneLane.getD 2 0).getLsbD 6 }
    else s
  else if opcode = mt29fCmdPageReadToCache then
    { s with cache := s.array s.die row, busy := delay.polls }
  else if s.wel = false then s
  -- A load resets the cache.
  else if opcode = mt29fCmdProgramLoadX1 then
    { s with cache := writeBuffer (fun _ => 0xFF) column (oneLane.drop 3) }
  else if opcode = mt29fCmdProgramLoadX4 then
    { s with cache := writeBuffer (fun _ => 0xFF) column fourLanes }
  else if nwp = false then s
  -- Programming clears bits.
  else if opcode = mt29fCmdProgramExecute then
    { s with
      array := Function.update s.array s.die (Function.update (s.array s.die) row fun column =>
        s.array s.die row column &&& s.cache column)
      wel := false
      busy := delay.polls }
  else if opcode = mt29fCmdBlockErase then
    { s with
      array := Function.update s.array s.die fun r =>
        if r / mt29fPagesPerBlock = row / mt29fPagesPerBlock then fun _ => 0xFF
        else s.array s.die r
      wel := false
      busy := delay.polls }
  else s

end Mt29f

/-! ### The controller -/

/-- The flash with its controller: the control register, the bytes of the frame so far and how many
have come back, how many elements of the transaction are still to be sent and received, and those in the
FIFO that are not sent. -/
structure Mt29fBus where
  flash : Mt29f
  ctrl1 : ScaiQspiCtrl1
  oneLane : Bytes
  fourLanes : Bytes
  received : ℕ
  txLeft : ℕ
  rxLeft : ℕ
  unsent : ℕ

namespace Mt29fBus

/-- The frame ends where the chip is not enabled any more. -/
def setCtrl1 (delay : Mt29fDelay) (ctrl1 : ScaiQspiCtrl1) (b : Mt29fBus) : Mt29fBus :=
  let b :=
    if b.ctrl1.chipEnable && !ctrl1.chipEnable then
      { b with
        flash := b.flash.execute delay b.ctrl1.nwp b.oneLane b.fourLanes
        oneLane := []
        fourLanes := []
        received := 0 }
    else b
  { b with
    ctrl1 := ctrl1
    txLeft := if ctrl1.start then ctrl1.txCount.toNat else 0
    rxLeft := if ctrl1.start then ctrl1.rxCount.toNat else 0
    unsent := 0 }

/-- Bytes sent over the lanes in use, with the elements that are left then. -/
def send (bytes : Bytes) (txLeft : ℕ) (b : Mt29fBus) : Mt29fBus :=
  if b.ctrl1.laneWidth then { b with fourLanes := b.fourLanes ++ bytes, txLeft := txLeft }
  else { b with oneLane := b.oneLane ++ bytes, txLeft := txLeft }

/-- An element is the four bytes of a word as they are in memory, or its topmost byte. -/
def setData (element : BitVec 32) (b : Mt29fBus) : Mt29fBus :=
  if b.txLeft = 0 then { b with unsent := min (b.unsent + 1) scaiFpgaFifoLength }
  else
    b.send (if b.ctrl1.dataMode then wordBytes element else [element.extractLsb' 24 8])
      (b.txLeft - 1)

/-- The byte `i` of those that are still to come back. -/
def byte (b : Mt29fBus) (i : ℕ) : BitVec 8 :=
  b.flash.output b.oneLane b.ctrl1.laneWidth (b.received + i)

/-- The element `i` of those: a word, or a byte at its bottom. -/
def element (b : Mt29fBus) (i : ℕ) : BitVec 32 :=
  if b.ctrl1.dataMode then
    b.byte (4 * i + 3) ++ b.byte (4 * i + 2) ++ b.byte (4 * i + 1) ++ b.byte (4 * i)
  else (0 : BitVec 24) ++ b.byte i

def getData (b : Mt29fBus) : Mt29fBus × BitVec 32 :=
  if b.txLeft ≠ 0 ∨ b.rxLeft = 0 then (b, 0)
  else
    ({ b with
      received := b.received + if b.ctrl1.dataMode then 4 else 1
      rxLeft := b.rxLeft - 1 }, b.element 0)

def getStatus2 (b : Mt29fBus) : Mt29fBus × ScaiQspiStatus2 :=
  (b, ⟨min b.unsent scaiFpgaFifoLength,
    if b.txLeft = 0 then min b.rxLeft scaiFpgaFifoLength else 0, Nat.min_le_right ..⟩)

end Mt29fBus

/-- The registers of the controller with the flash behind it. -/
def mt29fQspi (delay : Mt29fDelay) : ScaiQspi Mt29fBus where
  setCtrl1 := Mt29fBus.setCtrl1 delay
  setData := Mt29fBus.setData
  getData := Mt29fBus.getData
  getIdle b := (b, b.txLeft = 0)
  getStatus2 := Mt29fBus.getStatus2

/-! ### Elements -/

/-- The bytes of an element of a buffer. -/
def elementSize (word : Bool) : ℕ := if word then 4 else 1

/-- The bytes of an element from the FIFO in memory. -/
def storedBytes (word : Bool) (value : BitVec 32) : Bytes :=
  if word then wordBytes value else [value.extractLsb' 0 8]

theorem wordBytes_append (x y z w : BitVec 8) : wordBytes (x ++ y ++ z ++ w) = [w, z, y, x] := by
  unfold wordBytes
  simp only [BitVec.extractLsb'_append_eq_ite]
  simp

theorem extractLsb'_top (x : BitVec 8) (y : BitVec 24) : (x ++ y).extractLsb' 24 8 = x := by
  rw [BitVec.extractLsb'_append_eq_ite]
  simp

theorem extractLsb'_bottom (x : BitVec 24) (y : BitVec 8) : (x ++ y).extractLsb' 0 8 = y := by
  rw [BitVec.extractLsb'_append_eq_ite]
  simp

theorem length_storedBytes (word : Bool) (value : BitVec 32) :
    (storedBytes word value).length = elementSize word := by
  cases word <;> rfl

theorem storeElement_eq (word : Bool) (rxBuffer i : ℕ) (value : BitVec 32)
    (memory : ℕ → BitVec 8) : storeElement word rxBuffer i value memory =
      writeBuffer memory (rxBuffer + elementSize word * i) (storedBytes word value) := by
  cases word with
  | true => rfl
  | false => rw [storeElement, elementSize, storedBytes]; simp

namespace Mt29fBus

variable {d : Mt29fDelay} {b : Mt29fBus}

theorem send_send (x y : Bytes) (m n : ℕ) : (b.send x m).send y n = b.send (x ++ y) n := by
  unfold send
  split <;> simp_all

theorem send_nil {n : ℕ} (left : b.txLeft = n) : b.send [] n = b := by
  subst left
  unfold send
  split <;> simp

@[simp] theorem send_ctrl1 (x : Bytes) (n : ℕ) : (b.send x n).ctrl1 = b.ctrl1 := by
  unfold send
  split <;> rfl

@[simp] theorem send_txLeft (x : Bytes) (n : ℕ) : (b.send x n).txLeft = n := by
  unfold send
  split <;> rfl

@[simp] theorem send_rxLeft (x : Bytes) (n : ℕ) : (b.send x n).rxLeft = b.rxLeft := by
  unfold send
  split <;> rfl

@[simp] theorem send_unsent (x : Bytes) (n : ℕ) : (b.send x n).unsent = b.unsent := by
  unfold send
  split <;> rfl

/-- An element of a buffer is sent as its bytes. -/
theorem setData_eq (left : b.txLeft ≠ 0) (buffer : ℕ → BitVec 8) (i : ℕ) :
    b.setData (txElement b.ctrl1.dataMode buffer i) =
      b.send (firstBytes (fun j => buffer (elementSize b.ctrl1.dataMode * i + j))
        (elementSize b.ctrl1.dataMode)) (b.txLeft - 1) := by
  rw [setData, if_neg left]
  congr 1
  cases b.ctrl1.dataMode with
  | true => exact wordBytes_append ..
  | false =>
    rw [txElement, elementSize]
    simpa [firstBytes] using extractLsb'_top (buffer i) 0xFFFFFF

/-! ### FIFOs -/

theorem firstBytes_elements (buffer : ℕ → BitVec 8) (size i m n : ℕ) :
    firstBytes (fun j => buffer (size * i + j)) (size * (m + n)) =
      firstBytes (fun j => buffer (size * i + j)) (size * m) ++
        firstBytes (fun j => buffer (size * (i + m) + j)) (size * n) := by
  rw [Nat.mul_add, firstBytes_add]
  simp only [Nat.mul_add, Nat.add_assoc]

theorem writeChunk_eq (buffer : ℕ → BitVec 8) (n i : ℕ) (left : n ≤ b.txLeft) :
    (mt29fQspi d).writeChunk (txElement b.ctrl1.dataMode buffer) n i b =
      b.send (firstBytes (fun j => buffer (elementSize b.ctrl1.dataMode * i + j))
        (elementSize b.ctrl1.dataMode * n)) (b.txLeft - n) := by
  induction n generalizing b i with
  | zero => exact (send_nil rfl).symm
  | succ n ih =>
    have first : (mt29fQspi d).setData (txElement b.ctrl1.dataMode buffer i) b = _ :=
      setData_eq (by omega) buffer i
    have rest := ih (i + 1)
      (b := b.send (firstBytes (fun j => buffer (elementSize b.ctrl1.dataMode * i + j))
        (elementSize b.ctrl1.dataMode)) (b.txLeft - 1)) (by rw [send_txLeft]; omega)
    rw [send_ctrl1, send_txLeft, send_send] at rest
    rw [ScaiQspi.writeChunk, first, rest, Nat.add_comm n 1, firstBytes_elements, Nat.mul_one,
      Nat.sub_sub]

theorem waitTxSpace_eq (free : b.unsent = 0) :
    ∃ status2 : ScaiQspiStatus2, status2.txFifoWrCnt = 0 ∧
      (mt29fQspi d).waitTxSpace scaiFpgaFifoTimeout b = (b, some status2) := by
  have none : b.getStatus2.2.txFifoWrCnt = 0 := by
    show min b.unsent scaiFpgaFifoLength = 0
    rw [free, Nat.zero_min]
  have space : b.getStatus2.2.txFifoFull = false := by
    rw [ScaiQspiStatus2.txFifoFull, none]
    rfl
  refine ⟨b.getStatus2.2, none, ?_⟩
  rw [show scaiFpgaFifoTimeout = 99999 + 1 from rfl, ScaiQspi.waitTxSpace]
  show (if b.getStatus2.2.txFifoFull then _ else _) = _
  rw [space]
  rfl

/-- All elements of a transaction are sent. -/
theorem fifoWrite_eq (buffer : ℕ → BitVec 8) {n written rounds : ℕ} (le : written ≤ n)
    (enough : n - written ≤ rounds) (left : b.txLeft = n - written) (free : b.unsent = 0) :
    (mt29fQspi d).fifoWrite (txElement b.ctrl1.dataMode buffer) n rounds written b =
      (b.send (firstBytes (fun j => buffer (elementSize b.ctrl1.dataMode * written + j))
        (elementSize b.ctrl1.dataMode * (n - written))) 0, n) := by
  induction rounds generalizing b written with
  | zero =>
    obtain rfl : written = n := by omega
    rw [ScaiQspi.fifoWrite, Nat.sub_self, Nat.mul_zero]
    exact congrArg (·, _) (send_nil (left.trans (Nat.sub_self _))).symm
  | succ rounds ih =>
    by_cases done : n ≤ written
    · obtain rfl : written = n := by omega
      rw [ScaiQspi.fifoWrite, if_pos done, Nat.sub_self, Nat.mul_zero]
      exact congrArg (·, _) (send_nil (left.trans (Nat.sub_self _))).symm
    obtain ⟨status2, none, waited⟩ := waitTxSpace_eq (d := d) free
    have positive : 0 < min (n - written) scaiFpgaFifoLength := by
      rw [scaiFpgaFifoLength]
      omega
    have short : min (n - written) scaiFpgaFifoLength ≤ n - written := Nat.min_le_left ..
    rw [ScaiQspi.fifoWrite, if_neg done, waited]
    dsimp only
    rw [none, Nat.sub_zero]
    generalize min (n - written) scaiFpgaFifoLength = chunkSize at *
    rw [writeChunk_eq buffer chunkSize written (by omega)]
    have rest := ih
      (b := b.send (firstBytes (fun j => buffer (elementSize b.ctrl1.dataMode * written + j))
        (elementSize b.ctrl1.dataMode * chunkSize)) (b.txLeft - chunkSize))
      (show written + chunkSize ≤ n by omega) (by omega) (by rw [send_txLeft]; omega) (by rw [send_unsent]; exact free)
    rw [send_ctrl1, send_send, ← firstBytes_elements,
      show chunkSize + (n - (written + chunkSize)) = n - written by omega] at rest
    exact rest

/-- The elements received, as they are stored. -/
def stored (b : Mt29fBus) (word : Bool) (n : ℕ) : Bytes :=
  (List.range n).flatMap fun i => storedBytes word (b.element i)

/-- After `n` elements. -/
def receive (n : ℕ) (b : Mt29fBus) : Mt29fBus :=
  { b with received := b.received + elementSize b.ctrl1.dataMode * n, rxLeft := b.rxLeft - n }

theorem receive_receive (m n : ℕ) : (b.receive m).receive n = b.receive (m + n) := by
  simp [receive, Nat.mul_add, Nat.add_assoc, Nat.sub_sub]

theorem receive_element (n i : ℕ) : (b.receive n).element i = b.element (n + i) := by
  unfold element byte receive
  cases b.ctrl1.dataMode <;> simp [elementSize, Nat.mul_add, Nat.add_assoc]

theorem length_stored (word : Bool) (n : ℕ) : (b.stored word n).length = elementSize word * n := by
  simp [stored, length_storedBytes, Nat.mul_comm]

theorem stored_add (word : Bool) (m n : ℕ) :
    b.stored word (m + n) = b.stored word m ++ (b.receive m).stored word n := by
  rw [stored, List.range_add, List.flatMap_append, List.flatMap_map]
  simp only [stored, receive_element]

theorem readChunk_eq (word : Bool) (rxBuffer n i : ℕ) (memory : ℕ → BitVec 8) (sent : b.txLeft = 0)
    (left : n ≤ b.rxLeft) :
    (mt29fQspi d).readChunk (storeElement word rxBuffer) n i memory b =
      (b.receive n, writeBuffer memory (rxBuffer + elementSize word * i) (b.stored word n)) := by
  induction n generalizing b i memory with
  | zero =>
    refine congrArg (b, ·) (funext fun j => (writeBuffer_of_notMem ?_).symm)
    rw [length_stored]
    omega
  | succ n ih =>
    have first : (mt29fQspi d).getData b = (b.receive 1, b.element 0) := by
      show b.getData = _
      rw [getData, if_neg (by omega), receive, Nat.mul_one]
      rfl
    have size := length_storedBytes word (b.element 0)
    rw [ScaiQspi.readChunk, first]
    dsimp only
    rw [ih (b := b.receive 1) (i + 1) _ sent (by show n ≤ b.rxLeft - 1; omega), receive_receive,
      storeElement_eq, Nat.mul_succ, ← Nat.add_assoc, ← size, writeBuffer_append, Nat.add_comm n 1,
      stored_add]
    simp [stored]

theorem waitRxData_eq (sent : b.txLeft = 0) (some : 0 < b.rxLeft) :
    ∃ status2 : ScaiQspiStatus2, status2.rxFifoRdCnt = min b.rxLeft scaiFpgaFifoLength ∧
      (mt29fQspi d).waitRxData scaiFpgaFifoTimeout b = (b, Option.some status2) := by
  have count : b.getStatus2.2.rxFifoRdCnt = min b.rxLeft scaiFpgaFifoLength := if_pos sent
  have data : b.getStatus2.2.rxFifoEmpty = false := by
    rw [ScaiQspiStatus2.rxFifoEmpty, count, scaiFpgaFifoLength]
    exact decide_eq_false (by omega)
  refine ⟨b.getStatus2.2, count, ?_⟩
  rw [show scaiFpgaFifoTimeout = 99999 + 1 from rfl, ScaiQspi.waitRxData]
  show (if b.getStatus2.2.rxFifoEmpty then _ else _) = _
  rw [data]
  rfl

/-- Where no more elements come the driver waits until the timeout. -/
theorem waitRxData_timeout (none : b.rxLeft = 0) (timeout : ℕ) :
    (mt29fQspi d).waitRxData timeout b = (b, Option.none) := by
  induction timeout with
  | zero => rfl
  | succ timeout ih =>
    have empty : b.getStatus2.2.rxFifoEmpty = true := by
      refine decide_eq_true ?_
      show (if b.txLeft = 0 then min b.rxLeft scaiFpgaFifoLength else 0) = 0
      rw [none, Nat.zero_min, ite_self]
    rw [ScaiQspi.waitRxData]
    show (if b.getStatus2.2.rxFifoEmpty then _ else _) = _
    rw [empty, if_pos rfl]
    exact ih

theorem fifoReadLoop_eq (word : Bool) (rxBuffer : ℕ) {n read rounds : ℕ} (memory : ℕ → BitVec 8)
    (le : read ≤ n) (enough : n - read ≤ rounds) (sent : b.txLeft = 0) :
    (mt29fQspi d).fifoReadLoop (storeElement word rxBuffer) n rounds read memory b =
      (b.receive (min (n - read) b.rxLeft),
        writeBuffer memory (rxBuffer + elementSize word * read)
          (b.stored word (min (n - read) b.rxLeft)), read + min (n - read) b.rxLeft) := by
  have nothing : ∀ offset, writeBuffer memory offset (b.stored word 0) = memory := fun offset =>
    funext fun j => writeBuffer_of_notMem (by rw [length_stored]; omega)
  induction rounds generalizing b read memory with
  | zero =>
    rw [ScaiQspi.fifoReadLoop, show n - read = 0 by omega, Nat.zero_min, nothing]
    rfl
  | succ rounds ih =>
    by_cases done : n ≤ read
    · rw [ScaiQspi.fifoReadLoop, if_pos done, show n - read = 0 by omega, Nat.zero_min, nothing]
      rfl
    rw [ScaiQspi.fifoReadLoop, if_neg done]
    rcases Nat.eq_zero_or_pos b.rxLeft with none | some
    · rw [waitRxData_timeout none, none, Nat.min_zero, nothing]
      rfl
    · obtain ⟨status2, count, waited⟩ := waitRxData_eq (d := d) sent some
      have positive : 0 < min (n - read) (min b.rxLeft scaiFpgaFifoLength) := by
        rw [scaiFpgaFifoLength]
        omega
      have short : min (n - read) (min b.rxLeft scaiFpgaFifoLength) ≤ min (n - read) b.rxLeft := by
        omega
      rw [waited]
      dsimp only
      rw [count]
      generalize min (n - read) (min b.rxLeft scaiFpgaFifoLength) = chunkSize at *
      rw [readChunk_eq word rxBuffer chunkSize read memory sent (by omega)]
      dsimp only
      rw [ih (b := b.receive chunkSize) _ (show read + chunkSize ≤ n by omega) (by omega) sent
        (fun offset => funext fun j => writeBuffer_of_notMem (by rw [length_stored]; omega))]
      obtain ⟨k, total⟩ := Nat.exists_eq_add_of_le short
      have rest : min (n - (read + chunkSize)) (b.receive chunkSize).rxLeft = k := by
        show min _ (b.rxLeft - chunkSize) = k
        omega
      rw [rest, total, receive_receive, stored_add, ← writeBuffer_append, length_stored, Nat.mul_add,
        Nat.add_assoc, Nat.add_assoc]

/-- The elements of a transaction that come are received. -/
theorem fifoRead_eq (word : Bool) (rxBuffer : ℕ) {n : ℕ} (memory : ℕ → BitVec 8) (sent : b.txLeft = 0)
    (le : b.rxLeft ≤ n) :
    (mt29fQspi d).fifoRead (storeElement word rxBuffer) n memory b =
      (b.receive b.rxLeft, writeBuffer memory rxBuffer (b.stored word b.rxLeft), b.rxLeft) := by
  have loop := fifoReadLoop_eq (d := d) word rxBuffer memory (Nat.zero_le n) (Nat.le_refl _) sent
  rw [Nat.sub_zero, Nat.min_eq_right le, Nat.zero_add, Nat.mul_zero, Nat.add_zero] at loop
  rw [ScaiQspi.fifoRead, loop]
  dsimp only
  split
  · rfl
  · have empty : (b.receive b.rxLeft).getStatus2.2.rxFifoRdCnt = 0 := by
      show (if b.txLeft = 0 then min (b.rxLeft - b.rxLeft) scaiFpgaFifoLength else 0) = 0
      rw [Nat.sub_self, Nat.zero_min, ite_self]
    show ((mt29fQspi d).dropElements (b.receive b.rxLeft).getStatus2.2.rxFifoRdCnt _, _, _) = _
    rw [empty]
    rfl

theorem waitIdle_eq (sent : b.txLeft = 0) :
    (mt29fQspi d).waitIdle scaiFpgaFifoTimeout b = (b, true) := by
  have idle : (mt29fQspi d).getIdle b = (b, true) := congrArg (b, ·) (decide_eq_true sent)
  rw [show scaiFpgaFifoTimeout = 99999 + 1 from rfl, ScaiQspi.waitIdle, idle]
  rfl

end Mt29fBus

end Hss
