import Hss.Scai.Device

/-! The commands of the MT29F driver on the flash without faults: what each does to the flash, and what
comes back. -/

namespace Hss

variable {d : Mt29fDelay} {c : ScaiFpgaChannel Mt29fBus}

/-- What is stored of `n` elements, where the flash sends the bytes `output`. -/
def elementBytes (dataMode : Bool) (output : ℕ → BitVec 8) (n : ℕ) : Bytes :=
  (List.range n).flatMap fun i =>
    if dataMode then firstBytes (fun j => output (4 * i + j)) 4 else [output i, 0, 0, 0]

theorem wordBytes_zero (x : BitVec 8) : wordBytes ((0 : BitVec 24) ++ x) = [x, 0, 0, 0] := by
  unfold wordBytes
  simp only [BitVec.extractLsb'_append_eq_ite]
  simp

theorem Mt29fBus.stored_eq {b : Mt29fBus} (fresh : b.received = 0) (n : ℕ) :
    b.stored true n =
      elementBytes b.ctrl1.dataMode (b.flash.output b.oneLane b.ctrl1.laneWidth) n := by
  unfold stored elementBytes
  congr 1
  funext i
  unfold storedBytes element byte
  rw [fresh]
  cases b.ctrl1.dataMode with
  | true =>
    simp only [if_true, wordBytes_append, Nat.zero_add]
    rfl
  | false =>
    simp only [if_true, Bool.false_eq_true, if_false, wordBytes_zero, Nat.zero_add]

namespace Mt29f

variable {flash : Mt29f}

theorem execute_getFeatures (nwp : Bool) (featureAddr : BitVec 8) :
    flash.execute d nwp [mt29fCmdGetFeatures, featureAddr] [] =
      { flash with busy := flash.busy - 1 } := by
  simp [execute]

theorem execute_writeEnable (nwp : Bool) (ready : flash.busy = 0) :
    flash.execute d nwp [mt29fCmdWriteEnable] [] = { flash with wel := true } := by
  simp [execute, ready, mt29fCmdWriteEnable, mt29fCmdGetFeatures]

/-- What the driver selects a die with. -/
def dieByte (die : Bool) : BitVec 8 := if die then mt29fDie1 else mt29fDie0

theorem dieByte_valid (die : Bool) : dieByte die = mt29fDie0 ∨ dieByte die = mt29fDie1 := by
  cases die <;> decide

theorem dieByte_lt (die : Bool) : ¬ mt29fDieQuantity ≤ dieByte die := by
  cases die <;> decide

theorem dieByte_inj {die die' : Bool} : dieByte die = dieByte die' ↔ die = die' := by
  cases die <;> cases die' <;> decide

theorem execute_dieSelect (nwp : Bool) (ready : flash.busy = 0) (die : Bool) :
    flash.execute d nwp [mt29fCmdSetFeatures, mt29fRegDieSelect, dieByte die] [] =
      { flash with die := die } := by
  cases die <;>
    simp [execute, ready, mt29fCmdWriteEnable, mt29fCmdGetFeatures, mt29fCmdSetFeatures, dieByte,
      mt29fDie1, mt29fDie0]

/-- The row in the bytes of a command. -/
theorem rowCommand_row {row : ℕ} (less : row < 2 ^ 24) :
    row >>> 16 % 256 * 65536 + twoBytes (BitVec.ofNat 8 (row >>> 8)) (BitVec.ofNat 8 row) =
      row := by
  simp only [twoBytes, BitVec.toNat_ofNat, Nat.shiftRight_eq_div_pow]
  omega

theorem execute_pageRead (nwp : Bool) (ready : flash.busy = 0) {row : ℕ} (less : row < 2 ^ 24) :
    flash.execute d nwp (rowCommand mt29fCmdPageReadToCache row) [] =
      { flash with cache := flash.array flash.die row, busy := d.polls } := by
  simp [execute, rowCommand, ready, rowCommand_row less, mt29fCmdWriteEnable, mt29fCmdGetFeatures,
    mt29fCmdSetFeatures, mt29fCmdPageReadToCache]

/-- The reads from the cache leave the flash as it is. -/
theorem execute_readFromCache (nwp : Bool) (ready : flash.busy = 0) (useQuadMode : Bool)
    (rest : Bytes) :
    flash.execute d nwp
      ((if useQuadMode then mt29fCmdReadFromCacheX4 else mt29fCmdReadFromCacheX1) :: rest) [] =
        flash := by
  cases useQuadMode <;>
    simp [execute, ready, mt29fCmdWriteEnable, mt29fCmdGetFeatures, mt29fCmdSetFeatures,
      mt29fCmdPageReadToCache, mt29fCmdReadFromCacheX4, mt29fCmdReadFromCacheX1,
      mt29fCmdProgramLoadX1, mt29fCmdProgramLoadX4, mt29fCmdProgramExecute, mt29fCmdBlockErase]

theorem execute_programLoadX4 (nwp : Bool) (ready : flash.busy = 0) (enabled : flash.wel = true)
    {colAddr : ℕ} (less : colAddr < 65536) (bytes : Bytes) :
    flash.execute d nwp
        [mt29fCmdProgramLoadX4, BitVec.ofNat 8 (colAddr >>> 8), BitVec.ofNat 8 colAddr] bytes =
      { flash with cache := writeBuffer (fun _ => 0xFF) colAddr bytes } := by
  have column : twoBytes (BitVec.ofNat 8 (colAddr >>> 8)) (BitVec.ofNat 8 colAddr) = colAddr :=
    twoBytes_eq less
  simp [execute, ready, enabled, column, mt29fCmdWriteEnable, mt29fCmdGetFeatures,
    mt29fCmdSetFeatures, mt29fCmdPageReadToCache, mt29fCmdProgramLoadX1, mt29fCmdProgramLoadX4]

theorem execute_programExecute (ready : flash.busy = 0) (enabled : flash.wel = true) {row : ℕ}
    (less : row < 2 ^ 24) :
    flash.execute d true (rowCommand mt29fCmdProgramExecute row) [] =
      { flash with
        array := Function.update flash.array flash.die
          (Function.update (flash.array flash.die) row fun column =>
            flash.array flash.die row column &&& flash.cache column)
        wel := false
        busy := d.polls } := by
  simp [execute, rowCommand, ready, enabled, rowCommand_row less, mt29fCmdWriteEnable,
    mt29fCmdGetFeatures, mt29fCmdSetFeatures, mt29fCmdPageReadToCache, mt29fCmdProgramLoadX1,
    mt29fCmdProgramLoadX4, mt29fCmdProgramExecute]

/-- The status says whether the flash is busy in bit 0. -/
theorem feature_status : (flash.feature mt29fRegStatus).getLsbD 0 = decide (flash.busy ≠ 0) := by
  rw [feature, if_pos rfl]
  cases flash.wel <;> by_cases ready : flash.busy = 0 <;> simp [ready]

theorem feature_die : flash.feature mt29fRegDieSelect = dieByte flash.die := by
  rw [feature, if_neg (by decide), if_pos rfl, dieByte]

end Mt29f

namespace ScaiFpgaChannel

/-- A transaction whose elements have the size of the data mode sends them all, and stores those that
come. -/
theorem transaction_eq (params : ScaiFpgaTransaction) (memory : ℕ → BitVec 8)
    (short : params.txLen < 2 ^ 11)
    (mode : params.txLen = 0 ∨ params.dataSizeIsWord = c.ctrl1State.dataMode) :
    transaction (mt29fQspi d) params memory c =
      let ctrl1 := started params c.ctrl1State
      let b := ((c.hardware.setCtrl1 d ctrl1).send (firstBytes params.txBuffer
        (elementSize c.ctrl1State.dataMode * params.txLen)) 0)
      ({ c with
        ctrl1State := finalized params ctrl1
        hardware := (b.receive b.rxLeft).setCtrl1 d (finalized params ctrl1) },
        writeBuffer memory params.rxBuffer (b.stored params.dataSizeIsWord b.rxLeft)) := by
  let hardware := c.hardware.setCtrl1 d (started params c.ctrl1State)
  let bytes := firstBytes params.txBuffer (elementSize c.ctrl1State.dataMode * params.txLen)
  have txLeft : hardware.txLeft = params.txLen :=
    (BitVec.toNat_ofNat ..).trans (Nat.mod_eq_of_lt short)
  have rxLeft : (hardware.send bytes 0).rxLeft = params.rxLen % 2 ^ 11 := by
    rw [Mt29fBus.send_rxLeft]
    exact BitVec.toNat_ofNat ..
  have sent : (if params.txLen > 0 then
      ((mt29fQspi d).fifoWrite (txElement params.dataSizeIsWord params.txBuffer) params.txLen
        params.txLen 0 hardware).1
    else hardware) = hardware.send bytes 0 := by
    by_cases some : params.txLen > 0
    · have write := Mt29fBus.fifoWrite_eq (d := d) (b := hardware) params.txBuffer
        (Nat.zero_le params.txLen) (Nat.le_refl _) txLeft rfl
      have word : params.dataSizeIsWord = hardware.ctrl1.dataMode := mode.resolve_left (by omega)
      simp only [Nat.mul_zero, Nat.zero_add, Nat.sub_zero] at write
      rw [if_pos some, word, write]
      rfl
    · have none : params.txLen = 0 := by omega
      have empty : bytes = [] := by
        simp only [bytes, none, Nat.mul_zero]
        rfl
      rw [if_neg some, empty]
      exact (Mt29fBus.send_nil (txLeft.trans none)).symm
  have received : (if params.rxLen > 0 then
      let (s, memory, _) := (mt29fQspi d).fifoRead (storeElement params.dataSizeIsWord
        params.rxBuffer) params.rxLen memory (hardware.send bytes 0)
      (s, memory)
    else (hardware.send bytes 0, memory)) =
      ((hardware.send bytes 0).receive (hardware.send bytes 0).rxLeft,
        writeBuffer memory params.rxBuffer
          ((hardware.send bytes 0).stored params.dataSizeIsWord (hardware.send bytes 0).rxLeft)) := by
    by_cases some : params.rxLen > 0
    · rw [if_pos some, Mt29fBus.fifoRead_eq params.dataSizeIsWord params.rxBuffer memory
        (Mt29fBus.send_txLeft ..) (by rw [rxLeft]; exact Nat.mod_le ..)]
    · have none : (hardware.send bytes 0).rxLeft = 0 := by
        rw [rxLeft, show params.rxLen = 0 by omega]
        rfl
      rw [if_neg some, none]
      refine congrArg (_, ·) (funext fun j => (writeBuffer_of_notMem ?_).symm)
      rw [Mt29fBus.length_stored]
      omega
  have idle := Mt29fBus.waitIdle_eq (d := d)
    (b := (hardware.send bytes 0).receive (hardware.send bytes 0).rxLeft) (Mt29fBus.send_txLeft ..)
  have start : (setCtrl1 (mt29fQspi d) { c with ctrl1State := started params c.ctrl1State }).hardware =
    hardware := rfl
  rw [transaction, start, sent, received]
  dsimp only
  rw [idle]
  rfl

/-! ### Frames -/

/-- A channel at the flash `flash`, with the bytes `oneLane` of a frame sent over one lane. -/
structure Holding (format : MssQspiIoFormat) (flash : Mt29f) (nwp : Bool) (oneLane : Bytes)
    (c : ScaiFpgaChannel Mt29fBus) : Prop where
  format_eq : c.format = format
  flash_eq : c.hardware.flash = flash
  oneLane_eq : c.hardware.oneLane = oneLane
  fourLanes_eq : c.hardware.fourLanes = []
  received_eq : c.hardware.received = 0
  enabled : c.hardware.ctrl1.chipEnable = true
  nwp_eq : c.ctrl1State.nwp = nwp

/-- A channel between frames. -/
structure Idle (format : MssQspiIoFormat) (flash : Mt29f) (nwp : Bool)
    (c : ScaiFpgaChannel Mt29fBus) : Prop where
  format_eq : c.format = format
  flash_eq : c.hardware.flash = flash
  oneLane_eq : c.hardware.oneLane = []
  fourLanes_eq : c.hardware.fourLanes = []
  received_eq : c.hardware.received = 0
  disabled : c.hardware.ctrl1.chipEnable = false
  chipEnable_eq : c.ctrl1State.chipEnable = false
  nwp_eq : c.ctrl1State.nwp = nwp

/-- The modes of a channel. -/
structure Modes (dataMode laneWidth : Bool) (c : ScaiFpgaChannel Mt29fBus) : Prop where
  dataMode_eq : c.ctrl1State.dataMode = dataMode
  laneWidth_eq : c.ctrl1State.laneWidth = laneWidth

variable {format : MssQspiIoFormat} {flash : Mt29f} {nwp : Bool} {oneLane : Bytes}

theorem firstBytes_ofBytes (bytes : Bytes) : firstBytes (ofBytes bytes) bytes.length = bytes := by
  have all := firstBytes_writeBuffer (fun _ => 0) 0 bytes
  rw [Nat.zero_add] at all
  exact all

theorem Idle.setByteMode (here : Idle format flash nwp c) :
    Idle format flash nwp (setByteMode c) := { here with }

theorem Idle.setWordMode (here : Idle format flash nwp c) :
    Idle format flash nwp (setWordMode c) := { here with }

theorem Idle.setSpiMode (here : Idle format flash nwp c) :
    Idle format flash nwp (setSpiMode c) := { here with }

theorem Idle.setQspiMode (here : Idle format flash nwp c) :
    Idle format flash nwp (setQspiMode c) := { here with }

theorem Holding.setWordMode (here : Holding format flash nwp oneLane c) :
    Holding format flash nwp oneLane (setWordMode c) := { here with }

theorem Holding.setQspiMode (here : Holding format flash nwp oneLane c) :
    Holding format flash nwp oneLane (setQspiMode c) := { here with }

/-- The start of a transaction ends no frame. -/
theorem setCtrl1_started (params : ScaiFpgaTransaction) :
    c.hardware.setCtrl1 d (started params c.ctrl1State) = { c.hardware with
      ctrl1 := started params c.ctrl1State
      txLeft := params.txLen % 2 ^ 11
      rxLeft := params.rxLen % 2 ^ 11
      unsent := 0 } := by
  simp [Mt29fBus.setCtrl1, started]

/-- A command with a frame of its own. -/
theorem Idle.sendCommand (here : Idle format flash nwp c) (modes : Modes false false c) (bytes : Bytes)
    (short : bytes.length < 2 ^ 11) :
    Idle format (flash.execute d nwp bytes []) nwp (sendCommand (mt29fQspi d) bytes false c) := by
  obtain ⟨rfl, rfl, oneLane, fourLanes, received, off, chipEnable, rfl⟩ := here
  obtain ⟨dataMode, laneWidth⟩ := modes
  rw [ScaiFpgaChannel.sendCommand, transaction_eq _ _ short (.inr dataMode.symm), dataMode]
  constructor <;> simp [Mt29fBus.setCtrl1, Mt29fBus.send, Mt29fBus.receive, started, finalized,
    elementSize, firstBytes_ofBytes, *]

/-- A command whose frame goes on. -/
theorem Idle.holdCommand (here : Idle format flash nwp c) (modes : Modes false false c) (bytes : Bytes)
    (short : bytes.length < 2 ^ 11) :
    Holding format flash nwp bytes (ScaiFpgaChannel.sendCommand (mt29fQspi d) bytes true c) ∧
      Modes false false (ScaiFpgaChannel.sendCommand (mt29fQspi d) bytes true c) := by
  obtain ⟨rfl, rfl, oneLane, fourLanes, received, off, chipEnable, rfl⟩ := here
  obtain ⟨dataMode, laneWidth⟩ := modes
  rw [ScaiFpgaChannel.sendCommand, transaction_eq _ _ short (.inr dataMode.symm), dataMode]
  constructor
  · constructor <;> simp [Mt29fBus.setCtrl1, Mt29fBus.send, Mt29fBus.receive, started, finalized,
      elementSize, firstBytes_ofBytes, *]
  · exact ⟨dataMode, laneWidth⟩

/-- Words sent over four lanes end the frame. -/
theorem Holding.transmit (here : Holding format flash nwp oneLane c) (modes : Modes true true c)
    (buffer : ℕ → BitVec 8) {n : ℕ} (short : n < 2 ^ 11) :
    Idle format (flash.execute d nwp oneLane (firstBytes buffer (4 * n))) nwp
      (transaction (mt29fQspi d) { txBuffer := buffer, txLen := n, dataSizeIsWord := true }
        (fun _ => 0) c).1 := by
  obtain ⟨rfl, rfl, rfl, fourLanes, received, on, rfl⟩ := here
  obtain ⟨dataMode, laneWidth⟩ := modes
  rw [transaction_eq _ _ short (.inr dataMode.symm), dataMode]
  constructor <;> simp [Mt29fBus.setCtrl1, Mt29fBus.send, Mt29fBus.receive, started, finalized,
    elementSize, *]

/-- Words stored of what comes back end the frame.  The count of elements has 11 bits. -/
theorem Holding.receive {dataMode laneWidth : Bool} (here : Holding format flash nwp oneLane c)
    (modes : Modes dataMode laneWidth c) (rxBuffer n : ℕ) (memory : ℕ → BitVec 8) :
    ∃ t, transaction (mt29fQspi d)
        { rxBuffer := rxBuffer, rxLen := n, dataSizeIsWord := true } memory c =
      (t, writeBuffer memory rxBuffer
        (elementBytes dataMode (flash.output oneLane laneWidth) (n % 2 ^ 11))) ∧
      Idle format (flash.execute d nwp oneLane []) nwp t := by
  obtain ⟨rfl, rfl, rfl, fourLanes, received, on, rfl⟩ := here
  obtain ⟨rfl, rfl⟩ := modes
  rw [transaction_eq _ _ (show 0 < 2 ^ 11 by decide) (.inl rfl)]
  have empty : firstBytes (fun _ => 0) (elementSize c.ctrl1State.dataMode * 0) = [] := rfl
  have nothing := Mt29fBus.send_nil (n := 0) (b := c.hardware.setCtrl1 d
    (started { rxBuffer := rxBuffer, rxLen := n, dataSizeIsWord := true } c.ctrl1State)) rfl
  dsimp only
  rw [empty, nothing, setCtrl1_started]
  refine ⟨_, Prod.ext rfl (congrArg (writeBuffer memory rxBuffer) ?_), ?_⟩
  · exact Mt29fBus.stored_eq (b := { c.hardware with
      ctrl1 := started { rxBuffer := rxBuffer, rxLen := n, dataSizeIsWord := true } c.ctrl1State
      txLeft := 0 % 2 ^ 11
      rxLeft := n % 2 ^ 11
      unsent := 0 }) received _
  · constructor <;> simp [Mt29fBus.setCtrl1, Mt29fBus.receive, finalized, started, fourLanes]

/-! ### Features -/

theorem Idle.inByteMode {α : Type} {access : ScaiFpgaChannel Mt29fBus → ScaiFpgaChannel Mt29fBus × α}
    {result : α} {flash' : Mt29f} (here : Idle format flash nwp c)
    (spec : ∀ c, Idle format flash nwp c → Modes false false c →
      ∃ t, access c = (t, result) ∧ Idle format flash' nwp t) :
    ∃ t, inByteMode access c = (t, result) ∧ Idle format flash' nwp t := by
  unfold ScaiFpgaChannel.inByteMode
  cases word : c.ctrl1State.dataMode <;> cases quad : c.ctrl1State.laneWidth
  · obtain ⟨t, accessed, there⟩ := spec c here ⟨word, quad⟩
    exact ⟨t, by simp [accessed], there⟩
  · obtain ⟨t, accessed, there⟩ := spec _ here.setSpiMode ⟨word, rfl⟩
    exact ⟨_, by simp [accessed], there.setQspiMode⟩
  · obtain ⟨t, accessed, there⟩ := spec _ here.setByteMode ⟨rfl, quad⟩
    exact ⟨_, by simp [accessed], there.setWordMode⟩
  · obtain ⟨t, accessed, there⟩ := spec _ here.setByteMode.setSpiMode ⟨rfl, rfl⟩
    exact ⟨_, by simp [accessed], there.setWordMode.setQspiMode⟩

/-- The reading of a feature, which a flash that is busy counts. -/
theorem Idle.getFeature (here : Idle format flash nwp c) (featureAddr : BitVec 8) :
    ∃ t, getFeature (mt29fQspi d) featureAddr c = (t, flash.feature featureAddr) ∧
      Idle format { flash with busy := flash.busy - 1 } nwp t := by
  refine here.inByteMode fun c here modes => ?_
  obtain ⟨rfl, rfl, oneLane, fourLanes, received, off, chipEnable, rfl⟩ := here
  obtain ⟨dataMode, laneWidth⟩ := modes
  have frame : firstBytes (ofBytes [mt29fCmdGetFeatures, featureAddr]) 2 =
    [mt29fCmdGetFeatures, featureAddr] := rfl
  rw [transaction_eq _ _ (show 2 < 2 ^ 11 by decide) (.inr dataMode.symm), dataMode]
  refine ⟨_, Prod.ext rfl ?_, ?_⟩
  · simp [Mt29fBus.setCtrl1, started, elementSize, Mt29fBus.send, Mt29fBus.stored, Mt29fBus.element,
      Mt29fBus.byte, Mt29f.output, storedBytes, writeBuffer, extractLsb'_bottom, *]
  · constructor <;> simp [Mt29fBus.setCtrl1, Mt29fBus.send, Mt29fBus.receive, started, finalized,
      elementSize, Mt29f.execute_getFeatures, *]

theorem Idle.setFeature (here : Idle format flash nwp c) (ready : flash.busy = 0) (die : Bool) :
    Idle format { flash with die := die } nwp
      (setFeature (mt29fQspi d) mt29fRegDieSelect (Mt29f.dieByte die) c) := by
  have spec : ∀ c, Idle format flash nwp c → Modes false false c →
      ∃ t, (ScaiFpgaChannel.sendCommand (mt29fQspi d)
          [mt29fCmdSetFeatures, mt29fRegDieSelect, Mt29f.dieByte die] false c, ()) = (t, ()) ∧
        Idle format { flash with die := die } nwp t := by
    intro c here modes
    rw [← Mt29f.execute_dieSelect (d := d) nwp ready die]
    exact ⟨_, rfl, here.sendCommand modes _ (show 3 < 2 ^ 11 by decide)⟩
  obtain ⟨t, accessed, there⟩ := here.inByteMode spec
  rw [ScaiFpgaChannel.setFeature, accessed]
  exact there

/-- A flash that is busy for less than the polls is waited for. -/
theorem Idle.pollReady {polls : ℕ} (here : Idle format flash nwp c) (less : flash.busy < polls) :
    ∃ t, pollReady (mt29fQspi d) polls c = (t, { flash with busy := 0 }.feature mt29fRegStatus) ∧
      Idle format { flash with busy := 0 } nwp t := by
  induction polls generalizing c flash with
  | zero => exact absurd less (Nat.not_lt_zero _)
  | succ polls ih =>
    obtain ⟨t, got, there⟩ := here.getFeature (d := d) mt29fRegStatus
    rw [ScaiFpgaChannel.pollReady, got]
    dsimp only
    rw [Mt29f.feature_status]
    by_cases ready : flash.busy = 0
    · have same : { flash with busy := 0 } = flash := by rw [← ready]
      rw [ready] at there
      refine ⟨t, ?_, there⟩
      rw [if_pos (by simp [ready]), same]
    · rw [if_neg (by simp; omega)]
      have later := ih there (by dsimp only; omega)
      exact later

theorem Idle.waitFlashReady (here : Idle format flash nwp c) (less : flash.busy < mt29fTimeoutIter) :
    ∃ t, waitFlashReady (mt29fQspi d) c = (t, 0) ∧ Idle format { flash with busy := 0 } nwp t := by
  obtain ⟨t, polled, there⟩ := here.pollReady (d := d) less
  refine ⟨t, ?_, there⟩
  rw [ScaiFpgaChannel.waitFlashReady, polled]
  dsimp only
  rw [readyResult, if_pos (by rw [Mt29f.feature_status]; rfl)]

/-! ### Dies -/

theorem Idle.getDie (here : Idle format flash nwp c) (ready : flash.busy = 0) :
    ∃ t, getDie (mt29fQspi d) c = (t, Mt29f.dieByte flash.die) ∧ Idle format flash nwp t := by
  obtain ⟨t, got, there⟩ := here.getFeature (d := d) mt29fRegDieSelect
  have same : { flash with busy := flash.busy - 1 } = flash := by rw [ready, Nat.zero_sub, ← ready]
  rw [same] at there
  refine ⟨t, ?_, there⟩
  rw [ScaiFpgaChannel.getDie, got]
  dsimp only
  rw [Mt29f.feature_die, if_pos (Mt29f.dieByte_valid _)]

/-- The die is selected, whichever was before. -/
theorem Idle.setDie (here : Idle format flash nwp c) (ready : flash.busy = 0) (die : Bool) :
    ∃ t, setDie (mt29fQspi d) (Mt29f.dieByte die) c = (t, Mt29f.dieByte die) ∧
      Idle format { flash with die := die } nwp t := by
  obtain ⟨t, got, there⟩ := here.getDie (d := d) ready
  have selected : Idle format { flash with die := die } nwp
      (if Mt29f.dieByte flash.die ≠ Mt29f.dieByte die then
        ScaiFpgaChannel.setFeature (mt29fQspi d) mt29fRegDieSelect (Mt29f.dieByte die) t
      else t) := by
    by_cases same : flash.die = die
    · rw [if_neg (not_not.mpr (Mt29f.dieByte_inj.mpr same)), ← same]
      exact there
    · rw [if_pos (mt Mt29f.dieByte_inj.mp same)]
      exact there.setFeature ready die
  obtain ⟨u, got', there'⟩ := selected.getDie (d := d) ready
  refine ⟨u, ?_, there'⟩
  rw [ScaiFpgaChannel.setDie, got]
  dsimp only
  rw [if_neg (Mt29f.dieByte_lt die), if_neg (not_not.mpr (Mt29f.dieByte_valid _)), got']
  dsimp only
  rw [if_neg (not_not.mpr rfl)]

/-! ### Pages -/

theorem Idle.pageReadToCache (here : Idle format flash nwp c) (ready : flash.busy = 0) {row : ℕ}
    (less : row < 2 ^ 24) :
    Idle format { flash with cache := flash.array flash.die row, busy := d.polls } nwp
      (pageReadToCache (mt29fQspi d) row c) := by
  rw [← Mt29f.execute_pageRead (d := d) nwp ready less]
  exact here.setByteMode.setSpiMode.sendCommand ⟨rfl, rfl⟩ _ (show 4 < 2 ^ 11 by decide)

/-- The elements of a page that is read, where the count of elements has 11 bits. -/
def readElements (useQuadMode : Bool) (readLen : ℕ) : ℕ :=
  (if useQuadMode then (readLen + 3) / 4 else readLen) % 2 ^ 11

/-- The column in the bytes of a read from the cache. -/
theorem readColumn {colAddr : ℕ} (less : colAddr < 2 ^ 13) :
    twoBytes (BitVec.ofNat 8 ((colAddr &&& 0x1F00) >>> 8)) (BitVec.ofNat 8 colAddr) = colAddr := by
  have high : (colAddr &&& 0x1F00) >>> 8 = colAddr >>> 8 := by
    rw [Nat.shiftRight_and_distrib, show 0x1F00 >>> 8 = 2 ^ 5 - 1 from rfl,
      Nat.and_two_pow_sub_one_eq_mod, Nat.shiftRight_eq_div_pow]
    omega
  rw [high]
  exact twoBytes_eq (less.trans (by decide))

theorem Idle.readFromCache (here : Idle format flash nwp c) (ready : flash.busy = 0)
    (useQuadMode : Bool) {colAddr : ℕ} (less : colAddr < 2 ^ 13) (readLen currentBuf : ℕ)
    (memory : ℕ → BitVec 8) :
    ∃ t, readFromCache (mt29fQspi d) useQuadMode colAddr readLen currentBuf memory c =
      (t, writeBuffer memory currentBuf (elementBytes useQuadMode
        (fun i => flash.cache (colAddr + i)) (readElements useQuadMode readLen))) ∧
      Idle format flash nwp t := by
  obtain ⟨held, modes⟩ := here.setByteMode.setSpiMode.holdCommand (d := d) ⟨rfl, rfl⟩
    [if useQuadMode then mt29fCmdReadFromCacheX4 else mt29fCmdReadFromCacheX1,
      BitVec.ofNat 8 ((colAddr &&& 0x1F00) >>> 8), BitVec.ofNat 8 colAddr, 0]
    (show 4 < 2 ^ 11 by decide)
  have output : flash.output [if useQuadMode then mt29fCmdReadFromCacheX4 else
      mt29fCmdReadFromCacheX1, BitVec.ofNat 8 ((colAddr &&& 0x1F00) >>> 8),
      BitVec.ofNat 8 colAddr, 0] useQuadMode = fun i => flash.cache (colAddr + i) := by
    funext i
    rw [← readColumn less]
    cases useQuadMode <;>
      simp [Mt29f.output, ready, readColumn less, mt29fCmdReadFromCacheX4, mt29fCmdReadFromCacheX1,
        mt29fCmdGetFeatures]
  have same := Mt29f.execute_readFromCache (d := d) nwp ready useQuadMode
    [BitVec.ofNat 8 ((colAddr &&& 0x1F00) >>> 8), BitVec.ofNat 8 colAddr, 0]
  rw [ScaiFpgaChannel.readFromCache]
  cases useQuadMode with
  | true =>
    obtain ⟨t, received, there⟩ := held.setQspiMode.setWordMode.receive (d := d)
      (show Modes true true _ from ⟨rfl, rfl⟩) currentBuf ((readLen + 3) / 4) memory
    rw [output] at received
    rw [same] at there
    exact ⟨t, received, there⟩
  | false =>
    obtain ⟨t, received, there⟩ := held.receive (d := d) modes currentBuf readLen memory
    rw [output] at received
    rw [same] at there
    exact ⟨t, received, there⟩

theorem Idle.disableWriteProtect (here : Idle format flash nwp c) :
    Idle format flash true (disableWriteProtect (mt29fQspi d) c) := by
  obtain ⟨rfl, rfl, oneLane, fourLanes, received, off, chipEnable, rfl⟩ := here
  constructor <;> simp [ScaiFpgaChannel.disableWriteProtect, setCtrl1, mt29fQspi, Mt29fBus.setCtrl1, *]

theorem Idle.enableWriteProtect (here : Idle format flash nwp c) :
    Idle format flash false (enableWriteProtect (mt29fQspi d) c) := by
  obtain ⟨rfl, rfl, oneLane, fourLanes, received, off, chipEnable, rfl⟩ := here
  constructor <;> simp [ScaiFpgaChannel.enableWriteProtect, setCtrl1, mt29fQspi, Mt29fBus.setCtrl1, *]

theorem Idle.writeEnable (here : Idle format flash nwp c) (ready : flash.busy = 0) :
    Idle format { flash with wel := true } nwp (writeEnable (mt29fQspi d) c) := by
  rw [← Mt29f.execute_writeEnable (d := d) nwp ready]
  exact here.setSpiMode.setByteMode.sendCommand ⟨rfl, rfl⟩ _ (show 1 < 2 ^ 11 by decide)

/-- A load over four lanes: whole words, of which the last may go past the bytes that are written. -/
theorem Idle.programLoad (here : Idle format flash nwp c) (ready : flash.busy = 0)
    (currentBuf : ℕ → BitVec 8) {colAddr writeLenBytes : ℕ} (less : colAddr < 65536)
    (short : writeLenBytes ≤ mt29fPageSizeBytes) :
    Idle format { flash with
      cache := writeBuffer (fun _ => 0xFF) colAddr
        (firstBytes currentBuf (4 * ((writeLenBytes + 3) / 4)))
      wel := true } nwp
      (programLoad (mt29fQspi d) true currentBuf colAddr writeLenBytes c) := by
  obtain ⟨held, -⟩ := (here.writeEnable (d := d) ready).setSpiMode.setByteMode.holdCommand (d := d)
    ⟨rfl, rfl⟩ [mt29fCmdProgramLoadX4, BitVec.ofNat 8 (colAddr >>> 8), BitVec.ofNat 8 colAddr]
    (show 3 < 2 ^ 11 by decide)
  have words : (writeLenBytes + 3) / 4 < 2 ^ 11 := by
    rw [mt29fPageSizeBytes] at short
    omega
  have loaded := held.setQspiMode.setWordMode.transmit (d := d) ⟨rfl, rfl⟩ currentBuf words
  rw [Mt29f.execute_programLoadX4 nwp (by exact ready) rfl less] at loaded
  exact loaded

theorem Idle.programExecute (here : Idle format flash true c) (ready : flash.busy = 0) {row : ℕ}
    (less : row < 2 ^ 24) :
    Idle format { flash with
      array := Function.update flash.array flash.die
        (Function.update (flash.array flash.die) row fun column =>
          flash.array flash.die row column &&& flash.cache column)
      wel := false
      busy := d.polls } true (programExecute (mt29fQspi d) row c) := by
  have executed := (here.writeEnable (d := d) ready).setSpiMode.setByteMode.sendCommand (d := d)
    ⟨rfl, rfl⟩ (rowCommand mt29fCmdProgramExecute row) (show 4 < 2 ^ 11 by decide)
  rw [Mt29f.execute_programExecute (by exact ready) rfl less] at executed
  exact executed

end ScaiFpgaChannel

end Hss
