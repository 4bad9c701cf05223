import Hss.Lib.Runs
import Hss.Boot.Service
import Hss.Ipi.AckRouting

/-! The system that the boot machines are part of: their runs interleaved with restarts, with calls
of the harts on the bus, and with what other software stores. -/

namespace Hss

open ByteMemory Runs

/-- What happens: a boot machine is run, machines are restarted, an image is registered, a trigger is
raised, a hart calls the bus, or other software stores a byte. -/
inductive BootEvent
  | run (hart : U54) (inputs : Inputs)
  | restartCore (source : Option HartId)
  | restartCores (mask : BitVec 32)
  | registerBootImage (pImage : Word)
  | notify (event : HssEvent)
  | bus (call : BusCall)
  | store (p : Word) (byte : BitVec 8)

def bootNext (cfg : Config) (registry : HartId → IpiRegistry cfg IpiData) (s : State) :
    BootEvent → Except Halt State
  | .run hart inputs => runBootService cfg inputs hart s
  | .restartCore source => do
    let (s, _) ← hssBootRestartCore source s
    return s
  | .restartCores mask => .ok (hssBootRestartCoresUsingBitmask mask s).1
  | .registerBootImage pImage => .ok { s with pBootImage := pImage }
  | .notify event => .ok (s.notify event)
  | .bus call => do
    let d ← busNext cfg registry s.ipiData call
    return setIpi s d
  | .store p byte => .ok { s with mem := Function.update s.mem p byte }

/-- The steps of the system. -/
def bootStep (cfg : Config) (registry : HartId → IpiRegistry cfg IpiData) (s : State)
    (event : BootEvent) (t : State) : Prop :=
  bootNext cfg registry s event = .ok t

/-- The state before the first event.  `bootInfo` is the ancilliary data of the first machine. -/
def powerOn (cfg : Config) (mem : Mem) (pmpEntry : U54 → ℕ → PmpEntry) (bootInfo : Word) : State where
  mem := mem
  pBootImage := 0
  pmpEntry := pmpEntry
  ipiData := ipiQueuesInit
  machine := fun _ => ⟨.idle, none, 0, 0⟩
  localData := fun hart => {
    pChunk := 0, pZiChunk := 0, chunkCount := 0, subChunkOffset := 0
    msgIndex := cfg.maxNumOutstandingCompletes
    hartMask := 0
    iterator := 0
    ancilliaryData := if hart = .u54_1 then bootInfo else 0
    msgIndexAux := fun _ => 0 }
  bootComplete := fun _ => false
  triggers := fun _ => false
  hartLedger := fun _ => ⟨List.replicate 63 0, 0, 0, 0, 0, 0, false, 0, 0, false, false⟩
  hartIndex2id := fun hart => hart.num
  bootFailCr := 0
  mssStatus := 0
  hartStates := fun _ => .idle
  accesses := []
  history := []

variable {cfg : Config} {inputs : Inputs} {target : U54} {s t : State}

/-! ### A run of a machine -/

/-- The machine is brought into the state it is in. -/
def enter (cfg : Config) (inputs : Inputs) (target : U54) (s : State) : Except Halt State :=
  if (s.machine target).prevState = some (s.machine target).state then
    .ok ((bootService target).start inputs.lastEntry s)
  else (bootService target).changeState (bootStateDescs cfg inputs target)
    (s.machine target).prevState (s.machine target).state
    ((bootService target).start inputs.lastEntry s)

/-- `a` is the state that the handler of the machine starts from. -/
def Entered (cfg : Config) (inputs : Inputs) (target : U54) (s a : State) : Prop :=
  enter cfg inputs target s = .ok a

theorem Entered.cases {a : State} (entered : Entered cfg inputs target s a) :
    let u := (bootService target).start inputs.lastEntry s
    ((s.machine target).prevState = some (s.machine target).state ∧ a = u) ∨
      ((s.machine target).prevState ≠ some (s.machine target).state ∧ ∃ b c,
        (s.machine target).prevState.elim (.ok u) (fun prev =>
          runCallback (bootStateDescs cfg inputs target prev).onExit u) = .ok b ∧
        runCallback (bootStateDescs cfg inputs target (s.machine target).state).onEntry b = .ok c ∧
        a = c.setMachine target { c.machine target with
          executionCount := 0, prevState := some (c.machine target).state }) := by
  unfold Entered enter at entered
  split at entered
  · next stays =>
    cases entered
    exact .inl ⟨stays, rfl⟩
  · next leaves =>
    obtain ⟨b, c, left, came, rfl⟩ := MachineOf.changeState_eq_ok.mp entered
    exact .inr ⟨leaves, b, c, left, came, rfl⟩

theorem runBootService_eq : runBootService cfg inputs target s =
    enter cfg inputs target s >>= fun a =>
      (bootStateDescs cfg inputs target (s.machine target).state).handler a >>= fun b =>
        .ok (b.setMachine target
          { b.machine target with executionCount := (b.machine target).executionCount + 1 }) := by
  unfold runBootService MachineOf.run enter
  by_cases stays : (s.machine target).prevState = some (s.machine target).state
  · simp only [bootService, stays, if_true]
    rfl
  · simp only [bootService, stays, if_false]
    rfl

theorem runBootService_cases (done : runBootService cfg inputs target s = .ok t) :
    ∃ a b, Entered cfg inputs target s a ∧
      (bootStateDescs cfg inputs target (s.machine target).state).handler a = .ok b ∧
      t = b.setMachine target
        { b.machine target with executionCount := (b.machine target).executionCount + 1 } :=
  MachineOf.run_eq_ok.mp done

section
variable {P : State → Prop}

/-- What the engine's own changes and the callbacks of a change of state keep holds of the state that
the handler starts from. -/
theorem Entered.induction {a : State} (engine : ∀ s m, P s → P (s.setMachine target m))
    (onExit : ∀ state s t, P s →
      runCallback (bootStateDescs cfg inputs target state).onExit s = .ok t → P t)
    (onEntry : ∀ state s t, P s →
      runCallback (bootStateDescs cfg inputs target state).onEntry s = .ok t → P t)
    (entered : Entered cfg inputs target s a) (start : P s) : P a := by
  have started : P ((bootService target).start inputs.lastEntry s) := by
    unfold MachineOf.start
    split
    · exact engine _ _ start
    · exact start
  rcases entered.cases with ⟨-, rfl⟩ | ⟨-, b, c, left, came, rfl⟩
  · exact started
  · refine engine _ _ (onEntry _ b c ?_ came)
    cases prev : (s.machine target).prevState with
    | none =>
      rw [prev] at left
      cases left
      exact started
    | some state =>
      rw [prev] at left
      exact onExit state _ b started left

/-- What the engine's own changes and the callbacks keep, a run of the machine keeps. -/
theorem runBootService_induction (engine : ∀ s m, P s → P (s.setMachine target m))
    (onExit : ∀ state s t, P s →
      runCallback (bootStateDescs cfg inputs target state).onExit s = .ok t → P t)
    (onEntry : ∀ state s t, P s →
      runCallback (bootStateDescs cfg inputs target state).onEntry s = .ok t → P t)
    (handler : ∀ state s t, P s →
      (bootStateDescs cfg inputs target state).handler s = .ok t → P t)
    (done : runBootService cfg inputs target s = .ok t) (start : P s) : P t := by
  obtain ⟨a, b, entered, handled, rfl⟩ := runBootService_cases done
  exact engine _ _ (handler _ a b (entered.induction engine onExit onEntry start) handled)

end

/-! ### What restarts do -/

section
variable {P : State → Prop}

theorem bootUsingHartBitmask_induction (machine : ∀ hart s, P s → P (restartMachine hart s))
    (notify : ∀ s, P s → P (s.notify .postBoot)) (mask : BitVec 32) (start : P s) :
    P (bootUsingHartBitmask mask s).1 := by
  unfold bootUsingHartBitmask
  refine notify _ (?_ : P (List.foldl _ (s, false) bootMachine).1)
  refine List.foldlRecOn (motive := fun p : State × Bool => P p.1) bootMachine _ start ?_
  intro p kept hart _
  dsimp only
  split
  · exact machine hart p.1 kept
  · exact kept

/-- What the restart of one machine keeps, the restart of many keeps. -/
theorem hssBootRestartCoresUsingBitmask_induction
    (machine : ∀ hart s, P s → P (restartMachine hart s))
    (notify : ∀ s, P s → P (s.notify .postBoot)) (mask : BitVec 32) (start : P s) :
    P (hssBootRestartCoresUsingBitmask mask s).1 := by
  unfold hssBootRestartCoresUsingBitmask
  split
  · exact start
  · split
    · exact start
    · refine List.foldlRecOn (motive := fun p : State × StatusCode × BitVec 32 => P p.1)
        bootMachine _ start ?_
      intro p kept source _
      dsimp only
      split
      · exact kept
      · split
        · exact bootUsingHartBitmask_induction machine notify _ kept
        · exact kept

theorem hssBootRestartCore_induction (machine : ∀ hart s, P s → P (restartMachine hart s))
    (notify : ∀ s, P s → P (s.notify .postBoot)) {source : Option HartId} {result : StatusCode}
    (done : hssBootRestartCore source s = .ok (t, result)) (start : P s) : P t := by
  simp only [hssBootRestartCore, bind_eq_ok, assert_eq_ok] at done
  obtain ⟨-, -, done⟩ := done
  cases source with
  | some source =>
    have after : t = (hssBootRestartCoresUsingBitmask (1 <<< source.num) s).1 :=
      congrArg Prod.fst (Except.ok.inj done).symm
    rw [after]
    exact hssBootRestartCoresUsingBitmask_induction machine notify _ start
  | none =>
    dsimp only at done
    split at done
    · cases done
      exact start
    · cases done
      exact bootUsingHartBitmask_induction machine notify _ start

/-- The next request that the machine takes asks to start the remote processor `hart`. -/
def RprocRequest (cfg : Config) (target : U54) (s : State) (hart : U54) : Prop :=
  cfg.serviceOpensbiRproc = true ∧ ∃ j,
    findIntent cfg s.ipiData (ipiCalculateQueueIndex (.u54 target) .e51) .bootRequest = some j ∧
    let msg := (s.ipiData.queues (ipiCalculateQueueIndex (.u54 target) .e51)).msgQ j
    msg.immediateArg = rprocBoot ∧ rprocTarget s.mem msg.extendedBuffer = some hart

theorem hssBootIpiHandler_induction (machine : ∀ hart s, P s → P (restartMachine hart s))
    (notify : ∀ s, P s → P (s.notify .postBoot)) {transactionId : TxId} {source : HartId}
    {immediateArg : BitVec 32} {extendedBuffer ancilliaryBuffer : Word} {result : StatusCode}
    (rproc : ∀ hart, cfg.serviceOpensbiRproc = true → immediateArg = rprocBoot →
      rprocTarget s.mem extendedBuffer = some hart → P (s.goto hart .opensbiInit))
    (done : hssBootIpiHandler cfg transactionId source immediateArg extendedBuffer ancilliaryBuffer
      s = .ok (t, result)) (start : P s) : P t := by
  unfold hssBootIpiHandler at done
  split at done
  · next asks =>
    obtain ⟨config, boot⟩ : cfg.serviceOpensbiRproc = true ∧ immediateArg = rprocBoot := by
      simpa using asks
    split at done
    · cases done
    · next hart named =>
      exact hssBootRestartCore_induction machine notify done (rproc hart config boot named)
  · exact hssBootRestartCore_induction machine notify done start

/-- The handler of boot requests leaves the bus alone. -/
theorem hssBootIpiHandler_ipiData {transactionId : TxId} {source : HartId}
    {immediateArg : BitVec 32} {extendedBuffer ancilliaryBuffer : Word} {result : StatusCode}
    (done : hssBootIpiHandler cfg transactionId source immediateArg extendedBuffer ancilliaryBuffer
      s = .ok (t, result)) : t.ipiData = s.ipiData := by
  refine hssBootIpiHandler_induction (P := fun u => u.ipiData = s.ipiData) ?_ ?_ ?_ done rfl
  · intro hart u same
    unfold restartMachine
    split <;> exact same
  · exact fun u same => same
  · exact fun _ _ _ _ => rfl

/-- What the restart of a machine, a jump to a remote processor's program and the taking of a request
keep, the idle state keeps. -/
theorem bootIdleHandler_induction (machine : ∀ hart s, P s → P (restartMachine hart s))
    (notify : ∀ s, P s → P (s.notify .postBoot))
    (take : ∀ j, P (onIpi (takeIntent (.u54 target) .e51 j) s))
    (rproc : ∀ j hart, RprocRequest cfg target s hart →
      P ((onIpi (takeIntent (.u54 target) .e51 j) s).goto hart .opensbiInit))
    (clear : ∀ j u, P u → P (onIpi (clearMsg (ipiCalculateQueueIndex (.u54 target) .e51) j) u))
    (done : bootIdleHandler cfg inputs target s = .ok t) (start : P s) : P t := by
  simp only [bootIdleHandler, bind_eq_ok] at done
  obtain ⟨⟨u, intentFound⟩, consumed, done⟩ := done
  cases done
  obtain ⟨rfl, -⟩ | ⟨j, handler, v, result, found, entry, handled, rfl⟩ :=
    @ipiConsumeIntent_cases _ _ cfg (bootRegistry cfg) _ _ _ _ _ _ _ consumed
  · exact start
  · cases entry
    have same : v.ipiData = takeIntent (.u54 target) .e51 j s.ipiData :=
      hssBootIpiHandler_ipiData handled
    have kept : P v := by
      refine hssBootIpiHandler_induction machine notify ?_ handled (take j)
      exact fun hart config boot named => rproc j hart ⟨config, j, found, boot, named⟩
    have request : ((v.ipiData.queues (ipiCalculateQueueIndex (.u54 target) .e51)).msgQ j).msgType =
        .bootRequest := by
      rw [same, takeIntent_msgQ]
      simpa using (SlotTable.firstBelow_eq_some.mp found).2.1
    have quiet : onIpi (fun d => clearMsg (ipiCalculateQueueIndex (.u54 target) .e51) j
        (acknowledge cfg (inputs.accepts .ackComplete) (.u54 target) .e51
          ((d.queues (ipiCalculateQueueIndex (.u54 target) .e51)).msgQ j) result d)) v =
        onIpi (clearMsg (ipiCalculateQueueIndex (.u54 target) .e51) j) v := by
      simp only [onIpi, State.ipi_eq, acknowledge, request]
    rw [quiet]
    exact clear j v kept

end

/-- With a valid image, all machines are restarted at once. -/
theorem restartCore_all {registry : HartId → IpiRegistry cfg IpiData}
    (valid : hssBootValidateImage s.mem s.pBootImage = true) :
    bootStep cfg registry s (.restartCore none) (bootUsingHartBitmask bitmaskAllU54 s).1 := by
  have image : assert (s.pBootImage ≠ 0) .bootImageNotNull = .ok () := by
    refine if_pos ?_
    simp only [hssBootValidateImage, Bool.and_eq_true] at valid
    simpa using valid.1.1
  simp only [bootStep, bootNext, hssBootRestartCore, image, valid, ok_bind]
  rfl

/-! ### A boot of three harts -/

/-- An image at `0x1000` for three harts with one entry point, of which the first two have a chunk of
one byte each. -/
def threeHarts : Mem := fieldsMem
  [(0x1000, 4, 0xB007C0DE), (0x1010, 4, 2218476978), (0x1018, 8, 0x1000), (0x1020, 8, 0x2000),
    (0x15C8, 8, 0x3000),
    (0x1028, 8, 0x80000000), (0x1038, 8, 1),
    (0x1150, 8, 0x80000000), (0x1160, 8, 1), (0x1168, 8, 1), (0x1170, 8, 1),
    (0x1278, 8, 0x80000000),
    (0x2000, 4, 1), (0x2008, 8, 0x700), (0x2010, 8, 0x80000000), (0x2018, 8, 1),
    (0x2028, 4, 2), (0x2030, 8, 0x700), (0x2038, 8, 0x90000000), (0x2040, 8, 1),
    (0x1700, 2, 0xBBAA)]

theorem threeHarts_valid : hssBootValidateImage threeHarts 0x1000 = true :=
  hssBootValidateImage_fieldsMem (by decide +kernel) <|
    validateCrc_fieldsMem (n := BootImage.sizeOfV0) (by decide +kernel) (by decide) (by decide)
      (by decide +kernel)

/-- A system without memory protection, to which the image of three harts is given. -/
def threeHartsPowerOn : State :=
  powerOn .icicleKitEs threeHarts (fun _ _ => ⟨0, 0, .nullRegion, false, false, false, false⟩) 0

def threeHartsRegistered : State :=
  ({ threeHartsPowerOn with pBootImage := 0x1000 }.notify .ddrTrained).notify .startupComplete

/-- The system after the machines of the three harts were restarted. -/
def threeHartsStart : State :=
  (bootUsingHartBitmask (bootSetMask .u54_1 threeHartsRegistered) threeHartsRegistered).1

/-- The events up to the restart. -/
def threeHartsEvents : List BootEvent :=
  [.registerBootImage 0x1000, .notify .ddrTrained, .notify .startupComplete, .restartCores 0x2]

theorem threeHartsStart_run :
    Run (bootStep .icicleKitEs fun _ => .bare ..) threeHartsPowerOn threeHartsEvents
      threeHartsStart := by
  have registered : Run (bootStep .icicleKitEs fun _ => .bare ..) threeHartsPowerOn
      [.registerBootImage 0x1000, .notify .ddrTrained, .notify .startupComplete]
      threeHartsRegistered := ((Run.nil.snoc rfl).snoc rfl).snoc rfl
  suffices restarted : bootStep .icicleKitEs (fun _ => .bare ..) threeHartsRegistered
    (.restartCores 0x2) threeHartsStart from registered.snoc restarted
  have mem : threeHartsRegistered.mem = threeHarts := rfl
  have pBootImage : threeHartsRegistered.pBootImage = 0x1000 := rfl
  have valid : hssBootValidateImage threeHartsRegistered.mem threeHartsRegistered.pBootImage =
      true := by rw [mem, pBootImage, threeHarts_valid]
  have image : threeHartsRegistered.pBootImage ≠ 0 := by decide
  have chunks : threeHartsRegistered.numChunks .u54_1 ≠ 0 := by decide +kernel
  have mask : bootSetMask .u54_1 threeHartsRegistered = 0xE := by decide +kernel
  have first : (0x2 : BitVec 32).getLsbD U54.u54_1.num = true := by decide
  have rest : ∀ hart, ((0x2 : BitVec 32) &&& ~~~0xE).getLsbD (U54.num hart) = false := by decide
  rw [bootStep, bootNext, hssBootRestartCoresUsingBitmask, if_neg image, valid, threeHartsStart, mask]
  simp only [bootMachine, List.foldl_cons, List.foldl_nil, first, mask, chunks, rest, reduceCtorEq,
    if_true, if_false, ne_eq, not_false_eq_true]

/-- The clock stands still and the transport accepts every message. -/
def tick : Inputs := ⟨1, 1, 1, fun _ => true⟩

/-- The machine of a hart is run until it waits for the acknowledgement of its memory protection
message, which its hart then acknowledges. -/
def setupPmpEvents (hart : U54) : List BootEvent :=
  [.run hart tick, .run hart tick, .bus (.consume (.u54 hart) .e51 .pmpSetup true),
    .bus (.consume .e51 (.u54 hart) .ackComplete true)]

end Hss
