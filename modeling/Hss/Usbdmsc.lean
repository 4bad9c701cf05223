import Hss.Discipline

/-! The USB mass storage service, a machine whose entry callback redirects it. -/

namespace Hss

open Runs

/-- The states of the service. -/
inductive UsbdmscState
  | initialization | idle | waitForUsbHost | active
  deriving DecidableEq, Repr

/-- The service, the events that it looks at, and what the drivers answer: whether `USBDMSC_Init`
succeeds, whether `USBDMSC_Poll` finds the device idle, whether a host is connected, and whether the
longest session is over. -/
structure Usbdmsc where
  machine : StateMachine UsbdmscState
  ddrTrained : Bool
  startupComplete : Bool
  usbdmscRequested : Bool
  init : Bool
  poll : Bool
  hostConnected : Bool
  activeTimeout : Bool

namespace Usbdmsc

def goTo (state : UsbdmscState) (s : Usbdmsc) : Usbdmsc :=
  { s with machine := { s.machine with state } }

/-- `usbdmsc_init_handler` -/
def initHandler (s : Usbdmsc) : Usbdmsc :=
  if s.ddrTrained && s.startupComplete then
    if s.usbdmscRequested then s.goTo .waitForUsbHost else s.goTo .idle
  else s

/-- `usbdmsc_idle_onEntry` -/
def idleOnEntry (s : Usbdmsc) : Usbdmsc := { s with usbdmscRequested := false }

/-- `usbdmsc_idle_handler` -/
def idleHandler (s : Usbdmsc) : Usbdmsc :=
  if s.usbdmscRequested then s.goTo .waitForUsbHost else s

/-- `usbdmsc_waitForUSBHost_onEntry` -/
def waitForUsbHostOnEntry (s : Usbdmsc) : Usbdmsc := if s.init then s else s.goTo .idle

/-- `usbdmsc_waitForUSBHost_handler` -/
def waitForUsbHostHandler (s : Usbdmsc) : Usbdmsc :=
  if s.poll then s.goTo .idle else if s.hostConnected then s.goTo .active else s

/-- `usbdmsc_active_handler` -/
def activeHandler (s : Usbdmsc) : Usbdmsc :=
  let s := if s.activeTimeout then s.goTo .idle else if !s.hostConnected then s.goTo .idle else s
  if s.poll then s.goTo .idle else s

/-- `USBDMSC_Deactivate` -/
def deactivate (s : Usbdmsc) : Usbdmsc := if s.machine.state ≠ .idle then s.goTo .idle else s

/-- `usbdmsc_service`, before its first run -/
def service (s : Usbdmsc) : Usbdmsc :=
  { s with machine := ⟨.initialization, none, 0, 0⟩ }

end Usbdmsc

/-- `usbdmsc_state_descs`.  What the other callbacks do is outside the machine. -/
def usbdmscStateDescs : UsbdmscState → StateDesc Usbdmsc
  | .initialization => ⟨none, none, fun s => .ok s.initHandler⟩
  | .idle => ⟨some fun s => .ok s.idleOnEntry, none, fun s => .ok s.idleHandler⟩
  | .waitForUsbHost =>
    ⟨some fun s => .ok s.waitForUsbHostOnEntry, none, fun s => .ok s.waitForUsbHostHandler⟩
  | .active => ⟨none, none, fun s => .ok s.activeHandler⟩

/-- The machine of the service. -/
def usbdmscMachine : MachineOf UsbdmscState Usbdmsc where
  get := Usbdmsc.machine
  put s machine := { s with machine }

@[simp] theorem Usbdmsc.goTo_prevState (state : UsbdmscState) (s : Usbdmsc) :
    (s.goTo state).machine.prevState = s.machine.prevState := rfl

theorem usbdmscMachine_keepsPrevState {code : Usbdmsc → Usbdmsc}
    (keeps : ∀ s, (code s).machine.prevState = s.machine.prevState) :
    usbdmscMachine.KeepsPrevState fun s => .ok (code s) := by
  intro s t done
  cases done
  exact keeps s

theorem usbdmscMachine_keepsPrevState_none : usbdmscMachine.KeepsPrevState (runCallback none) :=
  @usbdmscMachine_keepsPrevState id fun _ => rfl

def usbdmscTable : MachineTable usbdmscMachine where
  get_put _ _ := rfl
  descs := usbdmscStateDescs
  onEntry
    | .initialization => usbdmscMachine_keepsPrevState_none
    | .idle => usbdmscMachine_keepsPrevState fun _ => rfl
    | .waitForUsbHost => usbdmscMachine_keepsPrevState fun s => by
      unfold Usbdmsc.waitForUsbHostOnEntry
      split <;> rfl
    | .active => usbdmscMachine_keepsPrevState_none
  onExit s := by cases s <;> exact usbdmscMachine_keepsPrevState_none
  handler
    | .initialization => usbdmscMachine_keepsPrevState fun s => by
      unfold Usbdmsc.initHandler
      split
      · split <;> rfl
      · rfl
    | .idle => usbdmscMachine_keepsPrevState fun s => by
      unfold Usbdmsc.idleHandler
      split <;> rfl
    | .waitForUsbHost => usbdmscMachine_keepsPrevState fun s => by
      unfold Usbdmsc.waitForUsbHostHandler
      split
      · rfl
      · split <;> rfl
    | .active => usbdmscMachine_keepsPrevState fun s => by
      simp only [Usbdmsc.activeHandler]
      split
      · split <;> rfl
      · split <;> split <;> rfl

/-- The entry callbacks keep the state that is entered, but for one. -/
theorem usbdmsc_onEntry_state {s t : Usbdmsc} {state : UsbdmscState}
    (ready : state = .waitForUsbHost → s.init = true)
    (entered : runCallback (usbdmscStateDescs state).onEntry s = .ok t) :
    t.machine.state = s.machine.state := by
  cases state with
  | initialization | idle | active =>
    cases entered
    rfl
  | waitForUsbHost =>
    cases entered
    rw [Usbdmsc.waitForUsbHostOnEntry, if_pos (ready rfl)]

theorem usbdmscMachine_start_init (now : Word) (s : Usbdmsc) :
    (usbdmscMachine.start now s).init = s.init := by
  rw [MachineOf.start]
  split <;> rfl

/-- The service keeps to the discipline as long as the USB device can be set up when it waits for a
host. -/
theorem usbdmsc_run_meets {t : Traced UsbdmscState Usbdmsc} {now : Word} :
    DisciplineStep usbdmscTable t (.run now) ↔
      (t.world.machine.prevState ≠ some t.world.machine.state →
        t.world.machine.state = .waitForUsbHost → t.world.init = true) := by
  have started := usbdmscTable.start_state now t.world
  have init := usbdmscMachine_start_init now t.world
  have left : t.world.machine.prevState.elim (.ok (usbdmscMachine.start now t.world))
      (fun prev => runCallback (usbdmscStateDescs prev).onExit (usbdmscMachine.start now t.world)) =
      .ok (usbdmscMachine.start now t.world) := by
    cases t.world.machine.prevState with
    | none => rfl
    | some prev => cases prev <;> rfl
  constructor
  · intro meets moved waits
    have lands := (meets moved _ left).2
    by_contra fails
    have entered : runCallback (usbdmscStateDescs t.world.machine.state).onEntry
        (usbdmscMachine.start now t.world) =
        .ok ((usbdmscMachine.start now t.world).goTo .idle) := by
      rw [waits]
      exact congrArg _ (if_neg (init ▸ fails))
    have same : UsbdmscState.idle = .waitForUsbHost := (lands _ entered).trans waits
    cases same
  · intro ready moved a exited
    obtain rfl := Except.ok.inj (left.symm.trans exited)
    refine ⟨started.1, fun b entered => ?_⟩
    exact (usbdmsc_onEntry_state (fun waits => init.trans (ready moved waits)) entered).trans started.1

/-- The service when everything is up and the device was asked for, with the driver's answer. -/
def requestedUsbdmsc (init : Bool) : Usbdmsc where
  machine := ⟨.initialization, none, 0, 0⟩
  ddrTrained := true
  startupComplete := true
  usbdmscRequested := true
  init := init
  poll := false
  hostConnected := false
  activeTimeout := false

/-- Two runs of the service that keep to the discipline. -/
theorem usbdmsc_disciplined : ∃ t, Run (Under (DisciplineStep usbdmscTable)
      fun t step u => machineNext usbdmscTable t step = .ok u)
      ⟨requestedUsbdmsc true, []⟩ [.run 1, .run 2] t ∧ Disciplined t.trace := by
  obtain ⟨t, first, ready⟩ : ∃ t, machineNext usbdmscTable ⟨requestedUsbdmsc true, []⟩ (.run 1) = .ok t ∧
      t.world.init = true := ⟨_, rfl, rfl⟩
  obtain ⟨u, second⟩ : ∃ u, machineNext usbdmscTable t (.run 2) = .ok u := by
    cases first
    exact ⟨_, rfl⟩
  have run := (Run.single ⟨usbdmsc_run_meets.mpr fun _ _ => rfl, first⟩ :
    Run (Under (DisciplineStep usbdmscTable) fun t step u => machineNext usbdmscTable t step = .ok u)
      ⟨requestedUsbdmsc true, []⟩ [.run 1] t).snoc ⟨usbdmsc_run_meets.mpr fun _ _ => ready, second⟩
  exact ⟨u, run, machine_disciplined rfl run⟩

/-- The USB device cannot be set up: the service goes back to idle from the entry callback, and the
handler of the idle state runs without its entry callback, which would have cleared the request. -/
theorem usbdmsc_not_disciplined : ∃ t, Run (fun t step u => machineNext usbdmscTable t step = .ok u)
      ⟨requestedUsbdmsc false, []⟩ [.run 1, .run 2, .run 3] t ∧ ¬ Disciplined t.trace := by
  refine ⟨_, run_of_runAll rfl, fun disciplined => ?_⟩
  have once := disciplined.handler [.enters .waitForUsbHost] _ .idle rfl
  revert once
  decide

end Hss
