import Hss.Types

/-! The state machine engine of the superloop: a machine runs the exit callback of the state it left,
the entry callback of the state it entered, and the handler of the state it is in. -/

namespace Hss

/-- `struct StateMachine`, less its names, debug flag and execution statistics.  No previous state is
`SM_INVALID_STATE`. -/
structure StateMachine (S : Type) where
  state : S
  prevState : Option S
  startTime : Word
  executionCount : ℕ
  deriving DecidableEq, Repr

/-- `struct StateDesc`: the callbacks of a state, on a world that machines are part of. -/
structure StateDesc (W : Type) where
  onEntry : Option (W → Except Halt W)
  onExit : Option (W → Except Halt W)
  handler : W → Except Halt W

/-- An optional callback. -/
def runCallback {W : Type} (callback : Option (W → Except Halt W)) (w : W) : Except Halt W :=
  match callback with
  | none => .ok w
  | some f => f w

/-- A machine as part of a world. -/
structure MachineOf (S W : Type) where
  get : W → StateMachine S
  put : W → StateMachine S → W

variable {S W : Type}

/-- The machine's first run sets its start time. -/
def MachineOf.start (m : MachineOf S W) (now : Word) (w : W) : W :=
  if (m.get w).startTime = 0 then m.put w { m.get w with startTime := now } else w

/-- The callbacks of a change of state. -/
def MachineOf.changeState (m : MachineOf S W) (descs : S → StateDesc W) (prevState : Option S)
    (currentState : S) (w : W) : Except Halt W := do
  let w ←
    match prevState with
    | none => .ok w
    | some prevState => runCallback (descs prevState).onExit w
  let w ← runCallback (descs currentState).onEntry w
  return m.put w { m.get w with executionCount := 0, prevState := some (m.get w).state }

/-- `RunStateMachine`.  The handler is that of the state the machine was in before its callbacks. -/
def MachineOf.run [DecidableEq S] (m : MachineOf S W) (descs : S → StateDesc W) (now : Word) (w : W) :
    Except Halt W := do
  let prevState := (m.get w).prevState
  let currentState := (m.get w).state
  let w := m.start now w
  let w ← if prevState = some currentState then .ok w
    else m.changeState descs prevState currentState w
  let w ← (descs currentState).handler w
  return m.put w { m.get w with executionCount := (m.get w).executionCount + 1 }

section
variable {m : MachineOf S W} {descs : S → StateDesc W} {now : Word} {prevState : Option S}
  {currentState : S} {w w' : W}

@[simp] theorem runCallback_none : runCallback none w = .ok w := rfl

@[simp] theorem runCallback_some {f : W → Except Halt W} : runCallback (some f) w = f w := rfl

/-- A change of state: the exit callback, if there is a state to leave, and the entry callback. -/
theorem MachineOf.changeState_eq_ok :
    m.changeState descs prevState currentState w = .ok w' ↔
      ∃ a b, prevState.elim (.ok w) (fun prev => runCallback (descs prev).onExit w) = .ok a ∧
        runCallback (descs currentState).onEntry a = .ok b ∧
        w' = m.put b { m.get b with executionCount := 0, prevState := some (m.get b).state } := by
  cases prevState <;>
    simp only [changeState, bind_eq_ok, pure, Except.pure, Except.ok.injEq, Option.elim,
      eq_comm (a := w'), exists_and_left]

/-- A run of a machine: the change of state, if there is one, and the handler. -/
theorem MachineOf.run_eq_ok [DecidableEq S] : m.run descs now w = .ok w' ↔
    ∃ a b, (if (m.get w).prevState = some (m.get w).state then .ok (m.start now w)
        else m.changeState descs (m.get w).prevState (m.get w).state (m.start now w)) = .ok a ∧
      (descs (m.get w).state).handler a = .ok b ∧
      w' = m.put b { m.get b with executionCount := (m.get b).executionCount + 1 } := by
  simp only [run, pure, Except.pure]
  by_cases stays : (m.get w).prevState = some (m.get w).state <;>
    simp only [stays, if_true, if_false, bind_eq_ok, Except.ok.injEq, eq_comm (a := w'),
      exists_and_left]

end

end Hss
