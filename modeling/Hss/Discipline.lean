import Hss.Lib.Outcome
import Hss.Lib.Runs
import Hss.StateMachine

/-! The calls that the state machine engine makes to the callbacks of a machine, over runs in which the
callbacks and other code assign the machine's state. -/

namespace Hss

open Outcome Runs

variable {S W : Type}

/-! ### Traces -/

/-- What happens to a machine. -/
inductive MachineEvent (S : Type)
  | onEntry (state : S)
  | onExit (state : S)
  | handler (state : S)
  /-- The machine's state becomes another one. -/
  | enters (state : S)
  deriving DecidableEq, Repr

/-- A world with what happened to a machine in it, the newest event first. -/
structure Traced (S W : Type) where
  world : W
  trace : List (MachineEvent S)

/-- The code changes what it likes in the world, but not which state the engine last entered. -/
def MachineOf.KeepsPrevState (m : MachineOf S W) (code : W → Except Halt W) : Prop :=
  ∀ w w', code w = .ok w' → (m.get w').prevState = (m.get w).prevState

/-- The state descriptors of a machine. -/
structure MachineTable (m : MachineOf S W) where
  get_put : ∀ w machine, m.get (m.put w machine) = machine
  descs : S → StateDesc W
  onEntry : ∀ s, m.KeepsPrevState (runCallback (descs s).onEntry)
  onExit : ∀ s, m.KeepsPrevState (runCallback (descs s).onExit)
  handler : ∀ s, m.KeepsPrevState (descs s).handler

theorem MachineTable.start_state {m : MachineOf S W} (table : MachineTable m) (now : Word) (w : W) :
    (m.get (m.start now w)).state = (m.get w).state ∧
      (m.get (m.start now w)).prevState = (m.get w).prevState := by
  rw [MachineOf.start]
  split
  · rw [table.get_put]
    exact ⟨rfl, rfl⟩
  · exact ⟨rfl, rfl⟩

/-- The list up to its first entry callback is determined. -/
theorem split_at_onEntry {after after' before before' : List (MachineEvent S)} {s s' : S}
    (same : after ++ .onEntry s :: before = after' ++ .onEntry s' :: before')
    (none : ∀ r, .onEntry r ∉ after) (none' : ∀ r, .onEntry r ∉ after') : after = after' ∧ s = s' := by
  induction after generalizing after' with
  | nil =>
    cases after' with
    | nil => exact ⟨rfl, MachineEvent.onEntry.inj (List.cons.inj same).1⟩
    | cons first after' =>
      have here := (List.cons.inj same).1
      exact absurd (here ▸ List.mem_cons_self ..) (none' s)
  | cons first after ih =>
    cases after' with
    | nil =>
      have here := (List.cons.inj same).1
      exact absurd (here ▸ List.mem_cons_self ..) (none s')
    | cons first' after' =>
      obtain ⟨rfl, rest⟩ := List.cons.inj same
      obtain ⟨rfl, rfl⟩ := ih rest (fun r h => none r (List.mem_cons_of_mem _ h))
        fun r h => none' r (List.mem_cons_of_mem _ h)
      exact ⟨rfl, rfl⟩

namespace MachineOf

/-- The machine in a traced world. -/
def traced (m : MachineOf S W) : MachineOf S (Traced S W) where
  get t := m.get t.world
  put t machine := { t with world := m.put t.world machine }

@[simp] theorem traced_get {m : MachineOf S W} {t : Traced S W} : m.traced.get t = m.get t.world :=
  rfl

theorem traced_start {m : MachineOf S W} {t : Traced S W} (now : Word) :
    m.traced.start now t = { t with world := m.start now t.world } := by
  rw [start, start, traced_get]
  split <;> rfl

variable [DecidableEq S]

/-- The code with a trace of it: the events of its call, and the change of state it makes. -/
def observe (m : MachineOf S W) (events : List (MachineEvent S)) (code : W → Except Halt W)
    (t : Traced S W) : Except Halt (Traced S W) := do
  let w ← code t.world
  let trace := events ++ t.trace
  return ⟨w, if (m.get w).state = (m.get t.world).state then trace
    else .enters (m.get w).state :: trace⟩

/-- The table with traces of its callbacks.  A callback that a state lacks does nothing. -/
def tracedDescs (m : MachineOf S W) (descs : S → StateDesc W) (s : S) : StateDesc (Traced S W) where
  onEntry := some (m.observe [.onEntry s] (runCallback (descs s).onEntry))
  onExit := some (m.observe [.onExit s] (runCallback (descs s).onExit))
  handler := m.observe [.handler s] (descs s).handler

end MachineOf

/-- The engine runs the machine, or other code does something. -/
inductive MachineStep (m : MachineOf S W)
  | run (now : Word)
  | other (code : { code : W → Except Halt W // m.KeepsPrevState code })

section
variable {m : MachineOf S W} [DecidableEq S] (table : MachineTable m)

/-- A step with its trace. -/
def machineNext (t : Traced S W) : MachineStep m → Except Halt (Traced S W)
  | .run now => m.traced.run (m.tracedDescs table.descs) now t
  | .other code => m.observe [] code.1 t

/-- What the callbacks of a machine rely on. -/
structure Disciplined (trace : List (MachineEvent S)) : Prop where
  /-- A state's handler runs after exactly one entry callback of the state since the machine entered it. -/
  handler : ∀ later earlier s, trace = later ++ .handler s :: earlier →
    (earlier.takeWhile (· ≠ .enters s)).count (.onEntry s) = 1
  /-- Between an entry callback and the next one is exactly one exit callback of the same state. -/
  onExit : ∀ later between earlier s s',
    trace = later ++ .onEntry s' :: (between ++ .onEntry s :: earlier) →
    (∀ r, .onEntry r ∉ between) → between.count (.onExit s) = 1

/-- The condition on a step.  The callbacks of a change of state leave the machine in the state that it
changes to, and other code does not take a machine that left the state last entered back to it. -/
def DisciplineStep (t : Traced S W) : MachineStep m → Prop
  | .run now =>
    let { state, prevState, .. } := m.get t.world
    prevState ≠ some state → ∀ a,
      prevState.elim (.ok (m.start now t.world))
        (fun prev => runCallback (table.descs prev).onExit (m.start now t.world)) = .ok a →
      (m.get a).state = state ∧
        ∀ b, runCallback (table.descs state).onEntry a = .ok b → (m.get b).state = state
  | .other code => ∀ w, code.1 t.world = .ok w →
      (m.get t.world).prevState ≠ some (m.get t.world).state →
      (m.get t.world).prevState = some (m.get w).state → False

/-- What holds between the steps: the state last entered has had its one entry callback, and its exit
callback is still to come. -/
structure DisciplineInv (m : MachineOf S W) (t : Traced S W) : Prop where
  trace : Disciplined t.trace
  fresh : (m.get t.world).prevState = none → ∀ r, .onEntry r ∉ t.trace
  entered : ∀ p, (m.get t.world).prevState = some p → ∃ after before,
    t.trace = after ++ .onEntry p :: before ∧ ∀ r, .onEntry r ∉ after ∧ .onExit r ∉ after
  count : (t.trace.takeWhile (· ≠ .enters (m.get t.world).state)).count
      (.onEntry (m.get t.world).state) =
    if (m.get t.world).prevState = some (m.get t.world).state then 1 else 0

/-! ### One call -/

variable {table} {t u : Traced S W} {trace : List (MachineEvent S)} {cur : S}

theorem MachineOf.observe_eq_ok {events : List (MachineEvent S)} {code : W → Except Halt W} :
    m.observe events code t = .ok u ↔ ∃ w, code t.world = .ok w ∧
      u = ⟨w, if (m.get w).state = (m.get t.world).state then events ++ t.trace
        else .enters (m.get w).state :: (events ++ t.trace)⟩ := by
  simp only [observe, bind_eq_ok, pure, Except.pure, Except.ok.injEq, eq_comm (a := u)]

namespace Disciplined

theorem nil : Disciplined ([] : List (MachineEvent S)) := ⟨by simp, by simp⟩

/-- What a new event must be for the trace to stay disciplined. -/
theorem cons (h : Disciplined trace) {event : MachineEvent S}
    (handler : ∀ s, event = .handler s →
      (trace.takeWhile (· ≠ .enters s)).count (.onEntry s) = 1)
    (onEntry : ∀ s', event = .onEntry s' → ∀ between earlier s,
      trace = between ++ .onEntry s :: earlier → (∀ r, .onEntry r ∉ between) →
      between.count (.onExit s) = 1) : Disciplined (event :: trace) := by
  refine ⟨fun later earlier s split => ?_, fun later between earlier s s' split none => ?_⟩
  · cases later with
    | nil =>
      obtain ⟨rfl, rfl⟩ := List.cons.inj split
      exact handler s rfl
    | cons _ later =>
      obtain ⟨rfl, rfl⟩ := List.cons.inj split
      exact h.handler later earlier s rfl
  · cases later with
    | nil =>
      obtain ⟨rfl, rfl⟩ := List.cons.inj split
      exact onEntry s' rfl between earlier s rfl none
    | cons _ later =>
      obtain ⟨rfl, rfl⟩ := List.cons.inj split
      exact h.onExit later between earlier s s' rfl none

theorem onExit_cons (h : Disciplined trace) (s : S) : Disciplined (.onExit s :: trace) :=
  h.cons nofun nofun

theorem enters_cons (h : Disciplined trace) (s : S) : Disciplined (.enters s :: trace) :=
  h.cons nofun nofun

end Disciplined

/-! ### The trace takes no part in what the engine does -/

theorem observe_world (events : List (MachineEvent S)) (code : W → Except Halt W) :
    (m.observe events code t).map Traced.world = code t.world := by
  rw [MachineOf.observe]
  cases code t.world <;> rfl

theorem changeState_world (prevState : Option S) :
    (m.traced.changeState (m.tracedDescs table.descs) prevState cur t).map Traced.world =
      m.changeState table.descs prevState cur t.world := by
  cases prevState with
  | none => exact map_bind (g := Traced.world) rfl fun _ _ => map_bind (observe_world ..) fun _ _ => rfl
  | some prev => exact map_bind (observe_world ..) fun _ _ => map_bind (observe_world ..) fun _ _ => rfl

theorem machineNext_run_world (now : Word) :
    (machineNext table t (.run now)).map Traced.world = m.run table.descs now t.world := by
  rw [machineNext, MachineOf.run, MachineOf.run]
  simp only [MachineOf.traced_get, MachineOf.traced_start]
  split
  · exact map_bind rfl fun _ _ => map_bind (observe_world ..) fun _ _ => rfl
  · exact map_bind (changeState_world _) fun _ _ => map_bind (observe_world ..) fun _ _ => rfl

/-! ### One step -/

/-- Two worlds in which the machine is in the same state, with the same last state. -/
theorem DisciplineInv.congr (inv : DisciplineInv m t) (trace : u.trace = t.trace)
    (state : (m.get u.world).state = (m.get t.world).state)
    (prevState : (m.get u.world).prevState = (m.get t.world).prevState) : DisciplineInv m u := by
  refine ⟨trace ▸ inv.trace, ?_, ?_, ?_⟩
  · rw [prevState, trace]
    exact inv.fresh
  · rw [prevState, trace]
    exact inv.entered
  · rw [prevState, state, trace]
    exact inv.count

theorem DisciplineInv.put (inv : DisciplineInv m t) (table : MachineTable m)
    {machine : StateMachine S} (state : machine.state = (m.get t.world).state)
    (prevState : machine.prevState = (m.get t.world).prevState) :
    DisciplineInv m (m.traced.put t machine) := by
  have got : m.get (m.traced.put t machine).world = machine := table.get_put ..
  refine inv.congr rfl ?_ ?_
  · rw [got, state]
  · rw [got, prevState]

/-- Code that calls no callback but a handler, that of the state the machine is in. -/
theorem DisciplineInv.code (inv : DisciplineInv m t) {code : W → Except Halt W} {w : W}
    {events : List (MachineEvent S)} (keeps : m.KeepsPrevState code) (done : code t.world = .ok w)
    (away : (m.get w).state ≠ (m.get t.world).state →
      (m.get t.world).prevState ≠ some (m.get w).state)
    (called : events = [] ∨ (m.get t.world).prevState = some (m.get t.world).state ∧
      events = [.handler (m.get t.world).state]) :
    DisciplineInv m ⟨w, if (m.get w).state = (m.get t.world).state then events ++ t.trace
      else .enters (m.get w).state :: (events ++ t.trace)⟩ := by
  have prevState := keeps t.world w done
  have quiet : ∀ r, .onEntry r ∉ events ∧ .onExit r ∉ events := by
    rcases called with rfl | ⟨-, rfl⟩ <;> simp
  have disciplined : Disciplined (events ++ t.trace) := by
    rcases called with rfl | ⟨inside, rfl⟩
    · exact inv.trace
    · refine inv.trace.cons (fun s this => ?_) nofun
      cases this
      rw [inv.count, if_pos inside]
  have count : ((events ++ t.trace).takeWhile (· ≠ .enters (m.get t.world).state)).count
      (.onEntry (m.get t.world).state) =
      if (m.get t.world).prevState = some (m.get t.world).state then 1 else 0 := by
    rw [← inv.count]
    rcases called with rfl | ⟨-, rfl⟩ <;> simp
  refine ⟨?_, fun none r => ?_, fun p last => ?_, ?_⟩
  · dsimp only
    split
    · exact disciplined
    · exact disciplined.enters_cons _
  · have before := inv.fresh (prevState.symm.trans none) r
    dsimp only
    split <;> simp [before, quiet r]
  · obtain ⟨after, before, split, none⟩ := inv.entered p (prevState.symm.trans last)
    dsimp only
    split
    · exact ⟨events ++ after, before, by simp [split], fun r => by simp [quiet r, none r]⟩
    · exact ⟨.enters (m.get w).state :: (events ++ after), before, by simp [split],
        fun r => by simp [quiet r, none r]⟩
  · rw [prevState]
    dsimp only
    split
    · next stays => rw [stays, count]
    · next moves =>
      rw [if_neg (away moves)]
      simp

/-- A change of state after which the machine is in the state it changes to. -/
theorem DisciplineInv.changeState (inv : DisciplineInv m t)
    (moved : (m.get t.world).prevState ≠ some (m.get t.world).state)
    (meets : ∀ a, (m.get t.world).prevState.elim (.ok t.world)
        (fun prev => runCallback (table.descs prev).onExit t.world) = .ok a →
      (m.get a).state = (m.get t.world).state ∧
        ∀ b, runCallback (table.descs (m.get t.world).state).onEntry a = .ok b →
          (m.get b).state = (m.get t.world).state)
    (done : m.traced.changeState (m.tracedDescs table.descs) (m.get t.world).prevState
      (m.get t.world).state t = .ok u) :
    DisciplineInv m u ∧ (m.get u.world).state = (m.get t.world).state ∧
      (m.get u.world).prevState = some (m.get t.world).state := by
  obtain ⟨a, b, left, entered, result⟩ := MachineOf.changeState_eq_ok.mp done
  obtain ⟨exited, exits⟩ : (m.get t.world).prevState.elim (.ok t.world)
        (fun prev => runCallback (table.descs prev).onExit t.world) = .ok a.world ∧
      a.trace = (m.get t.world).prevState.elim t.trace fun p => .onExit p :: t.trace := by
    cases last : (m.get t.world).prevState with
    | none =>
      rw [last] at left
      cases left
      exact ⟨rfl, rfl⟩
    | some p =>
      rw [last] at left meets
      obtain ⟨w, exit, rfl⟩ := MachineOf.observe_eq_ok.mp left
      exact ⟨exit, if_pos (meets w exit).1⟩
  obtain ⟨here, lands⟩ := meets a.world exited
  obtain ⟨w, entry, rfl⟩ := MachineOf.observe_eq_ok.mp entered
  have there : (m.get w).state = (m.get t.world).state := lands w entry
  have trace : u.trace = .onEntry (m.get t.world).state :: a.trace := by
    rw [result]
    exact if_pos (there.trans here.symm)
  have machine : m.get u.world =
      { m.get w with executionCount := 0, prevState := some (m.get w).state } := by
    rw [result]
    exact table.get_put ..
  have count : (a.trace.takeWhile (· ≠ .enters (m.get t.world).state)).count
      (.onEntry (m.get t.world).state) = 0 := by
    have before := inv.count
    rw [if_neg moved] at before
    rw [exits]
    cases (m.get t.world).prevState with
    | none => exact before
    | some p => simpa using before
  have disciplined : Disciplined (.onEntry (m.get t.world).state :: a.trace) := by
    rw [exits]
    cases last : (m.get t.world).prevState with
    | none =>
      refine inv.trace.cons nofun fun s' _ between earlier s split none => ?_
      exact absurd (split ▸ List.mem_append_right _ (List.mem_cons_self ..)) (inv.fresh last s)
    | some p =>
      obtain ⟨after, before, first, quiet⟩ := inv.entered p last
      refine (inv.trace.onExit_cons p).cons nofun fun s' _ between earlier s split none => ?_
      change .onExit p :: t.trace = _ at split
      rw [first, ← List.cons_append] at split
      obtain ⟨rfl, rfl⟩ := split_at_onEntry split (fun r => by simp [quiet r]) none
      rw [List.count_cons_self, List.count_eq_zero.mpr (quiet p).2]
  have state : (m.get u.world).state = (m.get t.world).state := by rw [machine, there]
  have prevState : (m.get u.world).prevState = some (m.get t.world).state := by rw [machine, there]
  refine ⟨⟨trace ▸ disciplined, fun none => ?_, fun p last => ?_, ?_⟩, state, prevState⟩
  · rw [prevState] at none
    cases none
  · rw [prevState] at last
    cases last
    exact ⟨[], a.trace, trace, by simp⟩
  · rw [prevState, state, if_pos rfl, trace]
    simpa using count

theorem DisciplineInv.next (inv : DisciplineInv m t) {step : MachineStep m}
    (meets : DisciplineStep table t step) (done : machineNext table t step = .ok u) :
    DisciplineInv m u := by
  cases step with
  | run now =>
    obtain ⟨a, b, changed, handled, rfl⟩ := MachineOf.run_eq_ok.mp done
    rw [MachineOf.traced_get, MachineOf.traced_start] at changed
    rw [MachineOf.traced_get] at handled
    obtain ⟨state, prevState⟩ := table.start_state now t.world
    have started : DisciplineInv m { t with world := m.start now t.world } :=
      inv.congr rfl state prevState
    obtain ⟨kept, here, entered⟩ : DisciplineInv m a ∧
        (m.get a.world).state = (m.get t.world).state ∧
        (m.get a.world).prevState = some (m.get t.world).state := by
      split at changed
      · next stays =>
        cases changed
        exact ⟨started, state, prevState.trans stays⟩
      · next moved =>
        have callbacks := meets moved
        rw [← state, ← prevState] at changed moved callbacks
        rw [← state]
        exact started.changeState moved callbacks changed
    obtain ⟨w, handler, result⟩ := MachineOf.observe_eq_ok.mp handled
    have after : DisciplineInv m b := by
      rw [result, ← here]
      refine kept.code (table.handler _) handler (fun moves back => ?_) (.inr ⟨?_, rfl⟩)
      · rw [entered, ← here] at back
        exact moves (Option.some.inj back).symm
      · rw [entered, here]
    exact after.put table rfl rfl
  | other code =>
    obtain ⟨w, ran, rfl⟩ := MachineOf.observe_eq_ok.mp done
    refine inv.code code.2 ran (fun moves back => ?_) (.inl rfl)
    refine meets w ran (fun stays => moves ?_) back
    exact (Option.some.inj (stays.symm.trans back)).symm

/-- The engine discipline over runs: from a machine that has not run yet, on any table, whatever its
callbacks and other code assign within the condition. -/
theorem machine_disciplined {w : W} (fresh : (m.get w).prevState = none) {steps : List (MachineStep m)}
    (run : Run (Under (DisciplineStep table) fun t step u => machineNext table t step = .ok u)
      ⟨w, []⟩ steps t) : Disciplined t.trace := by
  have start : DisciplineInv m ⟨w, []⟩ := by
    refine ⟨.nil, fun _ _ => List.not_mem_nil, fun p last => ?_, ?_⟩
    · rw [fresh] at last
      cases last
    · rw [fresh]
      rfl
  exact (run.invariant start fun t step u inv taken => inv.next taken.1 taken.2).trace

end

end Hss
