import Mathlib.Data.List.Induction
import Mathlib.Data.Nat.Notation
import Mathlib.Logic.Basic

/-! Runs of a labelled transition relation: the states that a sequence of events reaches, and the
rule that carries an invariant of one step, taken under a condition on the state before it, to
every run whose steps all meet that condition. -/

namespace Runs

universe u v

variable {σ : Type u} {ε : Type v}

/-- The runs of `step` from `start`: the events taken, oldest first, and the state reached. -/
inductive Run (step : σ → ε → σ → Prop) (start : σ) : List ε → σ → Prop
  | nil : Run step start [] start
  | snoc {events : List ε} {s t : σ} {event : ε} (before : Run step start events s)
      (last : step s event t) : Run step start (events ++ [event]) t

/-- The steps of `step` that meet `condition` in the state before them. -/
def Under (condition : σ → ε → Prop) (step : σ → ε → σ → Prop) : σ → ε → σ → Prop :=
  fun s event t => condition s event ∧ step s event t

variable {step step' : σ → ε → σ → Prop} {start : σ}

theorem Run.single {event : ε} {s : σ} (last : step start event s) : Run step start [event] s :=
  (Run.nil.snoc last : Run step start ([] ++ [event]) s)

theorem Run.mono (weaker : ∀ s event t, step s event t → step' s event t) {events : List ε} {s : σ}
    (run : Run step start events s) : Run step' start events s := by
  induction run with
  | nil => exact .nil
  | snoc _ last ih => exact .snoc ih (weaker _ _ _ last)

theorem Run.trans {middle s : σ} {first second : List ε} (before : Run step start first middle)
    (after : Run step middle second s) : Run step start (first ++ second) s := by
  induction after with
  | nil => simpa using before
  | snoc _ last ih => simpa only [← List.append_assoc] using Run.snoc ih last

/-- The last step of a run. -/
theorem Run.unsnoc {events : List ε} {event : ε} {t : σ} (run : Run step start (events ++ [event]) t) :
    ∃ s, Run step start events s ∧ step s event t := by
  generalize all : events ++ [event] = whole at run
  cases run with
  | nil => exact absurd all (by simp)
  | snoc before last =>
    obtain ⟨rfl, same⟩ := List.append_inj' all rfl
    cases same
    exact ⟨_, before, last⟩

theorem Run.eq_of_nil {s : σ} (run : Run step start [] s) : s = start := by
  suffices empty : ∀ {events : List ε} {s : σ}, Run step start events s → events = [] → s = start from
    empty run rfl
  intro events s run none
  cases run with
  | nil => rfl
  | snoc before last => exact absurd none (by simp)

theorem Run.uncons {event : ε} {events : List ε} {s : σ} (run : Run step start (event :: events) s) :
    ∃ middle, step start event middle ∧ Run step middle events s := by
  suffices split : ∀ {all : List ε} {s : σ}, Run step start all s → ∀ event events,
      all = event :: events → ∃ middle, step start event middle ∧ Run step middle events s from
    split run event events rfl
  intro all s run
  induction run with
  | nil => exact nofun
  | @snoc all s t last before step' ih =>
    intro event events same
    cases all with
    | nil =>
      cases before.eq_of_nil
      cases same
      exact ⟨t, step', .nil⟩
    | cons first all =>
      obtain ⟨rfl, rfl⟩ := List.cons.inj same
      obtain ⟨middle, taken, rest⟩ := ih _ all rfl
      exact ⟨middle, taken, rest.snoc step'⟩

/-- An invariant that one step keeps holds in every state that a run reaches. -/
theorem Run.invariant {I : σ → Prop} (base : I start)
    (keeps : ∀ s event t, I s → step s event t → I t) {events : List ε} {s : σ}
    (run : Run step start events s) : I s := by
  induction run with
  | nil => exact base
  | snoc _ last ih => exact keeps _ _ _ ih last

/-- A run that makes progress while it is not done gets done, whatever the events are. -/
theorem Run.reaches {I : ℕ → σ → Prop} {Done : σ → Prop}
    (progress : ∀ n s event, I n s → ∃ t, step s event t ∧ (Done t ∨ ∃ m < n, I m t))
    (events : ℕ → ε) {n : ℕ} (base : I n start) :
    ∃ k t, Run step start ((List.range k).map events) t ∧ Done t := by
  induction n using Nat.strongRecOn generalizing start events with
  | ind n ih =>
    obtain ⟨t, first, done | ⟨m, less, kept⟩⟩ := progress n start (events 0) base
    · exact ⟨1, t, .single first, done⟩
    · obtain ⟨k, u, rest, done⟩ := ih m less (fun i => events (i + 1)) kept
      refine ⟨k + 1, u, ?_, done⟩
      rw [List.range_succ_eq_map, List.map_cons, List.map_map]
      exact (Run.single first).trans rest

/-- What holds of a run of one step more when it holds of the run and of the step holds of every
run. -/
theorem Run.history {I : List ε → σ → Prop} (base : I [] start)
    (keeps : ∀ events s event t, I events s → step s event t → I (events ++ [event]) t)
    {events : List ε} {s : σ} (run : Run step start events s) : I events s := by
  induction run with
  | nil => exact base
  | snoc _ last ih => exact keeps _ _ _ _ ih last

/-- The two parts of a run. -/
theorem Run.split {first second : List ε} {t : σ} (run : Run step start (first ++ second) t) :
    ∃ s, Run step start first s ∧ Run step s second t := by
  induction second using List.reverseRecOn generalizing t with
  | nil => exact ⟨t, by rwa [List.append_nil] at run, .nil⟩
  | append_singleton second event ih =>
    rw [← List.append_assoc] at run
    obtain ⟨u, before, last⟩ := run.unsnoc
    obtain ⟨s, left, right⟩ := ih before
    exact ⟨s, left, right.snoc last⟩

/-- The events decide the state that a run of a function reaches. -/
theorem Run.unique {events : List ε} {s s' : σ} (run : Run step start events s)
    (run' : Run step start events s')
    (functional : ∀ s event t t', step s event t → step s event t' → t = t') : s = s' := by
  induction run generalizing s' with
  | nil => exact run'.eq_of_nil.symm
  | snoc _ last ih =>
    obtain ⟨u, before, last'⟩ := run'.unsnoc
    cases ih before
    exact functional _ _ _ _ last last'

/-- In the run of `events` from `start` the step `event`, from `s` to `t`, comes after `before`. -/
structure Occurs (step : σ → ε → σ → Prop) (start : σ) (events before : List ε) (s : σ) (event : ε)
    (t : σ) : Prop where
  place : ∃ after, events = before ++ event :: after
  run : Run step start before s
  step : step s event t

theorem Occurs.append {events before : List ε} {s t : σ} {event : ε}
    (taken : Occurs step start events before s event t) (more : List ε) :
    Occurs step start (events ++ more) before s event t := by
  obtain ⟨⟨after, rfl⟩, run, taken⟩ := taken
  exact ⟨⟨after ++ more, by simp⟩, run, taken⟩

theorem Occurs.last {events : List ε} {s t : σ} {event : ε} (run : Run step start events s)
    (last : step s event t) : Occurs step start (events ++ [event]) events s event t :=
  ⟨⟨[], rfl⟩, run, last⟩

theorem Run.under {events : List ε} {s : σ} (run : Run step start events s)
    (condition : σ → ε → Prop) (meets : ∀ event ∈ events, ∀ s, condition s event) :
    Run (Under condition step) start events s := by
  induction run with
  | nil => exact .nil
  | snoc _ last ih =>
    refine .snoc (ih fun event h => meets event (List.mem_append_left _ h)) ⟨meets _ ?_ _, last⟩
    exact List.mem_append_right _ (List.mem_singleton_self _)

theorem Run.forget {condition : σ → ε → Prop} {events : List ε} {s : σ}
    (run : Run (Under condition step) start events s) : Run step start events s :=
  run.mono fun _ _ _ h => h.2

/-- A run of a function, event by event: the executable form of `Run`. -/
def runAll {τ : Type v} (next : σ → ε → Except τ σ) : σ → List ε → Except τ σ
  | s, [] => .ok s
  | s, event :: events => next s event >>= fun t => runAll next t events

/-- The states that `runAll` computes are reached by runs. -/
theorem run_of_runAll {τ : Type v} {next : σ → ε → Except τ σ} {s t : σ} {events : List ε}
    (computed : runAll next s events = .ok t) :
    Run (fun a event b => next a event = .ok b) s events t := by
  induction events generalizing s with
  | nil =>
    cases computed
    exact .nil
  | cons event events ih =>
    cases first : next s event with
    | error reason => simp [runAll, first, bind, Except.bind] at computed
    | ok middle =>
      simp only [runAll, first, bind, Except.bind] at computed
      have before : Run (fun a event b => next a event = .ok b) s [event] middle :=
        .single first
      exact before.trans (ih computed)

/-- A run of the function that checks a condition before each step is a run under the condition. -/
theorem under_of_guard {τ : Type v} {next : σ → ε → Except τ σ} {condition : σ → ε → Prop}
    [∀ s event, Decidable (condition s event)] {bad : τ} {events : List ε} {s : σ}
    (run : Run (fun a event b => (if condition a event then next a event else .error bad) = .ok b)
      start events s) : Run (Under condition fun a event b => next a event = .ok b) start events s := by
  refine run.mono fun a event b step => ?_
  split at step
  · next holds => exact ⟨holds, step⟩
  · cases step

theorem ok_of_toOption {τ : Type v} {α : Type u} {x : Except τ α} {a : α}
    (computed : x.toOption = some a) : x = .ok a := by
  cases x with
  | error reason => cases computed
  | ok b => exact congrArg _ (Option.some.inj computed)

theorem exists_ok {τ : Type v} {α : Type u} {x : Except τ α} {P : α → Prop} [DecidablePred P]
    (check : x.toOption.any (fun a => P a) = true) : ∃ a, x = .ok a ∧ P a := by
  cases x with
  | error reason => simp [Except.toOption] at check
  | ok a => exact ⟨a, rfl, by simpa [Except.toOption] using check⟩

/-- A run that can be computed to a state with a property that can be decided. -/
theorem exists_run {τ : Type v} (next : σ → ε → Except τ σ) (s : σ) (events : List ε)
    {P : σ → Prop} [DecidablePred P] (check : (runAll next s events).toOption.any (fun t => P t) = true) :
    ∃ t, Run (fun a event b => next a event = .ok b) s events t ∧ P t :=
  have ⟨t, computed, holds⟩ := exists_ok check
  ⟨t, run_of_runAll computed, holds⟩

end Runs
