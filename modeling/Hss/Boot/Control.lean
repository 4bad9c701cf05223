import Hss.Boot.Messages

/-! The transition diagram of the boot machines: the states that a run of a machine, or a restart,
can bring it to. -/

namespace Hss

/-- The states that the handler of a state can go on to. -/
def BootState.next : BootState → List BootState
  | .initialization => [.setupPmp, .error]
  | .setupPmp => [.setupPmpComplete]
  | .setupPmpComplete => [.zeroInitChunks, .complete, .error]
  | .zeroInitChunks => [.downloadChunks]
  | .downloadChunks => [.opensbiInit, .complete]
  | .opensbiInit => [.wait, .error]
  | .wait => [.complete, .error]
  | .complete => [.idle]
  | .idle => []
  | .error => [.complete]

variable {cfg : Config} {inputs : Inputs} {registry : HartId → IpiRegistry cfg IpiData}
  {i j peer : U54} {event : BootEvent} {s t : State} {result : Bool}

/-- The machine of `i` stays in its state or goes on to one of `states`, and the other machines are
left alone. -/
structure Moves (i : U54) (states : List BootState) (s t : State) : Prop where
  other : ∀ j ≠ i, t.machine j = s.machine j
  prevState : (t.machine i).prevState = (s.machine i).prevState
  state : (t.machine i).state = (s.machine i).state ∨ (t.machine i).state ∈ states

theorem Moves.of_eq {states : List BootState} (same : t.machine = s.machine) : Moves i states s t :=
  ⟨fun _ _ => by rw [same], by rw [same], .inl (by rw [same])⟩

theorem Moves.goto {states : List BootState} {u : State} {state : BootState}
    (same : u.machine = s.machine) (next : state ∈ states) : Moves i states s (u.goto i state) := by
  refine ⟨fun j ne => ?_, ?_, .inr ?_⟩
  · rw [State.goto_machine, Function.update_of_ne ne, same]
  · rw [State.goto_machine, Function.update_self, same]
  · rw [State.goto_machine, Function.update_self]
    exact next

theorem freeCell_machine {cell : MsgCell} (done : freeCell cfg i cell s = .ok t) :
    t.machine = s.machine := by
  rcases freeCell_cases done with ⟨-, rfl⟩ | ⟨-, d, -, rfl⟩ <;> rfl

theorem freeAll_machine (done : freeAll cfg i s = .ok t) : t.machine = s.machine :=
  freeAll_induction (P := fun u => u.machine = s.machine)
    (fun _ _ _ same freed => (freeCell_machine freed).trans same) done rfl

theorem checkForIpiAcks_machine (done : checkForIpiAcks cfg i s = .ok (t, result)) :
    t.machine = s.machine :=
  checkForIpiAcks_induction (P := fun u => u.machine = s.machine)
    (fun _ _ _ same freed => (freeCell_machine freed).trans same) done rfl

theorem Moves.delivery {states : List BootState} (next : .error ∈ states)
    (done : commonBootMessageDelivery cfg inputs i peer s = .ok t) : Moves i states s t := by
  obtain ⟨index, d, e, sent, -, -, rfl⟩ := commonBootMessageDelivery_cases done
  cases sent with
  | true => exact .of_eq rfl
  | false => exact .goto rfl next

theorem Registers.machine (registers : Registers cfg i s t) : t.machine = s.machine := by
  obtain ⟨l, ledger, ids, rfl, -⟩ := registers
  rfl

theorem Moves.handler {state : BootState} (busy : state ≠ .idle)
    (done : (bootStateDescs cfg inputs i state).handler s = .ok t) : Moves i state.next s t := by
  cases state with
  | initialization =>
    rcases bootInitHandler_cases done with rfl | rfl | rfl
    · exact .of_eq rfl
    · refine ⟨fun j ne => Function.update_of_ne ne .., ?_, .inr ?_⟩
      · rw [State.setMachine_machine, Function.update_self]
      · rw [State.setMachine_machine, Function.update_self]
        exact List.mem_cons_self ..
    · exact .goto rfl (by decide)
  | setupPmp =>
    rcases bootSetupPmpHandler_cases done with ⟨-, rfl⟩ | ⟨-, u, result, request, rfl⟩
    · exact .goto rfl (by decide)
    · obtain ⟨index, d, e, -, -, f, -, rfl⟩ := hssBootPmpSetupRequest_cases request
      cases result with
      | true => exact .goto rfl (by decide)
      | false => exact .of_eq rfl
  | setupPmpComplete =>
    rcases bootSetupPmpCompleteHandler_cases done with ⟨u, freed, rfl⟩ | ⟨u, result, checked, rfl⟩
    · exact .goto (freeAll_machine freed) (by decide)
    · cases result with
      | true => exact .goto (checkForIpiAcks_machine checked) (by split <;> decide)
      | false => exact .of_eq (checkForIpiAcks_machine checked)
  | zeroInitChunks =>
    rcases bootZeroInitChunksHandler_cases done with ⟨-, rfl⟩ | ⟨-, -, rfl⟩ | ⟨-, -, rfl⟩ |
      ⟨-, -, rfl⟩
    · exact .goto rfl (by decide)
    · exact .of_eq rfl
    · exact .of_eq rfl
    · exact .of_eq rfl
  | downloadChunks =>
    rcases bootDownloadChunksHandler_cases done with ⟨-, rfl⟩ | ⟨-, -, rfl⟩ | ⟨-, -, rfl⟩ |
      ⟨-, -, -, rfl⟩ | ⟨-, -, -, -, rfl⟩
    · exact .goto rfl (by decide)
    · exact .goto rfl (by decide)
    · exact .goto rfl (by decide)
    · exact .of_eq rfl
    · refine .of_eq ?_
      simp only [nextSlice, State.setWalk, State.setLocal_machine, noteAncilliaryData]
      split <;> rfl
  | opensbiInit =>
    rcases bootOpensbiInitHandler_cases done with ⟨-, rfl⟩ | ⟨-, -, rfl⟩ | ⟨-, peer, u, -, sent, rfl⟩
    · exact .of_eq rfl
    · exact .goto rfl (by decide)
    · have moves : Moves i [.wait, .error] s u := by
        unfold runIf at sent
        split at sent
        · exact .delivery (by decide) sent
        · cases sent
          exact .of_eq rfl
      exact ⟨moves.other, moves.prevState, moves.state⟩
  | wait =>
    have started : Moves i [.complete, .error] s
        (s.setMachine i { s.machine i with startTime := inputs.time }) := by
      refine ⟨fun j ne => Function.update_of_ne ne .., ?_, .inl ?_⟩ <;>
        rw [State.setMachine_machine, Function.update_self]
    have next {u : State} {state : BootState} (same : u.machine =
        (s.setMachine i { s.machine i with startTime := inputs.time }).machine)
        (next : state ∈ [BootState.complete, .error]) :
        Moves i [.complete, .error] s (u.goto i state) := by
      have moves : Moves i [.complete, .error] (s.setMachine i { s.machine i with
        startTime := inputs.time }) (u.goto i state) := .goto same next
      refine ⟨fun j ne => (moves.other j ne).trans (started.other j ne),
        moves.prevState.trans started.prevState, .inr ?_⟩
      rw [State.goto_machine, Function.update_self]
      exact next
    rcases bootWaitHandler_cases done with ⟨-, rfl⟩ | ⟨-, v, freed, rfl⟩ |
      ⟨-, v, result, checked, after⟩
    · exact next rfl (by decide)
    · exact next (freeAll_machine freed) (by decide)
    · rcases after with ⟨-, rfl⟩ | ⟨-, status, rfl⟩
      · have same := checkForIpiAcks_machine checked
        exact ⟨fun j ne => (congrFun same j).trans (started.other j ne),
          (congrArg _ (congrFun same i)).trans started.prevState,
          .inl ((congrArg StateMachine.state (congrFun same i)).trans (by simp))⟩
      · have same : v.machine = _ := checkForIpiAcks_machine checked
        exact next same (by decide)
  | complete =>
    rcases bootCompleteHandler_cases done with rfl | rfl
    · exact .of_eq rfl
    · exact .goto rfl (by decide)
  | idle => exact absurd rfl busy
  | error =>
    cases done
    exact .goto rfl (by decide)

/-- A restart puts machines back to their first state, and a request for a remote processor puts its
machine to the start of its harts. -/
structure Restarts (rproc : U54 → Prop) (s t : State) : Prop where
  prevState : ∀ j, (t.machine j).prevState = (s.machine j).prevState
  state : ∀ j, (t.machine j).state = (s.machine j).state ∨
    (t.machine j).state = .initialization ∨ ((t.machine j).state = .opensbiInit ∧ rproc j)

theorem Restarts.refl (rproc : U54 → Prop) (s : State) : Restarts rproc s s :=
  ⟨fun _ => rfl, fun _ => .inl rfl⟩

theorem Restarts.of_eq {rproc : U54 → Prop} {u : State} (restarts : Restarts rproc s t)
    (same : u.machine = t.machine) : Restarts rproc s u :=
  ⟨fun j => by rw [same, restarts.prevState], fun j => by rw [same]; exact restarts.state j⟩

theorem Restarts.machine {rproc : U54 → Prop} (restarts : Restarts rproc s t) (i : U54) :
    Restarts rproc s (restartMachine i t) := by
  unfold restartMachine
  split
  · exact restarts
  · refine ⟨fun j => ?_, fun j => ?_⟩
    · by_cases h : j = i
      · rw [h]
        simp [restarts.prevState]
      · simp [Function.update_of_ne h, restarts.prevState]
    · by_cases h : j = i
      · rw [h]
        simp
      · simpa [Function.update_of_ne h] using restarts.state j

theorem Restarts.idle (done : bootIdleHandler cfg inputs i s = .ok t) :
    Restarts (RprocRequest cfg i s) s t := by
  refine bootIdleHandler_induction (P := Restarts (RprocRequest cfg i s) s) ?_ ?_ ?_ ?_ ?_ done
    (.refl _ _)
  · exact fun hart u restarts => restarts.machine hart
  · exact fun u restarts => restarts.of_eq rfl
  · exact fun j => (Restarts.refl _ s).of_eq rfl
  · intro _ hart request
    refine ⟨fun j => ?_, fun j => ?_⟩
    · by_cases h : j = hart
      · rw [h]
        simp [onIpi]
      · simp [onIpi, Function.update_of_ne h]
    · by_cases h : j = hart
      · rw [h]
        exact .inr (.inr ⟨by simp, request⟩)
      · simp [onIpi, Function.update_of_ne h]
  · exact fun j u restarts => restarts.of_eq rfl

theorem onEntry_machine {state : BootState}
    (done : runCallback (bootStateDescs cfg inputs i state).onEntry s = .ok t) :
    t.machine = s.machine := by
  cases state with
  | setupPmp => exact (registerHarts_eq_ok done).machine
  | zeroInitChunks =>
    rw [bootZeroInitChunksOnEntry_eq_ok done]
    rfl
  | downloadChunks => rcases bootDownloadChunksOnEntry_cases done with ⟨-, rfl⟩ | ⟨-, rfl⟩ <;> rfl
  | opensbiInit =>
    rw [bootOpensbiInitOnEntry_eq_ok done]
    split <;> rfl
  | _ =>
    cases done
    rfl

theorem onExit_machine {state : BootState}
    (done : runCallback (bootStateDescs cfg inputs i state).onExit s = .ok t) :
    t.machine = s.machine ∨ (state = .opensbiInit ∧ Moves i [.error] s t) := by
  rcases onExit_messages done with ⟨-, registers⟩ | ⟨exit, -, sent⟩ | rfl
  · exact .inl registers.machine
  · exact .inr ⟨exit, .delivery (by decide) sent⟩
  · exact .inl rfl

theorem start_machine (now : Word) (s : State) (i j : U54) :
    (((bootService i).start now s).machine j).state = (s.machine j).state ∧
      (((bootService i).start now s).machine j).prevState = (s.machine j).prevState := by
  unfold MachineOf.start
  split
  · by_cases h : j = i
    · rw [h]
      simp [bootService]
    · simp [bootService, Function.update_of_ne h]
  · exact ⟨rfl, rfl⟩

/-- Bringing a machine into its state marks the state as its last, unless the hart of a machine that
leaves `BOOT_OPENSBI_INIT` cannot be started. -/
structure EntersState (i : U54) (s a : State) : Prop where
  other : ∀ j ≠ i, a.machine j = s.machine j
  prevState : (a.machine i).prevState = some (a.machine i).state
  state : (a.machine i).state = (s.machine i).state ∨
    (s.machine i).prevState = some .opensbiInit ∧ (s.machine i).state ≠ .opensbiInit ∧
      (a.machine i).state = .error

theorem Entered.entersState {a : State} (entered : Entered cfg inputs i s a) :
    EntersState i s a := by
  have other : ∀ j ≠ i, ((bootService i).start inputs.lastEntry s).machine j = s.machine j := by
    intro j ne
    unfold MachineOf.start
    split
    · exact Function.update_of_ne ne ..
    · rfl
  obtain ⟨state, prevState⟩ := start_machine inputs.lastEntry s i i
  rcases entered.cases with ⟨stays, rfl⟩ | ⟨leaves, b, c, left, came, rfl⟩
  · exact ⟨other, by rw [prevState, state, stays], .inl state⟩
  · have same : c.machine = b.machine := onEntry_machine came
    have exited : b.machine = ((bootService i).start inputs.lastEntry s).machine ∨
        ((s.machine i).prevState = some .opensbiInit ∧
          Moves i [.error] ((bootService i).start inputs.lastEntry s) b) := by
      cases prev : (s.machine i).prevState with
      | none =>
        rw [prev] at left
        cases left
        exact .inl rfl
      | some last =>
        rw [prev] at left
        rcases onExit_machine left with unchanged | ⟨rfl, moves⟩
        · exact .inl unchanged
        · exact .inr ⟨rfl, moves⟩
    refine ⟨fun j ne => ?_, by simp, ?_⟩
    · change Function.update c.machine i _ j = _
      rw [Function.update_of_ne ne, same]
      rcases exited with unchanged | ⟨-, moves⟩
      · rw [unchanged, other j ne]
      · rw [moves.other j ne, other j ne]
    · simp only [State.setMachine_machine, Function.update_self]
      rw [same]
      rcases exited with unchanged | ⟨prev, moves⟩
      · rw [unchanged]
        exact .inl state
      · rcases moves.state with unchanged | failed
        · exact .inl (unchanged.trans state)
        · refine .inr ⟨prev, fun same => leaves ?_, by simpa using failed⟩
          rw [prev, same]

theorem runBootService_moves (busy : (s.machine i).state ≠ .idle)
    (done : runBootService cfg inputs i s = .ok t) :
    ∃ a, EntersState i s a ∧ Moves i (s.machine i).state.next a t := by
  obtain ⟨a, b, entered, handled, rfl⟩ := runBootService_cases done
  have moves := Moves.handler busy handled
  refine ⟨a, entered.entersState, fun j ne => ?_, ?_, ?_⟩
  · rw [State.setMachine_machine, Function.update_of_ne ne, moves.other j ne]
  · rw [State.setMachine_machine, Function.update_self, moves.prevState]
  · rw [State.setMachine_machine, Function.update_self]
    exact moves.state

theorem bootNext_restarts (other : ∀ i inputs, event ≠ .run i inputs)
    (next : bootNext cfg registry s event = .ok t) : Restarts (fun _ => False) s t := by
  have machine : ∀ hart u, Restarts (fun _ => False) s u →
      Restarts (fun _ => False) s (restartMachine hart u) := fun hart u restarts =>
    restarts.machine hart
  have notify : ∀ u, Restarts (fun _ => False) s u →
      Restarts (fun _ => False) s (u.notify .postBoot) := fun u restarts => restarts.of_eq rfl
  cases event with
  | run i inputs => exact absurd rfl (other i inputs)
  | restartCore source =>
    simp only [bootNext, bind_eq_ok] at next
    obtain ⟨⟨u, result⟩, restarted, next⟩ := next
    cases next
    exact hssBootRestartCore_induction machine notify restarted (.refl _ s)
  | restartCores mask =>
    cases next
    exact hssBootRestartCoresUsingBitmask_induction machine notify mask (.refl _ s)
  | bus call =>
    simp only [bootNext, bind_eq_ok] at next
    obtain ⟨d, -, next⟩ := next
    cases next
    exact (Restarts.refl _ s).of_eq rfl
  | _ =>
    cases next
    exact (Restarts.refl _ s).of_eq rfl

end Hss
