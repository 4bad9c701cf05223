import Hss.Boot.Acks
import Hss.Boot.Memory

/-! When the boot machines leave the states that wait: how often a machine is run in the state in which
it starts its harts, and what the timeouts of the other states come to. -/

namespace Hss

open Runs

variable {cfg : Config} {inputs : Inputs} {registry : HartId → IpiRegistry cfg IpiData}
  {i j peer : U54} {cell : MsgCell} {event : BootEvent} {events : List BootEvent} {s t u : State}

/-! ### What the other machines leave alone -/

/-- The last state, the start time and the data of the machine of `i` are the same. -/
structure Untouched (i : U54) (s t : State) : Prop where
  prevState : (t.machine i).prevState = (s.machine i).prevState
  startTime : (t.machine i).startTime = (s.machine i).startTime
  localData : t.localData i = s.localData i

theorem Untouched.refl (i : U54) (s : State) : Untouched i s s := ⟨rfl, rfl, rfl⟩

theorem Untouched.trans (h : Untouched i s t) (h' : Untouched i t u) : Untouched i s u :=
  ⟨h'.prevState.trans h.prevState, h'.startTime.trans h.startTime, h'.localData.trans h.localData⟩

theorem Untouched.of_eq (machine : t.machine = s.machine) (localData : t.localData = s.localData) :
    Untouched i s t :=
  ⟨by rw [machine], by rw [machine], by rw [localData]⟩

theorem Untouched.goto (state : BootState) : Untouched i s (s.goto j state) := by
  by_cases h : i = j
  · subst h
    exact ⟨by simp, by simp, rfl⟩
  · exact ⟨by simp [Function.update_of_ne h], by simp [Function.update_of_ne h], rfl⟩

theorem Untouched.restartMachine (s : State) : Untouched i s (restartMachine j s) := by
  unfold Hss.restartMachine
  split
  · exact .refl i s
  · exact (Untouched.goto _).trans (.of_eq rfl rfl)

theorem Untouched.idle (done : bootIdleHandler cfg inputs j s = .ok t) : Untouched i s t := by
  refine bootIdleHandler_induction (P := Untouched i s) ?_ ?_ ?_ ?_ ?_ done (.refl i s)
  · exact fun hart u same => same.trans (.restartMachine u)
  · exact fun u same => same.trans (.of_eq rfl rfl)
  · exact fun _ => .of_eq rfl rfl
  · exact fun k hart _ => Untouched.trans (t := onIpi (takeIntent (.u54 j) .e51 k) s)
      (.of_eq rfl rfl) (.goto .opensbiInit)
  · exact fun _ u same => same.trans (.of_eq rfl rfl)

/-! The machine of `j` writes its own data only. -/

section
variable (other : i ≠ j)
include other

theorem setLocal_other (s : State) (l : LocalData) : (s.setLocal j l).localData i = s.localData i :=
  Function.update_of_ne other ..

theorem freeCell_localData (done : freeCell cfg j cell s = .ok t) :
    t.localData i = s.localData i := by
  rcases freeCell_cases done with ⟨-, rfl⟩ | ⟨-, d, -, rfl⟩
  · rfl
  · exact setLocal_other other ..

theorem freeAll_localData (done : freeAll cfg j s = .ok t) : t.localData i = s.localData i :=
  freeAll_induction (P := fun u => u.localData i = s.localData i)
    (fun _ _ _ same freed => (freeCell_localData other freed).trans same) done rfl

theorem checkForIpiAcks_localData {result : Bool}
    (done : checkForIpiAcks cfg j s = .ok (t, result)) : t.localData i = s.localData i :=
  checkForIpiAcks_induction (P := fun u => u.localData i = s.localData i)
    (fun _ _ _ same freed => (freeCell_localData other freed).trans same) done rfl

theorem delivery_localData (done : commonBootMessageDelivery cfg inputs j peer s = .ok t) :
    t.localData i = s.localData i := by
  obtain ⟨index, d, e, sent, -, -, rfl⟩ := commonBootMessageDelivery_cases done
  cases sent <;> exact setLocal_other other ..

theorem Registers.localData (registers : Registers cfg j s t) : t.localData i = s.localData i := by
  obtain ⟨l, ledger, ids, rfl, -⟩ := registers
  exact Function.update_of_ne other ..

theorem handler_localData {state : BootState} (busy : state ≠ .idle)
    (done : (bootStateDescs cfg inputs j state).handler s = .ok t) :
    t.localData i = s.localData i := by
  cases state with
  | initialization => rcases bootInitHandler_cases done with rfl | rfl | rfl <;> rfl
  | setupPmp =>
    rcases bootSetupPmpHandler_cases done with ⟨-, rfl⟩ | ⟨-, u, result, request, rfl⟩
    · rfl
    · obtain ⟨index, d, e, -, -, f, -, rfl⟩ := hssBootPmpSetupRequest_cases request
      cases result <;> exact setLocal_other other ..
  | setupPmpComplete =>
    rcases bootSetupPmpCompleteHandler_cases done with ⟨u, freed, rfl⟩ | ⟨u, result, checked, rfl⟩
    · exact (freeAll_localData other freed :)
    · have same := checkForIpiAcks_localData other checked
      cases result <;> exact same
  | zeroInitChunks =>
    rcases bootZeroInitChunksHandler_cases done with ⟨-, rfl⟩ | ⟨-, -, rfl⟩ | ⟨-, -, rfl⟩ |
      ⟨-, -, rfl⟩
    · rfl
    · exact setLocal_other other ..
    · rfl
    · exact setLocal_other other ..
  | downloadChunks =>
    rcases bootDownloadChunksHandler_cases done with ⟨-, rfl⟩ | ⟨-, -, rfl⟩ | ⟨-, -, rfl⟩ |
      ⟨-, -, -, rfl⟩ | ⟨-, -, -, -, rfl⟩
    · rfl
    · rfl
    · rfl
    · exact setLocal_other other ..
    · refine (setLocal_other other ..).trans ?_
      unfold noteAncilliaryData
      split
      · exact setLocal_other other ..
      · rfl
  | opensbiInit =>
    rcases bootOpensbiInitHandler_cases done with ⟨-, rfl⟩ | ⟨-, -, rfl⟩ | ⟨-, peer, u, -, sent, rfl⟩
    · rfl
    · rfl
    · refine (setLocal_other other ..).trans ?_
      unfold runIf at sent
      split at sent
      · exact delivery_localData other sent
      · cases sent
        rfl
  | wait =>
    rcases bootWaitHandler_cases done with ⟨-, rfl⟩ | ⟨-, v, freed, rfl⟩ |
      ⟨-, v, result, checked, ⟨-, rfl⟩ | ⟨-, status, rfl⟩⟩
    · rfl
    · exact (freeAll_localData other freed :)
    · exact (checkForIpiAcks_localData other checked :)
    · exact (checkForIpiAcks_localData other checked :)
  | complete => rcases bootCompleteHandler_cases done with rfl | rfl <;> rfl
  | idle => exact absurd rfl busy
  | error =>
    cases done
    rfl

theorem onEntry_localData {state : BootState}
    (done : runCallback (bootStateDescs cfg inputs j state).onEntry s = .ok t) :
    t.localData i = s.localData i := by
  cases state with
  | setupPmp => exact (registerHarts_eq_ok done).localData other
  | zeroInitChunks =>
    rw [bootZeroInitChunksOnEntry_eq_ok done]
    exact setLocal_other other ..
  | downloadChunks =>
    rcases bootDownloadChunksOnEntry_cases done with ⟨-, rfl⟩ | ⟨-, rfl⟩
    · rfl
    · exact setLocal_other other ..
  | opensbiInit =>
    rw [bootOpensbiInitOnEntry_eq_ok done]
    split
    · exact setLocal_other other ..
    · rfl
  | _ =>
    cases done
    rfl

theorem onExit_localData {state : BootState}
    (done : runCallback (bootStateDescs cfg inputs j state).onExit s = .ok t) :
    t.localData i = s.localData i := by
  rcases onExit_messages done with ⟨-, registers⟩ | ⟨-, -, sent⟩ | rfl
  · exact registers.localData other
  · exact delivery_localData other sent
  · rfl

theorem Untouched.entered {a : State} (entered : Entered cfg inputs j s a) : Untouched i s a := by
  have machine : a.machine i = s.machine i := entered.entersState.other i other
  have data : a.localData i = s.localData i :=
    entered.induction (P := fun u => u.localData i = s.localData i) (fun _ _ same => same)
      (fun _ _ _ same done => (onExit_localData other done).trans same)
      (fun _ _ _ same done => (onEntry_localData other done).trans same) rfl
  exact ⟨by rw [machine], by rw [machine], data⟩

theorem Untouched.run (done : runBootService cfg inputs j s = .ok t) : Untouched i s t := by
  obtain ⟨a, b, entered, handled, rfl⟩ := runBootService_cases done
  have counted : Untouched i b (b.setMachine j
      { b.machine j with executionCount := (b.machine j).executionCount + 1 }) :=
    ⟨by simp [Function.update_of_ne other], by simp [Function.update_of_ne other], rfl⟩
  refine (Untouched.entered other entered).trans (Untouched.trans ?_ counted)
  by_cases idle : (s.machine j).state = .idle
  · rw [idle] at handled
    exact .idle handled
  · have machine : b.machine i = a.machine i := (Moves.handler idle handled).other i other
    exact ⟨by rw [machine], by rw [machine], handler_localData other idle handled⟩

end

theorem Untouched.next (other : ∀ inputs, event ≠ .run i inputs)
    (next : bootNext cfg registry s event = .ok t) : Untouched i s t := by
  have machine : ∀ hart u, Untouched i s u → Untouched i s (Hss.restartMachine hart u) :=
    fun hart u same => same.trans (.restartMachine u)
  have notify : ∀ u, Untouched i s u → Untouched i s (u.notify .postBoot) :=
    fun u same => same.trans (.of_eq rfl rfl)
  cases event with
  | run j inputs =>
    refine .run (fun same => other inputs ?_) next
    rw [same]
  | restartCore source =>
    simp only [bootNext, bind_eq_ok] at next
    obtain ⟨⟨u, result⟩, restarted, next⟩ := next
    cases next
    exact hssBootRestartCore_induction machine notify restarted (.refl i s)
  | restartCores mask =>
    cases next
    exact hssBootRestartCoresUsingBitmask_induction machine notify mask (.refl i s)
  | bus call =>
    simp only [bootNext, bind_eq_ok] at next
    obtain ⟨d, -, next⟩ := next
    cases next
    exact .of_eq rfl rfl
  | _ =>
    cases next
    exact .of_eq rfl rfl

/-! ### Start times -/

theorem delivery_startTime (done : commonBootMessageDelivery cfg inputs i peer s = .ok t) :
    (t.machine j).startTime = (s.machine j).startTime := by
  obtain ⟨index, d, e, sent, -, -, rfl⟩ := commonBootMessageDelivery_cases done
  cases sent with
  | true => rfl
  | false => exact (Untouched.goto .error).startTime

/-- A machine that is brought into its state has a start time: the time, if it had none. -/
theorem Entered.startTime {a : State} (entered : Entered cfg inputs i s a) :
    (a.machine i).startTime =
      if (s.machine i).startTime = 0 then inputs.lastEntry else (s.machine i).startTime := by
  have started : (((bootService i).start inputs.lastEntry s).machine i).startTime =
      if (s.machine i).startTime = 0 then inputs.lastEntry else (s.machine i).startTime := by
    unfold MachineOf.start
    by_cases unset : (s.machine i).startTime = 0
    · rw [if_pos (show ((bootService i).get s).startTime = 0 from unset), if_pos unset]
      simp [bootService]
    · rw [if_neg (show ¬ ((bootService i).get s).startTime = 0 from unset), if_neg unset]
  rw [← started]
  rcases entered.cases with ⟨-, rfl⟩ | ⟨-, b, c, left, came, rfl⟩
  · rfl
  · rw [State.setMachine_machine, Function.update_self, onEntry_machine came]
    cases prev : (s.machine i).prevState with
    | none =>
      rw [prev] at left
      cases left
      rfl
    | some last =>
      rw [prev] at left
      rcases onExit_messages left with ⟨-, registers⟩ | ⟨-, -, sent⟩ | rfl
      · rw [registers.machine]
      · exact delivery_startTime sent
      · rfl

theorem bootSetupPmpCompleteHandler_startTime
    (done : bootSetupPmpCompleteHandler cfg inputs i s = .ok t) :
    (t.machine i).startTime = (s.machine i).startTime := by
  rcases bootSetupPmpCompleteHandler_cases done with ⟨u, freed, rfl⟩ | ⟨u, result, checked, rfl⟩
  · rw [(Untouched.goto .error).startTime, freeAll_machine freed]
  · have same := congrArg (fun m => (m i).startTime) (checkForIpiAcks_machine checked)
    cases result with
    | true => exact (Untouched.goto _).startTime.trans same
    | false => exact same

theorem handler_startTime {state : BootState}
    (done : (bootStateDescs cfg inputs i state).handler s = .ok t) :
    (t.machine i).startTime = (s.machine i).startTime ∨ (t.machine i).startTime = inputs.time := by
  have kept {u v : State} {state : BootState} (same : u.machine = v.machine) :
      ((u.goto i state).machine i).startTime = (v.machine i).startTime := by
    rw [(Untouched.goto state).startTime, same]
  cases state with
  | initialization =>
    rcases bootInitHandler_cases done with rfl | rfl | rfl
    · exact .inl rfl
    · exact .inr (by simp)
    · exact .inl (kept rfl)
  | setupPmp =>
    rcases bootSetupPmpHandler_cases done with ⟨-, rfl⟩ | ⟨-, u, result, request, rfl⟩
    · exact .inl (kept rfl)
    · obtain ⟨index, d, e, -, -, f, -, rfl⟩ := hssBootPmpSetupRequest_cases request
      cases result with
      | true => exact .inl (kept rfl)
      | false => exact .inl rfl
  | setupPmpComplete => exact .inl (bootSetupPmpCompleteHandler_startTime done)
  | zeroInitChunks =>
    rcases bootZeroInitChunksHandler_cases done with ⟨-, rfl⟩ | ⟨-, -, rfl⟩ | ⟨-, -, rfl⟩ |
      ⟨-, -, rfl⟩
    · exact .inl (kept rfl)
    · exact .inl rfl
    · exact .inl rfl
    · exact .inl rfl
  | downloadChunks =>
    rcases bootDownloadChunksHandler_cases done with ⟨-, rfl⟩ | ⟨-, -, rfl⟩ | ⟨-, -, rfl⟩ |
      ⟨-, -, -, rfl⟩ | ⟨-, -, -, -, rfl⟩
    · exact .inl (kept rfl)
    · exact .inl (kept rfl)
    · exact .inl (kept rfl)
    · exact .inl rfl
    · refine .inl ?_
      simp only [nextSlice, State.setWalk, State.setLocal_machine, noteAncilliaryData]
      split <;> rfl
  | opensbiInit =>
    rcases bootOpensbiInitHandler_cases done with ⟨-, rfl⟩ | ⟨-, -, rfl⟩ | ⟨-, peer, u, -, sent, rfl⟩
    · exact .inl rfl
    · exact .inl (kept rfl)
    · refine .inl (?_ : (u.machine i).startTime = _)
      unfold runIf at sent
      split at sent
      · exact delivery_startTime sent
      · cases sent
        rfl
  | wait =>
    have set {u : State} {state : BootState} (same : u.machine =
        (s.setMachine i { s.machine i with startTime := inputs.time }).machine) :
        ((u.goto i state).machine i).startTime = inputs.time := by
      rw [kept same]
      simp
    rcases bootWaitHandler_cases done with ⟨-, rfl⟩ | ⟨-, v, freed, rfl⟩ |
      ⟨-, v, result, checked, ⟨-, rfl⟩ | ⟨-, status, rfl⟩⟩
    · exact .inr (set rfl)
    · exact .inr (set (freeAll_machine freed))
    · exact .inr (by rw [checkForIpiAcks_machine checked]; simp)
    · exact .inr (set (show v.machine = _ from checkForIpiAcks_machine checked))
  | complete =>
    rcases bootCompleteHandler_cases done with rfl | rfl
    · exact .inl rfl
    · exact .inl (kept rfl)
  | idle => exact .inl (Untouched.idle done).startTime
  | error =>
    cases done
    exact .inl (kept rfl)

/-- The readings of the clock in an event, in their order. -/
def BootEvent.readings : BootEvent → List Word
  | .run _ inputs => [inputs.lastEntry, inputs.time, inputs.laterTime]
  | _ => []

theorem next_startTime (next : bootNext cfg registry s event = .ok t) :
    (t.machine i).startTime = (s.machine i).startTime ∨ (t.machine i).startTime ∈ event.readings := by
  by_cases own : ∃ inputs, event = .run i inputs
  · obtain ⟨inputs, rfl⟩ := own
    obtain ⟨a, b, entered, handled, rfl⟩ := runBootService_cases next
    rw [State.setMachine_machine, Function.update_self]
    have started := entered.startTime
    rcases handler_startTime handled with same | set
    · rw [same, started]
      split
      · exact .inr (List.mem_cons_self ..)
      · exact .inl rfl
    · rw [set]
      exact .inr (List.mem_cons_of_mem _ (List.mem_cons_self ..))
  · exact .inl (Untouched.next (fun inputs same => own ⟨inputs, same⟩) next).startTime

/-- The start time of a machine is one at which the clock was read, if it is set. -/
theorem startTime_mem {mem : Mem} {pmpEntry : U54 → ℕ → PmpEntry} {bootInfo : Word}
    (run : Run (bootStep cfg registry) (powerOn cfg mem pmpEntry bootInfo) events s) :
    (s.machine i).startTime = 0 ∨ (s.machine i).startTime ∈ events.flatMap BootEvent.readings := by
  refine run.history (I := fun events s => (s.machine i).startTime = 0 ∨
    (s.machine i).startTime ∈ events.flatMap BootEvent.readings) (.inl rfl) ?_
  intro events s event t before next
  rw [List.flatMap_append, List.mem_append, List.flatMap_singleton]
  rcases next_startTime (i := i) next with same | set
  · rw [same]
    exact before.imp id .inl
  · exact .inr (.inr set)

/-! ### Starting the harts -/

/-- How often a machine that finds its hart with chunks and an entry point is run in
`BOOT_OPENSBI_INIT` until it leaves it. -/
def turnsLeft (i : U54) (s : State) : ℕ :=
  if (s.machine i).prevState = some .opensbiInit then
    bootMachine.length - (s.localData i).iterator + 1
  else bootMachine.length + 1

theorem turnsLeft_pos : 0 < turnsLeft i s := by
  unfold turnsLeft
  split <;> exact Nat.succ_pos _

theorem turnsLeft_le : turnsLeft i s ≤ 5 := by
  unfold turnsLeft
  split
  · exact Nat.succ_le_succ (Nat.sub_le ..)
  · exact Nat.le_refl 5

theorem turnsLeft_of_untouched (same : Untouched i s t) : turnsLeft i t = turnsLeft i s := by
  unfold turnsLeft
  rw [same.prevState, same.localData]

/-- A machine that is brought into `BOOT_OPENSBI_INIT` looks at the first peer next. -/
theorem Entered.turnsLeft_eq {a : State} (entered : Entered cfg inputs i s a)
    (state : (s.machine i).state = .opensbiInit) (primary : s.primaryBootHart i = true) :
    bootMachine.length - (a.localData i).iterator + 1 = turnsLeft i s := by
  unfold turnsLeft
  rcases entered.cases with ⟨stays, rfl⟩ | ⟨leaves, b, c, left, came, rfl⟩
  · rw [if_pos (stays.trans (congrArg some state))]
    unfold MachineOf.start
    split <;> rfl
  · rw [state] at came leaves
    rw [if_neg leaves]
    have image : b.entryPoint i ≠ 0 := by
      have same : SameImage s b := by
        have started : SameImage s ((bootService i).start inputs.lastEntry s) :=
          (SameTables.start inputs.lastEntry s i).toSameImage
        cases prev : (s.machine i).prevState with
        | none =>
          rw [prev] at left
          cases left
          exact started
        | some last =>
          rw [prev] at left
          exact started.trans (SameLoading.onExit left).toSameImage
      rw [same.entryPoint]
      simp only [State.primaryBootHart, Bool.and_eq_true, decide_eq_true_eq] at primary
      exact primary.2
    rw [bootOpensbiInitOnEntry_eq_ok came, if_pos image]
    simp

/-- A run of a machine that finds its hart with chunks and an entry point brings it closer to the end
of `BOOT_OPENSBI_INIT`. -/
theorem turnsLeft_lt (state : (s.machine i).state = .opensbiInit)
    (primary : s.primaryBootHart i = true) (done : runBootService cfg inputs i s = .ok t)
    (stays : (t.machine i).state = .opensbiInit) : turnsLeft i t < turnsLeft i s := by
  obtain ⟨a, b, entered, handled, rfl⟩ := runBootService_cases done
  rw [state] at handled
  have enters := entered.entersState
  have entersState : (a.machine i).state = .opensbiInit := by
    rcases enters.state with same | ⟨-, other, -⟩
    · exact same.trans state
    · exact absurd state other
  have prevState : (b.machine i).prevState = some .opensbiInit := by
    rw [(Moves.handler (by decide) handled).prevState, enters.prevState, entersState]
  rw [State.setMachine_machine, Function.update_self] at stays
  have before := entered.turnsLeft_eq state primary
  rcases bootOpensbiInitHandler_cases handled with ⟨other, -⟩ | ⟨-, -, rfl⟩ |
    ⟨-, peer, u, next, sent, rfl⟩
  · rw [entered.image.primaryBootHart, primary] at other
    cases other
  · simp at stays
  · have kept : (u.localData i).iterator = (a.localData i).iterator := by
      unfold runIf at sent
      split at sent
      · obtain ⟨index, d, e, result, -, -, rfl⟩ := commonBootMessageDelivery_cases sent
        cases result <;> simp [State.setIndex]
      · cases sent
        rfl
    have within : (a.localData i).iterator < bootMachine.length :=
      (List.getElem?_eq_some_iff.mp next).1
    have after : turnsLeft i (((u.setLocal i { u.localData i with
        iterator := (u.localData i).iterator + 1 })).setMachine i { u.machine i with
        executionCount := (u.machine i).executionCount + 1 }) =
        bootMachine.length - ((a.localData i).iterator + 1) + 1 := by
      unfold turnsLeft
      rw [if_pos (by simpa using prevState)]
      simp [kept]
    rw [← before]
    refine after.trans_lt ?_
    omega

/-- The event runs the machine of `i`. -/
def BootEvent.runs (i : U54) : BootEvent → Bool
  | .run hart _ => hart = i
  | _ => false

/-- The steps in which the machine of `i` stays in its state. -/
def Staying (cfg : Config) (registry : HartId → IpiRegistry cfg IpiData) (i : U54) (s : State)
    (event : BootEvent) (t : State) : Prop :=
  bootStep cfg registry s event t ∧ (t.machine i).state = (s.machine i).state

/-- A run of the machine of `i` finds its hart with chunks and an entry point. -/
def FindsPrimary (i : U54) (s : State) (event : BootEvent) : Prop :=
  event.runs i = true → s.primaryBootHart i = true

/-- As long as a machine that finds its hart with chunks and an entry point stays in
`BOOT_OPENSBI_INIT`, its runs are counted down. -/
theorem staying_turnsLeft (state : (s.machine i).state = .opensbiInit)
    (run : Run (Under (FindsPrimary i) (Staying cfg registry i)) s events u) :
    (u.machine i).state = .opensbiInit ∧
      events.countP (·.runs i) + turnsLeft i u ≤ turnsLeft i s := by
  refine run.history (I := fun events u => (u.machine i).state = .opensbiInit ∧
    events.countP (·.runs i) + turnsLeft i u ≤ turnsLeft i s) ⟨state, by simp⟩ ?_
  rintro events u event t ⟨before, count⟩ ⟨primary, next, stays⟩
  refine ⟨stays.trans before, ?_⟩
  rw [List.countP_append, List.countP_singleton]
  cases own : event.runs i with
  | true =>
    obtain ⟨inputs, rfl⟩ : ∃ inputs, event = .run i inputs := by
      cases event with
      | run hart inputs => exact ⟨inputs, by rw [of_decide_eq_true own]⟩
      | _ => cases own
    have less := turnsLeft_lt before (primary own) next (stays.trans before)
    rw [if_pos rfl]
    omega
  | false =>
    have same := Untouched.next (i := i) (fun inputs same => by
      rw [same] at own
      exact absurd own (by simp [BootEvent.runs])) next
    rw [turnsLeft_of_untouched same, if_neg (by decide)]
    exact count

/-- Only a machine that finds its hart with chunks and an entry point leaves `BOOT_OPENSBI_INIT`. -/
theorem primary_of_leaves (state : (s.machine i).state = .opensbiInit)
    (done : runBootService cfg inputs i s = .ok t) (leaves : (t.machine i).state ≠ .opensbiInit) :
    s.primaryBootHart i = true := by
  obtain ⟨a, b, entered, handled, rfl⟩ := runBootService_cases done
  rw [state] at handled
  rw [← entered.image.primaryBootHart]
  have same : (a.machine i).state = .opensbiInit := by
    rcases entered.entersState.state with same | ⟨-, other, -⟩
    · exact same.trans state
    · exact absurd state other
  rcases bootOpensbiInitHandler_cases handled with ⟨-, rfl⟩ | ⟨primary, -⟩ | ⟨primary, -⟩
  · rw [State.setMachine_machine, Function.update_self] at leaves
    exact absurd same leaves
  · exact primary
  · exact primary

/-- A machine that has been brought into `BOOT_OPENSBI_INIT`, but finds its hart without chunks or
without an entry point. -/
structure NeverStarts (i : U54) (s : State) : Prop where
  state : (s.machine i).state = .opensbiInit
  prevState : (s.machine i).prevState = some .opensbiInit
  image : s.pBootImage ≠ 0
  primary : s.primaryBootHart i = false

theorem NeverStarts.run (never : NeverStarts i s) (inputs : Inputs) :
    ∃ t, Staying cfg registry i s (.run i inputs) t ∧ NeverStarts i t := by
  let a := (bootService i).start inputs.lastEntry s
  have image : SameImage s a := (SameTables.start inputs.lastEntry s i).toSameImage
  have machine := start_machine inputs.lastEntry s i i
  have stays : (s.machine i).prevState = some (s.machine i).state := by
    rw [never.prevState, never.state]
  have primary : ¬ a.primaryBootHart i = true := by
    rw [image.primaryBootHart, never.primary]
    decide
  have handled : bootOpensbiInitHandler cfg inputs i a = .ok a := by
    have registered : a.pBootImage ≠ 0 := by
      rw [image.pBootImage]
      exact never.image
    unfold bootOpensbiInitHandler
    rw [assert_eq_ok (u := ()).mpr registered, ok_bind, if_neg primary]
    rfl
  have done : runBootService cfg inputs i s = .ok (a.setMachine i
      { a.machine i with executionCount := (a.machine i).executionCount + 1 }) := by
    rw [runBootService_eq, enter, if_pos stays, ok_bind, never.state]
    show bootOpensbiInitHandler cfg inputs i a >>= _ = _
    rw [handled, ok_bind]
  have state : ((a.setMachine i { a.machine i with
      executionCount := (a.machine i).executionCount + 1 }).machine i).state = .opensbiInit := by
    simpa using machine.1.trans never.state
  refine ⟨_, ⟨done, state.trans never.state.symm⟩, state, ?_, ?_, ?_⟩
  · simpa using machine.2.trans never.prevState
  · exact fun none => never.image (image.pBootImage.symm.trans none)
  · exact (image.primaryBootHart i).trans never.primary

theorem NeverStarts.runs (never : NeverStarts i s) (inputs : Inputs) (n : ℕ) :
    ∃ u, Run (Staying cfg registry i) s (List.replicate n (.run i inputs)) u ∧ NeverStarts i u := by
  induction n with
  | zero => exact ⟨s, .nil, never⟩
  | succ n ih =>
    obtain ⟨u, run, still⟩ := ih
    obtain ⟨t, step, after⟩ := still.run inputs
    rw [List.replicate_succ']
    exact ⟨t, run.snoc step, after⟩

/-! ### Timeouts -/

theorem hssTimerIsElapsed_of_le {now startTime entered duration : Word}
    (before : startTime ≤ entered) (overdue : entered.toNat + duration.toNat < now.toNat) :
    hssTimerIsElapsed now startTime duration = true := by
  have bound := now.isLt
  have order : startTime.toNat ≤ entered.toNat := BitVec.le_def.mp before
  unfold hssTimerIsElapsed
  rw [decide_eq_true_eq, BitVec.lt_def, BitVec.toNat_add, Nat.mod_eq_of_lt (by omega)]
  omega

theorem bootSetupPmpCompleteHandler_elapsed
    (done : bootSetupPmpCompleteHandler cfg inputs i s = .ok t)
    (elapsed : hssTimerIsElapsed inputs.time (s.machine i).startTime
      (bootSetupPmpCompleteTimeout cfg) = true) : (t.machine i).state = .error := by
  unfold bootSetupPmpCompleteHandler at done
  rw [if_pos elapsed] at done
  simp only [bind_eq_ok] at done
  obtain ⟨u, -, done⟩ := done
  cases done
  simp

/-- A run ends the wait of a machine without an entry point, that of one whose acknowledgements are
found, and any that takes itself longer than the timeout. -/
theorem bootWaitHandler_leaves_iff (inRange : InRange cfg s) (state : (s.machine i).state = .wait)
    (done : bootWaitHandler cfg inputs i s = .ok t) :
    (t.machine i).state ≠ .wait ↔ s.entryPoint i = 0 ∨
      hssTimerIsElapsed inputs.laterTime inputs.time (bootWaitTimeout cfg) = true ∨
      s.AcksFound cfg i := by
  let u := s.setMachine i { s.machine i with startTime := inputs.time }
  have start : (u.machine i).startTime = inputs.time := by simp [u]
  unfold bootWaitHandler at done
  dsimp only at done
  by_cases entry : s.entryPoint i = 0
  · rw [if_pos (show u.entryPoint i = 0 from entry)] at done
    cases done
    simp [entry]
  · rw [if_neg (show ¬ u.entryPoint i = 0 from entry), start] at done
    rw [or_iff_right entry]
    by_cases elapsed : hssTimerIsElapsed inputs.laterTime inputs.time (bootWaitTimeout cfg) = true
    · rw [if_pos elapsed] at done
      simp only [bind_eq_ok] at done
      obtain ⟨v, -, done⟩ := done
      cases done
      simp [elapsed]
    · have answer : (passAll cfg i u).2 = true ↔ s.AcksFound cfg i :=
        passAll_answer.trans (State.acksFound_congr rfl rfl)
      rw [if_neg elapsed, checkForIpiAcks_eq (show ∀ cell, u.index i cell ≤ _ from inRange i),
        ok_bind] at done
      rw [or_iff_right elapsed, ← answer]
      have machine := passAll_machine cfg i u
      cases yes : (passAll cfg i u).2 with
      | true =>
        simp only [yes, if_true] at done
        cases done
        simp
      | false =>
        simp only [yes, Bool.false_eq_true, if_false] at done
        cases done
        have same : ((passAll cfg i u).1.machine i).state = .wait := by
          rw [machine]
          simpa [u] using state
        simp [same]

/-- The clock does not go back in the course of the events. -/
def NonDecreasing (events : List BootEvent) : Prop :=
  (events.flatMap BootEvent.readings).Pairwise (· ≤ ·)

/-- The machine of `i` is brought into its state by a run from `s`, and is still in it in `u`. -/
structure Visit (cfg : Config) (registry : HartId → IpiRegistry cfg IpiData) (i : U54) (s : State)
    (entry : Inputs) (events : List BootEvent) (u : State) : Prop where
  enters : (s.machine i).prevState ≠ some (s.machine i).state
  stays : Run (Staying cfg registry i) s (.run i entry :: events) u

/-- The timeout `duration` of a state that was entered in the run `entry` has elapsed when the run
`late` begins. -/
def Overdue (duration : Word) (entry late : Inputs) : Prop :=
  entry.lastEntry.toNat + duration.toNat < late.lastEntry.toNat

/-- A machine that was run and stays in its state has been brought into it. -/
theorem prevState_of_stays (busy : (s.machine i).state ≠ .idle)
    (done : runBootService cfg inputs i s = .ok t)
    (stays : (t.machine i).state = (s.machine i).state) :
    (t.machine i).prevState = some (s.machine i).state := by
  obtain ⟨a, enters, moves⟩ := runBootService_moves busy done
  rw [moves.prevState, enters.prevState]
  rcases enters.state with same | ⟨-, -, failed⟩
  · rw [same]
  · -- the exit from the state before failed, from where the handler does not lead back
    rw [failed]
    rcases moves.state with same | next
    · rw [← stays, same, failed]
    · rw [stays] at next
      cases state : (s.machine i).state <;> rw [state] at next <;> revert next <;> decide

theorem Visit.state (visit : Visit cfg registry i s inputs events u) :
    (u.machine i).state = (s.machine i).state :=
  visit.stays.invariant (I := fun u => (u.machine i).state = (s.machine i).state) rfl
    fun _ _ _ before step => step.2.trans before

theorem Visit.prevState (visit : Visit cfg registry i s inputs events u)
    (busy : (s.machine i).state ≠ .idle) : (u.machine i).prevState = some (s.machine i).state := by
  obtain ⟨a, first, rest⟩ := visit.stays.uncons
  have kept : (u.machine i).state = (s.machine i).state ∧
      (u.machine i).prevState = some (s.machine i).state := by
    refine rest.invariant (I := fun u => (u.machine i).state = (s.machine i).state ∧
      (u.machine i).prevState = some (s.machine i).state)
      ⟨first.2, prevState_of_stays busy first.1 first.2⟩ ?_
    rintro v event w ⟨state, prevState⟩ ⟨next, stays⟩
    refine ⟨stays.trans state, ?_⟩
    by_cases own : ∃ inputs, event = .run i inputs
    · obtain ⟨inputs, rfl⟩ := own
      rw [prevState_of_stays (state ▸ busy) next stays, state]
    · rw [(Untouched.next (fun inputs same => own ⟨inputs, same⟩) next).prevState, prevState]
  exact kept.2

/-- The start time of a machine in `BOOT_SETUP_PMP_COMPLETE` stays as it was set at first. -/
theorem Visit.startTime (visit : Visit cfg registry i s inputs events u)
    (state : (s.machine i).state = .setupPmpComplete) {startTime : Word} (set : startTime ≠ 0)
    (first : (if (s.machine i).startTime = 0 then inputs.lastEntry else (s.machine i).startTime) =
      startTime) : (u.machine i).startTime = startTime := by
  have run {v w : State} {inputs : Inputs} (state : (v.machine i).state = .setupPmpComplete)
      (done : runBootService cfg inputs i v = .ok w) : (w.machine i).startTime =
        if (v.machine i).startTime = 0 then inputs.lastEntry else (v.machine i).startTime := by
    obtain ⟨a, b, entered, handled, rfl⟩ := runBootService_cases done
    rw [state] at handled
    rw [State.setMachine_machine, Function.update_self, ← entered.startTime]
    exact bootSetupPmpCompleteHandler_startTime handled
  obtain ⟨a, entering, rest⟩ := visit.stays.uncons
  have kept : (u.machine i).state = .setupPmpComplete ∧ (u.machine i).startTime = startTime := by
    refine rest.invariant (I := fun u => (u.machine i).state = .setupPmpComplete ∧
      (u.machine i).startTime = startTime)
      ⟨entering.2.trans state, (run state entering.1).trans first⟩ ?_
    rintro v event w ⟨state, same⟩ ⟨next, stays⟩
    refine ⟨stays.trans state, ?_⟩
    by_cases own : ∃ inputs, event = .run i inputs
    · obtain ⟨inputs, rfl⟩ := own
      rw [run state next, if_neg (same ▸ set), same]
    · rw [(Untouched.next (fun inputs same => own ⟨inputs, same⟩) next).startTime, same]
  exact kept.2

/-- A run of the machine of `i`, from `u` to `t`, in the visit to the state of `s`, after the timeout
`duration` of that state.  `before` are the events up to `s`. -/
structure LateRun (cfg : Config) (registry : HartId → IpiRegistry cfg IpiData) (i : U54)
    (duration : Word) (before : List BootEvent) (s : State) (entry : Inputs)
    (events : List BootEvent) (u : State) (late : Inputs) (t : State) : Prop where
  visit : Visit cfg registry i s entry events u
  clock : NonDecreasing (before ++ .run i entry :: events ++ [.run i late])
  overdue : Overdue duration entry late
  step : bootStep cfg registry u (.run i late) t

/-- When the machine of `i` leaves a state that it enters from `s`: how often it is run in
`BOOT_OPENSBI_INIT`, and what an overdue run does in the states with a timeout. -/
structure LeavesInTime (cfg : Config) (registry : HartId → IpiRegistry cfg IpiData) (i : U54)
    (before : List BootEvent) (s : State) : Prop where
  opensbiInit : (s.machine i).state = .opensbiInit → ∀ events u,
    Run (Under (FindsPrimary i) (Staying cfg registry i)) s events u →
      events.countP (·.runs i) < 5
  primary : (s.machine i).state = .opensbiInit → ∀ inputs t,
    bootStep cfg registry s (.run i inputs) t → (t.machine i).state ≠ .opensbiInit →
      s.primaryBootHart i = true
  setupPmpComplete : (s.machine i).state = .setupPmpComplete → ∀ entry events u late t,
    LateRun cfg registry i (bootSetupPmpCompleteTimeout cfg) before s entry events u late t →
      ((s.machine i).startTime ≠ 0 ∨ entry.lastEntry ≠ 0) →
        (t.machine i).state ≠ .setupPmpComplete
  wait : (s.machine i).state = .wait → ∀ entry events u late t,
    LateRun cfg registry i (bootWaitTimeout cfg) before s entry events u late t →
      ((t.machine i).state ≠ .wait ↔ u.entryPoint i = 0 ∨
        hssTimerIsElapsed late.laterTime late.time (bootWaitTimeout cfg) = true ∨
        u.AcksFound cfg i)

theorem NonDecreasing.le {before after : List BootEvent} {now now' : Word}
    (clock : NonDecreasing (before ++ after)) (early : now ∈ before.flatMap BootEvent.readings)
    (late : now' ∈ after.flatMap BootEvent.readings) : now ≤ now' := by
  unfold NonDecreasing at clock
  rw [List.flatMap_append] at clock
  exact (List.pairwise_append.mp clock).2.2 now early now' late

section
variable {mem : Mem} {pmpEntry : U54 → ℕ → PmpEntry} {bootInfo : Word} {before : List BootEvent}
  {entry late : Inputs}

/-- The timeout of `BOOT_SETUP_PMP_COMPLETE` counts from a time that is not later than the entry. -/
theorem LateRun.setupPmpComplete
    (reached : Run (bootStep cfg registry) (powerOn cfg mem pmpEntry bootInfo) before s)
    (state : (s.machine i).state = .setupPmpComplete)
    (run : LateRun cfg registry i (bootSetupPmpCompleteTimeout cfg) before s entry events u late t)
    (set : (s.machine i).startTime ≠ 0 ∨ entry.lastEntry ≠ 0) :
    (t.machine i).state ≠ .setupPmpComplete := by
  generalize first : (if (s.machine i).startTime = 0 then entry.lastEntry
    else (s.machine i).startTime) = startTime
  have early : startTime ≠ 0 ∧ startTime ≤ entry.lastEntry := by
    have clock := run.clock
    rw [List.append_assoc] at clock
    by_cases unset : (s.machine i).startTime = 0
    · rw [if_pos unset] at first
      rw [← first]
      exact ⟨set.resolve_left (not_not.mpr unset), BitVec.le_refl _⟩
    · rw [if_neg unset] at first
      rw [← first]
      refine ⟨unset, clock.le ((startTime_mem reached).resolve_left unset) ?_⟩
      simp [BootEvent.readings]
  have startTime' := run.visit.startTime state early.1 first
  have prevState := run.visit.prevState (by rw [state]; decide)
  have same := run.visit.state
  obtain ⟨a, b, entered, handled, rfl⟩ := runBootService_cases run.step
  rw [same, state] at handled
  have start : (a.machine i).startTime = startTime := by
    rw [entered.startTime, startTime', if_neg early.1]
  have time : late.lastEntry ≤ late.time := by
    have clock := run.clock
    unfold NonDecreasing at clock
    rw [List.flatMap_append, List.pairwise_append, List.flatMap_singleton] at clock
    exact (List.pairwise_cons.mp clock.2.1).1 _ (List.mem_cons_self ..)
  have elapsed : hssTimerIsElapsed late.time (a.machine i).startTime
      (bootSetupPmpCompleteTimeout cfg) = true := by
    rw [start]
    exact hssTimerIsElapsed_of_le early.2 (run.overdue.trans_le (BitVec.le_def.mp time))
  rw [State.setMachine_machine, Function.update_self]
  show (b.machine i).state ≠ _
  rw [bootSetupPmpCompleteHandler_elapsed handled elapsed]
  decide

/-- An overdue run ends the wait no sooner than one that is not. -/
theorem LateRun.wait
    (reached : Run (bootStep cfg registry) (powerOn cfg mem pmpEntry bootInfo) before s)
    (state : (s.machine i).state = .wait)
    (run : LateRun cfg registry i (bootWaitTimeout cfg) before s entry events u late t) :
    (t.machine i).state ≠ .wait ↔ u.entryPoint i = 0 ∨
      hssTimerIsElapsed late.laterTime late.time (bootWaitTimeout cfg) = true ∨
      u.AcksFound cfg i := by
  have inRange : InRange cfg u :=
    InRange.run (reached.trans (run.visit.stays.mono fun _ _ _ step => step.1))
  have prevState := run.visit.prevState (by rw [state]; decide)
  have same := run.visit.state
  obtain ⟨a, b, entered, handled, rfl⟩ := runBootService_cases run.step
  rw [same, state] at handled
  rw [State.setMachine_machine, Function.update_self]
  show (b.machine i).state ≠ .wait ↔ _
  obtain ⟨-, rfl⟩ | ⟨leaves, -⟩ := entered.cases
  · have image : SameImage u _ := entered.image
    have unchanged : ((bootService i).start late.lastEntry u).index = u.index ∧
        ((bootService i).start late.lastEntry u).ipiData = u.ipiData := by
      unfold MachineOf.start
      split <;> exact ⟨rfl, rfl⟩
    have waits : (((bootService i).start late.lastEntry u).machine i).state = .wait :=
      (start_machine ..).1.trans (same.trans state)
    rw [bootWaitHandler_leaves_iff (inRange.of_eq unchanged.1) waits handled, image.entryPoint,
      State.acksFound_congr unchanged.1 unchanged.2]
  · rw [prevState, same] at leaves
    exact absurd rfl leaves

/-- In every run of the system, whatever the image, the clock and the acknowledgements are: a machine
whose hart has chunks and an entry point is run in `BOOT_OPENSBI_INIT` five times at most, and one
whose hart has not stays there; a machine leaves `BOOT_SETUP_PMP_COMPLETE` when its timeout has elapsed,
unless the clock was zero all the time before; and a machine leaves `BOOT_WAIT` only for other
reasons. -/
theorem bootMachine_leavesInTime
    (reached : Run (bootStep cfg registry) (powerOn cfg mem pmpEntry bootInfo) before s) :
    LeavesInTime cfg registry i before s where
  opensbiInit state events u run := by
    have count := (staying_turnsLeft state run).2
    have left : 0 < turnsLeft i u := turnsLeft_pos
    have few : turnsLeft i s ≤ 5 := turnsLeft_le
    omega
  primary state inputs t step leaves := primary_of_leaves state step leaves
  setupPmpComplete state entry events u late t run set := run.setupPmpComplete reached state set
  wait state entry events u late t run := run.wait reached state

end

/-! ### Three machines -/

/-- The clock a second later than in `tick`, and six seconds later. -/
def afterOneSec : Inputs := ⟨1000002, 1000002, 1000002, fun _ => true⟩
def afterSixSecs : Inputs := ⟨6000001, 6000001, 6000001, fun _ => true⟩

/-- From `s` the machine of hart 1 is brought into its state, and is run again later. -/
def entersAndRuns (late : Inputs) (s : State) : Option (State × State) := do
  let u ← (bootNext .icicleKitEs (fun _ => .bare ..) s (.run .u54_1 tick)).toOption
  let t ← (bootNext .icicleKitEs (fun _ => .bare ..) u (.run .u54_1 late)).toOption
  return (u, t)

theorem entersAndRuns_late (duration : Word) (before : List BootEvent) (late : Inputs)
    {state : BootState} {Q : State → Prop} [DecidablePred Q]
    (enters : (s.machine .u54_1).state = state ∧ (s.machine .u54_1).prevState ≠ some state)
    (computed : (entersAndRuns late s).any (fun p =>
      (p.1.machine .u54_1).state = state ∧ Q p.2) = true)
    (clock : NonDecreasing (before ++ .run .u54_1 tick :: [] ++ [.run .u54_1 late]))
    (overdue : Overdue duration tick late) :
    ∃ u t, LateRun .icicleKitEs (fun _ => .bare ..) .u54_1 duration before s tick [] u late t ∧ Q t := by
  obtain ⟨⟨u, t⟩, runs, holds⟩ := (Option.any_eq_true ..).mp computed
  simp only [entersAndRuns, Option.bind_eq_bind, Option.bind_eq_some_iff, Option.pure_def,
    Option.some.injEq, Prod.mk.injEq] at runs
  obtain ⟨u, first, t, second, rfl, rfl⟩ := runs
  obtain ⟨stays, after⟩ := of_decide_eq_true holds
  refine ⟨u, t, ⟨⟨by rw [enters.1]; exact enters.2, ?_⟩, clock, overdue, ?_⟩, after⟩
  · exact .single ⟨ok_of_toOption first, stays.trans enters.1.symm⟩
  · exact ok_of_toOption second

/-- No acknowledgement comes, and the first machine leaves `BOOT_SETUP_PMP_COMPLETE`. -/
theorem setupPmpComplete_leavesInTime : ∃ s u t,
    Run (bootStep .icicleKitEs fun _ => .bare ..) threeHartsPowerOn
      (threeHartsEvents ++ [.run .u54_1 tick, .run .u54_1 tick]) s ∧
    LateRun .icicleKitEs (fun _ => .bare ..) .u54_1 (bootSetupPmpCompleteTimeout .icicleKitEs)
      (threeHartsEvents ++ [.run .u54_1 tick, .run .u54_1 tick]) s tick [] u afterOneSec t ∧
    (t.machine .u54_1).state ≠ .setupPmpComplete := by
  obtain ⟨s, run, state, prevState, set, computed⟩ := exists_run
    (bootNext .icicleKitEs fun _ => .bare ..) threeHartsStart [.run .u54_1 tick, .run .u54_1 tick]
    (P := fun s => (s.machine .u54_1).state = .setupPmpComplete ∧
      (s.machine .u54_1).prevState ≠ some .setupPmpComplete ∧ (s.machine .u54_1).startTime ≠ 0 ∧
      (entersAndRuns afterOneSec s).any (fun p =>
        (p.1.machine .u54_1).state = .setupPmpComplete ∧ True) = true)
    (by decide +kernel)
  have reached := threeHartsStart_run.trans run
  obtain ⟨u, t, late, -⟩ := entersAndRuns_late (Q := fun _ => True)
    (bootSetupPmpCompleteTimeout .icicleKitEs)
    (threeHartsEvents ++ [.run .u54_1 tick, .run .u54_1 tick]) afterOneSec ⟨state, prevState⟩ computed
    (by unfold NonDecreasing; decide) (by unfold Overdue; decide)
  exact ⟨s, u, t, reached, late, (bootMachine_leavesInTime reached).setupPmpComplete state _ _ _ _ _ late
    (.inl set)⟩

/-- The events up to the wait of the first machine, of which only the memory protection message is
acknowledged. -/
def waitEvents : List BootEvent :=
  threeHartsEvents ++ (setupPmpEvents .u54_1 ++ List.replicate 9 (.run .u54_1 tick))

/-- The events up to `BOOT_OPENSBI_INIT` of the first machine, after its entry point is overwritten. -/
def overwrittenEvents : List BootEvent :=
  threeHartsEvents ++ (.store 0x102B 0 :: setupPmpEvents .u54_1 ++ List.replicate 5 (.run .u54_1 tick))

/-- No acknowledgement comes, and the first machine waits on after six seconds; and without an entry
point it never leaves `BOOT_OPENSBI_INIT`. -/
theorem bootMachine_stays :
    (∃ s u t, Run (bootStep .icicleKitEs fun _ => .bare ..) threeHartsPowerOn waitEvents s ∧
      (s.machine .u54_1).state = .wait ∧
      LateRun .icicleKitEs (fun _ => .bare ..) .u54_1 (bootWaitTimeout .icicleKitEs) waitEvents s
        tick [] u afterSixSecs t ∧
      (t.machine .u54_1).state = .wait) ∧
    ∃ s, Run (bootStep .icicleKitEs fun _ => .bare ..) threeHartsPowerOn overwrittenEvents s ∧
      (s.machine .u54_1).state = .opensbiInit ∧
      ∀ n, ∃ u, Run (Staying .icicleKitEs (fun _ => .bare ..) .u54_1) s
        (List.replicate n (.run .u54_1 tick)) u := by
  constructor
  · obtain ⟨s, run, state, prevState, computed⟩ := exists_run
      (bootNext .icicleKitEs fun _ => .bare ..) threeHartsStart
      (setupPmpEvents .u54_1 ++ List.replicate 9 (.run .u54_1 tick))
      (P := fun s => (s.machine .u54_1).state = .wait ∧
        (s.machine .u54_1).prevState ≠ some .wait ∧
        (entersAndRuns afterSixSecs s).any (fun p =>
          (p.1.machine .u54_1).state = .wait ∧ (p.2.machine .u54_1).state = .wait) = true)
      (by decide +kernel)
    obtain ⟨u, t, late, waits⟩ := entersAndRuns_late
      (Q := fun t => (t.machine .u54_1).state = .wait) (bootWaitTimeout .icicleKitEs) waitEvents
      afterSixSecs ⟨state, prevState⟩ computed (by unfold NonDecreasing; decide)
      (by unfold Overdue; decide)
    exact ⟨s, u, t, threeHartsStart_run.trans run, state, late, waits⟩
  · obtain ⟨s, run, state, prevState, image, primary⟩ := exists_run
      (bootNext .icicleKitEs fun _ => .bare ..) threeHartsStart
      (.store 0x102B 0 :: setupPmpEvents .u54_1 ++ List.replicate 5 (.run .u54_1 tick))
      (P := fun s => (s.machine .u54_1).state = .opensbiInit ∧
        (s.machine .u54_1).prevState = some .opensbiInit ∧ s.pBootImage ≠ 0 ∧
        s.primaryBootHart .u54_1 = false)
      (by decide +kernel)
    refine ⟨s, threeHartsStart_run.trans run, state, fun n => ?_⟩
    obtain ⟨u, stays, -⟩ := (NeverStarts.mk state prevState image primary).runs tick n
    exact ⟨u, stays⟩

end Hss
