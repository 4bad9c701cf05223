import Hss.Boot.Control

/-! When the end of the boot is announced: the completion flags of the machines, which outlive a
restart, against the machines that have come to `BOOT_COMPLETE` since the last one. -/

namespace Hss

open Runs

def BootRecord.isRestart : BootRecord → Bool
  | .restarted _ => true
  | _ => false

/-- The number of times that a machine was put back to its first state. -/
def State.restarts (s : State) : ℕ := s.history.countP BootRecord.isRestart

/-- The completion flags are the same, and no machine was put back. -/
structure SameRound (s t : State) : Prop where
  bootComplete : t.bootComplete = s.bootComplete
  restarts : t.restarts = s.restarts

variable {cfg : Config} {inputs : Inputs} {registry : HartId → IpiRegistry cfg IpiData}
  {i j peer : U54} {cell : MsgCell} {event : BootEvent} {s t u : State}

theorem SameRound.refl (s : State) : SameRound s s := ⟨rfl, rfl⟩

theorem SameRound.trans (h : SameRound s t) (h' : SameRound t u) : SameRound s u :=
  ⟨h'.bootComplete.trans h.bootComplete, h'.restarts.trans h.restarts⟩

theorem SameRound.free (done : freeCell cfg i cell s = .ok t) : SameRound s t := by
  rcases freeCell_cases done with ⟨-, rfl⟩ | ⟨-, d, -, rfl⟩ <;> exact ⟨rfl, rfl⟩

theorem SameRound.freeAll (done : freeAll cfg i s = .ok t) : SameRound s t :=
  freeAll_induction (P := SameRound s) (fun _ _ _ same freed => same.trans (.free freed)) done
    (.refl s)

theorem SameRound.checkForIpiAcks {result : Bool}
    (done : checkForIpiAcks cfg i s = .ok (t, result)) : SameRound s t :=
  checkForIpiAcks_induction (P := SameRound s) (fun _ _ _ same freed => same.trans (.free freed))
    done (.refl s)

theorem SameRound.delivery (done : commonBootMessageDelivery cfg inputs i peer s = .ok t) :
    SameRound s t := by
  obtain ⟨index, d, e, sent, -, -, rfl⟩ := commonBootMessageDelivery_cases done
  cases sent <;> exact ⟨rfl, rfl⟩

theorem SameRound.registers (done : Registers cfg i s t) : SameRound s t := by
  obtain ⟨l, ledger, ids, rfl, -⟩ := done
  exact ⟨rfl, rfl⟩

theorem SameRound.handler {state : BootState} (busy : state ≠ .idle)
    (done : (bootStateDescs cfg inputs i state).handler s = .ok t) : SameRound s t := by
  cases state with
  | initialization => rcases bootInitHandler_cases done with rfl | rfl | rfl <;> exact ⟨rfl, rfl⟩
  | setupPmp =>
    rcases bootSetupPmpHandler_cases done with ⟨-, rfl⟩ | ⟨-, u, result, request, rfl⟩
    · exact ⟨rfl, rfl⟩
    · obtain ⟨index, d, e, -, -, f, -, rfl⟩ := hssBootPmpSetupRequest_cases request
      cases result <;> exact ⟨rfl, rfl⟩
  | setupPmpComplete =>
    rcases bootSetupPmpCompleteHandler_cases done with ⟨u, freed, rfl⟩ | ⟨u, result, checked, rfl⟩
    · exact .trans (.freeAll freed) ⟨rfl, rfl⟩
    · refine .trans (.checkForIpiAcks checked) ?_
      cases result <;> exact ⟨rfl, rfl⟩
  | zeroInitChunks =>
    rcases bootZeroInitChunksHandler_cases done with ⟨-, rfl⟩ | ⟨-, -, rfl⟩ | ⟨-, -, rfl⟩ |
      ⟨-, -, rfl⟩ <;> exact ⟨rfl, rfl⟩
  | downloadChunks =>
    rcases bootDownloadChunksHandler_cases done with ⟨-, rfl⟩ | ⟨-, -, rfl⟩ | ⟨-, -, rfl⟩ |
      ⟨-, -, -, rfl⟩ | ⟨-, -, -, -, rfl⟩
    · exact ⟨rfl, rfl⟩
    · exact ⟨rfl, rfl⟩
    · exact ⟨rfl, rfl⟩
    · exact ⟨rfl, rfl⟩
    · unfold nextSlice noteAncilliaryData
      split <;> exact ⟨rfl, rfl⟩
  | opensbiInit =>
    rcases bootOpensbiInitHandler_cases done with ⟨-, rfl⟩ | ⟨-, -, rfl⟩ | ⟨-, peer, u, -, sent, rfl⟩
    · exact .refl _
    · exact ⟨rfl, rfl⟩
    · refine .trans (t := u) ?_ ⟨rfl, rfl⟩
      unfold runIf at sent
      split at sent
      · exact .delivery sent
      · cases sent
        exact .refl _
  | wait =>
    rcases bootWaitHandler_cases done with ⟨-, rfl⟩ | ⟨-, v, freed, rfl⟩ |
      ⟨-, v, result, checked, after⟩
    · exact ⟨rfl, rfl⟩
    · exact .trans (.trans (t := s.setMachine i _) ⟨rfl, rfl⟩ (.freeAll freed)) ⟨rfl, rfl⟩
    · refine .trans (.trans (t := s.setMachine i _) ⟨rfl, rfl⟩ (.checkForIpiAcks checked)) ?_
      rcases after with ⟨-, rfl⟩ | ⟨-, status, rfl⟩ <;> exact ⟨rfl, rfl⟩
  | complete => rcases bootCompleteHandler_cases done with rfl | rfl <;> exact ⟨rfl, rfl⟩
  | idle => exact absurd rfl busy
  | error =>
    cases done
    exact ⟨rfl, rfl⟩

theorem SameRound.onExit {state : BootState}
    (done : runCallback (bootStateDescs cfg inputs i state).onExit s = .ok t) : SameRound s t := by
  rcases onExit_messages done with ⟨-, registers⟩ | ⟨-, -, sent⟩ | rfl
  · exact .registers registers
  · exact .delivery sent
  · exact .refl _

/-- Entering a state puts no machine back, and sets a completion flag only if the state is
`BOOT_COMPLETE`. -/
theorem onEntry_round {state : BootState}
    (done : runCallback (bootStateDescs cfg inputs i state).onEntry s = .ok t) :
    SameRound s t ∨ (state = .complete ∧ t.restarts = s.restarts ∧
      t.bootComplete = Function.update s.bootComplete i true) := by
  cases state with
  | setupPmp => exact .inl (.registers (registerHarts_eq_ok done))
  | zeroInitChunks =>
    rw [bootZeroInitChunksOnEntry_eq_ok done]
    exact .inl ⟨rfl, rfl⟩
  | downloadChunks =>
    rcases bootDownloadChunksOnEntry_cases done with ⟨-, rfl⟩ | ⟨-, rfl⟩ <;> exact .inl ⟨rfl, rfl⟩
  | opensbiInit =>
    rw [bootOpensbiInitOnEntry_eq_ok done]
    split <;> exact .inl ⟨rfl, rfl⟩
  | complete =>
    cases done
    exact .inr ⟨rfl, rfl, rfl⟩
  | _ =>
    cases done
    exact .inl ⟨rfl, rfl⟩

/-- The machine of `i` is in `BOOT_COMPLETE`, and has not been run there. -/
def State.atComplete (s : State) (i : U54) : Bool :=
  (s.machine i).state = .complete && (s.machine i).prevState ≠ some .complete

theorem Entered.round {a : State} (entered : Entered cfg inputs i s a) :
    a.restarts = s.restarts ∧ ∀ j, a.bootComplete j = true →
      s.bootComplete j = true ∨ (j = i ∧ s.atComplete i = true) := by
  have started : SameRound s ((bootService i).start inputs.lastEntry s) := by
    unfold MachineOf.start
    split <;> exact ⟨rfl, rfl⟩
  rcases entered.cases with ⟨-, rfl⟩ | ⟨leaves, b, c, left, came, rfl⟩
  · exact ⟨started.restarts, fun j flag => .inl (started.bootComplete ▸ flag)⟩
  · have exited : SameRound s b := by
      cases prev : (s.machine i).prevState with
      | none =>
        rw [prev] at left
        cases left
        exact started
      | some last =>
        rw [prev] at left
        exact started.trans (.onExit left)
    rcases onEntry_round came with same | ⟨complete, restarts, flags⟩
    · have same := exited.trans same
      exact ⟨same.restarts, fun j flag => .inl (same.bootComplete ▸ flag)⟩
    · refine ⟨restarts.trans exited.restarts, fun j flag => ?_⟩
      have flag : c.bootComplete j = true := flag
      rw [flags, exited.bootComplete] at flag
      by_cases same : j = i
      · exact .inr ⟨same, by simpa [State.atComplete, complete] using complete ▸ leaves⟩
      · rw [Function.update_of_ne same] at flag
        exact .inl flag

theorem restartMachine_bootComplete (i : U54) (s : State) :
    (restartMachine i s).bootComplete = s.bootComplete := by
  unfold restartMachine
  split <;> rfl

theorem bootIdleHandler_bootComplete (done : bootIdleHandler cfg inputs i s = .ok t) :
    t.bootComplete = s.bootComplete :=
  bootIdleHandler_induction (P := fun u => u.bootComplete = s.bootComplete)
    (fun hart u same => (restartMachine_bootComplete hart u).trans same) (fun _ same => same)
    (fun _ => rfl) (fun _ _ _ => rfl) (fun _ _ same => same) done rfl

theorem bootNext_bootComplete (other : ∀ i inputs, event ≠ .run i inputs)
    (next : bootNext cfg registry s event = .ok t) : t.bootComplete = s.bootComplete := by
  have machine : ∀ hart u, u.bootComplete = s.bootComplete →
      (restartMachine hart u).bootComplete = s.bootComplete :=
    fun hart u same => (restartMachine_bootComplete hart u).trans same
  cases event with
  | run i inputs => exact absurd rfl (other i inputs)
  | restartCore source =>
    simp only [bootNext, bind_eq_ok] at next
    obtain ⟨⟨u, result⟩, restarted, next⟩ := next
    cases next
    exact hssBootRestartCore_induction (P := fun u => u.bootComplete = s.bootComplete) machine
      (fun _ same => same) restarted rfl
  | restartCores mask =>
    cases next
    exact hssBootRestartCoresUsingBitmask_induction
      (P := fun u => u.bootComplete = s.bootComplete) machine (fun _ same => same) mask rfl
  | bus call =>
    simp only [bootNext, bind_eq_ok] at next
    obtain ⟨d, -, next⟩ := next
    cases next
    rfl
  | _ =>
    cases next
    rfl

/-! ### Rounds -/

/-- The event brings the machine of `i` to `BOOT_COMPLETE`. -/
def reachesComplete (s : State) (i : U54) : BootEvent → Bool
  | .run hart _ => hart = i && s.atComplete i
  | _ => false

/-- The event puts a machine back: a restart to its first state, or a request for a remote processor
to the start of its harts. -/
def putsBack (s : State) (event : BootEvent) (t : State) : Bool :=
  s.restarts ≠ t.restarts ||
    match event with
    | .run hart _ => (s.machine hart).state = .idle && bootMachine.any fun i =>
        (t.machine i).state = .opensbiInit && (s.machine i).state ≠ .opensbiInit
    | _ => false

/-- The state of the system, and the machines that have come to `BOOT_COMPLETE` since a machine was
last put back. -/
structure BootRound where
  state : State
  completed : U54 → Bool

def roundNext (cfg : Config) (registry : HartId → IpiRegistry cfg IpiData) (r : BootRound)
    (event : BootEvent) : Except Halt BootRound := do
  let t ← bootNext cfg registry r.state event
  return ⟨t, fun i =>
    !putsBack r.state event t && (r.completed i || reachesComplete r.state i event)⟩

def roundStep (cfg : Config) (registry : HartId → IpiRegistry cfg IpiData) (r : BootRound)
    (event : BootEvent) (r' : BootRound) : Prop :=
  roundNext cfg registry r event = .ok r'

/-- A run of a machine takes it from `BOOT_COMPLETE` to idle. -/
def Announces (r : BootRound) (event : BootEvent) (r' : BootRound) : Prop :=
  ∃ hart inputs, event = .run hart inputs ∧ (r.state.machine hart).state = .complete ∧
    (r'.state.machine hart).state = .idle

/-- If the event puts a machine back, no completion flag is set. -/
def restartsBeforeComplete (cfg : Config) (registry : HartId → IpiRegistry cfg IpiData)
    (r : BootRound) (event : BootEvent) : Prop :=
  ∀ t, bootStep cfg registry r.state event t → putsBack r.state event t = true →
    ∀ i, r.state.bootComplete i = false

variable {r r' : BootRound}

theorem roundStep_cases (step : roundStep cfg registry r event r') :
    bootStep cfg registry r.state event r'.state ∧ ∀ i, r'.completed i =
      (!putsBack r.state event r'.state && (r.completed i || reachesComplete r.state i event)) := by
  simp only [roundStep, roundNext, bind_eq_ok] at step
  obtain ⟨t, next, done⟩ := step
  cases done
  exact ⟨next, fun _ => rfl⟩

theorem roundStep_of {completed : U54 → Bool} (next : bootStep cfg registry r.state event t)
    (after : ∀ i, (!putsBack r.state event t &&
      (r.completed i || reachesComplete r.state i event)) = completed i) :
    roundStep cfg registry r event ⟨t, completed⟩ := by
  rw [← funext after]
  simp only [roundStep, roundNext, bind_eq_ok]
  exact ⟨t, next, rfl⟩

instance (r : BootRound) (event : BootEvent) :
    Decidable (restartsBeforeComplete cfg registry r event) :=
  decidable_of_iff ((bootNext cfg registry r.state event).toOption.all (fun t =>
      !putsBack r.state event t || bootMachine.all fun i => !r.state.bootComplete i) = true) <| by
    unfold restartsBeforeComplete bootStep
    cases next : bootNext cfg registry r.state event with
    | error reason => simp [Except.toOption]
    | ok t =>
      have all : (∀ u, Except.ok (ε := Halt) t = .ok u → putsBack r.state event u = true →
          ∀ i, r.state.bootComplete i = false) ↔
          (putsBack r.state event t = true → ∀ i, r.state.bootComplete i = false) :=
        ⟨fun h => h t rfl, fun h u same => by cases same; exact h⟩
      rw [all]
      simp [Except.toOption, mem_bootMachine, imp_iff_not_or]

/-- A machine that goes idle has found all the flags set, and announces the end of the boot. -/
theorem bootCompleteHandler_announces (done : bootCompleteHandler i s = .ok t)
    (busy : (s.machine i).state ≠ .idle) (idle : (t.machine i).state = .idle) :
    t.triggers .bootComplete = true ∧ ∀ j, s.bootComplete j = true := by
  unfold bootCompleteHandler at done
  have after := (Except.ok.inj done).symm
  split at after
  · next flags =>
    rw [after]
    exact ⟨rfl, fun j => List.all_eq_true.mp flags j (mem_bootMachine j)⟩
  · rw [after] at idle
    exact absurd idle busy

theorem putsBack_of_busy (busy : (s.machine i).state ≠ .idle)
    (done : runBootService cfg inputs i s = .ok t) : putsBack s (.run i inputs) t = false := by
  obtain ⟨a, b, entered, handled, rfl⟩ := runBootService_cases done
  have restarts : b.restarts = s.restarts :=
    (SameRound.handler busy handled).restarts.trans entered.round.1
  have same : s.restarts = (b.setMachine i { b.machine i with
    executionCount := (b.machine i).executionCount + 1 }).restarts := restarts.symm
  simp [putsBack, same, busy]

/-- A completion flag is set by an event that brings its machine to `BOOT_COMPLETE`. -/
theorem bootStep_flag (step : bootStep cfg registry s event t) (flag : t.bootComplete j = true) :
    s.bootComplete j = true ∨
      (reachesComplete s j event = true ∧ putsBack s event t = false) := by
  by_cases run : ∃ i inputs, event = .run i inputs
  · obtain ⟨i, inputs, rfl⟩ := run
    by_cases idle : (s.machine i).state = .idle
    · obtain ⟨a, b, entered, handled, rfl⟩ := runBootService_cases step
      rw [idle] at handled
      have same : b.bootComplete = a.bootComplete := bootIdleHandler_bootComplete handled
      have flag : b.bootComplete j = true := flag
      rcases entered.round.2 j (same ▸ flag) with before | ⟨-, complete⟩
      · exact .inl before
      · simp [State.atComplete, idle] at complete
    · have busy := putsBack_of_busy idle step
      obtain ⟨a, b, entered, handled, rfl⟩ := runBootService_cases step
      have flag : b.bootComplete j = true := flag
      rw [(SameRound.handler idle handled).bootComplete] at flag
      rcases entered.round.2 j flag with before | ⟨rfl, complete⟩
      · exact .inl before
      · exact .inr ⟨by simpa [reachesComplete] using complete, busy⟩
  · rw [bootNext_bootComplete (fun i inputs same => run ⟨i, inputs, same⟩) step] at flag
    exact .inl flag

/-- The machines whose flag is set have come to `BOOT_COMPLETE` since the last restart. -/
def FlagsTrue (r : BootRound) : Prop :=
  ∀ i, r.state.bootComplete i = true → r.completed i = true

theorem FlagsTrue.step (flags : FlagsTrue r)
    (meets : restartsBeforeComplete cfg registry r event)
    (step : roundStep cfg registry r event r') : FlagsTrue r' := by
  obtain ⟨next, completed⟩ := roundStep_cases step
  intro i flag
  rw [completed]
  rcases bootStep_flag next flag with before | ⟨reaches, stays⟩
  · have stays : putsBack r.state event r'.state = false := by
      by_contra back
      have none := meets _ next (by simpa using back) i
      rw [before] at none
      cases none
    simp [stays, flags i before]
  · simp [stays, reaches]

variable {mem : Mem} {pmpEntry : U54 → ℕ → PmpEntry} {bootInfo : Word}

def roundPowerOn (cfg : Config) (mem : Mem) (pmpEntry : U54 → ℕ → PmpEntry) (bootInfo : Word) :
    BootRound :=
  ⟨powerOn cfg mem pmpEntry bootInfo, fun _ => false⟩

theorem FlagsTrue.run {events : List BootEvent}
    (run : Run (Under (restartsBeforeComplete cfg registry) (roundStep cfg registry))
      (roundPowerOn cfg mem pmpEntry bootInfo) events r) : FlagsTrue r :=
  run.invariant (fun _ flag => absurd flag Bool.false_ne_true)
    fun _ _ _ flags step => flags.step step.1 step.2

/-- If no machine is put back once one has come to `BOOT_COMPLETE`, then the end of the boot is
announced only when all machines have come to `BOOT_COMPLETE` since the last restart. -/
theorem bootComplete_announcedWhenTrue {events : List BootEvent}
    (run : Run (Under (restartsBeforeComplete cfg registry) (roundStep cfg registry))
      (roundPowerOn cfg mem pmpEntry bootInfo) events r)
    (last : roundStep cfg registry r event r') (announces : Announces r event r') :
    ∀ i, r'.completed i = true := by
  obtain ⟨next, completed⟩ := roundStep_cases last
  obtain ⟨hart, inputs, rfl, complete, idle⟩ := announces
  have busy : (r.state.machine hart).state ≠ .idle := by simp [complete]
  have stays := putsBack_of_busy busy next
  obtain ⟨a, b, entered, handled, same⟩ := runBootService_cases next
  rw [complete] at handled
  have entered_busy : (a.machine hart).state ≠ .idle := by
    rcases entered.entersState.state with unchanged | ⟨-, -, failed⟩
    · rw [unchanged]
      exact busy
    · simp [failed]
  have idle : (b.machine hart).state = .idle := by simpa [same] using idle
  have flags := (bootCompleteHandler_announces handled entered_busy idle).2
  intro i
  rw [completed, stays]
  rcases entered.round.2 i (flags i) with before | ⟨rfl, reaches⟩
  · simp [FlagsTrue.run run i before]
  · simp [reachesComplete, reaches]

/-! ### Two boots -/

theorem restartCore_threeHarts (mem : s.mem = threeHarts) (pBootImage : s.pBootImage = 0x1000) :
    bootStep cfg registry s (.restartCore none) (bootUsingHartBitmask bitmaskAllU54 s).1 := by
  refine restartCore_all ?_
  rw [mem, pBootImage, threeHarts_valid]

def threeHartsRound : BootRound :=
  roundPowerOn .icicleKitEs threeHarts (fun _ _ => ⟨0, 0, .nullRegion, false, false, false, false⟩) 0

def threeHartsNext : BootRound → BootEvent → Except Halt BootRound :=
  roundNext .icicleKitEs fun _ => .bare ..

def threeHartsUnder : BootRound → BootEvent → Prop :=
  restartsBeforeComplete .icicleKitEs fun _ => .bare ..

instance (r : BootRound) (event : BootEvent) : Decidable (threeHartsUnder r event) :=
  inferInstanceAs (Decidable (restartsBeforeComplete ..))

def threeHartsStep : BootRound → BootEvent → BootRound → Prop :=
  Under threeHartsUnder fun r event r' => threeHartsNext r event = .ok r'

/-- The machines of all harts are restarted. -/
def restartAll (s : State) : BootRound := ⟨(bootUsingHartBitmask bitmaskAllU54 s).1, fun _ => false⟩

theorem restartAll_run : Run threeHartsStep threeHartsRound
    [.registerBootImage 0x1000, .notify .ddrTrained, .notify .startupComplete, .restartCore none]
    (restartAll threeHartsRegistered) := by
  have calm {r : BootRound} {event : BootEvent} (none : r.state.bootComplete = fun _ => false) :
      threeHartsUnder r event := fun _ _ _ i => by rw [none]
  have image : Run threeHartsStep threeHartsRound [.registerBootImage 0x1000]
      ⟨{ threeHartsPowerOn with pBootImage := 0x1000 }, fun _ => false⟩ :=
    .single ⟨calm rfl, roundStep_of rfl (by decide)⟩
  have trained : Run threeHartsStep threeHartsRound [.registerBootImage 0x1000, .notify .ddrTrained]
      ⟨{ threeHartsPowerOn with pBootImage := 0x1000 }.notify .ddrTrained, fun _ => false⟩ :=
    image.snoc ⟨calm rfl, roundStep_of rfl (by decide)⟩
  have registered : Run threeHartsStep threeHartsRound
      [.registerBootImage 0x1000, .notify .ddrTrained, .notify .startupComplete]
      ⟨threeHartsRegistered, fun _ => false⟩ :=
    trained.snoc ⟨calm rfl, roundStep_of rfl (by decide)⟩
  refine registered.snoc ⟨calm rfl, roundStep_of (restartCore_threeHarts rfl rfl) ?_⟩
  decide +kernel

/-- The boot image is gone, so that the machine of a hart goes through `BOOT_ERROR` to
`BOOT_COMPLETE`, where it is run once. -/
def failEvents (hart : U54) : List BootEvent := [.run hart tick, .run hart tick, .run hart tick]

/-- The machines of all harts fail.  The last run of the last machine announces the end of the
boot. -/
def allFail : List BootEvent := .registerBootImage 0 :: bootMachine.flatMap failEvents

theorem bootComplete_announcedWhenTrue_allFail :
    ∃ r r', Announces r (.run .u54_4 tick) r' ∧ ∀ i, r'.completed i = true := by
  obtain ⟨r, run, ⟨complete, idle⟩⟩ := exists_run (P := fun r =>
    (r.state.machine .u54_4).state = .complete ∧ (threeHartsNext r (.run .u54_4 tick)).toOption.any
      (fun r' => (r'.state.machine .u54_4).state = .idle) = true)
    (fun r event => if threeHartsUnder r event then threeHartsNext r event else .error .chunkNotNull)
    (restartAll threeHartsRegistered) allFail.dropLast (by decide +kernel)
  obtain ⟨r', last, idle⟩ := exists_ok idle
  have announces : Announces r (.run .u54_4 tick) r' := ⟨_, _, rfl, complete, idle⟩
  exact ⟨r, r', announces, bootComplete_announcedWhenTrue
    (restartAll_run.trans (under_of_guard run)) last announces⟩

/-- After the machines have failed and are idle, the image is there again. -/
def idleEvents : List BootEvent :=
  allFail ++ bootMachine.map (.run · tick) ++ [.registerBootImage 0x1000]

def idleRound : BootRound :=
  (runAll threeHartsNext (restartAll threeHartsRegistered) idleEvents).toOption.get
    (by decide +kernel)

theorem idleRound_run :
    Run (roundStep .icicleKitEs fun _ => .bare ..) (restartAll threeHartsRegistered) idleEvents
      idleRound :=
  run_of_runAll (ok_of_toOption (Option.some_get _).symm)

/-- The machines are restarted once more.  The machine of the first hart fails, finds the flags of
the boot before it, and announces the end of the boot while the other machines have not been run. -/
theorem bootComplete_announcedTooEarly :
    ∃ events r r', Run (roundStep .icicleKitEs fun _ => .bare ..) threeHartsRound events r ∧
      roundStep .icicleKitEs (fun _ => .bare ..) r (.run .u54_1 tick) r' ∧
      Announces r (.run .u54_1 tick) r' ∧
      ∀ i ≠ .u54_1, r'.completed i = false ∧ (r'.state.machine i).state = .initialization := by
  have restarted : roundStep .icicleKitEs (fun _ => .bare ..) idleRound (.restartCore none)
      (restartAll idleRound.state) :=
    roundStep_of (restartCore_threeHarts rfl rfl) (by decide +kernel)
  obtain ⟨r, run, ⟨complete, after⟩⟩ := exists_run (P := fun r =>
    (r.state.machine .u54_1).state = .complete ∧ (threeHartsNext r (.run .u54_1 tick)).toOption.any
      (fun r' => (r'.state.machine .u54_1).state = .idle ∧ ∀ i ≠ .u54_1,
        r'.completed i = false ∧ (r'.state.machine i).state = .initialization) = true)
    threeHartsNext (restartAll idleRound.state) [.registerBootImage 0, .run .u54_1 tick, .run .u54_1 tick]
    (by decide +kernel)
  obtain ⟨r', last, idle, early⟩ := exists_ok after
  exact ⟨_, r, r', ((restartAll_run.forget.trans idleRound_run).snoc restarted).trans run, last,
    ⟨_, _, rfl, complete, idle⟩, early⟩

end Hss
