import Mathlib.Tactic.IntervalCases
import Hss.Lib.Runs
import Hss.Boot.State

/-! The boot status that the monitor publishes: the stores of the application harts to their states
and to the reporting flag, the monitor's poll of them load by load, and its other reports. -/

namespace Hss

open Runs

/-- The values of `HSS_BOOT_BS_…` -/
inductive BootStatus
  | bootloader1Started | ddrTrainingStarted | ddrTrainingFailedReboot | bootloader2Started
  | bootloader2FailedReboot | linuxBootStarted | linuxBootFailedReboot | linuxBootSuceeded
  deriving DecidableEq, Repr

def BootStatus.num : BootStatus → BitVec 8
  | .bootloader1Started => 0
  | .ddrTrainingStarted => 1
  | .ddrTrainingFailedReboot => 2
  | .bootloader2Started => 3
  | .bootloader2FailedReboot => 4
  | .linuxBootStarted => 5
  | .linuxBootFailedReboot => 6
  | .linuxBootSuceeded => 7

/-- The data that the reports depend on.  `storing` marks the harts between their two stores in
`HSS_U54_SetState_Ex`, and `scan` has the harts whose states the poll still has to load, with the
number of running harts so far.  `published` has the oldest report first. -/
structure Reporting where
  hartStates : U54 → U54State
  storing : U54 → Bool
  reportingFlag : Bool
  scan : Option (List U54 × ℕ)
  /-- The telemetry service is past its first state. -/
  monitoring : Bool
  publishBootSucceededPending : Bool
  stopPublish : Bool
  published : List BootStatus

def Reporting.reset : Reporting where
  hartStates := fun _ => .idle
  storing := fun _ => false
  reportingFlag := false
  scan := none
  monitoring := false
  publishBootSucceededPending := false
  stopPublish := false
  published := []

/-- What the harts do, each event one access to the data that they share. -/
inductive ReportingEvent
  /-- The entry of `hss_main`. -/
  | hssMain
  /-- `HSS_DDR_Train` -/
  | ddrTrain
  /-- The first store of `HSS_U54_SetState_Ex`, and its second. -/
  | storeState (hart : U54) (state : U54State)
  | storeFlag (hart : U54)
  /-- `HSS_U54_DumpStatesIfChanged`: its load of the flag, a load of a state, and its end. -/
  | loadFlag
  | loadState
  | report
  /-- The call to stop publishing that an application hart makes. -/
  | stopPublishing
  /-- A run of the telemetry service. -/
  | runTelemetry
  deriving DecidableEq, Repr

namespace Reporting

variable (r : Reporting)

/-- `do_tm_publish` -/
def publish (status : BootStatus) : Reporting := { r with published := r.published ++ [status] }

/-- The report of a poll that counted `runningHartCount` harts. -/
def publishCount (runningHartCount : ℕ) : Reporting :=
  if runningHartCount = 1 then r.publish .bootloader2Started
  else if runningHartCount = 4 then r.publish .linuxBootStarted
  else r

/-- `tm_init_handler` and the part of `tm_monitoring_handler` that publishes the boot status. -/
def runTelemetry : Reporting :=
  if r.monitoring then
    if r.publishBootSucceededPending then
      { r.publish .linuxBootSuceeded with publishBootSucceededPending := false }
    else r
  else { r with monitoring := true, publishBootSucceededPending := false, stopPublish := false }

/-- The data after an event, if it can happen: the monitor does nothing else during a poll, and a hart
stores a state and then the flag. -/
def next : ReportingEvent → Option Reporting
  | .hssMain => if r.scan.isSome then none else some (r.publish .bootloader1Started)
  | .ddrTrain => if r.scan.isSome then none else some (r.publish .ddrTrainingStarted)
  | .storeState hart state =>
    if r.storing hart then none
    else some { r with
      hartStates := Function.update r.hartStates hart state
      storing := Function.update r.storing hart true }
  | .storeFlag hart =>
    if r.storing hart then some { r with
      reportingFlag := true
      storing := Function.update r.storing hart false }
    else none
  | .loadFlag =>
    if r.scan.isSome then none
    else some (if r.reportingFlag then { r with scan := some (bootMachine, 0) } else r)
  | .loadState =>
    match r.scan with
    | some (hart :: rest, count) =>
      some { r with scan := some (rest, if r.hartStates hart = .running then count + 1 else count) }
    | _ => none
  | .report =>
    match r.scan with
    | some ([], count) => some { r.publishCount count with scan := none, reportingFlag := false }
    | _ => none
  | .stopPublishing => some { r with publishBootSucceededPending := true, stopPublish := true }
  | .runTelemetry => if r.scan.isSome then none else some r.runTelemetry

end Reporting

/-- The steps of the harts. -/
def reportingStep (r : Reporting) (event : ReportingEvent) (r' : Reporting) : Prop :=
  r.next event = some r'

/-- The reports of a clean boot. -/
def cleanBootPath : List BootStatus :=
  [.bootloader1Started, .ddrTrainingStarted, .bootloader2Started, .linuxBootStarted,
    .linuxBootSuceeded]

example : cleanBootPath.map BootStatus.num = [0, 1, 3, 5, 7] := rfl

/-- The number of running harts. -/
def Reporting.running (r : Reporting) : ℕ :=
  bootMachine.countP fun hart => r.hartStates hart = .running

/-- The events of a boot without failures: the memory is trained once and before a hart runs, a hart
that runs stays so, and the operating system of the running harts asks once to stop publishing. -/
def CleanBoot (r : Reporting) : ReportingEvent → Prop
  | .hssMain => r.published = []
  | .ddrTrain => r.published = [.bootloader1Started]
  | .storeState hart state => r.hartStates hart ≠ .running ∧
    (state = .running → .ddrTrainingStarted ∈ r.published)
  | .stopPublishing => (∀ hart, r.hartStates hart = .running) ∧ r.monitoring = true ∧
    r.stopPublish = false
  | _ => True

instance (r : Reporting) (event : ReportingEvent) : Decidable (CleanBoot r event) :=
  match event with
  | .hssMain => inferInstanceAs (Decidable (_ = _))
  | .ddrTrain => inferInstanceAs (Decidable (_ = _))
  | .storeState .. => inferInstanceAs (Decidable (_ ∧ _))
  | .stopPublishing => inferInstanceAs (Decidable (_ ∧ _))
  | .storeFlag _ | .loadFlag | .loadState | .report | .runTelemetry => .isTrue trivial

/-- When the events suit the polls: no hart starts to run during a poll; while one hart runs, the
others change to other states only before that was reported, and start to run only after it was; no
hart is between its two stores as a poll starts; and publishing is stopped after the report on all
harts. -/
def Timely (r : Reporting) : ReportingEvent → Prop
  | .storeState _ state =>
    (r.scan.isSome = true → state ≠ .running ∧ r.running ≠ 1) ∧
      (r.running = 1 → (state = .running ↔ .bootloader2Started ∈ r.published))
  | .loadFlag => r.reportingFlag = true → ∀ hart, r.storing hart = false
  | .stopPublishing => .linuxBootStarted ∈ r.published
  | _ => True

instance (r : Reporting) (event : ReportingEvent) : Decidable (Timely r event) :=
  match event with
  | .storeState .. => inferInstanceAs (Decidable (_ ∧ _))
  | .loadFlag => inferInstanceAs (Decidable (_ → _))
  | .stopPublishing => inferInstanceAs (Decidable (_ ∈ _))
  | .hssMain | .ddrTrain | .storeFlag _ | .loadState | .report | .runTelemetry => .isTrue trivial

/-- The boot is over: all harts run, their last changes were polled, and the operating system's call
was served. -/
structure Reporting.Finished (r : Reporting) : Prop where
  running : ∀ hart, r.hartStates hart = .running
  polled : r.reportingFlag = false
  stored : ∀ hart, r.storing hart = false
  stopped : r.stopPublish = true
  served : r.publishBootSucceededPending = false

/-! ### What the harts' stores and the polls keep -/

/-- A change of state that the polls have not seen to the end. -/
def Reporting.Dirty (r : Reporting) : Prop := r.reportingFlag = true ∨ ∃ hart, r.storing hart = true

/-- `k` reports were made, those of a clean boot, and the harts have come as far as that allows. -/
structure Reporting.Level (r : Reporting) (k : ℕ) : Prop where
  published : r.published = cleanBootPath.take k
  bound : k ≤ 5
  early : k ≤ 1 → r.running = 0
  first : k = 2 → r.running ≤ 1 ∧ (r.running = 1 → r.Dirty)
  middle : k = 3 → 1 ≤ r.running ∧ (r.running = 1 → ¬ r.Dirty) ∧ (r.running = 4 → r.Dirty)
  all : 4 ≤ k → r.running = 4 ∧ ¬ r.Dirty
  pending : r.publishBootSucceededPending = true → k = 4 ∧ r.stopPublish = true
  stopped : r.stopPublish = true →
    r.monitoring = true ∧ (r.publishBootSucceededPending = false → k = 5)
  last : k = 5 → r.stopPublish = true

/-- The poll has counted the running harts among those whose states it loaded. -/
def Reporting.Scans (r : Reporting) : Prop :=
  ∀ rest count, r.scan = some (rest, count) → r.reportingFlag = true ∧
    (∃ loaded, bootMachine = loaded ++ rest ∧
      count = loaded.countP fun hart => r.hartStates hart = .running) ∧
    (r.running = 1 ∨ r.running = 4 → ∀ hart, r.storing hart = false)

variable {r r' : Reporting} {k : ℕ} {hart : U54} {state : U54State} {status : BootStatus}

theorem Reporting.running_le (r : Reporting) : r.running ≤ 4 := List.countP_le_length

theorem Reporting.running_eq_four : r.running = 4 ↔ ∀ hart, r.hartStates hart = .running := by
  rw [Reporting.running, show 4 = bootMachine.length from rfl, List.countP_eq_length]
  simp [mem_bootMachine]

theorem running_storeState (state : U54State) (other : r.hartStates hart ≠ .running)
    (storing : U54 → Bool) :
    Reporting.running { r with hartStates := Function.update r.hartStates hart state, storing } =
      r.running + if state = .running then 1 else 0 := by
  unfold Reporting.running
  cases hart <;> simp [bootMachine, List.countP_cons, Function.update, other] <;> omega

/-- Changes that leave out what the levels are about. -/
theorem Reporting.Level.mono (level : r.Level k) (published : r'.published = r.published)
    (hartStates : r'.hartStates = r.hartStates) (dirty : r'.Dirty ↔ r.Dirty)
    (pending : r'.publishBootSucceededPending = r.publishBootSucceededPending)
    (stopped : r'.stopPublish = r.stopPublish) (monitoring : r'.monitoring = r.monitoring) :
    r'.Level k := by
  have running : r'.running = r.running := by rw [running, hartStates, running]
  constructor
  · rw [published, level.published]
  · exact level.bound
  · rw [running]
    exact level.early
  · rw [running, dirty]
    exact level.first
  · rw [running, dirty]
    exact level.middle
  · rw [running, dirty]
    exact level.all
  · rw [pending, stopped]
    exact level.pending
  · rw [pending, stopped, monitoring]
    exact level.stopped
  · rw [stopped]
    exact level.last

theorem mem_take_iff (bound : k ≤ 5) :
    (.ddrTrainingStarted ∈ cleanBootPath.take k ↔ 2 ≤ k) ∧
      (.bootloader2Started ∈ cleanBootPath.take k ↔ 3 ≤ k) ∧
      (.linuxBootStarted ∈ cleanBootPath.take k ↔ 4 ≤ k) := by
  interval_cases k <;> decide

theorem Reporting.Level.length (level : r.Level k) : r.published.length = k := by
  rw [level.published, List.length_take]
  exact Nat.min_eq_left level.bound

theorem take_succ (next : cleanBootPath[k]? = some status) (published : r.published =
    cleanBootPath.take k) : (r.publish status).published = cleanBootPath.take (k + 1) := by
  rw [Reporting.publish, published, List.take_add_one, next]
  rfl

/-- The entry of `hss_main` and the training of the memory. -/
theorem Reporting.Level.start (level : r.Level k) (early : k ≤ 1)
    (next : cleanBootPath[k]? = some status) : (r.publish status).Level (k + 1) where
  published := take_succ next level.published
  bound := by omega
  early _ := level.early early
  first _ := by
    have none : (r.publish status).running = 0 := level.early early
    omega
  middle h := by omega
  all h := by omega
  pending asked := by
    have := (level.pending asked).1
    omega
  stopped asked := by
    refine ⟨(level.stopped asked).1, fun served => ?_⟩
    have := (level.stopped asked).2 served
    omega
  last h := by omega

/-- A hart stores its state. -/
theorem Reporting.Level.storeState (level : r.Level k)
    (clean : CleanBoot r (.storeState hart state)) (timely : Timely r (.storeState hart state)) :
    Reporting.Level { r with
      hartStates := Function.update r.hartStates hart state
      storing := Function.update r.storing hart true } k := by
  obtain ⟨other, trained⟩ := clean
  obtain ⟨-, alone⟩ := timely
  obtain ⟨ddr, bl2, -⟩ := mem_take_iff level.bound
  rw [level.published, ddr] at trained
  rw [level.published, bl2] at alone
  have running := running_storeState state other (Function.update r.storing hart true)
  have most := r.running_le
  have notAll : r.running ≠ 4 := fun all => other (Reporting.running_eq_four.mp all hart)
  have dirty : Reporting.Dirty { r with
      hartStates := Function.update r.hartStates hart state
      storing := Function.update r.storing hart true } := .inr ⟨hart, Function.update_self ..⟩
  have early := level.early
  have first := level.first
  have middle := level.middle
  have all := level.all
  constructor
  · exact level.published
  · exact level.bound
  · intro low
    rw [running, early low, if_neg fun same => ?_]
    have := trained same
    omega
  · intro two
    refine ⟨?_, fun _ => dirty⟩
    rw [running]
    split
    · next same =>
      have := (first two).1
      have : r.running ≠ 1 := fun one => by
        have := (alone one).mp same
        omega
      omega
    · have := (first two).1
      omega
  · intro three
    refine ⟨?_, fun one => ?_, fun _ => dirty⟩
    · rw [running]
      have := (middle three).1
      omega
    · rw [running] at one
      have := (middle three).1
      split at one
      · omega
      · next differs => exact absurd ((alone (by omega)).mpr (by omega)) differs
  · exact fun high => absurd (all high).1 notAll
  · exact level.pending
  · exact level.stopped
  · exact level.last

theorem Reporting.Level.storeFlag (level : r.Level k) (storing : r.storing hart = true) :
    Reporting.Level { r with
      reportingFlag := true
      storing := Function.update r.storing hart false } k := by
  have before : r.Dirty := .inr ⟨hart, storing⟩
  exact level.mono rfl rfl (iff_of_true (.inl rfl) before) rfl rfl rfl

/-- The end of a poll that publishes: the level goes up, and the poll has seen all changes. -/
theorem Reporting.Level.publish (level : r.Level k) (next : cleanBootPath[k]? = some status)
    (step : (k = 2 ∧ r.running = 1) ∨ (k = 3 ∧ r.running = 4))
    (stored : ∀ hart, r.storing hart = false) :
    Reporting.Level { r.publish status with scan := none, reportingFlag := false } (k + 1) := by
  have seen : ¬ Reporting.Dirty { r.publish status with scan := none, reportingFlag := false } := by
    rintro (set | ⟨hart, storing⟩)
    · exact Bool.false_ne_true set
    · exact Bool.false_ne_true ((stored hart).symm.trans storing)
  have running : Reporting.running
      { r.publish status with scan := none, reportingFlag := false } = r.running := rfl
  constructor
  · exact take_succ next level.published
  · omega
  · intro low
    omega
  · intro two
    omega
  · intro three
    exact ⟨by omega, fun _ => seen, fun four => by omega⟩
  · intro high
    exact ⟨by omega, seen⟩
  · intro asked
    have := (level.pending asked).1
    omega
  · intro asked
    refine ⟨(level.stopped asked).1, fun served => ?_⟩
    have := (level.stopped asked).2 served
    omega
  · intro last
    omega

theorem Reporting.Level.clear (level : r.Level k) (low : k ≤ 3) (one : r.running ≠ 1)
    (four : r.running ≠ 4) : Reporting.Level { r with scan := none, reportingFlag := false } k where
  published := level.published
  bound := level.bound
  early := level.early
  first two := ⟨(level.first two).1, fun h => absurd h one⟩
  middle three := ⟨(level.middle three).1, fun h => absurd h one, fun h => absurd h four⟩
  all high := by omega
  pending := level.pending
  stopped := level.stopped
  last := level.last

theorem Reporting.Level.report (level : r.Level k) (flag : r.reportingFlag = true)
    (stored : r.running = 1 ∨ r.running = 4 → ∀ hart, r.storing hart = false) :
    ∃ k, Reporting.Level { r.publishCount r.running with scan := none, reportingFlag := false } k := by
  have dirty : r.Dirty := .inl flag
  have low : k ≤ 3 := by
    by_contra high
    exact (level.all (by omega)).2 dirty
  unfold Reporting.publishCount
  by_cases one : r.running = 1
  · have two : k = 2 := by
      have := level.early
      have : k ≠ 3 := fun three => (level.middle three).2.1 one dirty
      omega
    rw [if_pos one]
    exact ⟨_, level.publish (by rw [two]; rfl) (.inl ⟨two, one⟩) (stored (.inl one))⟩
  · by_cases four : r.running = 4
    · have three : k = 3 := by
        have := level.early
        have : k ≠ 2 := fun two => by
          have := (level.first two).1
          omega
        omega
      rw [if_neg one, if_pos four]
      exact ⟨_, level.publish (by rw [three]; rfl) (.inr ⟨three, four⟩) (stored (.inr four))⟩
    · rw [if_neg one, if_neg four]
      exact ⟨k, level.clear low one four⟩

theorem Reporting.Level.stopPublishing (level : r.Level k) (clean : CleanBoot r .stopPublishing)
    (timely : Timely r .stopPublishing) :
    Reporting.Level { r with publishBootSucceededPending := true, stopPublish := true } k := by
  obtain ⟨-, monitoring, unasked⟩ := clean
  have four : k = 4 := by
    have reported : .linuxBootStarted ∈ r.published := timely
    rw [level.published, (mem_take_iff level.bound).2.2] at reported
    have : k ≠ 5 := fun five => Bool.false_ne_true (unasked.symm.trans (level.last five))
    have := level.bound
    omega
  exact {
    published := level.published
    bound := level.bound
    early := level.early
    first := level.first
    middle := level.middle
    all := level.all
    pending := fun _ => ⟨four, rfl⟩
    stopped := fun _ => ⟨monitoring, fun served => absurd served.symm Bool.false_ne_true⟩
    last := fun _ => rfl }

theorem Reporting.Level.runTelemetry (level : r.Level k) : ∃ k, r.runTelemetry.Level k := by
  unfold Reporting.runTelemetry
  cases monitoring : r.monitoring with
  | false =>
    have unasked : r.stopPublish = false := by
      by_contra asked
      have := (level.stopped (Bool.eq_true_of_not_eq_false asked)).1
      exact Bool.false_ne_true (monitoring.symm.trans this)
    have unpending : r.publishBootSucceededPending = false := by
      by_contra asked
      have := (level.pending (Bool.eq_true_of_not_eq_false asked)).2
      exact Bool.false_ne_true (unasked.symm.trans this)
    refine ⟨k, ?_⟩
    rw [if_neg Bool.false_ne_true]
    exact {
      published := level.published
      bound := level.bound
      early := level.early
      first := level.first
      middle := level.middle
      all := level.all
      pending := fun asked => absurd asked Bool.false_ne_true
      stopped := fun asked => absurd asked Bool.false_ne_true
      last := fun five => absurd (unasked.symm.trans (level.last five)) Bool.false_ne_true }
  | true =>
    rw [if_pos rfl]
    split
    · next asked =>
      obtain ⟨four, stop⟩ := level.pending asked
      obtain ⟨running, seen⟩ := level.all (by omega)
      refine ⟨k + 1, ?_⟩
      exact {
        published := take_succ (by rw [four]; rfl) level.published
        bound := by omega
        early := fun low => by omega
        first := fun two => by omega
        middle := fun three => by omega
        all := fun _ => ⟨running, seen⟩
        pending := fun asked => absurd asked Bool.false_ne_true
        stopped := fun _ => ⟨monitoring, fun _ => by omega⟩
        last := fun _ => stop }
    · exact ⟨k, level⟩

/-! ### Runs -/

theorem of_ite_none {condition : Prop} [Decidable condition] {a b : Reporting}
    (step : (if condition then none else some a) = some b) : ¬ condition ∧ b = a := by
  split at step
  · cases step
  · next h => exact ⟨h, (Option.some.inj step).symm⟩

/-- What every step keeps. -/
structure Reporting.Follows (r : Reporting) : Prop where
  level : ∃ k, r.Level k
  scans : r.Scans

theorem follows_reset : Reporting.reset.Follows where
  level := by
    refine ⟨0, rfl, by omega, fun _ => rfl, fun two => ?_, fun three => ?_, fun high => ?_,
      fun asked => ?_, fun asked => ?_, fun five => ?_⟩
    · omega
    · omega
    · omega
    · exact absurd asked Bool.false_ne_true
    · exact absurd asked Bool.false_ne_true
    · omega
  scans _ _ scan := by cases scan

theorem Reporting.scans_of_none (none : r.scan = none) : r.Scans := fun rest count scan => by
  rw [none] at scan
  cases scan

/-- A change of state that leaves alone which harts run. -/
theorem Reporting.Scans.storeState (scans : r.Scans) (clean : CleanBoot r (.storeState hart state))
    (timely : Timely r (.storeState hart state)) :
    Reporting.Scans { r with
      hartStates := Function.update r.hartStates hart state
      storing := Function.update r.storing hart true } := by
  intro rest count scan
  have scan : r.scan = some (rest, count) := scan
  obtain ⟨flag, ⟨loaded, parts, counted⟩, -⟩ := scans rest count scan
  obtain ⟨quiet, notOne⟩ := timely.1 (by rw [scan]; rfl)
  have running := running_storeState state clean.1 (Function.update r.storing hart true)
  rw [if_neg quiet, Nat.add_zero] at running
  refine ⟨flag, ⟨loaded, parts, ?_⟩, fun alone => ?_⟩
  · rw [counted]
    refine List.countP_congr fun i _ => ?_
    by_cases own : i = hart
    · subst own
      simp [quiet, clean.1]
    · simp [Function.update_of_ne own]
  · rw [running] at alone
    rcases alone with one | four
    · exact absurd one notOne
    · exact absurd (Reporting.running_eq_four.mp four hart) clean.1

theorem Reporting.Scans.loadState {i : U54} {rest : List U54} {count : ℕ} (scans : r.Scans)
    (scan : r.scan = some (i :: rest, count)) : Reporting.Scans { r with
      scan := some (rest, if r.hartStates i = .running then count + 1 else count) } := by
  obtain ⟨flag, ⟨loaded, parts, counted⟩, stored⟩ := scans _ _ scan
  intro rest' count' same
  cases same
  refine ⟨flag, ⟨loaded ++ [i], by rw [parts, List.append_assoc, List.singleton_append], ?_⟩, stored⟩
  rw [List.countP_append, ← counted]
  by_cases running : r.hartStates i = .running <;> simp [running]

theorem Reporting.Follows.step {event : ReportingEvent} (follows : r.Follows)
    (clean : CleanBoot r event) (timely : Timely r event) (step : reportingStep r event r') :
    r'.Follows := by
  obtain ⟨⟨k, level⟩, scans⟩ := follows
  cases event with
  | hssMain =>
    obtain ⟨busy, rfl⟩ := of_ite_none step
    have zero : k = 0 := by
      rw [← level.length, show r.published = [] from clean]
      rfl
    subst zero
    exact ⟨⟨_, level.start (by omega) rfl⟩, Reporting.scans_of_none (Option.not_isSome_iff_eq_none.mp busy)⟩
  | ddrTrain =>
    obtain ⟨busy, rfl⟩ := of_ite_none step
    have one : k = 1 := by
      rw [← level.length, show r.published = [.bootloader1Started] from clean]
      rfl
    subst one
    exact ⟨⟨_, level.start (by omega) rfl⟩, Reporting.scans_of_none (Option.not_isSome_iff_eq_none.mp busy)⟩
  | storeState hart state =>
    obtain ⟨-, rfl⟩ := of_ite_none step
    exact ⟨⟨k, level.storeState clean timely⟩, scans.storeState clean timely⟩
  | storeFlag hart =>
    simp only [reportingStep, Reporting.next] at step
    split at step
    · next storing =>
      cases step
      refine ⟨⟨k, level.storeFlag storing⟩, fun rest count scan => ?_⟩
      obtain ⟨-, counted, stored⟩ := scans rest count scan
      refine ⟨rfl, counted, fun alone => ?_⟩
      exact absurd ((stored alone hart).symm.trans storing) Bool.false_ne_true
    · cases step
  | loadFlag =>
    obtain ⟨busy, rfl⟩ := of_ite_none step
    split
    · next flag =>
      have stored := timely flag
      refine ⟨⟨k, level.mono rfl rfl Iff.rfl rfl rfl rfl⟩, fun rest count scan => ?_⟩
      cases scan
      exact ⟨flag, ⟨[], rfl, rfl⟩, fun _ => stored⟩
    · exact ⟨⟨k, level⟩, scans⟩
  | loadState =>
    simp only [reportingStep, Reporting.next] at step
    split at step
    · next i rest count scan =>
      cases step
      exact ⟨⟨k, level.mono rfl rfl Iff.rfl rfl rfl rfl⟩, scans.loadState scan⟩
    · cases step
  | report =>
    simp only [reportingStep, Reporting.next] at step
    split at step
    · next count scan =>
      cases step
      obtain ⟨flag, ⟨loaded, parts, rfl⟩, stored⟩ := scans _ _ scan
      rw [List.append_nil] at parts
      subst parts
      exact ⟨level.report flag stored, Reporting.scans_of_none rfl⟩
    · cases step
  | stopPublishing =>
    cases step
    exact ⟨⟨k, level.stopPublishing clean timely⟩, scans⟩
  | runTelemetry =>
    obtain ⟨busy, rfl⟩ := of_ite_none step
    have idle : r.runTelemetry.scan = r.scan := by
      unfold Reporting.runTelemetry
      split
      · split <;> rfl
      · rfl
    exact ⟨level.runTelemetry, Reporting.scans_of_none
      (idle.trans (Option.not_isSome_iff_eq_none.mp busy))⟩

/-- In every run of a clean boot whose events suit the polls, the reports are the first of 0, 1, 3,
5, 7 in this order, each made once, and all of them when the boot is over. -/
theorem published_followsBoot {events : List ReportingEvent}
    (run : Run (Under (fun r event => CleanBoot r event ∧ Timely r event) reportingStep)
      .reset events r) :
    r.published.map BootStatus.num <+: [0, 1, 3, 5, 7] ∧
      (r.Finished → r.published.map BootStatus.num = [0, 1, 3, 5, 7]) := by
  have follows : r.Follows := run.invariant follows_reset fun s event t before taken =>
    before.step taken.1.1 taken.1.2 taken.2
  obtain ⟨⟨k, level⟩, -⟩ := follows
  have values : cleanBootPath.map BootStatus.num = [0, 1, 3, 5, 7] := rfl
  rw [level.published, ← values]
  refine ⟨(List.take_prefix k _).map _, fun finished => ?_⟩
  have four : r.running = 4 := Reporting.running_eq_four.mpr finished.running
  have seen : ¬ r.Dirty := by
    rintro (set | ⟨hart, storing⟩)
    · exact Bool.false_ne_true (finished.polled.symm.trans set)
    · exact Bool.false_ne_true ((finished.stored hart).symm.trans storing)
  have five : k = 5 := (level.stopped finished.stopped).2 finished.served
  rw [five]
  rfl

/-- The events of a hart that starts to run. -/
def startsToRun (hart : U54) : List ReportingEvent := [.storeState hart .running, .storeFlag hart]

/-- A poll that finds the flag set. -/
def poll : List ReportingEvent :=
  [.loadFlag, .loadState, .loadState, .loadState, .loadState, .report]

/-- The monitor's start, before a hart runs. -/
def monitorStarts : List ReportingEvent := [.hssMain, .runTelemetry, .ddrTrain]

/-- The events of a run, one by one, where `condition` allows them. -/
def nextUnder (condition : Reporting → ReportingEvent → Prop)
    [∀ r event, Decidable (condition r event)] (r : Reporting) (event : ReportingEvent) :
    Except Unit Reporting :=
  if condition r event then (r.next event).elim (.error ()) .ok else .error ()

theorem nextUnder_step {condition : Reporting → ReportingEvent → Prop}
    [∀ r event, Decidable (condition r event)] (event : ReportingEvent)
    (taken : nextUnder condition r event = .ok r') : Under condition reportingStep r event r' := by
  unfold nextUnder at taken
  split at taken
  · next allowed =>
    cases step : r.next event with
    | none =>
      rw [step] at taken
      cases taken
    | some t =>
      rw [step] at taken
      cases taken
      exact ⟨allowed, step⟩
  · cases taken

/-- The end of a boot: publishing is stopped, and the telemetry service runs. -/
def bootEnds : List ReportingEvent := [.stopPublishing, .runTelemetry]

/-- The first hart is polled before the second starts to run. -/
def polledOneByOne : List ReportingEvent :=
  monitorStarts ++ startsToRun .u54_1 ++ poll ++ startsToRun .u54_2 ++ poll ++ startsToRun .u54_3 ++
    startsToRun .u54_4 ++ poll ++ bootEnds

theorem published_followsBoot_oneByOne :
    ∃ r, Run reportingStep .reset polledOneByOne r ∧
      r.published.map BootStatus.num = [0, 1, 3, 5, 7] := by
  obtain ⟨r, run, running, polled, stored, stopped, served⟩ := exists_run
    (nextUnder fun r event => CleanBoot r event ∧ Timely r event) .reset polledOneByOne
    (P := fun r => (∀ hart, r.hartStates hart = .running) ∧ r.reportingFlag = false ∧
      (∀ hart, r.storing hart = false) ∧ r.stopPublish = true ∧
      r.publishBootSucceededPending = false) (by decide +kernel)
  have run := run.mono fun _ event _ taken => nextUnder_step event taken
  exact ⟨r, run.forget, (published_followsBoot run).2 ⟨running, polled, stored, stopped, served⟩⟩

/-- Two harts start to run between two polls: the poll counts two, and 3 is never published. -/
theorem published_skipsThree :
    ∃ r, Run (Under CleanBoot reportingStep) .reset
        (monitorStarts ++ startsToRun .u54_1 ++ startsToRun .u54_2 ++ poll ++ startsToRun .u54_3 ++
          startsToRun .u54_4 ++ poll ++ bootEnds) r ∧
      (∀ hart, r.hartStates hart = .running) ∧ r.reportingFlag = false ∧
      r.published.map BootStatus.num = [0, 1, 5, 7] := by
  obtain ⟨r, run, after⟩ := exists_run (nextUnder CleanBoot) .reset
    (monitorStarts ++ startsToRun .u54_1 ++ startsToRun .u54_2 ++ poll ++ startsToRun .u54_3 ++
      startsToRun .u54_4 ++ poll ++ bootEnds)
    (P := fun r => (∀ hart, r.hartStates hart = .running) ∧ r.reportingFlag = false ∧
      r.published.map BootStatus.num = [0, 1, 5, 7]) (by decide +kernel)
  exact ⟨r, run.mono fun _ event _ taken => nextUnder_step event taken, after⟩

end Hss
