import Hss.Boot.Service

/-! The health monitors: the registers that the handler samples, the checks on the samples, and whether
the checks are on the values and on the changes that the monitors define. -/

namespace Hss

/-! ### Monitors -/

/-- `enum HealthMon_CheckType` -/
inductive HealthMonCheckType
  | aboveThreshold | belowThreshold | aboveOrBelowThreshold | equalToValue | notEqualToValue
  | changedSinceLast
  deriving DecidableEq, Repr

/-- `struct HealthMonitor`, less its name, its address and its callback. -/
structure HealthMonitor where
  checkType : HealthMonCheckType
  maxValue : Word
  minValue : Word
  shift : BitVec 8
  mask : Word
  throttleScale : BitVec 32

/-- A sample: the eight bytes at the address, the value that was checked, and whether the monitor
fired. -/
structure HealthSample where
  contents : Word
  value : Word
  fired : Bool
  deriving DecidableEq

/-- `struct HealthMonitor_Status`.  No code reads `history`, which has the newest sample first. -/
structure HealthMonitorStatus where
  throttleStartTime : Word
  lastValue : BitVec 32
  count : Word
  initialized : Bool
  history : List HealthSample

/-- The entries of `monitor_status` that a board declares. -/
def HealthMonitorStatus.init : HealthMonitorStatus := ⟨0, 0, 0, false, []⟩

/-- What a turn of the loop finds: the time, the eight bytes at the address, and the time later on. -/
structure HealthInput where
  now : Word
  contents : Word
  later : Word

namespace HealthMonitor

variable (m : HealthMonitor)

/-- The bits that are read: all of them only if the mask says so. -/
def bitsRead (contents : Word) : Word :=
  if m.mask > 0xFFFFFFFF then contents else contents &&& 0xFFFFFFFF

/-- The value that is checked.  A shift instruction takes the lower six bits of its operand. -/
def value (contents : Word) : Word :=
  let value := m.bitsRead contents
  let value := if m.shift ≠ 0 then value >>> (m.shift.toNat % 64) else value
  if m.mask ≠ 0 then value &&& m.mask else value

/-- The check: whether it triggers, and the flag after it. -/
def check (status : HealthMonitorStatus) (value : Word) : Bool × HealthMonitorStatus :=
  match m.checkType with
  | .aboveThreshold => (value > m.maxValue, status)
  | .belowThreshold => (value < m.minValue, status)
  | .aboveOrBelowThreshold => (value > m.maxValue || value < m.minValue, status)
  | .equalToValue => (value = m.maxValue, status)
  | .notEqualToValue => (value ≠ m.maxValue, status)
  | .changedSinceLast =>
    if status.initialized then (value ≠ status.lastValue.setWidth 64, status)
    else (false, { status with initialized := true })

/-- Whether the monitor fires: what it reports again is no news. -/
def fires (status : HealthMonitorStatus) (value : Word) : Bool :=
  (m.check status value).1 && value ≠ status.lastValue.setWidth 64

/-- A turn of the loop of `healthmon_monitoring_handler`. -/
def turn (oneSec : Word) (input : HealthInput) (status : HealthMonitorStatus) : HealthMonitorStatus :=
  if hssTimerIsElapsed input.now status.throttleStartTime (m.throttleScale.setWidth 64 * oneSec) then
    let value := m.value input.contents
    let fires := m.fires status value
    let status := (m.check status value).2
    let status := { status with history := ⟨input.contents, value, fires⟩ :: status.history }
    if fires then
      { status with
        count := status.count + 1
        throttleStartTime := input.later
        lastValue := value.setWidth 32 }
    else status
  else status

end HealthMonitor

/-- The turn for one monitor, among the statuses of all. -/
def healthmonTurn (oneSec : Word) (monitors : List HealthMonitor) (inputs : ℕ → HealthInput)
    (status : ℕ → HealthMonitorStatus) (i : ℕ) : ℕ → HealthMonitorStatus :=
  match monitors[i]? with
  | none => status
  | some m => Function.update status i (m.turn oneSec (inputs i) (status i))

/-- `healthmon_monitoring_handler` -/
def healthmonMonitoringHandler (oneSec : Word) (monitors : List HealthMonitor)
    (status : ℕ → HealthMonitorStatus) (inputs : ℕ → HealthInput) : ℕ → HealthMonitorStatus :=
  (List.range monitors.length).foldl (healthmonTurn oneSec monitors inputs) status

/-- The statuses after a number of calls. -/
def healthmonRun (oneSec : Word) (monitors : List HealthMonitor) (calls : List (ℕ → HealthInput)) :
    ℕ → HealthMonitorStatus :=
  calls.foldl (healthmonMonitoringHandler oneSec monitors) fun _ => .init

/-! ### What the monitors define -/

/-- The size of the register at the address of a monitor. -/
inductive RegisterWidth
  | w32 | w64
  deriving DecidableEq, Repr

/-- The register, of the eight bytes at its address. -/
def RegisterWidth.register : RegisterWidth → Word → Word
  | .w32, contents => contents &&& 0xFFFFFFFF
  | .w64, contents => contents

namespace HealthMonitor

variable (m : HealthMonitor) (w : RegisterWidth)

/-- `(register >> shift) & mask` -/
def defined (contents : Word) : Word := w.register contents >>> m.shift.toNat &&& m.mask

/-- The samples of a monitor, the newest first, are as it defines: the checked values are those of the
register, and a monitor for changes fires for what differs from the sample before. -/
def Faithful : List HealthSample → Prop
  | [] => True
  | sample :: before => sample.value = m.defined w sample.contents ∧
      (m.checkType = .changedSinceLast → (sample.fired = true ↔
        ∃ previous ∈ before.head?, m.defined w sample.contents ≠ m.defined w previous.contents)) ∧
      Faithful before

/-- What a monitor should have done: its samples are faithful, and it has counted those for which it
fired. -/
structure Reports (status : HealthMonitorStatus) : Prop where
  faithful : m.Faithful w status.history
  counts : status.count = BitVec.ofNat 64 (status.history.countP HealthSample.fired)

/-- The bits of which the read has too many or too few do not matter.  A mask of zero and a shift of more
than 63 bits leave nothing of a register, but not of what is read. -/
def ReadsRegister (contents : Word) : Prop :=
  if m.shift.toNat < 64 ∧ m.mask ≠ 0 then
    (m.mask > 0xFFFFFFFF ↔ w = .w64) ∨
      (contents &&& 0xFFFFFFFF00000000) >>> m.shift.toNat &&& m.mask = 0
  else
    m.bitsRead contents >>> (m.shift.toNat % 64) &&&
      (if m.mask ≠ 0 then m.mask else BitVec.allOnes 64) = 0

/-- What a sample is compared with, from the samples before it: the first one is not stored, and of the
others 32 bits are. -/
def stored : List Word → Word
  | [] => 0
  | [_] => 0
  | contents :: _ :: _ => m.value contents &&& 0xFFFFFFFF

/-- The samples, the newest first, for which the monitor does as it defines: the reads are of the
register, and each sample that is not stored as it is differs from the next one, as does what is stored
of it. -/
def SamplesExact : List Word → Prop
  | [] => True
  | contents :: before => m.ReadsRegister w contents ∧
      (m.checkType = .changedSinceLast → ∀ previous ∈ before.head?,
        m.value previous = m.stored before ∨
          m.value contents ≠ m.value previous ∧ m.value contents ≠ m.stored before) ∧
      SamplesExact before

end HealthMonitor

/-! ### The value that is checked -/

theorem low_or_high (c : Word) : c &&& 0xFFFFFFFF ||| c &&& 0xFFFFFFFF00000000 = c := by
  have all : (0xFFFFFFFF ||| 0xFFFFFFFF00000000 : Word) = BitVec.allOnes 64 := by decide
  rw [← BitVec.and_or_distrib_left, all, BitVec.and_allOnes]

/-- The upper half of a word is not seen through the mask just when the lower half gives the same. -/
theorem shifted_low_eq_iff (c mask : Word) (n : ℕ) :
    c >>> n &&& mask = (c &&& 0xFFFFFFFF) >>> n &&& mask ↔
      (c &&& 0xFFFFFFFF00000000) >>> n &&& mask = 0 := by
  have split : c >>> n &&& mask =
      ((c &&& 0xFFFFFFFF) >>> n &&& mask) ||| ((c &&& 0xFFFFFFFF00000000) >>> n &&& mask) := by
    rw [← BitVec.and_or_distrib_right, ← BitVec.ushiftRight_or_distrib, low_or_high]
  constructor
  · intro same
    have halves : (0xFFFFFFFF00000000 &&& 0xFFFFFFFF : Word) = 0 := by decide
    have apart : (c &&& 0xFFFFFFFF00000000) &&& (c &&& 0xFFFFFFFF) = 0 := by
      calc (c &&& 0xFFFFFFFF00000000) &&& (c &&& 0xFFFFFFFF)
          = c &&& c &&& (0xFFFFFFFF00000000 &&& 0xFFFFFFFF) := by ac_rfl
        _ = 0 := by rw [halves]; simp
    have none : ((c &&& 0xFFFFFFFF00000000) >>> n &&& mask) &&& ((c &&& 0xFFFFFFFF) >>> n &&& mask) = 0 := by
      calc ((c &&& 0xFFFFFFFF00000000) >>> n &&& mask) &&& ((c &&& 0xFFFFFFFF) >>> n &&& mask)
          = ((c &&& 0xFFFFFFFF00000000) >>> n &&& (c &&& 0xFFFFFFFF) >>> n) &&& (mask &&& mask) := by
            ac_rfl
        _ = 0 := by rw [← BitVec.ushiftRight_and_distrib, apart]; simp
    calc (c &&& 0xFFFFFFFF00000000) >>> n &&& mask
        = ((c &&& 0xFFFFFFFF00000000) >>> n &&& mask) &&& (((c &&& 0xFFFFFFFF) >>> n &&& mask) |||
            ((c &&& 0xFFFFFFFF00000000) >>> n &&& mask)) := by
          rw [BitVec.and_or_distrib_left, none]
          simp
      _ = 0 := by rw [← split, same, none]
  · intro none
    rw [split, none]
    simp

namespace HealthMonitor

variable {m : HealthMonitor} {w : RegisterWidth}

/-- The conditions around the shift and the mask make a difference only for a mask of zero. -/
theorem value_eq (contents : Word) : m.value contents =
    m.bitsRead contents >>> (m.shift.toNat % 64) &&&
      (if m.mask ≠ 0 then m.mask else BitVec.allOnes 64) := by
  have shifted : (if m.shift ≠ 0 then m.bitsRead contents >>> (m.shift.toNat % 64)
      else m.bitsRead contents) = m.bitsRead contents >>> (m.shift.toNat % 64) := by
    split
    · rfl
    · next none =>
      have zero : m.shift = 0 := not_not.mp none
      simp [zero]
  rw [value]
  simp only [shifted]
  split
  · rfl
  · rw [BitVec.and_allOnes]

theorem value_eq_defined_iff (contents : Word) :
    m.value contents = m.defined w contents ↔ m.ReadsRegister w contents := by
  rw [value_eq, defined, ReadsRegister]
  by_cases plain : m.shift.toNat < 64 ∧ m.mask ≠ 0
  · rw [if_pos plain, if_pos plain.2, Nat.mod_eq_of_lt plain.1, bitsRead]
    have half := shifted_low_eq_iff contents m.mask m.shift.toNat
    cases w with
    | w32 =>
      by_cases wide : m.mask > 0xFFFFFFFF
      · have other : ¬(m.mask > 0xFFFFFFFF ↔ RegisterWidth.w32 = .w64) := fun same =>
          absurd (same.mp wide) (by decide)
        rw [if_pos wide, or_iff_right other]
        exact half
      · rw [if_neg wide]
        exact iff_of_true rfl (.inl (iff_of_false wide (by decide)))
    | w64 =>
      by_cases wide : m.mask > 0xFFFFFFFF
      · rw [if_pos wide]
        exact iff_of_true rfl (.inl (iff_of_true wide rfl))
      · have other : ¬(m.mask > 0xFFFFFFFF ↔ RegisterWidth.w64 = .w64) := fun same => wide (same.mpr rfl)
        rw [if_neg wide, or_iff_right other]
        exact eq_comm.trans half
  · rw [if_neg plain]
    have nothing : w.register contents >>> m.shift.toNat &&& m.mask = 0 := by
      by_cases far : m.shift.toNat < 64
      · have none : m.mask = 0 := by
          by_contra some
          exact plain ⟨far, some⟩
        simp [none]
      · rw [BitVec.ushiftRight_eq_zero (by omega)]
        simp
    rw [nothing]

/-! ### The record of the samples -/

/-- What the handler records of the samples, the newest first. -/
def Recorded (m : HealthMonitor) : List HealthSample → Prop
  | [] => True
  | sample :: before => sample.value = m.value sample.contents ∧
      (m.checkType = .changedSinceLast → (sample.fired = true ↔
        before ≠ [] ∧ m.value sample.contents ≠ m.stored (before.map HealthSample.contents))) ∧
      m.Recorded before

/-- What holds of a status between the turns. -/
structure Kept (m : HealthMonitor) (status : HealthMonitorStatus) : Prop where
  recorded : m.Recorded status.history
  counts : status.count = BitVec.ofNat 64 (status.history.countP HealthSample.fired)
  initialized : m.checkType = .changedSinceLast → (status.initialized = true ↔ status.history ≠ [])
  lastValue : m.checkType = .changedSinceLast →
    status.lastValue.setWidth 64 = m.stored (status.history.map HealthSample.contents)

theorem kept_init (m : HealthMonitor) : m.Kept .init :=
  ⟨trivial, rfl, fun _ => by simp [HealthMonitorStatus.init], fun _ => rfl⟩

theorem low_setWidth (value : Word) : (value.setWidth 32).setWidth 64 = value &&& 0xFFFFFFFF := by
  apply BitVec.eq_of_toNat_eq
  have mask : (0xFFFFFFFF : Word).toNat = 2 ^ 32 - 1 := by decide
  rw [BitVec.toNat_and, mask, Nat.and_two_pow_sub_one_eq_mod, BitVec.toNat_setWidth,
    BitVec.toNat_setWidth]
  omega

theorem check_snd (status : HealthMonitorStatus) (value : Word) : (m.check status value).2 =
    { status with initialized := status.initialized || decide (m.checkType = .changedSinceLast) } := by
  cases h : m.checkType <;> simp [check, h]
  split
  · next initialized => simp [← initialized]
  · rfl

theorem check_changed {status : HealthMonitorStatus} (changed : m.checkType = .changedSinceLast)
    (value : Word) : (m.check status value).1 =
      (status.initialized && decide (value ≠ status.lastValue.setWidth 64)) := by
  rw [check, changed]
  by_cases initialized : status.initialized = true
  · simp [initialized]
  · simp [initialized]

theorem fires_changed (status : HealthMonitorStatus) (changed : m.checkType = .changedSinceLast)
    (value : Word) : m.fires status value = true ↔
      status.initialized = true ∧ value ≠ status.lastValue.setWidth 64 := by
  rw [fires, check_changed changed]
  simp only [Bool.and_eq_true, decide_eq_true_eq]
  tauto

/-- What a turn that takes a sample makes of a status. -/
theorem turn_elapsed {oneSec : Word} {input : HealthInput} {status : HealthMonitorStatus}
    (elapsed : hssTimerIsElapsed input.now status.throttleStartTime
      (m.throttleScale.setWidth 64 * oneSec) = true) :
    (m.turn oneSec input status).history =
        ⟨input.contents, m.value input.contents, m.fires status (m.value input.contents)⟩ ::
          status.history ∧
      (m.turn oneSec input status).count =
        (if m.fires status (m.value input.contents) then status.count + 1 else status.count) ∧
      (m.turn oneSec input status).initialized =
        (status.initialized || decide (m.checkType = .changedSinceLast)) ∧
      (m.turn oneSec input status).lastValue =
        if m.fires status (m.value input.contents) then (m.value input.contents).setWidth 32
        else status.lastValue := by
  rw [turn, if_pos elapsed]
  simp only [check_snd]
  cases m.fires status (m.value input.contents) with
  | true => simp
  | false => simp

theorem turn_not_elapsed {oneSec : Word} {input : HealthInput} {status : HealthMonitorStatus}
    (elapsed : ¬hssTimerIsElapsed input.now status.throttleStartTime
      (m.throttleScale.setWidth 64 * oneSec) = true) : m.turn oneSec input status = status := by
  rw [turn, if_neg elapsed]

/-- A turn keeps it. -/
theorem Kept.turn {status : HealthMonitorStatus} (kept : m.Kept status) (oneSec : Word)
    (input : HealthInput) : m.Kept (m.turn oneSec input status) := by
  by_cases elapsed : hssTimerIsElapsed input.now status.throttleStartTime
      (m.throttleScale.setWidth 64 * oneSec) = true
  · obtain ⟨history, count, initialized, lastValue⟩ := turn_elapsed (m := m) elapsed
    constructor
    · rw [history]
      refine ⟨rfl, fun changed => ?_, kept.recorded⟩
      rw [fires_changed _ changed, kept.initialized changed, kept.lastValue changed]
    · rw [history, count, List.countP_cons, kept.counts]
      cases m.fires status (m.value input.contents) with
      | false => simp
      | true => simp [BitVec.ofNat_add]
    · intro changed
      rw [history, initialized]
      simp [changed]
    · intro changed
      have fires := fires_changed status changed (m.value input.contents)
      have initialized := kept.initialized changed
      have stored := kept.lastValue changed
      rw [history, lastValue, List.map_cons]
      cases earlier : status.history with
      | nil =>
        have first : ¬m.fires status (m.value input.contents) = true := by
          rw [fires, initialized, earlier]
          simp
        rw [if_neg first, stored, earlier]
        rfl
      | cons previous before =>
        rw [List.map_cons, HealthMonitor.stored]
        split
        · exact low_setWidth _
        · next same =>
          have equal : m.value input.contents = status.lastValue.setWidth 64 := by
            by_contra differ
            exact same (fires.mpr ⟨initialized.mpr (by simp [earlier]), differ⟩)
          rw [equal, ← low_setWidth]
          simp
  · rw [turn_not_elapsed elapsed]
    exact kept

/-- The samples are faithful just when they are exact. -/
theorem Recorded.faithful_iff {history : List HealthSample} (recorded : m.Recorded history) :
    m.Faithful w history ↔ m.SamplesExact w (history.map HealthSample.contents) := by
  induction history with
  | nil => exact Iff.rfl
  | cons sample before ih =>
    obtain ⟨value, fires, recorded⟩ := recorded
    rw [Faithful, List.map_cons, SamplesExact, ih recorded, value, value_eq_defined_iff]
    refine and_congr_right fun reads => and_congr_left fun exact => ?_
    refine forall_congr' fun changed => ?_
    rw [fires changed, ← (value_eq_defined_iff _).mpr reads]
    cases before with
    | nil => simp
    | cons previous before =>
      have reads' : m.ReadsRegister w previous.contents := exact.1
      have same := (value_eq_defined_iff _).mpr reads'
      simp only [List.map_cons, List.head?_cons, Option.mem_def, Option.some.injEq, exists_eq_left',
        forall_eq', ← same]
      generalize m.stored _ = stored
      rw [and_iff_right (List.cons_ne_nil _ _)]
      by_cases kept : m.value previous.contents = stored
      · rw [kept]
        exact iff_of_true Iff.rfl (.inl rfl)
      · rw [or_iff_right kept]
        constructor
        · intro agree
          by_cases unchanged : m.value sample.contents = m.value previous.contents
          · exact absurd unchanged (agree.mp (unchanged ▸ kept))
          · exact ⟨unchanged, agree.mpr unchanged⟩
        · rintro ⟨changed, differs⟩
          exact iff_of_true differs changed

end HealthMonitor

/-! ### Runs -/

section

variable (oneSec : Word) (monitors : List HealthMonitor)

theorem healthmonTurn_self {i : ℕ} {m : HealthMonitor} (monitor : monitors[i]? = some m)
    (inputs : ℕ → HealthInput) (status : ℕ → HealthMonitorStatus) :
    healthmonTurn oneSec monitors inputs status i i = m.turn oneSec (inputs i) (status i) := by
  simp [healthmonTurn, monitor]

theorem healthmonTurn_of_ne {i j : ℕ} (ne : i ≠ j) (inputs : ℕ → HealthInput)
    (status : ℕ → HealthMonitorStatus) :
    healthmonTurn oneSec monitors inputs status j i = status i := by
  rw [healthmonTurn]
  cases monitors[j]? with
  | none => rfl
  | some m => exact Function.update_of_ne ne _ _

/-- The turns of the other monitors leave a status as it is. -/
theorem foldl_healthmonTurn {i : ℕ} {m : HealthMonitor} (monitor : monitors[i]? = some m)
    (inputs : ℕ → HealthInput) (status : ℕ → HealthMonitorStatus) (count : ℕ) :
    (List.range count).foldl (healthmonTurn oneSec monitors inputs) status i =
      if i < count then m.turn oneSec (inputs i) (status i) else status i := by
  induction count with
  | zero => simp
  | succ count ih =>
    rw [List.range_succ, List.foldl_append, List.foldl_cons, List.foldl_nil]
    by_cases last : i = count
    · subst last
      rw [healthmonTurn_self oneSec monitors monitor, ih, if_neg (lt_irrefl i),
        if_pos (Nat.lt_succ_self i)]
    · rw [healthmonTurn_of_ne oneSec monitors last, ih]
      have same : i < count + 1 ↔ i < count := by omega
      simp only [same]

theorem healthmonMonitoringHandler_apply {i : ℕ} {m : HealthMonitor}
    (monitor : monitors[i]? = some m) (status : ℕ → HealthMonitorStatus) (inputs : ℕ → HealthInput) :
    healthmonMonitoringHandler oneSec monitors status inputs i =
      m.turn oneSec (inputs i) (status i) := by
  obtain ⟨inside, -⟩ := List.getElem?_eq_some_iff.mp monitor
  rw [healthmonMonitoringHandler, foldl_healthmonTurn oneSec monitors monitor, if_pos inside]

/-- What holds of a status between the turns holds of it after every run. -/
theorem healthmonRun_kept {i : ℕ} {m : HealthMonitor} (monitor : monitors[i]? = some m)
    (calls : List (ℕ → HealthInput)) : m.Kept (healthmonRun oneSec monitors calls i) := by
  induction calls using List.reverseRecOn with
  | nil => exact m.kept_init
  | append_singleton calls inputs ih =>
    rw [healthmonRun, List.foldl_append, List.foldl_cons, List.foldl_nil,
      healthmonMonitoringHandler_apply oneSec monitors monitor]
    exact ih.turn oneSec (inputs i)

/-- A monitor does what it defines just for exact samples. -/
theorem healthmon_reports_iff (calls : List (ℕ → HealthInput)) (i : Fin monitors.length)
    (w : RegisterWidth) :
    monitors[i].Reports w (healthmonRun oneSec monitors calls i) ↔
      monitors[i].SamplesExact w
        ((healthmonRun oneSec monitors calls i).history.map HealthSample.contents) := by
  have kept := healthmonRun_kept oneSec monitors (List.getElem?_eq_getElem i.isLt) calls
  constructor
  · intro reports
    exact kept.recorded.faithful_iff.mp reports.faithful
  · intro exact
    exact ⟨kept.recorded.faithful_iff.mpr exact, kept.counts⟩

end

/-- The monitor `L2:Config:ECCDataFailCount`. -/
def eccDataFailCount : HealthMonitor where
  checkType := .changedSinceLast
  maxValue := 0
  minValue := 0
  shift := 0
  mask := 0xFFFFFFFFFFFFFFFF
  throttleScale := 1

/-- Two calls, a second apart, that find five in the register. -/
def twiceFive : List (ℕ → HealthInput) :=
  [fun _ => ⟨0x2000000, 5, 0x2000001⟩, fun _ => ⟨0x3000000, 5, 0x3000001⟩]

/-- A count that stands at five from the start is reported as changed. -/
theorem unchanged_fires :
    ¬eccDataFailCount.Reports .w64 (healthmonRun 1000000 [eccDataFailCount] twiceFive 0) := by
  rintro ⟨faithful, -⟩
  have samples : (healthmonRun 1000000 [eccDataFailCount] twiceFive 0).history =
      [⟨5, 5, true⟩, ⟨5, 5, false⟩] := by decide
  rw [samples] at faithful
  obtain ⟨-, changes, -⟩ := faithful
  obtain ⟨previous, first, changed⟩ := (changes rfl).mp rfl
  cases first
  exact changed rfl

end Hss
