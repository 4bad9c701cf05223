import Hss.Lib.Runs
import Hss.Boot.Image

/-! The telemetry mailbox: the application harts post requests in one record, and the monitor hart
fills the buffer of the request that it finds there. -/

namespace Hss

open Runs

/-! ### The ecalls -/

/-- `enum sbi_tm_ext_cmd`, the commands that ask for data -/
inductive TmExtCmd
  | concise | verbose
  deriving DecidableEq, Repr

def TmExtCmd.num : TmExtCmd → BitVec 32
  | .concise => 0
  | .verbose => 1

/-- An ecall in `__get_tm_data`.  `id` tells the ecalls apart; no code reads it. -/
structure TmEcall where
  id : ℕ
  extArgs : TmExtCmd
  mem : Word
  startTime : Word
  posted : Bool
  deriving DecidableEq, Repr

/-- The telemetry service and the ecalls that are under way.  `poster` is the ecall that wrote the
request record; no code reads it and `nextId`. -/
structure Telemetry where
  mem : Mem
  requestFromSbiEcall : Bool
  sbiEcallReservedDdrBuf : Word
  sbiEcallVerbose : BitVec 32
  requestFromCli : Bool
  publishBootSucceededPending : Bool
  tmTicks : Word
  ecalls : U54 → Option TmEcall
  poster : ℕ
  nextId : ℕ

def Telemetry.setEcall (s : Telemetry) (hart : U54) (ecall : Option TmEcall) : Telemetry :=
  { s with ecalls := Function.update s.ecalls hart ecall }

/-- `set_request_from_sbi_ecall`, by an ecall -/
def setRequestFromSbiEcall (ecall : TmEcall) (s : Telemetry) : Telemetry :=
  { s with
    requestFromSbiEcall := true
    sbiEcallReservedDdrBuf := ecall.mem
    sbiEcallVerbose := ecall.extArgs.num
    poster := ecall.id }

/-- `clear_request_from_sbi_ecall` -/
def clearRequestFromSbiEcall (s : Telemetry) : Telemetry :=
  { s with requestFromSbiEcall := false, sbiEcallReservedDdrBuf := 0, sbiEcallVerbose := 0 }

/-- `memcpy` of `bytes` to `dest` -/
def writeBytes (mem : Mem) (dest : Word) (bytes : List (BitVec 8)) : Mem :=
  fun a => bytes.getD (a - dest).toNat (mem a)

/-- The number of bytes from `p` on before one that is zero, among the first `n`. -/
def strlenBelow (mem : Mem) (p : Word) : ℕ → ℕ
  | 0 => 0
  | n + 1 => if mem p = 0 then 0 else strlenBelow mem (p + 1) n + 1

/-- `strlen` -/
def strlen (mem : Mem) (p : Word) : ℕ := strlenBelow mem p (2 ^ 64)

/-- `sizeof(struct telemetry_data)` -/
def sizeOfTelemetryData : ℕ := 168

/-- `*out`, for an ecall that found that its request was `answered` -/
def TmEcall.out (ecall : TmEcall) (mem : Mem) (answered : Bool) : ℕ :=
  if answered then
    match ecall.extArgs with
    | .verbose => strlen mem ecall.mem + 1
    | .concise => sizeOfTelemetryData
  else 0

/-- One turn of the loop of `__get_tm_data`: whether the ecall returns `SBI_OK` (or `SBI_EFAIL`) and
`*out`, if it is the last. -/
def TmEcall.turn (cfg : Config) (ecall : TmEcall) (now : Word) (s : Telemetry) : Option (Bool × ℕ) :=
  let status := s.requestFromSbiEcall
  if cfg.oneSec < now - ecall.startTime || !status then some (!status, ecall.out s.mem !status)
  else none

/-- What the monitor's sensors give for one print: the text, which ends with a zero, and the bytes of
`struct telemetry_data`. -/
structure TmPrint where
  text : List (BitVec 8)
  data : List (BitVec 8)

/-- What `tm_monitoring_handler` copies for a request. -/
def TmPrint.bytes (print : TmPrint) : TmExtCmd → List (BitVec 8)
  | .verbose => print.text
  | .concise => print.data

/-- The end of `tm_monitoring_handler`: the pending request of an ecall is served. -/
def serveRequest (print : TmPrint) (s : Telemetry) : Telemetry :=
  if s.requestFromSbiEcall then
    let bytes := if s.sbiEcallVerbose ≠ 0 then print.text else print.data
    clearRequestFromSbiEcall { s with mem := writeBytes s.mem s.sbiEcallReservedDdrBuf bytes }
  else s

/-- `tm_monitoring_handler`: the request of an ecall is served after those of the timer and of the
command line, whose prints go to the console. -/
def tmMonitoringHandler (cfg : Config) (debugTimeoutSec : ℕ) (ticks laterTicks : Word)
    (print : TmPrint) (s : Telemetry) : Telemetry :=
  let ticksPerMillisec := cfg.oneSec.toNat / 1000
  let msecs := ((ticks - s.tmTicks).toNat + ticksPerMillisec / 2) / ticksPerMillisec
  let s := { s with publishBootSucceededPending := false }
  let s :=
    if debugTimeoutSec ≠ 0 ∧ debugTimeoutSec * 1000 < msecs then { s with tmTicks := laterTicks }
    else s
  serveRequest print { s with requestFromCli := false }

/-- The steps of the ecalls and of the monitor, and what the harts do besides. -/
inductive TmEvent
  /-- An ecall is made: `start_time` is read. -/
  | enter (hart : U54) (extArgs : TmExtCmd) (mem : Word) (now : Word)
  /-- The ecall posts its request. -/
  | post (hart : U54)
  /-- One turn of the loop of the ecall, which may be the last. -/
  | poll (hart : U54) (now : Word)
  /-- The monitor hart runs the handler of its machine. -/
  | monitor (ticks laterTicks : Word) (print : TmPrint)
  /-- The harts write to memory. -/
  | store (mem : Mem)
  /-- The command line asks for a print. -/
  | cli

/-- A step, if the hart is where the step is taken. -/
def tmNext (cfg : Config) (debugTimeoutSec : ℕ) (s : Telemetry) : TmEvent → Except Unit Telemetry
  | .enter hart extArgs mem now =>
    match s.ecalls hart with
    | none => .ok { s.setEcall hart (some ⟨s.nextId, extArgs, mem, now, false⟩) with
        nextId := s.nextId + 1 }
    | some _ => .error ()
  | .post hart =>
    match s.ecalls hart with
    | some ecall =>
      if ecall.posted then .error ()
      else .ok (setRequestFromSbiEcall ecall (s.setEcall hart (some { ecall with posted := true })))
    | none => .error ()
  | .poll hart now =>
    match s.ecalls hart with
    | some ecall =>
      if ecall.posted then
        match ecall.turn cfg now s with
        | some _ => .ok (s.setEcall hart none)
        | none => .ok s
      else .error ()
    | none => .error ()
  | .monitor ticks laterTicks print =>
    .ok (tmMonitoringHandler cfg debugTimeoutSec ticks laterTicks print s)
  | .store mem => .ok { s with mem }
  | .cli => .ok { s with requestFromCli := true }

/-- The service after `tm_init_handler`. -/
def Telemetry.init (mem : Mem) (tmTicks : Word) : Telemetry where
  mem := mem
  requestFromSbiEcall := false
  sbiEcallReservedDdrBuf := 0
  sbiEcallVerbose := 0
  requestFromCli := false
  publishBootSucceededPending := false
  tmTicks := tmTicks
  ecalls := fun _ => none
  poster := 0
  nextId := 0

/-- The steps of the service. -/
def tmStep (cfg : Config) (debugTimeoutSec : ℕ) (s : Telemetry) (event : TmEvent) (t : Telemetry) :
    Prop := tmNext cfg debugTimeoutSec s event = .ok t

/-! ### The mailbox is safe -/

/-- The request of `ecall`, which waits on `hart`, is pending in `s`, and between `s` and `t` the
buffer of the ecall, and nothing else, is written, with `print` in the format that it asks for. -/
structure FilledFor (hart : U54) (ecall : TmEcall) (print : TmPrint) (s t : Telemetry) : Prop where
  waits : s.ecalls hart = some ecall ∧ ecall.posted = true
  pending : s.requestFromSbiEcall = true ∧ s.poster = ecall.id
  filled : t.mem = writeBytes s.mem ecall.mem (print.bytes ecall.extArgs)

/-- Between `s` and `t` memory changes in the buffers of ecalls other than that with `id` only, which
wait for their answer in `s`. -/
def SparesEcall (id : ℕ) (print : TmPrint) (s t : Telemetry) : Prop :=
  ∀ a, t.mem a ≠ s.mem a → ∃ hart ecall, s.ecalls hart = some ecall ∧ ecall.posted = true ∧
    ecall.id ≠ id ∧ (a - ecall.mem).toNat < (print.bytes ecall.extArgs).length

/-- In the run of `events` the monitor answered the request of `ecall`. -/
def Answered (cfg : Config) (debugTimeoutSec : ℕ) (start : Telemetry) (events : List TmEvent)
    (hart : U54) (ecall : TmEcall) : Prop :=
  ∃ before s ticks laterTicks print t,
    Occurs (tmStep cfg debugTimeoutSec) start events before s (.monitor ticks laterTicks print) t ∧
      FilledFor hart ecall print s t

/-- What callers rely on in the run of `events`. -/
structure MailboxSafe (cfg : Config) (debugTimeoutSec : ℕ) (start : Telemetry)
    (events : List TmEvent) : Prop where
  /-- An ecall that returns `SBI_OK` was answered. -/
  ok : ∀ before s hart now t ecall out,
    Occurs (tmStep cfg debugTimeoutSec) start events before s (.poll hart now) t →
    s.ecalls hart = some ecall → ecall.turn cfg now s = some (true, out) →
    Answered cfg debugTimeoutSec start before hart ecall
  /-- Once an ecall has failed, the monitor writes nothing for it. -/
  failed : ∀ before s hart now t ecall out,
    Occurs (tmStep cfg debugTimeoutSec) start events before s (.poll hart now) t →
    s.ecalls hart = some ecall → ecall.turn cfg now s = some (false, out) →
    ∀ since u ticks laterTicks print v,
      Occurs (tmStep cfg debugTimeoutSec) start events (before ++ .poll hart now :: since) u
        (.monitor ticks laterTicks print) v → SparesEcall ecall.id print u v

/-- The condition on a step.  A request is posted when none is pending, and an ecall does not give up
while its own request is pending. -/
def MailboxStep (cfg : Config) (s : Telemetry) : TmEvent → Prop
  | .post _ => s.requestFromSbiEcall = false
  | .poll hart now => ∀ ecall ∈ s.ecalls hart,
      cfg.oneSec < now - ecall.startTime → s.requestFromSbiEcall = true → s.poster ≠ ecall.id
  | _ => True

instance (cfg : Config) (s : Telemetry) : ∀ event, Decidable (MailboxStep cfg s event)
  | .post _ => inferInstanceAs (Decidable (_ = _))
  | .poll hart now => inferInstanceAs (Decidable (∀ ecall ∈ s.ecalls hart,
      cfg.oneSec < now - ecall.startTime → s.requestFromSbiEcall = true → s.poster ≠ ecall.id))
  | .enter .. => .isTrue trivial
  | .monitor .. => .isTrue trivial
  | .store _ => .isTrue trivial
  | .cli => .isTrue trivial

/-- The pending request is that of an ecall under way, with its buffer and its format. -/
structure MailboxInv (s : Telemetry) : Prop where
  fresh : ∀ hart ecall, s.ecalls hart = some ecall → ecall.id < s.nextId
  distinct : ∀ hart hart' ecall ecall', s.ecalls hart = some ecall →
    s.ecalls hart' = some ecall' → ecall.id = ecall'.id → hart = hart'
  pending : s.requestFromSbiEcall = true → ∃ hart ecall, s.ecalls hart = some ecall ∧
    ecall.posted = true ∧ ecall.id = s.poster ∧ s.sbiEcallReservedDdrBuf = ecall.mem ∧
    s.sbiEcallVerbose = ecall.extArgs.num

/-- Each ecall that waits has its request pending or was answered. -/
def Waiting (cfg : Config) (debugTimeoutSec : ℕ) (start : Telemetry) (events : List TmEvent)
    (s : Telemetry) : Prop :=
  ∀ hart ecall, s.ecalls hart = some ecall → ecall.posted = true →
    (s.requestFromSbiEcall = true ∧ s.poster = ecall.id) ∨
      Answered cfg debugTimeoutSec start events hart ecall

/-- The ecall with `id` has returned. -/
def Gone (id : ℕ) (s : Telemetry) : Prop :=
  id < s.nextId ∧ ∀ hart ecall, s.ecalls hart = some ecall → ecall.id ≠ id

variable {cfg : Config} {debugTimeoutSec : ℕ} {start s t : Telemetry} {events : List TmEvent}
  {id : ℕ}

theorem tmStep_functional {t' : Telemetry} {event : TmEvent}
    (step : tmStep cfg debugTimeoutSec s event t) (step' : tmStep cfg debugTimeoutSec s event t') :
    t = t' :=
  Except.ok.inj (step.symm.trans step')

theorem tmRun_unique {t : Telemetry} (run : Run (tmStep cfg debugTimeoutSec) start events s)
    (run' : Run (tmStep cfg debugTimeoutSec) start events t) : s = t :=
  run.unique run' fun _ _ _ _ step step' => tmStep_functional step step'

theorem mailboxInv_init (mem : Mem) (tmTicks : Word) : MailboxInv (.init mem tmTicks) :=
  ⟨nofun, nofun, nofun⟩

theorem setEcall_cases {hart hart' : U54} {new : Option TmEcall} {ecall : TmEcall}
    (here : (s.setEcall hart new).ecalls hart' = some ecall) :
    (hart' ≠ hart ∧ s.ecalls hart' = some ecall) ∨ hart' = hart ∧ new = some ecall := by
  simp only [Telemetry.setEcall] at here
  by_cases same : hart' = hart
  · rw [same, Function.update_self] at here
    exact .inr ⟨same, here⟩
  · rw [Function.update_of_ne same] at here
    exact .inl ⟨same, here⟩

theorem setEcall_of_ne {hart hart' : U54} (other : hart' ≠ hart) (new : Option TmEcall) :
    (s.setEcall hart new).ecalls hart' = s.ecalls hart' := Function.update_of_ne other ..

/-! ### What a step can do -/

theorem enter_cases {hart : U54} {extArgs : TmExtCmd} {mem now : Word}
    (step : tmStep cfg debugTimeoutSec s (.enter hart extArgs mem now) t) :
    s.ecalls hart = none ∧ t = { s.setEcall hart (some ⟨s.nextId, extArgs, mem, now, false⟩) with
      nextId := s.nextId + 1 } := by
  simp only [tmStep, tmNext] at step
  split at step
  · next idle => exact ⟨idle, (Except.ok.inj step).symm⟩
  · cases step

theorem post_cases {hart : U54} (step : tmStep cfg debugTimeoutSec s (.post hart) t) :
    ∃ ecall, s.ecalls hart = some ecall ∧ t =
      setRequestFromSbiEcall ecall (s.setEcall hart (some { ecall with posted := true })) := by
  simp only [tmStep, tmNext] at step
  split at step
  · next ecall here =>
    split at step
    · cases step
    · exact ⟨ecall, here, (Except.ok.inj step).symm⟩
  · cases step

theorem poll_cases {hart : U54} {now : Word}
    (step : tmStep cfg debugTimeoutSec s (.poll hart now) t) :
    ∃ ecall, s.ecalls hart = some ecall ∧ ecall.posted = true ∧
      ((∃ result, ecall.turn cfg now s = some result ∧ t = s.setEcall hart none) ∨
        ecall.turn cfg now s = none ∧ t = s) := by
  simp only [tmStep, tmNext] at step
  split at step
  · next ecall here =>
    split at step
    · next posted =>
      refine ⟨ecall, here, posted, ?_⟩
      split at step
      · next result last => exact .inl ⟨result, last, (Except.ok.inj step).symm⟩
      · next more => exact .inr ⟨more, (Except.ok.inj step).symm⟩
    · cases step
  · cases step

/-- The monitor keeps the ecalls, and writes to memory for the request that is pending. -/
theorem monitor_cases {ticks laterTicks : Word} {print : TmPrint}
    (step : tmStep cfg debugTimeoutSec s (.monitor ticks laterTicks print) t) :
    t.ecalls = s.ecalls ∧ t.nextId = s.nextId ∧ t.requestFromSbiEcall = false ∧
      t.mem = if s.requestFromSbiEcall then writeBytes s.mem s.sbiEcallReservedDdrBuf
        (if s.sbiEcallVerbose ≠ 0 then print.text else print.data) else s.mem := by
  cases step
  simp only [tmMonitoringHandler, serveRequest]
  cases pending : s.requestFromSbiEcall <;> split <;>
    simp [clearRequestFromSbiEcall]

theorem bytes_eq (print : TmPrint) (extArgs : TmExtCmd) :
    (if extArgs.num ≠ 0 then print.text else print.data) = print.bytes extArgs := by
  cases extArgs <;> rfl

/-! ### Every step keeps the invariant -/

theorem MailboxInv.enter (h : MailboxInv s) {hart : U54} {extArgs : TmExtCmd} {mem now : Word}
    (step : tmStep cfg debugTimeoutSec s (.enter hart extArgs mem now) t) : MailboxInv t := by
  obtain ⟨idle, rfl⟩ := enter_cases step
  refine ⟨fun hart' ecall here => ?_, fun h1 h2 e1 e2 here1 here2 same => ?_, fun request => ?_⟩
  · rcases setEcall_cases here with ⟨-, old⟩ | ⟨-, new⟩
    · exact Nat.lt_succ_of_lt (h.fresh hart' ecall old)
    · cases new
      exact Nat.lt_succ_self _
  · rcases setEcall_cases here1 with ⟨-, old1⟩ | ⟨rfl, new1⟩ <;>
      rcases setEcall_cases here2 with ⟨-, old2⟩ | ⟨rfl, new2⟩
    · exact h.distinct h1 h2 e1 e2 old1 old2 same
    · cases new2
      exact absurd same (h.fresh h1 e1 old1).ne
    · cases new1
      exact absurd same.symm (h.fresh h2 e2 old2).ne
    · rfl
  · obtain ⟨hart', ecall, here, rest⟩ := h.pending request
    refine ⟨hart', ecall, ?_, rest⟩
    have other : hart' ≠ hart := fun same => by
      rw [same, idle] at here
      cases here
    exact (setEcall_of_ne other _).trans here

theorem MailboxInv.post (h : MailboxInv s) {hart : U54}
    (step : tmStep cfg debugTimeoutSec s (.post hart) t) : MailboxInv t := by
  obtain ⟨ecall, here, rfl⟩ := post_cases step
  have old : ∀ hart' ecall', (s.setEcall hart (some { ecall with posted := true })).ecalls hart' =
      some ecall' → ∃ ecall₀, s.ecalls hart' = some ecall₀ ∧ ecall₀.id = ecall'.id := by
    intro hart' ecall' here'
    rcases setEcall_cases here' with ⟨-, before⟩ | ⟨rfl, new⟩
    · exact ⟨ecall', before, rfl⟩
    · cases new
      exact ⟨ecall, here, rfl⟩
  refine ⟨fun hart' ecall' here' => ?_, fun h1 h2 e1 e2 here1 here2 same => ?_, fun _ => ?_⟩
  · obtain ⟨ecall₀, before, same⟩ := old hart' ecall' here'
    exact same ▸ h.fresh hart' ecall₀ before
  · obtain ⟨e1', before1, same1⟩ := old h1 e1 here1
    obtain ⟨e2', before2, same2⟩ := old h2 e2 here2
    exact h.distinct h1 h2 e1' e2' before1 before2 (same1.trans (same.trans same2.symm))
  · exact ⟨hart, { ecall with posted := true }, Function.update_self .., rfl, rfl, rfl, rfl⟩

/-- A turn of the loop of an ecall, which does not give up while its request is pending. -/
theorem MailboxInv.poll (h : MailboxInv s) {hart : U54} {now : Word}
    (patient : MailboxStep cfg s (.poll hart now))
    (step : tmStep cfg debugTimeoutSec s (.poll hart now) t) : MailboxInv t := by
  obtain ⟨ecall, here, -, ⟨result, last, rfl⟩ | ⟨-, rfl⟩⟩ := poll_cases step
  · have before : ∀ hart' ecall', (s.setEcall hart none).ecalls hart' = some ecall' →
        s.ecalls hart' = some ecall' := by
      intro hart' ecall' here'
      rcases setEcall_cases here' with ⟨-, before⟩ | ⟨-, new⟩
      · exact before
      · cases new
    refine ⟨fun hart' ecall' here' => h.fresh hart' ecall' (before hart' ecall' here'),
      fun h1 h2 e1 e2 here1 here2 => h.distinct h1 h2 e1 e2 (before h1 e1 here1) (before h2 e2 here2),
      fun request => ?_⟩
    -- the ecall gave up, so the pending request is that of another one
    change s.requestFromSbiEcall = true at request
    obtain ⟨hart', ecall', here', posted', poster, rest⟩ := h.pending request
    have elapsed : cfg.oneSec < now - ecall.startTime := by
      by_contra early
      simp [TmEcall.turn, request, early] at last
    refine ⟨hart', ecall', ?_, posted', poster, rest⟩
    have other : hart' ≠ hart := fun same => by
      subst same
      rw [here] at here'
      cases here'
      exact patient ecall here elapsed request poster.symm
    exact (setEcall_of_ne other _).trans here'
  · exact h

theorem MailboxInv.step (h : MailboxInv s) {event : TmEvent} (safe : MailboxStep cfg s event)
    (step : tmStep cfg debugTimeoutSec s event t) : MailboxInv t := by
  cases event with
  | enter hart extArgs mem now => exact h.enter step
  | post hart => exact h.post step
  | poll hart now => exact h.poll safe step
  | monitor ticks laterTicks print =>
    obtain ⟨ecalls, nextId, served, -⟩ := monitor_cases step
    refine ⟨by rw [ecalls, nextId]; exact h.fresh, by rw [ecalls]; exact h.distinct, fun pending => ?_⟩
    rw [served] at pending
    cases pending
  | store mem =>
    cases step
    exact ⟨h.fresh, h.distinct, h.pending⟩
  | cli =>
    cases step
    exact ⟨h.fresh, h.distinct, h.pending⟩

theorem Gone.step (gone : Gone id s) {event : TmEvent}
    (step : tmStep cfg debugTimeoutSec s event t) : Gone id t := by
  obtain ⟨less, none⟩ := gone
  cases event with
  | enter hart extArgs mem now =>
    obtain ⟨-, rfl⟩ := enter_cases step
    refine ⟨Nat.lt_succ_of_lt less, fun hart' ecall here => ?_⟩
    rcases setEcall_cases here with ⟨-, old⟩ | ⟨-, new⟩
    · exact none hart' ecall old
    · cases new
      exact less.ne'
  | post hart =>
    obtain ⟨ecall, before, rfl⟩ := post_cases step
    refine ⟨less, fun hart' ecall' here => ?_⟩
    rcases setEcall_cases here with ⟨-, old⟩ | ⟨-, new⟩
    · exact none hart' ecall' old
    · cases new
      exact none hart ecall before
  | poll hart now =>
    obtain ⟨ecall, -, -, ⟨result, -, rfl⟩ | ⟨-, rfl⟩⟩ := poll_cases step
    · refine ⟨less, fun hart' ecall' here => ?_⟩
      rcases setEcall_cases here with ⟨-, old⟩ | ⟨-, new⟩
      · exact none hart' ecall' old
      · cases new
    · exact ⟨less, none⟩
  | monitor ticks laterTicks print =>
    obtain ⟨ecalls, nextId, -⟩ := monitor_cases step
    exact ⟨nextId ▸ less, ecalls ▸ none⟩
  | store mem =>
    cases step
    exact ⟨less, none⟩
  | cli =>
    cases step
    exact ⟨less, none⟩

/-! ### What the monitor writes -/

/-- The monitor writes the buffer of the ecall whose request is pending, if one is. -/
theorem MailboxInv.monitor (h : MailboxInv s) {ticks laterTicks : Word} {print : TmPrint}
    (step : tmStep cfg debugTimeoutSec s (.monitor ticks laterTicks print) t) :
    (s.requestFromSbiEcall = true ∧ ∃ hart ecall, FilledFor hart ecall print s t) ∨
      s.requestFromSbiEcall = false ∧ t.mem = s.mem := by
  obtain ⟨-, -, -, mem⟩ := monitor_cases step
  cases pending : s.requestFromSbiEcall with
  | true =>
    obtain ⟨hart, ecall, here, posted, poster, buffer, verbose⟩ := h.pending pending
    rw [pending, if_pos rfl, buffer, verbose, bytes_eq] at mem
    exact .inl ⟨rfl, hart, ecall, ⟨here, posted⟩, ⟨pending, poster.symm⟩, mem⟩
  | false =>
    rw [pending, if_neg (by decide)] at mem
    exact .inr ⟨rfl, mem⟩

theorem writeBytes_of_le {mem : Mem} {dest a : Word} {bytes : List (BitVec 8)}
    (outside : bytes.length ≤ (a - dest).toNat) : writeBytes mem dest bytes a = mem a := by
  rw [writeBytes, List.getD_eq_getElem?_getD, List.getElem?_eq_none outside, Option.getD_none]

theorem FilledFor.changes {hart : U54} {ecall : TmEcall} {print : TmPrint} {a : Word}
    (filled : FilledFor hart ecall print s t) (changed : t.mem a ≠ s.mem a) :
    (a - ecall.mem).toNat < (print.bytes ecall.extArgs).length := by
  by_contra outside
  rw [filled.filled, writeBytes_of_le (not_lt.mp outside)] at changed
  exact changed rfl

/-- What has returned is spared. -/
theorem MailboxInv.spares (h : MailboxInv s) (gone : Gone id s) {ticks laterTicks : Word}
    {print : TmPrint} (step : tmStep cfg debugTimeoutSec s (.monitor ticks laterTicks print) t) :
    SparesEcall id print s t := by
  intro a changed
  rcases h.monitor step with ⟨-, hart, ecall, filled⟩ | ⟨-, mem⟩
  · obtain ⟨here, posted⟩ := filled.waits
    exact ⟨hart, ecall, here, posted, gone.2 hart ecall here, filled.changes changed⟩
  · rw [mem] at changed
    exact absurd rfl changed

/-! ### Waiting for the answer -/

theorem Answered.append {hart : U54} {ecall : TmEcall}
    (answered : Answered cfg debugTimeoutSec start events hart ecall) (more : List TmEvent) :
    Answered cfg debugTimeoutSec start (events ++ more) hart ecall := by
  obtain ⟨before, s, ticks, laterTicks, print, t, taken, filled⟩ := answered
  exact ⟨before, s, ticks, laterTicks, print, t, taken.append more, filled⟩

theorem Waiting.step (waiting : Waiting cfg debugTimeoutSec start events s) (h : MailboxInv s)
    (run : Run (tmStep cfg debugTimeoutSec) start events s) {event : TmEvent}
    (safe : MailboxStep cfg s event) (step : tmStep cfg debugTimeoutSec s event t) :
    Waiting cfg debugTimeoutSec start (events ++ [event]) t := by
  intro hart' ecall' here' posted'
  -- an ecall that waits before and after the step, when no request is served or overwritten
  have old : s.ecalls hart' = some ecall' → t.requestFromSbiEcall = s.requestFromSbiEcall →
      t.poster = s.poster → (t.requestFromSbiEcall = true ∧ t.poster = ecall'.id) ∨
        Answered cfg debugTimeoutSec start (events ++ [event]) hart' ecall' := by
    intro before request poster
    rw [request, poster]
    exact (waiting hart' ecall' before posted').imp_right fun answered => answered.append [event]
  cases event with
  | enter hart extArgs mem now =>
    obtain ⟨-, rfl⟩ := enter_cases step
    rcases setEcall_cases here' with ⟨-, before⟩ | ⟨-, new⟩
    · exact old before rfl rfl
    · cases new
      cases posted'
  | post hart =>
    obtain ⟨ecall, -, rfl⟩ := post_cases step
    rcases setEcall_cases here' with ⟨-, before⟩ | ⟨-, new⟩
    · rcases waiting hart' ecall' before posted' with ⟨pending, -⟩ | answered
      · rw [show s.requestFromSbiEcall = false from safe] at pending
        cases pending
      · exact .inr (answered.append _)
    · cases new
      exact .inl ⟨rfl, rfl⟩
  | poll hart now =>
    obtain ⟨ecall, -, -, ⟨result, -, rfl⟩ | ⟨-, rfl⟩⟩ := poll_cases step
    · rcases setEcall_cases here' with ⟨-, before⟩ | ⟨-, new⟩
      · exact old before rfl rfl
      · cases new
    · exact old here' rfl rfl
  | monitor ticks laterTicks print =>
    obtain ⟨ecalls, -, -⟩ := monitor_cases step
    rw [ecalls] at here'
    rcases waiting hart' ecall' here' posted' with ⟨pending, poster⟩ | answered
    · -- the monitor answers this one
      refine .inr ⟨events, s, ticks, laterTicks, print, t, .last run step, ?_⟩
      rcases h.monitor step with ⟨-, hart, ecall, filled⟩ | ⟨free, -⟩
      · have same : hart = hart' := h.distinct hart hart' ecall ecall' filled.waits.1 here'
          (filled.pending.2.symm.trans poster)
        subst same
        rw [filled.waits.1] at here'
        cases here'
        exact filled
      · rw [free] at pending
        cases pending
    · exact .inr (answered.append _)
  | store mem =>
    cases step
    exact old here' rfl rfl
  | cli =>
    cases step
    exact old here' rfl rfl

/-- In every run in which no request is posted over a pending one and no ecall gives up while its own
request is pending, an ecall that returns `SBI_OK` had its own buffer filled for its request after it
was posted, and the monitor writes to no buffer for an ecall that has failed. -/
theorem mailbox_safe {mem : Mem} {tmTicks : Word}
    (run : Run (Under (MailboxStep cfg) (tmStep cfg debugTimeoutSec)) (.init mem tmTicks) events s) :
    MailboxSafe cfg debugTimeoutSec (.init mem tmTicks) events := by
  -- the state before a step that is taken in the run
  have prior : ∀ {before u event v}, Occurs (tmStep cfg debugTimeoutSec) (.init mem tmTicks) events
      before u event v → MailboxInv u ∧
        Waiting cfg debugTimeoutSec (.init mem tmTicks) before u := by
    intro before u event v taken
    obtain ⟨after, rfl⟩ := taken.place
    obtain ⟨u', first, -⟩ := run.split
    obtain rfl := tmRun_unique first.forget taken.run
    exact (first.history (I := fun events u => Run (tmStep cfg debugTimeoutSec) _ events u ∧
        MailboxInv u ∧ Waiting cfg debugTimeoutSec (.init mem tmTicks) events u)
      ⟨.nil, mailboxInv_init mem tmTicks, nofun⟩
      fun _ _ _ _ ⟨run, h, waiting⟩ step => ⟨run.snoc step.2, h.step step.1 step.2,
        waiting.step h run step.1 step.2⟩).2
  refine ⟨fun before u hart now v ecall out taken here last => ?_,
    fun before u hart now v ecall out taken here last since u' ticks laterTicks print v' later => ?_⟩
  · obtain ⟨ecall', here', posted, -⟩ := poll_cases taken.step
    rw [here] at here'
    cases here'
    refine ((prior taken).2 hart ecall here posted).resolve_left fun pending => ?_
    rw [TmEcall.turn, pending.1] at last
    split at last
    · cases last
    · cases last
  · have gone : Gone ecall.id v := by
      obtain ⟨ecall', here', -, ⟨result, -, rfl⟩ | ⟨more, -⟩⟩ := poll_cases taken.step
      · refine ⟨(prior taken).1.fresh hart ecall here, fun hart' ecall' here' same => ?_⟩
        rcases setEcall_cases here' with ⟨other, old⟩ | ⟨-, new⟩
        · exact other ((prior taken).1.distinct hart' hart ecall' ecall old here same)
        · cases new
      · rw [here] at here'
        cases here'
        rw [more] at last
        cases last
    have run' := later.run
    obtain ⟨w, first, rest⟩ := run'.split
    obtain rfl := tmRun_unique first taken.run
    obtain ⟨w, poll, rest⟩ := rest.uncons
    obtain rfl := tmStep_functional poll taken.step
    exact (prior later).1.spares (rest.invariant gone fun _ _ _ gone step => gone.step step)
      later.step

/-- A print, with data of the size of `struct telemetry_data`. -/
def shortPrint : TmPrint := ⟨[0x68, 0x69, 0], List.replicate sizeOfTelemetryData 0xAB⟩

/-- An ecall is served but returns too late to see it, as the next one has posted its request, which is
served. -/
def servedEvents : List TmEvent :=
  [.enter .u54_1 .concise 0x1000 0, .post .u54_1, .monitor 0 0 shortPrint,
    .enter .u54_2 .verbose 0x2000 5, .post .u54_2, .poll .u54_1 2000000, .monitor 0 0 shortPrint,
    .poll .u54_2 9]

theorem mailbox_safe_served : ∃ s,
    Run (Under (MailboxStep .icicleKitEs) (tmStep .icicleKitEs 0)) (.init (fun _ => 0) 0)
      servedEvents s ∧ s.mem 0x10A7 = 0xAB ∧ s.mem 0x2001 = 0x69 ∧
        MailboxSafe .icicleKitEs 0 (.init (fun _ => 0) 0) servedEvents :=
  have ⟨s, run, data, text⟩ := exists_run
    (fun s event => if MailboxStep .icicleKitEs s event then tmNext .icicleKitEs 0 s event
      else .error ())
    (.init (fun _ => 0) 0) servedEvents
    (P := fun s : Telemetry => s.mem 0x10A7 = 0xAB ∧ s.mem 0x2001 = 0x69) (by decide +kernel)
  ⟨s, under_of_guard run, data, text, mailbox_safe (under_of_guard run)⟩

/-! ### Requests that are lost -/

/-- Two ecalls: the second posts its request over that of the first. -/
def twicePostedEvents : List TmEvent :=
  [.enter .u54_1 .concise 0x1000 0, .post .u54_1, .enter .u54_2 .concise 0x2000 0, .post .u54_2]

def overwritingEvents : List TmEvent := twicePostedEvents ++ [.monitor 0 0 shortPrint]

/-- An ecall whose request is not served in a second. -/
def impatientEvents : List TmEvent := [.enter .u54_1 .concise 0x1000 0, .post .u54_1]

theorem eq_of_overwritingEvents {before after : List TmEvent} {ticks laterTicks : Word}
    {print : TmPrint} (place : overwritingEvents = before ++ .monitor ticks laterTicks print :: after) :
    before = twicePostedEvents := by
  -- the fifth event is the only one of the monitor
  have fifth (n : ℕ) (here : overwritingEvents[n]? = some (.monitor ticks laterTicks print)) :
      n = 4 := by
    rcases n with _ | _ | _ | _ | _ | n
    · cases here
    · cases here
    · cases here
    · cases here
    · rfl
    · cases here
  have last : before.length = 4 := fifth _ <| by
    rw [place, List.getElem?_append_right (Nat.le_refl _), Nat.sub_self, List.getElem?_cons_zero]
  have first : overwritingEvents.take before.length = before := by rw [place, List.take_left]
  rw [← first, last]
  rfl

/-- The ecall of the first hart returns `SBI_OK` though only the buffer of the second was filled; an
ecall fails, and its buffer is filled afterwards. -/
theorem mailbox_not_safe :
    (∃ s, Run (tmStep .icicleKitEs 0) (.init (fun _ => 0) 0)
      (overwritingEvents ++ [.poll .u54_1 1]) s ∧ s.ecalls .u54_1 = none ∧ s.mem 0x1000 = 0 ∧
      s.mem 0x2000 = 0xAB ∧
      ¬ MailboxSafe .icicleKitEs 0 (.init (fun _ => 0) 0) (overwritingEvents ++ [.poll .u54_1 1])) ∧
    ∃ s, Run (tmStep .icicleKitEs 0) (.init (fun _ => 0) 0)
      (impatientEvents ++ [.poll .u54_1 1000001] ++ [.monitor 0 0 shortPrint]) s ∧
      s.mem 0x1000 = 0xAB ∧
      ¬ MailboxSafe .icicleKitEs 0 (.init (fun _ => 0) 0)
        (impatientEvents ++ [.poll .u54_1 1000001] ++ [.monitor 0 0 shortPrint]) := by
  constructor
  · obtain ⟨s, run, here, last, polled⟩ := exists_run (tmNext .icicleKitEs 0) (.init (fun _ => 0) 0)
      overwritingEvents
      (P := fun s => s.ecalls .u54_1 = some ⟨0, .concise, 0x1000, 0, true⟩ ∧
        TmEcall.turn .icicleKitEs ⟨0, .concise, 0x1000, 0, true⟩ 1 s = some (true, 168) ∧
        (tmNext .icicleKitEs 0 s (.poll .u54_1 1)).toOption.any fun t =>
          t.ecalls .u54_1 = none ∧ t.mem 0x1000 = 0 ∧ t.mem 0x2000 = 0xAB) (by decide +kernel)
    obtain ⟨t, poll, none, unfilled, other⟩ := exists_ok polled
    refine ⟨t, run.snoc poll, none, unfilled, other, fun safe => ?_⟩
    obtain ⟨before, u, ticks, laterTicks, print, v, taken, filled⟩ :=
      safe.ok overwritingEvents s .u54_1 1 t _ _ (.last run poll) here last
    obtain ⟨after, place⟩ := taken.place
    obtain rfl := eq_of_overwritingEvents place
    obtain ⟨u', run', poster⟩ := exists_run (tmNext .icicleKitEs 0) (.init (fun _ => 0) 0)
      twicePostedEvents (P := fun u => u.poster = 1) (by decide +kernel)
    obtain rfl := tmRun_unique taken.run run'
    exact absurd (poster.symm.trans filled.pending.2) (by decide)
  · obtain ⟨s, run, here, last, polled⟩ := exists_run (tmNext .icicleKitEs 0) (.init (fun _ => 0) 0)
      impatientEvents
      (P := fun s => s.ecalls .u54_1 = some ⟨0, .concise, 0x1000, 0, true⟩ ∧
        TmEcall.turn .icicleKitEs ⟨0, .concise, 0x1000, 0, true⟩ 1000001 s = some (false, 0) ∧
        (tmNext .icicleKitEs 0 s (.poll .u54_1 1000001)).toOption.any fun t =>
          (∀ hart, t.ecalls hart = none) ∧ t.mem 0x1000 = 0 ∧
          (tmNext .icicleKitEs 0 t (.monitor 0 0 shortPrint)).toOption.any fun u =>
            u.mem 0x1000 = 0xAB) (by decide +kernel)
    obtain ⟨t, poll, none, unfilled, served⟩ := exists_ok polled
    obtain ⟨u, monitor, filled⟩ := exists_ok served
    have failed := run.snoc poll
    refine ⟨u, failed.snoc monitor, filled, fun safe => ?_⟩
    have spared := safe.failed impatientEvents s .u54_1 1000001 t _ _
      ((Occurs.last run poll).append _) here last [] t 0 0 shortPrint u (.last failed monitor)
    obtain ⟨hart, ecall, waits, -⟩ := spared 0x1000 (by rw [filled, unfilled]; decide)
    rw [none hart] at waits
    cases waits

end Hss
