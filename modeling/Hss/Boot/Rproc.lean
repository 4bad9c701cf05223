import Hss.Boot.System
import Hss.Ipi.Requests
import Hss.Lib.ByteLayout
import Hss.Telemetry.Mailbox

/-! Requests to start a remote processor: the application harts name it in one record, and the monitor
reads the record when it comes to handle the message. -/

namespace Hss

open ByteMemory SlotTable Runs

/-! ### The ecalls and the monitor -/

/-- `SBI_EXT_RPROC_START` of a hart, up to its next access of the record or call on the bus.  Each
call has a number, which no code reads. -/
inductive RprocPc
  | outside
  /-- `rproc_data.target` is written. -/
  | alloc (call : ℕ)
  | deliver (call index : ℕ)
  | free (call index : ℕ)
  deriving DecidableEq, Repr

/-- The call that a hart is in. -/
def RprocPc.call : RprocPc → Option ℕ
  | .outside => none
  | .alloc call | .deliver call _ | .free call _ => some call

/-- What the harts and the monitor work on; `rproc_data` is in `boot.mem` at `rprocData`.  The rest is
a record of the calls, by their numbers: the hart that a call named, what it returned, the slot of the
queue of a hart that holds its message, and the harts whose restart was requested for it. -/
structure RprocSystem where
  boot : State
  rprocData : Word
  pc : U54 → RprocPc
  calls : ℕ
  named : ℕ → Option U54
  returned : ℕ → Option ℤ
  carries : U54 → ℕ → Option ℕ
  restarts : ℕ → List U54

/-- `IHC_context_to_context_hart_id` of the channel in `a0`, where it is that of a context. -/
def rprocRemoteHart (a0 : Word) : Option U54 :=
  if rprocChannel a0 then some (if a0.toNat % 256 = 5 then .u54_1 else .u54_4) else none

/-- `rproc_data.target = remote_hart_id` -/
def storeTarget (mem : Mem) (rprocData : Word) (hart : U54) : Mem :=
  writeBytes mem rprocData (bytesLE 4 hart.num)

/-- The message in a slot of the queue from a hart to the monitor. -/
def bootInbox (d : IpiData) (hart : U54) (j : ℕ) : OutboxMsg :=
  (d.queues (ipiCalculateQueueIndex (.u54 hart) .e51)).msgQ j

/-- The hart that `HSS_Boot_IPIHandler` passes to `HSS_Boot_RestartCore`. -/
def requestedRestart (cfg : Config) (mem : Mem) (source : U54) (msg : OutboxMsg) : Option U54 :=
  if cfg.serviceOpensbiRproc && msg.immediateArg = rprocBoot then rprocTarget mem msg.extendedBuffer
  else some source

namespace RprocSystem

variable (s : RprocSystem)

/-- A hart is back from its call. -/
def ret (hart : U54) (call : ℕ) (result : ℤ) : RprocSystem :=
  { s with
    pc := Function.update s.pc hart .outside
    returned := Function.update s.returned call (some result) }

def goto (hart : U54) (pc : RprocPc) : RprocSystem := { s with pc := Function.update s.pc hart pc }

def setIpi (d : IpiData) : RprocSystem := { s with boot := { s.boot with ipiData := d } }

def setCarries (hart : U54) (j : ℕ) (call : Option ℕ) : RprocSystem :=
  { s with carries := Function.update s.carries hart (Function.update (s.carries hart) j call) }

/-- The message of a call is in the slot that `IPI_Send` finds. -/
def carry (cfg : Config) (hart : U54) (call index : ℕ) : RprocSystem :=
  match findAvailableSlot cfg s.boot.ipiData (ipiCalculateQueueIndex (.u54 hart) .e51) with
  | some j => if (s.boot.ipiData.completes index).used then s.setCarries hart j (some call) else s
  | none => s

/-- The message of a call is taken: the restart that is requested for it. -/
def take (cfg : Config) (hart : U54) (j : ℕ) : RprocSystem :=
  match s.carries hart j with
  | none => s
  | some call =>
    let requested := requestedRestart cfg s.boot.mem hart (bootInbox s.boot.ipiData hart j)
    { s.setCarries hart j none with
      restarts := Function.update s.restarts call (requested.toList ++ s.restarts call) }

end RprocSystem

/-- What happens, one access at a time. -/
inductive RprocEvent
  /-- A hart makes the call: the channel is checked and `rproc_data` is written. -/
  | call (hart : U54) (a0 : Word)
  | alloc (hart : U54)
  | deliver (hart : U54) (accepts : Bool)
  | free (hart : U54)
  /-- `boot_idle_handler` of the machine of `hart` -/
  | consume (hart : U54) (inputs : Inputs)
  /-- The machine of `hart` goes on to a state. -/
  | moves (hart : U54) (state : BootState)

/-- A step of the system; `none` where the hart is elsewhere, and an assertion that stops it. -/
def rprocNext (cfg : Config) (s : RprocSystem) : RprocEvent → Except (Option Halt) RprocSystem
  | .call hart a0 =>
    match s.pc hart with
    | .outside =>
      match rprocRemoteHart a0 with
      | none => .ok { s with
          calls := s.calls + 1
          returned := Function.update s.returned s.calls (some sbiEInval) }
      | some remoteHart => .ok { s.goto hart (.alloc s.calls) with
          boot := { s.boot with mem := storeTarget s.boot.mem s.rprocData remoteHart }
          calls := s.calls + 1
          named := Function.update s.named s.calls (some remoteHart) }
    | _ => .error none
  | .alloc hart =>
    match s.pc hart with
    | .alloc call =>
      match ipiMessageAlloc cfg (.u54 hart) s.boot.ipiData with
      | (d, none) => .ok ((s.setIpi d).ret hart call sbiErrFailed)
      | (d, some index) => .ok ((s.setIpi d).goto hart (.deliver call index))
    | _ => .error none
  | .deliver hart accepts =>
    match s.pc hart with
    | .deliver call index =>
      match ipiMessageDeliver cfg accepts (.u54 hart) index .e51 .bootRequest rprocBoot s.rprocData 0
          s.boot.ipiData with
      | .error halt => .error (some halt)
      | .ok (d, sent) =>
        let s := (s.carry cfg hart call index).setIpi d
        .ok (if sent then s.ret hart call sbiOk else s.goto hart (.free call index))
    | _ => .error none
  | .free hart =>
    match s.pc hart with
    | .free call index =>
      match ipiMessageFree (.u54 hart) index s.boot.ipiData with
      | .error halt => .error (some halt)
      | .ok d => .ok ((s.setIpi d).ret hart call sbiErrFailed)
    | _ => .error none
  | .consume hart inputs =>
    if (s.boot.machine hart).state = .idle then
      match bootIdleHandler cfg inputs hart s.boot with
      | .error halt => .error (some halt)
      | .ok boot =>
        match findIntent cfg s.boot.ipiData (ipiCalculateQueueIndex (.u54 hart) .e51)
            .bootRequest with
        | none => .ok { s with boot }
        | some j => .ok { s.take cfg hart j with boot }
    else .error none
  | .moves hart state => .ok { s with boot := s.boot.goto hart state }

/-! ### What is asked -/

/-- The message of the call waits in a queue. -/
def RprocSystem.Waits (s : RprocSystem) (call : ℕ) : Prop :=
  ∃ hart j, s.carries hart j = some call

/-- The number of boot requests of a hart that wait. -/
def bootRequests (cfg : Config) (d : IpiData) (hart : U54) : ℕ :=
  (passing cfg.maxNumQueueMessages (bootInbox d hart) fun msg => msg.msgType = .bootRequest).length

/-- For each call that returned `SBI_OK`, one restart of the hart that it named was requested, or its
message waits. -/
def RprocSystem.Honoured (s : RprocSystem) : Prop :=
  ∀ call, s.returned call = some sbiOk → ∃ hart, s.named call = some hart ∧
    ((s.Waits call ∧ s.restarts call = []) ∨ (¬ s.Waits call ∧ s.restarts call = [hart]))

/-- The record is left alone while it is needed: a call names no other hart while a message of a call
that returned `SBI_OK` waits, and a message is delivered while the record is that of its call. -/
def RprocSystem.Undisturbed (s : RprocSystem) : RprocEvent → Prop
  | .call _ a0 => ∀ remoteHart, rprocRemoteHart a0 = some remoteHart → ∀ call,
      s.returned call = some sbiOk → s.Waits call → s.named call = some remoteHart
  | .deliver hart _ => ∀ call index, s.pc hart = .deliver call index →
      s.named call = rprocTarget s.boot.mem s.rprocData
  | _ => True

/-- A message that asks to start a remote processor waits. -/
def RprocMessage (msg : OutboxMsg) : Prop := msg.msgType = .bootRequest ∧ msg.immediateArg = rprocBoot

/-- No call was made, and no message of one waits. -/
structure RprocStart (cfg : Config) (s : RprocSystem) : Prop where
  pc : ∀ hart, s.pc hart = .outside
  returned : ∀ call, s.returned call = none
  carries : ∀ hart j, s.carries hart j = none
  restarts : ∀ call, s.restarts call = []
  queues : ∀ hart, ∀ j < cfg.maxNumQueueMessages, ¬ RprocMessage (bootInbox s.boot.ipiData hart j)

variable {cfg : Config} {s t : RprocSystem} {hart : U54} {d d' : IpiData}

theorem RprocSystem.goto_pc (pc : RprocPc) (h : U54) :
    (s.goto hart pc).pc h = if h = hart then pc else s.pc h := Function.update_apply ..

theorem RprocSystem.setCarries_carries (j : ℕ) (call : Option ℕ) (h : U54) (i : ℕ) :
    (s.setCarries hart j call).carries h i =
      if h = hart ∧ i = j then call else s.carries h i := by
  rw [setCarries]
  by_cases own : h = hart
  · subst own
    simp only [Function.update_self, Function.update_apply, true_and]
  · simp only [Function.update_of_ne own, own, false_and, if_false]

/-! ### The record and the queues -/

theorem rprocTarget_storeTarget (mem : Mem) (rprocData : Word) (hart : U54) :
    rprocTarget (storeTarget mem rprocData hart) rprocData = some hart := by
  have holds : HoldsAt (storeTarget mem rprocData hart) rprocData 0 (bytesLE 4 hart.num) := by
    intro i less
    have offset : rprocData + BitVec.ofNat 64 (0 + i) - rprocData = BitVec.ofNat 64 i := by
      rw [Nat.zero_add, add_sub_cancel_left]
    have small : i < 4 := by rwa [length_bytesLE] at less
    rw [storeTarget, writeBytes, offset, BitVec.toNat_ofNat, Nat.mod_eq_of_lt (by omega),
      List.getD_eq_getElem?_getD, List.getElem?_eq_getElem less, Option.getD_some]
  have loaded := holds.loadLE
  rw [BitVec.add_zero] at loaded
  have word : load32 (storeTarget mem rprocData hart) rprocData = BitVec.ofNat 32 hart.num := by
    have small := hart.num_le
    rw [load32, loaded, Nat.mod_eq_of_lt (by omega)]
  rw [rprocTarget, word]
  cases hart <;> rfl

theorem bootInbox_congr (queues : d'.queues = d.queues) (h : U54) (j : ℕ) :
    bootInbox d' h j = bootInbox d h j := by
  rw [bootInbox, bootInbox, queues]

theorem alloc_queues {allocated : Option ℕ}
    (done : ipiMessageAlloc cfg (.u54 hart) d = (d', allocated)) : d'.queues = d.queues := by
  cases allocated with
  | none => rw [(ipiMessageAlloc_eq_none done).1]
  | some index =>
    obtain ⟨-, -, rfl⟩ := ipiMessageAlloc_eq_some done
    rfl

theorem bootInbox_setMsg (j : ℕ) (msg : OutboxMsg) (h : U54) (i : ℕ) :
    bootInbox (d.setMsg (ipiCalculateQueueIndex (.u54 hart) .e51) j msg) h i =
      if h = hart ∧ i = j then msg else bootInbox d h i := by
  by_cases own : h = hart
  · subst own
    rw [bootInbox, IpiData.setMsg_msgQ_self, Function.update_apply]
    simp only [true_and, bootInbox]
  · have other : ipiCalculateQueueIndex (.u54 h) .e51 ≠ ipiCalculateQueueIndex (.u54 hart) .e51 := by
      intro same
      have both := ipiCalculateQueueIndex_injective HartId.noConfusion HartId.noConfusion same
      exact own (HartId.u54.inj both.1)
    rw [if_neg fun both => own both.1, bootInbox, IpiData.setMsg_queues_of_ne _ _ _ _ other, bootInbox]

/-- What the delivery of a request does: nothing, or the request is in a slot that was empty. -/
theorem deliver_cases {accepts sent : Bool} (call : ℕ) {index : ℕ}
    (done : ipiMessageDeliver cfg accepts (.u54 hart) index .e51 .bootRequest rprocBoot s.rprocData 0
      s.boot.ipiData = .ok (d', sent)) :
    (sent = false ∧ d'.queues = s.boot.ipiData.queues ∧ s.carry cfg hart call index = s) ∨
      ∃ j < cfg.maxNumQueueMessages, ∃ msg, RprocMessage msg ∧ msg.extendedBuffer = s.rprocData ∧
        (bootInbox s.boot.ipiData hart j).msgType = .noMessage ∧
        s.carry cfg hart call index = s.setCarries hart j (some call) ∧
        ∀ h i, bootInbox d' h i =
          if h = hart ∧ i = j then msg else bootInbox s.boot.ipiData h i := by
  obtain ⟨-, done⟩ := ipiMessageDeliver_eq_ok.mp done
  by_cases used : (s.boot.ipiData.completes index).used = true
  · rw [if_pos used] at done
    cases slot : findAvailableSlot cfg s.boot.ipiData (ipiCalculateQueueIndex (.u54 hart) .e51) with
    | none =>
      rw [ipiSend, slot] at done
      cases done
      refine .inl ⟨rfl, rfl, ?_⟩
      rw [RprocSystem.carry, slot]
    | some j =>
      obtain ⟨bound, empty, -⟩ := firstBelow_eq_some.mp slot
      rw [ipiSend, slot] at done
      cases done
      refine .inr ⟨j, bound, _, ⟨rfl, rfl⟩, rfl, of_decide_eq_true empty, ?_,
        bootInbox_setMsg (d := s.boot.ipiData) j _⟩
      rw [RprocSystem.carry, slot]
      exact if_pos used
  · rw [if_neg used] at done
    cases done
    refine .inl ⟨rfl, rfl, ?_⟩
    rw [RprocSystem.carry]
    split
    · exact if_neg used
    · rfl

/-- The handler requests the restart of the hart that is recorded. -/
theorem requestedRestart_of_handled {source : U54} (msg : OutboxMsg) {u v : State}
    {result : StatusCode} (handled : hssBootIpiHandler cfg msg.transactionId (.u54 source)
      msg.immediateArg msg.extendedBuffer msg.ancilliaryBuffer u = .ok (v, result)) :
    ∃ requested, requestedRestart cfg u.mem source msg = some requested ∧
      (hssBootRestartCore (some (.u54 requested)) u = .ok (v, result) ∨
        hssBootRestartCore (some (.u54 requested)) (u.goto requested .opensbiInit) =
          .ok (v, result)) := by
  unfold hssBootIpiHandler at handled
  unfold requestedRestart
  split at handled
  · next asks =>
    rw [if_pos asks]
    split at handled
    · cases handled
    · next requested named => exact ⟨requested, named, .inr handled⟩
  · next other =>
    rw [if_neg other]
    exact ⟨source, rfl, .inl handled⟩

/-- What the monitor does for a hart: nothing, or it takes the first request of that hart and requests
a restart. -/
theorem idle_cases {inputs : Inputs} {boot : State}
    (done : bootIdleHandler cfg inputs hart s.boot = .ok boot) :
    (findIntent cfg s.boot.ipiData (ipiCalculateQueueIndex (.u54 hart) .e51) .bootRequest = none ∧
      boot = s.boot) ∨
    ∃ j < cfg.maxNumQueueMessages,
      findIntent cfg s.boot.ipiData (ipiCalculateQueueIndex (.u54 hart) .e51) .bootRequest = some j ∧
      (bootInbox s.boot.ipiData hart j).msgType = .bootRequest ∧ boot.mem = s.boot.mem ∧
      (∃ requested, requestedRestart cfg s.boot.mem hart (bootInbox s.boot.ipiData hart j) =
        some requested) ∧
      ∀ h i, bootInbox boot.ipiData h i =
        if h = hart ∧ i = j then (bootInbox s.boot.ipiData hart j).cleared
        else bootInbox s.boot.ipiData h i := by
  have mem : boot.mem = s.boot.mem := by
    refine bootIdleHandler_induction (P := fun u => u.mem = s.boot.mem) ?_ ?_ ?_ ?_ ?_ done rfl
    · intro h u same
      unfold restartMachine
      split <;> exact same
    · exact fun u same => same
    · exact fun j => rfl
    · exact fun j h _ => rfl
    · exact fun j u same => same
  simp only [bootIdleHandler, bind_eq_ok] at done
  obtain ⟨⟨u, intentFound⟩, consumed, done⟩ := done
  cases done
  obtain ⟨rfl, none⟩ | ⟨j, handler, v, result, found, entry, handled, rfl⟩ :=
    @ipiConsumeIntent_cases _ _ cfg (bootRegistry cfg) _ _ _ _ _ _ _ consumed
  · exact .inl ⟨none, rfl⟩
  · cases entry
    obtain ⟨bound, isRequest, -⟩ := firstBelow_eq_some.mp found
    have request : (bootInbox s.boot.ipiData hart j).msgType = .bootRequest :=
      of_decide_eq_true isRequest
    have same : v.ipiData = takeIntent (.u54 hart) .e51 j s.boot.ipiData :=
      hssBootIpiHandler_ipiData handled
    have inbox (h : U54) (i : ℕ) : bootInbox v.ipiData h i = bootInbox s.boot.ipiData h i := by
      rw [bootInbox, same, takeIntent_msgQ, bootInbox]
    have quiet : ((v.ipiData.queues (ipiCalculateQueueIndex (.u54 hart) .e51)).msgQ j).msgType =
        .bootRequest := (congrArg OutboxMsg.msgType (inbox hart j)).trans request
    refine .inr ⟨j, bound, found, request, mem, ?_, fun h i => ?_⟩
    · obtain ⟨requested, asked, -⟩ :=
        requestedRestart_of_handled (bootInbox s.boot.ipiData hart j) handled
      exact ⟨requested, asked⟩
    · simp only [onIpi, State.ipi_eq, acknowledge, quiet, State.setIpi_ipiData, clearMsg]
      rw [bootInbox_setMsg, inbox]
      rw [← inbox hart j]
      rfl

/-! ### Calls that are not divided -/

/-- A call whose steps no other hart comes between is `sbiEcallRprocStart`. -/
theorem rproc_undivided (e : Ecall) (r : Requests) {remoteHart : U54}
    (ipi : r.ipi = s.boot.ipiData) (rprocData : e.rprocData = s.rprocData)
    (channel : rprocRemoteHart e.a0 = some remoteHart) (outside : s.pc e.hart = .outside) :
    ∃ events t, Run (fun s event t => rprocNext cfg s event = .ok t) s
        (.call e.hart e.a0 :: events) t ∧ t.pc e.hart = .outside ∧
      t.boot.ipiData = (sbiEcallRprocStart cfg e r).1.ipi ∧
      t.returned s.calls = some (sbiEcallRprocStart cfg e r).2 := by
  obtain ⟨called, call, inCall, sameIpi, sameData⟩ : ∃ u, rprocNext cfg s (.call e.hart e.a0) = .ok u ∧
      u.pc e.hart = .alloc s.calls ∧ u.boot.ipiData = s.boot.ipiData ∧ u.rprocData = s.rprocData := by
    simp only [rprocNext, outside, channel]
    exact ⟨_, rfl, Function.update_self .., rfl, rfl⟩
  have start : Run (fun s event t => rprocNext cfg s event = .ok t) s [.call e.hart e.a0] called :=
    .single call
  simp only [sbiEcallRprocStart, ipi, rprocData]
  rcases taken : ipiMessageAlloc cfg (.u54 e.hart) s.boot.ipiData with ⟨d, _ | index⟩
  · have alloc : rprocNext cfg called (.alloc e.hart) =
        .ok ((called.setIpi d).ret e.hart s.calls sbiErrFailed) := by
      simp only [rprocNext, inCall, sameIpi, taken]
    exact ⟨_, _, start.trans (.single alloc), Function.update_self .., rfl, Function.update_self ..⟩
  · have alloc : rprocNext cfg called (.alloc e.hart) =
        .ok ((called.setIpi d).goto e.hart (.deliver s.calls index)) := by
      simp only [rprocNext, inCall, sameIpi, taken]
    have start := start.trans (.single alloc)
    have delivering : ((called.setIpi d).goto e.hart (.deliver s.calls index)).pc e.hart =
        .deliver s.calls index := Function.update_self ..
    have delivered : ipiMessageDeliver cfg e.accepts (.u54 e.hart) index .e51 .bootRequest rprocBoot
        s.rprocData 0 d = .ok _ := ipiMessageDeliver_of_alloc taken
    generalize sent : ipiSend cfg e.accepts (.u54 e.hart) .e51 _ d = p at delivered
    obtain ⟨d', ok⟩ := p
    have deliver : rprocNext cfg ((called.setIpi d).goto e.hart (.deliver s.calls index))
        (.deliver e.hart e.accepts) =
        .ok (let u := (((called.setIpi d).goto e.hart (.deliver s.calls index)).carry cfg e.hart
            s.calls index).setIpi d'
          if ok then u.ret e.hart s.calls sbiOk else u.goto e.hart (.free s.calls index)) := by
      have data : ((called.setIpi d).goto e.hart (.deliver s.calls index)).rprocData = s.rprocData :=
        sameData
      have ipi : ((called.setIpi d).goto e.hart (.deliver s.calls index)).boot.ipiData = d := rfl
      simp only [rprocNext, delivering, data, ipi, delivered]
    have start := start.trans (.single deliver)
    dsimp only at start
    generalize (((called.setIpi d).goto e.hart (.deliver s.calls index)).carry cfg e.hart
      s.calls index) = u at start
    simp only [delivered]
    cases ok with
    | true =>
      exact ⟨_, _, start, Function.update_self .., rfl, Function.update_self ..⟩
    | false =>
      have used : (d'.completes index).used = true := by
        have same : SameSlots d (ipiSend cfg e.accepts (.u54 e.hart) .e51 ⟨.bootRequest,
          s.boot.ipiData.myTransactionId (.u54 e.hart), rprocBoot, s.rprocData, 0⟩ d).1 := .send
        rw [sent] at same
        rw [same.used, used_alloc taken, if_pos rfl]
      obtain ⟨d'', freed⟩ : ∃ d'', ipiMessageFree (.u54 e.hart) index d' = .ok d'' :=
        ⟨_, ipiMessageFree_eq_ok.mpr ⟨used, rfl⟩⟩
      have freeing : ((u.setIpi d').goto e.hart (.free s.calls index)).pc e.hart =
          .free s.calls index := Function.update_self ..
      have free : rprocNext cfg ((u.setIpi d').goto e.hart (.free s.calls index)) (.free e.hart) =
          .ok ((((u.setIpi d').goto e.hart (.free s.calls index)).setIpi d'').ret e.hart s.calls
            sbiErrFailed) := by
        have ipi : ((u.setIpi d').goto e.hart (.free s.calls index)).boot.ipiData = d' := rfl
        simp only [rprocNext, freeing, ipi, freed]
      simp only [freed]
      exact ⟨_, _, start.trans (.single free), Function.update_self .., rfl, Function.update_self ..⟩

/-! ### What every step keeps -/

/-- The hart is in the call, which has not sent its message yet. -/
def RprocPc.Unsent (pc : RprocPc) (call : ℕ) : Prop :=
  pc = .alloc call ∨ ∃ index, pc = .deliver call index

/-- The slots hold the messages of the calls, a call whose message is not taken yet has no restart, and
while a message of a call that returned `SBI_OK` waits, the record is that of the call. -/
structure RprocInv (cfg : Config) (s : RprocSystem) : Prop where
  carried : ∀ hart, ∀ j < cfg.maxNumQueueMessages, ∀ call, s.carries hart j = some call →
    RprocMessage (bootInbox s.boot.ipiData hart j) ∧
      (bootInbox s.boot.ipiData hart j).extendedBuffer = s.rprocData
  others : ∀ hart, ∀ j < cfg.maxNumQueueMessages, s.carries hart j = none →
    ¬ RprocMessage (bootInbox s.boot.ipiData hart j)
  fresh : ∀ call, s.calls ≤ call → s.returned call = none ∧ s.restarts call = [] ∧
    ¬ s.Waits call ∧ ∀ hart, (s.pc hart).call ≠ some call
  alone : ∀ {hart hart' call}, (s.pc hart).call = some call → (s.pc hart').call = some call →
    hart = hart'
  names : ∀ {hart call}, (s.pc hart).call = some call → ∃ x, s.named call = some x
  unsent : ∀ {hart call}, (s.pc hart).Unsent call → ¬ s.Waits call ∧ s.restarts call = []
  waiting : ∀ {call}, s.Waits call → s.restarts call = []
  unique : ∀ {hart hart' j j' call}, s.carries hart j = some call → s.carries hart' j' = some call →
    hart = hart' ∧ j = j'
  record : ∀ {call}, s.returned call = some sbiOk → s.Waits call →
    s.named call = rprocTarget s.boot.mem s.rprocData
  honoured : s.Honoured

theorem RprocPc.Unsent.call_eq {pc : RprocPc} {call : ℕ} (unsent : pc.Unsent call) :
    pc.call = some call := by
  rcases unsent with rfl | ⟨index, rfl⟩ <;> rfl

theorem RprocStart.inv (start : RprocStart cfg s) : RprocInv cfg s where
  carried hart j _ call carries := absurd ((start.carries hart j).symm.trans carries) (by simp)
  others hart j bound _ := start.queues hart j bound
  fresh call _ := by
    refine ⟨start.returned call, start.restarts call, ?_, fun hart => ?_⟩
    · rintro ⟨hart, j, carries⟩
      rw [start.carries] at carries
      cases carries
    · rw [start.pc]
      exact Option.some_ne_none call |>.symm
  alone running _ := by
    rw [start.pc] at running
    cases running
  names running := by
    rw [start.pc] at running
    cases running
  unsent unsent := by
    have running := unsent.call_eq
    rw [start.pc] at running
    cases running
  waiting _ := start.restarts _
  unique carries _ := by
    rw [start.carries] at carries
    cases carries
  record ok _ := by
    rw [start.returned] at ok
    cases ok
  honoured call ok := by
    rw [start.returned] at ok
    cases ok

namespace RprocInv

/-- What the record and the messages of the calls do not show changes nothing. -/
theorem withBoot (inv : RprocInv cfg s) (boot : State) (mem : boot.mem = s.boot.mem)
    (inbox : ∀ h i, bootInbox boot.ipiData h i = bootInbox s.boot.ipiData h i ∨
      s.carries h i = none ∧ ¬ RprocMessage (bootInbox boot.ipiData h i)) :
    RprocInv cfg { s with boot } where
  carried h i bound call carries := by
    rcases inbox h i with same | ⟨none, -⟩
    · rw [same]
      exact inv.carried h i bound call carries
    · exact absurd (none.symm.trans carries) (by simp)
  others h i bound none := by
    rcases inbox h i with same | ⟨-, other⟩
    · rw [same]
      exact inv.others h i bound none
    · exact other
  fresh := inv.fresh
  alone := inv.alone
  names := inv.names
  unsent := inv.unsent
  waiting := inv.waiting
  unique := inv.unique
  record ok waits := (inv.record ok waits).trans (by rw [mem])
  honoured := inv.honoured

theorem goto (inv : RprocInv cfg s) {pc : RprocPc}
    (same : ∀ call, pc.call = some call → (s.pc hart).call = some call)
    (unsent : ∀ call, pc.Unsent call → (s.pc hart).Unsent call) : RprocInv cfg (s.goto hart pc) := by
  have calls {h : U54} {call : ℕ} (running : ((s.goto hart pc).pc h).call = some call) :
      (s.pc h).call = some call := by
    rw [RprocSystem.goto_pc] at running
    split at running
    · next own =>
      rw [own]
      exact same call running
    · exact running
  refine { inv with fresh := fun call new => ?_, alone := ?_, names := ?_, unsent := ?_ }
  · obtain ⟨returned, restarts, waits, none⟩ := inv.fresh call new
    exact ⟨returned, restarts, waits, fun h running => none h (calls running)⟩
  · exact fun running running' => inv.alone (calls running) (calls running')
  · exact fun running => inv.names (calls running)
  · intro h call before
    rw [RprocSystem.goto_pc] at before
    split at before
    · exact inv.unsent (unsent call before)
    · exact inv.unsent before

theorem failed (inv : RprocInv cfg s) {call calls : ℕ} {result : ℤ} (more : s.calls ≤ calls)
    (less : call < calls) (bad : result ≠ sbiOk) :
    RprocInv cfg { s with calls, returned := Function.update s.returned call (some result) } := by
  have ok {c : ℕ} (returned : Function.update s.returned call (some result) c = some sbiOk) :
      s.returned c = some sbiOk := by
    by_cases own : c = call
    · rw [own, Function.update_self] at returned
      exact absurd (Option.some.inj returned) bad
    · rwa [Function.update_of_ne own] at returned
  refine { inv with fresh := fun c new => ?_, record := ?_, honoured := ?_ }
  · obtain ⟨returned, rest⟩ := inv.fresh c (Nat.le_trans more new)
    refine ⟨?_, rest⟩
    have other : c ≠ call := Nat.ne_of_gt (Nat.lt_of_lt_of_le less new)
    show Function.update s.returned call (some result) c = none
    rw [Function.update_of_ne other, returned]
  · exact fun returned waits => inv.record (ok returned) waits
  · exact fun c returned => inv.honoured c (ok returned)

theorem call_lt (inv : RprocInv cfg s) {call : ℕ} (running : (s.pc hart).call = some call) :
    call < s.calls := by
  by_contra new
  exact (inv.fresh call (not_lt.mp new)).2.2.2 hart running

theorem not_ok (inv : RprocInv cfg s) {call : ℕ} (unsent : (s.pc hart).Unsent call) :
    s.returned call ≠ some sbiOk := by
  intro ok
  obtain ⟨x, -, ⟨waits, -⟩ | ⟨-, restarted⟩⟩ := inv.honoured call ok
  · exact (inv.unsent unsent).1 waits
  · rw [(inv.unsent unsent).2] at restarted
    cases restarted

theorem ret_failed (inv : RprocInv cfg s) {call : ℕ} {result : ℤ}
    (running : (s.pc hart).call = some call) (bad : result ≠ sbiOk) :
    RprocInv cfg (s.ret hart call result) := by
  have less := inv.call_lt running
  have back : RprocInv cfg (s.goto hart .outside) := by
    refine inv.goto (fun call running => ?_) fun call before => ?_
    · cases running
    · cases before.call_eq
  exact back.failed (Nat.le_refl _) less bad

/-- The message of a call is put in an empty slot. -/
theorem carries (inv : RprocInv cfg s) {call j : ℕ} {msg : OutboxMsg} {pc : RprocPc}
    (unsent : (s.pc hart).Unsent call) (same : ∀ c, pc.call = some c → c = call)
    (sent : ∀ c, ¬ pc.Unsent c) (isRproc : RprocMessage msg)
    (buffer : msg.extendedBuffer = s.rprocData) (bound : j < cfg.maxNumQueueMessages)
    (empty : (bootInbox s.boot.ipiData hart j).msgType = .noMessage)
    (inbox : ∀ h i, bootInbox d h i =
      if h = hart ∧ i = j then msg else bootInbox s.boot.ipiData h i) :
    RprocInv cfg (((s.setCarries hart j (some call)).setIpi d).goto hart pc) := by
  have slot (h : U54) (i : ℕ) :
      (((s.setCarries hart j (some call)).setIpi d).goto hart pc).carries h i =
        if h = hart ∧ i = j then some call else s.carries h i := s.setCarries_carries j (some call) h i
  have pcs (h : U54) : (((s.setCarries hart j (some call)).setIpi d).goto hart pc).pc h =
      if h = hart then pc else s.pc h := s.goto_pc pc h
  have free : s.carries hart j = none := by
    cases held : s.carries hart j with
    | none => rfl
    | some c =>
      have message := (inv.carried hart j bound c held).1.1
      rw [empty] at message
      cases message
  have waits {c : ℕ} : (((s.setCarries hart j (some call)).setIpi d).goto hart pc).Waits c ↔
      c = call ∨ s.Waits c := by
    constructor
    · rintro ⟨h, i, held⟩
      rw [slot] at held
      split at held
      · exact .inl (Option.some.inj held).symm
      · exact .inr ⟨h, i, held⟩
    · rintro (rfl | ⟨h, i, held⟩)
      · exact ⟨hart, j, (slot hart j).trans (if_pos ⟨rfl, rfl⟩)⟩
      · refine ⟨h, i, (slot h i).trans ((if_neg ?_).trans held)⟩
        rintro ⟨rfl, rfl⟩
        rw [free] at held
        cases held
  have running {h : U54} {c : ℕ}
      (running : ((((s.setCarries hart j (some call)).setIpi d).goto hart pc).pc h).call = some c) :
      (s.pc h).call = some c := by
    rw [pcs] at running
    split at running
    · next own =>
      rw [own, same c running, unsent.call_eq]
    · exact running
  refine ⟨?_, ?_, ?_, ?_, ?_, ?_, ?_, ?_, ?_, ?_⟩
  · intro h i less c held
    rw [slot] at held
    show RprocMessage (bootInbox d h i) ∧ (bootInbox d h i).extendedBuffer = s.rprocData
    rw [inbox]
    split at held
    · next here =>
      rw [if_pos here]
      exact ⟨isRproc, buffer⟩
    · next other =>
      rw [if_neg other]
      exact inv.carried h i less c held
  · intro h i less held
    rw [slot] at held
    split at held
    · cases held
    · next other =>
      show ¬ RprocMessage (bootInbox d h i)
      rw [inbox, if_neg other]
      exact inv.others h i less held
  · intro c new
    obtain ⟨returned, restarts, none, out⟩ := inv.fresh c new
    refine ⟨returned, restarts, fun waiting => ?_, fun h inCall => out h (running inCall)⟩
    rcases waits.mp waiting with rfl | before
    · exact out hart unsent.call_eq
    · exact none before
  · exact fun first second => inv.alone (running first) (running second)
  · exact fun inCall => inv.names (running inCall)
  · intro h c before
    rw [pcs] at before
    have elsewhere : h ≠ hart := by
      rintro rfl
      rw [if_pos rfl] at before
      exact sent c before
    rw [if_neg elsewhere] at before
    have other : c ≠ call := by
      rintro rfl
      exact elsewhere (inv.alone before.call_eq unsent.call_eq)
    obtain ⟨none, restarts⟩ := inv.unsent before
    refine ⟨fun waiting => ?_, restarts⟩
    exact (waits.mp waiting).elim other none
  · intro c waiting
    rcases waits.mp waiting with rfl | before
    · exact (inv.unsent unsent).2
    · exact inv.waiting before
  · intro h h' i i' c held held'
    have none : ¬ s.Waits call := (inv.unsent unsent).1
    rw [slot] at held held'
    split at held <;> split at held'
    · next here here' => exact ⟨here.1.trans here'.1.symm, here.2.trans here'.2.symm⟩
    · exact absurd ⟨h', i', held'.trans held.symm⟩ none
    · exact absurd ⟨h, i, held.trans held'.symm⟩ none
    · exact inv.unique held held'
  · intro c ok waiting
    rcases waits.mp waiting with rfl | before
    · exact absurd ok (inv.not_ok unsent)
    · exact inv.record ok before
  · intro c ok
    have other : c ≠ call := by
      rintro rfl
      exact inv.not_ok unsent ok
    rw [waits, or_iff_right other]
    exact inv.honoured c ok

/-- A call whose message waits returns `SBI_OK`. -/
theorem accepted (inv : RprocInv cfg s) {call : ℕ} (less : call < s.calls) (waits : s.Waits call)
    (names : ∃ x, s.named call = some x)
    (record : s.named call = rprocTarget s.boot.mem s.rprocData) :
    RprocInv cfg { s with returned := Function.update s.returned call (some sbiOk) } := by
  refine { inv with fresh := fun c new => ?_, record := ?_, honoured := fun c ok => ?_ }
  · obtain ⟨returned, rest⟩ := inv.fresh c new
    refine ⟨?_, rest⟩
    have other : c ≠ call := Nat.ne_of_gt (Nat.lt_of_lt_of_le less new)
    show Function.update s.returned call (some sbiOk) c = none
    rw [Function.update_of_ne other, returned]
  · intro c ok waiting
    by_cases own : c = call
    · rw [own]
      exact record
    · exact inv.record ((Function.update_of_ne own ..).symm.trans ok) waiting
  · by_cases own : c = call
    · obtain ⟨x, named⟩ := names
      rw [own]
      exact ⟨x, named, .inl ⟨waits, inv.waiting waits⟩⟩
    · exact inv.honoured c ((Function.update_of_ne own ..).symm.trans ok)

theorem cleared_not_rproc (msg : OutboxMsg) : ¬ RprocMessage msg.cleared := fun message => by
  cases message.1

/-- The message of a call is taken, and the restart of the hart in the record is requested. -/
theorem restarts (inv : RprocInv cfg s) {call j : ℕ} {boot : State} {x : U54}
    (held : s.carries hart j = some call) (target : rprocTarget s.boot.mem s.rprocData = some x)
    (mem : boot.mem = s.boot.mem) (inbox : ∀ h i, bootInbox boot.ipiData h i =
      if h = hart ∧ i = j then (bootInbox s.boot.ipiData hart j).cleared
      else bootInbox s.boot.ipiData h i) :
    RprocInv cfg { s with
      boot
      carries := (s.setCarries hart j none).carries
      restarts := Function.update s.restarts call [x] } := by
  have waited : s.Waits call := ⟨hart, j, held⟩
  generalize after : RprocSystem.mk boot s.rprocData s.pc s.calls s.named s.returned
    (s.setCarries hart j none).carries (Function.update s.restarts call [x]) = t
  have slot (h : U54) (i : ℕ) : t.carries h i = if h = hart ∧ i = j then none else s.carries h i := by
    rw [← after]
    exact s.setCarries_carries j none h i
  have waits {c : ℕ} : t.Waits c ↔ s.Waits c ∧ c ≠ call := by
    constructor
    · rintro ⟨h, i, before⟩
      rw [slot] at before
      split at before
      · cases before
      · next other =>
        refine ⟨⟨h, i, before⟩, ?_⟩
        rintro rfl
        exact other (inv.unique before held)
    · rintro ⟨⟨h, i, before⟩, other⟩
      refine ⟨h, i, (slot h i).trans ((if_neg ?_).trans before)⟩
      rintro ⟨rfl, rfl⟩
      exact other (Option.some.inj (before.symm.trans held))
  have kept {c : ℕ} (other : c ≠ call) : t.restarts c = s.restarts c := by
    rw [← after]
    exact Function.update_of_ne other ..
  have once : t.restarts call = [x] := by
    rw [← after]
    exact Function.update_self ..
  obtain ⟨same, data, pc, calls, named, returned⟩ : t.boot = boot ∧ t.rprocData = s.rprocData ∧
      t.pc = s.pc ∧ t.calls = s.calls ∧ t.named = s.named ∧ t.returned = s.returned := by
    rw [← after]
    exact ⟨rfl, rfl, rfl, rfl, rfl, rfl⟩
  refine ⟨?_, ?_, ?_, ?_, ?_, ?_, ?_, ?_, ?_, ?_⟩
  · intro h i less c before
    rw [slot] at before
    rw [same, inbox, data]
    split at before
    · cases before
    · next other =>
      rw [if_neg other]
      exact inv.carried h i less c before
  · intro h i less before
    rw [slot] at before
    rw [same, inbox]
    split at before
    · next here =>
      rw [if_pos here]
      exact cleared_not_rproc _
    · next other =>
      rw [if_neg other]
      exact inv.others h i less before
  · intro c new
    rw [calls] at new
    obtain ⟨first, second, none, out⟩ := inv.fresh c new
    have other : c ≠ call := by
      rintro rfl
      exact none waited
    rw [returned, pc, kept other]
    exact ⟨first, second, fun waiting => none (waits.mp waiting).1, out⟩
  · rw [pc]
    exact inv.alone
  · rw [pc, named]
    exact inv.names
  · intro h c before
    rw [pc] at before
    obtain ⟨none, empty⟩ := inv.unsent before
    have other : c ≠ call := by
      rintro rfl
      exact none waited
    rw [kept other]
    exact ⟨fun waiting => none (waits.mp waiting).1, empty⟩
  · intro c waiting
    obtain ⟨before, other⟩ := waits.mp waiting
    rw [kept other]
    exact inv.waiting before
  · intro h h' i i' c before before'
    rw [slot] at before before'
    split at before
    · cases before
    · split at before'
      · cases before'
      · exact inv.unique before before'
  · intro c ok waiting
    rw [returned] at ok
    rw [named, same, mem, data]
    exact inv.record ok (waits.mp waiting).1
  · intro c ok
    rw [returned] at ok
    rw [named, waits]
    by_cases own : c = call
    · rw [own, once]
      rw [own] at ok
      exact ⟨x, (inv.record ok waited).trans target, .inr ⟨fun both => both.2 rfl, rfl⟩⟩
    · rw [kept own, and_iff_left own]
      exact inv.honoured c ok

/-- A request is taken. -/
theorem takes (inv : RprocInv cfg s) (built : cfg.serviceOpensbiRproc = true) {j : ℕ} {boot : State}
    (bound : j < cfg.maxNumQueueMessages) (mem : boot.mem = s.boot.mem)
    (requested : ∃ x, requestedRestart cfg s.boot.mem hart (bootInbox s.boot.ipiData hart j) = some x)
    (inbox : ∀ h i, bootInbox boot.ipiData h i =
      if h = hart ∧ i = j then (bootInbox s.boot.ipiData hart j).cleared
      else bootInbox s.boot.ipiData h i) :
    RprocInv cfg { s.take cfg hart j with boot } := by
  unfold RprocSystem.take
  cases held : s.carries hart j with
  | none =>
    refine inv.withBoot _ mem fun h i => ?_
    rw [inbox]
    split
    · next here =>
      obtain ⟨rfl, rfl⟩ := here
      exact .inr ⟨held, cleared_not_rproc _⟩
    · exact .inl rfl
  | some call =>
    obtain ⟨x, requested⟩ := requested
    obtain ⟨message, buffer⟩ := inv.carried hart j bound call held
    have target : rprocTarget s.boot.mem s.rprocData = some x := by
      rw [requestedRestart, built, message.2, buffer] at requested
      exact requested
    have restarted := inv.restarts held target mem inbox
    dsimp only
    rw [requested, inv.waiting ⟨hart, j, held⟩]
    exact restarted

/-- A call is made while the record is not needed by another. -/
theorem called (inv : RprocInv cfg s) {x : U54} (undisturbed : ∀ call,
      s.returned call = some sbiOk → s.Waits call → s.named call = some x) :
    RprocInv cfg { s.goto hart (.alloc s.calls) with
      boot := { s.boot with mem := storeTarget s.boot.mem s.rprocData x }
      calls := s.calls + 1
      named := Function.update s.named s.calls (some x) } := by
  obtain ⟨newReturned, newRestarts, newWaits, newOut⟩ := inv.fresh s.calls (Nat.le_refl _)
  have running {h : U54} {c : ℕ} (running : ((s.goto hart (.alloc s.calls)).pc h).call = some c) :
      h = hart ∧ c = s.calls ∨ h ≠ hart ∧ (s.pc h).call = some c := by
    rw [RprocSystem.goto_pc] at running
    split at running
    · next own => exact .inl ⟨own, (Option.some.inj running).symm⟩
    · next other => exact .inr ⟨other, running⟩
  have older {h : U54} {c : ℕ} (inCall : (s.pc h).call = some c) : c ≠ s.calls := by
    rintro rfl
    exact newOut h inCall
  refine { inv with fresh := fun c new => ?_, alone := ?_, names := ?_, unsent := ?_, record := ?_, honoured := ?_ }
  · obtain ⟨returned, restarts, none, out⟩ := inv.fresh c (Nat.le_of_succ_le new)
    refine ⟨returned, restarts, none, fun h inCall => ?_⟩
    rcases running inCall with ⟨-, rfl⟩ | ⟨-, before⟩
    · exact absurd new (Nat.not_succ_le_self _)
    · exact out h before
  · intro h h' c inCall inCall'
    rcases running inCall with ⟨rfl, rfl⟩ | ⟨-, before⟩ <;>
      rcases running inCall' with ⟨rfl, new⟩ | ⟨-, before'⟩
    · rfl
    · exact absurd rfl (older before')
    · exact absurd new (older before)
    · exact inv.alone before before'
  · intro h c inCall
    rcases running inCall with ⟨-, rfl⟩ | ⟨-, before⟩
    · exact ⟨x, Function.update_self ..⟩
    · obtain ⟨y, named⟩ := inv.names before
      exact ⟨y, (Function.update_of_ne (older before) ..).trans named⟩
  · intro h c before
    by_cases own : c = s.calls
    · rw [own]
      exact ⟨newWaits, newRestarts⟩
    · have before : ((s.goto hart (.alloc s.calls)).pc h).Unsent c := before
      rw [RprocSystem.goto_pc] at before
      split at before
      · exact absurd (Option.some.inj before.call_eq).symm own
      · exact inv.unsent before
  · intro c ok waiting
    have named := undisturbed c ok waiting
    have older : c ≠ s.calls := by
      rintro rfl
      exact newWaits waiting
    show Function.update s.named s.calls (some x) c = _
    rw [Function.update_of_ne older, named]
    exact (rprocTarget_storeTarget ..).symm
  · intro c ok
    have older : c ≠ s.calls := by
      rintro rfl
      exact absurd (newReturned.symm.trans ok) (by simp)
    obtain ⟨y, named, rest⟩ := inv.honoured c ok
    exact ⟨y, (Function.update_of_ne older ..).trans named, rest⟩

/-- A message is sent, or the call fails. -/
theorem delivered (inv : RprocInv cfg s) {call index : ℕ} {accepts sent : Bool}
    (pc : s.pc hart = .deliver call index)
    (record : s.named call = rprocTarget s.boot.mem s.rprocData)
    (done : ipiMessageDeliver cfg accepts (.u54 hart) index .e51 .bootRequest rprocBoot s.rprocData 0
      s.boot.ipiData = .ok (d', sent)) :
    let t := (s.carry cfg hart call index).setIpi d'
    RprocInv cfg (if sent then t.ret hart call sbiOk else t.goto hart (.free call index)) := by
  have unsent : (s.pc hart).Unsent call := .inr ⟨index, pc⟩
  have back (c : ℕ) : ¬ RprocPc.outside.Unsent c := fun before => by cases before.call_eq
  have freeing (c : ℕ) : ¬ (RprocPc.free call index).Unsent c := by
    rintro (before | ⟨i, before⟩) <;> cases before
  intro t
  rcases deliver_cases call done with ⟨rfl, queues, same⟩ |
    ⟨j, bound, msg, isRproc, buffer, empty, carried, inbox⟩
  · have kept : RprocInv cfg (s.setIpi d') := inv.withBoot { s.boot with ipiData := d' } rfl
      fun h i => .inl (bootInbox_congr queues h i)
    have after : t = s.setIpi d' := congrArg (fun u : RprocSystem => u.setIpi d') same
    rw [after, if_neg Bool.false_ne_true]
    refine kept.goto (fun c inCall => ?_) fun c before => absurd before (freeing c)
    exact unsent.call_eq.trans inCall
  · have after : t = (s.setCarries hart j (some call)).setIpi d' :=
      congrArg (fun u : RprocSystem => u.setIpi d') carried
    rw [after]
    cases sent with
    | false =>
      exact inv.carries unsent (fun c inCall => (Option.some.inj inCall).symm) freeing isRproc buffer
        bound empty inbox
    | true =>
      have placed : RprocInv cfg (((s.setCarries hart j (some call)).setIpi d').goto hart .outside) :=
        inv.carries unsent (fun c inCall => by cases inCall) back isRproc buffer bound empty inbox
      refine placed.accepted (inv.call_lt unsent.call_eq) ⟨hart, j, ?_⟩
        (inv.names unsent.call_eq) record
      exact (s.setCarries_carries j (some call) hart j).trans (if_pos ⟨rfl, rfl⟩)

theorem step (inv : RprocInv cfg s) (built : cfg.serviceOpensbiRproc = true) {event : RprocEvent}
    (undisturbed : s.Undisturbed event) (next : rprocNext cfg s event = .ok t) : RprocInv cfg t := by
  cases event with
  | call hart a0 =>
    simp only [rprocNext] at next
    split at next
    · cases channel : rprocRemoteHart a0 with
      | none =>
        simp only [channel] at next
        cases next
        exact inv.failed (Nat.le_succ _) (Nat.lt_succ_self _) (by decide)
      | some x =>
        simp only [channel] at next
        cases next
        exact inv.called (undisturbed x channel)
    · cases next
  | alloc hart =>
    simp only [rprocNext] at next
    split at next
    · next call pc =>
      have inCall : (s.pc hart).call = some call := congrArg RprocPc.call pc
      rcases taken : ipiMessageAlloc cfg (.u54 hart) s.boot.ipiData with ⟨d, _ | index⟩
      all_goals
        have kept : RprocInv cfg (s.setIpi d) := inv.withBoot { s.boot with ipiData := d } rfl
          fun h i => .inl (bootInbox_congr (alloc_queues taken) h i)
        simp only [taken] at next
        cases next
      · exact kept.ret_failed inCall (by decide)
      · refine kept.goto (fun c same => inCall.trans same) fun c before => .inl ?_
        rw [← Option.some.inj before.call_eq]
        exact pc
    · cases next
  | deliver hart accepts =>
    simp only [rprocNext] at next
    split at next
    · next call index pc =>
      split at next
      · cases next
      · next d sent done =>
        cases next
        exact inv.delivered pc (undisturbed call index pc) done
    · cases next
  | free hart =>
    simp only [rprocNext] at next
    split at next
    · next call index pc =>
      split at next
      · cases next
      · next d freed =>
        cases next
        have queues : d.queues = s.boot.ipiData.queues := by
          rw [(ipiMessageFree_eq_ok.mp freed).2]
          rfl
        have kept : RprocInv cfg (s.setIpi d) := inv.withBoot { s.boot with ipiData := d } rfl
          fun h i => .inl (bootInbox_congr queues h i)
        have bad : sbiErrFailed ≠ sbiOk := by decide
        exact kept.ret_failed (congrArg RprocPc.call pc) bad
    · cases next
  | consume hart inputs =>
    simp only [rprocNext] at next
    split at next
    · split at next
      · cases next
      · next boot done =>
        rcases idle_cases done with ⟨none, rfl⟩ | ⟨j, bound, found, -, mem, requested, inbox⟩
        · simp only [none] at next
          cases next
          exact inv
        · simp only [found] at next
          cases next
          exact inv.takes built bound mem requested inbox
    · cases next
  | moves hart state =>
    cases next
    exact inv.withBoot _ rfl fun _ _ => .inl rfl

end RprocInv

/-! ### The law -/

/-- Each time that the monitor looks for a request of a hart, it takes one of those that wait. -/
theorem bootRequests_consume {inputs : Inputs}
    (next : rprocNext cfg s (.consume hart inputs) = .ok t) :
    bootRequests cfg t.boot.ipiData hart = bootRequests cfg s.boot.ipiData hart - 1 := by
  simp only [rprocNext] at next
  split at next
  · split at next
    · cases next
    · next boot done =>
      rcases idle_cases done with ⟨none, rfl⟩ | ⟨j, bound, found, request, -, -, inbox⟩
      · have empty : bootRequests cfg s.boot.ipiData hart = 0 := by
          rw [bootRequests, List.length_eq_zero_iff, passing, List.filter_eq_nil_iff]
          intro msg held
          obtain ⟨i, less, rfl⟩ := List.mem_map.mp held
          have other := firstBelow_eq_none.mp none i (List.mem_range.mp less)
          exact fun passes => Bool.false_ne_true (other.symm.trans passes)
        simp only [none] at next
        cases next
        show bootRequests cfg s.boot.ipiData hart = _
        rw [empty]
      · obtain ⟨-, -, first⟩ := firstBelow_eq_some.mp found
        simp only [found] at next
        cases next
        have table : bootInbox boot.ipiData hart =
            Function.update (bootInbox s.boot.ipiData hart) j
              (bootInbox s.boot.ipiData hart j).cleared := by
          funext i
          rw [inbox, Function.update_apply]
          simp only [true_and]
        have taken : passing cfg.maxNumQueueMessages (bootInbox s.boot.ipiData hart)
            (fun msg => msg.msgType = .bootRequest) = bootInbox s.boot.ipiData hart j ::
              passing cfg.maxNumQueueMessages (Function.update (bootInbox s.boot.ipiData hart) j
                (bootInbox s.boot.ipiData hart j).cleared) fun msg => msg.msgType = .bootRequest :=
          passing_update_first bound (decide_eq_true request) first rfl
        show bootRequests cfg boot.ipiData hart = _
        rw [bootRequests, bootRequests, table, taken, List.length_cons, Nat.add_sub_cancel]
  · cases next

/-- While the record is left alone, each call that returned `SBI_OK` has its restart requested once,
for the hart that it named, when its message is taken, and the monitor takes the messages one by one. -/
theorem rproc_honoured (built : cfg.serviceOpensbiRproc = true) (start : RprocStart cfg s)
    {events : List RprocEvent} (run : Run (Under RprocSystem.Undisturbed fun s event t =>
      rprocNext cfg s event = .ok t) s events t) :
    t.Honoured ∧ ∀ hart inputs u, rprocNext cfg t (.consume hart inputs) = .ok u →
      bootRequests cfg u.boot.ipiData hart = bootRequests cfg t.boot.ipiData hart - 1 := by
  have inv : RprocInv cfg t := by
    refine run.invariant (I := RprocInv cfg) start.inv ?_
    exact fun u event v inv last => inv.step built last.1 last.2
  exact ⟨inv.honoured, fun hart inputs u next => bootRequests_consume next⟩

/-- An image is registered, and no machine is at work. -/
def rprocRegistered : State :=
  { powerOn .icicleKitEs (fun _ => 0) (fun _ _ => ⟨0, 0, .nullRegion, false, false, false, false⟩) 0 with
    pBootImage := 0x1000 }

def rprocIdle : RprocSystem where
  boot := rprocRegistered
  rprocData := 0x9000
  pc _ := .outside
  calls := 0
  named _ := none
  returned _ := none
  carries _ _ := none
  restarts _ := []

theorem rprocIdle_start : RprocStart .icicleKitEs rprocIdle where
  pc _ := rfl
  returned _ := rfl
  carries _ _ := rfl
  restarts _ := rfl
  queues _ _ _ message := by cases message.1

/-- The first hart names the context of the fourth. -/
def rprocCalled : RprocSystem :=
  { rprocIdle.goto .u54_1 (.alloc 0) with
    boot := { rprocRegistered with
      mem := storeTarget rprocRegistered.mem 0x9000 .u54_4 }
    calls := 1
    named := Function.update rprocIdle.named 0 (some .u54_4) }

def rprocAllocated : RprocSystem :=
  (rprocCalled.setIpi
    (ipiMessageAlloc .icicleKitEs (.u54 .u54_1) rprocRegistered.ipiData).1).goto .u54_1
      (.deliver 0 0)

/-- What a run of a machine is given while nothing is sent. -/
def quietInputs : Inputs := ⟨0, 0, 0, fun _ => true⟩

theorem rproc_honoured_fourth :
    ∃ t, Run (Under RprocSystem.Undisturbed fun s event t =>
        rprocNext .icicleKitEs s event = .ok t) rprocIdle
        [.call .u54_1 6, .alloc .u54_1, .deliver .u54_1 true, .consume .u54_1 quietInputs] t ∧
      t.returned 0 = some sbiOk ∧ t.restarts 0 = [.u54_4] ∧ t.Honoured := by
  obtain ⟨t, rest, ok, restarts⟩ := exists_run (rprocNext .icicleKitEs) rprocAllocated
    [.deliver .u54_1 true, .consume .u54_1 quietInputs]
    (P := fun t => t.returned 0 = some sbiOk ∧ t.restarts 0 = [.u54_4]) (by decide +kernel)
  obtain ⟨sent, deliver, rest⟩ := rest.uncons
  have call : rprocNext .icicleKitEs rprocIdle (.call .u54_1 6) = .ok rprocCalled := rfl
  have alloc : rprocNext .icicleKitEs rprocCalled (.alloc .u54_1) = .ok rprocAllocated := rfl
  have record : rprocAllocated.Undisturbed (.deliver .u54_1 true) := by
    intro call index pc
    cases pc
    exact (rprocTarget_storeTarget ..).symm
  have run : Run (Under RprocSystem.Undisturbed fun s event t =>
      rprocNext .icicleKitEs s event = .ok t) rprocIdle
      [.call .u54_1 6, .alloc .u54_1, .deliver .u54_1 true, .consume .u54_1 quietInputs] t := by
    have first : rprocIdle.Undisturbed (.call .u54_1 6) := fun _ _ call ok => by cases ok
    have start : Run (Under RprocSystem.Undisturbed fun s event t =>
        rprocNext .icicleKitEs s event = .ok t) rprocIdle
        [.call .u54_1 6, .alloc .u54_1, .deliver .u54_1 true] sent :=
      ((Run.single ⟨first, call⟩).trans (.single ⟨trivial, alloc⟩)).trans (.single ⟨record, deliver⟩)
    refine start.trans (rest.under RprocSystem.Undisturbed fun event mem s => ?_)
    rw [List.mem_singleton.mp mem]
    trivial
  exact ⟨t, run, ok, restarts, (rproc_honoured rfl rprocIdle_start run).1⟩

/-- The second hart makes a call before the message of the first is taken: the call of the first
returned `SBI_OK`, and the restart that is requested for it is that of another hart. -/
theorem rproc_overwritten :
    ∃ t, Run (fun s event t => rprocNext .icicleKitEs s event = .ok t) rprocIdle
        [.call .u54_1 6, .alloc .u54_1, .deliver .u54_1 true, .call .u54_2 5,
          .consume .u54_1 quietInputs] t ∧
      t.named 0 = some .u54_4 ∧ t.restarts 0 = [.u54_1] ∧ ¬ t.Honoured := by
  obtain ⟨t, run, ok, named, restarts⟩ := exists_run (rprocNext .icicleKitEs) rprocIdle
    [.call .u54_1 6, .alloc .u54_1, .deliver .u54_1 true, .call .u54_2 5,
      .consume .u54_1 quietInputs]
    (P := fun t => t.returned 0 = some sbiOk ∧ t.named 0 = some .u54_4 ∧ t.restarts 0 = [.u54_1])
    (by decide +kernel)
  refine ⟨t, run, named, restarts, fun honoured => ?_⟩
  obtain ⟨x, asked, ⟨-, none⟩ | ⟨-, once⟩⟩ := honoured 0 ok
  · rw [restarts] at none
    cases none
  · rw [restarts] at once
    rw [named] at asked
    cases once
    cases asked

end Hss
