import Mathlib.Logic.Relation
import Hss.Ipi.AckRouting

/-! Delivery on the bus: every message that was put in a queue is still there or was passed once to a
handler of its target. -/

namespace Hss

open SlotTable Runs

/-! ### Messages of one pair of harts -/

section
variable (a b : HartId) (m : OutboxMsg) (d : IpiData)

/-- How often `m` was put in the queue from `a` to `b` and reported as sent. -/
def acceptedCount : ℕ := d.history.count (.sent a b m true)

/-- How often `m` was put in the queue from `a` to `b` and reported as not sent. -/
def refusedCount : ℕ := d.history.count (.sent a b m false)

/-- How often `m` was passed to a handler of `b` as a message from `a`. -/
def deliveredCount : ℕ := d.history.count (.handled a b m)

/-- How often the queue from `a` to `b` holds `m`. -/
def queuedCount (cfg : Config) : ℕ :=
  occupancy cfg.maxNumQueueMessages (d.queues (ipiCalculateQueueIndex a b)).msgQ m

/-- What was put in the queue, less what is in it and what was delivered. -/
def balance (cfg : Config) : ℤ :=
  (acceptedCount a b m d + refusedCount a b m d : ℕ) -
    (queuedCount a b m d cfg + deliveredCount a b m d : ℕ)

end

/-- Nothing is added to the queues or to what was sent and delivered. -/
structure SameTraffic (d d' : IpiData) : Prop where
  msgQ : ∀ index, (d'.queues index).msgQ = (d.queues index).msgQ
  sent : ∀ a b m result, d'.history.count (.sent a b m result) = d.history.count (.sent a b m result)
  handled : ∀ a b m, d'.history.count (.handled a b m) = d.history.count (.handled a b m)

variable {cfg : Config} {accepts : Bool} {me source target a b : HartId} {msgType : MsgType}
  {msg m : OutboxMsg} {d d' : IpiData} {j : ℕ}

theorem SameTraffic.of_eq (queues : d'.queues = d.queues) (history : d'.history = d.history) :
    SameTraffic d d' :=
  ⟨fun _ => by rw [queues], fun _ _ _ _ => by rw [history], fun _ _ _ => by rw [history]⟩

theorem SameTraffic.balance (same : SameTraffic d d') :
    balance a b m d' cfg = balance a b m d cfg := by
  simp only [Hss.balance, acceptedCount, refusedCount, deliveredCount, queuedCount, same.msgQ,
    same.sent, same.handled]

theorem queuedCount_setMsg (d : IpiData) (msg m : OutboxMsg) (hj : j < cfg.maxNumQueueMessages)
    (ab : a ≠ b) (sourceTarget : me ≠ target) :
    queuedCount a b m (d.setMsg (ipiCalculateQueueIndex me target) j msg) cfg +
        (if me = a ∧ target = b ∧
          (d.queues (ipiCalculateQueueIndex me target)).msgQ j = m then 1 else 0) =
      queuedCount a b m d cfg + (if me = a ∧ target = b ∧ msg = m then 1 else 0) := by
  by_cases pair : me = a ∧ target = b
  · obtain ⟨rfl, rfl⟩ := pair
    simp only [queuedCount, IpiData.setMsg_msgQ_self, true_and]
    exact occupancy_update hj _ _ _
  · have other : ipiCalculateQueueIndex a b ≠ ipiCalculateQueueIndex me target := fun same =>
      have h := ipiCalculateQueueIndex_injective ab sourceTarget same
      pair ⟨h.1.symm, h.2.symm⟩
    rw [if_neg fun h => pair ⟨h.1, h.2.1⟩, if_neg fun h => pair ⟨h.1, h.2.1⟩, queuedCount,
      IpiData.setMsg_queues_of_ne _ _ _ _ other, queuedCount]

theorem stored_record_sent (a b me target : HartId) (msg m : OutboxMsg) (d : IpiData)
    (result : Bool) :
    acceptedCount a b m (d.record (.sent me target msg result)) +
        refusedCount a b m (d.record (.sent me target msg result)) =
      acceptedCount a b m d + refusedCount a b m d +
        (if me = a ∧ target = b ∧ msg = m then 1 else 0) := by
  simp only [acceptedCount, refusedCount, IpiData.record_history, List.count_cons, beq_iff_eq,
    BusEvent.sent.injEq]
  cases result <;> simp <;> omega

theorem deliveredCount_takeIntent : deliveredCount a b m (takeIntent source me j d) =
    deliveredCount a b m d + (if source = a ∧ me = b ∧
      (d.queues (ipiCalculateQueueIndex source me)).msgQ j = m then 1 else 0) := by
  simp only [deliveredCount, takeIntent_history, List.count_cons, beq_iff_eq,
    BusEvent.handled.injEq]

/-- A send keeps the balance: what it adds to a queue it records. -/
theorem balance_ipiSend (sourceTarget : me ≠ target) (ab : a ≠ b)
    (typed : m.msgType ≠ .noMessage) :
    balance a b m (ipiSend cfg accepts me target msg d).1 cfg = balance a b m d cfg := by
  simp only [ipiSend]
  cases slot : findAvailableSlot cfg d (ipiCalculateQueueIndex me target) with
  | none => rfl
  | some j =>
    obtain ⟨hj, empty, -⟩ := firstBelow_eq_some.mp slot
    have old : (d.queues (ipiCalculateQueueIndex me target)).msgQ j ≠ m := fun h =>
      typed (h ▸ of_decide_eq_true empty)
    have queued := queuedCount_setMsg d msg m hj ab sourceTarget
    simp only [old, and_false, if_false, Nat.add_zero] at queued
    have stored := stored_record_sent a b me target msg m d (raise cfg accepts)
    simp only [balance, acceptedCount, refusedCount, deliveredCount, queuedCount,
      IpiData.record_history, IpiData.record_queues, IpiData.setMsg_history,
      List.count_cons_of_ne (by simp : BusEvent.sent me target msg _ ≠ .handled a b m)]
      at stored queued ⊢
    omega

theorem balance_takeIntent : balance a b m (takeIntent source me j d) cfg =
    balance a b m d cfg - (if source = a ∧ me = b ∧
      (d.queues (ipiCalculateQueueIndex source me)).msgQ j = m then 1 else 0 : ℕ) := by
  simp only [balance, deliveredCount_takeIntent, acceptedCount, refusedCount, queuedCount,
    takeIntent_history, takeIntent_msgQ, List.count_cons_of_ne (by simp :
      BusEvent.handled source me _ ≠ .sent a b m _)]
  omega

/-- Clearing a slot takes its message off the queue. -/
theorem balance_clearMsg (hj : j < cfg.maxNumQueueMessages) (ab : a ≠ b) (sourceMe : source ≠ me)
    (typed : m.msgType ≠ .noMessage) :
    balance a b m (clearMsg (ipiCalculateQueueIndex source me) j d) cfg =
      balance a b m d cfg + (if source = a ∧ me = b ∧
        (d.queues (ipiCalculateQueueIndex source me)).msgQ j = m then 1 else 0 : ℕ) := by
  have queued := queuedCount_setMsg d ((d.queues (ipiCalculateQueueIndex source me)).msgQ j).cleared m
    hj ab sourceMe
  have cleared : ((d.queues (ipiCalculateQueueIndex source me)).msgQ j).cleared ≠ m := by
    rintro rfl
    exact typed rfl
  simp only [cleared, and_false, if_false, Nat.add_zero] at queued
  simp only [balance, acceptedCount, refusedCount, deliveredCount, queuedCount, clearMsg,
    IpiData.setMsg_history] at queued ⊢
  omega

/-! ### Handlers -/

/-- What a handler that runs on `me` does to the bus between two of its calls: it sends a message to
another hart, or does nothing to the traffic. -/
def HandlerStep (cfg : Config) (me : HartId) (d d' : IpiData) : Prop :=
  (∃ target ≠ me, ∃ msg accepts, d' = (ipiSend cfg accepts me target msg d).1) ∨ SameTraffic d d'

/-- A handler of `me` touches the queues through `IPI_Send` only, so never one that `me` scans. -/
def Confined (cfg : Config) (me : HartId) (handler : IpiHandler IpiData) : Prop :=
  ∀ {transactionId source immediateArg extendedBuffer ancilliaryBuffer d d' result},
    handler transactionId source immediateArg extendedBuffer ancilliaryBuffer d = .ok (d', result) →
    Relation.ReflTransGen (HandlerStep cfg me) d d'

/-- What a handler keeps: the balance of every message, what was delivered, the queues that its hart
scans, and, over the CLINT, that no message is refused. -/
structure Balanced (cfg : Config) (me : HartId) (d d' : IpiData) : Prop where
  balance : ∀ {a b m}, a ≠ b → OutboxMsg.msgType m ≠ .noMessage →
    balance a b m d' cfg = balance a b m d cfg
  delivered : ∀ a b m, deliveredCount a b m d' = deliveredCount a b m d
  inbox : ∀ {source}, source ≠ me → (d'.queues (ipiCalculateQueueIndex source me)).msgQ =
    (d.queues (ipiCalculateQueueIndex source me)).msgQ
  refused : cfg.hssUseIhc = false → ∀ a b m, refusedCount a b m d' = refusedCount a b m d

theorem Balanced.refl (me : HartId) : Balanced cfg me d d :=
  ⟨fun _ _ => rfl, fun _ _ _ => rfl, fun _ => rfl, fun _ _ _ _ => rfl⟩

theorem Balanced.trans {e : IpiData} (h : Balanced cfg me d d') (h' : Balanced cfg me d' e) :
    Balanced cfg me d e where
  balance ab typed := (h'.balance ab typed).trans (h.balance ab typed)
  delivered a b m := (h'.delivered a b m).trans (h.delivered a b m)
  inbox ne := (h'.inbox ne).trans (h.inbox ne)
  refused clint a b m := (h'.refused clint a b m).trans (h.refused clint a b m)

theorem SameTraffic.balanced (same : SameTraffic d d') : Balanced cfg me d d' :=
  ⟨fun _ _ => same.balance, same.handled, fun _ => same.msgQ _,
    fun _ a b m => same.sent a b m false⟩

theorem Balanced.send (other : target ≠ me) :
    Balanced cfg me d (ipiSend cfg accepts me target msg d).1 where
  balance ab typed := balance_ipiSend other.symm ab typed
  delivered a b m := by
    simp only [ipiSend]
    split
    · rfl
    · exact List.count_cons_of_ne (by simp)
  inbox ne := by
    rw [ipiSend_queues_of_ne]
    exact fun same => ne (ipiCalculateQueueIndex_injective ne other.symm same).1
  refused clint a b m := by
    simp only [ipiSend]
    split
    · rfl
    · exact List.count_cons_of_ne (by simp [raise, clint])

theorem Balanced.handlerStep (step : HandlerStep cfg me d d') : Balanced cfg me d d' := by
  rcases step with ⟨target, other, msg, accepts, rfl⟩ | same
  · exact .send other
  · exact same.balanced

theorem Balanced.handler (steps : Relation.ReflTransGen (HandlerStep cfg me) d d') :
    Balanced cfg me d d' := by
  induction steps with
  | refl => exact .refl me
  | tail _ step ih => exact ih.trans (.handlerStep step)

theorem Balanced.acknowledge (accepts : Bool) (other : source ≠ me) (msg : OutboxMsg)
    (result : StatusCode) (d : IpiData) :
    Balanced cfg me d (acknowledge cfg accepts source me msg result d) := by
  unfold Hss.acknowledge
  split
  case h_4 =>
    split
    · exact .refl me
    · exact .send other
  all_goals exact .refl me

/-! ### Runs of calls -/

/-- What a call keeps: the balance of every message, that what was delivered had a type and came
from another hart, and, over the CLINT, that no message is refused. -/
structure Delivers (cfg : Config) (d d' : IpiData) : Prop where
  balance : ∀ {a b m}, a ≠ b → OutboxMsg.msgType m ≠ .noMessage →
    Hss.balance a b m d' cfg = Hss.balance a b m d cfg
  delivered : ∀ {a b m}, deliveredCount a b m d' ≠ deliveredCount a b m d →
    a ≠ b ∧ OutboxMsg.msgType m ≠ .noMessage
  refused : cfg.hssUseIhc = false → ∀ a b m, refusedCount a b m d' = refusedCount a b m d

theorem Balanced.delivers (h : Balanced cfg me d d') : Delivers cfg d d' :=
  ⟨h.balance, fun change => absurd (h.delivered _ _ _) change, h.refused⟩

/-- A message that is consumed leaves its queue once and is delivered once. -/
theorem Delivers.consume {registry : IpiRegistry cfg IpiData} (sourceMe : source ≠ me)
    (ofType : msgType ≠ .noMessage)
    (confined : ∀ {msgType handler}, registry.handler msgType = some handler →
      Confined cfg me handler) {intentFound : Bool}
    (done : ipiConsumeIntent cfg registry.handler accepts me source msgType d =
      .ok (d', intentFound)) : Delivers cfg d d' := by
  rcases ipiConsumeIntent_cases done with
    ⟨rfl, -⟩ | ⟨j, handler, e, result, found, entry, handled, rfl⟩
  · exact (Balanced.refl me).delivers
  obtain ⟨hj, isType, -⟩ := firstBelow_eq_some.mp found
  have kept : Balanced cfg me (takeIntent source me j d) e := .handler (confined entry handled)
  have both := kept.trans (.acknowledge accepts sourceMe
    ((e.queues (ipiCalculateQueueIndex source me)).msgQ j) result e)
  refine ⟨fun ab typed => ?_, fun {a b m} change => ?_, both.refused⟩
  · have cleared := balance_clearMsg (d := Hss.acknowledge cfg accepts source me
      ((e.queues (ipiCalculateQueueIndex source me)).msgQ j) result e) hj ab sourceMe typed
    rw [both.balance ab typed, both.inbox sourceMe, takeIntent_msgQ, balance_takeIntent] at cleared
    refine cleared.trans ?_
    omega
  · by_contra improper
    refine change ((both.delivered a b m).trans ?_)
    rw [deliveredCount_takeIntent, if_neg, Nat.add_zero]
    rintro ⟨rfl, rfl, rfl⟩
    exact improper ⟨sourceMe, fun untyped =>
      ofType ((of_decide_eq_true isType).symm.trans untyped)⟩

/-- The calls between different harts, of messages that have a type. -/
def BusCall.Proper : BusCall → Prop
  | .send hart target msg _ => hart ≠ target ∧ msg.msgType ≠ .noMessage
  | .deliver hart _ target message _ _ _ _ => hart ≠ target ∧ message ≠ .noMessage
  | .consume hart source msgType _ => source ≠ hart ∧ msgType ≠ .noMessage
  | _ => True

theorem SameTraffic.delivers (same : SameTraffic d d') : Delivers cfg d d' :=
  ⟨fun _ _ => same.balance, fun change => absurd (same.handled _ _ _) change,
    fun _ a b m => same.sent a b m false⟩

theorem SameTraffic.alloc {hart : HartId} : SameTraffic d (ipiMessageAlloc cfg hart d).1 := by
  unfold ipiMessageAlloc
  split
  · exact .of_eq rfl rfl
  · exact ⟨fun _ => rfl, fun a b m result => List.count_cons_of_ne (by simp),
      fun a b m => List.count_cons_of_ne (by simp)⟩

theorem SameTraffic.trans {e : IpiData} (h : SameTraffic d d') (h' : SameTraffic d' e) :
    SameTraffic d e where
  msgQ index := (h'.msgQ index).trans (h.msgQ index)
  sent a b m result := (h'.sent a b m result).trans (h.sent a b m result)
  handled a b m := (h'.handled a b m).trans (h.handled a b m)

theorem SameTraffic.poll (mask : BitVec 32) : SameTraffic d (ipiPollReceive cfg me mask d).1 := by
  refine ipiPollReceive_induction (fun source e same => same.trans ?_) mask (.of_eq rfl rfl)
  exact ⟨pollQueue_msgQ, fun _ _ _ _ => by rw [pollQueue_history],
    fun _ _ _ => by rw [pollQueue_history]⟩

theorem Delivers.call {registry : HartId → IpiRegistry cfg IpiData} {call : BusCall}
    (confined : ∀ hart msgType handler, (registry hart).handler msgType = some handler →
      Confined cfg hart handler) (proper : call.Proper)
    (next : busNext cfg registry d call = .ok d') : Delivers cfg d d' := by
  cases call with
  | alloc hart =>
    cases next
    exact SameTraffic.alloc.delivers
  | deliver hart index target message =>
    simp only [busNext, bind_eq_ok] at next
    obtain ⟨⟨e, sent⟩, done, next⟩ := next
    cases next
    obtain ⟨-, done⟩ := ipiMessageDeliver_eq_ok.mp done
    have after : e = _ := congrArg Prod.fst done
    rw [after]
    split
    · exact (Balanced.send proper.1.symm).delivers
    · exact (Balanced.refl hart).delivers
  | free hart index =>
    obtain ⟨-, rfl⟩ := ipiMessageFree_eq_ok.mp next
    refine SameTraffic.delivers ⟨fun _ => rfl, fun a b m result => ?_, fun a b m => ?_⟩
    · exact List.count_cons_of_ne (by simp)
    · exact List.count_cons_of_ne (by simp)
  | send hart target msg =>
    cases next
    exact (Balanced.send proper.1.symm).delivers
  | poll hart mask =>
    cases next
    exact (SameTraffic.poll mask).delivers
  | consume hart source msgType =>
    simp only [busNext, bind_eq_ok] at next
    obtain ⟨⟨e, intentFound⟩, done, next⟩ := next
    cases next
    exact .consume proper.1 proper.2 (confined hart _ _) done

/-- Of the messages that were reported as sent, each is in its queue or was delivered once, and
nothing else was delivered. -/
structure ExactlyOnce (cfg : Config) (d : IpiData) : Prop where
  conserved : ∀ {a b m}, a ≠ b → OutboxMsg.msgType m ≠ .noMessage →
    acceptedCount a b m d = queuedCount a b m d cfg + deliveredCount a b m d
  proper : ∀ {a b m}, deliveredCount a b m d ≠ 0 → a ≠ b ∧ OutboxMsg.msgType m ≠ .noMessage

variable {registry : HartId → IpiRegistry cfg IpiData} {calls : List BusCall}

/-- What every run keeps. -/
theorem run_delivers (confined : ∀ hart msgType handler,
      (registry hart).handler msgType = some handler → Confined cfg hart handler)
    (run : Run (Under (fun _ call => call.Proper) fun d call d' => busNext cfg registry d call = .ok d')
      ipiQueuesInit calls d) : Delivers cfg ipiQueuesInit d := by
  refine run.invariant (SameTraffic.of_eq rfl rfl).delivers fun e call e' before next => ?_
  have after := Delivers.call confined next.1 next.2
  refine ⟨fun ab typed => (after.balance ab typed).trans (before.balance ab typed),
    fun {a b m} change => ?_, fun clint a b m =>
      (after.refused clint a b m).trans (before.refused clint a b m)⟩
  by_cases same : deliveredCount a b m e' = deliveredCount a b m e
  · exact before.delivered fun h => change (same.trans h)
  · exact after.delivered same

theorem balance_ipiQueuesInit (typed : m.msgType ≠ .noMessage) :
    balance a b m ipiQueuesInit cfg = 0 := by
  have empty : queuedCount a b m ipiQueuesInit cfg = 0 :=
    occupancy_const_of_ne fun h => typed (h ▸ rfl)
  rw [balance, empty]
  rfl

/-- In every run what was put in a queue is in it or was delivered. -/
theorem run_conserved (confined : ∀ hart msgType handler,
      (registry hart).handler msgType = some handler → Confined cfg hart handler)
    (run : Run (Under (fun _ call => call.Proper) fun d call d' => busNext cfg registry d call = .ok d')
      ipiQueuesInit calls d) (ab : a ≠ b) (typed : m.msgType ≠ .noMessage) :
    acceptedCount a b m d + refusedCount a b m d =
      queuedCount a b m d cfg + deliveredCount a b m d := by
  have kept := ((run_delivers confined run).balance ab typed).trans (balance_ipiQueuesInit typed)
  unfold balance at kept
  omega

/-- In every run of calls by the two ends of the queues, delivery is exactly once if and only if the
transport refused no message that had found a slot: `IPI_Send` reports such a message as not sent
but leaves it in its slot. -/
theorem exactlyOnce_iff (confined : ∀ hart msgType handler,
      (registry hart).handler msgType = some handler → Confined cfg hart handler)
    (run : Run (Under (fun _ call => call.Proper) fun d call d' => busNext cfg registry d call = .ok d')
      ipiQueuesInit calls d) :
    ExactlyOnce cfg d ↔
      ∀ {a b m}, a ≠ b → OutboxMsg.msgType m ≠ .noMessage → refusedCount a b m d = 0 := by
  constructor
  · intro once a b m ab typed
    have := run_conserved confined run ab typed
    have := once.conserved ab typed
    omega
  · refine fun accepted => ⟨fun ab typed => ?_, (run_delivers confined run).delivered⟩
    have := run_conserved confined run ab typed
    have := accepted ab typed
    omega

theorem ackIpiHandler_confined (hart : HartId) : Confined cfg hart (ipiAckIpiHandler cfg) := by
  intro transactionId source immediateArg extendedBuffer ancilliaryBuffer d d' result done
  cases done
  exact .single (.inr (.of_eq (ipiMessageUpdateStatus_queues ..) (ipiMessageUpdateStatus_history ..)))

theorem nullIpiHandler_confined (hart : HartId) : Confined cfg hart hssNullIpiHandler := by
  intro transactionId source immediateArg extendedBuffer ancilliaryBuffer d d' result done
  cases done
  exact .refl

theorem bare_confined (hart : HartId) (msgType : MsgType) (handler : IpiHandler IpiData)
    (entry : (IpiRegistry.bare cfg IpiData).handler msgType = some handler) :
    Confined cfg hart handler := by
  cases msgType
  case ackPending => cases entry; exact ackIpiHandler_confined hart
  case ackComplete => cases entry; exact ackIpiHandler_confined hart
  all_goals cases entry; exact nullIpiHandler_confined hart

/-- The monitor asks an application hart to set up its memory protection and takes its answer. -/
def pmpExchange : List BusCall :=
  [.alloc .e51, .deliver .e51 0 (.u54 .u54_1) .pmpSetup 0 0 0 true,
    .consume (.u54 .u54_1) .e51 .pmpSetup true, .poll .e51 bitmaskAllU54,
    .consume .e51 (.u54 .u54_1) .ackComplete true]

theorem exactlyOnce_iff_pmpExchange :
    ∃ d, Run (Under (fun _ call => call.Proper) fun d call d' =>
        busNext .icicleKitEs (fun _ => .bare ..) d call = .ok d') ipiQueuesInit pmpExchange d ∧
      (ExactlyOnce .icicleKitEs d ↔
        ∀ {a b m}, a ≠ b → OutboxMsg.msgType m ≠ .noMessage → refusedCount a b m d = 0) := by
  obtain ⟨d, run, -⟩ := exists_run (busNext .icicleKitEs fun _ => .bare ..) ipiQueuesInit
    pmpExchange (P := fun _ => True) (by decide +kernel)
  have proper : ∀ call ∈ pmpExchange, call.Proper := by simp [pmpExchange, BusCall.Proper]
  have run := run.under (fun _ call => call.Proper) fun call h _ => proper call h
  exact ⟨d, run, exactlyOnce_iff (fun hart => bare_confined hart) run⟩

/-- Over the inter-hart block: a message that `IPI_Send` reports as not sent is delivered. -/
theorem refused_delivered :
    ∃ d, Run (Under (fun _ call => call.Proper) fun d call d' =>
        busNext { Config.icicleKitEs with hssUseIhc := true } (fun _ => .bare ..) d call = .ok d')
        ipiQueuesInit [.send .e51 (.u54 .u54_1) ⟨.pmpSetup, 1, 0, 0, 0⟩ false,
          .consume (.u54 .u54_1) .e51 .pmpSetup true] d ∧
      acceptedCount .e51 (.u54 .u54_1) ⟨.pmpSetup, 1, 0, 0, 0⟩ d = 0 ∧
      deliveredCount .e51 (.u54 .u54_1) ⟨.pmpSetup, 1, 0, 0, 0⟩ d = 1 ∧
      ¬ ExactlyOnce { Config.icicleKitEs with hssUseIhc := true } d := by
  obtain ⟨d, run, accepted, delivered⟩ := exists_run
    (busNext { Config.icicleKitEs with hssUseIhc := true } fun _ => .bare ..) ipiQueuesInit
    [.send .e51 (.u54 .u54_1) ⟨.pmpSetup, 1, 0, 0, 0⟩ false,
      .consume (.u54 .u54_1) .e51 .pmpSetup true]
    (P := fun d => acceptedCount .e51 (.u54 .u54_1) ⟨.pmpSetup, 1, 0, 0, 0⟩ d = 0 ∧
      deliveredCount .e51 (.u54 .u54_1) ⟨.pmpSetup, 1, 0, 0, 0⟩ d = 1) (by decide +kernel)
  refine ⟨d, run.under _ ?_, accepted, delivered, fun once => ?_⟩
  · simp [BusCall.Proper]
  · have := once.conserved (a := .e51) (b := .u54 .u54_1) (m := ⟨.pmpSetup, 1, 0, 0, 0⟩)
      (by decide) (by decide)
    omega

/-- Over the CLINT, which refuses nothing, delivery is exactly once in every run. -/
theorem exactlyOnce_of_clint (clint : cfg.hssUseIhc = false)
    (confined : ∀ hart msgType handler,
      (registry hart).handler msgType = some handler → Confined cfg hart handler)
    (run : Run (Under (fun _ call => call.Proper) fun d call d' => busNext cfg registry d call = .ok d')
      ipiQueuesInit calls d) : ExactlyOnce cfg d where
  conserved {a b m} ab typed := by
    have conserved := run_conserved confined run ab typed
    rwa [(run_delivers confined run).refused clint a b m] at conserved
  proper := (run_delivers confined run).delivered

end Hss
