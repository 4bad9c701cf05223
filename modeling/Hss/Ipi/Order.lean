import Hss.Ipi.Delivery
import Hss.Ipi.Send

/-! The order in which the messages of one type are handled: a queue is read from its lowest slot,
and a slot is taken again as soon as it is free. -/

namespace Hss

open SlotTable Runs

/-! ### What was sent, what waits and what was handled -/

section
variable (a b : HartId) (msgType : MsgType)

/-- The message of the type that an event put in the queue from `a` to `b`. -/
def sentMsg : BusEvent → Option OutboxMsg
  | .sent source target msg _ =>
    if source = a ∧ target = b ∧ msg.msgType = msgType then some msg else none
  | _ => none

/-- The message of the type that an event passed to a handler of `b` as one from `a`. -/
def handledMsg : BusEvent → Option OutboxMsg
  | .handled source target msg =>
    if source = a ∧ target = b ∧ msg.msgType = msgType then some msg else none
  | _ => none

/-- The message is of the type. -/
def hasType (msg : OutboxMsg) : Bool := msg.msgType = msgType

variable (d : IpiData)

/-- The messages of the type that were put in the queue from `a` to `b`, oldest first. -/
def sentMsgs : List OutboxMsg := (d.history.filterMap (sentMsg a b msgType)).reverse

/-- The messages of the type from `a` that were passed to a handler of `b`, oldest first. -/
def handledMsgs : List OutboxMsg := (d.history.filterMap (handledMsg a b msgType)).reverse

/-- The messages of the type that wait in the queue from `a` to `b`, in the order of their slots. -/
def queuedMsgs (cfg : Config) : List OutboxMsg :=
  passing cfg.maxNumQueueMessages (d.queues (ipiCalculateQueueIndex a b)).msgQ (hasType msgType)

/-- What was sent is what was handled and then what waits, in this order. -/
def InOrder (cfg : Config) : Prop :=
  sentMsgs a b msgType d = handledMsgs a b msgType d ++ queuedMsgs a b msgType d cfg

/-- A send from `a` to `b` would use a slot behind those of all messages of the type. -/
def Behind (cfg : Config) : Prop :=
  ∀ j, findAvailableSlot cfg d (ipiCalculateQueueIndex a b) = some j →
    ∀ k < cfg.maxNumQueueMessages,
      ((d.queues (ipiCalculateQueueIndex a b)).msgQ k).msgType = msgType → k < j

instance (cfg : Config) : Decidable (Behind a b msgType d cfg) :=
  inferInstanceAs (Decidable (∀ j ∈ findAvailableSlot cfg d (ipiCalculateQueueIndex a b),
    ∀ k < cfg.maxNumQueueMessages,
      ((d.queues (ipiCalculateQueueIndex a b)).msgQ k).msgType = msgType → k < j))

end

/-- Nothing is sent, handled or moved. -/
structure Idle (d d' : IpiData) : Prop where
  msgQ : ∀ index, (d'.queues index).msgQ = (d.queues index).msgQ
  sent : ∀ a b msgType, sentMsgs a b msgType d' = sentMsgs a b msgType d
  handled : ∀ a b msgType, handledMsgs a b msgType d' = handledMsgs a b msgType d

variable {cfg : Config} {accepts : Bool} {me source target a b : HartId} {msgType : MsgType}
  {msg : OutboxMsg} {d d' : IpiData} {j : ℕ}

theorem Idle.of_eq (queues : d'.queues = d.queues) (history : d'.history = d.history) :
    Idle d d' where
  msgQ _ := by rw [queues]
  sent _ _ _ := by rw [sentMsgs, history, sentMsgs]
  handled _ _ _ := by rw [handledMsgs, history, handledMsgs]

theorem Idle.trans {e : IpiData} (h : Idle d d') (h' : Idle d' e) : Idle d e where
  msgQ index := (h'.msgQ index).trans (h.msgQ index)
  sent a b msgType := (h'.sent a b msgType).trans (h.sent a b msgType)
  handled a b msgType := (h'.handled a b msgType).trans (h.handled a b msgType)

theorem Idle.record {event : BusEvent} (sent : ∀ a b msgType, sentMsg a b msgType event = none)
    (handled : ∀ a b msgType, handledMsg a b msgType event = none) : Idle d (d.record event) where
  msgQ _ := rfl
  sent a b msgType := by
    rw [sentMsgs, IpiData.record_history, List.filterMap_cons_none (sent a b msgType), sentMsgs]
  handled a b msgType := by
    rw [handledMsgs, IpiData.record_history, List.filterMap_cons_none (handled a b msgType),
      handledMsgs]

theorem Idle.inOrder (idle : Idle d d') (order : InOrder a b msgType d cfg) :
    InOrder a b msgType d' cfg := by
  rw [InOrder, idle.sent, idle.handled, queuedMsgs, idle.msgQ]
  exact order

/-! ### Sends -/

/-- What one pair of harts and one type of message see of a change of the bus. -/
structure SameFlow (a b : HartId) (msgType : MsgType) (d d' : IpiData) : Prop where
  msgQ : (d'.queues (ipiCalculateQueueIndex a b)).msgQ = (d.queues (ipiCalculateQueueIndex a b)).msgQ
  sent : sentMsgs a b msgType d' = sentMsgs a b msgType d
  handled : handledMsgs a b msgType d' = handledMsgs a b msgType d

theorem Idle.sameFlow (idle : Idle d d') : SameFlow a b msgType d d' :=
  ⟨idle.msgQ _, idle.sent a b msgType, idle.handled a b msgType⟩

theorem SameFlow.refl : SameFlow a b msgType d d := ⟨rfl, rfl, rfl⟩

theorem SameFlow.trans {e : IpiData} (h : SameFlow a b msgType d d')
    (h' : SameFlow a b msgType d' e) : SameFlow a b msgType d e :=
  ⟨h'.msgQ.trans h.msgQ, h'.sent.trans h.sent, h'.handled.trans h.handled⟩

theorem SameFlow.inOrder (same : SameFlow a b msgType d d') (order : InOrder a b msgType d cfg) :
    InOrder a b msgType d' cfg := by
  rw [InOrder, same.sent, same.handled, queuedMsgs, same.msgQ]
  exact order

theorem SameFlow.send (ab : a ≠ b) (meTarget : me ≠ target) (other : ¬ (me = a ∧ target = b)) :
    SameFlow a b msgType d (ipiSend cfg accepts me target msg d).1 := by
  have apart : ipiCalculateQueueIndex a b ≠ ipiCalculateQueueIndex me target := fun same =>
    have pair := ipiCalculateQueueIndex_injective ab meTarget same
    other ⟨pair.1.symm, pair.2.symm⟩
  refine ⟨by rw [ipiSend_queues_of_ne _ _ _ _ _ _ apart], ?_, ?_⟩
  · simp only [ipiSend]
    split
    · rfl
    · have unseen : sentMsg a b msgType (.sent me target msg (raise cfg accepts)) = none :=
        if_neg fun h => other ⟨h.1, h.2.1⟩
      rw [sentMsgs, IpiData.record_history, List.filterMap_cons_none unseen]
      rfl
  · simp only [ipiSend]
    split
    · rfl
    · rw [handledMsgs, IpiData.record_history, List.filterMap_cons_none (by rfl)]
      rfl

/-- A send keeps the order if the slot it uses lies behind. -/
theorem InOrder.send (ab : a ≠ b) (typed : msgType ≠ .noMessage) (meTarget : me ≠ target)
    (behind : me = a → target = b → msg.msgType = msgType → Behind a b msgType d cfg)
    (order : InOrder a b msgType d cfg) :
    InOrder a b msgType (ipiSend cfg accepts me target msg d).1 cfg := by
  by_cases pair : me = a ∧ target = b
  · obtain ⟨rfl, rfl⟩ := pair
    cases slot : findAvailableSlot cfg d (ipiCalculateQueueIndex me target) with
    | none => rwa [ipiSend_of_full slot]
    | some j =>
      obtain ⟨bound, free, -⟩ := firstBelow_eq_some.mp slot
      have old : hasType msgType ((d.queues (ipiCalculateQueueIndex me target)).msgQ j) = false :=
        decide_eq_false fun same => typed (same.symm.trans (of_decide_eq_true free))
      rw [ipiSend_of_slot slot]
      have handled : handledMsg me target msgType (.sent me target msg (raise cfg accepts)) = none :=
        rfl
      simp only [InOrder, sentMsgs, handledMsgs, queuedMsgs, IpiData.record_history,
        IpiData.record_queues, IpiData.setMsg_history, IpiData.setMsg_msgQ_self,
        List.filterMap_cons_none handled]
      by_cases ofType : msg.msgType = msgType
      · have sent : sentMsg me target msgType (.sent me target msg (raise cfg accepts)) = some msg :=
          if_pos ⟨rfl, rfl, ofType⟩
        have passes : hasType msgType msg = true := decide_eq_true ofType
        rw [List.filterMap_cons_some sent, List.reverse_cons, passing_update_last bound
          (fun k hk same => behind rfl rfl ofType j slot k hk (of_decide_eq_true same)) passes,
          ← List.append_assoc]
        exact congrArg (· ++ [msg]) order
      · have sent : sentMsg me target msgType (.sent me target msg (raise cfg accepts)) = none :=
          if_neg fun h => ofType h.2.2
        have fails : hasType msgType msg = false := decide_eq_false ofType
        rw [List.filterMap_cons_none sent, passing_update_fails bound old fails]
        exact order
  · exact (SameFlow.send ab meTarget pair).inOrder order

/-! ### Handlers -/

/-- What a handler that runs on `me` does to the bus between two of its calls. -/
def SendOrIdle (cfg : Config) (me : HartId) (d d' : IpiData) : Prop :=
  (∃ target ≠ me, ∃ msg accepts, d' = (ipiSend cfg accepts me target msg d).1) ∨ Idle d d'

/-- A handler of `me` touches the queues through `IPI_Send` only. -/
def SendsOnly (cfg : Config) (me : HartId) (handler : IpiHandler IpiData) : Prop :=
  ∀ {transactionId source immediateArg extendedBuffer ancilliaryBuffer d d' result},
    handler transactionId source immediateArg extendedBuffer ancilliaryBuffer d = .ok (d', result) →
    Relation.ReflTransGen (SendOrIdle cfg me) d d'

theorem SameFlow.handler (ab : a ≠ b) (other : me ≠ a)
    (steps : Relation.ReflTransGen (SendOrIdle cfg me) d d') : SameFlow a b msgType d d' := by
  induction steps with
  | refl => exact .refl
  | tail _ step ih =>
    refine ih.trans ?_
    rcases step with ⟨target, apart, msg, accepts, rfl⟩ | idle
    · exact .send ab apart.symm fun pair => other pair.1
    · exact idle.sameFlow

/-- A handler of `a` keeps the order if each of its sends does. -/
theorem InOrder.handler (ab : a ≠ b) (typed : msgType ≠ .noMessage)
    (behind : ∀ e msg accepts, Relation.ReflTransGen (SendOrIdle cfg a) d e →
      msg.msgType = msgType →
      Relation.ReflTransGen (SendOrIdle cfg a) (ipiSend cfg accepts a b msg e).1 d' →
      Behind a b msgType e cfg)
    (steps : Relation.ReflTransGen (SendOrIdle cfg a) d d') (order : InOrder a b msgType d cfg) :
    InOrder a b msgType d' cfg := by
  suffices along : ∀ e, Relation.ReflTransGen (SendOrIdle cfg a) e d' →
      Relation.ReflTransGen (SendOrIdle cfg a) d e → InOrder a b msgType e cfg →
      InOrder a b msgType d' cfg from along d steps .refl order
  intro e rest
  -- the induction is on what is left of the handler: each send needs what comes before and after it
  induction rest using Relation.ReflTransGen.head_induction_on with
  | refl => exact fun _ order => order
  | @head e e' step rest ih =>
    intro done order
    refine ih (done.tail step) ?_
    rcases step with ⟨target, apart, msg, accepts, rfl⟩ | idle
    · refine order.send ab typed apart.symm fun _ same ofType => ?_
      subst same
      exact behind e msg accepts done ofType rest
    · exact idle.inOrder order

/-! ### Consuming -/

theorem sameFlow_acknowledge (ab : a ≠ b) (other : me ≠ a) (sourceMe : source ≠ me)
    (result : StatusCode) :
    SameFlow a b msgType d (acknowledge cfg accepts source me msg result d) := by
  unfold acknowledge
  split
  case h_4 =>
    split
    · exact .refl
    · exact .send ab sourceMe.symm fun pair => other pair.1
  all_goals exact .refl

theorem InOrder.acknowledge (ab : a ≠ b) (typed : msgType ≠ .noMessage) (sourceMe : source ≠ a)
    {result : StatusCode}
    (behind : source = b → msg.msgType.acknowledged = true →
      ∀ ack, ackOf result msg.transactionId = some ack → ack.msgType = msgType →
      Behind a b msgType d cfg) (order : InOrder a b msgType d cfg) :
    InOrder a b msgType (Hss.acknowledge cfg accepts source a msg result d) cfg := by
  rw [acknowledge_eq]
  by_cases acked : msg.msgType.acknowledged = true
  · rw [if_pos acked]
    cases answer : ackOf result msg.transactionId with
    | none => exact order
    | some ack =>
      exact order.send ab typed sourceMe.symm fun _ same ofType => behind same acked ack answer ofType
  · rwa [if_neg acked]

/-- Taking a message of another pair or type. -/
theorem SameFlow.take (other : ¬ (source = a ∧ me = b ∧
      ((d.queues (ipiCalculateQueueIndex source me)).msgQ j).msgType = msgType)) :
    SameFlow a b msgType d (takeIntent source me j d) where
  msgQ := takeIntent_msgQ ..
  sent := by rw [sentMsgs, takeIntent_history, List.filterMap_cons_none (by rfl), sentMsgs]
  handled := by
    have unseen : handledMsg a b msgType (.handled source me
        ((d.queues (ipiCalculateQueueIndex source me)).msgQ j)) = none := if_neg other
    rw [handledMsgs, takeIntent_history, List.filterMap_cons_none unseen, handledMsgs]

/-- Clearing a slot of another queue, or one that holds no message of the type. -/
theorem inOrder_clearMsg (ab : a ≠ b) (typed : msgType ≠ .noMessage) (sourceMe : source ≠ me)
    (bound : j < cfg.maxNumQueueMessages) (other : ¬ (source = a ∧ me = b ∧
      ((d.queues (ipiCalculateQueueIndex source me)).msgQ j).msgType = msgType))
    (order : InOrder a b msgType d cfg) :
    InOrder a b msgType (clearMsg (ipiCalculateQueueIndex source me) j d) cfg := by
  have queued : queuedMsgs a b msgType (clearMsg (ipiCalculateQueueIndex source me) j d) cfg =
      queuedMsgs a b msgType d cfg := by
    by_cases pair : source = a ∧ me = b
    · obtain ⟨rfl, rfl⟩ := pair
      have old : hasType msgType ((d.queues (ipiCalculateQueueIndex source me)).msgQ j) = false :=
        decide_eq_false fun ofType => other ⟨rfl, rfl, ofType⟩
      have cleared : hasType msgType
          ((d.queues (ipiCalculateQueueIndex source me)).msgQ j).cleared = false :=
        decide_eq_false typed.symm
      rw [queuedMsgs, clearMsg, IpiData.setMsg_msgQ_self, passing_update_fails bound old cleared]
      rfl
    · rw [queuedMsgs, clearMsg_queues_of_ne, queuedMsgs]
      exact fun same => pair
        ((ipiCalculateQueueIndex_injective ab sourceMe same).imp Eq.symm Eq.symm)
  rw [InOrder, queued]
  exact order

/-- The first message of the type is handled and its slot cleared, with nothing between that
concerns the pair. -/
theorem InOrder.consume {e : IpiData} (typed : msgType ≠ .noMessage)
    (found : findIntent cfg d (ipiCalculateQueueIndex a b) msgType = some j)
    (between : SameFlow a b msgType (takeIntent a b j d) e) (order : InOrder a b msgType d cfg) :
    InOrder a b msgType (clearMsg (ipiCalculateQueueIndex a b) j e) cfg := by
  obtain ⟨bound, ofType, before⟩ := firstBelow_eq_some.mp found
  have queue := between.msgQ
  rw [takeIntent_msgQ] at queue
  have passes : hasType msgType ((d.queues (ipiCalculateQueueIndex a b)).msgQ j) = true := ofType
  have first : ∀ k < j, hasType msgType ((d.queues (ipiCalculateQueueIndex a b)).msgQ k) = false :=
    before
  have cleared : hasType msgType ((d.queues (ipiCalculateQueueIndex a b)).msgQ j).cleared = false :=
    decide_eq_false typed.symm
  have queued : queuedMsgs a b msgType d cfg =
      (d.queues (ipiCalculateQueueIndex a b)).msgQ j ::
        queuedMsgs a b msgType (clearMsg (ipiCalculateQueueIndex a b) j e) cfg := by
    rw [queuedMsgs, passing_update_first bound passes first cleared, queuedMsgs, clearMsg,
      IpiData.setMsg_msgQ_self, queue]
  have taken : handledMsg a b msgType (.handled a b ((d.queues (ipiCalculateQueueIndex a b)).msgQ j)) =
      some ((d.queues (ipiCalculateQueueIndex a b)).msgQ j) :=
    if_pos ⟨rfl, rfl, of_decide_eq_true ofType⟩
  have handled : handledMsgs a b msgType (clearMsg (ipiCalculateQueueIndex a b) j e) =
      handledMsgs a b msgType d ++ [(d.queues (ipiCalculateQueueIndex a b)).msgQ j] := by
    rw [handledMsgs, clearMsg_history, ← handledMsgs, between.handled, handledMsgs,
      takeIntent_history, List.filterMap_cons_some taken, List.reverse_cons, handledMsgs]
  have sent : sentMsgs a b msgType (clearMsg (ipiCalculateQueueIndex a b) j e) =
      sentMsgs a b msgType d := by
    rw [sentMsgs, clearMsg_history, ← sentMsgs, between.sent, sentMsgs, takeIntent_history,
      List.filterMap_cons_none (by rfl), sentMsgs]
  rw [InOrder, sent, handled, List.append_assoc, List.singleton_append, ← queued]
  exact order

/-! ### Runs of calls -/

/-- The sends of a call that concern the pair and the type use slots behind: of a call of
`IPI_ConsumeIntent` by `a`, those of the handler and the acknowledgement. -/
def SendsBehind (registry : HartId → IpiRegistry cfg IpiData) (a b : HartId) (msgType : MsgType)
    (d : IpiData) : BusCall → Prop
  | .send hart target msg _ =>
    hart = a → target = b → msg.msgType = msgType → Behind a b msgType d cfg
  | .deliver hart _ target message _ _ _ _ =>
    hart = a → target = b → message = msgType → Behind a b msgType d cfg
  | .consume hart source consumed _ => hart = a → ∀ j handler v result,
    let index := ipiCalculateQueueIndex source a
    let taken := (d.queues index).msgQ j
    findIntent cfg d index consumed = some j → (registry a).handler consumed = some handler →
    handler taken.transactionId source taken.immediateArg taken.extendedBuffer
      taken.ancilliaryBuffer (takeIntent source a j d) = .ok (v, result) →
    (∀ e msg accepts, Relation.ReflTransGen (SendOrIdle cfg a) (takeIntent source a j d) e →
      msg.msgType = msgType →
      Relation.ReflTransGen (SendOrIdle cfg a) (ipiSend cfg accepts a b msg e).1 v →
      Behind a b msgType e cfg) ∧
    (source = b → ((v.queues index).msgQ j).msgType.acknowledged = true →
      ∀ ack, ackOf result ((v.queues index).msgQ j).transactionId = some ack →
      ack.msgType = msgType → Behind a b msgType v cfg)
  | _ => True

theorem Idle.alloc {hart : HartId} : Idle d (ipiMessageAlloc cfg hart d).1 := by
  cases given : ipiMessageAlloc cfg hart d with
  | mk e slot =>
    cases slot with
    | none =>
      obtain ⟨rfl, -⟩ := ipiMessageAlloc_eq_none given
      exact .of_eq rfl rfl
    | some index =>
      obtain ⟨-, -, rfl⟩ := ipiMessageAlloc_eq_some given
      have recorded : Idle d (d.record (.alloc hart index)) :=
        .record (fun _ _ _ => rfl) fun _ _ _ => rfl
      exact recorded.trans (.of_eq rfl rfl)

theorem Idle.free {hart : HartId} {index : ℕ} (done : ipiMessageFree hart index d = .ok d') :
    Idle d d' := by
  obtain ⟨-, rfl⟩ := ipiMessageFree_eq_ok.mp done
  have completed : Idle d (d.setComplete index { d.completes index with used := false }) :=
    .of_eq rfl rfl
  exact completed.trans (.record (fun _ _ _ => rfl) fun _ _ _ => rfl)

theorem Idle.poll (mask : BitVec 32) : Idle d (ipiPollReceive cfg me mask d).1 := by
  refine ipiPollReceive_induction (fun source e idle => idle.trans ?_) mask (.of_eq rfl rfl)
  refine ⟨pollQueue_msgQ, fun _ _ _ => ?_, fun _ _ _ => ?_⟩
  · rw [sentMsgs, pollQueue_history, sentMsgs]
  · rw [handledMsgs, pollQueue_history, handledMsgs]

section
variable {registry : HartId → IpiRegistry cfg IpiData}

/-- One call of `IPI_ConsumeIntent`. -/
theorem InOrder.consumeIntent (ab : a ≠ b) (typed : msgType ≠ .noMessage) (sourceMe : source ≠ me)
    {consumed : MsgType}
    (sends : ∀ hart msgType handler, (registry hart).handler msgType = some handler →
      SendsOnly cfg hart handler)
    (behind : SendsBehind registry a b msgType d (.consume me source consumed accepts))
    {intentFound : Bool}
    (done : ipiConsumeIntent cfg (registry me).handler accepts me source consumed d =
      .ok (d', intentFound)) (order : InOrder a b msgType d cfg) : InOrder a b msgType d' cfg := by
  rcases ipiConsumeIntent_cases done with
    ⟨rfl, -⟩ | ⟨j, handler, v, result, found, entry, handled, rfl⟩
  · exact order
  obtain ⟨bound, ofType, -⟩ := firstBelow_eq_some.mp found
  have steps : Relation.ReflTransGen (SendOrIdle cfg me) (takeIntent source me j d) v :=
    sends me consumed handler entry handled
  by_cases own : me = a
  · -- `a` consumes: what it takes is of another queue, what it sends is in order
    subst own
    have notMe : ∀ e : IpiData, ¬ (source = me ∧ me = b ∧
        ((e.queues (ipiCalculateQueueIndex source me)).msgQ j).msgType = msgType) :=
      fun _ h => sourceMe h.1
    obtain ⟨inHandler, inAck⟩ := behind rfl j handler v result found entry handled
    have taken := (SameFlow.take (notMe d)).inOrder order
    have after := InOrder.handler ab typed inHandler steps taken
    exact inOrder_clearMsg ab typed sourceMe bound (notMe _)
      (InOrder.acknowledge ab typed sourceMe inAck after)
  · have between : SameFlow a b msgType (takeIntent source me j d) (Hss.acknowledge cfg accepts source
        me ((v.queues (ipiCalculateQueueIndex source me)).msgQ j) result v) :=
      (SameFlow.handler ab own steps).trans (sameFlow_acknowledge ab own sourceMe result)
    by_cases concerns : source = a ∧ me = b ∧ consumed = msgType
    · obtain ⟨rfl, rfl, rfl⟩ := concerns
      exact order.consume typed found between
    · have other : ¬ (source = a ∧ me = b ∧
          ((d.queues (ipiCalculateQueueIndex source me)).msgQ j).msgType = msgType) := fun h =>
        concerns ⟨h.1, h.2.1, (of_decide_eq_true ofType).symm.trans h.2.2⟩
      refine inOrder_clearMsg ab typed sourceMe bound (fun h => other ?_)
        (between.inOrder ((SameFlow.take other).inOrder order))
      obtain ⟨rfl, rfl, still⟩ := h
      have held := (between.msgQ.trans (takeIntent_msgQ ..)).symm
      exact ⟨rfl, rfl, (congrArg OutboxMsg.msgType (congrFun held j)).trans still⟩

/-- One call. -/
theorem InOrder.call (ab : a ≠ b) (typed : msgType ≠ .noMessage) {call : BusCall}
    (sends : ∀ hart msgType handler, (registry hart).handler msgType = some handler →
      SendsOnly cfg hart handler) (proper : call.Proper)
    (behind : SendsBehind registry a b msgType d call)
    (next : busNext cfg registry d call = .ok d') (order : InOrder a b msgType d cfg) :
    InOrder a b msgType d' cfg := by
  cases call with
  | alloc hart =>
    cases next
    exact Idle.alloc.inOrder order
  | deliver hart index target message =>
    simp only [busNext, bind_eq_ok] at next
    obtain ⟨⟨e, sent⟩, done, next⟩ := next
    cases next
    obtain ⟨-, done⟩ := ipiMessageDeliver_eq_ok.mp done
    have after : e = _ := congrArg Prod.fst done
    rw [after]
    split
    · exact order.send ab typed proper.1 behind
    · exact order
  | free hart index => exact (Idle.free next).inOrder order
  | send hart target msg =>
    cases next
    exact order.send ab typed proper.1 behind
  | poll hart mask =>
    cases next
    exact (Idle.poll mask).inOrder order
  | consume hart source consumed =>
    simp only [busNext, bind_eq_ok] at next
    obtain ⟨⟨e, intentFound⟩, done, next⟩ := next
    cases next
    exact order.consumeIntent ab typed proper.1 sends behind done

theorem inOrder_ipiQueuesInit (typed : msgType ≠ .noMessage) :
    InOrder a b msgType ipiQueuesInit cfg := by
  have empty : queuedMsgs a b msgType ipiQueuesInit cfg = [] := by
    refine List.filter_eq_nil_iff.mpr fun msg held => ?_
    obtain ⟨k, -, rfl⟩ := List.mem_map.mp held
    exact fun same => typed (of_decide_eq_true same).symm
  rw [InOrder, empty]
  rfl

/-- In every run of calls in which each send from `a` to `b` of a message of the type uses a slot
behind the messages of the type that wait, those handled are the first of those sent, in the order
in which they were sent. -/
theorem handled_prefix_sent (ab : a ≠ b) (typed : msgType ≠ .noMessage)
    (sends : ∀ hart msgType handler, (registry hart).handler msgType = some handler →
      SendsOnly cfg hart handler) {calls : List BusCall}
    (run : Run (Under (fun d call => call.Proper ∧ SendsBehind registry a b msgType d call)
      fun d call d' => busNext cfg registry d call = .ok d') ipiQueuesInit calls d) :
    handledMsgs a b msgType d <+: sentMsgs a b msgType d := by
  have order : InOrder a b msgType d cfg :=
    run.invariant (I := fun e => InOrder a b msgType e cfg) (inOrder_ipiQueuesInit typed)
      fun _ _ _ before next => before.call ab typed sends next.1.1 next.1.2 next.2
  exact ⟨_, order.symm⟩

end

theorem ackIpiHandler_sendsOnly (hart : HartId) : SendsOnly cfg hart (ipiAckIpiHandler cfg) := by
  intro transactionId source immediateArg extendedBuffer ancilliaryBuffer d d' result done
  cases done
  exact .single (.inr (.of_eq (ipiMessageUpdateStatus_queues ..) (ipiMessageUpdateStatus_history ..)))

theorem nullIpiHandler_sendsOnly (hart : HartId) : SendsOnly cfg hart hssNullIpiHandler := by
  intro transactionId source immediateArg extendedBuffer ancilliaryBuffer d d' result done
  cases done
  exact .refl

theorem bare_sendsOnly (hart : HartId) (msgType : MsgType) (handler : IpiHandler IpiData)
    (entry : (IpiRegistry.bare cfg IpiData).handler msgType = some handler) :
    SendsOnly cfg hart handler := by
  cases msgType
  case ackPending => cases entry; exact ackIpiHandler_sendsOnly hart
  case ackComplete => cases entry; exact ackIpiHandler_sendsOnly hart
  all_goals cases entry; exact nullIpiHandler_sendsOnly hart

/-- Two requests of the monitor to an application hart, which handles the first. -/
def twoRequests : List BusCall :=
  [.send .e51 (.u54 .u54_1) ⟨.pmpSetup, 1, 0, 0, 0⟩ true,
    .send .e51 (.u54 .u54_1) ⟨.pmpSetup, 2, 0, 0, 0⟩ true,
    .consume (.u54 .u54_1) .e51 .pmpSetup true]

theorem handled_prefix_sent_two :
    ∃ d, Run (fun d call d' => busNext .icicleKitEs (fun _ => .bare ..) d call = .ok d')
        ipiQueuesInit twoRequests d ∧
      handledMsgs .e51 (.u54 .u54_1) .pmpSetup d <+: sentMsgs .e51 (.u54 .u54_1) .pmpSetup d := by
  let registry : HartId → IpiRegistry .icicleKitEs IpiData := fun _ => .bare ..
  let condition : IpiData → BusCall → Prop := fun d call =>
    call.Proper ∧ SendsBehind registry .e51 (.u54 .u54_1) .pmpSetup d call
  let one := (ipiSend .icicleKitEs true .e51 (.u54 .u54_1) ⟨.pmpSetup, 1, 0, 0, 0⟩ ipiQueuesInit).1
  let two := (ipiSend .icicleKitEs true .e51 (.u54 .u54_1) ⟨.pmpSetup, 2, 0, 0, 0⟩ one).1
  have first : Behind .e51 (.u54 .u54_1) .pmpSetup ipiQueuesInit .icicleKitEs := by decide
  have second : Behind .e51 (.u54 .u54_1) .pmpSetup one .icicleKitEs := by decide
  have start : condition ipiQueuesInit (.send .e51 (.u54 .u54_1) ⟨.pmpSetup, 1, 0, 0, 0⟩ true) :=
    ⟨⟨by decide, by decide⟩, fun _ _ _ => first⟩
  have next : condition one (.send .e51 (.u54 .u54_1) ⟨.pmpSetup, 2, 0, 0, 0⟩ true) :=
    ⟨⟨by decide, by decide⟩, fun _ _ _ => second⟩
  have last : condition two (.consume (.u54 .u54_1) .e51 .pmpSetup true) :=
    ⟨⟨by decide, by decide⟩, fun own => absurd own (by decide)⟩
  obtain ⟨three, done⟩ : ∃ three, busNext .icicleKitEs registry two
      (.consume (.u54 .u54_1) .e51 .pmpSetup true) = .ok three := ⟨_, rfl⟩
  have run : Run (Under condition fun d call d' => busNext .icicleKitEs registry d call = .ok d')
      ipiQueuesInit twoRequests three := ((Run.nil.snoc ⟨start, rfl⟩).snoc ⟨next, rfl⟩).snoc ⟨last, done⟩
  refine ⟨three, run.forget, ?_⟩
  exact handled_prefix_sent (by decide) (by decide) (fun hart => bare_sendsOnly hart) run

/-- Three requests of the monitor, the third sent after the first was handled: it is put in the slot
of the first, and is handled before the second. -/
theorem third_before_second :
    ∃ d, Run (Under (fun _ call => call.Proper) fun d call d' =>
        busNext .icicleKitEs (fun _ => .bare ..) d call = .ok d') ipiQueuesInit
        [.send .e51 (.u54 .u54_1) ⟨.pmpSetup, 1, 0, 0, 0⟩ true,
          .send .e51 (.u54 .u54_1) ⟨.pmpSetup, 2, 0, 0, 0⟩ true,
          .consume (.u54 .u54_1) .e51 .pmpSetup true,
          .send .e51 (.u54 .u54_1) ⟨.pmpSetup, 3, 0, 0, 0⟩ true,
          .consume (.u54 .u54_1) .e51 .pmpSetup true] d ∧
      (sentMsgs .e51 (.u54 .u54_1) .pmpSetup d).map OutboxMsg.transactionId = [1, 2, 3] ∧
      (handledMsgs .e51 (.u54 .u54_1) .pmpSetup d).map OutboxMsg.transactionId = [1, 3] ∧
      ¬ handledMsgs .e51 (.u54 .u54_1) .pmpSetup d <+: sentMsgs .e51 (.u54 .u54_1) .pmpSetup d := by
  obtain ⟨d, run, sent, handled, order⟩ := exists_run
    (busNext .icicleKitEs fun _ => .bare ..) ipiQueuesInit
    [.send .e51 (.u54 .u54_1) ⟨.pmpSetup, 1, 0, 0, 0⟩ true,
      .send .e51 (.u54 .u54_1) ⟨.pmpSetup, 2, 0, 0, 0⟩ true,
      .consume (.u54 .u54_1) .e51 .pmpSetup true,
      .send .e51 (.u54 .u54_1) ⟨.pmpSetup, 3, 0, 0, 0⟩ true,
      .consume (.u54 .u54_1) .e51 .pmpSetup true]
    (P := fun d => (sentMsgs .e51 (.u54 .u54_1) .pmpSetup d).map OutboxMsg.transactionId = [1, 2, 3] ∧
      (handledMsgs .e51 (.u54 .u54_1) .pmpSetup d).map OutboxMsg.transactionId = [1, 3] ∧
      ¬ handledMsgs .e51 (.u54 .u54_1) .pmpSetup d <+: sentMsgs .e51 (.u54 .u54_1) .pmpSetup d)
    (by decide +kernel)
  refine ⟨d, run.under _ ?_, sent, handled, order⟩
  simp [BusCall.Proper]

end Hss
