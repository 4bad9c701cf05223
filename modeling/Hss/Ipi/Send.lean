import Hss.Ipi.Polling

/-! What a send that is reported as failed leaves behind, and what becomes of a request whose
acknowledgement finds no slot. -/

namespace Hss

open SlotTable

variable {cfg : Config} {accepts : Bool} {source target me : HartId} {msg : OutboxMsg}
  {d d' : IpiData} {index j : ℕ} {transactionId : TxId}

/-! ### Sends that fail -/

/-- The queues and the last transaction ids are as they were. -/
structure SameQueues (d d' : IpiData) : Prop where
  queues : d'.queues = d.queues
  last : d'.last = d.last

theorem SameQueues.refl (d : IpiData) : SameQueues d d := ⟨rfl, rfl⟩

theorem ipiSend_of_full (full : findAvailableSlot cfg d (ipiCalculateQueueIndex source target) = none) :
    ipiSend cfg accepts source target msg d = (d, false) := by
  rw [ipiSend, full]

/-- A send with a free slot writes to it, whatever the transport answers. -/
theorem ipiSend_of_slot
    (slot : findAvailableSlot cfg d (ipiCalculateQueueIndex source target) = some j) :
    ipiSend cfg accepts source target msg d =
      ({ (d.setMsg (ipiCalculateQueueIndex source target) j msg).record
          (.sent source target msg (raise cfg accepts)) with
        last := Function.update d.last (ipiCalculateQueueIndex source target) msg.transactionId },
      raise cfg accepts) := by
  rw [ipiSend, slot]

theorem raise_eq_false_iff : raise cfg accepts = false ↔ cfg.hssUseIhc = true ∧ accepts = false := by
  unfold raise
  split <;> simp_all

theorem IpiData.setMsg_queues_eq_iff :
    (d.setMsg index j msg).queues = d.queues ↔ (d.queues index).msgQ j = msg := by
  constructor
  · intro same
    have written := congrArg (fun queues : ℕ → OutboxQueue => (queues index).msgQ j) same
    simp only [setMsg_msgQ_self, Function.update_self] at written
    exact written.symm
  · rintro rfl
    funext index'
    by_cases h : index' = index
    · rw [h, setMsg, setQueue_queues, Function.update_self, Function.update_eq_self]
    · exact setMsg_queues_of_ne _ _ _ _ h

/-- A send that returns false leaves the queues and the last ids as they were exactly when the
transport did not refuse a message that had found a slot (but for an empty message that the slot
already held): the message is written before the transport is asked, and it is not taken back. -/
theorem ipiSend_noop_iff (cfg : Config) (accepts : Bool) (source target : HartId) (msg : OutboxMsg)
    (d : IpiData) :
    ((ipiSend cfg accepts source target msg d).2 = false →
        SameQueues d (ipiSend cfg accepts source target msg d).1) ↔
      (cfg.hssUseIhc = true → accepts = false →
        ∀ j, findAvailableSlot cfg d (ipiCalculateQueueIndex source target) = some j →
          (d.queues (ipiCalculateQueueIndex source target)).msgQ j = msg ∧
            d.last (ipiCalculateQueueIndex source target) = msg.transactionId) := by
  cases slot : findAvailableSlot cfg d (ipiCalculateQueueIndex source target) with
  | none =>
    rw [ipiSend_of_full slot]
    exact iff_of_true (fun _ => .refl d) fun _ _ _ found => nomatch found
  | some j =>
    rw [ipiSend_of_slot slot, raise_eq_false_iff]
    constructor
    · intro noop ihc refused k found
      cases found
      obtain ⟨queues, last⟩ := noop ⟨ihc, refused⟩
      refine ⟨IpiData.setMsg_queues_eq_iff.mp queues, ?_⟩
      have written : msg.transactionId = d.last (ipiCalculateQueueIndex source target) := by
        simpa using congrFun last (ipiCalculateQueueIndex source target)
      exact written.symm
    · rintro there ⟨ihc, refused⟩
      obtain ⟨held, last⟩ := there ihc refused j rfl
      refine ⟨IpiData.setMsg_queues_eq_iff.mpr held, ?_⟩
      exact Function.update_eq_self_iff.mpr last.symm

/-- The block refuses a message of the monitor: it is reported as not sent, and its target finds it. -/
theorem ipiSend_refused :
    let sent := ipiSend { Config.icicleKitEs with hssUseIhc := true } false .e51 (.u54 .u54_1)
      ⟨.pmpSetup, 1, 0, 0, 0⟩ ipiQueuesInit
    sent.2 = false ∧ ¬ SameQueues ipiQueuesInit sent.1 ∧
      findIntent .icicleKitEs sent.1 (ipiCalculateQueueIndex .e51 (.u54 .u54_1)) .pmpSetup =
        some 0 := by
  refine ⟨by decide, fun same => ?_, by decide⟩
  have last := congrFun same.last (ipiCalculateQueueIndex .e51 (.u54 .u54_1))
  exact absurd last (by decide)

/-! ### Acknowledgements -/

/-- The types of message that `IPI_ConsumeIntent` acknowledges. -/
def MsgType.acknowledged : MsgType → Bool
  | .ackComplete => false
  | .ackPending => false
  | .bootRequest => false
  | _ => true

theorem acknowledge_eq (result : StatusCode) :
    acknowledge cfg accepts source me msg result d =
      if msg.msgType.acknowledged then
        match ackOf result msg.transactionId with
        | none => d
        | some ack => (ipiSend cfg accepts me source ack d).1
      else d := by
  unfold acknowledge
  cases msg.msgType <;> rfl

/-- A slot that was free in `d` holds an acknowledgement of the transaction in `d'`. -/
def AckPlaced (cfg : Config) (index : ℕ) (transactionId : TxId) (d d' : IpiData) : Prop :=
  ∃ j < cfg.maxNumQueueMessages, ((d.queues index).msgQ j).msgType = .noMessage ∧
    ((d'.queues index).msgQ j).msgType.isAck = true ∧
    ((d'.queues index).msgQ j).transactionId = transactionId

theorem ackOf_eq_some {result : StatusCode} {ack : OutboxMsg}
    (asked : ackOf result transactionId = some ack) :
    ack.msgType.isAck = true ∧ ack.transactionId = transactionId := by
  cases result <;> cases asked <;> exact ⟨rfl, rfl⟩

theorem ackOf_eq_none (transactionId : TxId) {result : StatusCode} :
    ackOf result transactionId = none ↔ result = .idle := by
  cases result <;> simp [ackOf]

theorem not_ackPlaced_self : ¬ AckPlaced cfg index transactionId d d := by
  rintro ⟨j, -, free, ack, -⟩
  rw [free] at ack
  cases ack

/-- A send places the acknowledgement if and only if a slot is free for it. -/
theorem ackPlaced_ipiSend_iff {ack : OutboxMsg} (isAck : ack.msgType.isAck = true) :
    AckPlaced cfg (ipiCalculateQueueIndex me source) transactionId d
        (ipiSend cfg accepts me source ack d).1 ↔
      ack.transactionId = transactionId ∧
        (findAvailableSlot cfg d (ipiCalculateQueueIndex me source)).isSome = true := by
  cases slot : findAvailableSlot cfg d (ipiCalculateQueueIndex me source) with
  | none =>
    rw [ipiSend_of_full slot]
    exact iff_of_false not_ackPlaced_self fun h => nomatch h.2
  | some j =>
    obtain ⟨bound, free, -⟩ := firstBelow_eq_some.mp slot
    rw [ipiSend_of_slot slot]
    simp only [AckPlaced, IpiData.record_queues, IpiData.setMsg_msgQ_self, Option.isSome_some, and_true]
    constructor
    · rintro ⟨k, -, empty, placed, same⟩
      by_cases h : k = j
      · rwa [h, Function.update_self] at same
      · rw [Function.update_of_ne h, empty] at placed
        cases placed
    · rintro same
      refine ⟨j, bound, of_decide_eq_true free, ?_⟩
      rw [Function.update_self]
      exact ⟨isAck, same⟩

section
variable {W : Type} [HasIpi W] {registry : MsgType → Option (IpiHandler W)} {handler : IpiHandler W}
  {msgType : MsgType} {w v : W} {result : StatusCode}

/-- A request that is cleared after its handler was acknowledged, unless its type or the handler's
result asks for no acknowledgement, exactly when the queue back to its sender had a free slot as the
handler returned (and the handler had left the id in the slot, and a type that is acknowledged): a
request whose acknowledgement was not sent is cleared all the same. -/
theorem ipiConsumeIntent_acknowledges_iff (accepts : Bool) (other : me ≠ source)
    (found : findIntent cfg (ipi w) (ipiCalculateQueueIndex source me) msgType = some j)
    (entry : registry msgType = some handler)
    (handled : let msg := ((ipi w).queues (ipiCalculateQueueIndex source me)).msgQ j
      handler msg.transactionId source msg.immediateArg msg.extendedBuffer msg.ancilliaryBuffer
        (onIpi (takeIntent source me j) w) = .ok (v, result)) :
    let id := (((ipi w).queues (ipiCalculateQueueIndex source me)).msgQ j).transactionId
    let left := ((ipi v).queues (ipiCalculateQueueIndex source me)).msgQ j
    ∃ w', ipiConsumeIntent cfg registry accepts me source msgType w = .ok (w', true) ∧
      (((ipi w').queues (ipiCalculateQueueIndex source me)).msgQ j).msgType = .noMessage ∧
      ((msgType.acknowledged = true → result ≠ .idle →
          AckPlaced cfg (ipiCalculateQueueIndex me source) id (ipi v) (ipi w')) ↔
        (msgType.acknowledged = true → result ≠ .idle →
          left.msgType.acknowledged = true ∧ left.transactionId = id ∧
            (findAvailableSlot cfg (ipi v) (ipiCalculateQueueIndex me source)).isSome = true)) := by
  dsimp only at handled ⊢
  refine ⟨onIpi (fun d => clearMsg (ipiCalculateQueueIndex source me) j (acknowledge cfg accepts
    source me ((d.queues (ipiCalculateQueueIndex source me)).msgQ j) result d)) v, ?_, ?_, ?_⟩
  · rw [ipiConsumeIntent, entry]
    simp only [found, handled, ok_bind]
    rfl
  · rw [ipi_onIpi, clearMsg, IpiData.setMsg_msgQ_self, Function.update_self]
    rfl
  · refine forall_congr' fun _ => forall_congr' fun busy => ?_
    have apart : ipiCalculateQueueIndex me source ≠ ipiCalculateQueueIndex source me := fun same =>
      other (ipiCalculateQueueIndex_injective other other.symm same).1
    obtain ⟨ack, asked⟩ := Option.ne_none_iff_exists'.mp
      (mt (ackOf_eq_none (((ipi v).queues (ipiCalculateQueueIndex source me)).msgQ j).transactionId).mp
        busy)
    obtain ⟨isAck, carries⟩ := ackOf_eq_some asked
    rw [ipi_onIpi, acknowledge_eq, asked]
    simp only [AckPlaced, clearMsg_queues_of_ne apart]
    by_cases acked : (((ipi v).queues (ipiCalculateQueueIndex source me)).msgQ j).msgType.acknowledged
        = true
    · rw [if_pos acked]
      refine (ackPlaced_ipiSend_iff isAck).trans ?_
      rw [carries]
      simp only [acked, true_and]
    · rw [if_neg acked]
      exact iff_of_false not_ackPlaced_self fun h => acked h.1

end

/-- The queue from the first application hart to the monitor holds `n` acknowledgements, and the
monitor asks the hart for another set-up. -/
def requestBehind (n : ℕ) : IpiData :=
  (ipiSend .icicleKitEs true .e51 (.u54 .u54_1) ⟨.pmpSetup, 9, 0, 0, 0⟩
    ((List.range n).foldl (fun d id => (ipiSend .icicleKitEs true (.u54 .u54_1) .e51
      ⟨.ackComplete, BitVec.ofNat 32 id, 1, 0, 0⟩ d).1) ipiQueuesInit)).1

theorem ipiConsumeIntent_acknowledges_iff_three :
    findIntent .icicleKitEs (requestBehind 3) (ipiCalculateQueueIndex .e51 (.u54 .u54_1))
        .pmpSetup = some 0 ∧
      ∃ d, ipiConsumeIntent .icicleKitEs (IpiRegistry.bare .icicleKitEs IpiData).handler true
          (.u54 .u54_1) .e51 .pmpSetup (requestBehind 3) = .ok (d, true) ∧
        AckPlaced .icicleKitEs (ipiCalculateQueueIndex (.u54 .u54_1) .e51) 9 (requestBehind 3) d := by
  have found : findIntent .icicleKitEs (requestBehind 3)
      (ipiCalculateQueueIndex .e51 (.u54 .u54_1)) .pmpSetup = some 0 := by decide +kernel
  have entry : (IpiRegistry.bare .icicleKitEs IpiData).handler .pmpSetup = some hssNullIpiHandler := rfl
  obtain ⟨d, consumed, -, placed⟩ :=
    ipiConsumeIntent_acknowledges_iff true (by decide) found entry rfl
  refine ⟨found, d, consumed, ?_⟩
  exact placed.mpr (fun _ _ => ⟨by decide +kernel, by decide +kernel, by decide +kernel⟩) rfl
    (by decide)

/-- Behind a full queue, a request that was carried out is cleared and no acknowledgement of it is
in the queue. -/
theorem ipiConsumeIntent_loses_ack :
    ∃ d, ipiConsumeIntent .icicleKitEs (IpiRegistry.bare .icicleKitEs IpiData).handler true
        (.u54 .u54_1) .e51 .pmpSetup (requestBehind 4) = .ok (d, true) ∧
      ((d.queues (ipiCalculateQueueIndex .e51 (.u54 .u54_1))).msgQ 0).msgType = .noMessage ∧
      ¬ AckPlaced .icicleKitEs (ipiCalculateQueueIndex (.u54 .u54_1) .e51) 9 (requestBehind 4) d ∧
      ∀ j < Config.icicleKitEs.maxNumQueueMessages,
        ((d.queues (ipiCalculateQueueIndex (.u54 .u54_1) .e51)).msgQ j).transactionId ≠ 9 := by
  refine ⟨_, rfl, by decide +kernel, ?_, by decide +kernel⟩
  unfold AckPlaced
  decide +kernel

end Hss
