import Hss.Lib.Runs
import Hss.Lib.Turns
import Hss.Ipi.Bus

/-! Polling of the queues towards the monitor hart: what a pass takes from a queue that holds an
acknowledgement. -/

namespace Hss

open SlotTable Runs Turns

/-- Whether an event of the history passed a message from `source` to a handler of `me`. -/
def BusEvent.isHandled (source me : HartId) : BusEvent → Bool
  | .handled source' me' _ => source' = source ∧ me' = me
  | _ => false

/-- The number of messages from `source` passed to handlers of `me`. -/
def handledCount (source me : HartId) (d : IpiData) : ℕ :=
  d.history.countP (BusEvent.isHandled source me)

/-! ### Taking an acknowledgement -/

def MsgType.isAck : MsgType → Bool
  | .ackPending => true
  | .ackComplete => true
  | _ => false

/-- The bus after the hart `me` takes the acknowledgement in slot `j` of its queue from `source`. -/
def takeAck (cfg : Config) (me source : HartId) (j : ℕ) (d : IpiData) : IpiData :=
  let index := ipiCalculateQueueIndex source me
  clearMsg index j (ipiMessageUpdateStatus cfg ((d.queues index).msgQ j).transactionId .idle
    (takeIntent source me j d)).1

variable {cfg : Config} {registry : IpiRegistry cfg IpiData} {accepts : Bool}
  {me source source' : HartId} {msgType : MsgType} {d : IpiData} {j : ℕ} {transactionId : TxId}

@[simp] theorem ipiMessageUpdateStatus_queues {status : StatusCode} :
    (ipiMessageUpdateStatus cfg transactionId status d).1.queues = d.queues := by
  unfold ipiMessageUpdateStatus
  split <;> rfl

@[simp] theorem ipiMessageUpdateStatus_history {status : StatusCode} :
    (ipiMessageUpdateStatus cfg transactionId status d).1.history = d.history := by
  unfold ipiMessageUpdateStatus
  split <;> rfl

theorem IpiRegistry.handler_of_isAck (registry : IpiRegistry cfg IpiData)
    (ack : msgType.isAck = true) :
    registry.handler msgType = some (ipiAckIpiHandler cfg) := by
  cases msgType
  case ackPending => exact registry.ackPending
  case ackComplete => exact registry.ackComplete
  all_goals cases ack

theorem acknowledge_of_isAck {msg : OutboxMsg} {result : StatusCode}
    (ack : msg.msgType.isAck = true) :
    acknowledge cfg accepts source me msg result d = d := by
  unfold acknowledge
  cases h : msg.msgType <;> rw [h] at ack <;> first | rfl | cases ack

/-- The bus after the hart `me` takes the first acknowledgement of a type from `source`, if there is
one. -/
def consumeAck (cfg : Config) (me source : HartId) (msgType : MsgType) (d : IpiData) : IpiData :=
  match findIntent cfg d (ipiCalculateQueueIndex source me) msgType with
  | none => d
  | some j => takeAck cfg me source j d

/-- `IPI_ConsumeIntent` on an acknowledgement: the first one is taken and nothing is sent. -/
theorem ipiConsumeIntent_ack (ack : msgType.isAck = true) :
    ipiConsumeIntent cfg registry.handler accepts me source msgType d =
      .ok (consumeAck cfg me source msgType d,
        (findIntent cfg d (ipiCalculateQueueIndex source me) msgType).isSome) := by
  rw [ipiConsumeIntent, registry.handler_of_isAck ack, consumeAck]
  cases found : findIntent cfg d (ipiCalculateQueueIndex source me) msgType with
  | none => simp only [HasIpi.ipi, id, found, Option.isSome_none]
  | some j =>
    obtain ⟨-, typed, -⟩ := firstBelow_eq_some.mp found
    have typed' := of_decide_eq_true typed
    simp only [HasIpi.ipi, id, found, ipiAckIpiHandler, onIpi, HasIpi.setIpi, ok_bind,
      ipiMessageUpdateStatus_queues, takeIntent_msgQ]
    rw [acknowledge_of_isAck (typed' ▸ ack)]
    rfl

theorem takeAck_queues_of_ne {index : ℕ} (h : index ≠ ipiCalculateQueueIndex source me) :
    (takeAck cfg me source j d).queues index = d.queues index := by
  rw [takeAck, clearMsg_queues_of_ne h, ipiMessageUpdateStatus_queues,
    takeIntent_queues_of_ne _ _ _ _ h]

@[simp] theorem takeAck_history : (takeAck cfg me source j d).history =
    .handled source me ((d.queues (ipiCalculateQueueIndex source me)).msgQ j) :: d.history := by
  simp [takeAck]

theorem handledCount_takeAck : handledCount source' me (takeAck cfg me source j d) =
    handledCount source' me d + (if source = source' then 1 else 0) := by
  rw [handledCount, takeAck_history, List.countP_cons]
  simp [handledCount, BusEvent.isHandled]

theorem takeAck_queues_self : (takeAck cfg me source j d).queues (ipiCalculateQueueIndex source me) =
    ⟨Function.update (d.queues (ipiCalculateQueueIndex source me)).msgQ j
        ((d.queues (ipiCalculateQueueIndex source me)).msgQ j).cleared,
      (d.queues (ipiCalculateQueueIndex source me)).count - 1⟩ := by
  simp [takeAck, clearMsg, IpiData.setMsg, takeIntent]

theorem consumeAck_queues_of_ne {index : ℕ} (h : index ≠ ipiCalculateQueueIndex source me) :
    (consumeAck cfg me source msgType d).queues index = d.queues index := by
  unfold consumeAck
  split
  · rfl
  · exact takeAck_queues_of_ne h

/-- The queue from `source` and the number of its messages that `me` has handled. -/
def inbox (me source : HartId) (d : IpiData) : OutboxQueue × ℕ :=
  (d.queues (ipiCalculateQueueIndex source me), handledCount source me d)

theorem inbox_eq {d' : IpiData} : inbox me source d = inbox me source d' ↔
    d.queues (ipiCalculateQueueIndex source me) = d'.queues (ipiCalculateQueueIndex source me) ∧
      handledCount source me d = handledCount source me d' := Prod.mk_inj

theorem inbox_consumeAck_of_ne (hs : source ≠ me) (hs' : source' ≠ me) (ne : source' ≠ source) :
    inbox me source' (consumeAck cfg me source msgType d) = inbox me source' d := by
  rw [inbox_eq]
  refine ⟨consumeAck_queues_of_ne fun same => ?_, ?_⟩
  · exact ne (ipiCalculateQueueIndex_injective hs' hs same).1
  · unfold consumeAck
    split
    · rfl
    · rw [handledCount_takeAck, if_neg (Ne.symm ne), Nat.add_zero]

/-- What taking an acknowledgement makes of an inbox depends on the inbox only. -/
theorem inbox_consumeAck_congr {d' : IpiData} (same : inbox me source d = inbox me source d') :
    inbox me source (consumeAck cfg me source msgType d) =
      inbox me source (consumeAck cfg me source msgType d') := by
  obtain ⟨queue, handled⟩ := inbox_eq.mp same
  simp only [consumeAck, findIntent, queue]
  split
  · exact same
  · rw [inbox_eq, takeAck_queues_self, takeAck_queues_self, handledCount_takeAck,
      handledCount_takeAck, queue, handled]
    exact ⟨rfl, rfl⟩

theorem handledCount_consumeAck : handledCount source me (consumeAck cfg me source msgType d) =
    handledCount source me d +
      (findIntent cfg d (ipiCalculateQueueIndex source me) msgType).toList.length := by
  unfold consumeAck
  split
  · next h => rw [h]; rfl
  · next h => rw [h, handledCount_takeAck, if_pos rfl]; rfl

/-! ### A pass over the queues -/

/-- The acknowledgements that a pass takes from one application hart. -/
def takeAcks (cfg : Config) (u : U54) (d : IpiData) : IpiData :=
  if (d.queues (ipiCalculateQueueIndex (.u54 u) .e51)).count ≠ 0 then
    consumeAck cfg .e51 (.u54 u) .ackPending (consumeAck cfg .e51 (.u54 u) .ackComplete d)
  else d

theorem u54_ne_e51 (u : U54) : HartId.u54 u ≠ .e51 := HartId.noConfusion

theorem takeAcks_independent (cfg : Config) :
    Independent (takeAcks cfg) fun u d => inbox .e51 (.u54 u) d where
  other {u v} d ne := by
    have ne' : HartId.u54 u ≠ .u54 v := fun h => ne (HartId.u54.inj h).symm
    unfold takeAcks
    split
    · rw [inbox_consumeAck_of_ne (u54_ne_e51 v) (u54_ne_e51 u) ne',
        inbox_consumeAck_of_ne (u54_ne_e51 v) (u54_ne_e51 u) ne']
    · rfl
  own {u d d'} same := by
    have queue := (inbox_eq.mp same).1
    unfold takeAcks
    rw [queue]
    split
    · exact inbox_consumeAck_congr (inbox_consumeAck_congr same)
    · exact same

/-- The queue from `source` holds an acknowledgement. -/
def HoldsAck (cfg : Config) (me source : HartId) (d : IpiData) : Prop :=
  ∃ j < cfg.maxNumQueueMessages,
    ((d.queues (ipiCalculateQueueIndex source me)).msgQ j).msgType.isAck = true

instance (cfg : Config) (me source : HartId) (d : IpiData) : Decidable (HoldsAck cfg me source d) :=
  inferInstanceAs (Decidable (∃ j < cfg.maxNumQueueMessages,
    ((d.queues (ipiCalculateQueueIndex source me)).msgQ j).msgType.isAck = true))

theorem findIntent_isSome {index : ℕ} : (findIntent cfg d index msgType).isSome = true ↔
    ∃ j < cfg.maxNumQueueMessages, ((d.queues index).msgQ j).msgType = msgType := by
  simp [findIntent, firstBelow_isSome]

/-- Of a queue that holds an acknowledgement, one turn takes one, if the queue has a count. -/
theorem handledCount_takeAcks {u : U54} (holds : HoldsAck cfg .e51 (.u54 u) d) :
    handledCount (.u54 u) .e51 d < handledCount (.u54 u) .e51 (takeAcks cfg u d) ↔
      (d.queues (ipiCalculateQueueIndex (.u54 u) .e51)).count ≠ 0 := by
  unfold takeAcks
  split
  · next count =>
    refine ⟨fun _ => count, fun _ => ?_⟩
    rw [handledCount_consumeAck, handledCount_consumeAck]
    obtain ⟨j, hj, ack⟩ := holds
    cases first : findIntent cfg d (ipiCalculateQueueIndex (.u54 u) .e51) .ackComplete with
    | some k =>
      rw [Option.toList_some, List.length_singleton]
      omega
    | none =>
      have unchanged : consumeAck cfg .e51 (.u54 u) .ackComplete d = d := by
        rw [consumeAck, first]
      have pending : (findIntent cfg d (ipiCalculateQueueIndex (.u54 u) .e51)
          .ackPending).isSome = true := by
        refine findIntent_isSome.mpr ⟨j, hj, ?_⟩
        have noComplete := of_decide_eq_false (firstBelow_eq_none.mp first j hj)
        revert ack noComplete
        cases ((d.queues (ipiCalculateQueueIndex (.u54 u) .e51)).msgQ j).msgType <;>
          simp [MsgType.isAck]
      obtain ⟨k, second⟩ := Option.isSome_iff_exists.mp pending
      rw [unchanged, second]
      simp
  · next count => exact ⟨fun h => absurd h (lt_irrefl _), fun h => absurd h count⟩

/-- The queue from an application hart, with its last transaction and the one last seen. -/
def outbox (u : U54) (d : IpiData) : OutboxQueue × TxId × TxId :=
  let index := ipiCalculateQueueIndex (.u54 u) .e51
  (d.queues index, d.last index, d.shadow index)

theorem outbox_eq {u : U54} {d' : IpiData} : outbox u d = outbox u d' ↔
    d.queues (ipiCalculateQueueIndex (.u54 u) .e51) =
        d'.queues (ipiCalculateQueueIndex (.u54 u) .e51) ∧
      d.last (ipiCalculateQueueIndex (.u54 u) .e51) =
        d'.last (ipiCalculateQueueIndex (.u54 u) .e51) ∧
      d.shadow (ipiCalculateQueueIndex (.u54 u) .e51) =
        d'.shadow (ipiCalculateQueueIndex (.u54 u) .e51) := by
  simp [outbox]

/-- The queue from an application hart has a transaction that was not seen. -/
def Fresh (d : IpiData) (u : U54) : Prop :=
  d.shadow (ipiCalculateQueueIndex (.u54 u) .e51) ≠ d.last (ipiCalculateQueueIndex (.u54 u) .e51)

instance (d : IpiData) (u : U54) : Decidable (Fresh d u) := instDecidableNot

theorem pollQueue_independent :
    Independent (fun u d => pollQueue cfg .e51 (.u54 u) d) fun u d => outbox u d where
  other {u v} d ne := by
    have ne' : ipiCalculateQueueIndex (.u54 u) .e51 ≠ ipiCalculateQueueIndex (.u54 v) .e51 := by
      intro same
      have h := (ipiCalculateQueueIndex_injective (u54_ne_e51 u) (u54_ne_e51 v) same).1
      exact ne (HartId.u54.inj h).symm
    simp only [pollQueue]
    split
    · rfl
    · rw [outbox_eq]
      exact ⟨Function.update_of_ne ne' .., rfl, Function.update_of_ne ne' ..⟩
  own {u d d'} same := by
    obtain ⟨queue, last, shadow⟩ := outbox_eq.mp same
    simp only [pollQueue, countPerQueue, queue, last, shadow]
    split
    · exact same
    · rw [outbox_eq]
      simp [last]

@[simp] theorem pollQueue_history : (pollQueue cfg me source d).history = d.history := by
  simp only [pollQueue]
  split <;> rfl

@[simp] theorem pollQueue_msgQ (index : ℕ) :
    ((pollQueue cfg me source d).queues index).msgQ = (d.queues index).msgQ := by
  simp only [pollQueue]
  split
  · rfl
  · by_cases h : index = ipiCalculateQueueIndex source me
    · simp [h]
    · simp [Function.update_of_ne h]

/-- The queues after the monitor hart polled them all. -/
def pollAll (cfg : Config) (d : IpiData) : IpiData :=
  bootMachine.foldl (fun d u => pollQueue cfg .e51 (.u54 u) d) d

theorem pollAll_outbox (cfg : Config) (d : IpiData) (u : U54) :
    outbox u (pollAll cfg d) = outbox u (pollQueue cfg .e51 (.u54 u) d) :=
  pollQueue_independent.foldl_of_mem (by decide) (mem_bootMachine u) d

@[simp] theorem pollAll_history : (pollAll cfg d).history = d.history := by
  simp [pollAll, bootMachine]

@[simp] theorem pollAll_msgQ (index : ℕ) :
    ((pollAll cfg d).queues index).msgQ = (d.queues index).msgQ := by
  simp [pollAll, bootMachine]

theorem fresh_congr {d' : IpiData} {u : U54} (same : outbox u d = outbox u d') :
    Fresh d u ↔ Fresh d' u := by
  obtain ⟨-, last, shadow⟩ := outbox_eq.mp same
  rw [Fresh, Fresh, last, shadow]

/-- The turns of the loop of `IPI_PollReceive` for the application harts in a list. -/
theorem foldl_pollReceive {l : List U54} (nodup : l.Nodup) (d : IpiData) (result : Bool) :
    (l.map HartId.u54).foldl
      (fun (d, result) source =>
        if source = .e51 then (d, result)
        else if bitmaskAllU54.getLsbD source.num = false then (d, result)
        else
          let index := ipiCalculateQueueIndex source .e51
          (pollQueue cfg .e51 source d, result || d.shadow index ≠ d.last index))
      (d, result) =
    (l.foldl (fun d u => pollQueue cfg .e51 (.u54 u) d) d,
      result || decide (∃ u ∈ l, Fresh d u)) := by
  induction l generalizing d result with
  | nil => simp
  | cons u l ih =>
    rw [List.nodup_cons] at nodup
    have selected : bitmaskAllU54.getLsbD (HartId.u54 u).num = true := by cases u <;> decide
    have rest : ∀ v ∈ l, (Fresh (pollQueue cfg .e51 (.u54 u) d) v ↔ Fresh d v) := by
      refine fun v hv => fresh_congr (pollQueue_independent.other d ?_)
      rintro rfl
      exact nodup.1 hv
    simp only [List.map_cons, List.foldl_cons, u54_ne_e51 u, selected, Bool.true_eq_false,
      if_false]
    have seen : decide (∃ v ∈ u :: l, Fresh d v) =
        (decide (Fresh d u) || decide (∃ v ∈ l, Fresh (pollQueue cfg .e51 (.u54 u) d) v)) := by
      rw [← Bool.decide_or, decide_eq_decide, List.exists_mem_cons_iff]
      exact or_congr_right (exists_congr fun v => and_congr_right fun hv => (rest v hv).symm)
    rw [ih nodup.2, seen, ← Bool.or_assoc]
    rfl

theorem ipiPollReceive_e51 :
    ipiPollReceive cfg .e51 bitmaskAllU54 d = (pollAll cfg d, decide (∃ u, Fresh d u)) := by
  rw [ipiPollReceive, harts_eq, List.foldl_cons]
  simp only [if_true]
  rw [foldl_pollReceive (by decide)]
  simp [pollAll, mem_bootMachine]

/-- The turns of the loop of a pass for the application harts in a list. -/
theorem foldlM_takeAcks (l : List U54) (d : IpiData) :
    (l.map HartId.u54).foldlM
      (fun w source =>
        if source = .e51 then Except.ok w
        else if ((ipi w).queues (ipiCalculateQueueIndex source .e51)).count ≠ 0 then do
          let (w, _) ← ipiConsumeIntent cfg registry.handler accepts .e51 source .ackComplete w
          let (w, _) ← ipiConsumeIntent cfg registry.handler accepts .e51 source .ackPending w
          return w
        else return w) d =
    .ok (l.foldl (fun d u => takeAcks cfg u d) d) := by
  induction l generalizing d with
  | nil => rfl
  | cons u l ih =>
    have turn : (if ((ipi d).queues (ipiCalculateQueueIndex (.u54 u) .e51)).count ≠ 0 then do
          let (w, _) ← ipiConsumeIntent cfg registry.handler accepts .e51 (.u54 u) .ackComplete d
          let (w, _) ← ipiConsumeIntent cfg registry.handler accepts .e51 (.u54 u) .ackPending w
          return w
        else return d : Except Halt IpiData) = .ok (takeAcks cfg u d) := by
      rw [takeAcks, ipiConsumeIntent_ack rfl]
      simp only [ok_bind, HasIpi.ipi, id,
        ipiConsumeIntent_ack (show MsgType.isAck .ackPending = true from rfl)]
      split <;> rfl
    rw [List.map_cons, List.foldlM_cons, List.foldl_cons, if_neg (u54_ne_e51 u), turn, ok_bind, ih]

/-- A pass: the acknowledgements that it takes if a queue has a new transaction. -/
def pollPass (cfg : Config) (d : IpiData) : IpiData :=
  if ∃ u, Fresh d u then bootMachine.foldl (fun d u => takeAcks cfg u d) (pollAll cfg d)
  else pollAll cfg d

theorem ipiPollMonitoringHandler_eq :
    ipiPollMonitoringHandler cfg registry accepts d = .ok (pollPass cfg d) := by
  rw [ipiPollMonitoringHandler, pollPass]
  simp only [HasIpi.ipi, id, HasIpi.setIpi, ipiPollReceive_e51, decide_eq_true_eq]
  split
  · rw [harts_eq, List.foldlM_cons, if_pos rfl, ok_bind]
    exact foldlM_takeAcks bootMachine _
  · rfl

/-- The count of a queue that holds a message, after the poll. -/
theorem count_pollAll {u : U54} (holds : HoldsAck cfg .e51 (.u54 u) d) :
    ((pollAll cfg d).queues (ipiCalculateQueueIndex (.u54 u) .e51)).count ≠ 0 ↔
      Fresh d u ∨ (d.queues (ipiCalculateQueueIndex (.u54 u) .e51)).count ≠ 0 := by
  have queue := (outbox_eq.mp (pollAll_outbox cfg d u)).1
  rw [queue]
  simp only [pollQueue, Fresh]
  split
  · next seen => simp [seen]
  · next new =>
    obtain ⟨j, hj, ack⟩ := holds
    have counted : countPerQueue cfg d (ipiCalculateQueueIndex (.u54 u) .e51) ≠ 0 := by
      rw [countPerQueue, Ne, List.length_eq_zero_iff, List.filter_eq_nil_iff]
      refine fun none => none j (List.mem_range.mpr hj) (decide_eq_true fun empty => ?_)
      rw [empty] at ack
      cases ack
    simp [new, counted]

/-! ### Stranded acknowledgements -/

/-- What happens on the queues towards the monitor hart: an application hart sends, or the monitor
makes a pass. -/
inductive PollEvent
  | send (u : U54) (msg : OutboxMsg) (accepts : Bool)
  | pass (accepts : Bool)

def pollNext (cfg : Config) (registry : IpiRegistry cfg IpiData) (d : IpiData) :
    PollEvent → Except Halt IpiData
  | .send u msg accepts => .ok (ipiSend cfg accepts (.u54 u) .e51 msg d).1
  | .pass accepts => ipiPollMonitoringHandler cfg registry accepts d

/-- In every state, so in every state that a run reaches, the next pass handles a message of a queue
that holds an acknowledgement if and only if some queue has a new transaction and this one has
either a new transaction or a count left from before. -/
theorem pass_handles_iff (registry : IpiRegistry cfg IpiData) (accepts : Bool) {u : U54}
    (holds : HoldsAck cfg .e51 (.u54 u) d) :
    ∃ d', ipiPollMonitoringHandler cfg registry accepts d = .ok d' ∧
      (handledCount (.u54 u) .e51 d < handledCount (.u54 u) .e51 d' ↔
        (∃ v, Fresh d v) ∧
          (Fresh d u ∨ (d.queues (ipiCalculateQueueIndex (.u54 u) .e51)).count ≠ 0)) := by
  refine ⟨pollPass cfg d, ipiPollMonitoringHandler_eq, ?_⟩
  have polled : handledCount (.u54 u) .e51 (pollAll cfg d) = handledCount (.u54 u) .e51 d := by
    rw [handledCount, pollAll_history, handledCount]
  unfold pollPass
  split
  · next new =>
    have holds' : HoldsAck cfg .e51 (.u54 u) (pollAll cfg d) := by
      obtain ⟨j, hj, ack⟩ := holds
      exact ⟨j, hj, by rwa [pollAll_msgQ]⟩
    have turn := (takeAcks_independent cfg).foldl_of_mem (by decide) (mem_bootMachine u)
      (pollAll cfg d)
    rw [(inbox_eq.mp turn).2, ← polled, handledCount_takeAcks holds', count_pollAll holds]
    exact ⟨fun h => ⟨new, h⟩, fun h => h.2⟩
  · next none =>
    rw [polled]
    exact ⟨fun h => absurd h (lt_irrefl _), fun h => absurd h.1 none⟩

/-- The bus after one acknowledgement was sent to the monitor. -/
def oneAck : IpiData :=
  (ipiSend .icicleKitEs true (.u54 .u54_1) .e51 ⟨.ackComplete, 1, 1, 0, 0⟩ ipiQueuesInit).1

theorem pass_handles_iff_oneAck : HoldsAck .icicleKitEs .e51 (.u54 .u54_1) oneAck ∧
    ∃ d', ipiPollMonitoringHandler .icicleKitEs (.bare ..) true oneAck = .ok d' ∧
      (handledCount (.u54 .u54_1) .e51 oneAck < handledCount (.u54 .u54_1) .e51 d' ↔
        (∃ v, Fresh oneAck v) ∧ (Fresh oneAck .u54_1 ∨
          (oneAck.queues (ipiCalculateQueueIndex (.u54 .u54_1) .e51)).count ≠ 0)) :=
  have holds : HoldsAck .icicleKitEs .e51 (.u54 .u54_1) oneAck := ⟨0, by decide, rfl⟩
  ⟨holds, pass_handles_iff (.bare ..) true holds⟩

/-- Two acknowledgements of one kind reach the monitor before a pass: the pass takes the first and
notes the last transaction, and the next pass takes nothing. -/
theorem pass_strands_ack :
    ∃ d, Run (fun d event d' => pollNext .icicleKitEs (.bare ..) d event = .ok d') ipiQueuesInit
        [.send .u54_1 ⟨.ackComplete, 1, 1, 0, 0⟩ true,
          .send .u54_1 ⟨.ackComplete, 2, 1, 0, 0⟩ true, .pass true] d ∧
      HoldsAck .icicleKitEs .e51 (.u54 .u54_1) d ∧
      ∃ d', ipiPollMonitoringHandler .icicleKitEs (.bare ..) true d = .ok d' ∧
        ¬ handledCount (.u54 .u54_1) .e51 d < handledCount (.u54 .u54_1) .e51 d' := by
  obtain ⟨d, run, holds, stranded⟩ := exists_run
    (pollNext .icicleKitEs (.bare ..)) ipiQueuesInit
    [.send .u54_1 ⟨.ackComplete, 1, 1, 0, 0⟩ true, .send .u54_1 ⟨.ackComplete, 2, 1, 0, 0⟩ true,
      .pass true]
    (P := fun d => HoldsAck .icicleKitEs .e51 (.u54 .u54_1) d ∧
      ¬ handledCount (.u54 .u54_1) .e51 d <
        handledCount (.u54 .u54_1) .e51 (pollPass .icicleKitEs d)) (by decide +kernel)
  exact ⟨d, run, holds, _, ipiPollMonitoringHandler_eq, stranded⟩

end Hss
