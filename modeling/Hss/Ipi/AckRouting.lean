import Hss.Ipi.Polling

/-! Routing of acknowledgements: which completion slot the acknowledgement of a message marks. -/

namespace Hss

open SlotTable Runs

/-- Slot `s` of the completions is marked with `status`, and no other slot is changed. -/
structure MarksOnly (s : ℕ) (status : StatusCode) (d d' : IpiData) : Prop where
  marked : d'.completes s = { d.completes s with status }
  others : ∀ k ≠ s, d'.completes k = d.completes k

/-- A call of a hart on the bus. -/
inductive BusCall
  | alloc (hart : HartId)
  | deliver (hart : HartId) (index : ℕ) (target : HartId) (message : MsgType)
      (immediateArg : BitVec 32) (extendedBuffer ancilliaryBuffer : Word) (accepts : Bool)
  | free (hart : HartId) (index : ℕ)
  | send (hart target : HartId) (msg : OutboxMsg) (accepts : Bool)
  | poll (hart : HartId) (mask : BitVec 32)
  | consume (hart source : HartId) (msgType : MsgType) (accepts : Bool)

/-- The bus after a call, with the handlers of each hart. -/
def busNext (cfg : Config) (registry : HartId → IpiRegistry cfg IpiData) (d : IpiData) :
    BusCall → Except Halt IpiData
  | .alloc hart => .ok (ipiMessageAlloc cfg hart d).1
  | .deliver hart index target message immediateArg extendedBuffer ancilliaryBuffer accepts => do
    let (d, _) ← ipiMessageDeliver cfg accepts hart index target message immediateArg
      extendedBuffer ancilliaryBuffer d
    return d
  | .free hart index => ipiMessageFree hart index d
  | .send hart target msg accepts => .ok (ipiSend cfg accepts hart target msg d).1
  | .poll hart mask => .ok (ipiPollReceive cfg hart mask d).1
  | .consume hart source msgType accepts => do
    let (d, _) ← ipiConsumeIntent cfg (registry hart).handler accepts hart source msgType d
    return d

variable {cfg : Config} {registry : HartId → IpiRegistry cfg IpiData} {accepts : Bool}
  {me source : HartId} {msgType : MsgType} {d : IpiData} {j s : ℕ} {transactionId : TxId}

/-- `IPI_MessageUpdateStatus` marks slot `s` alone if it is the first that carries the id. -/
theorem ipiMessageUpdateStatus_marksOnly (status : StatusCode)
    (bound : s < cfg.maxNumOutstandingCompletes)
    (carries : (d.completes s).transactionId = transactionId)
    (first : ∀ k < s, (d.completes k).transactionId ≠ transactionId) :
    MarksOnly s status d (ipiMessageUpdateStatus cfg transactionId status d).1 := by
  have found : firstBelow cfg.maxNumOutstandingCompletes
      (fun index => (d.completes index).transactionId = transactionId) = some s :=
    firstBelow_eq_some.mpr ⟨bound, decide_eq_true carries, fun k hk => decide_eq_false (first k hk)⟩
  rw [ipiMessageUpdateStatus, found]
  exact ⟨Function.update_self .., fun k hk => Function.update_of_ne hk ..⟩

/-- If `IPI_MessageUpdateStatus` changes the status of slot `s`, no earlier slot carries the id. -/
theorem first_of_ipiMessageUpdateStatus {status : StatusCode} (change : (d.completes s).status ≠ status)
    (marked : ((ipiMessageUpdateStatus cfg transactionId status d).1.completes s).status = status) :
    ∀ k < s, (d.completes k).transactionId ≠ transactionId := by
  intro k hk carries
  unfold ipiMessageUpdateStatus at marked
  split at marked
  · exact change marked
  · next index found =>
    obtain ⟨-, -, first⟩ := firstBelow_eq_some.mp found
    have le : index ≤ k := by
      by_contra later
      have := first k (not_le.mp later)
      exact of_decide_eq_false this carries
    rw [IpiData.setComplete_completes, Function.update_of_ne (by omega)] at marked
    exact change marked

theorem ipiMessageUpdateStatus_completes {status : StatusCode} :
    (ipiMessageUpdateStatus cfg transactionId status d).1.completes =
      match firstBelow cfg.maxNumOutstandingCompletes
          fun index => (d.completes index).transactionId = transactionId with
      | none => d.completes
      | some index => Function.update d.completes index { d.completes index with status } := by
  unfold ipiMessageUpdateStatus
  cases firstBelow cfg.maxNumOutstandingCompletes
    fun index => (d.completes index).transactionId = transactionId <;> rfl

@[simp] theorem takeAck_completes : (takeAck cfg me source j d).completes =
    (ipiMessageUpdateStatus cfg
      ((d.queues (ipiCalculateQueueIndex source me)).msgQ j).transactionId .idle d).1.completes := by
  rw [takeAck, clearMsg_completes, ipiMessageUpdateStatus_completes,
    ipiMessageUpdateStatus_completes, takeIntent_completes]

/-- An acknowledgement that is taken marks slot `s` alone if `s` is the first that carries its id. -/
theorem takeAck_marksOnly (bound : s < cfg.maxNumOutstandingCompletes)
    (carries : ((d.queues (ipiCalculateQueueIndex source me)).msgQ j).transactionId =
      (d.completes s).transactionId)
    (first : ∀ k < s, (d.completes k).transactionId ≠ (d.completes s).transactionId) :
    MarksOnly s .idle d (takeAck cfg me source j d) := by
  have marks := ipiMessageUpdateStatus_marksOnly .idle bound rfl first
  exact ⟨by rw [takeAck_completes, carries, marks.marked],
    fun k hk => by rw [takeAck_completes, carries, marks.others k hk]⟩

theorem busNext_consume_ack (registry : HartId → IpiRegistry cfg IpiData) (accepts : Bool)
    (ack : msgType.isAck = true)
    (found : findIntent cfg d (ipiCalculateQueueIndex source me) msgType = some j) :
    busNext cfg registry d (.consume me source msgType accepts) =
      .ok (takeAck cfg me source j d) := by
  simp only [busNext, ipiConsumeIntent_ack ack, consumeAck, found, ok_bind]
  rfl

/-- When a hart takes the acknowledgement of the message of a pending slot `s`, which carries the
transaction id of `s`, exactly the status of `s` changes if and only if no slot before `s` carries
that id. -/
theorem ack_marks_iff (registry : HartId → IpiRegistry cfg IpiData) (accepts : Bool)
    (ack : msgType.isAck = true)
    (found : findIntent cfg d (ipiCalculateQueueIndex source me) msgType = some j)
    (bound : s < cfg.maxNumOutstandingCompletes)
    (pending : (d.completes s).status = .pending)
    (carries : ((d.queues (ipiCalculateQueueIndex source me)).msgQ j).transactionId =
      (d.completes s).transactionId) :
    ∃ d', busNext cfg registry d (.consume me source msgType accepts) = .ok d' ∧
      (MarksOnly s .idle d d' ↔
        ∀ k < s, (d.completes k).transactionId ≠ (d.completes s).transactionId) := by
  refine ⟨_, busNext_consume_ack registry accepts ack found, ?_, takeAck_marksOnly bound carries⟩
  intro marks
  have marked : ((takeAck cfg me source j d).completes s).status = .idle := by
    rw [marks.marked]
  rw [takeAck_completes, carries] at marked
  exact first_of_ipiMessageUpdateStatus (by rw [pending]; decide) marked

/-- The bus after the monitor allocated slot 0, and an acknowledgement with its id reached it. -/
def acked : IpiData :=
  (ipiSend .icicleKitEs true (.u54 .u54_1) .e51 ⟨.ackComplete, 1, 1, 0, 0⟩
    (ipiMessageAlloc .icicleKitEs .e51 ipiQueuesInit).1).1

theorem ack_marks_iff_acked :
    ∃ d', busNext .icicleKitEs (fun _ => .bare ..) acked
        (.consume .e51 (.u54 .u54_1) .ackComplete true) = .ok d' ∧
      (MarksOnly 0 .idle acked d' ↔
        ∀ k < 0, (acked.completes k).transactionId ≠ (acked.completes 0).transactionId) :=
  ack_marks_iff (j := 0) (fun _ => .bare ..) true rfl (by decide +kernel) (by decide) rfl rfl

/-- The monitor and an application hart each allocate a slot, with the first id of their own counter.
The acknowledgement of the application hart's message, of slot 1, marks the monitor's slot 0. -/
theorem ack_marks_other_slot :
    ∃ d, Run (fun d call d' => busNext .icicleKitEs (fun _ => .bare ..) d call = .ok d') ipiQueuesInit
        [.alloc .e51, .alloc (.u54 .u54_1), .deliver (.u54 .u54_1) 1 .e51 .uartTx 0 0 0 true,
          .consume .e51 (.u54 .u54_1) .uartTx true] d ∧
      (d.completes 1).used = true ∧ (d.completes 1).status = .pending ∧
      ∃ d', busNext .icicleKitEs (fun _ => .bare ..) d
          (.consume (.u54 .u54_1) .e51 .ackComplete true) = .ok d' ∧
        (d'.completes 0).status = .idle ∧ ¬ MarksOnly 1 .idle d d' := by
  obtain ⟨d, run, used, pending, check⟩ := exists_run
    (busNext .icicleKitEs fun _ => .bare ..) ipiQueuesInit
    [.alloc .e51, .alloc (.u54 .u54_1), .deliver (.u54 .u54_1) 1 .e51 .uartTx 0 0 0 true,
      .consume .e51 (.u54 .u54_1) .uartTx true]
    (P := fun d => (d.completes 1).used = true ∧ (d.completes 1).status = .pending ∧
      (busNext .icicleKitEs (fun _ => .bare ..) d
        (.consume (.u54 .u54_1) .e51 .ackComplete true)).toOption.any fun d' =>
          (d'.completes 0).status = .idle ∧ (d'.completes 1).status = .pending) (by decide +kernel)
  obtain ⟨d', next, marked, unmarked⟩ := exists_ok check
  refine ⟨d, run, used, pending, d', next, marked, fun only => ?_⟩
  rw [only.marked] at unmarked
  cases unmarked

/-! ### One allocating hart

The ids of one hart's counter differ until the counter wraps, so the condition of `ack_marks_iff`
holds while one hart alone allocates. -/

/-- No slot came into use, and ids and counters are the same. -/
structure SameIds (d d' : IpiData) : Prop where
  used : ∀ k, (d'.completes k).used = true → (d.completes k).used = true
  transactionId : ∀ k, (d'.completes k).transactionId = (d.completes k).transactionId
  counters : d'.myTransactionId = d.myTransactionId

theorem SameIds.of_eq {d' : IpiData} (completes : d'.completes = d.completes)
    (counters : d'.myTransactionId = d.myTransactionId) : SameIds d d' :=
  ⟨fun _ => by rw [completes]; exact id, fun _ => by rw [completes], counters⟩

theorem SameIds.trans {a b c : IpiData} (h : SameIds a b) (h' : SameIds b c) : SameIds a c :=
  ⟨fun k => h.used k ∘ h'.used k,
    fun k => (h'.transactionId k).trans (h.transactionId k), h'.counters.trans h.counters⟩

theorem SameIds.send (target : HartId) (msg : OutboxMsg) :
    SameIds d (ipiSend cfg accepts source target msg d).1 :=
  .of_eq (ipiSend_completes ..) (ipiSend_myTransactionId ..)

theorem SameIds.acknowledge (msg : OutboxMsg) (result : StatusCode) :
    SameIds d (acknowledge cfg accepts source me msg result d) := by
  unfold Hss.acknowledge
  split
  case h_4 =>
    split
    · exact .of_eq rfl rfl
    · exact .send ..
  all_goals exact .of_eq rfl rfl

theorem SameIds.poll (mask : BitVec 32) : SameIds d (ipiPollReceive cfg me mask d).1 := by
  refine ipiPollReceive_induction (fun source e same => same.trans ?_) mask (.of_eq rfl rfl)
  simp only [pollQueue]
  split <;> exact .of_eq rfl rfl

/-- A handler leaves the ids alone. -/
def KeepsIds (handler : IpiHandler IpiData) : Prop :=
  ∀ {transactionId source immediateArg extendedBuffer ancilliaryBuffer d d' result},
    handler transactionId source immediateArg extendedBuffer ancilliaryBuffer d = .ok (d', result) →
    SameIds d d'

theorem SameIds.consume {registry : IpiRegistry cfg IpiData}
    (keeps : ∀ {msgType handler}, registry.handler msgType = some handler → KeepsIds handler)
    {d' : IpiData} {intentFound : Bool}
    (done : ipiConsumeIntent cfg registry.handler accepts me source msgType d =
      .ok (d', intentFound)) : SameIds d d' := by
  rcases ipiConsumeIntent_cases done with ⟨rfl, -⟩ | ⟨j, handler, e, result, -, entry, handled, rfl⟩
  · exact .of_eq rfl rfl
  · have taken : SameIds d (takeIntent source me j d) := .of_eq rfl rfl
    refine taken.trans ((keeps entry handled).trans ?_)
    exact .trans (.acknowledge ..) (.of_eq rfl rfl)

/-- After `n` allocations by `hart`, the slots carry different ids of its counter, or none. -/
structure IdsOf (hart : HartId) (n : ℕ) (d : IpiData) : Prop where
  counter : (d.myTransactionId hart).toNat = n + 1
  bound : ∀ k, (d.completes k).transactionId.toNat ≤ n
  used : ∀ k, (d.completes k).used = true → (d.completes k).transactionId ≠ 0
  distinct : ∀ {k l}, k ≠ l → (d.completes k).transactionId ≠ 0 →
    (d.completes k).transactionId ≠ (d.completes l).transactionId

theorem SameIds.free {hart : HartId} {index : ℕ} {d' : IpiData}
    (freed : ipiMessageFree hart index d = .ok d') : SameIds d d' := by
  obtain ⟨used, rfl⟩ := ipiMessageFree_eq_ok.mp freed
  refine ⟨fun k => ?_, fun k => ?_, rfl⟩ <;>
    rw [IpiData.record_completes, IpiData.setComplete_completes] <;> by_cases h : k = index
  · exact fun _ => h ▸ used
  · rw [Function.update_of_ne h]; exact id
  · rw [h, Function.update_self]
  · rw [Function.update_of_ne h]

theorem SameIds.deliver {hart target : HartId} {index : ℕ} {message : MsgType}
    {immediateArg : BitVec 32} {extendedBuffer ancilliaryBuffer : Word} {d' : IpiData} {sent : Bool}
    (done : ipiMessageDeliver cfg accepts hart index target message immediateArg extendedBuffer
      ancilliaryBuffer d = .ok (d', sent)) : SameIds d d' := by
  obtain ⟨-, done⟩ := ipiMessageDeliver_eq_ok.mp done
  have after : d' = _ := congrArg Prod.fst done
  rw [after]
  split
  · exact .send ..
  · exact .of_eq rfl rfl

theorem IdsOf.congr {hart : HartId} {n : ℕ} {d' : IpiData} (ids : IdsOf hart n d)
    (same : SameIds d d') : IdsOf hart n d' where
  counter := by rw [same.counters, ids.counter]
  bound k := by rw [same.transactionId]; exact ids.bound k
  used k h := by rw [same.transactionId]; exact ids.used k (same.used k h)
  distinct {k l} := by rw [same.transactionId, same.transactionId]; exact ids.distinct

theorem IdsOf.init (hart : HartId) : IdsOf hart 0 ipiQueuesInit :=
  ⟨rfl, fun _ => Nat.le_refl 0, fun _ used => (nomatch used), fun _ named => absurd rfl named⟩

/-- An allocation by the hart takes the next id, unless the counter wraps. -/
theorem IdsOf.alloc {hart : HartId} {n : ℕ} (cfg : Config) (ids : IdsOf hart n d) (room : n + 2 < 2 ^ 32) :
    IdsOf hart (n + 1) (ipiMessageAlloc cfg hart d).1 ∨
      IdsOf hart n (ipiMessageAlloc cfg hart d).1 := by
  rcases taken : ipiMessageAlloc cfg hart d with ⟨d', _ | index⟩
  · obtain ⟨rfl, -⟩ := ipiMessageAlloc_eq_none taken
    exact .inr ids
  · obtain ⟨-, -, rfl⟩ := ipiMessageAlloc_eq_some taken
    have next : (d.myTransactionId hart).toNat = n + 1 := ids.counter
    have named : d.myTransactionId hart ≠ 0 := fun zero => by rw [zero] at next; cases next
    have new : ∀ k, d.myTransactionId hart ≠ (d.completes k).transactionId := by
      intro k same
      have := ids.bound k
      rw [← same, next] at this
      omega
    refine .inl ⟨?_, fun k => ?_, fun k => ?_, fun {k l} ne => ?_⟩
    · simp only [Function.update_self, BitVec.toNat_add, next]
      exact Nat.mod_eq_of_lt room
    all_goals
      simp only [IpiData.record_completes, IpiData.setComplete_completes, Function.update_apply]
    · split
      · exact next.le
      · exact Nat.le_succ_of_le (ids.bound k)
    · split
      · exact fun _ => named
      · exact ids.used k
    · split
      · next hk =>
        rw [if_neg (fun hl => ne (hk.trans hl.symm))]
        exact fun _ => new l
      · split
        · exact fun _ => (new k).symm
        · exact ids.distinct ne

/-- The calls of a run in which `hart` alone allocates. -/
def AllocatesAlone (hart : HartId) : BusCall → Prop
  | .alloc hart' => hart' = hart
  | _ => True

/-- In every run in which one hart alone allocates, fewer than `2 ^ 32 - 2` times, the slots in use
carry ids that no other slot carries. -/
theorem ids_distinct_of_allocatesAlone {hart : HartId}
    (keeps : ∀ hart msgType handler, (registry hart).handler msgType = some handler →
      KeepsIds handler) {calls : List BusCall}
    (run : Run (Under (fun _ call => AllocatesAlone hart call)
      fun d call d' => busNext cfg registry d call = .ok d') ipiQueuesInit calls d)
    (room : calls.length + 2 < 2 ^ 32) (used : (d.completes s).used = true) :
    ∀ k ≠ s, (d.completes k).transactionId ≠ (d.completes s).transactionId := by
  have ids : ∃ n ≤ calls.length, IdsOf hart n d := by
    clear used
    induction run with
    | nil => exact ⟨0, Nat.le_refl 0, .init hart⟩
    | @snoc calls d d' call _ last ih =>
      rw [List.length_append, List.length_singleton] at room ⊢
      obtain ⟨n, le, ids⟩ := ih (by omega)
      obtain ⟨alone, next⟩ := last
      have same : (∀ hart', call ≠ .alloc hart') → SameIds d d' := by
        intro other
        cases call with
        | alloc hart' => exact absurd rfl (other hart')
        | deliver =>
          simp only [busNext, bind_eq_ok] at next
          obtain ⟨⟨e, sent⟩, done, next⟩ := next
          cases next
          exact .deliver done
        | free => exact .free next
        | send =>
          cases next
          exact .send ..
        | poll =>
          cases next
          exact .poll ..
        | consume hart' =>
          simp only [busNext, bind_eq_ok] at next
          obtain ⟨⟨e, intentFound⟩, done, next⟩ := next
          cases next
          exact .consume (fun entry => keeps hart' _ _ entry) done
      by_cases allocates : ∃ hart', call = .alloc hart'
      · obtain ⟨hart', rfl⟩ := allocates
        cases next
        cases alone
        rcases ids.alloc cfg (by omega) with next | next
        · exact ⟨n + 1, by omega, next⟩
        · exact ⟨n, by omega, next⟩
      · exact ⟨n, by omega, ids.congr (same fun hart' h => allocates ⟨hart', h⟩)⟩
  obtain ⟨n, -, ids⟩ := ids
  exact fun k ne => (ids.distinct (Ne.symm ne) (ids.used s used)).symm

/-- In every such run, each acknowledgement that a hart takes marks the slot in use whose id it
carries, and no other. -/
theorem acks_mark_of_allocatesAlone {hart : HartId}
    (keeps : ∀ hart msgType handler, (registry hart).handler msgType = some handler →
      KeepsIds handler) (ack : msgType.isAck = true) {calls : List BusCall} {d' : IpiData}
    (run : Run (Under (fun _ call => AllocatesAlone hart call)
      fun d call d' => busNext cfg registry d call = .ok d') ipiQueuesInit
        (calls ++ [.consume me source msgType accepts]) d')
    (room : calls.length + 2 < 2 ^ 32) :
    ∃ d, Run (Under (fun _ call => AllocatesAlone hart call)
        fun d call d' => busNext cfg registry d call = .ok d') ipiQueuesInit calls d ∧
      ∀ j s, findIntent cfg d (ipiCalculateQueueIndex source me) msgType = some j →
        s < cfg.maxNumOutstandingCompletes → (d.completes s).used = true →
        ((d.queues (ipiCalculateQueueIndex source me)).msgQ j).transactionId =
          (d.completes s).transactionId → MarksOnly s .idle d d' := by
  obtain ⟨d, before, -, last⟩ := run.unsnoc
  refine ⟨d, before, fun j s found bound used carries => ?_⟩
  rw [busNext_consume_ack registry accepts ack found] at last
  cases last
  have others := ids_distinct_of_allocatesAlone keeps before room used
  exact takeAck_marksOnly bound carries fun k less => others k less.ne

end Hss
