import Hss.Lib.SlotTable
import Hss.Types

/-! The inter-processor message bus: one queue of message slots for each ordered pair of harts, the
table of completions that all harts share, and the calls on them. -/

namespace Hss

open SlotTable

/-- `enum IPIMessagesEnum` -/
inductive MsgType
  | noMessage | bootRequest | pmpSetup | spiXfer | netRxpoll | netTx | scattergatherDma | wdogInit
  | gpioSet | uartTx | uartPollRx | powermode | ackPending | ackComplete | halt | continue | goto
  | opensbiInit | scrub | ddrTrain
  deriving DecidableEq, Repr

/-- `RPROC_BOOT`: the immediate argument of a request to start a remote processor. -/
def rprocBoot : BitVec 32 := 0x80

/-- `enum IPIStatusCode` -/
inductive StatusCode
  | fail | success | pending | idle
  deriving DecidableEq, Repr

/-- The value of the enumeration, which acknowledgements carry. -/
def StatusCode.num : StatusCode → BitVec 32
  | .fail => 0
  | .success => 1
  | .pending => 2
  | .idle => 3

/-- `TxId_t` -/
abbrev TxId := BitVec 32

/-- `struct IPI_Outbox_Msg` -/
structure OutboxMsg where
  msgType : MsgType
  transactionId : TxId
  immediateArg : BitVec 32
  extendedBuffer : Word
  ancilliaryBuffer : Word
  deriving DecidableEq, Repr

def OutboxMsg.zero : OutboxMsg := ⟨.noMessage, 0, 0, 0, 0⟩

/-- A slot whose message was consumed: its other fields stay. -/
def OutboxMsg.cleared (msg : OutboxMsg) : OutboxMsg := { msg with msgType := .noMessage }

/-- `struct IPI_Outbox_Queue` -/
structure OutboxQueue where
  msgQ : ℕ → OutboxMsg
  count : ℕ

/-- `struct IPI_Complete` -/
structure Complete where
  used : Bool
  transactionId : TxId
  status : StatusCode
  deriving DecidableEq, Repr

/-- What is recorded of the calls on the bus. -/
inductive BusEvent
  /-- `hart` was given completion slot `index`. -/
  | alloc (hart : HartId) (index : ℕ)
  /-- `hart` gave completion slot `index` back. -/
  | free (hart : HartId) (index : ℕ)
  /-- A message was put in a slot, and the call returned `ok`. -/
  | sent (source target : HartId) (msg : OutboxMsg) (ok : Bool)
  /-- A message was passed to the handler of its type. -/
  | handled (source target : HartId) (msg : OutboxMsg)
  deriving DecidableEq, Repr

/-- `struct IPI_Data`, less its statistics.  `history` records the calls, newest first; no code
reads it. -/
structure IpiData where
  queues : ℕ → OutboxQueue
  completes : ℕ → Complete
  last : ℕ → TxId
  shadow : ℕ → TxId
  myTransactionId : HartId → TxId
  history : List BusEvent

/-- `IPI_QueuesInit` -/
def ipiQueuesInit : IpiData where
  queues := fun _ => ⟨fun _ => .zero, 0⟩
  completes := fun _ => ⟨false, 0, .fail⟩
  last := fun _ => 0
  shadow := fun _ => 0
  myTransactionId := fun _ => 1
  history := []

namespace IpiData

def record (d : IpiData) (event : BusEvent) : IpiData := { d with history := event :: d.history }

def setQueue (d : IpiData) (index : ℕ) (queue : OutboxQueue) : IpiData :=
  { d with queues := Function.update d.queues index queue }

def setMsg (d : IpiData) (index j : ℕ) (msg : OutboxMsg) : IpiData :=
  d.setQueue index
    { d.queues index with msgQ := Function.update (d.queues index).msgQ j msg }

def setComplete (d : IpiData) (index : ℕ) (complete : Complete) : IpiData :=
  { d with completes := Function.update d.completes index complete }

variable (d : IpiData) (event : BusEvent) (index j : ℕ) (queue : OutboxQueue) (msg : OutboxMsg)
  (complete : Complete)

@[simp] theorem record_queues : (d.record event).queues = d.queues := rfl
@[simp] theorem record_completes : (d.record event).completes = d.completes := rfl
@[simp] theorem record_last : (d.record event).last = d.last := rfl
@[simp] theorem record_shadow : (d.record event).shadow = d.shadow := rfl
@[simp] theorem record_history : (d.record event).history = event :: d.history := rfl
@[simp] theorem record_myTransactionId :
    (d.record event).myTransactionId = d.myTransactionId := rfl

@[simp] theorem setQueue_queues :
    (d.setQueue index queue).queues = Function.update d.queues index queue := rfl

@[simp] theorem setQueue_completes : (d.setQueue index queue).completes = d.completes := rfl
@[simp] theorem setQueue_last : (d.setQueue index queue).last = d.last := rfl
@[simp] theorem setQueue_shadow : (d.setQueue index queue).shadow = d.shadow := rfl
@[simp] theorem setQueue_history : (d.setQueue index queue).history = d.history := rfl

@[simp] theorem setMsg_completes : (d.setMsg index j msg).completes = d.completes := rfl
@[simp] theorem setMsg_last : (d.setMsg index j msg).last = d.last := rfl
@[simp] theorem setMsg_shadow : (d.setMsg index j msg).shadow = d.shadow := rfl
@[simp] theorem setMsg_history : (d.setMsg index j msg).history = d.history := rfl
@[simp] theorem setMsg_myTransactionId :
    (d.setMsg index j msg).myTransactionId = d.myTransactionId := rfl

@[simp] theorem setMsg_msgQ_self :
    ((d.setMsg index j msg).queues index).msgQ =
      Function.update (d.queues index).msgQ j msg := by
  rw [setMsg, setQueue_queues, Function.update_self]

@[simp] theorem setMsg_count (index' : ℕ) :
    ((d.setMsg index j msg).queues index').count = (d.queues index').count := by
  rw [setMsg, setQueue_queues]
  by_cases h : index' = index
  · rw [h, Function.update_self]
  · rw [Function.update_of_ne h]

theorem setMsg_queues_of_ne {index' : ℕ} (h : index' ≠ index) :
    (d.setMsg index j msg).queues index' = d.queues index' := Function.update_of_ne h ..

@[simp] theorem setComplete_queues : (d.setComplete index complete).queues = d.queues := rfl
@[simp] theorem setComplete_last : (d.setComplete index complete).last = d.last := rfl
@[simp] theorem setComplete_shadow : (d.setComplete index complete).shadow = d.shadow := rfl
@[simp] theorem setComplete_history : (d.setComplete index complete).history = d.history := rfl
@[simp] theorem setComplete_completes : (d.setComplete index complete).completes =
    Function.update d.completes index complete := rfl
@[simp] theorem setComplete_myTransactionId :
    (d.setComplete index complete).myTransactionId = d.myTransactionId := rfl

end IpiData

/-! ### Queues -/

/-- `IPI_CalculateQueueIndex` -/
def ipiCalculateQueueIndex (source target : HartId) : ℕ :=
  let index := source.num * 4 + target.num
  if target.num > source.num then index - 1 else index

theorem ipiCalculateQueueIndex_injective {a b c d : HartId} (hab : a ≠ b) (hcd : c ≠ d)
    (same : ipiCalculateQueueIndex a b = ipiCalculateQueueIndex c d) : a = c ∧ b = d := by
  have hab' : a.num ≠ b.num := fun h => hab (HartId.num_injective h)
  have hcd' : c.num ≠ d.num := fun h => hcd (HartId.num_injective h)
  have ha := a.num_le
  have hb := b.num_le
  have hc := c.num_le
  have hd := d.num_le
  have heq : a.num = c.num ∧ b.num = d.num := by
    simp only [ipiCalculateQueueIndex] at same
    split at same <;> split at same <;> omega
  exact ⟨HartId.num_injective heq.1, HartId.num_injective heq.2⟩

/-- `find_available_slot` -/
def findAvailableSlot (cfg : Config) (d : IpiData) (index : ℕ) : Option ℕ :=
  firstBelow cfg.maxNumQueueMessages fun j => ((d.queues index).msgQ j).msgType = .noMessage

/-- The transport's answer to a message in a slot: the inter-hart block can refuse, the CLINT
cannot.  `accepts` is the block's answer. -/
def raise (cfg : Config) (accepts : Bool) : Bool := if cfg.hssUseIhc then accepts else true

/-- `IPI_Send`, called by `source`: whether the message was sent. -/
def ipiSend (cfg : Config) (accepts : Bool) (source target : HartId) (msg : OutboxMsg)
    (d : IpiData) : IpiData × Bool :=
  let index := ipiCalculateQueueIndex source target
  match findAvailableSlot cfg d index with
  | none => (d, false)
  | some j =>
    let result := raise cfg accepts
    ({ (d.setMsg index j msg).record (.sent source target msg result) with
      last := Function.update d.last index msg.transactionId }, result)

section
variable (cfg : Config) (accepts : Bool) (source target : HartId) (msg : OutboxMsg) (d : IpiData)

@[simp] theorem ipiSend_completes :
    (ipiSend cfg accepts source target msg d).1.completes = d.completes := by
  simp only [ipiSend]
  split <;> rfl

@[simp] theorem ipiSend_myTransactionId :
    (ipiSend cfg accepts source target msg d).1.myTransactionId = d.myTransactionId := by
  simp only [ipiSend]
  split <;> rfl

theorem ipiSend_queues_of_ne {index : ℕ} (h : index ≠ ipiCalculateQueueIndex source target) :
    (ipiSend cfg accepts source target msg d).1.queues index = d.queues index := by
  simp only [ipiSend]
  split
  · rfl
  · exact IpiData.setMsg_queues_of_ne _ _ _ _ h

end

/-! ### Completions -/

/-- `IPI_MessageAlloc`, called by `hart`: the index, if a slot was free. -/
def ipiMessageAlloc (cfg : Config) (hart : HartId) (d : IpiData) : IpiData × Option ℕ :=
  match firstBelow cfg.maxNumOutstandingCompletes fun index => !(d.completes index).used with
  | none => (d, none)
  | some index =>
    ({ (d.setComplete index ⟨true, d.myTransactionId hart, .pending⟩).record (.alloc hart index) with
      myTransactionId := Function.update d.myTransactionId hart (d.myTransactionId hart + 1) },
      some index)

/-- `IPI_MessageDeliver`, called by `source` -/
def ipiMessageDeliver (cfg : Config) (accepts : Bool) (source : HartId) (index : ℕ)
    (target : HartId) (message : MsgType) (immediateArg : BitVec 32)
    (extendedBuffer ancilliaryBuffer : Word) (d : IpiData) : Except Halt (IpiData × Bool) := do
  assert (index < cfg.maxNumOutstandingCompletes) .messageIndexInRange
  if (d.completes index).used then
    return ipiSend cfg accepts source target
      ⟨message, (d.completes index).transactionId, immediateArg, extendedBuffer,
        ancilliaryBuffer⟩ d
  else
    return (d, false)

/-- `IPI_MessageCheckIfComplete` -/
def ipiMessageCheckIfComplete (cfg : Config) (d : IpiData) (index : ℕ) : Except Halt Bool := do
  assert (index ≤ cfg.maxNumOutstandingCompletes) .messageIndexInRange
  if index = cfg.maxNumOutstandingCompletes then
    return true
  else if (d.completes index).used then
    return (d.completes index).status ≠ .pending
  else
    return false

/-- `IPI_MessageUpdateStatus` -/
def ipiMessageUpdateStatus (cfg : Config) (transactionId : TxId) (status : StatusCode)
    (d : IpiData) : IpiData × Bool :=
  match firstBelow cfg.maxNumOutstandingCompletes
      fun index => (d.completes index).transactionId = transactionId with
  | none => (d, false)
  | some index => (d.setComplete index { d.completes index with status }, true)

/-- `IPI_MessageFree`, called by `hart` -/
def ipiMessageFree (hart : HartId) (index : ℕ) (d : IpiData) : Except Halt IpiData := do
  assert ((d.completes index).used = true) .freedMessageUsed
  return (d.setComplete index { d.completes index with used := false }).record (.free hart index)

section
variable {cfg : Config} {hart : HartId} {d d' : IpiData} {index : ℕ}

/-- A slot that is handed out was free. -/
theorem ipiMessageAlloc_eq_some (h : ipiMessageAlloc cfg hart d = (d', some index)) :
    index < cfg.maxNumOutstandingCompletes ∧ (d.completes index).used = false ∧
      d' = { (d.setComplete index ⟨true, d.myTransactionId hart, .pending⟩).record
          (.alloc hart index) with
        myTransactionId := Function.update d.myTransactionId hart (d.myTransactionId hart + 1) } := by
  unfold ipiMessageAlloc at h
  split at h
  · cases h
  · next k found =>
    obtain ⟨bound, free, -⟩ := firstBelow_eq_some.mp found
    cases h
    exact ⟨bound, by simpa using free, rfl⟩

theorem ipiMessageAlloc_eq_none (h : ipiMessageAlloc cfg hart d = (d', none)) :
    d' = d ∧ ∀ k < cfg.maxNumOutstandingCompletes, (d.completes k).used = true := by
  unfold ipiMessageAlloc at h
  split at h
  · next full =>
    cases h
    exact ⟨rfl, fun k hk => by simpa using firstBelow_eq_none.mp full k hk⟩
  · cases h

theorem ipiMessageDeliver_eq_ok {accepts : Bool} {target : HartId} {message : MsgType}
    {immediateArg : BitVec 32} {extendedBuffer ancilliaryBuffer : Word} {sent : IpiData × Bool} :
    ipiMessageDeliver cfg accepts hart index target message immediateArg extendedBuffer
        ancilliaryBuffer d = .ok sent ↔
      index < cfg.maxNumOutstandingCompletes ∧
        sent = if (d.completes index).used then
          ipiSend cfg accepts hart target ⟨message, (d.completes index).transactionId, immediateArg,
            extendedBuffer, ancilliaryBuffer⟩ d
        else (d, false) := by
  simp only [ipiMessageDeliver, bind_eq_ok, assert_eq_ok]
  constructor
  · rintro ⟨-, bound, done⟩
    refine ⟨bound, ?_⟩
    split at done <;> rename_i h
    · rw [if_pos h]
      exact (Except.ok.inj done).symm
    · rw [if_neg h]
      exact (Except.ok.inj done).symm
  · rintro ⟨bound, rfl⟩
    refine ⟨(), bound, ?_⟩
    split <;> rfl

theorem ipiMessageFree_eq_ok : ipiMessageFree hart index d = .ok d' ↔
    (d.completes index).used = true ∧
      d' = (d.setComplete index { d.completes index with used := false }).record
        (.free hart index) := by
  simp only [ipiMessageFree, bind_eq_ok, assert_eq_ok, pure, Except.pure, Except.ok.injEq]
  exact ⟨fun ⟨_, used, same⟩ => ⟨used, same.symm⟩, fun ⟨used, same⟩ => ⟨(), used, same.symm⟩⟩

end

/-! ### Consuming messages -/

/-- A world of which the bus is part. -/
class HasIpi (W : Type) where
  ipi : W → IpiData
  setIpi : W → IpiData → W
  ipi_setIpi : ∀ w d, ipi (setIpi w d) = d
  setIpi_ipi : ∀ w, setIpi w (ipi w) = w
  setIpi_setIpi : ∀ w d e, setIpi (setIpi w d) e = setIpi w e

export HasIpi (ipi setIpi)

attribute [simp] HasIpi.ipi_setIpi HasIpi.setIpi_ipi HasIpi.setIpi_setIpi

instance : HasIpi IpiData := ⟨id, fun _ d => d, fun _ _ => rfl, fun _ => rfl, fun _ _ _ => rfl⟩

/-- A change of the bus, as a change of the world it is part of. -/
def onIpi {W : Type} [HasIpi W] (f : IpiData → IpiData) (w : W) : W := setIpi w (f (ipi w))

@[simp] theorem ipi_onIpi {W : Type} [HasIpi W] (f : IpiData → IpiData) (w : W) :
    ipi (onIpi f w) = f (ipi w) := HasIpi.ipi_setIpi ..

/-- `IPI_handlerFunction`: transaction, source, immediate argument, extended and ancilliary
buffer. -/
abbrev IpiHandler (W : Type) :=
  TxId → HartId → BitVec 32 → Word → Word → W → Except Halt (W × StatusCode)

/-- The first message of a type in a queue. -/
def findIntent (cfg : Config) (d : IpiData) (index : ℕ) (msgType : MsgType) : Option ℕ :=
  firstBelow cfg.maxNumQueueMessages fun j => ((d.queues index).msgQ j).msgType = msgType

/-- A message is taken for its handler. -/
def takeIntent (source me : HartId) (j : ℕ) (d : IpiData) : IpiData :=
  let index := ipiCalculateQueueIndex source me
  (d.setQueue index { d.queues index with count := (d.queues index).count - 1 }).record
    (.handled source me ((d.queues index).msgQ j))

section
variable (source me : HartId) (j : ℕ) (d : IpiData)

@[simp] theorem takeIntent_msgQ (index : ℕ) :
    ((takeIntent source me j d).queues index).msgQ = (d.queues index).msgQ := by
  rw [takeIntent, IpiData.record_queues, IpiData.setQueue_queues]
  by_cases h : index = ipiCalculateQueueIndex source me
  · rw [h, Function.update_self]
  · rw [Function.update_of_ne h]

theorem takeIntent_queues_of_ne {index : ℕ} (h : index ≠ ipiCalculateQueueIndex source me) :
    (takeIntent source me j d).queues index = d.queues index := Function.update_of_ne h ..

@[simp] theorem takeIntent_history : (takeIntent source me j d).history =
    .handled source me ((d.queues (ipiCalculateQueueIndex source me)).msgQ j) :: d.history := rfl

@[simp] theorem takeIntent_completes :
    (takeIntent source me j d).completes = d.completes := rfl

end

/-- The acknowledgement that a handler's result asks for. -/
def ackOf (result : StatusCode) (transactionId : TxId) : Option OutboxMsg :=
  match result with
  | .success => some ⟨.ackComplete, transactionId, StatusCode.success.num, 0, 0⟩
  | .pending => some ⟨.ackPending, transactionId, StatusCode.pending.num, 0, 0⟩
  | .fail => some ⟨.ackComplete, transactionId, StatusCode.fail.num, 0, 0⟩
  | .idle => none

/-- The acknowledgement of `msg` after its handler: none for acknowledgements and for boot
requests. -/
def acknowledge (cfg : Config) (accepts : Bool) (source me : HartId) (msg : OutboxMsg)
    (result : StatusCode) (d : IpiData) : IpiData :=
  match msg.msgType with
  | .ackComplete => d
  | .ackPending => d
  | .bootRequest => d
  | _ =>
    match ackOf result msg.transactionId with
    | none => d
    | some ack => (ipiSend cfg accepts me source ack d).1

def clearMsg (index j : ℕ) (d : IpiData) : IpiData :=
  d.setMsg index j ((d.queues index).msgQ j).cleared

@[simp] theorem clearMsg_history (index j : ℕ) (d : IpiData) :
    (clearMsg index j d).history = d.history := rfl

@[simp] theorem clearMsg_completes (index j : ℕ) (d : IpiData) :
    (clearMsg index j d).completes = d.completes := rfl

theorem clearMsg_queues_of_ne {index index' j : ℕ} {d : IpiData} (h : index' ≠ index) :
    (clearMsg index j d).queues index' = d.queues index' := d.setMsg_queues_of_ne _ _ _ h

/-- `IPI_ConsumeIntent`, called by `me`: whether a message of the type was found.  `registry` holds
the handlers of `me`.  Messages without one are cleared. -/
def ipiConsumeIntent {W : Type} [HasIpi W] (cfg : Config) (registry : MsgType → Option (IpiHandler W))
    (accepts : Bool) (me source : HartId) (msgType : MsgType) (w : W) : Except Halt (W × Bool) :=
  let index := ipiCalculateQueueIndex source me
  match registry msgType with
  | none =>
    .ok (onIpi (fun d => (List.range cfg.maxNumQueueMessages).foldl
      (fun d j => if ((d.queues index).msgQ j).msgType = msgType then clearMsg index j d else d)
      d) w, false)
  | some handler =>
    match findIntent cfg (ipi w) index msgType with
    | none => .ok (w, false)
    | some j => do
      let msg := ((ipi w).queues index).msgQ j
      let (w', result) ← handler msg.transactionId source msg.immediateArg msg.extendedBuffer
        msg.ancilliaryBuffer (onIpi (takeIntent source me j) w)
      return (onIpi (fun d => clearMsg index j
        (acknowledge cfg accepts source me ((d.queues index).msgQ j) result d)) w', true)

/-- `IPI_ACK_IPIHandler` -/
def ipiAckIpiHandler {W : Type} [HasIpi W] (cfg : Config) : IpiHandler W :=
  fun transactionId _ _ _ _ w =>
    .ok (onIpi (fun d => (ipiMessageUpdateStatus cfg transactionId .idle d).1) w, .success)

/-- `ipiRegistry`, the handlers of a hart: each build has one for every type of message. -/
structure IpiRegistry (cfg : Config) (W : Type) [HasIpi W] where
  handler : MsgType → Option (IpiHandler W)
  total : ∀ msgType, (handler msgType).isSome = true
  ackPending : handler .ackPending = some (ipiAckIpiHandler cfg)
  ackComplete : handler .ackComplete = some (ipiAckIpiHandler cfg)

/-- What a call of `IPI_ConsumeIntent` does: nothing, or it takes the first message of the type,
passes it to its handler, acknowledges it and clears its slot. -/
theorem ipiConsumeIntent_cases {W : Type} [HasIpi W] {cfg : Config} {registry : IpiRegistry cfg W}
    {accepts : Bool} {me source : HartId} {msgType : MsgType} {w w' : W} {intentFound : Bool}
    (done : ipiConsumeIntent cfg registry.handler accepts me source msgType w =
      .ok (w', intentFound)) :
    (w' = w ∧ findIntent cfg (ipi w) (ipiCalculateQueueIndex source me) msgType = none) ∨
      ∃ j handler v result,
        findIntent cfg (ipi w) (ipiCalculateQueueIndex source me) msgType = some j ∧
        registry.handler msgType = some handler ∧
        (let msg := ((ipi w).queues (ipiCalculateQueueIndex source me)).msgQ j
        handler msg.transactionId source msg.immediateArg msg.extendedBuffer msg.ancilliaryBuffer
          (onIpi (takeIntent source me j) w) = .ok (v, result)) ∧
        w' = onIpi (fun d => clearMsg (ipiCalculateQueueIndex source me) j (acknowledge cfg accepts
          source me ((d.queues (ipiCalculateQueueIndex source me)).msgQ j) result d)) v := by
  rw [ipiConsumeIntent] at done
  cases entry : registry.handler msgType with
  | none => exact absurd (registry.total msgType) (by simp [entry])
  | some handler =>
    simp only [entry] at done
    cases found : findIntent cfg (ipi w) (ipiCalculateQueueIndex source me) msgType with
    | none =>
      simp only [found] at done
      cases done
      exact .inl ⟨rfl, rfl⟩
    | some j =>
      simp only [found, bind_eq_ok] at done
      obtain ⟨⟨v, result⟩, handled, done⟩ := done
      cases done
      exact .inr ⟨j, handler, v, result, rfl, rfl, handled, rfl⟩

/-- `HSS_Null_IPIHandler` -/
def hssNullIpiHandler {W : Type} : IpiHandler W := fun _ _ _ _ _ w => .ok (w, .success)

/-- The table of a build without services: acknowledgements have their handler, every other type the
empty one. -/
def IpiRegistry.bare (cfg : Config) (W : Type) [HasIpi W] : IpiRegistry cfg W where
  handler
    | .ackPending => some (ipiAckIpiHandler cfg)
    | .ackComplete => some (ipiAckIpiHandler cfg)
    | _ => some hssNullIpiHandler
  total msgType := by cases msgType <;> rfl
  ackPending := rfl
  ackComplete := rfl

/-! ### Polling -/

/-- The number of messages in a queue. -/
def countPerQueue (cfg : Config) (d : IpiData) (index : ℕ) : ℕ :=
  ((List.range cfg.maxNumQueueMessages).filter fun j =>
    ((d.queues index).msgQ j).msgType ≠ .noMessage).length

/-- One turn of the loop of `IPI_PollReceive`: the queue from `source`. -/
def pollQueue (cfg : Config) (me source : HartId) (d : IpiData) : IpiData :=
  let index := ipiCalculateQueueIndex source me
  if d.shadow index = d.last index then d
  else
    { d.setQueue index { d.queues index with count := countPerQueue cfg d index } with
      shadow := Function.update d.shadow index (d.last index) }

/-- `IPI_PollReceive`, called by `me`: whether a queue has a new transaction. -/
def ipiPollReceive (cfg : Config) (me : HartId) (hartMask : BitVec 32) (d : IpiData) :
    IpiData × Bool :=
  harts.foldl
    (fun (d, result) source =>
      if source = me then (d, result)
      else if hartMask.getLsbD source.num = false then (d, result)
      else
        let index := ipiCalculateQueueIndex source me
        (pollQueue cfg me source d, result || d.shadow index ≠ d.last index))
    (d, false)

/-- What each turn of the loop of `IPI_PollReceive` keeps, the call keeps. -/
theorem ipiPollReceive_induction {cfg : Config} {me : HartId} {P : IpiData → Prop}
    (turn : ∀ source d, P d → P (pollQueue cfg me source d)) (hartMask : BitVec 32) {d : IpiData}
    (start : P d) : P (ipiPollReceive cfg me hartMask d).1 := by
  have fold : ∀ (l : List HartId) (p : IpiData × Bool), P p.1 → P
      (l.foldl (fun (d, result) source =>
        if source = me then (d, result)
        else if hartMask.getLsbD source.num = false then (d, result)
        else
          let index := ipiCalculateQueueIndex source me
          (pollQueue cfg me source d, result || d.shadow index ≠ d.last index)) p).1 := by
    intro l
    induction l with
    | nil => exact fun p hp => hp
    | cons source l ih =>
      intro p hp
      rw [List.foldl_cons]
      refine ih _ ?_
      dsimp only
      split
      · exact hp
      · split
        · exact hp
        · exact turn source p.1 hp
  exact fold harts (d, false) start

/-- `mHSS_BITMASK_ALL_U54` -/
def bitmaskAllU54 : BitVec 32 := 0x1E

/-- `ipiPoll_monitoring_handler`: the hart polls its queues from the application harts and takes the
acknowledgements of those with a count. -/
def ipiPollMonitoringHandler {W : Type} [HasIpi W] (cfg : Config) (registry : IpiRegistry cfg W)
    (accepts : Bool) (w : W) : Except Halt W :=
  let (d, status) := ipiPollReceive cfg .e51 bitmaskAllU54 (ipi w)
  if status then
    harts.foldlM
      (fun w source =>
        if source = .e51 then .ok w
        else if ((ipi w).queues (ipiCalculateQueueIndex source .e51)).count ≠ 0 then do
          let (w, _) ← ipiConsumeIntent cfg registry.handler accepts .e51 source .ackComplete w
          let (w, _) ← ipiConsumeIntent cfg registry.handler accepts .e51 source .ackPending w
          return w
        else return w)
      (setIpi w d)
  else return setIpi w d

end Hss
