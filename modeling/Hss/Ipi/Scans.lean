import Hss.Sgdma.Service

/-! The services that look for requests of the harts in turn, one hart in each call: which queue a call
asks for messages, and which it takes them from. -/

namespace Hss

open SlotTable

/-- A service whose idle handler scans the harts for one type of request. -/
structure Scan (cfg : Config) (W : Type) [HasIpi W] where
  registry : IpiRegistry cfg W
  msgType : MsgType
  msgType_ne : msgType ≠ .noMessage
  /-- The hart whose turn it is. -/
  i : W → HartId
  setI : W → HartId → W
  i_setI : ∀ w hart, i (setI w hart) = hart
  i_setIpi : ∀ w d, i (setIpi w d) = i w
  ipi_setI : ∀ w hart, ipi (setI w hart) = ipi w

section
variable {cfg : Config} {W : Type} [HasIpi W] (scan : Scan cfg W)

/-- The idle handler: the number of the hart is taken as that of a queue. -/
def Scan.idleHandler (accepts : Bool) (w : W) : Except Halt W := do
  let source := scan.i w
  let w ←
    if ((ipi w).queues source.num).count ≠ 0 then do
      let (w, _) ← ipiConsumeIntent cfg scan.registry.handler accepts .e51 source scan.msgType w
      pure w
    else pure w
  return scan.setI w source.next

/-- The request from the scanned hart that `IPI_ConsumeIntent` would take. -/
def Scan.request (w : W) : Option ℕ :=
  findIntent cfg (ipi w) (ipiCalculateQueueIndex (scan.i w) .e51) scan.msgType

/-- The call does more than to go on to the next hart: it passes a request to its handler. -/
def Scan.Consumes (accepts : Bool) (w : W) : Prop :=
  scan.idleHandler accepts w ≠ .ok (scan.setI w (scan.i w).next)

end

/-- A queue with another number of messages in its count. -/
def IpiData.setCount (index count : ℕ) (d : IpiData) : IpiData :=
  d.setQueue index { d.queues index with count }

/-- What a call should do: it is a U54's turn, a pending request of that hart is consumed, and the count
of no queue but that from the hart to the E51 matters. -/
structure Scan.PicksUp {cfg : Config} {W : Type} [HasIpi W] (scan : Scan cfg W) (accepts : Bool)
    (w : W) : Prop where
  turn : scan.i w ≠ .e51
  consumes : scan.request w ≠ none →
    ((ipi w).queues (ipiCalculateQueueIndex (scan.i w) .e51)).count ≠ 0 → scan.Consumes accepts w
  own : ∀ index count, index ≠ ipiCalculateQueueIndex (scan.i w) .e51 →
    (scan.Consumes accepts (onIpi (IpiData.setCount index count) w) ↔ scan.Consumes accepts w)

/-! ### The services -/

/-- The scan of `sgdma_idle_handler` -/
def sgdmaScan (cfg : Config) : Scan cfg Sgdma where
  registry := sgdmaRegistry cfg
  msgType := .scattergatherDma
  msgType_ne := by decide
  i := Sgdma.i
  setI s i := { s with i }
  i_setI _ _ := rfl
  i_setIpi _ _ := rfl
  ipi_setI _ _ := rfl

theorem sgdmaIdleHandler_eq (cfg : Config) (accepts : Bool) (s : Sgdma) :
    sgdmaIdleHandler cfg accepts s = (sgdmaScan cfg).idleHandler accepts s := rfl

/-- What the UART service works on. -/
structure Uart where
  ipiData : IpiData
  i : HartId

instance : HasIpi Uart where
  ipi s := s.ipiData
  setIpi s d := { s with ipiData := d }
  ipi_setIpi _ _ := rfl
  setIpi_ipi _ := rfl
  setIpi_setIpi _ _ _ := rfl

/-- `HSS_UartTx_IPIHandler` -/
def hssUartTxIpiHandler : IpiHandler Uart := fun _ _ _ _ _ s => .ok (s, .success)

/-- `HSS_UartPollRx_IPIHandler` -/
def hssUartPollRxIpiHandler : IpiHandler Uart := fun _ _ _ _ _ s => .ok (s, .success)

/-- The handlers of the monitor that concern the service. -/
def uartRegistry (cfg : Config) : IpiRegistry cfg Uart where
  handler
    | .uartTx => some hssUartTxIpiHandler
    | .uartPollRx => some hssUartPollRxIpiHandler
    | .ackPending => some (ipiAckIpiHandler cfg)
    | .ackComplete => some (ipiAckIpiHandler cfg)
    | _ => some hssNullIpiHandler
  total msgType := by cases msgType <;> rfl
  ackPending := rfl
  ackComplete := rfl

def uartScan (cfg : Config) : Scan cfg Uart where
  registry := uartRegistry cfg
  msgType := .uartTx
  msgType_ne := by decide
  i := Uart.i
  setI s i := { s with i }
  i_setI _ _ := rfl
  i_setIpi _ _ := rfl
  ipi_setI _ _ := rfl

/-- `uart_state1_handler` -/
def uartState1Handler (cfg : Config) (accepts : Bool) (s : Uart) : Except Halt Uart :=
  (uartScan cfg).idleHandler accepts s

/-! ### What a call does -/

/-- The number of a hart is never that of its queue to the E51. -/
theorem num_ne_queueIndex {hart : HartId} (u54 : hart ≠ .e51) :
    hart.num ≠ ipiCalculateQueueIndex hart .e51 := by
  cases hart with
  | e51 => exact absurd rfl u54
  | u54 hart => cases hart <;> decide

section
variable {cfg : Config} {W : Type} [HasIpi W] {scan : Scan cfg W} {accepts : Bool} {w v : W}

theorem Scan.idleHandler_none (empty : ((ipi w).queues (scan.i w).num).count = 0) :
    scan.idleHandler accepts w = .ok (scan.setI w (scan.i w).next) := by
  rw [idleHandler, if_neg (not_not_intro empty)]
  rfl

theorem Scan.idleHandler_some (counted : ((ipi w).queues (scan.i w).num).count ≠ 0) :
    scan.idleHandler accepts w =
      (ipiConsumeIntent cfg scan.registry.handler accepts .e51 (scan.i w) scan.msgType w).map
        fun found => scan.setI found.1 (scan.i w).next := by
  rw [idleHandler, if_pos counted]
  cases ipiConsumeIntent cfg scan.registry.handler accepts .e51 (scan.i w) scan.msgType w <;> rfl

theorem findIntent_slot {d : IpiData} {index j : ℕ} {msgType : MsgType}
    (found : findIntent cfg d index msgType = some j) : ((d.queues index).msgQ j).msgType = msgType := by
  have slot := (firstBelow_eq_some.mp found).2.1
  simpa using slot

theorem ipiConsumeIntent_none {msgType : MsgType} {source : HartId}
    (absent : findIntent cfg (ipi w) (ipiCalculateQueueIndex source .e51) msgType = none) :
    ipiConsumeIntent cfg scan.registry.handler accepts .e51 source msgType w = .ok (w, false) := by
  rw [ipiConsumeIntent]
  cases entry : scan.registry.handler msgType with
  | none => exact absurd (scan.registry.total msgType) (by simp [entry])
  | some handler => simp only [absent]

/-- A request is consumed just when the queue whose number is that of the hart has a count. -/
theorem Scan.consumes_iff :
    scan.Consumes accepts w ↔
      ((ipi w).queues (scan.i w).num).count ≠ 0 ∧ scan.request w ≠ none := by
  constructor
  · intro consumes
    constructor
    · intro empty
      exact consumes (idleHandler_none empty)
    · intro absent
      apply consumes
      by_cases empty : ((ipi w).queues (scan.i w).num).count = 0
      · exact idleHandler_none empty
      · rw [idleHandler_some empty, ipiConsumeIntent_none absent]
        rfl
  · rintro ⟨counted, pending⟩ same
    rw [idleHandler_some counted] at same
    cases done : ipiConsumeIntent cfg scan.registry.handler accepts .e51 (scan.i w) scan.msgType w with
    | error halt =>
      rw [done] at same
      cases same
    | ok found =>
      obtain ⟨w', intentFound⟩ := found
      rw [done] at same
      have ipi_same : ipi w' = ipi w := by
        have after := congrArg ipi (Except.ok.inj same)
        simpa [scan.ipi_setI] using after
      rcases ipiConsumeIntent_cases done with ⟨-, absent⟩ | ⟨j, handler, v, result, found, -, -, rfl⟩
      · exact pending absent
      · -- the slot of the request was cleared
        have before := findIntent_slot found
        rw [← ipi_same, ipi_onIpi, clearMsg, IpiData.setMsg_msgQ_self, Function.update_self] at before
        exact scan.msgType_ne before.symm

/-- Another count of a queue that is not the one from the hart leaves the request where it is. -/
theorem Scan.request_setCount {index : ℕ} (count : ℕ)
    (other : index ≠ ipiCalculateQueueIndex (scan.i w) .e51) :
    scan.request (onIpi (IpiData.setCount index count) w) = scan.request w := by
  have turn : scan.i (onIpi (IpiData.setCount index count) w) = scan.i w := scan.i_setIpi _ _
  simp only [request, turn, ipi_onIpi, findIntent, IpiData.setCount, IpiData.setQueue_queues,
    Function.update_of_ne other.symm]

/-- A call does what it should just when it is the turn of a U54 that has nothing to be picked up. -/
theorem Scan.picksUp_iff :
    scan.PicksUp accepts w ↔ scan.i w ≠ .e51 ∧ scan.request w = none := by
  constructor
  · intro picks
    refine ⟨picks.turn, ?_⟩
    by_contra pending
    have other := num_ne_queueIndex picks.turn
    -- with one count of the other queue the call consumes the request, with another it does not
    have consumes (count : ℕ) : scan.Consumes accepts w ↔ count ≠ 0 := by
      have turn : scan.i (onIpi (IpiData.setCount (scan.i w).num count) w) = scan.i w :=
        scan.i_setIpi _ _
      rw [← picks.own _ count other, consumes_iff, request_setCount count other, turn, ipi_onIpi,
        IpiData.setCount, IpiData.setQueue_queues, Function.update_self]
      simp [pending]
    exact (consumes 0).mp ((consumes 1).mpr Nat.one_ne_zero) rfl
  · rintro ⟨turn, absent⟩
    refine ⟨turn, fun pending => absurd absent pending, fun index count other => ?_⟩
    simp [consumes_iff, request_setCount count other, absent]

/-- A call that returns leaves the turn to the next hart. -/
theorem Scan.idleHandler_turn (done : scan.idleHandler accepts w = .ok v) :
    scan.i v = (scan.i w).next := by
  by_cases empty : ((ipi w).queues (scan.i w).num).count = 0
  · rw [idleHandler_none empty] at done
    cases done
    apply scan.i_setI
  · rw [idleHandler_some empty] at done
    cases consumed : ipiConsumeIntent cfg scan.registry.handler accepts .e51 (scan.i w) scan.msgType w with
    | error halt =>
      rw [consumed] at done
      cases done
    | ok found =>
      rw [consumed] at done
      cases done
      apply scan.i_setI

end

/-- Within five calls it is every hart's turn. -/
theorem exists_next_iterate : ∀ hart hart' : HartId, ∃ k < 5, HartId.next^[k] hart = hart' := by
  decide

/-- Both handlers do what they should in a call just when it is the turn of a U54 that has nothing to
be picked up; and after each call it is the next hart's turn, the E51's within five calls. -/
theorem idleHandlers_pickUp_iff (cfg : Config) (accepts : Bool) :
    ((∀ s, (sgdmaScan cfg).PicksUp accepts s ↔ s.i ≠ .e51 ∧ (sgdmaScan cfg).request s = none) ∧
      ∀ s s', sgdmaIdleHandler cfg accepts s = .ok s' → s'.i = s.i.next) ∧
    ((∀ s, (uartScan cfg).PicksUp accepts s ↔ s.i ≠ .e51 ∧ (uartScan cfg).request s = none) ∧
      ∀ s s', uartState1Handler cfg accepts s = .ok s' → s'.i = s.i.next) ∧
    ∀ hart, ∃ k < 5, HartId.next^[k] hart = .e51 := by
  refine ⟨⟨fun s => Scan.picksUp_iff, fun s s' done => ?_⟩,
    ⟨fun s => Scan.picksUp_iff, fun s s' done => ?_⟩, fun hart => exists_next_iterate hart .e51⟩
  · rw [sgdmaIdleHandler_eq] at done
    exact Scan.idleHandler_turn done
  · exact Scan.idleHandler_turn done

/-- A request from U54_1, counted in its queue, while there is none from the E51 to U54_2. -/
def uartPending : Uart where
  ipiData := ((ipiQueuesInit.setMsg 4 0 ⟨.uartTx, 1, 0, 0, 0⟩).setCount 4 1)
  i := .u54 .u54_1

/-- The call for U54_1 leaves it there. -/
theorem uartPending_left :
    ¬∀ (accepts : Bool) (s : Uart), (uartScan .icicleKitEs).PicksUp accepts s := by
  intro all
  have picks := all true uartPending
  have pending : (uartScan .icicleKitEs).request uartPending = some 0 := by decide
  have consumes := picks.consumes (by rw [pending]; exact Option.some_ne_none 0) (by decide)
  have empty : ((ipi uartPending).queues ((uartScan .icicleKitEs).i uartPending).num).count = 0 := by
    decide
  exact (Scan.consumes_iff.mp consumes).1 empty

end Hss
