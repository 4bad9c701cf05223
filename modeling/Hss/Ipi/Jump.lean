import Hss.Ipi.Send

/-! The two handlers that do not return: they acknowledge their request, look for its slot by its
transaction id, clear it and leave for the code that they were asked to run. -/

namespace Hss

open SlotTable

/-- How the call of such a handler ends. -/
inductive HandlerEnd
  | returned (result : StatusCode)
  /-- An assertion failed. -/
  | stopped
  /-- The hart is at `entry`, with `mode` for its privilege and `arg1` in its second register. -/
  | jumped (entry : Word) (mode : BitVec 32) (arg1 : Word)
  deriving DecidableEq, Repr

/-- A call of a handler: how it ended, the slots of the queue that it read, and the bus it left. -/
structure HandlerCall where
  bus : IpiData
  ended : HandlerEnd
  slots : List ℕ

/-- The slot that `pMsg` points to after the loop: the first with the transaction id, or the one past
the queue, which `msgQ` shows at `cfg.maxNumQueueMessages`. -/
def searchSlot (cfg : Config) (d : IpiData) (index : ℕ) (transactionId : TxId) : ℕ :=
  (firstBelow cfg.maxNumQueueMessages fun j =>
    ((d.queues index).msgQ j).transactionId = transactionId).getD cfg.maxNumQueueMessages

/-- What both handlers do to the bus once the request is permitted, and whether they found a slot to
clear.  `pMsg` is read again after the loop. -/
def ackAndClear (cfg : Config) (accepts : Bool) (me source : HartId) (transactionId : TxId)
    (leave : HandlerEnd) (d : IpiData) : HandlerCall :=
  let index := ipiCalculateQueueIndex source me
  let d := (ipiSend cfg accepts me source
    ⟨.ackComplete, transactionId, StatusCode.success.num, 0, 0⟩ d).1
  let d := (ipiMessageUpdateStatus cfg transactionId .idle d).1
  let slot := searchSlot cfg d index transactionId
  if ((d.queues index).msgQ slot).transactionId = transactionId then
    ⟨clearMsg index slot d, leave, List.range (slot + 1)⟩
  else ⟨d, .returned .fail, List.range (slot + 1)⟩

/-- `HSS_OpenSBI_IPIHandler`, called on `me`: the device tree is the one of the boot image, else the
one that is linked in. -/
def hssOpensbiIpiHandler (cfg : Config) (accepts : Bool) (me : HartId) (transactionId : TxId)
    (source : HartId) (immediateArg : BitVec 32) (extendedBuffer ancilliaryBuffer : Word)
    (d : IpiData) : HandlerCall :=
  if source ≠ .e51 then ⟨d, .returned .fail, []⟩
  else if me = .e51 then ⟨d, .returned .fail, []⟩
  else
    let arg1 := if ancilliaryBuffer ≠ 0 then ancilliaryBuffer else cfg.provideDtb.getD 0
    ackAndClear cfg accepts me source transactionId (.jumped extendedBuffer immediateArg arg1) d

/-- `HSS_GOTO_IPIHandler`, called on `me`, in a build with OpenSBI. -/
def hssGotoIpiHandler (cfg : Config) (accepts : Bool) (me : HartId) (transactionId : TxId)
    (source : HartId) (immediateArg : BitVec 32) (extendedBuffer : Word) (d : IpiData) :
    HandlerCall :=
  if source ≠ .e51 then ⟨d, .returned .fail, []⟩
  else if me = .e51 then ⟨d, .returned .fail, []⟩
  else if extendedBuffer = 0 then ⟨d, .stopped, []⟩
  else ackAndClear cfg accepts me source transactionId (.jumped extendedBuffer immediateArg 0) d

/-- The call ended with a jump. -/
def HandlerCall.Jumps (call : HandlerCall) : Prop :=
  ∃ entry mode arg1, call.ended = .jumped entry mode arg1

/-- Of the messages that were in the queues, the one in a slot is cleared and no other is touched. -/
structure ClearsOnly (index j : ℕ) (d d' : IpiData) : Prop where
  slot : (d'.queues index).msgQ =
    Function.update (d.queues index).msgQ j ((d.queues index).msgQ j).cleared
  others : ∀ index' ≠ index, ∀ k, ((d.queues index').msgQ k).msgType ≠ .noMessage →
    (d'.queues index').msgQ k = (d.queues index').msgQ k

/-- If the handler jumps away, it has cleared the slot `j` alone and has read slots of the queue
only. -/
def ClearsOwn (cfg : Config) (index j : ℕ) (d : IpiData) (call : HandlerCall) : Prop :=
  call.Jumps → ClearsOnly index j d call.bus ∧ ∀ k ∈ call.slots, k < cfg.maxNumQueueMessages

variable {cfg : Config} {accepts : Bool} {me source : HartId} {transactionId : TxId} {d d' : IpiData}
  {index j k : ℕ}

theorem ipiSend_keeps_messages (target : HartId) (msg : OutboxMsg)
    (live : ((d.queues index).msgQ k).msgType ≠ .noMessage) :
    (((ipiSend cfg accepts me target msg d).1).queues index).msgQ k = (d.queues index).msgQ k := by
  by_cases own : index = ipiCalculateQueueIndex me target
  · subst own
    cases slot : findAvailableSlot cfg d (ipiCalculateQueueIndex me target) with
    | none => rw [ipiSend_of_full slot]
    | some j =>
      obtain ⟨-, free, -⟩ := firstBelow_eq_some.mp slot
      have other : k ≠ j := fun same => live (same ▸ of_decide_eq_true free)
      rw [ipiSend_of_slot slot]
      simp only [IpiData.record_queues, IpiData.setMsg_msgQ_self, Function.update_of_ne other]
  · rw [ipiSend_queues_of_ne _ _ _ _ _ _ own]

/-- The queue of the request as the search finds it. -/
theorem acked_queues (cfg : Config) (accepts : Bool) (transactionId : TxId) (d : IpiData)
    (other : source ≠ me) (ack : OutboxMsg) (status : StatusCode) :
    (ipiMessageUpdateStatus cfg transactionId status
        (ipiSend cfg accepts me source ack d).1).1.queues (ipiCalculateQueueIndex source me) =
      d.queues (ipiCalculateQueueIndex source me) := by
  rw [ipiMessageUpdateStatus_queues, ipiSend_queues_of_ne]
  exact fun same => other (ipiCalculateQueueIndex_injective other other.symm same).1

theorem searchSlot_congr (same : d'.queues index = d.queues index) :
    searchSlot cfg d' index transactionId = searchSlot cfg d index transactionId := by
  rw [searchSlot, searchSlot, same]

/-- Where a slot of the queue carries the transaction id, the search stops at the first. -/
theorem searchSlot_carries (bound : j < cfg.maxNumQueueMessages)
    (carries : ((d.queues index).msgQ j).transactionId = transactionId) :
    searchSlot cfg d index transactionId ≤ j ∧
      ((d.queues index).msgQ (searchSlot cfg d index transactionId)).transactionId = transactionId := by
  have found : (firstBelow cfg.maxNumQueueMessages fun j =>
      ((d.queues index).msgQ j).transactionId = transactionId).isSome = true :=
    firstBelow_isSome.mpr ⟨j, bound, decide_eq_true carries⟩
  obtain ⟨k, first⟩ := Option.isSome_iff_exists.mp found
  obtain ⟨-, hit, before⟩ := firstBelow_eq_some.mp first
  rw [searchSlot, first, Option.getD_some]
  refine ⟨?_, of_decide_eq_true hit⟩
  by_contra past
  exact absurd carries (of_decide_eq_false (before j (by omega)))

theorem searchSlot_eq_iff (bound : j < cfg.maxNumQueueMessages)
    (carries : ((d.queues index).msgQ j).transactionId = transactionId) :
    searchSlot cfg d index transactionId = j ↔
      ∀ k < j, ((d.queues index).msgQ k).transactionId ≠ transactionId := by
  obtain ⟨low, hit⟩ := searchSlot_carries bound carries
  constructor
  · rintro rfl k before same
    have within : k < cfg.maxNumQueueMessages := before.trans bound
    exact absurd (searchSlot_carries within same).1 (Nat.not_le.mpr before)
  · intro first
    by_contra earlier
    exact first _ (by omega) hit

theorem update_cleared_eq_iff {msgQ : ℕ → OutboxMsg} (live : (msgQ j).msgType ≠ .noMessage) :
    Function.update msgQ k (msgQ k).cleared = Function.update msgQ j (msgQ j).cleared ↔ k = j := by
  constructor
  · intro same
    by_contra other
    have left := congrFun same j
    rw [Function.update_self, Function.update_of_ne (Ne.symm other)] at left
    exact live (congrArg OutboxMsg.msgType left)
  · rintro rfl
    rfl

/-- What `ackAndClear` does for a message in slot `j`: it jumps, and it has cleared that slot if and
only if no slot before it carries the same id. -/
theorem ackAndClear_clearsOwn_iff (entry arg1 : Word) (mode : BitVec 32) (other : source ≠ me)
    (bound : j < cfg.maxNumQueueMessages)
    (live : ((d.queues (ipiCalculateQueueIndex source me)).msgQ j).msgType ≠ .noMessage)
    (carries : ((d.queues (ipiCalculateQueueIndex source me)).msgQ j).transactionId = transactionId) :
    ClearsOwn cfg (ipiCalculateQueueIndex source me) j d
        (ackAndClear cfg accepts me source transactionId (.jumped entry mode arg1) d) ↔
      ∀ k < j, ((d.queues (ipiCalculateQueueIndex source me)).msgQ k).transactionId ≠
        transactionId := by
  have queues := acked_queues cfg accepts transactionId d other
    ⟨.ackComplete, transactionId, StatusCode.success.num, 0, 0⟩ .idle
  obtain ⟨low, hit⟩ := searchSlot_carries bound carries
  rw [← searchSlot_eq_iff bound carries]
  simp only [ackAndClear, searchSlot_congr queues, queues, hit, if_true, ClearsOwn]
  constructor
  · intro own
    have cleared := (own ⟨entry, mode, arg1, rfl⟩).1.slot
    rw [clearMsg, IpiData.setMsg_msgQ_self, queues] at cleared
    exact (update_cleared_eq_iff live).mp cleared
  · rintro same -
    refine ⟨⟨?_, fun index' apart k message => ?_⟩, fun k within => ?_⟩
    · rw [clearMsg, IpiData.setMsg_msgQ_self, queues, same]
    · rw [clearMsg_queues_of_ne apart, ipiMessageUpdateStatus_queues]
      exact ipiSend_keeps_messages source _ message
    · have := List.mem_range.mp within
      omega

theorem clearsOwn_of_ended {call : HandlerCall} (ended : ¬ call.Jumps) :
    ClearsOwn cfg index j d call := fun jumps => absurd jumps ended

theorem not_jumps_returned {bus : IpiData} {result : StatusCode} {slots : List ℕ} :
    ¬ HandlerCall.Jumps ⟨bus, .returned result, slots⟩ := by
  rintro ⟨entry, mode, arg1, same⟩
  cases same

theorem not_jumps_stopped {bus : IpiData} {slots : List ℕ} :
    ¬ HandlerCall.Jumps ⟨bus, .stopped, slots⟩ := by
  rintro ⟨entry, mode, arg1, same⟩
  cases same

/-- Called for the message in a slot, each of the two handlers clears that slot alone and stays in
the queue exactly when, if the request is permitted, no slot before it carries the same transaction
id, be it of another message or left over from one that was consumed. -/
theorem jumpHandlers_clearOwn_iff (accepts : Bool) (me source : HartId) (immediateArg : BitVec 32)
    (extendedBuffer ancilliaryBuffer : Word) (bound : j < cfg.maxNumQueueMessages)
    (live : ((d.queues (ipiCalculateQueueIndex source me)).msgQ j).msgType ≠ .noMessage)
    (carries : ((d.queues (ipiCalculateQueueIndex source me)).msgQ j).transactionId = transactionId) :
    (ClearsOwn cfg (ipiCalculateQueueIndex source me) j d
        (hssOpensbiIpiHandler cfg accepts me transactionId source immediateArg extendedBuffer
          ancilliaryBuffer d) ↔
      (source = .e51 → me ≠ .e51 → ∀ k < j,
        ((d.queues (ipiCalculateQueueIndex source me)).msgQ k).transactionId ≠ transactionId)) ∧
    (ClearsOwn cfg (ipiCalculateQueueIndex source me) j d
        (hssGotoIpiHandler cfg accepts me transactionId source immediateArg extendedBuffer d) ↔
      (source = .e51 → me ≠ .e51 → extendedBuffer ≠ 0 → ∀ k < j,
        ((d.queues (ipiCalculateQueueIndex source me)).msgQ k).transactionId ≠ transactionId)) := by
  unfold hssOpensbiIpiHandler hssGotoIpiHandler
  by_cases monitor : source = .e51
  · by_cases self : me = .e51
    · simp only [monitor, self, ne_eq, not_true_eq_false, if_false, if_true]
      exact ⟨iff_of_true (clearsOwn_of_ended not_jumps_returned) fun _ no => no.elim,
        iff_of_true (clearsOwn_of_ended not_jumps_returned) fun _ no => no.elim⟩
    · have other : source ≠ me := fun same => self (same ▸ monitor)
      rw [if_neg (not_not.mpr monitor), if_neg self, if_neg (not_not.mpr monitor), if_neg self]
      constructor
      · rw [ackAndClear_clearsOwn_iff _ _ _ other bound live carries]
        exact ⟨fun first _ _ => first, fun first => first monitor self⟩
      · by_cases null : extendedBuffer = 0
        · rw [if_pos null]
          exact iff_of_true (clearsOwn_of_ended not_jumps_stopped) fun _ _ some => absurd null some
        · rw [if_neg null, ackAndClear_clearsOwn_iff _ _ _ other bound live carries]
          exact ⟨fun first _ _ _ => first, fun first => first monitor self null⟩
  · rw [if_pos monitor, if_pos monitor]
    exact ⟨iff_of_true (clearsOwn_of_ended not_jumps_returned) fun no => absurd no monitor,
      iff_of_true (clearsOwn_of_ended not_jumps_returned) fun no => absurd no monitor⟩

/-- The monitor has sent the last application hart a request to scrub and then one to restart, both
as transaction 0. -/
def scrubThenGoto : IpiData :=
  (ipiSend .icicleKitEs true .e51 (.u54 .u54_4) ⟨.goto, 0, 3, 0x0A000000, 0⟩
    (ipiSend .icicleKitEs true .e51 (.u54 .u54_4) ⟨.scrub, 0, 0, 0, 0⟩ ipiQueuesInit).1).1

/-- The request to restart alone. -/
def gotoAlone : IpiData :=
  (ipiSend .icicleKitEs true .e51 (.u54 .u54_4) ⟨.goto, 0, 3, 0x0A000000, 0⟩ ipiQueuesInit).1

theorem jumpHandlers_clearOwn_iff_alone :
    ClearsOwn .icicleKitEs (ipiCalculateQueueIndex .e51 (.u54 .u54_4)) 0 gotoAlone
      (hssGotoIpiHandler .icicleKitEs true (.u54 .u54_4) 0 .e51 3 0x0A000000 gotoAlone) := by
  have bound : 0 < Config.icicleKitEs.maxNumQueueMessages := by decide
  have live : ((gotoAlone.queues (ipiCalculateQueueIndex .e51 (.u54 .u54_4))).msgQ 0).msgType ≠
      .noMessage := by decide
  have carries : ((gotoAlone.queues (ipiCalculateQueueIndex .e51 (.u54 .u54_4))).msgQ
      0).transactionId = 0 := by decide
  exact (jumpHandlers_clearOwn_iff true (.u54 .u54_4) .e51 3 0x0A000000 0 bound live carries).2.mpr
    fun _ _ _ k before => absurd before (Nat.not_lt_zero k)

/-- Called for the request to restart in slot 1, the handler clears the request to scrub in slot 0,
which has the same id, and leaves its own. -/
theorem hssGoto_clears_scrub :
    let index := ipiCalculateQueueIndex .e51 (.u54 .u54_4)
    let call := hssGotoIpiHandler .icicleKitEs true (.u54 .u54_4) 0 .e51 3 0x0A000000 scrubThenGoto
    findIntent .icicleKitEs scrubThenGoto index .goto = some 1 ∧
      call.ended = .jumped 0x0A000000 3 0 ∧
      ((call.bus.queues index).msgQ 0).msgType = .noMessage ∧
      ((call.bus.queues index).msgQ 1).msgType = .goto ∧
      ¬ ClearsOwn .icicleKitEs index 1 scrubThenGoto call := by
  refine ⟨by decide, by decide, by decide, by decide, fun own => ?_⟩
  have cleared := congrFun (own ⟨0x0A000000, 3, 0, by decide⟩).1.slot 0
  exact absurd cleared (by decide)

end Hss
