import Hss.Ipi.AckRouting

/-! Which hart holds which completion slot: the hart that allocated it last, until it is freed. -/

namespace Hss

/-- The hart that a completion slot was last handed to, if it was not given back since. -/
def holder : List BusEvent → ℕ → Option HartId
  | [], _ => none
  | .alloc hart k :: history, index => if k = index then some hart else holder history index
  | .free _ k :: history, index => if k = index then none else holder history index
  | .sent .. :: history, index => holder history index
  | .handled .. :: history, index => holder history index

/-- The slots in use are those that a hart holds. -/
def Tracks (d : IpiData) : Prop :=
  ∀ k, (d.completes k).used = (holder d.history k).isSome

/-- Every slot that was given back was held by the hart that gave it back. -/
def FreesHeld : List BusEvent → Prop
  | [] => True
  | .free hart k :: history => holder history k = some hart ∧ FreesHeld history
  | .alloc .. :: history => FreesHeld history
  | .sent .. :: history => FreesHeld history
  | .handled .. :: history => FreesHeld history

/-- The same slots are in use, held by the same harts, and none was given back wrongly. -/
structure SameSlots (d d' : IpiData) : Prop where
  used : ∀ k, (d'.completes k).used = (d.completes k).used
  holder : ∀ k, holder d'.history k = holder d.history k
  frees : FreesHeld d.history → FreesHeld d'.history

variable {cfg : Config} {accepts : Bool} {hart me source target : HartId} {msg : OutboxMsg}
  {msgType : MsgType} {d d' : IpiData} {index k : ℕ}

theorem SameSlots.of_eq (completes : d'.completes = d.completes) (history : d'.history = d.history) :
    SameSlots d d' :=
  ⟨fun _ => by rw [completes], fun _ => by rw [history], by rw [history]; exact id⟩

theorem SameSlots.trans {e : IpiData} (h : SameSlots d d') (h' : SameSlots d' e) : SameSlots d e :=
  ⟨fun k => (h'.used k).trans (h.used k), fun k => (h'.holder k).trans (h.holder k),
    fun frees => h'.frees (h.frees frees)⟩

theorem SameSlots.tracks (same : SameSlots d d') (tracks : Tracks d) : Tracks d' := fun k => by
  rw [same.used, same.holder, tracks k]

theorem SameSlots.send : SameSlots d (ipiSend cfg accepts source target msg d).1 := by
  refine ⟨fun _ => by rw [ipiSend_completes], fun k => ?_, fun frees => ?_⟩
  · simp only [ipiSend]
    split <;> rfl
  · simp only [ipiSend]
    split <;> exact frees

theorem SameSlots.deliver {message : MsgType} {immediateArg : BitVec 32}
    {extendedBuffer ancilliaryBuffer : Word} {sent : Bool}
    (done : ipiMessageDeliver cfg accepts hart index target message immediateArg extendedBuffer
      ancilliaryBuffer d = .ok (d', sent)) : SameSlots d d' := by
  obtain ⟨-, done⟩ := ipiMessageDeliver_eq_ok.mp done
  have after : d' = _ := congrArg Prod.fst done
  rw [after]
  split
  · exact .send
  · exact .of_eq rfl rfl

theorem SameSlots.acknowledge (result : StatusCode) :
    SameSlots d (acknowledge cfg accepts source me msg result d) := by
  unfold Hss.acknowledge
  split
  case h_4 =>
    split
    · exact .of_eq rfl rfl
    · exact .send
  all_goals exact .of_eq rfl rfl

theorem SameSlots.poll (mask : BitVec 32) : SameSlots d (ipiPollReceive cfg me mask d).1 := by
  refine ipiPollReceive_induction (fun source e same => same.trans ?_) mask (.of_eq rfl rfl)
  simp only [pollQueue]
  split <;> exact .of_eq rfl rfl

theorem SameSlots.updateStatus {transactionId : TxId} {status : StatusCode} :
    SameSlots d (ipiMessageUpdateStatus cfg transactionId status d).1 := by
  refine ⟨fun k => ?_, fun k => by rw [ipiMessageUpdateStatus_history],
    fun frees => by rwa [ipiMessageUpdateStatus_history]⟩
  rw [ipiMessageUpdateStatus_completes]
  split
  · rfl
  · next index _ =>
    by_cases h : k = index
    · rw [h, Function.update_self]
    · rw [Function.update_of_ne h]

theorem SameSlots.take {j : ℕ} : SameSlots d (takeIntent source me j d) :=
  ⟨fun _ => rfl, fun _ => rfl, id⟩

/-- A handler neither allocates nor frees. -/
def KeepsSlots (handler : IpiHandler IpiData) : Prop :=
  ∀ {transactionId source immediateArg extendedBuffer ancilliaryBuffer d d' result},
    handler transactionId source immediateArg extendedBuffer ancilliaryBuffer d = .ok (d', result) →
    SameSlots d d'

theorem SameSlots.consume {registry : IpiRegistry cfg IpiData}
    (keeps : ∀ {msgType handler}, registry.handler msgType = some handler → KeepsSlots handler)
    {intentFound : Bool} (done : ipiConsumeIntent cfg registry.handler accepts me source msgType d =
      .ok (d', intentFound)) : SameSlots d d' := by
  rcases ipiConsumeIntent_cases done with ⟨rfl, -⟩ | ⟨j, handler, e, result, -, entry, handled, rfl⟩
  · exact .of_eq rfl rfl
  · refine SameSlots.take.trans ((keeps entry handled).trans ?_)
    exact .trans (.acknowledge ..) (.of_eq rfl rfl)

theorem bare_keepsSlots (msgType : MsgType) (handler : IpiHandler IpiData)
    (entry : (IpiRegistry.bare cfg IpiData).handler msgType = some handler) :
    KeepsSlots handler := by
  intro transactionId source immediateArg extendedBuffer ancilliaryBuffer d d' result done
  cases msgType
  case ackPending => cases entry; cases done; exact .updateStatus
  case ackComplete => cases entry; cases done; exact .updateStatus
  all_goals cases entry; cases done; exact .of_eq rfl rfl

/-! ### Handing out and giving back -/

theorem tracks_ipiQueuesInit : Tracks ipiQueuesInit := fun _ => rfl

theorem holder_alloc (taken : ipiMessageAlloc cfg hart d = (d', some index)) :
    holder d'.history k = if k = index then some hart else holder d.history k := by
  obtain ⟨-, -, rfl⟩ := ipiMessageAlloc_eq_some taken
  simp only [IpiData.record_history, IpiData.setComplete_history, holder, eq_comm]

theorem used_alloc (taken : ipiMessageAlloc cfg hart d = (d', some index)) :
    (d'.completes k).used = if k = index then true else (d.completes k).used := by
  obtain ⟨-, -, rfl⟩ := ipiMessageAlloc_eq_some taken
  simp only [IpiData.record_completes, IpiData.setComplete_completes, Function.update_apply]
  split <;> rfl

/-- A slot that is handed out can be delivered from. -/
theorem ipiMessageDeliver_of_alloc {accepts : Bool} {hart target : HartId} {message : MsgType}
    {immediateArg : BitVec 32} {extendedBuffer ancilliaryBuffer : Word} {d d' : IpiData} {index : ℕ}
    (taken : ipiMessageAlloc cfg hart d = (d', some index)) :
    ipiMessageDeliver cfg accepts hart index target message immediateArg extendedBuffer
        ancilliaryBuffer d' =
      .ok (ipiSend cfg accepts hart target ⟨message, d.myTransactionId hart, immediateArg,
        extendedBuffer, ancilliaryBuffer⟩ d') := by
  obtain ⟨bound, -, rfl⟩ := ipiMessageAlloc_eq_some taken
  rw [ipiMessageDeliver_eq_ok]
  refine ⟨bound, ?_⟩
  simp

theorem ipiSend_eq_true_iff (cfg : Config) (accepts : Bool) (source target : HartId)
    (msg : OutboxMsg) (d : IpiData) : (ipiSend cfg accepts source target msg d).2 = true ↔
      findAvailableSlot cfg d (ipiCalculateQueueIndex source target) ≠ none ∧
        raise cfg accepts = true := by
  simp only [ipiSend]
  split <;> simp [*]

theorem findAvailableSlot_alloc {hart : HartId} {d d' : IpiData} {index queue : ℕ}
    (taken : ipiMessageAlloc cfg hart d = (d', some index)) :
    findAvailableSlot cfg d' queue = findAvailableSlot cfg d queue := by
  obtain ⟨-, -, rfl⟩ := ipiMessageAlloc_eq_some taken
  rfl

theorem holder_free (freed : ipiMessageFree hart index d = .ok d') :
    holder d'.history k = if k = index then none else holder d.history k := by
  obtain ⟨-, rfl⟩ := ipiMessageFree_eq_ok.mp freed
  simp only [IpiData.record_history, IpiData.setComplete_history, holder, eq_comm]

theorem used_free (freed : ipiMessageFree hart index d = .ok d') :
    (d'.completes k).used = if k = index then false else (d.completes k).used := by
  obtain ⟨-, rfl⟩ := ipiMessageFree_eq_ok.mp freed
  simp only [IpiData.record_completes, IpiData.setComplete_completes, Function.update_apply]
  split <;> rfl

theorem frees_alloc (frees : FreesHeld d.history)
    (taken : ipiMessageAlloc cfg hart d = (d', some index)) : FreesHeld d'.history := by
  obtain ⟨-, -, rfl⟩ := ipiMessageAlloc_eq_some taken
  exact frees

theorem frees_free (frees : FreesHeld d.history) (held : holder d.history index = some hart)
    (freed : ipiMessageFree hart index d = .ok d') : FreesHeld d'.history := by
  obtain ⟨-, rfl⟩ := ipiMessageFree_eq_ok.mp freed
  exact ⟨held, frees⟩

theorem Tracks.alloc (tracks : Tracks d) (cfg : Config) (hart : HartId) :
    Tracks (ipiMessageAlloc cfg hart d).1 := by
  rcases taken : ipiMessageAlloc cfg hart d with ⟨d', _ | index⟩
  · obtain ⟨rfl, -⟩ := ipiMessageAlloc_eq_none taken
    exact tracks
  · intro k
    rw [used_alloc taken, holder_alloc taken, tracks k]
    split <;> rfl

theorem Tracks.free (tracks : Tracks d) (freed : ipiMessageFree hart index d = .ok d') :
    Tracks d' := by
  intro k
  rw [used_free freed, holder_free freed, tracks k]
  split <;> rfl

end Hss
