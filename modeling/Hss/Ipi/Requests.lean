import Hss.Lib.Runs
import Hss.Ipi.Slots

/-! Requests of the application harts to the monitor: the environment calls that allocate a completion
slot, and what becomes of the slots. -/

namespace Hss

open SlotTable Runs

/-- The functions of the vendor extension. -/
inductive EcallFunc
  | ihcCtxInit | ihcSend | ihcReceive | rprocState | rprocStart | rprocStop | hssReboot | unknown
  deriving DecidableEq, Repr

/-- An environment call, with what it reads that is not on the bus: `index` is what the uninitialised
local of that name holds, `contextHart` the lowest hart of the context that the channel names,
`rprocData` the address of the record of the request, `ihcFailed` and `ihcResult` the answers of the
inter-hart block to a shutdown message and to its own functions. -/
structure Ecall where
  hart : U54
  funcid : EcallFunc
  a0 : Word
  index : ℕ
  contextHart : ℕ
  rprocData : Word
  skipBoot : Bool
  ihcFailed : Bool
  ihcResult : ℤ
  accepts : Bool

/-- A call of `IPI_MessageDeliver` or `IPI_MessageFree` by an environment call, with what its
`IPI_MessageAlloc` returned. -/
inductive SlotCall
  | deliver (index : ℕ) (allocated : Option ℕ)
  | free (index : ℕ) (allocated : Option ℕ)

/-- The call is made with the index that was allocated. -/
def SlotCall.Proper : SlotCall → Prop
  | .deliver index allocated => allocated = some index
  | .free index allocated => allocated = some index

/-- The bus, the target of the last request to start a remote processor, the harts that an assertion
stopped, and the record of the calls on slots. -/
structure Requests where
  ipi : IpiData
  rprocTarget : ℕ
  outVal : U54 → ℕ
  stopped : U54 → Bool
  calls : List SlotCall

namespace Requests

def stop (s : Requests) (hart : U54) : Requests :=
  { s with stopped := Function.update s.stopped hart true }

def call (s : Requests) (slotCall : SlotCall) : Requests :=
  { s with calls := slotCall :: s.calls }

end Requests

/-- `SBI_OK`, `SBI_ERR_FAILED`, `SBI_ENOTSUPP` and `SBI_EINVAL` -/
def sbiOk : ℤ := 0
def sbiErrFailed : ℤ := -1
def sbiENotSupp : ℤ := -2
def sbiEInval : ℤ := -3

/-- The reboot function of `HSS_SBI_ECALL_Handler`: the result of the allocation is not looked at. -/
def sbiEcallReboot (cfg : Config) (e : Ecall) (s : Requests) : Requests × ℤ :=
  let (d, allocated) := ipiMessageAlloc cfg (.u54 e.hart) s.ipi
  let index := allocated.getD e.index
  let s := { s with ipi := d }.call (.deliver index allocated)
  match ipiMessageDeliver cfg e.accepts (.u54 e.hart) index .e51 .bootRequest 0 0 0 d with
  | .error _ => (s.stop e.hart, sbiOk)
  | .ok (d, _) => ({ s with ipi := d }, sbiOk)

/-- The start function of `sbi_ecall_rproc_handler`: the slot is given back if the message could not
be sent. -/
def sbiEcallRprocStart (cfg : Config) (e : Ecall) (s : Requests) : Requests × ℤ :=
  let s := { s with rprocTarget := e.contextHart }
  match ipiMessageAlloc cfg (.u54 e.hart) s.ipi with
  | (d, none) => ({ s with ipi := d }, sbiErrFailed)
  | (d, some index) =>
    let s := { s with ipi := d }.call (.deliver index (some index))
    match ipiMessageDeliver cfg e.accepts (.u54 e.hart) index .e51 .bootRequest rprocBoot
        e.rprocData 0 d with
    | .error _ => (s.stop e.hart, sbiErrFailed)
    | .ok (d, true) => ({ s with ipi := d }, sbiOk)
    | .ok (d, false) =>
      let s := { s with ipi := d }.call (.free index (some index))
      match ipiMessageFree (.u54 e.hart) index d with
      | .error _ => (s.stop e.hart, sbiErrFailed)
      | .ok d => ({ s with ipi := d }, sbiErrFailed)

/-- `IHC_CHANNEL_TO_CONTEXTA` to `IHC_CHANNEL_TO_CONTEXTB` -/
def rprocChannel (a0 : Word) : Bool := 5 ≤ a0.toNat % 256 ∧ a0.toNat % 256 ≤ 6

/-- `sbi_ecall_rproc_handler` -/
def sbiEcallRprocHandler (cfg : Config) (e : Ecall) (s : Requests) : Requests × ℤ :=
  if rprocChannel e.a0 then
    match e.funcid with
    | .rprocState =>
      ({ s with outVal := Function.update s.outVal e.hart (if e.skipBoot then 0 else 1) }, sbiOk)
    | .rprocStart => sbiEcallRprocStart cfg e s
    | .rprocStop => (s, if e.ihcFailed then sbiErrFailed else sbiOk)
    | _ => (s, sbiENotSupp)
  else (s, sbiEInval)

/-- `HSS_SBI_ECALL_Handler`, of a build without the crypto and telemetry functions -/
def hssSbiEcallHandler (cfg : Config) (e : Ecall) (s : Requests) : Requests × ℤ :=
  match e.funcid with
  | .ihcCtxInit => (s, e.ihcResult)
  | .ihcSend => (s, e.ihcResult)
  | .ihcReceive => (s, e.ihcResult)
  | .rprocState | .rprocStart | .rprocStop =>
    if cfg.serviceOpensbiRproc then sbiEcallRprocHandler cfg e s else (s, sbiOk)
  | .hssReboot => sbiEcallReboot cfg e s
  | .unknown => (s, sbiENotSupp)

/-! ### Runs -/

/-- What happens: an application hart makes an environment call, or a hart calls the bus. -/
inductive RequestEvent
  | ecall (e : Ecall)
  | bus (call : BusCall)

/-- The other calls on the bus: only the monitor allocates and frees, and it frees what it holds. -/
def BusCall.OtherThanEcall (d : IpiData) : BusCall → Prop
  | .alloc hart => hart = .e51
  | .free hart index => hart = .e51 ∧ holder d.history index = some .e51
  | _ => True

def requestStep (cfg : Config) (registry : HartId → IpiRegistry cfg IpiData) (s : Requests) :
    RequestEvent → Requests → Prop
  | .ecall e, t => s.stopped e.hart = false ∧ t = (hssSbiEcallHandler cfg e s).1
  | .bus call, t => call.OtherThanEcall s.ipi ∧
      ∃ d, busNext cfg registry s.ipi call = .ok d ∧ t = { s with ipi := d }

/-- A request to start a remote processor is not sent: no slot is free, the queue is full, or the
transport refuses. -/
def NotSent (cfg : Config) (e : Ecall) (s : Requests) : Prop :=
  (∀ k < cfg.maxNumOutstandingCompletes, (s.ipi.completes k).used = true) ∨
    findAvailableSlot cfg s.ipi (ipiCalculateQueueIndex (.u54 e.hart) .e51) = none ∨
    raise cfg e.accepts = false

/-- The call asks to start a remote processor. -/
def StartsRproc (cfg : Config) (e : Ecall) : Prop :=
  e.funcid = .rprocStart ∧ cfg.serviceOpensbiRproc = true ∧ rprocChannel e.a0 = true

/-- The events after which no slot stays allocated: no reboot, and no start of a remote processor
that is sent. -/
def RequestCond (cfg : Config) (s : Requests) : RequestEvent → Prop
  | .ecall e => e.funcid ≠ .hssReboot ∧ (StartsRproc cfg e → NotSent cfg e s)
  | .bus _ => True

/-- The slots that environment calls allocated are free again, and their calls on slots were made
with the indices that were allocated. -/
structure Released (s : Requests) : Prop where
  free : ∀ k u, holder s.ipi.history k = some (.u54 u) → (s.ipi.completes k).used = false
  proper : ∀ slotCall ∈ s.calls, slotCall.Proper

/-- The state before the first request. -/
def requestsInit : Requests :=
  ⟨ipiQueuesInit, 0, fun _ => 0, fun _ => false, []⟩

variable {cfg : Config} {registry : HartId → IpiRegistry cfg IpiData} {e : Ecall} {s t : Requests}
  {event : RequestEvent}

/-! ### What an environment call does to the slots -/

theorem sbiEcallReboot_cases (cfg : Config) (e : Ecall) (s : Requests) :
    let t := (sbiEcallReboot cfg e s).1
    (SameSlots s.ipi t.ipi ∧ t.calls = .deliver e.index none :: s.calls) ∨
      ∃ index d, ipiMessageAlloc cfg (.u54 e.hart) s.ipi = (d, some index) ∧
        SameSlots d t.ipi ∧ t.calls = .deliver index (some index) :: s.calls := by
  simp only [sbiEcallReboot]
  rcases taken : ipiMessageAlloc cfg (.u54 e.hart) s.ipi with ⟨d, _ | index⟩
  · obtain ⟨rfl, -⟩ := ipiMessageAlloc_eq_none taken
    left
    simp only [Option.getD_none]
    split
    · exact ⟨.of_eq rfl rfl, rfl⟩
    · next d' sent done => exact ⟨.deliver done, rfl⟩
  · right
    refine ⟨index, d, rfl, ?_⟩
    simp only [Option.getD_some]
    split
    · exact ⟨.of_eq rfl rfl, rfl⟩
    · next d' sent done => exact ⟨.deliver done, rfl⟩

/-- Asking to start a remote processor: nothing, a slot that stays allocated, or a slot that is given
back. -/
theorem sbiEcallRprocStart_cases (cfg : Config) (e : Ecall) (s : Requests) :
    let t := (sbiEcallRprocStart cfg e s).1
    (NotSent cfg e s ∧ t.ipi = s.ipi ∧ t.calls = s.calls) ∨
      ∃ index d d', ipiMessageAlloc cfg (.u54 e.hart) s.ipi = (d, some index) ∧ SameSlots d d' ∧
        ((¬ NotSent cfg e s ∧ t.ipi = d' ∧ t.calls = .deliver index (some index) :: s.calls) ∨
          (NotSent cfg e s ∧ ipiMessageFree (.u54 e.hart) index d' = .ok t.ipi ∧
            t.calls = .free index (some index) :: .deliver index (some index) :: s.calls)) := by
  simp only [sbiEcallRprocStart]
  rcases taken : ipiMessageAlloc cfg (.u54 e.hart) s.ipi with ⟨d, _ | index⟩
  · obtain ⟨rfl, full⟩ := ipiMessageAlloc_eq_none taken
    exact .inl ⟨.inl full, rfl, rfl⟩
  · right
    obtain ⟨bound, free, -⟩ := ipiMessageAlloc_eq_some taken
    simp only [ipiMessageDeliver_of_alloc taken]
    have same : SameSlots d (ipiSend cfg e.accepts (.u54 e.hart) .e51 ⟨.bootRequest,
        s.ipi.myTransactionId (.u54 e.hart), rprocBoot, e.rprocData, 0⟩ d).1 := .send
    have sent_iff := ipiSend_eq_true_iff cfg e.accepts (.u54 e.hart) .e51 ⟨.bootRequest,
      s.ipi.myTransactionId (.u54 e.hart), rprocBoot, e.rprocData, 0⟩ d
    rw [findAvailableSlot_alloc taken] at sent_iff
    rcases delivered : ipiSend cfg e.accepts (.u54 e.hart) .e51 ⟨.bootRequest,
      s.ipi.myTransactionId (.u54 e.hart), rprocBoot, e.rprocData, 0⟩ d with ⟨d', sent⟩
    rw [delivered] at same sent_iff
    refine ⟨index, d, d', rfl, same, ?_⟩
    cases sent with
    | true =>
      obtain ⟨room, accepted⟩ := sent_iff.mp rfl
      refine .inl ⟨?_, rfl, rfl⟩
      rintro (full | noRoom | refused)
      · rw [full index bound] at free
        cases free
      · exact room noRoom
      · rw [accepted] at refused
        cases refused
    | false =>
      have used : (d'.completes index).used = true := by
        rw [same.used, used_alloc taken, if_pos rfl]
      have notSent : NotSent cfg e s := by
        by_contra sends
        rw [NotSent, not_or, not_or, Bool.not_eq_false] at sends
        exact absurd (sent_iff.mpr sends.2) (by simp)
      have freed : ipiMessageFree (.u54 e.hart) index d' = .ok _ :=
        ipiMessageFree_eq_ok.mpr ⟨used, rfl⟩
      refine .inr ⟨notSent, ?_⟩
      simp only [freed]
      exact ⟨trivial, rfl⟩

/-- An environment call that neither reboots nor starts a remote processor leaves the bus and the
record of calls alone. -/
theorem hssSbiEcallHandler_other (reboots : e.funcid ≠ .hssReboot) (starts : ¬ StartsRproc cfg e) :
    (hssSbiEcallHandler cfg e s).1.ipi = s.ipi ∧
      (hssSbiEcallHandler cfg e s).1.calls = s.calls := by
  cases func : e.funcid
  case hssReboot => exact absurd func reboots
  case rprocStart =>
    simp only [hssSbiEcallHandler, func, sbiEcallRprocHandler]
    split
    · split
      · next config channel => exact absurd ⟨func, config, channel⟩ starts
      · exact ⟨rfl, rfl⟩
    · exact ⟨rfl, rfl⟩
  case rprocState | rprocStop =>
    simp only [hssSbiEcallHandler, func, sbiEcallRprocHandler]
    split
    · split <;> exact ⟨rfl, rfl⟩
    · exact ⟨rfl, rfl⟩
  all_goals simp only [hssSbiEcallHandler, func, and_self]

theorem hssSbiEcallHandler_reboot (reboots : e.funcid = .hssReboot) :
    hssSbiEcallHandler cfg e s = sbiEcallReboot cfg e s := by
  simp only [hssSbiEcallHandler, reboots]

theorem hssSbiEcallHandler_start (starts : StartsRproc cfg e) :
    hssSbiEcallHandler cfg e s = sbiEcallRprocStart cfg e s := by
  obtain ⟨func, config, channel⟩ := starts
  simp only [hssSbiEcallHandler, func, config, sbiEcallRprocHandler, channel, if_true]

/-! ### Slots that stay allocated -/

/-- The slots that an environment call holds stay so. -/
def KeepsHeld (d d' : IpiData) : Prop :=
  ∀ k u, holder d.history k = some (.u54 u) → (d.completes k).used = true →
    holder d'.history k = some (.u54 u) ∧ (d'.completes k).used = true

theorem KeepsHeld.trans {a b c : IpiData} (h : KeepsHeld a b) (h' : KeepsHeld b c) :
    KeepsHeld a c := fun k u held used =>
  have next := h k u held used
  h' k u next.1 next.2

theorem SameSlots.keepsHeld {d d' : IpiData} (same : SameSlots d d') : KeepsHeld d d' :=
  fun k u held used => ⟨by rw [same.holder, held], by rw [same.used, used]⟩

theorem KeepsHeld.alloc {hart : HartId} {d : IpiData} :
    KeepsHeld d (ipiMessageAlloc cfg hart d).1 := by
  intro k u held used
  rcases taken : ipiMessageAlloc cfg hart d with ⟨d', _ | index⟩
  · obtain ⟨rfl, -⟩ := ipiMessageAlloc_eq_none taken
    exact ⟨held, used⟩
  · obtain ⟨-, free, -⟩ := ipiMessageAlloc_eq_some taken
    have ne : k ≠ index := by
      rintro rfl
      rw [used] at free
      cases free
    rw [holder_alloc taken, used_alloc taken, if_neg ne, if_neg ne]
    exact ⟨held, used⟩

/-- Freeing a slot that no environment call holds, or that one holds no longer. -/
theorem KeepsHeld.free {hart : HartId} {index : ℕ} {d d' : IpiData}
    (notHeld : ∀ u, holder d.history index ≠ some (.u54 u))
    (freed : ipiMessageFree hart index d = .ok d') : KeepsHeld d d' := by
  intro k u held used
  have ne : k ≠ index := by
    rintro rfl
    exact notHeld u held
  rw [holder_free freed, used_free freed, if_neg ne, if_neg ne]
  exact ⟨held, used⟩

/-- What a step keeps in any case: slots that environment calls hold, and the record of calls. -/
structure Persists (s t : Requests) : Prop where
  held : KeepsHeld s.ipi t.ipi
  calls : ∀ slotCall ∈ s.calls, slotCall ∈ t.calls

theorem Persists.released (persists : Persists s t) (released : Released t) : Released s where
  free k u held := by
    by_contra used
    rw [Bool.not_eq_false] at used
    obtain ⟨held', used'⟩ := persists.held k u held used
    rw [released.free k u held'] at used'
    cases used'
  proper slotCall h := released.proper slotCall (persists.calls slotCall h)

theorem Persists.reboot : Persists s (sbiEcallReboot cfg e s).1 := by
  rcases sbiEcallReboot_cases cfg e s with ⟨same, calls⟩ | ⟨index, d, taken, same, calls⟩
  · exact ⟨same.keepsHeld, fun slotCall h => calls ▸ List.mem_cons_of_mem _ h⟩
  · refine ⟨?_, fun slotCall h => calls ▸ List.mem_cons_of_mem _ h⟩
    have alloc : KeepsHeld s.ipi (ipiMessageAlloc cfg (.u54 e.hart) s.ipi).1 := .alloc
    rw [taken] at alloc
    exact alloc.trans same.keepsHeld

theorem Persists.start : Persists s (sbiEcallRprocStart cfg e s).1 := by
  rcases sbiEcallRprocStart_cases cfg e s with
    ⟨-, ipi, calls⟩ | ⟨index, d, d', taken, same, ⟨-, ipi, calls⟩ | ⟨-, freed, calls⟩⟩
  · exact ⟨ipi ▸ SameSlots.keepsHeld (.of_eq rfl rfl), fun slotCall h => calls ▸ h⟩
  all_goals
    refine ⟨?_, fun slotCall h => by rw [calls]; simp [h]⟩
    have alloc : KeepsHeld s.ipi (ipiMessageAlloc cfg (.u54 e.hart) s.ipi).1 := .alloc
    rw [taken] at alloc
  · exact ipi ▸ alloc.trans same.keepsHeld
  · intro k u held used
    obtain ⟨-, free, -⟩ := ipiMessageAlloc_eq_some taken
    have ne : k ≠ index := by
      rintro rfl
      rw [used] at free
      cases free
    obtain ⟨held', used'⟩ := alloc.trans same.keepsHeld k u held used
    rw [holder_free freed, used_free freed, if_neg ne, if_neg ne]
    exact ⟨held', used'⟩

/-- A call on the bus that is not made by an environment call keeps which slots those hold. -/
theorem busNext_slots (keeps : ∀ hart msgType handler,
      (registry hart).handler msgType = some handler → KeepsSlots handler) {d d' : IpiData}
    {call : BusCall} (other : call.OtherThanEcall d) (next : busNext cfg registry d call = .ok d')
    (tracks : Tracks d) :
    Tracks d' ∧ KeepsHeld d d' ∧
      ∀ k u, holder d'.history k = some (.u54 u) → holder d.history k = some (.u54 u) ∧
        (d'.completes k).used = (d.completes k).used := by
  have ofSame : SameSlots d d' → Tracks d' ∧ KeepsHeld d d' ∧
      ∀ k u, holder d'.history k = some (.u54 u) → holder d.history k = some (.u54 u) ∧
        (d'.completes k).used = (d.completes k).used := fun same =>
    ⟨same.tracks tracks, same.keepsHeld, fun k u held => ⟨by rw [← same.holder, held], same.used k⟩⟩
  cases call with
  | alloc hart =>
    cases other
    cases next
    refine ⟨tracks.alloc _ _, .alloc, fun k u held => ?_⟩
    rcases taken : ipiMessageAlloc cfg .e51 d with ⟨d', _ | index⟩
    · obtain ⟨rfl, -⟩ := ipiMessageAlloc_eq_none taken
      rw [taken] at held
      exact ⟨held, rfl⟩
    · rw [taken, holder_alloc taken] at held
      split at held
      · cases held
      · next ne => exact ⟨held, by rw [used_alloc taken, if_neg ne]⟩
  | free hart index =>
    obtain ⟨rfl, own⟩ := other
    refine ⟨tracks.free next, .free (fun u h => ?_) next, fun k u held => ?_⟩
    · rw [own] at h
      cases h
    · rw [holder_free next] at held
      split at held
      · cases held
      · next ne => exact ⟨held, by rw [used_free next, if_neg ne]⟩
  | deliver hart =>
    simp only [busNext, bind_eq_ok] at next
    obtain ⟨⟨e, sent⟩, done, next⟩ := next
    cases next
    exact ofSame (.deliver done)
  | send hart =>
    cases next
    exact ofSame .send
  | poll hart mask =>
    cases next
    exact ofSame (.poll mask)
  | consume hart source msgType =>
    simp only [busNext, bind_eq_ok] at next
    obtain ⟨⟨e, intentFound⟩, done, next⟩ := next
    cases next
    exact ofSame (.consume (fun entry => keeps hart _ _ entry) done)

theorem not_released_of_held (tracks : Tracks t.ipi) (k : ℕ) (u : U54)
    (held : holder t.ipi.history k = some (.u54 u)) : ¬ Released t := by
  intro released
  have used := tracks k
  rw [held, released.free k u held] at used
  cases used

theorem reboot_not_released (cfg : Config) (e : Ecall) (tracks : Tracks s.ipi) :
    Tracks (sbiEcallReboot cfg e s).1.ipi ∧ ¬ Released (sbiEcallReboot cfg e s).1 := by
  have alloc : Tracks (ipiMessageAlloc cfg (.u54 e.hart) s.ipi).1 := tracks.alloc _ _
  rcases sbiEcallReboot_cases cfg e s with ⟨same, calls⟩ | ⟨index, d, taken, same, calls⟩
  · refine ⟨same.tracks tracks, fun released => ?_⟩
    have := released.proper (.deliver e.index none) (calls ▸ List.mem_cons_self)
    cases this
  · rw [taken] at alloc
    have tracks' := same.tracks alloc
    refine ⟨tracks', not_released_of_held tracks' index e.hart ?_⟩
    rw [same.holder, holder_alloc taken, if_pos rfl]

/-- A start of a remote processor gives its slot back if and only if it is not sent. -/
theorem start_released_iff (cfg : Config) (e : Ecall) (tracks : Tracks s.ipi) :
    Tracks (sbiEcallRprocStart cfg e s).1.ipi ∧
      (Released s → (Released (sbiEcallRprocStart cfg e s).1 ↔ NotSent cfg e s)) := by
  have alloc : Tracks (ipiMessageAlloc cfg (.u54 e.hart) s.ipi).1 := tracks.alloc _ _
  rcases sbiEcallRprocStart_cases cfg e s with
    ⟨notSent, ipi, calls⟩ | ⟨index, d, d', taken, same, ⟨sent, ipi, calls⟩ | ⟨notSent, freed, calls⟩⟩
  · refine ⟨ipi ▸ tracks, fun released =>
      ⟨fun _ => notSent, fun _ => ⟨fun k u held => ?_, fun slotCall h => ?_⟩⟩⟩
    · rw [ipi] at held ⊢
      exact released.free k u held
    · exact released.proper slotCall (calls ▸ h)
  · rw [taken] at alloc
    have tracks' : Tracks (sbiEcallRprocStart cfg e s).1.ipi := ipi ▸ same.tracks alloc
    refine ⟨tracks', fun _ => ⟨fun released' => ?_, fun notSent => absurd notSent sent⟩⟩
    refine absurd released' (not_released_of_held tracks' index e.hart ?_)
    rw [ipi, same.holder, holder_alloc taken, if_pos rfl]
  · rw [taken] at alloc
    refine ⟨(same.tracks alloc).free freed, fun released =>
      ⟨fun _ => notSent, fun _ => ⟨fun k u held => ?_, ?_⟩⟩⟩
    · rw [used_free freed]
      rw [holder_free freed] at held
      split
      · rfl
      · next ne =>
        rw [if_neg ne, same.holder, holder_alloc taken, if_neg ne] at held
        rw [same.used, used_alloc taken, if_neg ne]
        exact released.free k u held
    · rw [calls]
      intro slotCall h
      simp only [List.mem_cons] at h
      rcases h with rfl | rfl | h
      · rfl
      · rfl
      · exact released.proper slotCall h

/-- One step keeps what environment calls hold; from a state in which all is released, it releases
all if and only if it meets the condition. -/
theorem requestStep_released_iff (keeps : ∀ hart msgType handler,
      (registry hart).handler msgType = some handler → KeepsSlots handler)
    (step : requestStep cfg registry s event t) (tracks : Tracks s.ipi) :
    Tracks t.ipi ∧ Persists s t ∧ (Released s → (Released t ↔ RequestCond cfg s event)) := by
  cases event with
  | bus call =>
    obtain ⟨other, d, next, rfl⟩ := step
    obtain ⟨tracks', held, back⟩ := busNext_slots keeps other next tracks
    refine ⟨tracks', ⟨held, fun _ h => h⟩, fun released => ⟨fun _ => trivial, fun _ => ?_⟩⟩
    refine ⟨fun k u h => ?_, released.proper⟩
    obtain ⟨before, used⟩ := back k u h
    exact used.trans (released.free k u before)
  | ecall e =>
    obtain ⟨-, rfl⟩ := step
    by_cases reboots : e.funcid = .hssReboot
    · rw [hssSbiEcallHandler_reboot reboots]
      obtain ⟨tracks', notReleased⟩ := reboot_not_released cfg e tracks
      refine ⟨tracks', .reboot, fun _ => ⟨fun released => absurd released notReleased, ?_⟩⟩
      exact fun cond => absurd reboots cond.1
    · by_cases starts : StartsRproc cfg e
      · rw [hssSbiEcallHandler_start starts]
        obtain ⟨tracks', released_iff⟩ := start_released_iff cfg e tracks
        refine ⟨tracks', .start, fun released => (released_iff released).trans ?_⟩
        exact ⟨fun notSent => ⟨reboots, fun _ => notSent⟩, fun cond => cond.2 starts⟩
      · obtain ⟨ipi, calls⟩ := hssSbiEcallHandler_other (s := s) reboots starts
        refine ⟨ipi ▸ tracks, ⟨ipi ▸ SameSlots.keepsHeld (.of_eq rfl rfl), fun _ h => calls ▸ h⟩,
          fun released => ⟨fun _ => ⟨reboots, fun h => absurd h starts⟩, fun _ => ?_⟩⟩
        exact ⟨fun k u => by rw [ipi]; exact released.free k u, fun slotCall h =>
          released.proper slotCall (calls ▸ h)⟩

/-- In every run, all slots that environment calls allocated are free again, and were used with their
indices, if and only if no call rebooted or sent a request to start a remote processor: the requests
are not acknowledged, and nobody frees their slots. -/
theorem released_iff (keeps : ∀ hart msgType handler,
      (registry hart).handler msgType = some handler → KeepsSlots handler)
    {events : List RequestEvent} (run : Run (requestStep cfg registry) requestsInit events s) :
    Released s ↔
      Run (Under (RequestCond cfg) (requestStep cfg registry)) requestsInit events s := by
  have init : Released requestsInit := ⟨fun k u held => (nomatch held), fun _ h => (nomatch h)⟩
  constructor
  · have history : Tracks s.ipi ∧ (Released s →
        Run (Under (RequestCond cfg) (requestStep cfg registry)) requestsInit events s) := by
      refine run.history (I := fun events s => Tracks s.ipi ∧ (Released s →
        Run (Under (RequestCond cfg) (requestStep cfg registry)) requestsInit events s))
        ⟨tracks_ipiQueuesInit, fun _ => .nil⟩ fun events s event t before step => ?_
      obtain ⟨tracks, persists, cond⟩ := requestStep_released_iff keeps step before.1
      refine ⟨tracks, fun released => ?_⟩
      have released' := persists.released released
      exact .snoc (before.2 released') ⟨(cond released').mp released, step⟩
    exact history.2
  · intro run
    have invariant : Tracks s.ipi ∧ Released s :=
      run.invariant (I := fun s => Tracks s.ipi ∧ Released s) ⟨tracks_ipiQueuesInit, init⟩
        fun s event t before step =>
          have after := requestStep_released_iff keeps step.2 before.1
          ⟨after.1, (after.2.2 before.2).mpr step.1⟩
    exact invariant.2

/-- A reboot call by the first application hart. -/
def rebootCall : Ecall where
  hart := .u54_1
  funcid := .hssReboot
  a0 := 0
  index := 0
  contextHart := 0
  rprocData := 0
  skipBoot := false
  ihcFailed := false
  ihcResult := 0
  accepts := true

theorem released_iff_rebootCall :
    ∃ s, Run (requestStep .icicleKitEs fun _ => .bare ..) requestsInit [.ecall rebootCall] s ∧
      (Released s ↔ Run (Under (RequestCond .icicleKitEs) (requestStep .icicleKitEs fun _ => .bare ..))
        requestsInit [.ecall rebootCall] s) := by
  have run : Run (requestStep .icicleKitEs fun _ => .bare ..) requestsInit [.ecall rebootCall]
      (hssSbiEcallHandler .icicleKitEs rebootCall requestsInit).1 :=
    .single ⟨rfl, rfl⟩
  exact ⟨_, run, released_iff (fun _ => bare_keepsSlots) run⟩

/-- A reboot request that was handled leaves its slot in use: no request is outstanding, and the slot
stays allocated. -/
theorem reboot_leaks_slot :
    ∃ s, Run (requestStep .icicleKitEs fun _ => .bare ..) requestsInit
        [.ecall rebootCall, .bus (.consume .e51 (.u54 .u54_1) .bootRequest true)] s ∧
      (∀ u, findIntent .icicleKitEs s.ipi (ipiCalculateQueueIndex (.u54 u) .e51) .bootRequest =
        none) ∧
      holder s.ipi.history 0 = some (.u54 .u54_1) ∧ (s.ipi.completes 0).used = true ∧
      ¬ Released s := by
  obtain ⟨d, next, none, held, used⟩ := exists_ok
    (x := busNext .icicleKitEs (fun _ => .bare ..)
      (hssSbiEcallHandler .icicleKitEs rebootCall requestsInit).1.ipi
      (.consume .e51 (.u54 .u54_1) .bootRequest true))
    (P := fun d => (∀ u, findIntent .icicleKitEs d (ipiCalculateQueueIndex (.u54 u) .e51)
        .bootRequest = none) ∧
      holder d.history 0 = some (.u54 .u54_1) ∧ (d.completes 0).used = true) (by decide +kernel)
  have first : Run (requestStep .icicleKitEs fun _ => .bare ..) requestsInit [.ecall rebootCall]
      (hssSbiEcallHandler .icicleKitEs rebootCall requestsInit).1 :=
    .single ⟨rfl, rfl⟩
  refine ⟨_, .snoc first ⟨trivial, d, next, rfl⟩, none, held, used, fun released => ?_⟩
  have free := released.free 0 .u54_1 held
  rw [used] at free
  cases free

end Hss
