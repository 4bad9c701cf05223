import Hss.Boot.Memory

/-! Who holds which completion slot.  The monitor hart allocates for the boot machines only, so that
the slots it was handed are to be those in the cells of the machines, each in one cell. -/

namespace Hss

open Outcome Ownership Runs

/-- The completion slots that the monitor hart was handed and has not given back. -/
def State.slotsOut (s : State) : Set ℕ := {k | holder s.ipiData.history k = some .e51}

/-- The slot that a machine holds in a cell, of a machine that has registered its harts: before that
its cells are as they were at power-on. -/
def State.heldSlot (cfg : Config) (s : State) (c : U54 × MsgCell) : Option ℕ :=
  if s.Registered c.1 ∧ s.holds cfg c.1 c.2 = true then some (s.index c.1 c.2) else none

/-- The slots of the machines in `counted` are used, each is in one cell, all slots that were handed
out are in their cells, and no slot was given back by a hart that did not hold it. -/
structure OwnsSlots (cfg : Config) (counted : U54 → Prop) (s : State) : Prop where
  used : ∀ i cell, counted i → s.holds cfg i cell = true →
    (s.ipiData.completes (s.index i cell)).used = true
  once : ∀ i j cell cell', counted i → counted j → s.holds cfg i cell = true →
    s.holds cfg j cell' = true → s.index i cell = s.index j cell' → i = j ∧ cell = cell'
  noLeak : ∀ k ∈ s.slotsOut, ∃ i cell, counted i ∧ s.holds cfg i cell = true ∧ s.index i cell = k
  frees : FreesHeld s.ipiData.history

/-- The bus keeps its books, and the cells of the registered machines own the slots that are out. -/
structure SlotInv (cfg : Config) (s : State) : Prop where
  tracks : Tracks s.ipiData
  frees : FreesHeld s.ipiData.history
  owns : Owns (s.heldSlot cfg) s.slotsOut
  stale : ∀ i peer, ¬ s.Registered i → s.index i (.msgIndexAux peer) = 0

variable {cfg : Config} {inputs : Inputs} {registry : HartId → IpiRegistry cfg IpiData}
  {i j peer : U54} {cell : MsgCell} {event : BootEvent} {events : List BootEvent} {s t : State}

theorem State.heldSlot_eq_some {k : ℕ} : s.heldSlot cfg (i, cell) = some k ↔
    s.Registered i ∧ s.holds cfg i cell = true ∧ s.index i cell = k := by
  unfold State.heldSlot
  split
  · next h => simp [h]
  · next h =>
    constructor
    · exact nofun
    · exact fun ⟨registered, holds, _⟩ => absurd ⟨registered, holds⟩ h

theorem State.heldSlot_eq_none : s.heldSlot cfg (i, cell) = none ↔
    (s.Registered i → s.holds cfg i cell = false) := by
  unfold State.heldSlot
  split
  · next h => simp [h]
  · next h =>
    refine iff_of_true rfl fun registered => ?_
    exact Bool.eq_false_of_not_eq_true fun holds => h ⟨registered, holds⟩

theorem SlotInv.ownsSlots (inv : SlotInv cfg s) : OwnsSlots cfg s.Registered s := by
  refine ⟨fun i cell registered holds => ?_, fun i j cell cell' registered registered' holds holds'
    same => ?_, fun k out => ?_, inv.frees⟩
  · have held : s.heldSlot cfg (i, cell) = some (s.index i cell) :=
      State.heldSlot_eq_some.mpr ⟨registered, holds, rfl⟩
    have out : holder s.ipiData.history (s.index i cell) = some .e51 := inv.owns.sound held
    rw [inv.tracks, out]
    rfl
  · have held := State.heldSlot_eq_some.mpr ⟨registered, holds, same⟩
    have held' := State.heldSlot_eq_some.mpr ⟨registered', holds', rfl⟩
    exact Prod.mk.inj (inv.owns.unique held held')
  · obtain ⟨⟨i, cell⟩, held⟩ := inv.owns.complete out
    obtain ⟨registered, holds, same⟩ := State.heldSlot_eq_some.mp held
    exact ⟨i, cell, registered, holds, same⟩

theorem SlotInv.owns_iff (inv : SlotInv cfg s) :
    OwnsSlots cfg (fun _ => True) s ↔ ∀ i, s.Registered i := by
  constructor
  · intro owns i
    by_contra unregistered
    have zero := fun peer => inv.stale i peer unregistered
    have holds : ∀ peer, s.holds cfg i (.msgIndexAux peer) = true := by
      intro peer
      have pos := cfg.maxNumQueueMessages_pos
      have ne : 0 ≠ cfg.maxNumOutstandingCompletes := by
        unfold Config.maxNumOutstandingCompletes
        omega
      simp [State.holds, zero, ne]
    obtain ⟨-, same⟩ := owns.once i i (.msgIndexAux .u54_1) (.msgIndexAux .u54_2) trivial trivial
      (holds _) (holds _) (by rw [zero, zero])
    cases same
  · intro registered
    obtain ⟨used, once, noLeak, frees⟩ := inv.ownsSlots
    refine ⟨fun i cell _ => used i cell (registered i), fun i j cell cell' _ _ =>
      once i j cell cell' (registered i) (registered j), fun k out => ?_, frees⟩
    obtain ⟨i, cell, -, holds, same⟩ := noLeak k out
    exact ⟨i, cell, trivial, holds, same⟩

/-! ### What the operations on slots keep -/

theorem State.heldSlot_congr (index : t.index = s.index)
    (registered : ∀ i, t.Registered i ↔ s.Registered i) : t.heldSlot cfg = s.heldSlot cfg := by
  funext c
  unfold State.heldSlot State.holds
  rw [index]
  simp only [registered]

theorem SlotInv.same (inv : SlotInv cfg s) (same : SameMessages s t) : SlotInv cfg t := by
  refine ⟨same.slots.tracks inv.tracks, same.slots.frees inv.frees, ?_, fun i peer unregistered => ?_⟩
  · have out : t.slotsOut = s.slotsOut := by
      ext k
      rw [State.slotsOut, State.slotsOut, Set.mem_ofPred_eq, Set.mem_ofPred_eq, same.slots.holder]
    rw [State.heldSlot_congr same.index same.registered, out]
    exact inv.owns
  · rw [same.index]
    exact inv.stale i peer fun registered => unregistered ((same.registered i).mpr registered)

theorem heldSlot_setIndex (cfg : Config) (cell : MsgCell) (registered : s.Registered i) (index : ℕ) :
    (s.setIndex i cell index).heldSlot cfg = Function.update (s.heldSlot cfg) (i, cell)
      (if index = cfg.maxNumOutstandingCompletes then none else some index) := by
  funext ⟨j, c⟩
  have same : (s.setIndex i cell index).Registered j ↔ s.Registered j := Iff.rfl
  unfold State.heldSlot State.holds
  rw [State.index_setIndex]
  simp only [same]
  by_cases h : (j, c) = (i, cell)
  · cases h
    rw [Function.update_self, if_pos rfl, Function.update_self]
    by_cases empty : index = cfg.maxNumOutstandingCompletes <;> simp [empty, registered]
  · rw [Function.update_of_ne h]
    by_cases hj : j = i
    · subst hj
      have hc : c ≠ cell := fun same => h (by rw [same])
      rw [if_pos rfl, Function.update_of_ne hc]
    · rw [if_neg hj]

/-- A write to a cell of a registered machine leaves those of the others as they are. -/
theorem stale_setIndex (stale : ∀ j peer, ¬ s.Registered j → s.index j (.msgIndexAux peer) = 0)
    (registered : s.Registered i) (index : ℕ) :
    ∀ j peer, ¬ s.Registered j → (s.setIndex i cell index).index j (.msgIndexAux peer) = 0 := by
  intro j peer unregistered
  have ne : j ≠ i := by
    rintro rfl
    exact unregistered registered
  rw [State.index_setIndex, if_neg ne]
  exact stale j peer unregistered

/-- The invariant holds after a call, which registers no machine. -/
structure SlotsKept (cfg : Config) (s t : State) : Prop where
  inv : SlotInv cfg t
  registered : ∀ j, t.Registered j ↔ s.Registered j

theorem SlotsKept.trans {u : State} (h : SlotsKept cfg s t) (h' : SlotsKept cfg t u) :
    SlotsKept cfg s u :=
  ⟨h'.inv, fun j => (h'.registered j).trans (h.registered j)⟩

theorem SlotsKept.then_same {u : State} (h : SlotsKept cfg s t) (same : SameMessages t u) :
    SlotsKept cfg s u :=
  ⟨h.inv.same same, fun j => (same.registered j).trans (h.registered j)⟩

/-- The freeing of a message that a registered machine holds does not fail, and keeps who owns which
slot. -/
theorem SlotInv.free (inv : SlotInv cfg s) (registered : s.Registered i) (cell : MsgCell) :
    Meets .freedMessageUsed (freeCell cfg i cell s) (SlotsKept cfg s) := by
  by_cases empty : s.index i cell = cfg.maxNumOutstandingCompletes
  · have done : freeCell cfg i cell s = .ok s := if_neg (not_not.mpr empty)
    rw [done]
    exact .ok ⟨inv, fun _ => Iff.rfl⟩
  · have held : s.heldSlot cfg (i, cell) = some (s.index i cell) :=
      State.heldSlot_eq_some.mpr ⟨registered, by simp [State.holds, empty], rfl⟩
    have holds : holder s.ipiData.history (s.index i cell) = some .e51 := inv.owns.sound held
    have used : (s.ipiData.completes (s.index i cell)).used = true := by
      rw [inv.tracks, holds]
      rfl
    obtain ⟨d, freed⟩ : ∃ d, ipiMessageFree .e51 (s.index i cell) s.ipiData = .ok d :=
      ⟨_, ipiMessageFree_eq_ok.mpr ⟨used, rfl⟩⟩
    have done : freeCell cfg i cell s =
        .ok ((setIpi s d).setIndex i cell cfg.maxNumOutstandingCompletes) := by
      refine (if_pos empty).trans ?_
      change (ipiMessageFree .e51 (s.index i cell) s.ipiData >>= _) = _
      rw [freed]
      rfl
    rw [done]
    refine .ok ⟨⟨inv.tracks.free freed, frees_free inv.frees holds freed, ?_,
      stale_setIndex (s := setIpi s d) inv.stale registered _⟩, fun _ => Iff.rfl⟩
    have out : ((setIpi s d).setIndex i cell cfg.maxNumOutstandingCompletes).slotsOut =
        s.slotsOut \ {s.index i cell} := by
      ext k
      simp only [State.slotsOut, State.setIndex_ipiData, State.setIpi_ipiData, Set.mem_ofPred_eq,
        Set.mem_sdiff, Set.mem_singleton_iff, holder_free freed]
      split <;> simp [*]
    rw [out, heldSlot_setIndex (s := setIpi s d) cfg cell registered, if_pos rfl]
    exact inv.owns.release held

/-- A registered machine is handed a slot, which it keeps in a cell that was empty. -/
theorem SlotInv.acquire (inv : SlotInv cfg s) (registered : s.Registered i)
    (empty : s.holds cfg i cell = false) {index : ℕ} {d e : IpiData}
    (taken : ipiMessageAlloc cfg .e51 s.ipiData = (d, some index)) (same : SameSlots d e) :
    SlotInv cfg (setIpi (s.setIndex i cell index) e) := by
  obtain ⟨bound, free, -⟩ := ipiMessageAlloc_eq_some taken
  have tracks : Tracks d := by
    have kept := inv.tracks.alloc cfg .e51
    rwa [taken] at kept
  have fresh : index ∉ s.slotsOut := by
    intro out
    have held : holder s.ipiData.history index = some .e51 := out
    rw [inv.tracks, held] at free
    cases free
  have out : (setIpi (s.setIndex i cell index) e).slotsOut = insert index s.slotsOut := by
    ext k
    simp only [State.slotsOut, State.setIpi_ipiData, Set.mem_ofPred_eq, Set.mem_insert_iff,
      same.holder, holder_alloc taken]
    split <;> simp [*]
  refine ⟨same.tracks tracks, same.frees (frees_alloc inv.frees taken), ?_,
    stale_setIndex inv.stale registered index⟩
  have held : (setIpi (s.setIndex i cell index) e).heldSlot cfg =
      Function.update (s.heldSlot cfg) (i, cell) (some index) := by
    have written := heldSlot_setIndex cfg cell registered index
    rwa [if_neg bound.ne] at written
  rw [out, held]
  exact inv.owns.acquire (State.heldSlot_eq_none.mpr fun _ => empty) fresh

theorem Registers.ipiData (done : Registers cfg i s t) : t.ipiData = s.ipiData := by
  obtain ⟨l, ledger, ids, rfl, -⟩ := done
  rfl

theorem Registers.registered_iff (done : Registers cfg i s t) (j : U54) :
    t.Registered j ↔ j = i ∨ s.Registered j := by
  obtain ⟨l, ledger, ids, rfl, -⟩ := done
  simp only [State.Registered, List.mem_cons, BootRecord.registered.injEq]

theorem SlotInv.registers (inv : SlotInv cfg s)
    (empty : s.Registered i → ∀ cell, s.holds cfg i cell = false) (done : Registers cfg i s t) :
    SlotInv cfg t := by
  have held : t.heldSlot cfg = s.heldSlot cfg := by
    funext ⟨j, cell⟩
    by_cases h : j = i
    · subst h
      rw [State.heldSlot_eq_none.mpr fun registered => empty registered cell,
        State.heldSlot_eq_none, State.holds, done.index_eq, if_pos rfl]
      simp
    · have index : t.index j cell = s.index j cell := by rw [done.index_eq, if_neg h]
      refine if_congr ?_ (congrArg some index) rfl
      rw [State.holds, State.holds, index, done.registered_iff]
      simp only [h, false_or]
  have out : t.slotsOut = s.slotsOut := by rw [State.slotsOut, State.slotsOut, done.ipiData]
  refine ⟨by rw [done.ipiData]; exact inv.tracks, by rw [done.ipiData]; exact inv.frees,
    by rw [held, out]; exact inv.owns, fun j peer unregistered => ?_⟩
  rw [done.registered_iff, not_or] at unregistered
  rw [done.index_eq, if_neg unregistered.1]
  exact inv.stale j peer unregistered.2

/-! ### The handlers -/

theorem meets_assert {condition : Prop} [Decidable condition] {reason bad : Halt}
    (other : reason ≠ bad) : Meets bad (assert condition reason) fun _ => condition := by
  unfold assert
  split
  · next holds => exact .ok holds
  · exact .error other

/-- A call that registers no machine and leaves the messages alone. -/
theorem SlotInv.meets_same (inv : SlotInv cfg s) {x : Except Halt State}
    (safe : x ≠ .error .freedMessageUsed) (same : ∀ t, x = .ok t → SameMessages s t) :
    Meets .freedMessageUsed x (SlotsKept cfg s) :=
  ⟨safe, fun t done => ⟨inv.same (same t done), (same t done).registered⟩⟩

theorem SlotInv.kept (inv : SlotInv cfg s) : SlotsKept cfg s s := ⟨inv, fun _ => Iff.rfl⟩

theorem SlotInv.freeAll (inv : SlotInv cfg s) (registered : s.Registered i) :
    Meets .freedMessageUsed (freeAll cfg i s) (SlotsKept cfg s) := by
  refine Meets.bind (Meets.foldlM bootMachine inv.kept fun peer _ t kept => ?_) fun t kept => ?_
  · exact (kept.inv.free ((kept.registered i).mpr registered) _).mono fun u => kept.trans
  · exact (kept.inv.free ((kept.registered i).mpr registered) _).mono fun u => kept.trans

theorem meets_checkIfComplete (index : ℕ) (d : IpiData) :
    Meets .freedMessageUsed (ipiMessageCheckIfComplete cfg d index) fun _ => True := by
  refine (meets_assert (by decide)).bind fun _ _ => ?_
  split
  · exact .ok trivial
  · split <;> exact .ok trivial

theorem SlotsKept.runIf_free {u : State} (kept : SlotsKept cfg s u) (registered : s.Registered i)
    (result : Bool) (cell : MsgCell) :
    Meets .freedMessageUsed (runIf result (freeCell cfg i cell) u) (SlotsKept cfg s) := by
  unfold runIf
  split
  · exact (kept.inv.free ((kept.registered i).mpr registered) _).mono fun v => kept.trans
  · exact .ok kept

theorem SlotInv.checkForIpiAcks (inv : SlotInv cfg s) (registered : s.Registered i) :
    Meets .freedMessageUsed (checkForIpiAcks cfg i s) fun p => SlotsKept cfg s p.1 := by
  refine Meets.bind (P := fun p => SlotsKept cfg s p.1)
    (Meets.foldlM bootMachine inv.kept ?_) fun p kept => ?_
  · rintro peer - ⟨u, before⟩ kept
    change Meets _ (checkPeerAck cfg i peer u before) _
    unfold checkPeerAck
    split
    · refine (meets_checkIfComplete ..).bind fun result _ => ?_
      exact (kept.runIf_free registered result _).bind fun t kept => .ok kept
    · exact .ok kept
  · dsimp only
    split
    · refine (meets_checkIfComplete ..).bind fun result _ => ?_
      exact (kept.runIf_free registered _ _).bind fun t kept => .ok kept
    · exact .ok kept

theorem SlotInv.delivery (inv : SlotInv cfg s) (registered : s.Registered i)
    (empty : s.holds cfg i (.msgIndexAux peer) = false) :
    Meets .freedMessageUsed (commonBootMessageDelivery cfg inputs i peer s) (SlotsKept cfg s) := by
  refine ⟨?_, fun t done => ?_⟩
  · unfold commonBootMessageDelivery
    split
    · exact fun stops => absurd (Except.error.inj stops) (by decide)
    · next d index taken =>
      change (ipiMessageDeliver _ _ _ _ _ _ _ _ _ d >>= _) ≠ _
      rw [ipiMessageDeliver_of_alloc taken]
      exact nofun
  · obtain ⟨index, d, e, sent, taken, delivered, rfl⟩ := commonBootMessageDelivery_cases done
    have acquired := inv.acquire registered empty taken (.deliver delivered)
    have kept : ∀ ok, SlotsKept cfg s ((setIpi (s.setIndex i (.msgIndexAux peer) index) e).record
        (.started i peer (s.machine i).state ok)) := fun ok =>
      SlotsKept.then_same ⟨acquired, fun _ => Iff.rfl⟩
        (.record _ fun _ => BootRecord.noConfusion)
    split
    · exact kept true
    · exact (kept false).then_same (.of_eq rfl rfl rfl)

/-- A memory protection message that is sent takes a slot for an empty cell. -/
theorem SlotInv.pmpRequest (inv : SlotInv cfg s) (registered : s.Registered i)
    (empty : s.holds cfg i .msgIndex = false)
    (room : findAvailableSlot cfg s.ipiData (ipiCalculateQueueIndex .e51 (.u54 i)) ≠ none)
    (accepted : raise cfg (inputs.accepts .pmpSetup) = true) :
    Meets .freedMessageUsed (hssBootPmpSetupRequest cfg inputs i s) fun p => SlotsKept cfg s p.1 := by
  rcases taken : ipiMessageAlloc cfg .e51 s.ipiData with ⟨d, _ | index⟩
  · rw [hssBootPmpSetupRequest, taken]
    exact .error (by decide)
  · have sent : (ipiSend cfg (inputs.accepts .pmpSetup) .e51 (.u54 i)
        ⟨.pmpSetup, s.ipiData.myTransactionId .e51, 0, 0, 0⟩ d).2 = true := by
      rw [ipiSend_eq_true_iff, findAvailableSlot_alloc taken]
      exact ⟨room, accepted⟩
    have done : hssBootPmpSetupRequest cfg inputs i s = .ok (setIpi (s.setIndex i .msgIndex index)
        (ipiSend cfg (inputs.accepts .pmpSetup) .e51 (.u54 i)
          ⟨.pmpSetup, s.ipiData.myTransactionId .e51, 0, 0, 0⟩ d).1, true) := by
      rw [hssBootPmpSetupRequest, taken]
      change (ipiMessageDeliver _ _ _ _ _ _ _ _ _ d >>= _) = _
      rw [ipiMessageDeliver_of_alloc taken, ok_bind]
      generalize ipiSend _ _ _ _ _ _ = p at sent ⊢
      obtain ⟨e, result⟩ := p
      cases sent
      rfl
    rw [done]
    exact .ok ⟨inv.acquire registered empty taken .send, fun _ => Iff.rfl⟩

theorem registerHarts_safe (s : State) :
    Meets .freedMessageUsed (registerHarts cfg i s) fun _ => True := by
  unfold registerHarts
  dsimp only
  split
  · exact (meets_assert (by decide)).bind fun _ _ => .ok trivial
  · exact .ok trivial

theorem bootRequest_safe (source : Option HartId) (s : State) :
    Meets .freedMessageUsed (hssBootRestartCore source s) fun _ => True := by
  refine (meets_assert (by decide)).bind fun _ _ => ?_
  split
  · exact .ok trivial
  · split <;> exact .ok trivial

theorem bootIdleHandler_safe (s : State) :
    Meets .freedMessageUsed (bootIdleHandler cfg inputs i s) fun _ => True := by
  refine Meets.bind (P := fun _ => True) ?_ fun _ _ => .ok trivial
  unfold ipiConsumeIntent
  dsimp only [bootRegistry]
  split
  · exact .ok trivial
  · refine Meets.bind (P := fun _ => True) ?_ fun _ _ => .ok trivial
    unfold hssBootIpiHandler
    split
    · split
      · exact .error (by decide)
      · exact bootRequest_safe ..
    · exact bootRequest_safe ..

theorem bootZeroInitChunksHandler_safe (s : State) :
    Meets .freedMessageUsed (bootZeroInitChunksHandler cfg i s) fun _ => True := by
  refine (meets_assert (by decide)).bind fun _ _ => ?_
  dsimp only
  split
  · split
    · split
      · exact .ok trivial
      · refine Meets.bind (P := fun _ => True) ?_ fun _ _ => .ok trivial
        exact (meets_assert (by decide)).bind fun _ _ => .ok trivial
    · exact .ok trivial
  · exact .ok trivial

theorem bootDownloadChunksHandler_safe (s : State) :
    Meets .freedMessageUsed (bootDownloadChunksHandler i s) fun _ => True := by
  refine (meets_assert (by decide)).bind fun _ _ => ?_
  dsimp only
  split
  · split
    · split
      · split
        · refine Meets.bind (P := fun _ => True) ?_ fun _ _ => .ok trivial
          refine (meets_assert (by decide)).bind fun _ _ => ?_
          refine (meets_assert (by decide)).bind fun _ _ => ?_
          refine Meets.bind (P := fun _ => True) ?_ fun _ _ => .ok trivial
          exact (meets_assert (by decide)).bind fun _ _ => .ok trivial
        · exact .ok trivial
      · exact .ok trivial
    · exact .ok trivial
  · exact .ok trivial

theorem SlotInv.quiet (inv : SlotInv cfg s) {state : BootState} (quiet : state.messaging = false) :
    Meets .freedMessageUsed ((bootStateDescs cfg inputs i state).handler s) (SlotsKept cfg s) := by
  refine inv.meets_same ?_ fun t done => SameMessages.handler quiet done
  cases state with
  | initialization =>
    change bootInitHandler inputs i s ≠ _
    unfold bootInitHandler
    split
    · split <;> exact nofun
    · exact nofun
  | zeroInitChunks => exact (bootZeroInitChunksHandler_safe s).1
  | downloadChunks => exact (bootDownloadChunksHandler_safe s).1
  | complete => exact nofun
  | idle => exact (bootIdleHandler_safe s).1
  | error => exact nofun
  | _ => cases quiet

/-- The machine, in the state in which its handler starts, starts `peer`. -/
def StartsPeer (i peer : U54) (s : State) : Prop :=
  s.primaryBootHart i = true ∧ bootMachine[(s.localData i).iterator]? = some peer ∧ peer ≠ i ∧
    s.entryPoint peer = s.entryPoint i

/-- What a handler needs for the slots to stay owned: the machine has registered if it looks for
acknowledgements or sends, its memory protection message is sent, and its start message goes to an
empty cell. -/
structure HandlerCond (cfg : Config) (inputs : Inputs) (i : U54) (state : BootState) (s : State) :
    Prop where
  pmp : state = .setupPmp → s.Registered i ∧
    findAvailableSlot cfg s.ipiData (ipiCalculateQueueIndex .e51 (.u54 i)) ≠ none ∧
    raise cfg (inputs.accepts .pmpSetup) = true
  complete : state = .setupPmpComplete → s.Registered i
  wait : state = .wait → s.entryPoint i ≠ 0 → s.Registered i
  start : state = .opensbiInit → ∀ peer, StartsPeer i peer s →
    s.Registered i ∧ s.holds cfg i (.msgIndexAux peer) = false

theorem SlotInv.handler (inv : SlotInv cfg s) {state : BootState}
    (cond : HandlerCond cfg inputs i state s) :
    Meets .freedMessageUsed ((bootStateDescs cfg inputs i state).handler s) (SlotsKept cfg s) := by
  have goto : ∀ (t : State) (state : BootState), SlotsKept cfg s t →
      Meets Halt.freedMessageUsed (.ok (t.goto i state)) (SlotsKept cfg s) :=
    fun t state kept => .ok (kept.then_same (.of_eq rfl rfl rfl))
  by_cases quiet : state.messaging = false
  · exact inv.quiet quiet
  · cases state with
    | setupPmp =>
      obtain ⟨registered, room, accepted⟩ := cond.pmp rfl
      change Meets _ (bootSetupPmpHandler cfg inputs i s) _
      unfold bootSetupPmpHandler
      split
      · next empty =>
        have unheld : s.holds cfg i .msgIndex = false :=
          decide_eq_false (not_not.mpr empty)
        refine (inv.pmpRequest registered unheld room accepted).bind ?_
        rintro ⟨t, result⟩ kept
        cases result with
        | true => exact goto t _ kept
        | false => exact .ok kept
      · exact goto _ _ inv.kept
    | setupPmpComplete =>
      have registered := cond.complete rfl
      change Meets _ (bootSetupPmpCompleteHandler cfg inputs i s) _
      unfold bootSetupPmpCompleteHandler
      split
      · exact (inv.freeAll registered).bind fun t kept => goto _ _ kept
      · refine (inv.checkForIpiAcks registered).bind ?_
        rintro ⟨t, result⟩ kept
        cases result with
        | true => exact goto t _ kept
        | false => exact .ok kept
    | opensbiInit =>
      change Meets _ (bootOpensbiInitHandler cfg inputs i s) _
      refine (meets_assert (by decide)).bind fun _ _ => ?_
      split
      · next primary =>
        split
        · next peer next =>
          have sent : Meets .freedMessageUsed (runIf (peer ≠ i && s.entryPoint peer = s.entryPoint i)
              (commonBootMessageDelivery cfg inputs i peer) s) (SlotsKept cfg s) := by
            unfold runIf
            split
            · next starts =>
              obtain ⟨ne, same⟩ : peer ≠ i ∧ s.entryPoint peer = s.entryPoint i := by
                simpa using starts
              obtain ⟨registered, empty⟩ := cond.start rfl peer ⟨primary, next, ne, same⟩
              exact inv.delivery registered empty
            · exact .ok inv.kept
          refine sent.bind fun t kept => .ok (kept.then_same (.of_eq ?_ rfl rfl))
          exact State.index_setLocal _ _ _ (by funext cell; cases cell <;> rfl)
        · exact goto _ _ inv.kept
      · exact .ok inv.kept
    | wait =>
      change Meets _ (bootWaitHandler cfg inputs i s) _
      unfold bootWaitHandler
      have started : SlotsKept cfg s (s.setMachine i { s.machine i with startTime := inputs.time }) :=
        inv.kept.then_same (.of_eq rfl rfl rfl)
      dsimp only
      split
      · exact .ok (started.then_same (.of_eq rfl rfl rfl))
      · next entry =>
        have registered : s.Registered i := cond.wait rfl entry
        split
        · refine (started.inv.freeAll registered).bind fun t kept => goto _ _ (started.trans kept)
        · refine (started.inv.checkForIpiAcks registered).bind ?_
          rintro ⟨t, result⟩ kept
          cases result with
          | true => exact .ok ((started.trans kept).then_same (.of_eq rfl rfl rfl))
          | false => exact .ok (started.trans kept)
    | _ => exact absurd rfl quiet

/-! ### Entering a state -/

/-- A run of the machine registers its harts: the machine enters `BOOT_SETUP_PMP`, or it leaves
`BOOT_DOWNLOAD_CHUNKS`. -/
def Registering (i : U54) (s : State) : Prop :=
  (s.machine i).prevState ≠ some (s.machine i).state ∧
    ((s.machine i).state = .setupPmp ∨ (s.machine i).prevState = some .downloadChunks)

/-- A run of the machine leaves `BOOT_OPENSBI_INIT` and starts its own hart. -/
def StartsOwn (i : U54) (s : State) : Prop :=
  (s.machine i).prevState = some .opensbiInit ∧ (s.machine i).state ≠ .opensbiInit ∧
    s.entryPoint i ≠ 0

/-- A run of the machine, in `BOOT_OPENSBI_INIT`, starts `peer`: the walk of the peers begins anew
when the state is entered. -/
def StartsNext (i peer : U54) (s : State) : Prop :=
  (s.machine i).state = .opensbiInit ∧ s.primaryBootHart i = true ∧
    bootMachine[if (s.machine i).prevState = some .opensbiInit then (s.localData i).iterator
      else 0]? = some peer ∧
    peer ≠ i ∧ s.entryPoint peer = s.entryPoint i

/-- The condition on a run of a machine: it holds no message when it registers its harts, its memory
protection message is sent, and the messages that start harts go to empty cells. -/
structure RunCond (cfg : Config) (inputs : Inputs) (i : U54) (s : State) : Prop where
  register : Registering i s → s.Registered i → ∀ cell, s.holds cfg i cell = false
  pmp : (s.machine i).state = .setupPmp →
    findAvailableSlot cfg s.ipiData (ipiCalculateQueueIndex .e51 (.u54 i)) ≠ none ∧
      raise cfg (inputs.accepts .pmpSetup) = true
  own : StartsOwn i s → s.Registered i ∧ s.holds cfg i (.msgIndexAux i) = false
  next : ∀ peer, StartsNext i peer s → (s.machine i).prevState = some .downloadChunks ∨
    (s.Registered i ∧ s.holds cfg i (.msgIndexAux peer) = false)

/-- Where the machine can be that left `BOOT_OPENSBI_INIT`, and where it has registered. -/
structure SlotControl (i : U54) (s : State) : Prop where
  left : (s.machine i).prevState = some .opensbiInit →
    (s.machine i).state ∈ [BootState.opensbiInit, .wait, .error, .initialization]
  pmp : (s.machine i).prevState = some .setupPmp → s.Registered i
  complete : (s.machine i).state = .setupPmpComplete → s.Registered i
  wait : (s.machine i).state = .wait →
    s.Registered i ∨ (s.machine i).prevState = some .opensbiInit

theorem SlotControl.of_eq (control : SlotControl i s) (same : t.machine i = s.machine i)
    (registered : s.Registered i → t.Registered i) : SlotControl i t :=
  ⟨by rw [same]; exact control.left, by rw [same]; exact fun prev => registered (control.pmp prev),
    by rw [same]; exact fun state => registered (control.complete state),
    by rw [same]; exact fun state => (control.wait state).imp_left registered⟩

theorem SameMessages.start (now : Word) (s : State) (i : U54) :
    SameMessages s ((bootService i).start now s) := by
  unfold MachineOf.start
  split <;> exact .of_eq rfl rfl rfl

/-- The exit callback of the last state. -/
theorem SlotInv.exit (inv : SlotInv cfg s) (control : SlotControl i s)
    (cond : RunCond cfg inputs i s) (leaves : (s.machine i).prevState ≠ some (s.machine i).state)
    (same : SameMessages s t) (image : SameImage s t) :
    Meets .freedMessageUsed ((s.machine i).prevState.elim (.ok t) fun prev =>
        runCallback (bootStateDescs cfg inputs i prev).onExit t)
      (fun u => SlotInv cfg u ∧ ((s.machine i).state = .setupPmp → u.Registered i →
        ∀ cell, u.holds cfg i cell = false)) := by
  have quiet : Meets Halt.freedMessageUsed (.ok t) (fun u => SlotInv cfg u ∧
      ((s.machine i).state = .setupPmp → u.Registered i → ∀ cell, u.holds cfg i cell = false)) := by
    refine .ok ⟨inv.same same, fun pmp registered cell => ?_⟩
    rw [State.holds, same.index]
    exact cond.register ⟨leaves, .inl pmp⟩ ((same.registered i).mp registered) cell
  cases prev : (s.machine i).prevState with
  | none => exact quiet
  | some last =>
    rw [prev] at leaves
    cases last with
    | downloadChunks =>
      refine ⟨(registerHarts_safe t).1, fun u done => ?_⟩
      have registers : Registers cfg i t u := registerHarts_eq_ok done
      refine ⟨(inv.same same).registers (fun registered cell => ?_) registers, fun _ _ cell => ?_⟩
      · rw [State.holds, same.index]
        exact cond.register ⟨by rw [prev]; exact leaves, .inr prev⟩
          ((same.registered i).mp registered) cell
      · rw [State.holds, registers.index_eq, if_pos rfl]
        exact decide_eq_false (not_not.mpr rfl)
    | opensbiInit =>
      have elsewhere : (s.machine i).state ≠ .setupPmp := by
        intro pmp
        have reached := control.left prev
        rw [pmp] at reached
        exact absurd reached (by decide)
      have kept : Meets Halt.freedMessageUsed (bootOpensbiInitOnExit cfg inputs i t)
          (SlotsKept cfg t) := by
        refine (meets_assert (by decide)).bind fun _ _ => ?_
        split
        · next entry =>
          rw [image.entryPoint] at entry
          obtain ⟨registered, empty⟩ := cond.own ⟨prev, fun stays => leaves (by rw [stays]), entry⟩
          refine (inv.same same).delivery ((same.registered i).mpr registered) ?_
          rwa [State.holds, same.index]
        · exact .ok (inv.same same).kept
      exact kept.mono fun u kept => ⟨kept.inv, fun pmp => absurd pmp elsewhere⟩
    | _ => exact quiet

/-- The entry callback of the new state. -/
theorem SlotInv.entry (inv : SlotInv cfg s) (inputs : Inputs) {state : BootState}
    (empty : state = .setupPmp → s.Registered i → ∀ cell, s.holds cfg i cell = false) :
    Meets .freedMessageUsed (runCallback (bootStateDescs cfg inputs i state).onEntry s)
      (SlotInv cfg) := by
  have safe : runCallback (bootStateDescs cfg inputs i state).onEntry s ≠
      .error .freedMessageUsed := by
    cases state with
    | setupPmp => exact (registerHarts_safe s).1
    | zeroInitChunks =>
      exact ((meets_assert (by decide)).bind (R := fun _ => True) fun _ _ => .ok trivial).1
    | downloadChunks =>
      refine ((meets_assert (by decide)).bind (R := fun _ => True) fun _ _ => ?_).1
      split <;> exact .ok trivial
    | opensbiInit =>
      exact ((meets_assert (by decide)).bind (R := fun _ => True) fun _ _ => .ok trivial).1
    | _ => exact nofun
  refine ⟨safe, fun t done => ?_⟩
  rcases onEntry_messages done with ⟨pmp, registers⟩ | ⟨-, same⟩
  · exact inv.registers (empty pmp) registers
  · exact inv.same same

theorem SlotInv.enter (inv : SlotInv cfg s) (control : SlotControl i s)
    (cond : RunCond cfg inputs i s) :
    Meets .freedMessageUsed (enter cfg inputs i s) (SlotInv cfg) := by
  have started := SameMessages.start inputs.lastEntry s i
  unfold Hss.enter
  split
  · exact .ok (inv.same started)
  · next leaves =>
    have exit := inv.exit control cond leaves started (SameTables.start ..).toSameImage
    have entered : Meets Halt.freedMessageUsed _ (SlotInv cfg) := exit.bind fun b left =>
      (left.1.entry inputs left.2).bind fun c inv =>
        .ok (inv.same (t := c.setMachine i { c.machine i with
          executionCount := 0, prevState := some (c.machine i).state }) (.of_eq rfl rfl rfl))
    unfold MachineOf.changeState
    cases prev : (s.machine i).prevState with
    | none =>
      rw [prev] at entered
      exact entered
    | some last =>
      rw [prev] at entered
      exact entered

/-! ### What a handler starts from -/

theorem delivery_registered (done : commonBootMessageDelivery cfg inputs i peer s = .ok t) (j : U54) :
    t.Registered j ↔ s.Registered j := by
  obtain ⟨index, d, e, sent, -, -, rfl⟩ := commonBootMessageDelivery_cases done
  split <;> simp [State.Registered]

/-- The callbacks of a change of state register the harts of the machine, or leave the registered
machines as they are. -/
theorem Entered.registered_mono {a : State} (entered : Entered cfg inputs i s a)
    (registered : s.Registered j) : a.Registered j := by
  refine entered.induction (P := fun u => u.Registered j) (fun _ _ h => h) ?_ ?_ registered
  · intro state u v kept done
    rcases onExit_messages done with ⟨-, registers⟩ | ⟨-, -, sent⟩ | rfl
    · exact (registers.registered_iff j).mpr (.inr kept)
    · exact (delivery_registered sent j).mpr kept
    · exact kept
  · intro state u v kept done
    rcases onEntry_messages done with ⟨-, registers⟩ | ⟨-, same⟩
    · exact (registers.registered_iff j).mpr (.inr kept)
    · exact (same.registered j).mpr kept

theorem Entered.registered_of_pmp {a : State} (entered : Entered cfg inputs i s a)
    (pmp : (s.machine i).state = .setupPmp) (stayed : (s.machine i).prevState = some .setupPmp →
      s.Registered i) : a.Registered i := by
  rcases entered.cases with ⟨stays, -⟩ | ⟨-, b, c, -, came, rfl⟩
  · rw [pmp] at stays
    exact entered.registered_mono (stayed stays)
  · rw [pmp] at came
    exact ((registerHarts_eq_ok came).registered_iff i).mpr (.inl rfl)

/-- The callbacks of a change of state leave the bus alone, unless the machine leaves
`BOOT_OPENSBI_INIT`. -/
theorem Entered.ipiData {a : State} (entered : Entered cfg inputs i s a)
    (other : (s.machine i).prevState ≠ some .opensbiInit) : a.ipiData = s.ipiData := by
  have started : ((bootService i).start inputs.lastEntry s).ipiData = s.ipiData := by
    unfold MachineOf.start
    split <;> rfl
  have entry : ∀ {state : BootState} {u v : State},
      runCallback (bootStateDescs cfg inputs i state).onEntry u = .ok v → v.ipiData = u.ipiData := by
    intro state u v done
    cases state with
    | setupPmp => exact (registerHarts_eq_ok done).ipiData
    | zeroInitChunks =>
      rw [bootZeroInitChunksOnEntry_eq_ok done]
      rfl
    | downloadChunks => rcases bootDownloadChunksOnEntry_cases done with ⟨-, rfl⟩ | ⟨-, rfl⟩ <;> rfl
    | opensbiInit =>
      rw [bootOpensbiInitOnEntry_eq_ok done]
      split <;> rfl
    | _ =>
      cases done
      rfl
  rcases entered.cases with ⟨-, rfl⟩ | ⟨-, b, c, left, came, rfl⟩
  · exact started
  · refine (entry came).trans ?_
    cases prev : (s.machine i).prevState with
    | none =>
      rw [prev] at left
      cases left
      exact started
    | some last =>
      rw [prev] at left other
      rcases onExit_messages left with ⟨-, registers⟩ | ⟨rfl, -⟩ | rfl
      · exact registers.ipiData.trans started
      · exact absurd rfl other
      · exact started

/-- Entering `BOOT_OPENSBI_INIT` begins the walk of the peers, and touches no message unless the
machine comes from `BOOT_DOWNLOAD_CHUNKS`, which registers its harts. -/
theorem Entered.opensbiInit {a : State} (entered : Entered cfg inputs i s a)
    (state : (s.machine i).state = .opensbiInit) (entry : s.entryPoint i ≠ 0) :
    (a.localData i).iterator =
        (if (s.machine i).prevState = some .opensbiInit then (s.localData i).iterator else 0) ∧
      ((s.machine i).prevState ≠ some .downloadChunks → SameMessages s a) ∧
      ((s.machine i).prevState = some .downloadChunks →
        a.Registered i ∧ ∀ cell, a.holds cfg i cell = false) := by
  have started := SameMessages.start inputs.lastEntry s i
  have image := (SameTables.start inputs.lastEntry s i).toSameImage
  rcases entered.cases with ⟨stays, rfl⟩ | ⟨leaves, b, c, left, came, rfl⟩
  · rw [state] at stays
    rw [if_pos stays, stays]
    refine ⟨?_, fun _ => started, nofun⟩
    unfold MachineOf.start
    split <;> rfl
  · rw [state] at leaves came
    rw [if_neg leaves]
    have same : SameImage s b := by
      cases prev : (s.machine i).prevState with
      | none =>
        rw [prev] at left
        cases left
        exact image
      | some last =>
        rw [prev] at left
        exact image.trans (SameLoading.onExit left).toSameImage
    have began : c = b.setLocal i { b.localData i with iterator := 0 } := by
      have after := bootOpensbiInitOnEntry_eq_ok came
      rwa [if_pos (by rwa [same.entryPoint])] at after
    have kept : SameMessages b c := by
      rw [began]
      exact .of_eq (State.index_setLocal _ _ _ (by funext cell; cases cell <;> rfl)) rfl rfl
    have marked : SameMessages b (c.setMachine i { c.machine i with
        executionCount := 0, prevState := some (c.machine i).state }) :=
      kept.trans (.of_eq rfl rfl rfl)
    refine ⟨by rw [began]; simp, fun other => ?_, fun prev => ?_⟩
    · cases prev : (s.machine i).prevState with
      | none =>
        rw [prev] at left
        cases left
        exact started.trans marked
      | some last =>
        rw [prev] at left leaves other
        rcases onExit_messages left with ⟨rfl, -⟩ | ⟨rfl, -⟩ | rfl
        · exact absurd rfl other
        · exact absurd rfl leaves
        · exact started.trans marked
    · rw [prev] at left
      have registers := registerHarts_eq_ok left
      refine ⟨(marked.registered i).mpr ((registers.registered_iff i).mpr (.inl rfl)), fun cell => ?_⟩
      rw [State.holds, marked.index, registers.index_eq, if_pos rfl]
      exact decide_eq_false (not_not.mpr rfl)

theorem RunCond.handler {a : State} (cond : RunCond cfg inputs i s) (control : SlotControl i s)
    (entered : Entered cfg inputs i s a) : HandlerCond cfg inputs i (s.machine i).state a := by
  have image := entered.image
  refine ⟨fun pmp => ?_, fun complete => ?_, fun wait entry => ?_, fun opensbi peer starts => ?_⟩
  · have elsewhere : (s.machine i).prevState ≠ some .opensbiInit := by
      intro prev
      have reached := control.left prev
      rw [pmp] at reached
      exact absurd reached (by decide)
    rw [entered.ipiData elsewhere]
    exact ⟨entered.registered_of_pmp pmp control.pmp, cond.pmp pmp⟩
  · exact entered.registered_mono (control.complete complete)
  · rw [image.entryPoint] at entry
    rcases control.wait wait with registered | prev
    · exact entered.registered_mono registered
    · exact entered.registered_mono (cond.own ⟨prev, by rw [wait]; decide, entry⟩).1
  · obtain ⟨primary, next, ne, same⟩ := starts
    rw [image.primaryBootHart] at primary
    rw [image.entryPoint, image.entryPoint] at same
    have entry : s.entryPoint i ≠ 0 := by
      have both := primary
      simp only [State.primaryBootHart, Bool.and_eq_true, decide_eq_true_eq] at both
      exact both.2
    obtain ⟨iterator, others, registers⟩ := entered.opensbiInit opensbi entry
    rw [iterator] at next
    by_cases prev : (s.machine i).prevState = some .downloadChunks
    · obtain ⟨registered, empty⟩ := registers prev
      exact ⟨registered, empty _⟩
    · have kept := others prev
      have room := (cond.next peer ⟨opensbi, primary, next, ne, same⟩).resolve_left prev
      exact ⟨(kept.registered i).mpr room.1, by rw [State.holds, kept.index]; exact room.2⟩

/-! ### Runs of machines -/

theorem bootWaitHandler_state (done : bootWaitHandler cfg inputs i s = .ok t)
    (entry : s.entryPoint i = 0) : (t.machine i).state = .complete := by
  rcases bootWaitHandler_cases done with ⟨-, rfl⟩ | ⟨ne, -⟩ | ⟨ne, -⟩
  · simp
  · exact absurd entry ne
  · exact absurd entry ne

theorem SlotControl.restarts {rproc : U54 → Prop} (control : SlotControl i s)
    (restarts : Restarts rproc s t) (registered : s.Registered i → t.Registered i) :
    SlotControl i t := by
  refine ⟨fun prev => ?_, fun prev => ?_, fun state => ?_, fun state => ?_⟩
  · rw [restarts.prevState] at prev
    rcases restarts.state i with same | first | ⟨opensbi, -⟩
    · rw [same]
      exact control.left prev
    · rw [first]
      decide
    · rw [opensbi]
      decide
  · rw [restarts.prevState] at prev
    exact registered (control.pmp prev)
  · rcases restarts.state i with same | first | ⟨opensbi, -⟩
    · exact registered (control.complete (same ▸ state))
    · rw [first] at state
      cases state
    · rw [opensbi] at state
      cases state
  · rw [restarts.prevState]
    rcases restarts.state i with same | first | ⟨opensbi, -⟩
    · exact (control.wait (same ▸ state)).imp_left registered
    · rw [first] at state
      cases state
    · rw [opensbi] at state
      cases state

theorem SlotControl.enterIdle (control : SlotControl j s) {a : State}
    (entered : Entered cfg inputs i s a) (idle : (s.machine i).state = .idle) :
    SlotControl j a := by
  have enters := entered.entersState
  by_cases h : j = i
  · subst h
    have state : (a.machine j).state = .idle ∨ (a.machine j).state = .error := by
      rcases enters.state with same | ⟨-, -, failed⟩
      · exact .inl (same.trans idle)
      · exact .inr failed
    have prev := enters.prevState
    rcases state with state | state <;> rw [state] at prev <;>
      exact ⟨by simp [prev], by simp [prev], by simp [state], by simp [state]⟩
  · exact control.of_eq (enters.other j h) entered.registered_mono

/-- The machine that is run, if it is not idle. -/
theorem SlotControl.handler (control : SlotControl i s) (cond : RunCond cfg inputs i s) {a b : State}
    (entered : Entered cfg inputs i s a) (busy : (s.machine i).state ≠ .idle)
    (handled : (bootStateDescs cfg inputs i (s.machine i).state).handler a = .ok b)
    (registered : a.Registered i → b.Registered i) : SlotControl i b := by
  have enters := entered.entersState
  have moves := Moves.handler busy handled
  have mono : s.Registered i → b.Registered i := fun before =>
    registered (entered.registered_mono before)
  have prevState : (b.machine i).prevState = some (a.machine i).state :=
    moves.prevState.trans enters.prevState
  -- the state that the handler starts from is the state before, or that of a failed start
  have before : ∀ state, (a.machine i).state = state → state ≠ .error →
      (s.machine i).state = state := by
    intro state same ok
    rcases enters.state with unchanged | ⟨-, -, failed⟩
    · exact unchanged.symm.trans same
    · exact absurd (same.symm.trans failed) ok
  have pmp : (s.machine i).state = .setupPmp → b.Registered i := fun pmp =>
    registered (entered.registered_of_pmp pmp control.pmp)
  refine ⟨fun prev => ?_, fun prev => ?_, fun state => ?_, fun state => ?_⟩
  · rw [prevState] at prev
    have opensbi := before _ (Option.some.inj prev) (by decide)
    have next := moves.state
    rw [Option.some.inj prev, opensbi] at next
    rcases next with same | next
    · rw [same]
      decide
    · revert next
      cases (b.machine i).state <;> decide
  · rw [prevState] at prev
    exact pmp (before _ (Option.some.inj prev) (by decide))
  · rcases moves.state with same | next
    · exact mono (control.complete (before _ (same.symm.trans state) (by decide)))
    · apply pmp
      rw [state] at next
      revert next
      cases (s.machine i).state <;> decide
  · rcases moves.state with same | next
    · have wait := before _ (same.symm.trans state) (by decide)
      rcases control.wait wait with registered | prev
      · exact .inl (mono registered)
      · by_cases entry : s.entryPoint i = 0
        · rw [wait] at handled
          rw [bootWaitHandler_state handled (entered.image.entryPoint i ▸ entry)] at state
          cases state
        · exact .inl (mono (cond.own ⟨prev, by rw [wait]; decide, entry⟩).1)
    · rw [state] at next
      have opensbi : (s.machine i).state = .opensbiInit := by
        revert next
        cases (s.machine i).state <;> decide
      right
      rw [prevState]
      rcases enters.state with unchanged | ⟨-, stays, -⟩
      · rw [unchanged, opensbi]
      · exact absurd opensbi stays

/-- What holds in every state of a run whose steps meet the condition. -/
structure SlotState (cfg : Config) (s : State) : Prop where
  inv : SlotInv cfg s
  control : ∀ i, SlotControl i s

/-- A run of a machine that meets the condition keeps who owns which slot, and frees no slot that is
not in use. -/
theorem SlotState.run (state : SlotState cfg s) (cond : RunCond cfg inputs i s) :
    Meets .freedMessageUsed (runBootService cfg inputs i s) (SlotState cfg) := by
  rw [runBootService_eq]
  refine (state.inv.enter (state.control i) cond).computed.bind fun a ⟨entered, inv⟩ => ?_
  have entered : Entered cfg inputs i s a := entered
  have needs := cond.handler (state.control i) entered
  refine (inv.handler needs).computed.bind fun b ⟨handled, kept⟩ => .ok ⟨?_, fun j => ?_⟩
  · exact kept.inv.same (.of_eq rfl rfl rfl)
  · suffices control : SlotControl j b by
      by_cases h : j = i
      · subst h
        refine ⟨?_, ?_, ?_, ?_⟩ <;> rw [State.setMachine_machine, Function.update_self]
        · exact control.left
        · exact control.pmp
        · exact control.complete
        · exact control.wait
      · exact control.of_eq (Function.update_of_ne h ..) id
    have registered : a.Registered j → b.Registered j := (kept.registered j).mpr
    by_cases idle : (s.machine i).state = .idle
    · rw [idle] at handled
      exact ((state.control j).enterIdle entered idle).restarts (.idle handled) registered
    · by_cases h : j = i
      · subst h
        exact (state.control j).handler cond entered idle handled registered
      · have same : b.machine j = s.machine j :=
          ((Moves.handler idle handled).other j h).trans (entered.entersState.other j h)
        exact (state.control j).of_eq same fun before => registered (entered.registered_mono before)

/-! ### Runs of the system -/

/-- The condition on a step: on a run of a machine as above, and the other harts free what they
hold.  The monitor hart allocates and frees in runs of its machines. -/
def SlotCond (cfg : Config) (s : State) : BootEvent → Prop
  | .run hart inputs => RunCond cfg inputs hart s
  | .bus (.alloc hart) => hart ≠ .e51
  | .bus (.free hart index) => hart ≠ .e51 ∧ holder s.ipiData.history index = some hart
  | _ => True

theorem SlotState.of_same (state : SlotState cfg s) (messages : SameMessages s t)
    {rproc : U54 → Prop} (restarts : Restarts rproc s t) : SlotState cfg t :=
  ⟨state.inv.same messages, fun i =>
    (state.control i).restarts restarts (messages.registered i).mpr⟩

/-- A call of another hart on the bus leaves the slots of the monitor hart alone. -/
theorem SlotInv.bus (inv : SlotInv cfg s) (keeps : ∀ hart msgType handler,
      (registry hart).handler msgType = some handler → KeepsSlots handler) {call : BusCall}
    (cond : SlotCond cfg s (.bus call)) {d : IpiData}
    (next : busNext cfg registry s.ipiData call = .ok d) : SlotInv cfg (setIpi s d) := by
  have ofSame : SameSlots s.ipiData d → SlotInv cfg (setIpi s d) := fun same =>
    inv.same ⟨rfl, same, fun _ => Iff.rfl⟩
  have ofOther : Tracks d → FreesHeld d.history → (∀ k, holder d.history k = some .e51 ↔
      holder s.ipiData.history k = some .e51) → SlotInv cfg (setIpi s d) := by
    intro tracks frees others
    have out : (setIpi s d).slotsOut = s.slotsOut := Set.ext others
    exact ⟨tracks, frees, by rw [out]; exact inv.owns, inv.stale⟩
  cases call with
  | alloc hart =>
    have after : (ipiMessageAlloc cfg hart s.ipiData).1 = d := Except.ok.inj next
    have tracks := inv.tracks.alloc cfg hart
    rw [after] at tracks
    rcases taken : ipiMessageAlloc cfg hart s.ipiData with ⟨e, _ | index⟩
    · obtain ⟨same, -⟩ := ipiMessageAlloc_eq_none taken
      rw [taken] at after
      rw [← after, same]
      exact inv
    · obtain ⟨-, free, -⟩ := ipiMessageAlloc_eq_some taken
      rw [taken] at after
      subst after
      refine ofOther tracks (frees_alloc inv.frees taken) fun k => ?_
      rw [holder_alloc taken]
      split
      · next same =>
        have unheld : holder s.ipiData.history index = none := by
          have used := inv.tracks index
          rw [free] at used
          simpa using used.symm
        rw [same, unheld]
        exact iff_of_false (fun own => cond (Option.some.inj own)) nofun
      · exact Iff.rfl
  | free hart index =>
    obtain ⟨other, held⟩ := cond
    refine ofOther (inv.tracks.free next) (frees_free inv.frees held next) fun k => ?_
    rw [holder_free next]
    split
    · next same =>
      rw [same, held]
      simp [other]
    · exact Iff.rfl
  | deliver hart =>
    simp only [busNext, bind_eq_ok] at next
    obtain ⟨⟨e, sent⟩, done, next⟩ := next
    cases next
    exact ofSame (.deliver done)
  | send hart =>
    cases next
    exact ofSame .send
  | poll hart mask =>
    cases next
    exact ofSame (.poll mask)
  | consume hart source msgType =>
    simp only [busNext, bind_eq_ok] at next
    obtain ⟨⟨e, intentFound⟩, done, next⟩ := next
    cases next
    exact ofSame (.consume (fun entry => keeps hart _ _ entry) done)

/-- The other events leave the messages of the machines alone. -/
theorem bootNext_messages (other : ∀ i inputs, event ≠ .run i inputs)
    (quiet : ∀ call, event ≠ .bus call) (next : bootNext cfg registry s event = .ok t) :
    SameMessages s t := by
  have machine : ∀ hart u, SameMessages s u → SameMessages s (restartMachine hart u) :=
    fun hart u same => same.trans (.restartMachine hart u)
  have notify : ∀ u, SameMessages s u → SameMessages s (u.notify .postBoot) := fun u same =>
    same.trans (.of_eq rfl rfl rfl)
  cases event with
  | run i inputs => exact absurd rfl (other i inputs)
  | restartCore source =>
    simp only [bootNext, bind_eq_ok] at next
    obtain ⟨⟨u, result⟩, restarted, next⟩ := next
    cases next
    exact hssBootRestartCore_induction machine notify restarted (.refl s)
  | restartCores mask =>
    cases next
    exact hssBootRestartCoresUsingBitmask_induction machine notify mask (.refl s)
  | bus call => exact absurd rfl (quiet call)
  | _ =>
    cases next
    exact .of_eq rfl rfl rfl

theorem SlotState.step (state : SlotState cfg s) (keeps : ∀ hart msgType handler,
      (registry hart).handler msgType = some handler → KeepsSlots handler)
    (cond : SlotCond cfg s event) (next : bootNext cfg registry s event = .ok t) :
    SlotState cfg t := by
  by_cases runs : ∃ i inputs, event = .run i inputs
  · obtain ⟨i, inputs, rfl⟩ := runs
    exact (state.run cond).2 t next
  · have other : ∀ i inputs, event ≠ .run i inputs := fun i inputs same => runs ⟨i, inputs, same⟩
    by_cases calls : ∃ call, event = .bus call
    · obtain ⟨call, rfl⟩ := calls
      simp only [bootNext, bind_eq_ok] at next
      obtain ⟨d, called, next⟩ := next
      cases next
      exact ⟨state.inv.bus keeps cond called, fun i => (state.control i).of_eq rfl id⟩
    · exact state.of_same (bootNext_messages other (fun call same => calls ⟨call, same⟩) next)
        (bootNext_restarts other next)

theorem slotState_powerOn (cfg : Config) (mem : Mem) (pmpEntry : U54 → ℕ → PmpEntry)
    (bootInfo : Word) : SlotState cfg (powerOn cfg mem pmpEntry bootInfo) := by
  refine ⟨⟨tracks_ipiQueuesInit, trivial, ⟨fun {c k} held => ?_, fun {c d k} held => ?_, nofun⟩,
    fun _ _ _ => rfl⟩, fun i => ⟨nofun, nofun, nofun, nofun⟩⟩
  · exact absurd (State.heldSlot_eq_some.mp held).1 List.not_mem_nil
  · exact absurd (State.heldSlot_eq_some.mp held).1 List.not_mem_nil

/-- In every run whose steps meet the condition the cells of the machines that have registered own
exactly the slots that are out, the cells of all machines do if and only if all have registered, and
no run of a machine that meets the condition stops at the assertion of `IPI_MessageFree`. -/
theorem ownsSlots_iff (keeps : ∀ hart msgType handler,
      (registry hart).handler msgType = some handler → KeepsSlots handler) {mem : Mem}
    {pmpEntry : U54 → ℕ → PmpEntry} {bootInfo : Word}
    (run : Run (Under (SlotCond cfg) (bootStep cfg registry)) (powerOn cfg mem pmpEntry bootInfo)
      events s) :
    OwnsSlots cfg s.Registered s ∧
      (OwnsSlots cfg (fun _ => True) s ↔ ∀ i, s.Registered i) ∧
      ∀ i inputs, SlotCond cfg s (.run i inputs) →
        bootNext cfg registry s (.run i inputs) ≠ .error .freedMessageUsed := by
  have state : SlotState cfg s := run.invariant (slotState_powerOn ..)
    fun s event t state next => state.step keeps next.1 next.2
  exact ⟨state.inv.ownsSlots, state.inv.owns_iff, fun i inputs cond => (state.run cond).1⟩

instance (i : U54) (s : State) : Decidable (Registering i s) := inferInstanceAs (Decidable (_ ∧ _))

instance (i : U54) (s : State) : Decidable (StartsOwn i s) := inferInstanceAs (Decidable (_ ∧ _))

instance (i peer : U54) (s : State) : Decidable (StartsNext i peer s) :=
  inferInstanceAs (Decidable (_ ∧ _))

instance : Decidable (RunCond cfg inputs i s) :=
  decidable_of_iff
    ((Registering i s → s.Registered i → ∀ cell, s.holds cfg i cell = false) ∧
      ((s.machine i).state = .setupPmp →
        findAvailableSlot cfg s.ipiData (ipiCalculateQueueIndex .e51 (.u54 i)) ≠ none ∧
          raise cfg (inputs.accepts .pmpSetup) = true) ∧
      (StartsOwn i s → s.Registered i ∧ s.holds cfg i (.msgIndexAux i) = false) ∧
      ∀ peer, StartsNext i peer s → (s.machine i).prevState = some .downloadChunks ∨
        (s.Registered i ∧ s.holds cfg i (.msgIndexAux peer) = false))
    ⟨fun h => ⟨h.1, h.2.1, h.2.2.1, h.2.2.2⟩, fun h => ⟨h.register, h.pmp, h.own, h.next⟩⟩

instance (cfg : Config) (s : State) : ∀ event, Decidable (SlotCond cfg s event)
  | .run _ _ => inferInstanceAs (Decidable (RunCond ..))
  | .bus (.alloc _) => inferInstanceAs (Decidable (_ ≠ _))
  | .bus (.free _ _) => inferInstanceAs (Decidable (_ ∧ _))
  | .bus (.deliver ..) | .bus (.send ..) | .bus (.poll ..) | .bus (.consume ..) =>
    inferInstanceAs (Decidable True)
  | .restartCore _ | .restartCores _ | .registerBootImage _ | .notify _ | .store _ _ =>
    inferInstanceAs (Decidable True)

/-- The first machine boots up to the wait for its harts. -/
def bootToWait : List BootEvent := setupPmpEvents .u54_1 ++ List.replicate 9 (.run .u54_1 tick)

theorem ownsSlots_iff_bootToWait : ∃ s,
    Run (Under (SlotCond .icicleKitEs) (bootStep .icicleKitEs fun _ => .bare ..)) threeHartsPowerOn
      (threeHartsEvents ++ bootToWait) s ∧ (s.machine .u54_1).state = .wait ∧
    OwnsSlots .icicleKitEs s.Registered s ∧
    (OwnsSlots .icicleKitEs (fun _ => True) s ↔ ∀ i, s.Registered i) ∧
    ∀ i inputs, SlotCond .icicleKitEs s (.run i inputs) →
      bootNext .icicleKitEs (fun _ => .bare ..) s (.run i inputs) ≠ .error .freedMessageUsed := by
  have start : Run (Under (SlotCond .icicleKitEs) (bootStep .icicleKitEs fun _ => .bare ..))
      threeHartsPowerOn threeHartsEvents threeHartsStart := by
    refine threeHartsStart_run.under _ fun event member s => ?_
    simp only [threeHartsEvents, List.mem_cons, List.not_mem_nil, or_false] at member
    rcases member with rfl | rfl | rfl | rfl <;> trivial
  obtain ⟨s, run, wait⟩ := exists_run
    (fun s event => if SlotCond .icicleKitEs s event then
      bootNext .icicleKitEs (fun _ => .bare ..) s event else .error .rprocTargetInRange)
    threeHartsStart bootToWait (P := fun s => (s.machine .u54_1).state = .wait) (by decide +kernel)
  have whole := start.trans (under_of_guard run)
  exact ⟨s, whole, wait, ownsSlots_iff (fun _ => bare_keepsSlots) whole⟩

/-- The queue to the first hart is full when its memory protection is set up: the message is freed,
its index stays in the machine's data, and the timeout frees it again. -/
theorem freed_slot_held :
    ∃ s, Run (bootStep .icicleKitEs fun _ => .bare ..) threeHartsPowerOn
        (threeHartsEvents ++
          (List.replicate 4 (.bus (.send .e51 (.u54 .u54_1) ⟨.continue, 0, 0, 0, 0⟩ true)) ++
            [.run .u54_1 tick, .run .u54_1 tick, .run .u54_1 tick])) s ∧
      s.Registered .u54_1 ∧
      (∀ counted : U54 → Prop, counted .u54_1 → ¬ OwnsSlots .icicleKitEs counted s) ∧
      bootNext .icicleKitEs (fun _ => .bare ..) s
        (.run .u54_1 ⟨0, 0x100000000, 0x100000000, fun _ => true⟩) = .error .freedMessageUsed := by
  obtain ⟨s, run, registered, holds, unused, stops⟩ := exists_run
    (bootNext .icicleKitEs fun _ => .bare ..) threeHartsStart
    (List.replicate 4 (.bus (.send .e51 (.u54 .u54_1) ⟨.continue, 0, 0, 0, 0⟩ true)) ++
      [.run .u54_1 tick, .run .u54_1 tick, .run .u54_1 tick])
    (P := fun s => s.Registered .u54_1 ∧ s.holds .icicleKitEs .u54_1 .msgIndex = true ∧
      (s.ipiData.completes (s.index .u54_1 .msgIndex)).used = false ∧
      (match bootNext .icicleKitEs (fun _ => .bare ..) s
          (.run .u54_1 ⟨0, 0x100000000, 0x100000000, fun _ => true⟩) with
        | .error .freedMessageUsed => true
        | _ => false) = true)
    (by decide +kernel)
  refine ⟨s, threeHartsStart_run.trans run, registered, fun counted first owns => ?_, ?_⟩
  · rw [owns.used .u54_1 .msgIndex first holds] at unused
    cases unused
  split at stops
  · next same => exact same
  · cases stops

end Hss
