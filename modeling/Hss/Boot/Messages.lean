import Hss.Boot.Callbacks
import Hss.Ipi.Slots

/-! The messages that boot machines hold: which callbacks touch them, and the range of the indices
that the machines keep. -/

namespace Hss

open Runs

/-- The machine of `i` has registered its harts, which marks its cells as empty. -/
def State.Registered (s : State) (i : U54) : Prop := .registered i ∈ s.history

instance (s : State) (i : U54) : Decidable (s.Registered i) :=
  inferInstanceAs (Decidable (_ ∈ _))

/-- The machine of `i` holds a message in `cell`. -/
def State.holds (cfg : Config) (s : State) (i : U54) (cell : MsgCell) : Bool :=
  s.index i cell ≠ cfg.maxNumOutstandingCompletes

/-- The machines hold the same messages, and the same completion slots are in use. -/
structure SameMessages (s t : State) : Prop where
  index : t.index = s.index
  slots : SameSlots s.ipiData t.ipiData
  registered : ∀ i, t.Registered i ↔ s.Registered i

variable {cfg : Config} {inputs : Inputs} {registry : HartId → IpiRegistry cfg IpiData}
  {i : U54} {event : BootEvent} {events : List BootEvent} {s t : State}

theorem SameMessages.refl (s : State) : SameMessages s s :=
  ⟨rfl, .of_eq rfl rfl, fun _ => Iff.rfl⟩

theorem SameMessages.trans {u : State} (h : SameMessages s t) (h' : SameMessages t u) :
    SameMessages s u :=
  ⟨h'.index.trans h.index, h.slots.trans h'.slots, fun i => (h'.registered i).trans (h.registered i)⟩

theorem SameMessages.of_eq (index : t.index = s.index) (ipiData : t.ipiData = s.ipiData)
    (history : t.history = s.history) : SameMessages s t :=
  ⟨index, .of_eq (by rw [ipiData]) (by rw [ipiData]),
    fun i => by rw [State.Registered, State.Registered, history]⟩

theorem SameMessages.record (s : State) {r : BootRecord} (other : ∀ i, r ≠ .registered i) :
    SameMessages s (s.record r) := by
  refine ⟨rfl, .of_eq rfl rfl, fun i => ?_⟩
  simp only [State.Registered, State.record_history, List.mem_cons, or_iff_right_iff_imp]
  exact fun same => absurd same.symm (other i)

theorem SameMessages.restartMachine (i : U54) (s : State) : SameMessages s (restartMachine i s) := by
  unfold Hss.restartMachine
  split
  · exact .refl s
  · refine .trans (t := s.goto i .initialization) (.of_eq rfl rfl rfl) (.record _ ?_)
    exact fun _ => BootRecord.noConfusion

theorem SameMessages.nextSlice (i : U54) (size : Word) (s : State) :
    SameMessages s (nextSlice i size s) := .of_eq (State.index_setWalk ..) rfl rfl

theorem SameMessages.noteAncilliaryData (i : U54) (chunk : ChunkDesc) (s : State) :
    SameMessages s (noteAncilliaryData i chunk s) := by
  unfold Hss.noteAncilliaryData
  split
  · exact .of_eq (State.index_setLocal _ _ _ (by funext cell; cases cell <;> rfl)) rfl rfl
  · exact .refl s

theorem SameMessages.idle (done : bootIdleHandler cfg inputs i s = .ok t) : SameMessages s t := by
  refine bootIdleHandler_induction (P := SameMessages s) ?_ ?_ ?_ ?_ ?_ done (.refl s)
  · exact fun hart u same => same.trans (.restartMachine hart u)
  · exact fun u same => same.trans (.of_eq rfl rfl rfl)
  · exact fun j => ⟨rfl, .take, fun _ => Iff.rfl⟩
  · exact fun j hart _ => ⟨rfl, .take, fun _ => Iff.rfl⟩
  · exact fun j u same => same.trans ⟨rfl, .of_eq rfl rfl, fun _ => Iff.rfl⟩

theorem SameMessages.download (done : bootDownloadChunksHandler i s = .ok t) :
    SameMessages s t := by
  have loaded : ∀ u : State, SameMessages u (u.record (.loaded i)) := fun u =>
    .record u fun _ => BootRecord.noConfusion
  rcases bootDownloadChunksHandler_cases done with ⟨-, rfl⟩ | ⟨-, -, rfl⟩ | ⟨-, -, rfl⟩ |
    ⟨-, -, -, rfl⟩ | ⟨-, -, -, -, rfl⟩
  · exact .of_eq rfl rfl rfl
  · exact .trans (loaded s) (.of_eq rfl rfl rfl)
  · exact .trans (.trans (.of_eq rfl rfl rfl) (loaded _)) (.of_eq rfl rfl rfl)
  · exact .of_eq (State.index_setWalk ..) rfl rfl
  · refine .trans (.trans ?_ (.noteAncilliaryData ..)) (.nextSlice ..)
    exact .of_eq rfl rfl rfl

theorem SameMessages.zeroInit (done : bootZeroInitChunksHandler cfg i s = .ok t) :
    SameMessages s t := by
  rcases bootZeroInitChunksHandler_cases done with ⟨-, rfl⟩ | ⟨-, -, rfl⟩ | ⟨-, -, rfl⟩ |
    ⟨-, -, rfl⟩
  · exact .of_eq rfl rfl rfl
  · exact .of_eq (State.index_setWalk ..) rfl rfl
  · exact .of_eq rfl rfl rfl
  · exact .of_eq (State.index_setWalk ..) rfl rfl

/-- The states whose handlers send messages or look for their acknowledgements. -/
def BootState.messaging : BootState → Bool
  | .setupPmp | .setupPmpComplete | .opensbiInit | .wait => true
  | _ => false

theorem SameMessages.handler {state : BootState} (quiet : state.messaging = false)
    (done : (bootStateDescs cfg inputs i state).handler s = .ok t) : SameMessages s t := by
  cases state with
  | initialization =>
    rcases bootInitHandler_cases done with rfl | rfl | rfl <;> exact .of_eq rfl rfl rfl
  | zeroInitChunks => exact .zeroInit done
  | downloadChunks => exact .download done
  | complete => rcases bootCompleteHandler_cases done with rfl | rfl <;> exact .of_eq rfl rfl rfl
  | idle => exact .idle done
  | error =>
    cases done
    exact .of_eq rfl rfl rfl
  | _ => cases quiet

/-- The entry callback of `BOOT_SETUP_PMP` registers the harts; the others touch no message. -/
theorem onEntry_messages {state : BootState}
    (done : runCallback (bootStateDescs cfg inputs i state).onEntry s = .ok t) :
    (state = .setupPmp ∧ Registers cfg i s t) ∨ (state ≠ .setupPmp ∧ SameMessages s t) := by
  cases state with
  | setupPmp => exact .inl ⟨rfl, registerHarts_eq_ok done⟩
  | zeroInitChunks =>
    rw [bootZeroInitChunksOnEntry_eq_ok done]
    exact .inr ⟨nofun, .of_eq (State.index_setWalk ..) rfl rfl⟩
  | downloadChunks =>
    rcases bootDownloadChunksOnEntry_cases done with ⟨-, rfl⟩ | ⟨-, rfl⟩
    · exact .inr ⟨nofun, .refl _⟩
    · exact .inr ⟨nofun, .of_eq (State.index_setWalk ..) rfl rfl⟩
  | opensbiInit =>
    rw [bootOpensbiInitOnEntry_eq_ok done]
    split
    · exact .inr ⟨nofun,
        .of_eq (State.index_setLocal _ _ _ (by funext cell; cases cell <;> rfl)) rfl rfl⟩
    · exact .inr ⟨nofun, .refl _⟩
  | complete =>
    cases done
    exact .inr ⟨nofun, .of_eq rfl rfl rfl⟩
  | _ =>
    cases done
    exact .inr ⟨nofun, .refl _⟩

/-- The exit callback of `BOOT_DOWNLOAD_CHUNKS` registers the harts, that of `BOOT_OPENSBI_INIT`
starts the hart of the machine, and there are no others. -/
theorem onExit_messages {state : BootState}
    (done : runCallback (bootStateDescs cfg inputs i state).onExit s = .ok t) :
    (state = .downloadChunks ∧ Registers cfg i s t) ∨
      (state = .opensbiInit ∧ s.entryPoint i ≠ 0 ∧
        commonBootMessageDelivery cfg inputs i i s = .ok t) ∨ t = s := by
  cases state with
  | downloadChunks => exact .inl ⟨rfl, registerHarts_eq_ok done⟩
  | opensbiInit =>
    rcases bootOpensbiInitOnExit_cases done with ⟨-, rfl⟩ | ⟨entry, sent⟩
    · exact .inr (.inr rfl)
    · exact .inr (.inl ⟨rfl, entry, sent⟩)
  | _ =>
    cases done
    exact .inr (.inr rfl)

theorem Registers.index_eq (registers : Registers cfg i s t) (j : U54) (cell : MsgCell) :
    t.index j cell = if j = i then cfg.maxNumOutstandingCompletes else s.index j cell := by
  obtain ⟨l, ledger, ids, rfl, -, -, -, index⟩ := registers
  unfold State.index
  by_cases h : j = i
  · rw [if_pos h, h]
    simp only [Function.update_self, index]
  · rw [if_neg h]
    simp only [Function.update_of_ne h]

/-! ### The range of the indices -/

/-- Every index that a machine keeps is one of a completion slot or the mark of no message. -/
def InRange (cfg : Config) (s : State) : Prop :=
  ∀ i cell, s.index i cell ≤ cfg.maxNumOutstandingCompletes

theorem InRange.setIndex (inRange : InRange cfg s) {cell : MsgCell} {index : ℕ}
    (bound : index ≤ cfg.maxNumOutstandingCompletes) : InRange cfg (s.setIndex i cell index) := by
  intro j c
  rw [State.index_setIndex]
  split
  · by_cases h : c = cell
    · rw [h, Function.update_self]
      exact bound
    · rw [Function.update_of_ne h]
      exact inRange i c
  · exact inRange j c

theorem InRange.of_eq (inRange : InRange cfg s) (index : t.index = s.index) : InRange cfg t :=
  fun i cell => by rw [index]; exact inRange i cell

theorem InRange.free (inRange : InRange cfg s) {cell : MsgCell}
    (done : freeCell cfg i cell s = .ok t) : InRange cfg t := by
  rcases freeCell_cases done with ⟨-, rfl⟩ | ⟨-, d, -, rfl⟩
  · exact inRange
  · exact (inRange.of_eq (t := setIpi s d) rfl).setIndex (Nat.le_refl _)

theorem InRange.delivery (inRange : InRange cfg s) {peer : U54}
    (done : commonBootMessageDelivery cfg inputs i peer s = .ok t) : InRange cfg t := by
  obtain ⟨index, d, e, sent, taken, -, rfl⟩ := commonBootMessageDelivery_cases done
  have bound := (ipiMessageAlloc_eq_some taken).1.le
  split <;> exact inRange.setIndex bound

theorem InRange.registers (inRange : InRange cfg s) (done : Registers cfg i s t) :
    InRange cfg t := by
  intro j cell
  rw [done.index_eq]
  split
  · exact Nat.le_refl _
  · exact inRange j cell

theorem InRange.handler (inRange : InRange cfg s) {state : BootState}
    (done : (bootStateDescs cfg inputs i state).handler s = .ok t) : InRange cfg t := by
  have free : ∀ cell s t, InRange cfg s → freeCell cfg i cell s = .ok t → InRange cfg t :=
    fun cell s t inRange => inRange.free
  by_cases quiet : state.messaging = false
  · exact inRange.of_eq (SameMessages.handler quiet done).index
  · cases state with
    | setupPmp =>
      rcases bootSetupPmpHandler_cases done with ⟨-, rfl⟩ | ⟨-, u, result, request, rfl⟩
      · exact inRange
      · obtain ⟨index, d, e, taken, -, f, -, rfl⟩ := hssBootPmpSetupRequest_cases request
        have bound := (ipiMessageAlloc_eq_some taken).1.le
        split <;> exact inRange.setIndex bound
    | setupPmpComplete =>
      rcases bootSetupPmpCompleteHandler_cases done with ⟨u, freed, rfl⟩ | ⟨u, result, checked, rfl⟩
      · have kept : InRange cfg u := freeAll_induction free freed inRange
        exact kept
      · have kept : InRange cfg u := checkForIpiAcks_induction free checked inRange
        split <;> exact kept
    | opensbiInit =>
      rcases bootOpensbiInitHandler_cases done with ⟨-, rfl⟩ | ⟨-, -, rfl⟩ | ⟨-, peer, u, -, sent, rfl⟩
      · exact inRange
      · exact inRange
      · have kept : InRange cfg u := by
          unfold runIf at sent
          split at sent
          · exact inRange.delivery sent
          · cases sent
            exact inRange
        exact kept.of_eq (State.index_setLocal _ _ _ (by funext cell; cases cell <;> rfl))
    | wait =>
      have started : InRange cfg (s.setMachine i { s.machine i with startTime := inputs.time }) :=
        inRange
      rcases bootWaitHandler_cases done with ⟨-, rfl⟩ | ⟨-, v, freed, rfl⟩ |
        ⟨-, v, result, checked, after⟩
      · exact inRange
      · have kept : InRange cfg v := freeAll_induction free freed started
        exact kept
      · have kept : InRange cfg v := checkForIpiAcks_induction free checked started
        rcases after with ⟨-, rfl⟩ | ⟨-, status, rfl⟩ <;> exact kept
    | _ => exact absurd rfl quiet

theorem InRange.onEntry (inRange : InRange cfg s) {state : BootState}
    (done : runCallback (bootStateDescs cfg inputs i state).onEntry s = .ok t) : InRange cfg t := by
  rcases onEntry_messages done with ⟨-, registers⟩ | ⟨-, same⟩
  · exact inRange.registers registers
  · exact inRange.of_eq same.index

theorem InRange.onExit (inRange : InRange cfg s) {state : BootState}
    (done : runCallback (bootStateDescs cfg inputs i state).onExit s = .ok t) : InRange cfg t := by
  rcases onExit_messages done with ⟨-, registers⟩ | ⟨-, -, sent⟩ | rfl
  · exact inRange.registers registers
  · exact inRange.delivery sent
  · exact inRange

theorem InRange.entered (inRange : InRange cfg s) (done : Entered cfg inputs i s t) :
    InRange cfg t :=
  done.induction (fun _ _ h => h) (fun _ _ _ h => h.onExit) (fun _ _ _ h => h.onEntry) inRange

theorem bootNext_index (other : ∀ i inputs, event ≠ .run i inputs)
    (next : bootNext cfg registry s event = .ok t) : t.index = s.index := by
  have machine : ∀ hart u, u.index = s.index → (restartMachine hart u).index = s.index :=
    fun hart u same => (SameMessages.restartMachine hart u).index.trans same
  cases event with
  | run i inputs => exact absurd rfl (other i inputs)
  | restartCore source =>
    simp only [bootNext, bind_eq_ok] at next
    obtain ⟨⟨u, result⟩, restarted, next⟩ := next
    cases next
    exact hssBootRestartCore_induction machine (fun _ same => same) restarted rfl
  | restartCores mask =>
    cases next
    exact hssBootRestartCoresUsingBitmask_induction (P := fun u => u.index = s.index) machine
      (fun _ same => same) mask rfl
  | bus call =>
    simp only [bootNext, bind_eq_ok] at next
    obtain ⟨d, -, next⟩ := next
    cases next
    rfl
  | _ =>
    cases next
    rfl

theorem InRange.run {mem : Mem} {pmpEntry : U54 → ℕ → PmpEntry} {bootInfo : Word}
    (run : Run (bootStep cfg registry) (powerOn cfg mem pmpEntry bootInfo) events s) :
    InRange cfg s := by
  refine run.invariant ?_ fun s event t inRange next => ?_
  · intro i cell
    cases cell with
    | msgIndex => exact Nat.le_refl _
    | msgIndexAux peer => exact Nat.zero_le _
  · by_cases other : ∀ i inputs, event ≠ .run i inputs
    · exact inRange.of_eq (bootNext_index other next)
    · push Not at other
      obtain ⟨i, inputs, rfl⟩ := other
      exact runBootService_induction (fun _ _ h => h) (fun _ _ _ h => h.onExit)
        (fun _ _ _ h => h.onEntry) (fun _ _ _ h => h.handler) next inRange

end Hss
