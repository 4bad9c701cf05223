import Hss.Boot.Tables

/-! Which steps touch the memory, the image, the walks of its tables and the tables of the harts: the handlers that load, the
entry callbacks that start a walk, and what comes from outside. -/

namespace Hss

open Runs

/-- The memory, the image, the memory protection and the record of accesses are the same. -/
structure SameImage (s t : State) : Prop where
  mem : t.mem = s.mem
  pBootImage : t.pBootImage = s.pBootImage
  pmpEntry : t.pmpEntry = s.pmpEntry
  accesses : t.accesses = s.accesses

/-- The walks of the machines are the same as well. -/
structure SameLoading (s t : State) : Prop extends SameImage s t where
  walk : ∀ j, (t.localData j).toChunkWalk = (s.localData j).toChunkWalk

/-- What the harts are registered in is the same as well. -/
structure SameTables (s t : State) : Prop extends SameLoading s t where
  tables : t.tables = s.tables

/-- The states whose handlers read the tables and write the memory. -/
def BootState.loading : BootState → Bool
  | .zeroInitChunks | .downloadChunks => true
  | _ => false

variable {cfg : Config} {inputs : Inputs} {i j peer : U54} {cell : MsgCell} {s t u : State}

theorem SameImage.refl (s : State) : SameImage s s := ⟨rfl, rfl, rfl, rfl⟩

theorem SameImage.trans (h : SameImage s t) (h' : SameImage t u) : SameImage s u :=
  ⟨h'.mem.trans h.mem, h'.pBootImage.trans h.pBootImage, h'.pmpEntry.trans h.pmpEntry,
    h'.accesses.trans h.accesses⟩

theorem SameImage.entryPoint (same : SameImage s t) (j : U54) : t.entryPoint j = s.entryPoint j := by
  rw [State.entryPoint, State.entryPoint, same.mem, same.pBootImage]

theorem SameImage.numChunks (same : SameImage s t) (j : U54) : t.numChunks j = s.numChunks j := by
  rw [State.numChunks, State.numChunks, same.mem, same.pBootImage]

theorem SameImage.primaryBootHart (same : SameImage s t) (j : U54) :
    t.primaryBootHart j = s.primaryBootHart j := by
  rw [State.primaryBootHart, State.primaryBootHart, same.entryPoint, same.numChunks]

theorem SameLoading.refl (s : State) : SameLoading s s := ⟨.refl s, fun _ => rfl⟩

theorem SameLoading.trans (h : SameLoading s t) (h' : SameLoading t u) : SameLoading s u :=
  ⟨h.toSameImage.trans h'.toSameImage, fun j => (h'.walk j).trans (h.walk j)⟩

theorem SameLoading.setLocal {l : LocalData} (walk : l.toChunkWalk = (s.localData i).toChunkWalk) :
    SameLoading s (s.setLocal i l) := by
  refine ⟨⟨rfl, rfl, rfl, rfl⟩, fun j => ?_⟩
  rw [State.setLocal_localData]
  by_cases h : j = i
  · rw [h, Function.update_self, walk]
  · rw [Function.update_of_ne h]

theorem SameTables.refl (s : State) : SameTables s s := ⟨.refl s, rfl⟩

theorem SameTables.trans (h : SameTables s t) (h' : SameTables t u) : SameTables s u :=
  ⟨h.toSameLoading.trans h'.toSameLoading, h'.tables.trans h.tables⟩

theorem SameTables.setIndex (i : U54) (cell : MsgCell) (index : ℕ) :
    SameTables s (s.setIndex i cell index) :=
  ⟨.setLocal (LocalData.setIndex_toChunkWalk ..), State.setIndex_tables ..⟩

theorem SameTables.setIterator (i : U54) (iterator : ℕ) :
    SameTables s (s.setLocal i { s.localData i with iterator }) := by
  refine ⟨.setLocal rfl, ?_⟩
  rw [State.setLocal_tables]
  exact congrArg₂ (Tables.mk · · _ _) (Function.update_eq_self ..) (Function.update_eq_self ..)

theorem SameTables.free (done : freeCell cfg i cell s = .ok t) : SameTables s t := by
  rcases freeCell_cases done with ⟨-, rfl⟩ | ⟨-, d, -, rfl⟩
  · exact .refl _
  · exact .trans (t := setIpi s d) ⟨⟨⟨rfl, rfl, rfl, rfl⟩, fun _ => rfl⟩, rfl⟩ (.setIndex ..)

theorem SameTables.freeAll (done : freeAll cfg i s = .ok t) : SameTables s t :=
  freeAll_induction (P := SameTables s) (fun _ _ _ same freed => same.trans (.free freed)) done
    (.refl s)

theorem SameTables.checkForIpiAcks {result : Bool}
    (done : checkForIpiAcks cfg i s = .ok (t, result)) : SameTables s t :=
  checkForIpiAcks_induction (P := SameTables s) (fun _ _ _ same freed => same.trans (.free freed))
    done (.refl s)

theorem SameTables.delivery (done : commonBootMessageDelivery cfg inputs i peer s = .ok t) :
    SameTables s t := by
  obtain ⟨index, d, e, sent, -, -, rfl⟩ := commonBootMessageDelivery_cases done
  refine .trans (SameTables.setIndex i (.msgIndexAux peer) index) ?_
  split <;> exact ⟨⟨⟨rfl, rfl, rfl, rfl⟩, fun _ => rfl⟩, rfl⟩

theorem SameTables.restartMachine (i : U54) (s : State) : SameTables s (restartMachine i s) := by
  unfold Hss.restartMachine
  split <;> exact ⟨⟨⟨rfl, rfl, rfl, rfl⟩, fun _ => rfl⟩, rfl⟩

theorem SameTables.start (now : Word) (s : State) (i : U54) :
    SameTables s ((bootService i).start now s) := by
  unfold MachineOf.start
  split <;> exact ⟨⟨⟨rfl, rfl, rfl, rfl⟩, fun _ => rfl⟩, rfl⟩

theorem SameTables.idle (done : bootIdleHandler cfg inputs i s = .ok t) : SameTables s t := by
  refine bootIdleHandler_induction (P := SameTables s) ?_ ?_ ?_ ?_ ?_ done (.refl s)
  · exact fun hart u same => same.trans (.restartMachine hart u)
  · exact fun u same => same.trans ⟨⟨⟨rfl, rfl, rfl, rfl⟩, fun _ => rfl⟩, rfl⟩
  · exact fun j => ⟨⟨⟨rfl, rfl, rfl, rfl⟩, fun _ => rfl⟩, rfl⟩
  · exact fun j hart _ => ⟨⟨⟨rfl, rfl, rfl, rfl⟩, fun _ => rfl⟩, rfl⟩
  · exact fun j u same => same.trans ⟨⟨⟨rfl, rfl, rfl, rfl⟩, fun _ => rfl⟩, rfl⟩

theorem SameTables.handler {state : BootState} (quiet : state.loading = false)
    (done : (bootStateDescs cfg inputs i state).handler s = .ok t) : SameTables s t := by
  cases state with
  | initialization =>
    rcases bootInitHandler_cases done with rfl | rfl | rfl <;>
      exact ⟨⟨⟨rfl, rfl, rfl, rfl⟩, fun _ => rfl⟩, rfl⟩
  | setupPmp =>
    rcases bootSetupPmpHandler_cases done with ⟨-, rfl⟩ | ⟨-, u, result, request, rfl⟩
    · exact ⟨⟨⟨rfl, rfl, rfl, rfl⟩, fun _ => rfl⟩, rfl⟩
    · obtain ⟨index, d, e, -, -, f, -, rfl⟩ := hssBootPmpSetupRequest_cases request
      refine .trans (SameTables.setIndex i .msgIndex index) ?_
      split <;> exact ⟨⟨⟨rfl, rfl, rfl, rfl⟩, fun _ => rfl⟩, rfl⟩
  | setupPmpComplete =>
    rcases bootSetupPmpCompleteHandler_cases done with ⟨u, freed, rfl⟩ | ⟨u, result, checked, rfl⟩
    · exact .trans (.freeAll freed) ⟨⟨⟨rfl, rfl, rfl, rfl⟩, fun _ => rfl⟩, rfl⟩
    · refine .trans (.checkForIpiAcks checked) ?_
      split <;> exact ⟨⟨⟨rfl, rfl, rfl, rfl⟩, fun _ => rfl⟩, rfl⟩
  | opensbiInit =>
    rcases bootOpensbiInitHandler_cases done with ⟨-, rfl⟩ | ⟨-, -, rfl⟩ | ⟨-, peer, u, -, sent, rfl⟩
    · exact .refl _
    · exact ⟨⟨⟨rfl, rfl, rfl, rfl⟩, fun _ => rfl⟩, rfl⟩
    · refine .trans ?_ (.setIterator ..)
      unfold runIf at sent
      split at sent
      · exact .delivery sent
      · cases sent
        exact .refl _
  | wait =>
    have started : SameTables s (s.setMachine i { s.machine i with startTime := inputs.time }) :=
      ⟨⟨⟨rfl, rfl, rfl, rfl⟩, fun _ => rfl⟩, rfl⟩
    rcases bootWaitHandler_cases done with ⟨-, rfl⟩ | ⟨-, v, freed, rfl⟩ |
      ⟨-, v, result, checked, after⟩
    · exact ⟨⟨⟨rfl, rfl, rfl, rfl⟩, fun _ => rfl⟩, rfl⟩
    · exact started.trans (.trans (.freeAll freed) ⟨⟨⟨rfl, rfl, rfl, rfl⟩, fun _ => rfl⟩, rfl⟩)
    · refine started.trans (.trans (.checkForIpiAcks checked) ?_)
      rcases after with ⟨-, rfl⟩ | ⟨-, status, rfl⟩ <;> exact ⟨⟨⟨rfl, rfl, rfl, rfl⟩, fun _ => rfl⟩, rfl⟩
  | complete =>
    rcases bootCompleteHandler_cases done with rfl | rfl <;>
      exact ⟨⟨⟨rfl, rfl, rfl, rfl⟩, fun _ => rfl⟩, rfl⟩
  | idle => exact .idle done
  | error =>
    cases done
    exact ⟨⟨⟨rfl, rfl, rfl, rfl⟩, fun _ => rfl⟩, rfl⟩
  | _ => cases quiet

theorem SameLoading.registers (done : Registers cfg i s t) : SameLoading s t := by
  obtain ⟨l, ledger, ids, rfl, walk, -⟩ := done
  refine ⟨⟨rfl, rfl, rfl, rfl⟩, fun j => ?_⟩
  by_cases h : j = i
  · rw [h]
    simpa only [Function.update_self] using walk
  · simp only [Function.update_of_ne h]

theorem SameLoading.onExit {state : BootState}
    (done : runCallback (bootStateDescs cfg inputs i state).onExit s = .ok t) : SameLoading s t := by
  rcases onExit_messages done with ⟨-, registers⟩ | ⟨-, -, sent⟩ | rfl
  · exact .registers registers
  · exact (SameTables.delivery sent).toSameLoading
  · exact .refl _

theorem SameImage.onEntry {state : BootState}
    (done : runCallback (bootStateDescs cfg inputs i state).onEntry s = .ok t) : SameImage s t := by
  cases state with
  | setupPmp => exact (SameLoading.registers (registerHarts_eq_ok done)).toSameImage
  | zeroInitChunks =>
    rw [bootZeroInitChunksOnEntry_eq_ok done]
    exact ⟨rfl, rfl, rfl, rfl⟩
  | downloadChunks =>
    rcases bootDownloadChunksOnEntry_cases done with ⟨-, rfl⟩ | ⟨-, rfl⟩ <;>
      exact ⟨rfl, rfl, rfl, rfl⟩
  | opensbiInit =>
    rw [bootOpensbiInitOnEntry_eq_ok done]
    split <;> exact ⟨rfl, rfl, rfl, rfl⟩
  | _ =>
    cases done
    exact ⟨rfl, rfl, rfl, rfl⟩

theorem Entered.image {a : State} (entered : Entered cfg inputs i s a) : SameImage s a :=
  entered.induction (P := SameImage s) (fun _ _ same => same.trans ⟨rfl, rfl, rfl, rfl⟩)
    (fun _ _ _ same done => same.trans (SameLoading.onExit done).toSameImage)
    (fun _ _ _ same done => same.trans (.onEntry done)) (.refl s)

end Hss
