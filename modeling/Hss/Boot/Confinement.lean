import Hss.Boot.Memory

/-! Which bytes the loader writes: those of its zero-init chunks, which it does not check, and slices of
its chunks, of which it checks the ranges. -/

namespace Hss

open ByteMemory Runs

namespace Access

/-- The hart whose machine makes the access. -/
def hart : Access → U54
  | .readZiChunk hart _ | .readChunk hart _ | .zeroInit hart _ | .download hart _ _ _ _ => hart

def writes : Access → Set Word
  | .readZiChunk _ _ | .readChunk _ _ => ∅
  | .zeroInit _ ziChunk => span ziChunk.execAddr ziChunk.size.toNat
  | .download _ _ chunk offset len => span (chunk.execAddr + offset) len

/-- The range of the chunk, when it is the hart's and that may write there. -/
def permitted (pmpEntry : U54 → ℕ → PmpEntry) : Access → Set Word
  | .readZiChunk _ _ | .readChunk _ _ => ∅
  | .zeroInit hart ziChunk => {a | ziChunk.OwnedBy hart ∧
      hssPmpCheckWrite (pmpEntry hart) ziChunk.execAddr ziChunk.size = true ∧
      a ∈ span ziChunk.execAddr ziChunk.size.toNat}
  | .download hart _ chunk _ _ => {a | chunk.OwnedBy hart ∧
      hssPmpCheckWrite (pmpEntry hart) chunk.execAddr chunk.size = true ∧
      a ∈ span chunk.execAddr chunk.size.toNat}

instance (a : Word) (access : Access) : Decidable (a ∈ access.writes) :=
  match access with
  | .readZiChunk _ _ | .readChunk _ _ => isFalse id
  | .zeroInit _ _ | .download _ _ _ _ _ => inferInstanceAs (Decidable (_ ∈ span _ _))

instance (a : Word) (pmpEntry : U54 → ℕ → PmpEntry) (access : Access) :
    Decidable (a ∈ access.permitted pmpEntry) :=
  match access with
  | .readZiChunk _ _ | .readChunk _ _ => isFalse id
  | .zeroInit _ _ | .download _ _ _ _ _ =>
    inferInstanceAs (Decidable (_ ∧ _ = true ∧ _ ∈ span _ _))

end Access

namespace State

/-- Each byte that was written is in the range of a chunk or zero-init chunk of the machine's hart
that may be written. -/
def Confined (s : State) : Prop :=
  ∀ access ∈ s.accesses, ∀ a ∈ access.writes, ∃ other ∈ s.accesses,
    other.hart = access.hart ∧ a ∈ other.permitted s.pmpEntry

/-- In the state that clears zero-init chunks, the machine of `i` is about to set one to zero. -/
def Clears (cfg : Config) (s : State) (i : U54) : Prop :=
  let ziChunk := ziChunkDesc s.mem (s.localData i).pZiChunk
  ziChunk.size ≠ 0 ∧ ziChunk.OwnedBy i ∧
    (hssDdrIsAddrInDdr cfg ziChunk.execAddr && !s.triggers .ddrTrained) = false

/-- In the state that downloads chunks, it is about to copy a slice of one. -/
def Copies (s : State) (i : U54) : Prop :=
  s.numChunks i ≠ 0 ∧ (s.localData i).chunkCount ≤ s.lastChunk i ∧
    let chunk := chunkDesc s.mem (s.localData i).pChunk
    chunk.size ≠ 0 ∧ chunk.OwnedBy i ∧
      hssPmpCheckWrite (s.pmpEntry i) chunk.execAddr chunk.size = true

/-- What the handler of `state` is about to write is in a range that may be written: the zero-init
chunk would pass the check, and the slice does not end behind its chunk. -/
structure WritesInside (cfg : Config) (i : U54) (state : BootState) (s : State) : Prop where
  zeroInit : state = .zeroInitChunks → s.Clears cfg i →
    let ziChunk := ziChunkDesc s.mem (s.localData i).pZiChunk
    hssPmpCheckWrite (s.pmpEntry i) ziChunk.execAddr ziChunk.size = true
  download : state = .downloadChunks → s.Copies i →
    (s.localData i).subChunkOffset.toNat + bootSubChunkSize ≤
      (chunkDesc s.mem (s.localData i).pChunk).size.toNat

instance (cfg : Config) (s : State) (i : U54) : Decidable (s.Clears cfg i) :=
  inferInstanceAs (Decidable (_ ≠ _ ∧ _ ∧ _ = _))

instance (s : State) (i : U54) : Decidable (s.Copies i) :=
  inferInstanceAs (Decidable (_ ≠ _ ∧ _ ≤ _ ∧ _ ≠ _ ∧ _ ∧ _ = _))

instance (cfg : Config) (i : U54) (state : BootState) (s : State) :
    Decidable (s.WritesInside cfg i state) :=
  decidable_of_iff (_ ∧ _) ⟨fun ⟨zeroInit, download⟩ => ⟨zeroInit, download⟩,
    fun inside => ⟨inside.zeroInit, inside.download⟩⟩

/-- A step writes in such a range, if at all: what it writes is up to the state that the handler
starts in. -/
def StaysInside (cfg : Config) (s : State) : BootEvent → Prop
  | .run i inputs => ∀ a, Entered cfg inputs i s a → a.WritesInside cfg i (s.machine i).state
  | _ => True

end State

/-- From `s` to `t` the accesses `new` were recorded, and nothing was written but by them. -/
structure Recorded (new : List Access) (s t : State) : Prop where
  accesses : t.accesses = new ++ s.accesses
  pBootImage : t.pBootImage = s.pBootImage
  pmpEntry : t.pmpEntry = s.pmpEntry
  mem : ∀ a, t.mem a ≠ s.mem a → ∃ access ∈ new, a ∈ access.writes

/-- The accesses of a handler of the machine of `i` that write. -/
inductive HandlerWrites (cfg : Config) (i : U54) (s : State) : BootState → Access → Prop
  | zeroInit (clears : s.Clears cfg i) : HandlerWrites cfg i s .zeroInitChunks
      (.zeroInit i (ziChunkDesc s.mem (s.localData i).pZiChunk))
  | download (copies : s.Copies i) : HandlerWrites cfg i s .downloadChunks
      (.download i s.pBootImage (chunkDesc s.mem (s.localData i).pChunk)
        (s.localData i).subChunkOffset bootSubChunkSize)

/-- The accesses of a handler that read a table. -/
inductive HandlerReads (i : U54) (s : State) : BootState → Access → Prop
  | ziChunk : HandlerReads i s .zeroInitChunks (.readZiChunk i (s.localData i).pZiChunk)
  | chunk (some : s.numChunks i ≠ 0) : HandlerReads i s .downloadChunks
      (.readChunk i (s.localData i).pChunk)

/-- The accesses of a handler. -/
def HandlerAccesses (cfg : Config) (i : U54) (state : BootState) (s : State) (new : List Access) :
    Prop :=
  ∀ access ∈ new, HandlerReads i s state access ∨ HandlerWrites cfg i s state access

variable {cfg : Config} {registry : HartId → IpiRegistry cfg IpiData} {inputs : Inputs} {i : U54}
  {state : BootState} {s t u : State} {events : List BootEvent} {new : List Access}
  {access : Access}

theorem SameImage.recorded (same : SameImage s t) : Recorded [] s t :=
  ⟨same.accesses, same.pBootImage, same.pmpEntry, fun a differs => absurd (congrFun same.mem a) differs⟩

theorem HandlerAccesses.nil : HandlerAccesses cfg i state s [] :=
  fun _ none => absurd none List.not_mem_nil

theorem HandlerAccesses.read (reads : HandlerReads i s state access) :
    HandlerAccesses cfg i state s [access] := by
  intro other mem
  rw [List.mem_singleton.mp mem]
  exact .inl reads

theorem HandlerAccesses.write {read : Access} (reads : HandlerReads i s state read)
    (writes : HandlerWrites cfg i s state access) :
    HandlerAccesses cfg i state s [access, read] := by
  intro other mem
  rcases List.mem_pair.mp mem with rfl | rfl
  · exact .inr writes
  · exact .inl reads

theorem HandlerReads.writes_eq (reads : HandlerReads i s state access) : access.writes = ∅ := by
  cases reads <;> rfl

/-- What a handler writes is in the range of its chunk, when it is about to write inside it. -/
theorem HandlerWrites.inside (writes : HandlerWrites cfg i s state access)
    (inside : s.WritesInside cfg i state) : access.writes ⊆ access.permitted s.pmpEntry := by
  intro a written
  cases writes with
  | zeroInit clears => exact ⟨clears.2.1, inside.zeroInit rfl clears, written⟩
  | download copies =>
    have shorter := inside.download rfl copies
    obtain ⟨-, -, -, owned, permitted⟩ := copies
    refine ⟨owned, permitted, span_offset_subset shorter ?_⟩
    rw [BitVec.ofNat_toNat, BitVec.setWidth_eq]
    exact written

/-! ### Steps -/

theorem bootZeroInitChunksHandler_recorded (done : bootZeroInitChunksHandler cfg i s = .ok t) :
    ∃ new, Recorded new s t ∧ HandlerAccesses cfg i .zeroInitChunks s new := by
  have reads {u : State} (same : SameImage (s.access (.readZiChunk i (s.localData i).pZiChunk)) u) :
      ∃ new, Recorded new s u ∧ HandlerAccesses cfg i .zeroInitChunks s new :=
    ⟨[.readZiChunk i (s.localData i).pZiChunk], ⟨same.accesses, same.pBootImage, same.pmpEntry,
      fun a differs => absurd (congrFun same.mem a) differs⟩, .read .ziChunk⟩
  simp only [bootZeroInitChunksHandler, bind_eq_ok] at done
  obtain ⟨-, -, done⟩ := done
  split at done
  · next size =>
    split at done
    · next owned =>
      split at done
      · cases done
        exact reads (.refl _)
      · next trained =>
        simp only [bind_eq_ok] at done
        obtain ⟨u, cleared, done⟩ := done
        have last := (Except.ok.inj done).symm
        rw [bootDoZeroInitChunk_eq_ok cleared] at last
        subst last
        refine ⟨[.zeroInit i (ziChunkDesc s.mem (s.localData i).pZiChunk),
          .readZiChunk i (s.localData i).pZiChunk], ⟨rfl, rfl, rfl, fun a differs => ?_⟩,
          .write .ziChunk (.zeroInit ⟨size, owned, Bool.eq_false_of_not_eq_true trained⟩)⟩
        refine ⟨_, List.mem_cons_self, ?_⟩
        by_contra outside
        exact differs (fill_of_notMem outside)
    · cases done
      exact reads ⟨rfl, rfl, rfl, rfl⟩
  · cases done
    exact reads ⟨rfl, rfl, rfl, rfl⟩

theorem noteAncilliaryData_image (i : U54) (chunk : ChunkDesc) (s : State) :
    SameImage s (noteAncilliaryData i chunk s) := by
  unfold noteAncilliaryData
  split
  · exact ⟨rfl, rfl, rfl, rfl⟩
  · exact .refl s

theorem bootDownloadChunksHandler_recorded (done : bootDownloadChunksHandler i s = .ok t) :
    ∃ new, Recorded new s t ∧ HandlerAccesses cfg i .downloadChunks s new := by
  have reads {u : State} (some : s.numChunks i ≠ 0)
      (same : SameImage (s.access (.readChunk i (s.localData i).pChunk)) u) :
      ∃ new, Recorded new s u ∧ HandlerAccesses cfg i .downloadChunks s new :=
    ⟨[.readChunk i (s.localData i).pChunk], ⟨same.accesses, same.pBootImage, same.pmpEntry,
      fun a differs => absurd (congrFun same.mem a) differs⟩, .read (.chunk some)⟩
  rcases bootDownloadChunksHandler_cases done with ⟨-, rfl⟩ | ⟨-, -, rfl⟩ | ⟨some, -, rfl⟩ |
    ⟨some, -, -, rfl⟩ | ⟨some, count, size, ⟨owned, permitted⟩, after⟩
  · exact ⟨[], SameImage.recorded ⟨rfl, rfl, rfl, rfl⟩, .nil⟩
  · exact ⟨[], SameImage.recorded ⟨rfl, rfl, rfl, rfl⟩, .nil⟩
  · exact reads some ⟨rfl, rfl, rfl, rfl⟩
  · exact reads some ⟨rfl, rfl, rfl, rfl⟩
  · have noted := noteAncilliaryData_image i (chunkDesc (copy s.mem
      ((chunkDesc s.mem (s.localData i).pChunk).execAddr + (s.localData i).subChunkOffset)
      (s.pBootImage + (chunkDesc s.mem (s.localData i).pChunk).loadAddr +
        (s.localData i).subChunkOffset) bootSubChunkSize) (s.localData i).pChunk)
    subst after
    refine ⟨[.download i s.pBootImage (chunkDesc s.mem (s.localData i).pChunk)
        (s.localData i).subChunkOffset bootSubChunkSize, .readChunk i (s.localData i).pChunk],
      ⟨(noted _).accesses, (noted _).pBootImage, (noted _).pmpEntry, fun a differs => ?_⟩,
      .write (.chunk some) (.download ⟨some, count, size, owned, permitted⟩)⟩
    refine ⟨_, List.mem_cons_self, ?_⟩
    by_contra outside
    exact differs ((congrFun (noted _).mem a).trans (copy_of_notMem outside))

/-- What a run of a machine writes is what it records, and that are the accesses of its handler. -/
theorem runBootService_recorded (done : runBootService cfg inputs i s = .ok t) :
    ∃ a new, Entered cfg inputs i s a ∧ Recorded new s t ∧
      HandlerAccesses cfg i (s.machine i).state a new := by
  obtain ⟨a, b, entered, handled, rfl⟩ := runBootService_cases done
  have image := entered.image
  obtain ⟨new, recorded, accesses⟩ : ∃ new, Recorded new a b ∧
      HandlerAccesses cfg i (s.machine i).state a new := by
    cases state : (s.machine i).state with
    | zeroInitChunks =>
      rw [state] at handled
      exact bootZeroInitChunksHandler_recorded handled
    | downloadChunks =>
      rw [state] at handled
      exact bootDownloadChunksHandler_recorded handled
    | _ =>
      have quiet : (s.machine i).state.loading = false := by rw [state]; rfl
      exact ⟨[], (SameTables.handler quiet handled).toSameImage.recorded, .nil⟩
  refine ⟨a, new, entered, ⟨?_, ?_, ?_, fun p differs => ?_⟩, accesses⟩
  · exact recorded.accesses.trans (by rw [image.accesses])
  · exact recorded.pBootImage.trans image.pBootImage
  · exact recorded.pmpEntry.trans image.pmpEntry
  · exact recorded.mem p (by rw [image.mem]; exact differs)

/-- Other events record nothing. -/
theorem bootNext_accesses {event : BootEvent} (other : ∀ i inputs, event ≠ .run i inputs)
    (next : bootNext cfg registry s event = .ok t) :
    t.accesses = s.accesses ∧ t.pmpEntry = s.pmpEntry := by
  have restarts (hart : U54) (u : State) (same : u.accesses = s.accesses ∧ u.pmpEntry = s.pmpEntry) :
      (restartMachine hart u).accesses = s.accesses ∧
        (restartMachine hart u).pmpEntry = s.pmpEntry :=
    ⟨(SameTables.restartMachine hart u).accesses.trans same.1,
      (SameTables.restartMachine hart u).pmpEntry.trans same.2⟩
  cases event with
  | run i inputs => exact absurd rfl (other i inputs)
  | restartCore source =>
    simp only [bootNext, bind_eq_ok] at next
    obtain ⟨⟨u, result⟩, restarted, next⟩ := next
    cases next
    exact hssBootRestartCore_induction (P := fun u => u.accesses = s.accesses ∧
      u.pmpEntry = s.pmpEntry) restarts (fun u same => same) restarted ⟨rfl, rfl⟩
  | restartCores mask =>
    cases next
    exact hssBootRestartCoresUsingBitmask_induction (P := fun u => u.accesses = s.accesses ∧
      u.pmpEntry = s.pmpEntry) restarts (fun u same => same) mask ⟨rfl, rfl⟩
  | registerBootImage pImage =>
    cases next
    exact ⟨rfl, rfl⟩
  | notify event =>
    cases next
    exact ⟨rfl, rfl⟩
  | bus call =>
    simp only [bootNext, bind_eq_ok] at next
    obtain ⟨d, -, next⟩ := next
    cases next
    exact ⟨rfl, rfl⟩
  | store p byte =>
    cases next
    exact ⟨rfl, rfl⟩

/-! ### Runs -/

theorem State.Confined.recorded (confined : s.Confined) (recorded : Recorded new s t)
    (inside : ∀ access ∈ new, access.writes ⊆ access.permitted s.pmpEntry) : t.Confined := by
  intro access mem a written
  rw [recorded.accesses] at mem ⊢
  rw [recorded.pmpEntry]
  rcases List.mem_append.mp mem with mem | mem
  · exact ⟨access, List.mem_append_left _ mem, rfl, inside access mem written⟩
  · obtain ⟨other, member, same, may⟩ := confined access mem a written
    exact ⟨other, List.mem_append_right _ member, same, may⟩

/-- Each step that stays inside keeps what was written confined. -/
theorem State.Confined.step (confined : s.Confined) {event : BootEvent}
    (stays : s.StaysInside cfg event) (next : bootStep cfg registry s event t) : t.Confined := by
  by_cases runs : ∃ i inputs, event = .run i inputs
  · obtain ⟨i, inputs, rfl⟩ := runs
    obtain ⟨a, new, entered, recorded, accesses⟩ := runBootService_recorded next
    refine confined.recorded recorded fun access mem => ?_
    rcases accesses access mem with reads | writes
    · rw [reads.writes_eq]
      exact Set.empty_subset _
    · rw [← entered.image.pmpEntry]
      exact writes.inside (stays a entered)
  · obtain ⟨accesses, pmpEntry⟩ :=
      bootNext_accesses (fun i inputs same => runs ⟨i, inputs, same⟩) next
    unfold State.Confined
    rw [accesses, pmpEntry]
    exact confined

/-- In a run whose steps stay inside, each byte that a machine writes is in the range of a chunk or
zero-init chunk of its hart that may be written, and a machine writes no other bytes. -/
theorem loader_confined (start : s.accesses = [])
    (run : Run (Under (State.StaysInside cfg) (bootStep cfg registry)) s events t) :
    t.Confined ∧ ∀ i inputs u, bootStep cfg registry t (.run i inputs) u →
      ∃ new, Recorded new t u := by
  constructor
  · have nothing : s.Confined := by
      intro access mem
      rw [start] at mem
      exact absurd mem List.not_mem_nil
    exact run.invariant nothing fun _ _ _ confined last => confined.step last.1 last.2
  · intro i inputs u next
    obtain ⟨-, new, -, recorded, -⟩ := runBootService_recorded next
    exact ⟨new, recorded⟩

instance {P : State → Prop} [DecidablePred P] (cfg : Config) (inputs : Inputs) (i : U54) (s : State) :
    Decidable (∀ a, Entered cfg inputs i s a → P a) :=
  match entered : enter cfg inputs i s with
  | .ok a => decidable_of_iff (P a)
    ⟨fun holds _ same => Except.ok.inj (entered.symm.trans same) ▸ holds, fun all => all a entered⟩
  | .error _ => isTrue fun _ same => by cases entered.symm.trans same

instance (cfg : Config) (s : State) (event : BootEvent) : Decidable (s.StaysInside cfg event) :=
  match event with
  | .run _ _ => inferInstanceAs (Decidable (∀ a, Entered _ _ _ _ a → _))
  | .restartCore _ | .restartCores _ | .registerBootImage _ | .notify _ | .bus _ | .store _ _ =>
    isTrue trivial

/-- The events of the first machine up to the first slice of a chunk of 257 bytes. -/
def wholeSliceEvents : List BootEvent :=
  .store 0x2019 1 :: (setupPmpEvents .u54_1 ++ List.replicate 3 (.run .u54_1 tick))

/-- The first slice of a chunk of 257 bytes is written inside it. -/
theorem loader_confined_wholeSlice :
    ∃ t, Run (bootStep .icicleKitEs fun _ => .bare ..) threeHartsStart wholeSliceEvents t ∧
      (∃ access ∈ t.accesses, (0x800000FF : Word) ∈ access.writes) ∧ t.Confined := by
  obtain ⟨t, run, written⟩ := exists_run (fun s event =>
      if s.StaysInside .icicleKitEs event then bootNext .icicleKitEs (fun _ => .bare ..) s event
      else .error .bootImageNotNull)
    threeHartsStart wholeSliceEvents
    (P := fun t => ∃ access ∈ t.accesses, (0x800000FF : Word) ∈ access.writes) (by decide +kernel)
  have inside := under_of_guard run
  have start : threeHartsStart.accesses = [] := by decide +kernel
  exact ⟨t, inside.forget, written, (loader_confined start inside).1⟩

/-- The slice of a chunk of one byte is of 256 bytes: what is behind the chunk is written too. -/
theorem loader_writes_behind_chunk :
    ∃ t, Run (bootStep .icicleKitEs fun _ => .bare ..) threeHartsPowerOn
      (threeHartsEvents ++ (setupPmpEvents .u54_1 ++ List.replicate 3 (.run .u54_1 tick))) t ∧
      ¬ t.Confined := by
  obtain ⟨t, run, ⟨access, mem, written⟩, outside⟩ := exists_run
    (bootNext .icicleKitEs fun _ => .bare ..) threeHartsStart
    (setupPmpEvents .u54_1 ++ List.replicate 3 (.run .u54_1 tick))
    (P := fun t => (∃ access ∈ t.accesses, (0x80000001 : Word) ∈ access.writes) ∧
      ∀ other ∈ t.accesses, (0x80000001 : Word) ∉ other.permitted t.pmpEntry)
    (by decide +kernel)
  refine ⟨t, threeHartsStart_run.trans run, fun confined => ?_⟩
  obtain ⟨other, member, -, may⟩ := confined access mem _ written
  exact outside other member may

end Hss
