import Hss.Boot.Loader
import Hss.Boot.Memory

/-! The custom boot flow, which copies the chunks of one hart in loops of its own, against the walk of
the hart's boot machine. -/

namespace Hss

open ByteMemory Outcome

/-! ### The custom flow -/

/-- `HSS_Boot_Custom` in its loops: the state, and where it is.  Its `chunkNum` counts chunks. -/
structure Custom where
  state : State
  pos : LoaderPos

/-- The target of `HSS_Boot_Custom`: the last hart that has chunks. -/
def customTarget (s : State) : Option U54 :=
  bootMachine.foldl (fun target hart => if s.numChunks hart ≠ 0 then some hart else target) none

section
variable (target : U54) (firstChunk : Word)

/-- One turn of its loops.  The entry of a chunk is read again behind a slice, which may have been
copied over it. -/
def customTurn (c : Custom) : Except Halt Custom :=
  match c.pos with
  | .zeroing pZiChunk =>
    let ziChunk := ziChunkDesc c.state.mem pZiChunk
    if ziChunk.size ≠ 0 then do
      let s ← runIf (ziChunk.OwnedBy target) (bootDoZeroInitChunk target pZiChunk) c.state
      return ⟨s, .zeroing (pZiChunk + sizeOfZiChunkDesc)⟩
    else .ok ⟨c.state, .downloading (chunkTableEntry c.state.pBootImage c.state.mem firstChunk) 0 0⟩
  | .downloading pChunk subChunkOffset chunkNum =>
    let chunk := chunkDesc c.state.mem pChunk
    if chunk.size ≠ 0 then
      if chunk.owner = BitVec.ofNat 32 target.num ∧
          hssPmpCheckWrite (c.state.pmpEntry target) chunk.execAddr chunk.size then do
        let s ← bootDoDownloadChunk target pChunk subChunkOffset bootSubChunkSize c.state
        return ⟨s, .next (chunkDesc s.mem pChunk).size pChunk subChunkOffset chunkNum⟩
      else .ok ⟨c.state, .downloading (pChunk + sizeOfChunkDesc) subChunkOffset chunkNum⟩
    else .ok ⟨c.state, .finished⟩
  | .finished => .ok c

/-- `n` turns. -/
def customTurns : ℕ → Custom → Except Halt Custom
  | 0, c => .ok c
  | n + 1, c => customTurn target firstChunk c >>= customTurns n

end

/-- `HSS_Boot_Custom`, `n` turns of its loops after its start. -/
def hssBootCustom (n : ℕ) (s : State) : Except Halt Custom :=
  if s.pBootImage = 0 then .ok ⟨s, .finished⟩
  else
    match customTarget s with
    | none => .ok ⟨s, .finished⟩
    | some target => customTurns target (s.firstChunk target) n
      ⟨s, .zeroing (ziTableStart s.pBootImage s.mem)⟩

/-! ### The boot machine -/

section
variable (cfg : Config) (target : U54)

/-- A call of the machine, if it is in a state in which it loads. -/
def loadCall (inputs : Inputs) (s : State) : Except Halt State :=
  if (s.machine target).state.loading then runBootService cfg inputs target s else .ok s

/-- `n` such calls. -/
def loadCalls : ℕ → (ℕ → Inputs) → State → Except Halt State
  | 0, _, s => .ok s
  | n + 1, inputs, s => loadCall cfg target (inputs 0) s >>= loadCalls n fun k => inputs (k + 1)

end

/-! ### What both write -/

def Access.isWrite : Access → Bool
  | .readZiChunk _ _ | .readChunk _ _ => false
  | .zeroInit _ _ | .download _ _ _ _ _ => true

/-- What was written, newest first. -/
def State.written (s : State) : List Access := s.accesses.filter Access.isWrite

/-- After each number of turns the custom flow has written what the machine has in as many calls, and
the memory is the same. -/
def CustomAgrees (cfg : Config) (inputs : ℕ → Inputs) (target : U54) (s : State) : Prop :=
  ∀ n, (hssBootCustom n s).map (fun c => (c.state.mem, c.state.written)) =
    (loadCalls cfg target n inputs s).map fun t => (t.mem, t.written)

/-- A valid image is registered, of which the custom flow boots the hart, and the hart's machine is
about to load it.  DDR memory is trained before. -/
structure BeginsToLoad (target : U54) (s : State) : Prop where
  valid : hssBootValidateImage s.mem s.pBootImage = true
  boots : customTarget s = some target
  state : (s.machine target).state = .zeroInitChunks
  prevState : (s.machine target).prevState = some .setupPmpComplete
  ddrTrained : s.triggers .ddrTrained = true

/-! ### As walks -/

/-- The custom flow keeps the first chunk that it has read, has no bound, and takes no ancilliary
data. -/
def customRules (target : U54) (pmpEntry : ℕ → PmpEntry) (firstChunk : Word) : LoadRules where
  firstChunk _ := firstChunk
  ends _ _ := false
  takes chunk := chunk.owner = BitVec.ofNat 32 target.num ∧
    hssPmpCheckWrite pmpEntry chunk.execAddr chunk.size

def machineRules (target : U54) (pmpEntry : ℕ → PmpEntry) (image : Word) : LoadRules where
  firstChunk mem := BootImage.firstChunk mem image target
  ends mem count :=
    BootImage.numChunks mem image target = 0 ∨ ¬count ≤ BootImage.lastChunk mem image target
  takes chunk := chunk.OwnedBy target ∧ hssPmpCheckWrite pmpEntry chunk.execAddr chunk.size

def Custom.loader (c : Custom) : Loader := ⟨c.state.mem, c.state.written, c.pos⟩

/-- The machine as a walk.  Its pointers are set by the entry callbacks of the next call, if these
have not run. -/
def State.loader (target : U54) (s : State) : Loader where
  mem := s.mem
  written := s.written
  pos :=
    match (s.machine target).state with
    | .zeroInitChunks =>
      .zeroing (if (s.machine target).prevState = some .zeroInitChunks
        then (s.localData target).pZiChunk else ziTableStart s.pBootImage s.mem)
    | .downloadChunks =>
      if (s.machine target).prevState = some .downloadChunks then
        .downloading (s.localData target).pChunk (s.localData target).subChunkOffset
          (s.localData target).chunkCount
      else .downloading (chunkTableEntry s.pBootImage s.mem (s.firstChunk target)) 0 0
    | _ => .finished

section
variable {cfg : Config} {inputs : Inputs} {target : U54} {s t : State} {c c' : Custom} {p : Word}

/-! ### Writes -/

theorem bootDoZeroInitChunk_map (s : State) (target : U54) (p : Word) :
    bootDoZeroInitChunk target p s = (clearChunk p s.mem).map fun mem =>
      { s with mem }.access (.zeroInit target (ziChunkDesc s.mem p)) := by
  rw [bootDoZeroInitChunk, clearChunk]
  cases assert (p ≠ 0) Halt.chunkNotNull <;> rfl

theorem bootDoDownloadChunk_map (s : State) (target : U54) (p offset : Word) :
    bootDoDownloadChunk target p offset bootSubChunkSize s =
      (copySlice s.pBootImage p offset s.mem).map fun mem => { s with mem }.access
        (.download target s.pBootImage (chunkDesc s.mem p) offset bootSubChunkSize) := by
  rw [bootDoDownloadChunk, copySlice]
  cases assert (p ≠ 0) Halt.chunkNotNull with
  | error e => rfl
  | ok =>
    dsimp only [ok_bind]
    cases assert ((chunkDesc s.mem p).size ≠ 0) Halt.chunkNotEmpty with
    | error e => rfl
    | ok =>
      dsimp only [ok_bind]
      cases memcpyViaPdma ((chunkDesc s.mem p).execAddr + offset)
        (s.pBootImage + (chunkDesc s.mem p).loadAddr + offset) bootSubChunkSize s.mem <;> rfl

/-! ### The custom flow as a walk -/

theorem customTurn_loader (c : Custom) (firstChunk : Word) :
    (customTurn target firstChunk c).map Custom.loader =
      loadTurn target c.state.pBootImage (customRules target (c.state.pmpEntry target) firstChunk)
        c.loader := by
  obtain ⟨s, pos⟩ := c
  cases pos with
  | finished => rfl
  | zeroing p =>
    show _ = loadTurn target s.pBootImage _ ⟨s.mem, s.written, .zeroing p⟩
    by_cases size : (ziChunkDesc s.mem p).size = 0
    · rw [loadTurn_sentinel size]
      exact congrArg (Except.map Custom.loader) (if_neg (not_not.mpr size))
    by_cases owned : (ziChunkDesc s.mem p).OwnedBy target
    · have turn : customTurn target firstChunk ⟨s, .zeroing p⟩ = (do
          let s ← bootDoZeroInitChunk target p s
          return ⟨s, .zeroing (p + sizeOfZiChunkDesc)⟩) :=
        (if_pos size).trans (congrArg (· >>= _) (if_pos (decide_eq_true owned)))
      rw [loadTurn_clear size owned, turn, bootDoZeroInitChunk_map]
      cases clearChunk p s.mem <;> rfl
    · have turn : customTurn target firstChunk ⟨s, .zeroing p⟩ =
          .ok ⟨s, .zeroing (p + sizeOfZiChunkDesc)⟩ :=
        (if_pos size).trans (congrArg (· >>= _) (if_neg fun h => owned (of_decide_eq_true h)))
      rw [loadTurn_pass size owned, turn]
      rfl
  | downloading p offset count =>
    show _ = loadTurn target s.pBootImage _ ⟨s.mem, s.written, .downloading p offset count⟩
    by_cases size : (chunkDesc s.mem p).size = 0
    · rw [loadTurn_end (.inl size)]
      exact congrArg (Except.map Custom.loader) (if_neg (not_not.mpr size))
    have goes : ¬((chunkDesc s.mem p).size = 0 ∨ false = true) :=
      not_or.mpr ⟨size, Bool.false_ne_true⟩
    by_cases takes : (chunkDesc s.mem p).owner = BitVec.ofNat 32 target.num ∧
        hssPmpCheckWrite (s.pmpEntry target) (chunkDesc s.mem p).execAddr (chunkDesc s.mem p).size
    · have turn : customTurn target firstChunk ⟨s, .downloading p offset count⟩ = (do
          let s ← bootDoDownloadChunk target p offset bootSubChunkSize s
          return ⟨s, .next (chunkDesc s.mem p).size p offset count⟩) :=
        (if_pos size).trans (if_pos takes)
      rw [loadTurn_take goes (decide_eq_true takes), turn, bootDoDownloadChunk_map]
      cases copySlice s.pBootImage p offset s.mem <;> rfl
    · have turn : customTurn target firstChunk ⟨s, .downloading p offset count⟩ =
          .ok ⟨s, .downloading (p + sizeOfChunkDesc) offset count⟩ :=
        (if_pos size).trans (if_neg takes)
      rw [loadTurn_skip goes (decide_eq_false takes), turn]
      rfl

theorem customTurn_kept {firstChunk : Word} (turned : customTurn target firstChunk c = .ok c') :
    c'.state.pBootImage = c.state.pBootImage ∧ c'.state.pmpEntry = c.state.pmpEntry := by
  obtain ⟨s, pos⟩ := c
  cases pos with
  | finished =>
    cases turned
    exact ⟨rfl, rfl⟩
  | zeroing p =>
    simp only [customTurn] at turned
    split at turned
    · obtain ⟨t, cleared, turned⟩ := bind_eq_ok.mp turned
      cases turned
      rw [runIf] at cleared
      split at cleared
      · rw [bootDoZeroInitChunk_eq_ok cleared]
        exact ⟨rfl, rfl⟩
      · cases cleared
        exact ⟨rfl, rfl⟩
    · cases turned
      exact ⟨rfl, rfl⟩
  | downloading p offset count =>
    simp only [customTurn] at turned
    split at turned
    · split at turned
      · obtain ⟨t, copied, turned⟩ := bind_eq_ok.mp turned
        cases turned
        rw [bootDoDownloadChunk_eq_ok copied]
        exact ⟨rfl, rfl⟩
      · cases turned
        exact ⟨rfl, rfl⟩
    · cases turned
      exact ⟨rfl, rfl⟩

theorem customTurns_loader (n : ℕ) (c : Custom) (firstChunk : Word) :
    (customTurns target firstChunk n c).map Custom.loader = loadTurns target c.state.pBootImage
      (customRules target (c.state.pmpEntry target) firstChunk) n c.loader := by
  induction n generalizing c with
  | zero => rfl
  | succ n ih =>
    refine map_bind (customTurn_loader c firstChunk) fun c' turned => ?_
    have kept := customTurn_kept turned
    rw [ih, kept.1, kept.2]

/-! ### The machine as a walk -/

theorem setWalk_walk (s : State) (i : U54) (walk : ChunkWalk) :
    ((s.setWalk i walk).localData i).toChunkWalk = walk := by
  rw [State.setWalk, State.setLocal_localData, Function.update_self]

theorem goto_self (s : State) (i : U54) (state : BootState) :
    (s.goto i state).machine i = { s.machine i with state } := by
  rw [State.goto_machine, Function.update_self]

section
variable {walk : ChunkWalk}

theorem loader_zeroing (state : (s.machine target).state = .zeroInitChunks)
    (prevState : (s.machine target).prevState = some .zeroInitChunks)
    (here : (s.localData target).toChunkWalk = walk) :
    s.loader target = ⟨s.mem, s.written, .zeroing walk.pZiChunk⟩ := by
  rw [State.loader, state]
  dsimp only
  rw [if_pos prevState, here]

theorem loader_downloading (state : (s.machine target).state = .downloadChunks)
    (prevState : (s.machine target).prevState = some .downloadChunks)
    (here : (s.localData target).toChunkWalk = walk) :
    s.loader target =
      ⟨s.mem, s.written, .downloading walk.pChunk walk.subChunkOffset walk.chunkCount⟩ := by
  rw [State.loader, state]
  dsimp only
  rw [if_pos prevState, here]

theorem loader_toZeroing (state : (s.machine target).state = .zeroInitChunks)
    (prevState : (s.machine target).prevState ≠ some .zeroInitChunks) :
    s.loader target = ⟨s.mem, s.written, .zeroing (ziTableStart s.pBootImage s.mem)⟩ := by
  rw [State.loader, state]
  dsimp only
  rw [if_neg prevState]

theorem loader_toDownloading (state : (s.machine target).state = .downloadChunks)
    (prevState : (s.machine target).prevState ≠ some .downloadChunks) :
    s.loader target = ⟨s.mem, s.written,
      .downloading (chunkTableEntry s.pBootImage s.mem (s.firstChunk target)) 0 0⟩ := by
  rw [State.loader, state]
  dsimp only
  rw [if_neg prevState]

theorem loader_finished (done : (s.machine target).state.loading = false) :
    s.loader target = ⟨s.mem, s.written, .finished⟩ := by
  rw [State.loader]
  cases state : (s.machine target).state with
  | zeroInitChunks | downloadChunks =>
    rw [state] at done
    cases done
  | _ => rfl

end

/-- The handler of the zero-init chunks, once the machine has entered its state. -/
theorem bootZeroInitChunksHandler_loader (image : s.pBootImage ≠ 0)
    (ddrTrained : s.triggers .ddrTrained = true)
    (state : (s.machine target).state = .zeroInitChunks)
    (prevState : (s.machine target).prevState = some .zeroInitChunks) :
    (bootZeroInitChunksHandler cfg target s).map (State.loader target) =
      loadTurn target s.pBootImage (machineRules target (s.pmpEntry target) s.pBootImage)
        (s.loader target) := by
  rw [loader_zeroing state prevState rfl, bootZeroInitChunksHandler, assert, if_pos image]
  dsimp only [ok_bind]
  by_cases size : (ziChunkDesc s.mem (s.localData target).pZiChunk).size = 0
  · rw [loadTurn_sentinel size, if_neg (not_not.mpr size)]
    refine congrArg Except.ok ((loader_toDownloading ?_ ?_).trans rfl)
    · rw [goto_self]
    · rw [goto_self]
      intro same
      cases prevState.symm.trans same
  rw [if_pos size]
  by_cases owned : (ziChunkDesc s.mem (s.localData target).pZiChunk).OwnedBy target
  · have trained : (s.access (.readZiChunk target (s.localData target).pZiChunk)).triggers
        .ddrTrained = true := ddrTrained
    rw [loadTurn_clear size owned, if_pos owned, trained, Bool.not_true, Bool.and_false,
      if_neg Bool.false_ne_true, bootDoZeroInitChunk_map, State.access_mem]
    cases clearChunk (s.localData target).pZiChunk s.mem with
    | error e => rfl
    | ok mem =>
      refine congrArg Except.ok ((loader_zeroing ?_ ?_ (setWalk_walk ..)).trans rfl)
      · exact state
      · exact prevState
  · rw [loadTurn_pass size owned, if_neg owned]
    refine congrArg Except.ok ((loader_zeroing ?_ ?_ (setWalk_walk ..)).trans rfl)
    · exact state
    · exact prevState

theorem loader_goto {state : BootState} (done : state.loading = false) (s : State) :
    (s.goto target state).loader target = ⟨s.mem, s.written, .finished⟩ := by
  refine (loader_finished ?_).trans rfl
  rw [goto_self]
  exact done

theorem loader_nextSlice (state : (s.machine target).state = .downloadChunks)
    (prevState : (s.machine target).prevState = some .downloadChunks) (size : Word) :
    (nextSlice target size s).loader target = ⟨s.mem, s.written, .next size (s.localData target).pChunk
      (s.localData target).subChunkOffset (s.localData target).chunkCount⟩ := by
  rw [nextSlice]
  refine (loader_downloading ?_ ?_ (setWalk_walk ..)).trans ?_
  · exact state
  · exact prevState
  · rw [LoaderPos.next]
    split <;> rfl

theorem noteAncilliaryData_loading (target : U54) (chunk : ChunkDesc) (s : State) :
    SameLoading s (noteAncilliaryData target chunk s) ∧
      (noteAncilliaryData target chunk s).machine = s.machine ∧
      (noteAncilliaryData target chunk s).triggers = s.triggers := by
  rw [noteAncilliaryData]
  split
  · exact ⟨.setLocal rfl, rfl, rfl⟩
  · exact ⟨.refl s, rfl, rfl⟩

theorem loader_nextSlice_note (state : (s.machine target).state = .downloadChunks)
    (prevState : (s.machine target).prevState = some .downloadChunks) (size : Word)
    (chunk : ChunkDesc) :
    (nextSlice target size (noteAncilliaryData target chunk s)).loader target =
      ⟨s.mem, s.written, .next size (s.localData target).pChunk (s.localData target).subChunkOffset
        (s.localData target).chunkCount⟩ := by
  obtain ⟨loading, machine, -⟩ := noteAncilliaryData_loading target chunk s
  rw [loader_nextSlice (by rw [machine, state]) (by rw [machine, prevState]), loading.mem,
    State.written, loading.accesses, loading.walk]
  rfl

/-- The handler of the chunks, once the machine has entered its state. -/
theorem bootDownloadChunksHandler_loader (image : s.pBootImage ≠ 0)
    (state : (s.machine target).state = .downloadChunks)
    (prevState : (s.machine target).prevState = some .downloadChunks) :
    (bootDownloadChunksHandler target s).map (State.loader target) =
      loadTurn target s.pBootImage (machineRules target (s.pmpEntry target) s.pBootImage)
        (s.loader target) := by
  rw [loader_downloading state prevState rfl, bootDownloadChunksHandler, assert, if_pos image]
  dsimp only [ok_bind]
  by_cases chunks : s.numChunks target = 0
  · rw [loadTurn_end (.inr (decide_eq_true (.inl chunks))), if_neg (not_not.mpr chunks)]
    exact congrArg Except.ok (loader_goto rfl s)
  rw [if_pos chunks]
  by_cases count : (s.localData target).chunkCount ≤ s.lastChunk target
  · rw [if_pos count]
    by_cases size : (chunkDesc s.mem (s.localData target).pChunk).size = 0
    · rw [loadTurn_end (.inl size), if_neg (not_not.mpr size)]
      exact congrArg Except.ok (loader_goto rfl _)
    have goes : ¬((chunkDesc s.mem (s.localData target).pChunk).size = 0 ∨
        (machineRules target (s.pmpEntry target) s.pBootImage).ends s.mem
          (s.localData target).chunkCount = true) := by
      refine not_or.mpr ⟨size, fun ends => ?_⟩
      exact (of_decide_eq_true ends).elim chunks fun above => above count
    rw [if_pos size]
    by_cases takes : (chunkDesc s.mem (s.localData target).pChunk).OwnedBy target ∧
        hssPmpCheckWrite (s.pmpEntry target) (chunkDesc s.mem (s.localData target).pChunk).execAddr
          (chunkDesc s.mem (s.localData target).pChunk).size
    · rw [loadTurn_take goes (decide_eq_true takes)]
      refine (congrArg _ (if_pos takes)).trans ?_
      rw [bootDoDownloadChunk_map, State.access_mem, State.access_pBootImage]
      cases copySlice s.pBootImage (s.localData target).pChunk (s.localData target).subChunkOffset
        s.mem with
      | error e => rfl
      | ok mem =>
        refine congrArg Except.ok ((loader_nextSlice_note ?_ ?_ _ _).trans rfl)
        · exact state
        · exact prevState
    · rw [loadTurn_skip goes (decide_eq_false takes)]
      refine (congrArg _ (if_neg takes)).trans (congrArg Except.ok ?_)
      refine (loader_downloading ?_ ?_ (setWalk_walk ..)).trans rfl
      · exact state
      · exact prevState
  · rw [loadTurn_end (.inr (decide_eq_true (.inr count))), if_neg count]
    exact congrArg Except.ok (loader_goto rfl _)

/-! ### Calls of the machine -/

theorem loader_congr (same : SameLoading s t)
    (state : (t.machine target).state = (s.machine target).state)
    (prevState : (t.machine target).prevState = (s.machine target).prevState) :
    t.loader target = s.loader target := by
  rw [State.loader, State.loader, State.written, State.written, State.firstChunk, State.firstChunk,
    same.mem, same.accesses, same.pBootImage, same.walk, state, prevState]

theorem start_triggers (now : Word) (s : State) (i : U54) :
    ((bootService i).start now s).triggers = s.triggers := by
  rw [MachineOf.start]
  split <;> rfl

/-- The machine goes through the states in which it loads, and what it loads from stays in place. -/
structure LoadsImage (target : U54) (image : Word) (pmpEntry : ℕ → PmpEntry) (s : State) : Prop where
  pBootImage : s.pBootImage = image
  pmpEntry : s.pmpEntry target = pmpEntry
  ddrTrained : s.triggers .ddrTrained = true
  zeroInit : (s.machine target).state = .zeroInitChunks →
    (s.machine target).prevState = some .zeroInitChunks ∨
      (s.machine target).prevState = some .setupPmpComplete
  download : (s.machine target).state = .downloadChunks →
    (s.machine target).prevState = some .downloadChunks ∨
      (s.machine target).prevState = some .zeroInitChunks

variable {image : Word} {pmpEntry : ℕ → PmpEntry} {a : State}

/-- The machine has entered its state. -/
structure Came (target : U54) (s a : State) : Prop extends SameImage s a where
  triggers : a.triggers = s.triggers
  state : (a.machine target).state = (s.machine target).state
  prevState : (a.machine target).prevState = some (s.machine target).state

theorem enter_stays (cfg : Config) (inputs : Inputs)
    (stays : (s.machine target).prevState = some (s.machine target).state) :
    ∃ a, enter cfg inputs target s = .ok a ∧ Came target s a ∧ a.loader target = s.loader target := by
  have same := SameTables.start inputs.lastEntry s target
  obtain ⟨state, prevState⟩ := start_machine inputs.lastEntry s target target
  refine ⟨_, if_pos stays, ⟨same.toSameImage, start_triggers .., state, prevState.trans stays⟩, ?_⟩
  exact loader_congr same.toSameLoading state prevState

theorem put_machine (s : State) (i : U54) (m : StateMachine BootState) :
    (((bootService i).put s m).machine i) = m := Function.update_self ..

/-- An entry callback that starts a walk, after a state that is left without a callback. -/
theorem enter_setWalk (cfg : Config) (inputs : Inputs) {prev : BootState} {walk : ChunkWalk}
    (prevState : (s.machine target).prevState = some prev) (leaves : prev ≠ (s.machine target).state)
    (onExit : (bootStateDescs cfg inputs target prev).onExit = none)
    (onEntry : runCallback (bootStateDescs cfg inputs target (s.machine target).state).onEntry
      ((bootService target).start inputs.lastEntry s) =
        .ok (((bootService target).start inputs.lastEntry s).setWalk target walk)) :
    ∃ a, enter cfg inputs target s = .ok a ∧ Came target s a ∧
      (a.localData target).toChunkWalk = walk := by
  have image := (SameTables.start inputs.lastEntry s target).toSameImage
  have state := (start_machine inputs.lastEntry s target target).1
  have triggers := start_triggers inputs.lastEntry s target
  have differs : (s.machine target).prevState ≠ some (s.machine target).state := by
    rw [prevState]
    exact fun same => leaves (Option.some.inj same)
  rw [enter, if_neg differs]
  simp only [MachineOf.changeState, prevState, onExit, runCallback_none, ok_bind, onEntry]
  refine ⟨_, rfl, ⟨image.trans ⟨rfl, rfl, rfl, rfl⟩, triggers, ?_, ?_⟩, setWalk_walk ..⟩
  · rw [put_machine]
    exact state
  · rw [put_machine]
    exact congrArg some state

theorem enter_zeroInit (image : s.pBootImage ≠ 0)
    (state : (s.machine target).state = .zeroInitChunks)
    (prevState : (s.machine target).prevState = some .setupPmpComplete) :
    ∃ a, enter cfg inputs target s = .ok a ∧ Came target s a ∧ a.loader target = s.loader target := by
  have same := (SameTables.start inputs.lastEntry s target).toSameImage
  obtain ⟨a, entered, came, walk⟩ := enter_setWalk cfg inputs prevState
    (by rw [state]; decide) rfl (by
      rw [state]
      show bootZeroInitChunksOnEntry target _ = _
      rw [bootZeroInitChunksOnEntry, assert, if_pos (same.pBootImage.trans_ne image)]
      rfl)
  refine ⟨a, entered, came, ?_⟩
  have leaves : (s.machine target).prevState ≠ some .zeroInitChunks := by
    rw [prevState]
    decide
  rw [loader_toZeroing state leaves, loader_zeroing (came.state.trans state)
    (came.prevState.trans (congrArg some state)) walk, State.written, came.mem, came.accesses,
    same.mem, same.pBootImage]
  rfl

theorem setWalk_self (s : State) (i : U54) : s.setWalk i (s.localData i).toChunkWalk = s := by
  have same : Function.update s.localData i (s.localData i) = s.localData := Function.update_eq_self ..
  rw [State.setWalk, State.setLocal, same]

/-- A hart without chunks has no walk of the chunk table. -/
theorem enter_download (image : s.pBootImage ≠ 0)
    (state : (s.machine target).state = .downloadChunks)
    (prevState : (s.machine target).prevState = some .zeroInitChunks) :
    ∃ a, enter cfg inputs target s = .ok a ∧ Came target s a ∧
      (s.numChunks target = 0 ∨ a.loader target = s.loader target) := by
  have same := (SameTables.start inputs.lastEntry s target).toSameImage
  have chunks := same.numChunks target
  have leaves : BootState.zeroInitChunks ≠ (s.machine target).state := by
    rw [state]
    decide
  by_cases none : s.numChunks target = 0
  · obtain ⟨a, entered, came, -⟩ := enter_setWalk cfg inputs prevState leaves rfl (by
      rw [state, setWalk_self]
      show bootDownloadChunksOnEntry target _ = _
      rw [bootDownloadChunksOnEntry, assert, if_pos (same.pBootImage.trans_ne image), chunks, none]
      rfl)
    exact ⟨a, entered, came, .inl none⟩
  · obtain ⟨a, entered, came, walk⟩ := enter_setWalk cfg inputs prevState leaves rfl (by
      rw [state]
      show bootDownloadChunksOnEntry target _ = _
      rw [bootDownloadChunksOnEntry, assert, if_pos (same.pBootImage.trans_ne image), chunks]
      exact if_pos none)
    refine ⟨a, entered, came, .inr ?_⟩
    have differs : (s.machine target).prevState ≠ some .downloadChunks := by
      rw [prevState]
      decide
    rw [loader_toDownloading state differs, loader_downloading (came.state.trans state)
      (came.prevState.trans (congrArg some state)) walk, State.written, came.mem, came.accesses]
    dsimp only
    rw [State.firstChunk, State.firstChunk, same.mem, same.pBootImage]
    rfl

theorem loadTurn_without_chunks (here : s.pBootImage = image)
    (state : (s.machine target).state = .downloadChunks) (none : s.numChunks target = 0) :
    loadTurn target image (machineRules target pmpEntry image) (s.loader target) =
      .ok ⟨s.mem, s.written, .finished⟩ := by
  have ends (count : Word) : (machineRules target pmpEntry image).ends s.mem count = true :=
    decide_eq_true (.inl (here ▸ none))
  by_cases prevState : (s.machine target).prevState = some .downloadChunks
  · rw [loader_downloading state prevState rfl]
    exact loadTurn_end (.inr (ends _))
  · rw [loader_toDownloading state prevState]
    exact loadTurn_end (.inr (ends _))

theorem Came.loads (came : Came target s a) (loads : LoadsImage target image pmpEntry s) :
    a.pBootImage = image ∧ a.pmpEntry target = pmpEntry ∧ a.triggers .ddrTrained = true := by
  refine ⟨came.pBootImage.trans loads.pBootImage, ?_, ?_⟩
  · rw [came.pmpEntry, loads.pmpEntry]
  · rw [came.triggers, loads.ddrTrained]

theorem map_run {x : Except Halt State} :
    (x >>= fun b => .ok (b.setMachine target { b.machine target with
      executionCount := (b.machine target).executionCount + 1 })).map (State.loader target) =
    x.map (State.loader target) := by
  cases x with
  | error e => rfl
  | ok b =>
    refine congrArg Except.ok (loader_congr ⟨⟨rfl, rfl, rfl, rfl⟩, fun _ => rfl⟩ ?_ ?_) <;>
      rw [State.setMachine_machine, Function.update_self]

theorem LoadsImage.enter (cfg : Config) (inputs : Inputs) (loads : LoadsImage target image pmpEntry s)
    (notNull : image ≠ 0)
    (loading : (s.machine target).state.loading = true) :
    ∃ a, enter cfg inputs target s = .ok a ∧ Came target s a ∧
      ((s.machine target).state = .downloadChunks ∧ s.numChunks target = 0 ∨
        a.loader target = s.loader target) := by
  have notNull' : s.pBootImage ≠ 0 := loads.pBootImage.trans_ne notNull
  have stays (stays : (s.machine target).prevState = some (s.machine target).state) :=
    enter_stays cfg inputs stays
  cases state : (s.machine target).state with
  | zeroInitChunks =>
    obtain ⟨a, entered, came, same⟩ : ∃ a, Hss.enter cfg inputs target s = .ok a ∧ Came target s a ∧
        a.loader target = s.loader target := by
      rcases loads.zeroInit state with here | arrives
      · exact stays (here.trans (congrArg some state.symm))
      · exact enter_zeroInit notNull' state arrives
    exact ⟨a, entered, came, .inr same⟩
  | downloadChunks =>
    rcases loads.download state with here | arrives
    · obtain ⟨a, entered, came, same⟩ := stays (here.trans (congrArg some state.symm))
      exact ⟨a, entered, came, .inr same⟩
    · obtain ⟨a, entered, came, same⟩ := enter_download notNull' state arrives
      exact ⟨a, entered, came, same.imp_left fun none => ⟨rfl, none⟩⟩
  | _ =>
    rw [state] at loading
    cases loading

/-- A call of the machine is a turn of its walk. -/
theorem loadCall_loader (loads : LoadsImage target image pmpEntry s) (notNull : image ≠ 0) :
    (loadCall cfg target inputs s).map (State.loader target) =
      loadTurn target image (machineRules target pmpEntry image) (s.loader target) := by
  rw [loadCall]
  split
  next loading =>
    obtain ⟨a, entered, came, same⟩ := loads.enter cfg inputs notNull loading
    obtain ⟨image', pmpEntry', ddrTrained⟩ := came.loads loads
    rw [runBootService_eq, entered, ok_bind, map_run]
    cases state : (s.machine target).state with
    | zeroInitChunks =>
      rcases same with ⟨download, -⟩ | same
      · exact nomatch state.symm.trans download
      rw [← same, ← image', ← pmpEntry']
      exact bootZeroInitChunksHandler_loader (image'.trans_ne notNull) ddrTrained
        (came.state.trans state) (came.prevState.trans (congrArg some state))
    | downloadChunks =>
      have state' := came.state.trans state
      have turn := bootDownloadChunksHandler_loader (image'.trans_ne notNull) state'
        (came.prevState.trans (congrArg some state))
      rw [image', pmpEntry'] at turn
      refine turn.trans ?_
      rcases same with ⟨-, none⟩ | same
      · have none' : a.numChunks target = 0 := (came.numChunks target).trans none
        rw [loadTurn_without_chunks loads.pBootImage state none,
          loadTurn_without_chunks image' state' none', State.written, came.mem, came.accesses]
        rfl
      · rw [same]
    | _ =>
      rw [state] at loading
      cases loading
  next quiet =>
    rw [loader_finished (Bool.eq_false_iff.mpr quiet)]
    exact congrArg Except.ok (loader_finished (Bool.eq_false_iff.mpr quiet))

/-- A handler of a state in which the machine loads goes to the next such state, or to one in which it
does not load. -/
theorem LoadsImage.after {u : State} (came : Came target s a) (loads : LoadsImage target image pmpEntry s)
    (pBootImage : u.pBootImage = a.pBootImage) (pmp : u.pmpEntry = a.pmpEntry)
    (triggers : u.triggers = a.triggers)
    (prevState : (u.machine target).prevState = (a.machine target).prevState)
    (state : (u.machine target).state = (a.machine target).state ∨
      (s.machine target).state = .zeroInitChunks ∧ (u.machine target).state = .downloadChunks ∨
      (u.machine target).state.loading = false) : LoadsImage target image pmpEntry u := by
  obtain ⟨image', pmpEntry', ddrTrained⟩ := came.loads loads
  have prev := prevState.trans came.prevState
  refine ⟨pBootImage.trans image', ?_, ?_, fun zeroInit => ?_, fun download => ?_⟩
  · rw [pmp, pmpEntry']
  · rw [triggers, ddrTrained]
  · rcases state with stays | ⟨-, leaves⟩ | done
    · exact .inl (prev.trans (congrArg some ((stays.trans came.state).symm.trans zeroInit)))
    · exact nomatch zeroInit.symm.trans leaves
    · rw [zeroInit] at done
      cases done
  · rcases state with stays | ⟨before, -⟩ | done
    · exact .inl (prev.trans (congrArg some ((stays.trans came.state).symm.trans download)))
    · exact .inr (prev.trans (congrArg some before))
    · rw [download] at done
      cases done

theorem goto_state (s : State) (i : U54) (state : BootState) :
    ((s.goto i state).machine i).state = state :=
  congrArg StateMachine.state (goto_self s i state)

theorem goto_prevState (s : State) (i : U54) (state : BootState) :
    ((s.goto i state).machine i).prevState = (s.machine i).prevState := by
  rw [goto_self]

theorem LoadsImage.handler {b : State} (came : Came target s a) (loads : LoadsImage target image pmpEntry s)
    (loading : (s.machine target).state.loading = true)
    (handled : (bootStateDescs cfg inputs target (s.machine target).state).handler a = .ok b) :
    LoadsImage target image pmpEntry b := by
  cases state : (s.machine target).state with
  | zeroInitChunks =>
    rw [state] at handled
    rcases bootZeroInitChunksHandler_cases handled with ⟨-, rfl⟩ | ⟨-, -, rfl⟩ | ⟨-, -, rfl⟩ |
      ⟨-, -, rfl⟩
    · refine loads.after came rfl rfl rfl (goto_prevState ..) (.inr (.inl ⟨state, goto_state ..⟩))
    · exact loads.after came rfl rfl rfl rfl (.inl rfl)
    · exact loads.after came rfl rfl rfl rfl (.inl rfl)
    · exact loads.after came rfl rfl rfl rfl (.inl rfl)
  | downloadChunks =>
    rw [state] at handled
    have goes {t : State} {next : BootState} (pBootImage : t.pBootImage = a.pBootImage)
        (pmp : t.pmpEntry = a.pmpEntry) (triggers : t.triggers = a.triggers)
        (machine : t.machine = a.machine) (done : next.loading = false) :
        LoadsImage target image pmpEntry (t.goto target next) := by
      refine loads.after came pBootImage pmp triggers ((goto_prevState ..).trans (by rw [machine])) ?_
      rw [goto_state]
      exact .inr (.inr done)
    rcases bootDownloadChunksHandler_cases handled with ⟨-, rfl⟩ | ⟨-, -, rfl⟩ | ⟨-, -, rfl⟩ |
      ⟨-, -, -, rfl⟩ | ⟨-, -, -, -, rfl⟩
    · exact goes rfl rfl rfl rfl rfl
    · exact goes rfl rfl rfl rfl rfl
    · exact goes rfl rfl rfl rfl rfl
    · exact loads.after came rfl rfl rfl rfl (.inl rfl)
    · obtain ⟨noted, machine, triggers⟩ := noteAncilliaryData_loading target (chunkDesc (copy a.mem
        ((chunkDesc a.mem (a.localData target).pChunk).execAddr + (a.localData target).subChunkOffset)
        (a.pBootImage + (chunkDesc a.mem (a.localData target).pChunk).loadAddr +
          (a.localData target).subChunkOffset) bootSubChunkSize) (a.localData target).pChunk) _
      refine loads.after came noted.pBootImage noted.pmpEntry triggers ?_ (.inl ?_)
      · exact congrArg (fun m => (m target).prevState) machine
      · exact congrArg (fun m => (m target).state) machine
  | _ =>
    rw [state] at loading
    cases loading

theorem loadCall_loads (loads : LoadsImage target image pmpEntry s) (notNull : image ≠ 0)
    (done : loadCall cfg target inputs s = .ok t) : LoadsImage target image pmpEntry t := by
  rw [loadCall] at done
  split at done
  next loading =>
    obtain ⟨a, b, entered, handled, rfl⟩ := runBootService_cases done
    obtain ⟨a', entered', came, -⟩ := loads.enter cfg inputs notNull loading
    obtain rfl : a = a' := Except.ok.inj (entered.symm.trans entered')
    have after := loads.handler came loading handled
    refine ⟨after.pBootImage, after.pmpEntry, after.ddrTrained, ?_, ?_⟩ <;>
      rw [State.setMachine_machine, Function.update_self]
    · exact after.zeroInit
    · exact after.download
  next =>
    cases done
    exact loads

theorem loadCalls_loader (loads : LoadsImage target image pmpEntry s) (notNull : image ≠ 0) (n : ℕ)
    (inputs : ℕ → Inputs) : (loadCalls cfg target n inputs s).map (State.loader target) =
      loadTurns target image (machineRules target pmpEntry image) n (s.loader target) := by
  induction n generalizing s inputs with
  | zero => rfl
  | succ n ih =>
    refine map_bind (loadCall_loader loads notNull) fun t called => ?_
    exact ih (loadCall_loads loads notNull called) _

/-! ### The custom flow and the machine -/

theorem narrower_machineRules (target : U54) (pmpEntry : ℕ → PmpEntry) (firstChunk image : Word) :
    Narrower (customRules target pmpEntry firstChunk) (machineRules target pmpEntry image) := by
  refine ⟨fun _ _ => rfl, fun chunk takes => ?_⟩
  obtain ⟨owner, permitted⟩ := of_decide_eq_true takes
  refine decide_eq_true ⟨?_, permitted⟩
  rw [ChunkDesc.OwnedBy, owner]
  cases target <;> decide

theorem BeginsToLoad.notNull (begins : BeginsToLoad target s) : s.pBootImage ≠ 0 := by
  have valid := begins.valid
  simp only [hssBootValidateImage, Bool.and_eq_true] at valid
  exact of_decide_eq_true valid.1.1

theorem BeginsToLoad.loads (begins : BeginsToLoad target s) :
    LoadsImage target s.pBootImage (s.pmpEntry target) s :=
  ⟨rfl, rfl, begins.ddrTrained, fun _ => .inr begins.prevState,
    fun download => nomatch download.symm.trans begins.state⟩

theorem BeginsToLoad.loader (begins : BeginsToLoad target s) :
    s.loader target = ⟨s.mem, s.written, .zeroing (ziTableStart s.pBootImage s.mem)⟩ := by
  refine loader_toZeroing begins.state ?_
  rw [begins.prevState]
  decide

theorem hssBootCustom_loader (begins : BeginsToLoad target s) (n : ℕ) :
    (hssBootCustom n s).map Custom.loader = loadTurns target s.pBootImage
      (customRules target (s.pmpEntry target) (s.firstChunk target)) n (s.loader target) := by
  rw [hssBootCustom, if_neg begins.notNull, begins.boots, begins.loader]
  exact customTurns_loader ..

theorem customAgrees_iff_leaveTheSame (begins : BeginsToLoad target s) (cfg : Config)
    (inputs : ℕ → Inputs) : CustomAgrees cfg inputs target s ↔ LeaveTheSame target s.pBootImage
      (customRules target (s.pmpEntry target) (s.firstChunk target))
      (machineRules target (s.pmpEntry target) s.pBootImage) (s.loader target) (s.loader target) := by
  have left {α : Type} (f : α → Loader) (x : Except Halt α) :
      (x.map f).map Loader.left = x.map fun a => (f a).left := by
    cases x <;> rfl
  refine forall_congr' fun n => ?_
  rw [← hssBootCustom_loader begins, ← loadCalls_loader begins.loads begins.notNull n inputs, left,
    left]
  exact Iff.rfl

/-- What holds of each walk that the custom flow gets to. -/
theorem reached_iff (begins : BeginsToLoad target s) {P : Loader → Prop} :
    (∀ n c, hssBootCustom n s = .ok c → P c.loader) ↔ ∀ n x, loadTurns target s.pBootImage
      (customRules target (s.pmpEntry target) (s.firstChunk target)) n (s.loader target) = .ok x → P x := by
  refine forall_congr' fun n => ?_
  rw [← hssBootCustom_loader begins]
  cases hssBootCustom n s with
  | error e => exact iff_of_true nofun nofun
  | ok c =>
    constructor
    · rintro holds x same
      cases same
      exact holds c rfl
    · rintro holds c' same
      cases same
      exact holds _ rfl

/-- The custom flow and the machine write the same if the zero-init chunks leave the number of the
first chunk and each turn agrees: a chunk that only the machine takes is not met, and none is taken
behind the bound of the machine.  Where that number is left, they write the same in no other run. -/
theorem hssBootCustom_agrees (begins : BeginsToLoad target s) (cfg : Config) (inputs : ℕ → Inputs) :
    let custom := customRules target (s.pmpEntry target) (s.firstChunk target)
    let machine := machineRules target (s.pmpEntry target) s.pBootImage
    ((∀ n c, hssBootCustom n s = .ok c →
        c.loader.SameFirst custom machine ∧ c.loader.Agrees custom machine) →
      CustomAgrees cfg inputs target s) ∧
    ((∀ n c, hssBootCustom n s = .ok c → c.loader.SameFirst custom machine) →
      CustomAgrees cfg inputs target s →
        ∀ n c, hssBootCustom n s = .ok c → c.loader.Agrees custom machine) := by
  intro custom machine
  have narrower := narrower_machineRules target (s.pmpEntry target) (s.firstChunk target) s.pBootImage
  rw [customAgrees_iff_leaveTheSame begins]
  constructor
  · intro agree
    have first := (reached_iff begins (P := fun x => x.SameFirst custom machine)).mp
      fun n c reached => (agree n c reached).1
    exact (leaveTheSame_iff narrower first).mpr ((reached_iff begins).mp
      fun n c reached => (agree n c reached).2)
  · intro first same
    exact (reached_iff begins).mpr ((leaveTheSame_iff narrower ((reached_iff begins).mp first)).mp same)

end

/-! ### Images of one byte each -/

/-- The condition on a walk that gets to no chunk past the machine's bound. -/
def Loader.meets (R R' : LoadRules) (x : Loader) : Bool :=
  match x.pos with
  | .zeroing p => (ziChunkDesc x.mem p).size ≠ 0 || R.firstChunk x.mem = R'.firstChunk x.mem
  | .downloading p _ count => (chunkDesc x.mem p).size = 0 ||
    !R'.ends x.mem count && (!R'.takes (chunkDesc x.mem p) || R.takes (chunkDesc x.mem p))
  | .finished => true

theorem Loader.agrees_of_meets {R R' : LoadRules} {x : Loader} (meets : x.meets R R' = true) :
    x.SameFirst R R' ∧ x.Agrees R R' := by
  obtain ⟨mem, written, pos⟩ := x
  cases pos with
  | finished => exact ⟨nofun, trivial⟩
  | zeroing p =>
    refine ⟨fun q here size => ?_, trivial⟩
    cases here
    simp only [Loader.meets, size, ne_eq, not_true, decide_false, Bool.false_or,
      decide_eq_true_eq] at meets
    exact meets
  | downloading p offset count =>
    refine ⟨nofun, fun size => ?_⟩
    simp only [Loader.meets, Bool.or_eq_true, decide_eq_true_eq, Bool.and_eq_true,
      Bool.not_eq_true'] at meets
    obtain ⟨goesOn, takes⟩ := meets.resolve_left size
    rw [if_neg (Bool.eq_false_iff.mp goesOn)]
    exact fun taken => takes.resolve_left fun skipped => Bool.false_ne_true (skipped.symm.trans taken)

/-- A walk that has come to its end stays there. -/
theorem customTurns_of_finished {target : U54} {firstChunk : Word} {c d : Custom} {n k : ℕ}
    (done : customTurns target firstChunk n c = .ok d) (finished : d.pos = .finished) :
    customTurns target firstChunk (n + k) c = .ok d := by
  induction n generalizing c with
  | zero =>
    cases done
    rw [Nat.zero_add]
    induction k with
    | zero => rfl
    | succ k ih =>
      have stays : customTurn target firstChunk d = .ok d := by
        obtain ⟨s, pos⟩ := d
        obtain rfl : pos = .finished := finished
        rfl
      rw [customTurns, stays, ok_bind, ih]
  | succ n ih =>
    obtain ⟨c', turned, rest⟩ := bind_eq_ok.mp done
    rw [Nat.add_right_comm, customTurns, turned, ok_bind]
    exact ih rest

/-- The machine of the hart is about to load an image. -/
def aboutToLoad (mem : Mem) : State :=
  { threeHartsRegistered with
    mem := mem
    machine := fun _ => ⟨.zeroInitChunks, some .setupPmpComplete, 1, 0⟩ }

theorem threeHarts_begins : BeginsToLoad .u54_2 (aboutToLoad threeHarts) :=
  ⟨threeHarts_valid, by decide +kernel, rfl, rfl, rfl⟩

theorem hssBootCustom_agrees_threeHarts :
    CustomAgrees .icicleKitEs (fun _ => tick) .u54_2 (aboutToLoad threeHarts) := by
  refine (hssBootCustom_agrees threeHarts_begins .icicleKitEs fun _ => tick).1 fun n c reached =>
    Loader.agrees_of_meets ?_
  have early : ∀ n < 3, (hssBootCustom n (aboutToLoad threeHarts)).map (fun c => c.loader.meets
      (customRules .u54_2 ((aboutToLoad threeHarts).pmpEntry .u54_2)
        ((aboutToLoad threeHarts).firstChunk .u54_2))
      (machineRules .u54_2 ((aboutToLoad threeHarts).pmpEntry .u54_2)
        (aboutToLoad threeHarts).pBootImage)) =
        .ok true := by decide +kernel
  have last : (hssBootCustom 3 (aboutToLoad threeHarts)).map (fun c => c.pos) = .ok .finished := by
    decide +kernel
  rcases Nat.lt_or_ge n 3 with before | behind
  · have meets := early n before
    rw [reached] at meets
    exact Except.ok.inj meets
  · obtain ⟨k, rfl⟩ := Nat.exists_eq_add_of_le behind
    cases done : hssBootCustom 3 (aboutToLoad threeHarts) with
    | error e =>
      rw [done] at last
      cases last
    | ok d =>
      rw [done] at last
      have finished : d.pos = .finished := Except.ok.inj last
      have notNull := threeHarts_begins.notNull
      rw [hssBootCustom, if_neg notNull, threeHarts_begins.boots] at done reached
      obtain rfl : d = c := Except.ok.inj ((customTurns_of_finished done finished).symm.trans reached)
      rw [Loader.meets, Custom.loader, finished]

/-- The image of three harts with a byte of ancilliary data for hart 2 behind its chunk. -/
def ancilliaryImage : Mem := fun a =>
  if a.toNat < 0x2000 then threeHarts a
  else fieldsMem
    [(0x2000, 4, 1), (0x2008, 8, 0x700), (0x2010, 8, 0x80000000), (0x2018, 8, 1),
      (0x2028, 4, 2), (0x2030, 8, 0x700), (0x2038, 8, 0x90000000), (0x2040, 8, 1),
      (0x2050, 4, 0x82), (0x2058, 8, 0x701), (0x2060, 8, 0x88000000), (0x2068, 8, 1)] a

theorem ancilliaryImage_valid : hssBootValidateImage ancilliaryImage 0x1000 = true := by
  refine (hssBootValidateImage_congr fun a inside => ?_).symm.trans threeHarts_valid
  have below : a.toNat < 0x2000 := by
    rw [mem_span, BootImage.sizeOf] at inside
    bv_omega
  exact (if_pos below).symm

/-- The custom flow leaves the ancilliary data out, and the machine copies it. -/
theorem hssBootCustom_leaves_ancilliary_data :
    BeginsToLoad .u54_2 (aboutToLoad ancilliaryImage) ∧
    (hssBootCustom 4 (aboutToLoad ancilliaryImage)).map (fun c => (c.pos, c.state.mem 0x88000000)) =
      .ok (.finished, 0) ∧
    (loadCalls .icicleKitEs .u54_2 4 (fun _ => tick) (aboutToLoad ancilliaryImage)).map
      (fun t => ((t.machine .u54_2).state, t.mem 0x88000000)) = .ok (.opensbiInit, 0xBB) ∧
    ¬CustomAgrees .icicleKitEs (fun _ => tick) .u54_2 (aboutToLoad ancilliaryImage) := by
  have custom : (hssBootCustom 4 (aboutToLoad ancilliaryImage)).map
      (fun c => (c.pos, c.state.mem 0x88000000)) = .ok (.finished, 0) := by decide +kernel
  have machine : (loadCalls .icicleKitEs .u54_2 4 (fun _ => tick) (aboutToLoad ancilliaryImage)).map
      (fun t => ((t.machine .u54_2).state, t.mem 0x88000000)) = .ok (.opensbiInit, 0xBB) := by
    decide +kernel
  refine ⟨⟨ancilliaryImage_valid, by decide +kernel, rfl, rfl, rfl⟩, custom, machine, fun agrees => ?_⟩
  have same := agrees 4
  cases left : hssBootCustom 4 (aboutToLoad ancilliaryImage) with
  | error e =>
    rw [left] at custom
    cases custom
  | ok c =>
    cases left' : loadCalls .icicleKitEs .u54_2 4 (fun _ => tick) (aboutToLoad ancilliaryImage) with
    | error e =>
      rw [left'] at machine
      cases machine
    | ok t =>
      rw [left] at custom same
      rw [left'] at machine same
      have mem : c.state.mem = t.mem := congrArg Prod.fst (Except.ok.inj same)
      have zero : c.state.mem 0x88000000 = 0 := congrArg Prod.snd (Except.ok.inj custom)
      have byte : t.mem 0x88000000 = 0xBB := congrArg Prod.snd (Except.ok.inj machine)
      rw [mem, byte] at zero
      exact absurd zero (by decide)

end Hss
