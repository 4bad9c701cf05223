import Hss.Boot.Memory

/-! What a boot registers, beside what the same boot registers on a system that was reset before it. -/

namespace Hss

open ByteMemory Runs

variable {cfg : Config} {registry : HartId → IpiRegistry cfg IpiData} {inputs : Inputs}
  {i j p : U54} {s t u : State} {event : BootEvent}

/-! ### What a step writes of the tables -/

theorem SameImage.register (same : SameImage s t) (tables : Tables) :
    tables.register cfg t i = tables.register cfg s i := by
  have leaves (p : U54) : t.leavesOut i p = s.leavesOut i p := by
    simp only [State.leavesOut, State.hasFlag, same.primaryBootHart, same.mem, same.pBootImage]
  have takes (p : U54) : t.takesIn i p = s.takesIn i p := by
    simp only [State.takesIn, State.hasFlag, same.primaryBootHart, same.entryPoint, same.mem,
      same.pBootImage]
  unfold Tables.register Tables.enlist State.domainMask LedgerEntry.enlist LedgerEntry.bootHart
  simp only [leaves, takes, State.hasFlag, same.entryPoint, same.mem, same.pBootImage]

theorem onExit_tables {state : BootState}
    (done : runCallback (bootStateDescs cfg inputs i state).onExit s = .ok t) :
    t.tables = if state = .downloadChunks then s.tables.register cfg s i else s.tables := by
  cases state with
  | downloadChunks => exact registerHarts_tables done
  | opensbiInit =>
    rcases bootOpensbiInitOnExit_cases done with ⟨-, rfl⟩ | ⟨-, sent⟩
    · rfl
    · exact (SameTables.delivery sent).tables
  | _ =>
    cases done
    rfl

theorem onEntry_tables {state : BootState}
    (done : runCallback (bootStateDescs cfg inputs i state).onEntry s = .ok t) :
    t.tables = if state = .setupPmp then s.tables.register cfg s i else s.tables := by
  cases state with
  | setupPmp => exact registerHarts_tables done
  | zeroInitChunks =>
    rw [bootZeroInitChunksOnEntry_eq_ok done]
    exact State.setWalk_tables ..
  | downloadChunks =>
    rcases bootDownloadChunksOnEntry_cases done with ⟨-, rfl⟩ | ⟨-, rfl⟩
    · rfl
    · exact State.setWalk_tables ..
  | opensbiInit =>
    rw [bootOpensbiInitOnEntry_eq_ok done]
    split
    · exact (SameTables.setIterator ..).tables
    · rfl
  | _ =>
    cases done
    rfl

/-- The machine leaves the download. -/
def State.leavesDownload (s : State) (i : U54) : Bool :=
  (s.machine i).prevState = some .downloadChunks && (s.machine i).state ≠ .downloadChunks

/-- The machine enters the set-up of the memory protection. -/
def State.entersSetupPmp (s : State) (i : U54) : Bool :=
  (s.machine i).state = .setupPmp && (s.machine i).prevState ≠ some .setupPmp

/-- The tables after the callbacks of a change of state. -/
def Tables.enter (cfg : Config) (s : State) (i : U54) (tables : Tables) : Tables :=
  let tables := if s.leavesDownload i then tables.register cfg s i else tables
  if s.entersSetupPmp i then tables.register cfg s i else tables

theorem leave_image
    (left : (s.machine i).prevState.elim (.ok t) (fun prev =>
      runCallback (bootStateDescs cfg inputs i prev).onExit t) = .ok u) : SameLoading t u := by
  cases prev : (s.machine i).prevState with
  | none =>
    rw [prev] at left
    cases left
    exact .refl _
  | some state =>
    rw [prev] at left
    exact .onExit left

theorem Entered.tables {a : State} (entered : Entered cfg inputs i s a) :
    a.tables = s.tables.enter cfg s i := by
  have started := SameTables.start inputs.lastEntry s i
  rcases entered.cases with ⟨stays, rfl⟩ | ⟨leaves, b, c, left, came, rfl⟩
  · rw [started.tables]
    cases state : (s.machine i).state <;>
      simp [Tables.enter, State.leavesDownload, State.entersSetupPmp, stays, state]
  · have exit : b.tables = if s.leavesDownload i then s.tables.register cfg s i else s.tables := by
      cases prev : (s.machine i).prevState with
      | none =>
        rw [prev] at left
        cases left
        simpa [State.leavesDownload, prev] using started.tables
      | some state =>
        rw [prev] at left leaves
        have other : state ≠ (s.machine i).state := fun same => leaves (congrArg some same)
        rw [onExit_tables left, started.tables, started.toSameImage.register]
        by_cases download : state = .downloadChunks
        · simp [State.leavesDownload, prev, download, download ▸ other.symm]
        · simp [State.leavesDownload, prev, download]
    have enters : s.entersSetupPmp i = ((s.machine i).state = .setupPmp : Bool) := by
      cases state : (s.machine i).state <;> simp [State.entersSetupPmp, state]
      simpa [state] using leaves
    have image := started.toSameImage.trans (leave_image left).toSameImage
    have entry := onEntry_tables came
    rw [image.register, exit] at entry
    rw [Tables.enter, enters, State.setMachine_tables]
    simpa using entry

/-! ### The download -/

/-- The walk that the download of the machine goes on from. -/
def State.downloadWalk (s : State) (i : U54) : ChunkWalk :=
  if (s.machine i).prevState = some .downloadChunks then (s.localData i).toChunkWalk
  else { (s.localData i).toChunkWalk with
    pChunk := s.pBootImage + BootImage.chunkTableOffset s.mem s.pBootImage +
      sizeOfChunkDesc * s.firstChunk i
    chunkCount := 0
    subChunkOffset := 0 }

/-- The tables after a step of the download of the machine, from `walk` on. -/
def Tables.download (s : State) (i : U54) (walk : ChunkWalk) (tables : Tables) : Tables :=
  let chunk := chunkDesc s.mem walk.pChunk
  if s.numChunks i ≠ 0 ∧ walk.chunkCount ≤ s.lastChunk i ∧ chunk.size ≠ 0 ∧ chunk.OwnedBy i ∧
      hssPmpCheckWrite (s.pmpEntry i) chunk.execAddr chunk.size = true then
    let mem := copy s.mem (chunk.execAddr + walk.subChunkOffset)
      (s.pBootImage + chunk.loadAddr + walk.subChunkOffset) bootSubChunkSize
    let chunk := chunkDesc mem walk.pChunk
    if chunk.owner &&& bootFlagAncilliaryData ≠ 0 then tables.note i chunk.execAddr else tables
  else tables

theorem noteAncilliaryData_tables (i : U54) (chunk : ChunkDesc) (s : State) :
    (noteAncilliaryData i chunk s).tables =
      if chunk.owner &&& bootFlagAncilliaryData ≠ 0 then s.tables.note i chunk.execAddr
      else s.tables := by
  unfold noteAncilliaryData Tables.note
  by_cases flagged : chunk.owner &&& bootFlagAncilliaryData ≠ 0
  · by_cases first : (s.localData i).ancilliaryData = 0
    · have first' : s.tables.ancilliaryData i = 0 := first
      rw [if_pos ⟨flagged, first⟩, if_pos flagged, if_pos first', State.setLocal_tables]
      exact congrArg (Tables.mk · _ _ _) (Function.update_eq_self i s.tables.hartMask)
    · have first' : s.tables.ancilliaryData i ≠ 0 := first
      rw [if_neg (fun h => first h.2), if_pos flagged, if_neg first']
  · rw [if_neg (fun h => flagged h.1), if_neg flagged]

theorem bootDownloadChunksHandler_tables (done : bootDownloadChunksHandler i s = .ok t) :
    t.tables = s.tables.download s i (s.localData i).toChunkWalk := by
  unfold Tables.download
  rcases bootDownloadChunksHandler_cases done with ⟨none, rfl⟩ | ⟨-, past, rfl⟩ | ⟨-, empty, rfl⟩ |
    ⟨-, -, refused, rfl⟩ | ⟨chunks, count, size, permitted, rfl⟩
  · rw [if_neg (fun h => h.1 none)]
    rfl
  · rw [if_neg (fun h => past h.2.1)]
    rfl
  · rw [if_neg (fun h => h.2.2.1 empty)]
    rfl
  · rw [if_neg (fun h => refused h.2.2.2)]
    exact State.setWalk_tables ..
  · rw [if_pos ⟨chunks, count, size, permitted⟩, nextSlice, State.setWalk_tables,
      noteAncilliaryData_tables]
    rfl

/-- The download handler starts from the walk that the entry of its state set up. -/
theorem Entered.downloadWalk {a : State} (entered : Entered cfg inputs i s a)
    (download : (s.machine i).state = .downloadChunks) (chunks : s.numChunks i ≠ 0) :
    (a.localData i).toChunkWalk = s.downloadWalk i := by
  have started := (SameTables.start inputs.lastEntry s i).toSameLoading
  unfold State.downloadWalk
  rcases entered.cases with ⟨stays, rfl⟩ | ⟨leaves, b, c, left, came, rfl⟩
  · rw [download] at stays
    rw [if_pos stays]
    exact started.walk i
  · have image := started.trans (leave_image left)
    rw [download] at leaves came
    rw [if_neg leaves]
    rcases bootDownloadChunksOnEntry_cases came with ⟨none, -⟩ | ⟨-, rfl⟩
    · exact absurd none (image.numChunks i ▸ chunks)
    · simp [State.setWalk, State.firstChunk, image.walk i, image.mem, image.pBootImage]

/-- The tables after a run of the machine. -/
def Tables.run (cfg : Config) (s : State) (i : U54) (tables : Tables) : Tables :=
  let tables := tables.enter cfg s i
  if (s.machine i).state = .downloadChunks then tables.download s i (s.downloadWalk i) else tables

theorem SameImage.download {a : State} (same : SameImage s a) (walk : ChunkWalk) (tables : Tables) :
    tables.download a i walk = tables.download s i walk := by
  have lastChunk : a.lastChunk i = s.lastChunk i := by
    rw [State.lastChunk, State.lastChunk, same.mem, same.pBootImage]
  unfold Tables.download
  rw [same.numChunks, lastChunk, same.mem, same.pBootImage, same.pmpEntry]

theorem Tables.download_none (none : s.numChunks i = 0) (walk : ChunkWalk) (tables : Tables) :
    tables.download s i walk = tables :=
  if_neg fun h => h.1 none

theorem handler_tables {state : BootState} (other : state ≠ .downloadChunks)
    (done : (bootStateDescs cfg inputs i state).handler s = .ok t) : t.tables = s.tables := by
  by_cases loading : state.loading = false
  · exact (SameTables.handler loading done).tables
  · cases state with
    | zeroInitChunks =>
      rcases bootZeroInitChunksHandler_cases done with ⟨-, rfl⟩ | ⟨-, -, rfl⟩ | ⟨-, -, rfl⟩ |
        ⟨-, -, rfl⟩
      · rfl
      · exact State.setWalk_tables ..
      · rfl
      · exact State.setWalk_tables ..
    | downloadChunks => exact absurd rfl other
    | _ => exact absurd rfl loading

theorem runBootService_tables (done : runBootService cfg inputs i s = .ok t) :
    t.tables = s.tables.run cfg s i := by
  obtain ⟨a, b, entered, handled, rfl⟩ := runBootService_cases done
  rw [State.setMachine_tables]
  unfold Tables.run
  dsimp only
  rw [← entered.tables]
  by_cases download : (s.machine i).state = .downloadChunks
  · rw [if_pos download]
    rw [download] at handled
    rw [bootDownloadChunksHandler_tables handled, entered.image.download]
    by_cases none : s.numChunks i = 0
    · rw [Tables.download_none none, Tables.download_none none]
    · rw [entered.downloadWalk download none]
  · rw [if_neg download]
    exact handler_tables download handled

/-- The tables after an event. -/
def Tables.next (cfg : Config) (s : State) (tables : Tables) : BootEvent → Tables
  | .run i _ => tables.run cfg s i
  | _ => tables

theorem bootStep_tables (step : bootStep cfg registry s event t) :
    t.tables = s.tables.next cfg s event := by
  have restart (hart : U54) (u : State) (same : u.tables = s.tables) :
      (restartMachine hart u).tables = s.tables :=
    (SameTables.restartMachine hart u).tables.trans same
  cases event with
  | run i inputs => exact runBootService_tables step
  | restartCore source =>
    simp only [bootStep, bootNext, bind_eq_ok] at step
    obtain ⟨⟨u, result⟩, restarted, done⟩ := step
    cases done
    exact hssBootRestartCore_induction (P := fun u => u.tables = s.tables) restart
      (fun _ same => same) restarted rfl
  | restartCores mask =>
    cases step
    exact hssBootRestartCoresUsingBitmask_induction (P := fun u => u.tables = s.tables) restart
      (fun _ same => same) mask rfl
  | bus call =>
    simp only [bootStep, bootNext, bind_eq_ok] at step
    obtain ⟨d, -, done⟩ := step
    cases done
    rfl
  | _ =>
    cases step
    rfl

theorem Tables.next_withTables (cfg : Config) (s : State) (other tables : Tables)
    (event : BootEvent) : tables.next cfg (s.withTables other) event = tables.next cfg s event := by
  cases event <;> rfl

/-! ### A boot beside one after a reset -/

/-- The system since a boot began, the tables that a system would have that was reset when the boot
began, and what the boot has registered: its machines, and the harts they took in or left out. -/
structure BootAfresh where
  state : State
  afresh : Tables
  machines : U54 → Bool
  harts : U54 → Bool

/-- The machine whose `register_harts` the event runs. -/
def registering (s : State) : BootEvent → Option U54
  | .run i _ => if s.leavesDownload i || s.entersSetupPmp i then some i else none
  | _ => none

/-- The event happens in the system, and in the system with the other tables. -/
def afreshNext (cfg : Config) (registry : HartId → IpiRegistry cfg IpiData) (b : BootAfresh)
    (event : BootEvent) : Except Halt BootAfresh := do
  let state ← bootNext cfg registry b.state event
  let other ← bootNext cfg registry (b.state.withTables b.afresh) event
  return {
    state
    afresh := other.tables
    machines := fun i => b.machines i || registering b.state event = some i
    harts := fun p => b.harts p || (registering b.state event).any fun i =>
      b.state.takesIn i p || b.state.leavesOut i p }

def afreshStep (cfg : Config) (registry : HartId → IpiRegistry cfg IpiData) (b : BootAfresh)
    (event : BootEvent) (b' : BootAfresh) : Prop :=
  afreshNext cfg registry b event = .ok b'

/-- A boot begins in `s`. -/
def beginBoot (bootInfo : Word) (s : State) : BootAfresh :=
  ⟨s, resetTables bootInfo, fun _ => false, fun _ => false⟩

/-- What the boot has registered is what it would have registered after a reset. -/
structure RegisteredAfresh (b : BootAfresh) : Prop where
  hartMask : ∀ i, b.machines i = true → (b.state.localData i).hartMask = b.afresh.hartMask i
  ancilliaryData : ∀ i, b.machines i = true →
    (b.state.localData i).ancilliaryData = b.afresh.ancilliaryData i
  hartLedger : ∀ p, b.harts p = true → b.state.hartLedger p = b.afresh.hartLedger p
  hartIndex2id : ∀ p, b.harts p = true → b.state.hartIndex2id p = b.afresh.hartIndex2id p

/-- What `mpfs_domains_register_boot_hart` writes is the same in both entries. -/
def LedgerEntry.SameDomain (entry entry' : LedgerEntry) : Prop :=
  entry.name = entry'.name ∧ entry.nextAddr = entry'.nextAddr ∧ entry.nextArg1 = entry'.nextArg1 ∧
    entry.hartMask = entry'.hartMask ∧ entry.nextMode = entry'.nextMode ∧
    entry.allowColdReboot = entry'.allowColdReboot ∧ entry.allowWarmReboot = entry'.allowWarmReboot

/-- The last reset of the hart is the same in both entries. -/
def LedgerEntry.SameReset (entry entry' : LedgerEntry) : Prop :=
  entry.resetType = entry'.resetType ∧ entry.resetReason = entry'.resetReason

/-- What machine `i` registers for the first time in a boot, and what `register_harts` does not write
of it, is in `old` as in `reset`. -/
structure FindsReset (reset old : Tables) (s : State) (machines harts : U54 → Bool) (i : U54) :
    Prop where
  hartMask : machines i = false → old.hartMask i &&& ~~~s.domainMask i bootMachine = 0
  ancilliaryData : machines i = false → old.ancilliaryData i = reset.ancilliaryData i
  hartIndex2id : ∀ p, harts p = false → s.takesIn i p = true →
    old.hartIndex2id p = reset.hartIndex2id p
  domain : ∀ p, harts p = false → (s.takesIn i p = true ∧ p ≠ i) ∨ s.leavesOut i p = true →
    (old.hartLedger p).SameDomain (reset.hartLedger p)
  lastReset : ∀ p, harts p = false → s.leavesOut i p = true →
    (old.hartLedger p).SameReset (reset.hartLedger p)

/-- The event registers only what the boots before it have left as in a system that was reset. -/
def findsReset (bootInfo : Word) (old : Tables) (b : BootAfresh) (event : BootEvent) : Prop :=
  ∀ i, registering b.state event = some i →
    FindsReset (resetTables bootInfo) old b.state b.machines b.harts i

/-- How the tables of a boot, which began with `old`, stand to the tables `fresh` of a boot that
began with `reset`. -/
structure Beside (reset old : Tables) (machines harts : U54 → Bool) (tables fresh : Tables) :
    Prop where
  hartMask : ∀ i, tables.hartMask i = old.hartMask i ||| fresh.hartMask i
  sameMask : ∀ i, machines i = true → tables.hartMask i = fresh.hartMask i
  ancilliaryData : ∀ i, machines i = true ∨ old.ancilliaryData i = reset.ancilliaryData i →
    tables.ancilliaryData i = fresh.ancilliaryData i
  untouched : ∀ p, harts p = false →
    tables.hartLedger p = old.hartLedger p ∧ fresh.hartLedger p = reset.hartLedger p ∧
    tables.hartIndex2id p = old.hartIndex2id p ∧ fresh.hartIndex2id p = reset.hartIndex2id p
  registered : ∀ p, harts p = true → tables.hartLedger p = fresh.hartLedger p ∧
    tables.hartIndex2id p = fresh.hartIndex2id p

variable {reset old tables fresh : Tables} {machines harts : U54 → Bool} {b b' : BootAfresh}
  {bootInfo : Word}

theorem Beside.begin (bootInfo : Word) (old : Tables) :
    Beside (resetTables bootInfo) old (fun _ => false) (fun _ => false) old (resetTables bootInfo) where
  hartMask i := by simp [resetTables]
  sameMask _ none := absurd none Bool.false_ne_true
  ancilliaryData i h := h.resolve_left Bool.false_ne_true
  untouched _ _ := ⟨rfl, rfl, rfl, rfl⟩
  registered _ none := absurd none Bool.false_ne_true

theorem LedgerEntry.enlist_leaves {entry entry' : LedgerEntry} (leaves : s.leavesOut i p = true)
    (domain : entry.SameDomain entry') (lastReset : entry.SameReset entry') :
    entry.enlist s i p = entry'.enlist s i p := by
  cases entry
  cases entry'
  simp_all [enlist, SameDomain, SameReset]

theorem LedgerEntry.enlist_takes {entry entry' : LedgerEntry} (leaves : s.leavesOut i p = false)
    (takes : s.takesIn i p = true) (domain : entry.SameDomain entry') :
    entry.enlist s i p = entry'.enlist s i p := by
  cases entry
  cases entry'
  simp_all [enlist, SameDomain]

/-- Nothing is left of the entry of a hart that boots a domain. -/
theorem LedgerEntry.bootHart_eq (entry entry' : LedgerEntry) (leaves : s.leavesOut i p = false)
    (takes : s.takesIn i p = true) (hartMask : BitVec 32) (data : Word) :
    (entry.enlist s i p).bootHart cfg s i hartMask data =
      (entry'.enlist s i p).bootHart cfg s i hartMask data := by
  simp [enlist, bootHart, leaves, takes]

theorem or_or_of_within {old fresh mask : BitVec 32} (within : old &&& ~~~mask = 0) :
    old ||| fresh ||| mask = fresh ||| mask := by
  ext k inRange
  have bit := congrArg (·[k]) within
  simp at bit
  simp
  cases kept : old[k] <;> simp_all

theorem Beside.note (beside : Beside reset old machines harts tables fresh) (i : U54) (a : Word) :
    Beside reset old machines harts (tables.note i a) (fresh.note i a) := by
  rw [Tables.note_eq, Tables.note_eq i fresh]
  refine { beside with ancilliaryData := fun j known => ?_ }
  have same := beside.ancilliaryData j known
  rw [Tables.note_ancilliaryData, Tables.note_ancilliaryData]
  by_cases h : j = i
  · rw [← h, same]
  · simp [h, same]

theorem Beside.register (cfg : Config) (beside : Beside reset old machines harts tables fresh)
    (finds : FindsReset reset old s machines harts i) :
    Beside reset old (fun j => machines j || decide (j = i))
      (fun p => harts p || (s.takesIn i p || s.leavesOut i p))
      (tables.register cfg s i) (fresh.register cfg s i) := by
  have data : tables.ancilliaryData i = fresh.ancilliaryData i := by
    refine beside.ancilliaryData i ?_
    cases first : machines i with
    | true => exact .inl rfl
    | false => exact .inr (finds.ancilliaryData first)
  have mask : tables.hartMask i ||| s.domainMask i bootMachine =
      fresh.hartMask i ||| s.domainMask i bootMachine := by
    cases first : machines i with
    | true => rw [beside.sameMask i first]
    | false =>
      have within := finds.hartMask first
      rw [beside.hartMask]
      exact or_or_of_within (finds.hartMask first)
  refine ⟨?_, ?_, ?_, ?_, ?_⟩
  · intro j
    rw [Tables.register_hartMask, Tables.register_hartMask]
    by_cases h : j = i
    · subst h
      simp [beside.hartMask, BitVec.or_assoc]
    · simp [h, beside.hartMask]
  · intro j marked
    rw [Tables.register_hartMask, Tables.register_hartMask]
    by_cases h : j = i
    · subst h
      simpa using mask
    · simp only [h, decide_false, Bool.or_false] at marked
      simp [h, beside.sameMask j marked]
  · intro j known
    rw [Tables.register_ancilliaryData, Tables.register_ancilliaryData]
    by_cases h : j = i
    · rw [h, data]
    · refine beside.ancilliaryData j (known.imp_left ?_)
      simp [h]
  · intro p other
    simp only [Bool.or_eq_false_iff] at other
    obtain ⟨new, takes, leaves⟩ := other
    have stays (tables : Tables) : (tables.register cfg s i).hartLedger p = tables.hartLedger p ∧
        (tables.register cfg s i).hartIndex2id p = tables.hartIndex2id p := by
      have none : ¬ (s.takesIn i i = true ∧ p = i) := fun ⟨boots, same⟩ => by simp_all
      rw [Tables.register_hartLedger, Tables.register_hartIndex2id, if_neg none]
      simp [LedgerEntry.enlist, takes, leaves]
    rw [(stays tables).1, (stays tables).2, (stays fresh).1, (stays fresh).2]
    exact beside.untouched p new
  · intro p touched
    rw [Tables.register_hartLedger, Tables.register_hartLedger, Tables.register_hartIndex2id,
      Tables.register_hartIndex2id, mask, data]
    cases new : harts p with
    | true =>
      obtain ⟨ledger, index⟩ := beside.registered p new
      rw [ledger, index]
      exact ⟨rfl, rfl⟩
    | false =>
      obtain ⟨ledger, ledger', index, index'⟩ := beside.untouched p new
      rw [ledger, ledger', index, index']
      cases leaves : s.leavesOut i p with
      | true =>
        have none : ¬ (s.takesIn i i = true ∧ p = i) := by
          rintro ⟨boots, rfl⟩
          rw [State.takesIn_of_leavesOut leaves] at boots
          cases boots
        rw [if_neg none, if_neg none]
        exact ⟨LedgerEntry.enlist_leaves leaves (finds.domain p new (.inr leaves))
          (finds.lastReset p new leaves), rfl⟩
      | false =>
        have takes : s.takesIn i p = true := by simpa [new, leaves] using touched
        refine ⟨?_, finds.hartIndex2id p new takes⟩
        by_cases same : p = i
        · subst same
          rw [if_pos ⟨takes, rfl⟩, if_pos ⟨takes, rfl⟩]
          exact LedgerEntry.bootHart_eq _ _ leaves takes _ _
        · rw [if_neg (fun h => same h.2), if_neg (fun h => same h.2)]
          exact LedgerEntry.enlist_takes leaves takes (finds.domain p new (.inl ⟨takes, same⟩))

/-- A machine that registers a second time finds what it registered. -/
theorem FindsReset.again (machines harts : U54 → Bool) :
    FindsReset reset old s (fun j => machines j || decide (j = i))
      (fun p => harts p || (s.takesIn i p || s.leavesOut i p)) i where
  hartMask new := by simp at new
  ancilliaryData new := by simp at new
  hartIndex2id p new takes := by simp [takes] at new
  domain p new touched := by
    rcases touched with ⟨takes, -⟩ | leaves
    · simp [takes] at new
    · simp [leaves] at new
  lastReset p new leaves := by simp [leaves] at new

theorem Beside.enter (cfg : Config) (beside : Beside reset old machines harts tables fresh)
    (finds : FindsReset reset old s machines harts i)
    (registers : (s.leavesDownload i || s.entersSetupPmp i) = true) :
    Beside reset old (fun j => machines j || decide (j = i))
      (fun p => harts p || (s.takesIn i p || s.leavesOut i p))
      (tables.enter cfg s i) (fresh.enter cfg s i) := by
  have once := beside.register cfg finds
  unfold Tables.enter
  cases leaves : s.leavesDownload i with
  | false =>
    have enters : s.entersSetupPmp i = true := by simpa [leaves] using registers
    simpa [enters] using once
  | true =>
    cases enters : s.entersSetupPmp i with
    | false => simpa using once
    | true => simpa [Bool.or_assoc] using once.register cfg (.again machines harts)

theorem Beside.download (beside : Beside reset old machines harts tables fresh) (walk : ChunkWalk) :
    Beside reset old machines harts (tables.download s i walk) (fresh.download s i walk) := by
  unfold Tables.download
  dsimp only
  split
  · split
    · exact beside.note ..
    · exact beside
  · exact beside

theorem Beside.step
    (beside : Beside (resetTables bootInfo) old b.machines b.harts b.state.tables b.afresh)
    (finds : findsReset bootInfo old b event) (step : afreshStep cfg registry b event b') :
    Beside (resetTables bootInfo) old b'.machines b'.harts b'.state.tables b'.afresh := by
  simp only [afreshStep, afreshNext, bind_eq_ok] at step
  obtain ⟨t, next, other, twin, done⟩ := step
  cases done
  have twin := bootStep_tables twin
  rw [Tables.next_withTables, State.withTables_tables] at twin
  dsimp only
  rw [bootStep_tables next, twin]
  cases event with
  | run i inputs =>
    have entered : Beside (resetTables bootInfo) old
        (fun j => b.machines j || registering b.state (.run i inputs) = some j)
        (fun p => b.harts p || (registering b.state (.run i inputs)).any fun i =>
          b.state.takesIn i p || b.state.leavesOut i p)
        (b.state.tables.enter cfg b.state i) (b.afresh.enter cfg b.state i) := by
      cases registers : b.state.leavesDownload i || b.state.entersSetupPmp i with
      | true =>
        have named : registering b.state (.run i inputs) = some i := if_pos registers
        rw [named]
        simpa [eq_comm (a := i)] using beside.enter cfg (finds i named) registers
      | false =>
        have named : registering b.state (.run i inputs) = none :=
          if_neg (by simp [registers])
        obtain ⟨leaves, enters⟩ := Bool.or_eq_false_iff.mp registers
        rw [named]
        simpa [Tables.enter, leaves, enters] using beside
    unfold Tables.next Tables.run
    dsimp only
    split
    · exact entered.download _
    · exact entered
  | _ => simpa [registering, Tables.next] using beside

/-- Whatever was booted before: if a boot finds what it registers, and does not write itself, as
after a reset, then it registers what it would have registered after a reset. -/
theorem registersAfresh {events : List BootEvent}
    (run : Run (Under (findsReset bootInfo s.tables) (afreshStep cfg registry))
      (beginBoot bootInfo s) events b) : RegisteredAfresh b := by
  have beside : Beside (resetTables bootInfo) s.tables b.machines b.harts b.state.tables b.afresh :=
    run.invariant (I := fun b =>
      Beside (resetTables bootInfo) s.tables b.machines b.harts b.state.tables b.afresh)
      (Beside.begin bootInfo s.tables) fun _ _ _ beside step => beside.step step.1 step.2
  exact {
    hartMask := beside.sameMask
    ancilliaryData := fun i ran => beside.ancilliaryData i (.inl ran)
    hartLedger := fun p touched => (beside.registered p touched).1
    hartIndex2id := fun p touched => (beside.registered p touched).2 }

theorem afresh_of_reset (reset : s.tables = resetTables bootInfo) {events : List BootEvent}
    (run : Run (afreshStep cfg registry) (beginBoot bootInfo s) events b) :
    b.afresh = b.state.tables := by
  refine run.invariant (I := fun b => b.afresh = b.state.tables) reset.symm ?_
  intro b event b' same step
  simp only [afreshStep, afreshNext, bind_eq_ok] at step
  obtain ⟨t, next, other, twin, done⟩ := step
  cases done
  rw [same, State.withTables_self, next] at twin
  cases twin
  rfl

theorem afreshRun_state {events : List BootEvent}
    (run : Run (afreshStep cfg registry) (beginBoot bootInfo s) events b) :
    Run (bootStep cfg registry) s events b.state := by
  induction run with
  | nil => exact .nil
  | snoc _ last before =>
    simp only [afreshStep, afreshNext, bind_eq_ok] at last
    obtain ⟨t, next, other, twin, done⟩ := last
    cases done
    exact before.snoc next

/-! ### Two boots -/

/-- The image of three harts, and at `0x8000` an image of the first hart alone. -/
def twoImages : Mem := fun a =>
  if a < 0x8000 then threeHarts a
  else fieldsMem
    [(0x8000, 4, 0xB007C0DE), (0x8010, 4, 2617765273), (0x8018, 8, 0x1000), (0x8020, 8, 0x2000),
      (0x85C8, 8, 0x3000), (0x8028, 8, 0x90000000), (0x8038, 8, 1),
      (0x9000, 4, 1), (0x9008, 8, 0x700), (0x9010, 8, 0x90000000), (0x9018, 8, 1)] a

theorem twoImages_first : hssBootValidateImage twoImages 0x1000 = true := by
  rw [← threeHarts_valid]
  refine hssBootValidateImage_congr fun a inside => if_pos ?_
  rw [mem_span, BootImage.sizeOf] at inside
  bv_omega

theorem twoImages_second : hssBootValidateImage twoImages 0x8000 = true := by
  refine (hssBootValidateImage_congr fun a inside => if_neg ?_).trans <|
    hssBootValidateImage_fieldsMem (by decide +kernel) <|
      validateCrc_fieldsMem (n := BootImage.sizeOfV0) (by decide +kernel) (by decide) (by decide)
        (by decide +kernel)
  rw [mem_span, BootImage.sizeOf] at inside
  bv_omega

/-- The system with the two images, to which the first is given. -/
def twoImagesRegistered : State :=
  (({ powerOn .icicleKitEs twoImages (fun _ _ => ⟨0, 0, .nullRegion, false, false, false, false⟩) 0
    with pBootImage := 0x1000 }).notify .ddrTrained).notify .startupComplete

/-- The machines of all harts are restarted. -/
def restartedAll (s : State) : State := (bootUsingHartBitmask bitmaskAllU54 s).1

/-- The first machine runs until it has registered its harts. -/
def registerEvents : List BootEvent := [.run .u54_1 tick, .run .u54_1 tick]

/-- The system after a boot of the first image has registered its harts. -/
def firstImageBooted : State :=
  (runAll (bootNext .icicleKitEs fun _ => .bare ..) (restartedAll twoImagesRegistered)
    registerEvents).toOption.get (by decide +kernel)

instance (entry entry' : LedgerEntry) : Decidable (entry.SameDomain entry') :=
  inferInstanceAs (Decidable (_ ∧ _))

instance (entry entry' : LedgerEntry) : Decidable (entry.SameReset entry') :=
  inferInstanceAs (Decidable (_ ∧ _))

instance (reset old : Tables) (s : State) (machines harts : U54 → Bool) (i : U54) :
    Decidable (FindsReset reset old s machines harts i) :=
  decidable_of_iff
    ((machines i = false → old.hartMask i &&& ~~~s.domainMask i bootMachine = 0) ∧
      (machines i = false → old.ancilliaryData i = reset.ancilliaryData i) ∧
      (∀ p, harts p = false → s.takesIn i p = true → old.hartIndex2id p = reset.hartIndex2id p) ∧
      (∀ p, harts p = false → (s.takesIn i p = true ∧ p ≠ i) ∨ s.leavesOut i p = true →
        (old.hartLedger p).SameDomain (reset.hartLedger p)) ∧
      ∀ p, harts p = false → s.leavesOut i p = true →
        (old.hartLedger p).SameReset (reset.hartLedger p))
    ⟨fun ⟨h₁, h₂, h₃, h₄, h₅⟩ => ⟨h₁, h₂, h₃, h₄, h₅⟩, fun h => ⟨h.1, h.2, h.3, h.4, h.5⟩⟩

instance (bootInfo : Word) (old : Tables) (b : BootAfresh) (event : BootEvent) :
    Decidable (findsReset bootInfo old b event) :=
  inferInstanceAs (Decidable (∀ i, registering b.state event = some i →
    FindsReset (resetTables bootInfo) old b.state b.machines b.harts i))

/-- A second boot of the same image. -/
theorem registersAfresh_again :
    ∃ b, b.machines .u54_1 = true ∧ (b.state.localData .u54_1).hartMask = 0xE ∧
      RegisteredAfresh b := by
  obtain ⟨b, run, ran, mask⟩ := exists_run (P := fun b => b.machines .u54_1 = true ∧
      (b.state.localData .u54_1).hartMask = 0xE)
    (fun b event => if findsReset 0 (restartedAll firstImageBooted).tables b event then
      afreshNext .icicleKitEs (fun _ => .bare ..) b event else .error .chunkNotNull)
    (beginBoot 0 (restartedAll firstImageBooted)) registerEvents (by decide +kernel)
  exact ⟨b, ran, mask, registersAfresh (under_of_guard run)⟩

/-- After a boot of the image of three harts, the image of the first hart alone is booted: the
machine and the domain of that hart keep the other two. -/
theorem secondImage_keepsHarts :
    ∃ before s b, Run (bootStep .icicleKitEs fun _ => .bare ..) (powerOn .icicleKitEs twoImages
        (fun _ _ => ⟨0, 0, .nullRegion, false, false, false, false⟩) 0) before s ∧
      Run (afreshStep .icicleKitEs fun _ => .bare ..) (beginBoot 0 s) registerEvents b ∧
      b.machines .u54_1 = true ∧ b.harts .u54_1 = true ∧
      (b.state.localData .u54_1).hartMask = 0xE ∧ b.afresh.hartMask .u54_1 = 0x2 ∧
      (b.state.hartLedger .u54_1).hartMask = 0xE ∧ (b.afresh.hartLedger .u54_1).hartMask = 0x2 := by
  have registered : Run (bootStep .icicleKitEs fun _ => .bare ..) (powerOn .icicleKitEs twoImages
      (fun _ _ => ⟨0, 0, .nullRegion, false, false, false, false⟩) 0)
      [.registerBootImage 0x1000, .notify .ddrTrained, .notify .startupComplete]
      twoImagesRegistered := ((Run.nil.snoc rfl).snoc rfl).snoc rfl
  have booted : Run (bootStep .icicleKitEs fun _ => .bare ..) (restartedAll twoImagesRegistered)
      registerEvents firstImageBooted :=
    run_of_runAll (ok_of_toOption (Option.some_get _).symm)
  have first := (registered.snoc (restartCore_all twoImages_first)).trans booted
  have mem : firstImageBooted.mem = twoImages := by with_unfolding_all rfl
  have valid : hssBootValidateImage firstImageBooted.mem 0x8000 = true := by
    rw [mem, twoImages_second]
  have given : bootStep .icicleKitEs (fun _ => .bare ..) firstImageBooted (.registerBootImage 0x8000)
      { firstImageBooted with pBootImage := 0x8000 } := rfl
  have second := (first.snoc given).snoc (restartCore_all valid)
  obtain ⟨b, run, kept⟩ := exists_run (P := fun b => b.machines .u54_1 = true ∧
      b.harts .u54_1 = true ∧ (b.state.localData .u54_1).hartMask = 0xE ∧
      b.afresh.hartMask .u54_1 = 0x2 ∧ (b.state.hartLedger .u54_1).hartMask = 0xE ∧
      (b.afresh.hartLedger .u54_1).hartMask = 0x2)
    (afreshNext .icicleKitEs fun _ => .bare ..)
    (beginBoot 0 (restartedAll { firstImageBooted with pBootImage := 0x8000 })) registerEvents
    (by decide +kernel)
  exact ⟨_, _, b, second, run, kept⟩

end Hss
