import Hss.Boot.Control

/-! The tables that the boot machines register their harts in, and what a registration writes of
them. -/

namespace Hss

/-- The hart mask and the ancilliary data of each machine, the ledger of the domains, and
`mpfs_hart_index2id`. -/
@[ext] structure Tables where
  hartMask : U54 → BitVec 32
  ancilliaryData : U54 → Word
  hartLedger : U54 → LedgerEntry
  hartIndex2id : U54 → ℤ

/-- The tables of a system that was reset. -/
def resetTables (bootInfo : Word) : Tables where
  hartMask _ := 0
  ancilliaryData hart := if hart = .u54_1 then bootInfo else 0
  hartLedger _ := ⟨List.replicate 63 0, 0, 0, 0, 0, 0, false, 0, 0, false, false⟩
  hartIndex2id hart := hart.num

namespace State

variable (s : State) (i p : U54)

def tables : Tables where
  hartMask hart := (s.localData hart).hartMask
  ancilliaryData hart := (s.localData hart).ancilliaryData
  hartLedger := s.hartLedger
  hartIndex2id := s.hartIndex2id

/-- The same system with other tables. -/
def withTables (tables : Tables) : State :=
  { s with
    localData := fun hart => { s.localData hart with
      hartMask := tables.hartMask hart
      ancilliaryData := tables.ancilliaryData hart }
    hartLedger := tables.hartLedger
    hartIndex2id := tables.hartIndex2id }

@[simp] theorem withTables_tables (tables : Tables) : (s.withTables tables).tables = tables := rfl

@[simp] theorem withTables_self : s.withTables s.tables = s := rfl

/-- Machine `i` has hart `p` left out of OpenSBI. -/
def leavesOut : Bool := s.primaryBootHart i && s.hasFlag p bootFlagSkipOpensbi

/-- Machine `i` takes hart `p` into its domain. -/
def takesIn : Bool :=
  s.primaryBootHart i && !s.hasFlag p bootFlagSkipOpensbi &&
    (p = i || s.entryPoint p = s.entryPoint i)

/-- The harts of `peers` that machine `i` takes into its domain. -/
def domainMask (peers : List U54) : BitVec 32 :=
  peers.foldl (fun mask peer => if s.takesIn i peer then mask ||| (1 : BitVec 32) <<< peer.num
    else mask) 0

end State

/-! ### Registration -/

/-- The entry of hart `p` after the turn of machine `i` for it. -/
def LedgerEntry.enlist (s : State) (i p : U54) (entry : LedgerEntry) : LedgerEntry :=
  if s.leavesOut i p then { entry with ownerHartid := 0, bootPending := false }
  else if s.takesIn i p then
    { entry with ownerHartid := i.num, bootPending := true, resetReason := 0, resetType := 0 }
  else entry

/-- The entry of machine `i` after it registered its domain. -/
def LedgerEntry.bootHart (cfg : Config) (s : State) (i : U54) (hartMask : BitVec 32)
    (ancilliaryData : Word) (entry : LedgerEntry) : LedgerEntry :=
  { entry with
    name := BootImage.name s.mem s.pBootImage i 63
    nextAddr := s.entryPoint i
    nextArg1 := if ancilliaryData ≠ 0 then ancilliaryData else cfg.provideDtb.getD 0
    hartMask := hartMask
    nextMode := (BootImage.privMode s.mem s.pBootImage i).setWidth 32
    allowColdReboot := s.hasFlag i bootFlagAllowColdReboot
    allowWarmReboot := s.hasFlag i bootFlagAllowWarmReboot }

namespace Tables

/-- The tables after the turns of machine `i` for `peers`. -/
def enlist (s : State) (i : U54) (peers : List U54) (tables : Tables) : Tables where
  hartMask := Function.update tables.hartMask i (tables.hartMask i ||| s.domainMask i peers)
  ancilliaryData := tables.ancilliaryData
  hartLedger p :=
    if p ∈ peers then (tables.hartLedger p).enlist s i p else tables.hartLedger p
  hartIndex2id p := if p ∈ peers ∧ s.leavesOut i p then -1 else tables.hartIndex2id p

/-- The tables after machine `i` registered its harts. -/
def register (cfg : Config) (s : State) (i : U54) (tables : Tables) : Tables :=
  let tables := tables.enlist s i bootMachine
  if s.takesIn i i then
    let entry := (tables.hartLedger i).bootHart cfg s i (tables.hartMask i) (tables.ancilliaryData i)
    { tables with hartLedger := Function.update tables.hartLedger i entry }
  else tables

/-- The tables after machine `i` met a chunk of ancilliary data at `p`. -/
def note (i : U54) (p : Word) (tables : Tables) : Tables :=
  if tables.ancilliaryData i = 0 then
    { tables with ancilliaryData := Function.update tables.ancilliaryData i p }
  else tables

section
variable (cfg : Config) (s : State) (i p : U54) (tables : Tables)

theorem note_ancilliaryData (a : Word) (j : U54) : (tables.note i a).ancilliaryData j =
    if j = i ∧ tables.ancilliaryData i = 0 then a else tables.ancilliaryData j := by
  unfold note
  by_cases first : tables.ancilliaryData i = 0
  · rw [if_pos first]
    by_cases same : j = i
    · rw [if_pos ⟨same, first⟩, same]
      exact Function.update_self ..
    · rw [if_neg (fun h => same h.1)]
      exact Function.update_of_ne same ..
  · rw [if_neg first, if_neg (fun h => first h.2)]

theorem note_eq (a : Word) : tables.note i a =
    { tables with ancilliaryData := (tables.note i a).ancilliaryData } := by
  unfold note
  split <;> rfl

theorem register_hartMask : (tables.register cfg s i).hartMask =
    Function.update tables.hartMask i (tables.hartMask i ||| s.domainMask i bootMachine) := by
  unfold register
  dsimp only
  split <;> rfl

@[simp] theorem register_ancilliaryData :
    (tables.register cfg s i).ancilliaryData = tables.ancilliaryData := by
  unfold register
  dsimp only
  split <;> rfl

theorem register_hartLedger : (tables.register cfg s i).hartLedger p =
    if s.takesIn i i ∧ p = i then ((tables.hartLedger p).enlist s i p).bootHart cfg s i
      (tables.hartMask i ||| s.domainMask i bootMachine) (tables.ancilliaryData i)
    else (tables.hartLedger p).enlist s i p := by
  unfold register
  dsimp only
  by_cases same : p = i
  · subst same
    split <;> simp [enlist, mem_bootMachine, *]
  · split <;> simp [enlist, mem_bootMachine, same]

theorem register_hartIndex2id : (tables.register cfg s i).hartIndex2id p =
    if s.leavesOut i p then -1 else tables.hartIndex2id p := by
  unfold register
  dsimp only
  split <;> simp [enlist, mem_bootMachine]

end

end Tables

variable {cfg : Config} {inputs : Inputs} {i j p peer target : U54} {s t u : State}

theorem State.setLocal_tables (s : State) (i : U54) (l : LocalData) : (s.setLocal i l).tables =
    { s.tables with
      hartMask := Function.update s.tables.hartMask i l.hartMask
      ancilliaryData := Function.update s.tables.ancilliaryData i l.ancilliaryData } := by
  ext j
  all_goals first | rfl | skip
  all_goals
    by_cases same : j = i
    · subst same
      simp [tables]
    · simp [tables, Function.update_of_ne same]

@[simp] theorem State.setIndex_tables (s : State) (i : U54) (cell : MsgCell) (index : ℕ) :
    (s.setIndex i cell index).tables = s.tables := by
  have hartMask : ((s.localData i).setIndex cell index).hartMask = s.tables.hartMask i := by
    cases cell <;> rfl
  have ancilliaryData :
      ((s.localData i).setIndex cell index).ancilliaryData = s.tables.ancilliaryData i := by
    cases cell <;> rfl
  rw [setIndex, setLocal_tables, hartMask, ancilliaryData, Function.update_eq_self,
    Function.update_eq_self]

@[simp] theorem State.setMachine_tables (s : State) (i : U54) (m : StateMachine BootState) :
    (s.setMachine i m).tables = s.tables := rfl

@[simp] theorem State.goto_tables (s : State) (i : U54) (state : BootState) :
    (s.goto i state).tables = s.tables := rfl

@[simp] theorem State.access_tables (s : State) (access : Access) :
    (s.access access).tables = s.tables := rfl

@[simp] theorem State.record_tables (s : State) (event : BootRecord) :
    (s.record event).tables = s.tables := rfl

@[simp] theorem State.setWalk_tables (s : State) (i : U54) (walk : ChunkWalk) :
    (s.setWalk i walk).tables = s.tables := by
  rw [setWalk, setLocal_tables]
  exact congrArg₂ (Tables.mk · · _ _) (Function.update_eq_self ..) (Function.update_eq_self ..)

theorem mpfsDomainsRegisterHart_tables (hart bootHart : U54) (s : State) :
    (mpfsDomainsRegisterHart hart bootHart s).tables =
      { s.tables with
        hartLedger := Function.update s.tables.hartLedger hart { s.tables.hartLedger hart with
          ownerHartid := bootHart.num, bootPending := true, resetReason := 0, resetType := 0 } } :=
  rfl

theorem registerPeer_cases (cfg : Config) (i peer : U54) (s : State) :
    let u := s.setIndex i (.msgIndexAux peer) cfg.maxNumOutstandingCompletes
    registerPeer cfg i peer s =
      if s.leavesOut i peer then mpfsDomainsDeregisterHart peer u
      else if s.takesIn i peer then
        mpfsDomainsRegisterHart peer i (u.setLocal i { u.localData i with
          hartMask := (u.localData i).hartMask ||| (1 : BitVec 32) <<< peer.num })
      else u := by
  intro u
  have primary : u.primaryBootHart i = s.primaryBootHart i := rfl
  have skip : u.hasFlag peer bootFlagSkipOpensbi = s.hasFlag peer bootFlagSkipOpensbi := rfl
  have entry (j : U54) : u.entryPoint j = s.entryPoint j := rfl
  unfold registerPeer State.leavesOut State.takesIn
  dsimp only
  rw [primary, skip, entry, entry]
  cases s.primaryBootHart i <;> cases s.hasFlag peer bootFlagSkipOpensbi <;> simp [u]

theorem Tables.enlist_singleton (s : State) (i peer : U54) (tables : Tables) :
    tables.enlist s i [peer] =
      { hartMask := Function.update tables.hartMask i (tables.hartMask i |||
          if s.takesIn i peer then (1 : BitVec 32) <<< peer.num else 0)
        ancilliaryData := tables.ancilliaryData
        hartLedger := Function.update tables.hartLedger peer
          ((tables.hartLedger peer).enlist s i peer)
        hartIndex2id := if s.leavesOut i peer then Function.update tables.hartIndex2id peer (-1)
          else tables.hartIndex2id } := by
  have mask : s.domainMask i [peer] = if s.takesIn i peer then (1 : BitVec 32) <<< peer.num else 0 := by
    simp [State.domainMask]
  rw [Tables.enlist, mask]
  congr 1
  · funext p
    by_cases same : p = peer <;> simp [same]
  · funext p
    by_cases same : p = peer
    · subst same
      cases s.leavesOut i p <;> simp
    · cases s.leavesOut i peer <;> simp [same]

theorem State.takesIn_of_leavesOut (leaves : s.leavesOut i p = true) : s.takesIn i p = false := by
  simp only [leavesOut, Bool.and_eq_true] at leaves
  simp [takesIn, leaves.2]

theorem registerPeer_tables (cfg : Config) (i peer : U54) (s : State) :
    (registerPeer cfg i peer s).tables = s.tables.enlist s i [peer] := by
  have cleared := State.setIndex_tables s i (.msgIndexAux peer) cfg.maxNumOutstandingCompletes
  rw [registerPeer_cases, Tables.enlist_singleton, ← cleared]
  generalize s.setIndex i (.msgIndexAux peer) cfg.maxNumOutstandingCompletes = u
  have keep : u.tables.hartMask i ||| 0 = u.tables.hartMask i := by simp
  cases out : s.leavesOut i peer with
  | true =>
    have not := State.takesIn_of_leavesOut out
    simp [not, LedgerEntry.enlist, out]
    rfl
  | false =>
    cases takes : s.takesIn i peer with
    | true =>
      have data := Function.update_eq_self i u.tables.ancilliaryData
      simp only [LedgerEntry.enlist, out, takes, if_true, Bool.false_eq_true, if_false]
      rw [mpfsDomainsRegisterHart_tables, State.setLocal_tables]
      exact congrArg (Tables.mk _ · _ _) data
    | false =>
      simp [LedgerEntry.enlist, out, takes]

theorem State.domainMask_snoc (s : State) (i : U54) (peers : List U54) (peer : U54) :
    s.domainMask i (peers ++ [peer]) = s.domainMask i peers ||| s.domainMask i [peer] := by
  unfold domainMask
  rw [List.foldl_append, List.foldl_cons, List.foldl_nil, List.foldl_cons, List.foldl_nil]
  cases s.takesIn i peer <;> simp

theorem Tables.enlist_snoc (s : State) (i : U54) (peers : List U54) (peer : U54) (new : peer ∉ peers)
    (tables : Tables) :
    (tables.enlist s i peers).enlist s i [peer] = tables.enlist s i (peers ++ [peer]) := by
  ext p
  · by_cases same : p = i
    · simp [enlist, same, State.domainMask_snoc, BitVec.or_assoc]
    · simp [enlist, Function.update_of_ne same]
  · rfl
  · by_cases same : p = peer
    · simp [enlist, same, new]
    · simp [enlist, same]
  · by_cases same : p = peer
    · simp [enlist, same, new]
    · simp [enlist, same]

theorem registerPeers_tables (cfg : Config) (i : U54) (peers : List U54) (once : peers.Nodup)
    (s : State) : (peers.foldl (fun s peer => registerPeer cfg i peer s) s).tables =
      s.tables.enlist s i peers := by
  induction peers using List.reverseRecOn with
  | nil =>
    simp [Tables.enlist, State.domainMask]
  | append_singleton peers peer ih =>
    obtain ⟨once, -, new⟩ := List.nodup_append.mp once
    obtain ⟨l, ledger, ids, after, -⟩ := registerPeers_eq cfg i peers s
    have same (tables : Tables) :
        tables.enlist (peers.foldl (fun s peer => registerPeer cfg i peer s) s) i [peer] =
          tables.enlist s i [peer] := by
      rw [after]
      rfl
    rw [List.foldl_append, List.foldl_cons, List.foldl_nil, registerPeer_tables, ih once, same]
    exact Tables.enlist_snoc s i peers peer (fun present => new peer present peer (by simp) rfl) _

theorem registerHarts_tables (done : registerHarts cfg i s = .ok t) :
    t.tables = s.tables.register cfg s i := by
  have before : ((s.record (.registered i)).setIndex i .msgIndex
      cfg.maxNumOutstandingCompletes).tables = s.tables := State.setIndex_tables ..
  have loop := registerPeers_tables cfg i bootMachine (by decide)
    ((s.record (.registered i)).setIndex i .msgIndex cfg.maxNumOutstandingCompletes)
  obtain ⟨l, ledger, ids, after, -⟩ := registerPeers_eq cfg i bootMachine
    ((s.record (.registered i)).setIndex i .msgIndex cfg.maxNumOutstandingCompletes)
  have same (tables : Tables) : tables.enlist ((s.record (.registered i)).setIndex i .msgIndex
      cfg.maxNumOutstandingCompletes) i bootMachine = tables.enlist s i bootMachine := rfl
  rw [before, same] at loop
  unfold registerHarts at done
  dsimp only at done
  generalize List.foldl _ _ _ = u at after loop done
  have boots : (u.primaryBootHart i && !u.hasFlag i bootFlagSkipOpensbi) = s.takesIn i i := by
    rw [after]
    simp [State.takesIn]
    rfl
  rw [boots] at done
  unfold Tables.register
  dsimp only
  rw [← loop]
  split at done
  · next takes =>
    rw [if_pos takes]
    simp only [mpfsDomainsRegisterBootHart, bind_eq_ok] at done
    obtain ⟨-, -, done⟩ := done
    rw [← Except.ok.inj done, after]
    rfl
  · next takes =>
    rw [if_neg takes, ← Except.ok.inj done]

end Hss
