import Hss.Boot.Messages

/-! The check of a boot machine for acknowledgements: when its answer is for all the messages that
the machine holds. -/

namespace Hss

open Runs

/-- The message of completion slot `k` is complete. -/
def IpiData.isComplete (d : IpiData) (k : ℕ) : Bool :=
  (d.completes k).used && (d.completes k).status ≠ .pending

namespace State

variable (cfg : Config) (s : State) (i : U54)

/-- The machine of `i` holds a message in `cell` that is complete. -/
def acked (cell : MsgCell) : Bool := s.holds cfg i cell && s.ipiData.isComplete (s.index i cell)

/-- The last of the peers whose message the machine of `i` holds. -/
def lastHeld : Option U54 :=
  bootMachine.reverse.find? fun peer => s.holds cfg i (.msgIndexAux peer)

/-- Every message that the machine of `i` holds is complete. -/
def AllAcked : Prop := ∀ cell, s.holds cfg i cell = true → s.acked cfg i cell = true

/-- The state after the message in `cell` is freed. -/
def freed (cell : MsgCell) : State :=
  let k := s.index i cell
  (setIpi s ((s.ipiData.setComplete k { s.ipiData.completes k with used := false }).record
    (.free .e51 k))).setIndex i cell cfg.maxNumOutstandingCompletes

end State

/-- Between `s` and `t` exactly the complete messages of the machine of `i` were freed. -/
structure FreesComplete (cfg : Config) (i : U54) (s t : State) : Prop where
  cells : ∀ cell, t.index i cell =
    if s.acked cfg i cell then cfg.maxNumOutstandingCompletes else s.index i cell
  freed : ∀ cell, s.acked cfg i cell = true → t.ipiData.completes (s.index i cell) =
    { s.ipiData.completes (s.index i cell) with used := false }
  kept : ∀ k, (∀ cell, s.acked cfg i cell = true → s.index i cell ≠ k) →
    t.ipiData.completes k = s.ipiData.completes k

/-- The machine of `i` goes on to its next state only when all its messages are complete. -/
structure ProceedsOnAcks (cfg : Config) (i : U54) (s : State) : Prop where
  setupPmpComplete : (s.machine i).state = .setupPmpComplete → ∀ inputs t,
    bootSetupPmpCompleteHandler cfg inputs i s = .ok t →
    (t.machine i).state = .complete ∨ (t.machine i).state = .zeroInitChunks → s.AllAcked cfg i
  wait : (s.machine i).state = .wait → ∀ inputs t,
    bootWaitHandler cfg inputs i s = .ok t → (t.machine i).state = .complete → s.AllAcked cfg i

/-- No two cells hold one complete message; the machine's own message is complete only when that of
the last peer is; and the messages of all peers are complete when that of the last peer and the
machine's own are. -/
structure AcksAgree (cfg : Config) (i : U54) (s : State) : Prop where
  distinct : ∀ c d, s.acked cfg i c = true → s.acked cfg i d = true →
    s.index i c = s.index i d → c = d
  primary : s.acked cfg i .msgIndex = true →
    ∀ peer, s.lastHeld cfg i = some peer → s.acked cfg i (.msgIndexAux peer) = true
  peers : (∀ peer, s.lastHeld cfg i = some peer → s.acked cfg i (.msgIndexAux peer) = true) →
    (s.holds cfg i .msgIndex = true → s.acked cfg i .msgIndex = true) →
    ∀ peer, s.holds cfg i (.msgIndexAux peer) = true → s.acked cfg i (.msgIndexAux peer) = true

/-- The check answers for all messages, frees those that are complete, and lets the machine go on
only when all are. -/
structure ChecksAcks (cfg : Config) (i : U54) (s t : State) (result : Bool) : Prop where
  answers : result = true ↔ s.AllAcked cfg i
  frees : FreesComplete cfg i s t
  proceeds : ProceedsOnAcks cfg i s

variable {cfg : Config} {inputs : Inputs} {i peer : U54} {cell c : MsgCell} {s t : State} {k : ℕ}
  {result : Bool}

theorem State.holds_of_acked (acked : s.acked cfg i cell = true) : s.holds cfg i cell = true :=
  (Bool.and_eq_true_iff.mp acked).1

theorem State.acked_iff : s.acked cfg i cell = true ↔
    s.index i cell ≠ cfg.maxNumOutstandingCompletes ∧
      s.ipiData.isComplete (s.index i cell) = true := by
  simp [State.acked, State.holds]

@[simp] theorem State.index_freed :
    (s.freed cfg i cell).index i =
      Function.update (s.index i) cell cfg.maxNumOutstandingCompletes := by
  rw [State.freed, State.index_setIndex, if_pos rfl]
  rfl

theorem State.completes_freed : (s.freed cfg i cell).ipiData.completes =
    Function.update s.ipiData.completes (s.index i cell)
      { s.ipiData.completes (s.index i cell) with used := false } := rfl

@[simp] theorem State.freed_machine : (s.freed cfg i cell).machine = s.machine := rfl

theorem ipiMessageCheckIfComplete_eq (bound : k ≤ cfg.maxNumOutstandingCompletes)
    (ne : k ≠ cfg.maxNumOutstandingCompletes) (d : IpiData) :
    ipiMessageCheckIfComplete cfg d k = .ok (d.isComplete k) := by
  simp only [ipiMessageCheckIfComplete, assert, if_pos bound, if_neg ne, ok_bind, IpiData.isComplete]
  by_cases used : (d.completes k).used = true
  · rw [if_pos used, used, Bool.true_and]
    rfl
  · rw [if_neg used, Bool.eq_false_of_not_eq_true used, Bool.false_and]
    rfl

theorem freeCell_of_acked (acked : s.acked cfg i cell = true) :
    freeCell cfg i cell s = .ok (s.freed cfg i cell) := by
  obtain ⟨ne, complete⟩ := State.acked_iff.mp acked
  have used := (Bool.and_eq_true_iff.mp complete).1
  have freed : ipiMessageFree .e51 (s.index i cell) s.ipiData = .ok _ :=
    ipiMessageFree_eq_ok.mpr ⟨used, rfl⟩
  unfold freeCell
  change (if s.index i cell ≠ _ then ipiMessageFree .e51 (s.index i cell) s.ipiData >>= _ else _) = _
  rw [if_pos ne, freed, ok_bind]
  rfl

/-! ### The loop over the peers -/

/-- One turn of the loop, as a function. -/
def passPeer (cfg : Config) (i : U54) (p : State × Bool) (peer : U54) : State × Bool :=
  if p.1.acked cfg i (.msgIndexAux peer) then (p.1.freed cfg i (.msgIndexAux peer), true)
  else if p.1.holds cfg i (.msgIndexAux peer) then (p.1, false)
  else p

theorem checkPeerAck_eq (inRange : ∀ cell, s.index i cell ≤ cfg.maxNumOutstandingCompletes) :
    checkPeerAck cfg i peer s result = .ok (passPeer cfg i (s, result) peer) := by
  change (if s.index i (.msgIndexAux peer) ≠ cfg.maxNumOutstandingCompletes then
    ipiMessageCheckIfComplete cfg s.ipiData (s.index i (.msgIndexAux peer)) >>= _ else _) = _
  unfold passPeer
  by_cases holds : s.index i (.msgIndexAux peer) = cfg.maxNumOutstandingCompletes
  · have empty : s.holds cfg i (.msgIndexAux peer) = false := by simp [State.holds, holds]
    have notAcked : s.acked cfg i (.msgIndexAux peer) = false := by simp [State.acked, empty]
    rw [if_neg (not_not.mpr holds)]
    simp [empty, notAcked]
  · have held : s.holds cfg i (.msgIndexAux peer) = true := by simp [State.holds, holds]
    have checked := ipiMessageCheckIfComplete_eq (inRange (.msgIndexAux peer)) holds s.ipiData
    have acked : s.acked cfg i (.msgIndexAux peer) =
        s.ipiData.isComplete (s.index i (.msgIndexAux peer)) := by simp [State.acked, held]
    rw [if_pos holds, checked, ok_bind, ← acked]
    cases complete : s.acked cfg i (.msgIndexAux peer) with
    | true =>
      simp only [runIf, if_true, freeMsgIndexAux, freeCell_of_acked complete, ok_bind]
      rfl
    | false => simp [runIf, held, pure, Except.pure]

theorem passPeer_inRange (inRange : ∀ cell, s.index i cell ≤ cfg.maxNumOutstandingCompletes) :
    ∀ cell, (passPeer cfg i (s, result) peer).1.index i cell ≤ cfg.maxNumOutstandingCompletes := by
  intro cell
  unfold passPeer
  split
  · rw [State.index_freed]
    by_cases h : cell = .msgIndexAux peer
    · rw [h, Function.update_self]
    · rw [Function.update_of_ne h]
      exact inRange cell
  · split <;> exact inRange cell

theorem checkPeerAcks_eq (peers : List U54)
    (inRange : ∀ cell, s.index i cell ≤ cfg.maxNumOutstandingCompletes) :
    peers.foldlM (fun (s, result) peer => checkPeerAck cfg i peer s result) (s, result) =
      .ok (peers.foldl (passPeer cfg i) (s, result)) := by
  induction peers generalizing s result with
  | nil => rfl
  | cons peer peers ih =>
    simp only [List.foldlM_cons, List.foldl_cons]
    rw [checkPeerAck_eq inRange, ok_bind]
    exact ih (passPeer_inRange inRange)

/-- What the loop over `peers` did between `s` and `t`. -/
structure Passed (cfg : Config) (i : U54) (peers : List U54) (s t : State) : Prop where
  machine : t.machine = s.machine
  other : ∀ cell, (∀ peer ∈ peers, cell ≠ .msgIndexAux peer) → t.index i cell = s.index i cell
  waiting : ∀ cell, s.acked cfg i cell = false → t.index i cell = s.index i cell
  freed : ∀ peer ∈ peers, s.acked cfg i (.msgIndexAux peer) = true →
    t.ipiData.completes (s.index i (.msgIndexAux peer)) =
      { s.ipiData.completes (s.index i (.msgIndexAux peer)) with used := false }
  kept : ∀ k, (∀ peer ∈ peers, s.acked cfg i (.msgIndexAux peer) = true →
    s.index i (.msgIndexAux peer) ≠ k) → t.ipiData.completes k = s.ipiData.completes k
  cleared : (∀ peer ∈ peers, s.acked cfg i (.msgIndexAux peer) = true →
      t.index i (.msgIndexAux peer) = cfg.maxNumOutstandingCompletes) ↔
    ∀ p ∈ peers, ∀ q ∈ peers, s.acked cfg i (.msgIndexAux p) = true →
      s.acked cfg i (.msgIndexAux q) = true →
      s.index i (.msgIndexAux p) = s.index i (.msgIndexAux q) → p = q

/-- A peer that is still to come is found complete if its message is, and was not freed already as
that of another peer. -/
theorem Passed.acked_iff {peers : List U54} (passed : Passed cfg i peers s t)
    (later : ∀ q ∈ peers, cell ≠ .msgIndexAux q) : t.acked cfg i cell = true ↔
      s.acked cfg i cell = true ∧ ∀ q ∈ peers, s.acked cfg i (.msgIndexAux q) = true →
        s.index i (.msgIndexAux q) ≠ s.index i cell := by
  rw [State.acked_iff, State.acked_iff, passed.other cell later]
  constructor
  · rintro ⟨ne, complete⟩
    have unfreed : ∀ q ∈ peers, s.acked cfg i (.msgIndexAux q) = true →
        s.index i (.msgIndexAux q) ≠ s.index i cell := by
      intro q present acked same
      have used := passed.freed q present acked
      rw [same] at used
      simp [IpiData.isComplete, used] at complete
    refine ⟨⟨ne, ?_⟩, unfreed⟩
    rwa [IpiData.isComplete, passed.kept _ unfreed] at complete
  · rintro ⟨⟨ne, complete⟩, unfreed⟩
    refine ⟨ne, ?_⟩
    rwa [IpiData.isComplete, passed.kept _ unfreed]

theorem Passed.snoc_freed {peers : List U54} (passed : Passed cfg i peers s t)
    (new : peer ∉ peers) (acked : t.acked cfg i (.msgIndexAux peer) = true) :
    Passed cfg i (peers ++ [peer]) s (t.freed cfg i (.msgIndexAux peer)) := by
  have later : ∀ q ∈ peers, MsgCell.msgIndexAux peer ≠ .msgIndexAux q := by
    rintro q present same
    exact new (MsgCell.msgIndexAux.inj same ▸ present)
  obtain ⟨acked', distinct⟩ := (passed.acked_iff later).mp acked
  have index := passed.other _ later
  refine ⟨passed.machine, ?_, ?_, ?_, ?_, ?_⟩
  · intro c apart
    rw [State.index_freed, Function.update_of_ne (apart peer (by simp))]
    exact passed.other c fun q present => apart q (by simp [present])
  · intro c waits
    have ne : c ≠ .msgIndexAux peer := by
      rintro rfl
      rw [acked'] at waits
      cases waits
    rw [State.index_freed, Function.update_of_ne ne]
    exact passed.waiting c waits
  · intro q present ackedQ
    rw [State.completes_freed, index]
    rcases List.mem_append.mp present with present | present
    · rw [Function.update_of_ne (distinct q present ackedQ)]
      exact passed.freed q present ackedQ
    · rw [List.mem_singleton.mp present, Function.update_self, passed.kept _ distinct]
  · intro k unheld
    rw [State.completes_freed, index,
      Function.update_of_ne (unheld peer (by simp) acked').symm]
    exact passed.kept k fun q present => unheld q (by simp [present])
  · have same : ∀ q ∈ peers, (t.freed cfg i (.msgIndexAux peer)).index i (.msgIndexAux q) =
        t.index i (.msgIndexAux q) := by
      intro q present
      rw [State.index_freed, Function.update_of_ne (later q present).symm]
    have self : (t.freed cfg i (.msgIndexAux peer)).index i (.msgIndexAux peer) =
        cfg.maxNumOutstandingCompletes := by rw [State.index_freed, Function.update_self]
    simp only [List.forall_mem_append, List.forall_mem_singleton, self, implies_true, and_true]
    constructor
    · intro all
      have before := passed.cleared.mp fun q present => (same q present) ▸ all q present
      refine ⟨fun p present => ⟨before p present, fun ackedP _ equal => ?_⟩,
        fun q present _ ackedQ equal => ?_⟩
      · exact absurd equal (distinct p present ackedP)
      · exact absurd equal.symm (distinct q present ackedQ)
    · intro pairs q present
      rw [same q present]
      exact passed.cleared.mpr (fun p presentP => (pairs.1 p presentP).1) q present

theorem Passed.snoc_kept {peers : List U54} (passed : Passed cfg i peers s t)
    (new : peer ∉ peers) (waits : t.acked cfg i (.msgIndexAux peer) = false) :
    Passed cfg i (peers ++ [peer]) s t := by
  have later : ∀ q ∈ peers, MsgCell.msgIndexAux peer ≠ .msgIndexAux q := by
    rintro q present same
    exact new (MsgCell.msgIndexAux.inj same ▸ present)
  have index := passed.other _ later
  -- a peer that is complete at first is left over only if its message was freed as another's
  have twin : s.acked cfg i (.msgIndexAux peer) = true → ∃ q ∈ peers,
      s.acked cfg i (.msgIndexAux q) = true ∧
        s.index i (.msgIndexAux q) = s.index i (.msgIndexAux peer) := by
    intro acked
    by_contra none
    push Not at none
    rw [(passed.acked_iff later).mpr ⟨acked, none⟩] at waits
    cases waits
  refine ⟨passed.machine, ?_, passed.waiting, ?_, ?_, ?_⟩
  · exact fun c apart => passed.other c fun q present => apart q (by simp [present])
  · intro q present acked
    rcases List.mem_append.mp present with present | present
    · exact passed.freed q present acked
    · rw [List.mem_singleton.mp present] at acked ⊢
      obtain ⟨q', present', acked', equal⟩ := twin acked
      rw [← equal]
      exact passed.freed q' present' acked'
  · exact fun k unheld => passed.kept k fun q present => unheld q (by simp [present])
  · constructor
    · intro all
      have unacked : s.acked cfg i (.msgIndexAux peer) ≠ true := by
        intro acked
        have := all peer (by simp) acked
        rw [index] at this
        exact (State.acked_iff.mp acked).1 this
      have before := passed.cleared.mp fun q present => all q (by simp [present])
      intro p presentP q presentQ ackedP ackedQ equal
      rcases List.mem_append.mp presentP with presentP | presentP
      · rcases List.mem_append.mp presentQ with presentQ | presentQ
        · exact before p presentP q presentQ ackedP ackedQ equal
        · exact absurd (List.mem_singleton.mp presentQ ▸ ackedQ) unacked
      · exact absurd (List.mem_singleton.mp presentP ▸ ackedP) unacked
    · intro pairs q present acked
      have old : q ∈ peers := by
        rcases List.mem_append.mp present with present | present
        · exact present
        · rw [List.mem_singleton.mp present] at acked
          obtain ⟨q', present', acked', equal⟩ := twin acked
          have same := pairs q' (by simp [present']) peer (by simp) acked' acked equal
          exact absurd (same ▸ present') new
      exact passed.cleared.mpr (fun p presentP q presentQ => pairs p (by simp [presentP]) q
        (by simp [presentQ])) q old acked

theorem passed_foldl (cfg : Config) (i : U54) (peers : List U54) (nodup : peers.Nodup) (s : State) (result : Bool) :
    Passed cfg i peers s (peers.foldl (passPeer cfg i) (s, result)).1 := by
  induction peers using List.reverseRecOn with
  | nil => exact ⟨rfl, fun _ _ => rfl, fun _ _ => rfl, by simp, fun _ _ => rfl, by simp⟩
  | append_singleton peers peer ih =>
    rw [List.nodup_append] at nodup
    have passed := ih nodup.1
    have new : peer ∉ peers := fun present => nodup.2.2 peer present peer (by simp) rfl
    rw [List.foldl_append, List.foldl_cons, List.foldl_nil, passPeer]
    split
    · next acked => exact passed.snoc_freed new acked
    · next waits =>
      have kept := passed.snoc_kept new (Bool.eq_false_of_not_eq_true waits)
      split <;> exact kept

/-- With a message of its own in each cell, the loop answers for the last peer that holds one. -/
theorem passed_result (peers : List U54) (nodup : peers.Nodup) (s : State)
    (distinct : ∀ p ∈ peers, ∀ q ∈ peers, s.acked cfg i (.msgIndexAux p) = true →
      s.acked cfg i (.msgIndexAux q) = true →
      s.index i (.msgIndexAux p) = s.index i (.msgIndexAux q) → p = q) :
    (peers.foldl (passPeer cfg i) (s, true)).2 = true ↔
      ∀ peer, (peers.reverse.find? fun p => s.holds cfg i (.msgIndexAux p)) = some peer →
        s.acked cfg i (.msgIndexAux peer) = true := by
  induction peers using List.reverseRecOn with
  | nil => simp
  | append_singleton peers peer ih =>
    rw [List.nodup_append] at nodup
    have new : peer ∉ peers := fun present => nodup.2.2 peer present peer (by simp) rfl
    have passed := passed_foldl cfg i peers nodup.1 s true
    have later : ∀ q ∈ peers, MsgCell.msgIndexAux peer ≠ .msgIndexAux q := by
      rintro q present same
      exact new (MsgCell.msgIndexAux.inj same ▸ present)
    have acked : (peers.foldl (passPeer cfg i) (s, true)).1.acked cfg i (.msgIndexAux peer) = true ↔
        s.acked cfg i (.msgIndexAux peer) = true := by
      rw [passed.acked_iff later]
      refine ⟨fun h => h.1, fun h => ⟨h, fun q present ackedQ equal => new ?_⟩⟩
      exact distinct q (by simp [present]) peer (by simp) ackedQ h equal ▸ present
    have holds : (peers.foldl (passPeer cfg i) (s, true)).1.holds cfg i (.msgIndexAux peer) =
        s.holds cfg i (.msgIndexAux peer) := by
      rw [State.holds, State.holds, passed.other _ later]
    rw [List.foldl_append, List.foldl_cons, List.foldl_nil, List.reverse_append,
      List.reverse_singleton, List.singleton_append, List.find?_cons]
    rw [passPeer, holds]
    by_cases complete : s.acked cfg i (.msgIndexAux peer) = true
    · rw [if_pos (acked.mpr complete), State.holds_of_acked complete]
      simp [complete]
    · rw [if_neg (mt acked.mp complete)]
      cases held : s.holds cfg i (.msgIndexAux peer) with
      | true => simp [complete]
      | false =>
        simp only [Bool.false_eq_true, if_false]
        exact ih nodup.1 fun p presentP q presentQ => distinct p (by simp [presentP]) q
          (by simp [presentQ])

/-! ### The whole check -/

/-- The machine's own message, after those of the peers. -/
def passPrimary (cfg : Config) (i : U54) (p : State × Bool) : State × Bool :=
  if p.2 && p.1.acked cfg i .msgIndex then (p.1.freed cfg i .msgIndex, true)
  else if p.1.holds cfg i .msgIndex then (p.1, false)
  else p

/-- The state and the answer of the check. -/
def passAll (cfg : Config) (i : U54) (s : State) : State × Bool :=
  passPrimary cfg i (bootMachine.foldl (passPeer cfg i) (s, true))

theorem checkForIpiAcks_eq (inRange : ∀ cell, s.index i cell ≤ cfg.maxNumOutstandingCompletes) :
    checkForIpiAcks cfg i s = .ok (passAll cfg i s) := by
  have passed := passed_foldl cfg i bootMachine (by decide) s true
  have bound : (bootMachine.foldl (passPeer cfg i) (s, true)).1.index i .msgIndex ≤
      cfg.maxNumOutstandingCompletes := by
    rw [passed.other .msgIndex (by simp)]
    exact inRange .msgIndex
  unfold checkForIpiAcks passAll
  rw [checkPeerAcks_eq bootMachine inRange, ok_bind]
  generalize bootMachine.foldl (passPeer cfg i) (s, true) = p at bound
  obtain ⟨u, result⟩ := p
  change (if u.index i .msgIndex ≠ cfg.maxNumOutstandingCompletes then
    ipiMessageCheckIfComplete cfg u.ipiData (u.index i .msgIndex) >>= _ else _) = _
  unfold passPrimary
  by_cases empty : u.index i .msgIndex = cfg.maxNumOutstandingCompletes
  · have notHeld : u.holds cfg i .msgIndex = false := by simp [State.holds, empty]
    have notAcked : u.acked cfg i .msgIndex = false := by simp [State.acked, notHeld]
    rw [if_neg (not_not.mpr empty)]
    simp [notHeld, notAcked, pure, Except.pure]
  · have held : u.holds cfg i .msgIndex = true := by simp [State.holds, empty]
    have acked : u.acked cfg i .msgIndex = u.ipiData.isComplete (u.index i .msgIndex) := by
      simp [State.acked, held]
    rw [if_pos empty, ipiMessageCheckIfComplete_eq bound empty, ok_bind, ← acked]
    cases both : result && u.acked cfg i .msgIndex with
    | true =>
      have complete := (Bool.and_eq_true_iff.mp both).2
      simp only [runIf, if_true, freeMsgIndex, freeCell_of_acked complete, ok_bind]
      rfl
    | false => simp [runIf, held, pure, Except.pure]

theorem passAll_machine (cfg : Config) (i : U54) (s : State) :
    (passAll cfg i s).1.machine = s.machine := by
  have passed := passed_foldl cfg i bootMachine (by decide) s true
  rw [passAll, passPrimary]
  split
  · rw [State.freed_machine, passed.machine]
  · split <;> rw [passed.machine]

/-- The machine's own message comes last and is freed when all is well so far. -/
theorem passAll_index_aux (cfg : Config) (i : U54) (s : State) (peer : U54) :
    (passAll cfg i s).1.index i (.msgIndexAux peer) =
      (bootMachine.foldl (passPeer cfg i) (s, true)).1.index i (.msgIndexAux peer) := by
  rw [passAll, passPrimary]
  split
  · rw [State.index_freed, Function.update_of_ne MsgCell.noConfusion]
  · split <;> rfl

/-- If exactly the complete messages are freed, each is held by one cell, and the machine's own is
complete only when the loop over the peers has answered yes. -/
theorem distinct_of_freesComplete (frees : FreesComplete cfg i s (passAll cfg i s).1) :
    (∀ c d, s.acked cfg i c = true → s.acked cfg i d = true →
      s.index i c = s.index i d → c = d) ∧
      (s.acked cfg i .msgIndex = true →
        (bootMachine.foldl (passPeer cfg i) (s, true)).2 = true) := by
  have passed := passed_foldl cfg i bootMachine (by decide) s true
  have pairs := passed.cleared.mp fun peer _ acked => by
    rw [← passAll_index_aux, frees.cells, if_pos acked]
  have primary : s.acked cfg i .msgIndex = true →
      (bootMachine.foldl (passPeer cfg i) (s, true)).2 = true ∧
        (bootMachine.foldl (passPeer cfg i) (s, true)).1.acked cfg i .msgIndex = true := by
    intro acked
    have cleared := frees.cells .msgIndex
    rw [if_pos acked, passAll, passPrimary] at cleared
    split at cleared
    · next both => exact Bool.and_eq_true_iff.mp both
    · have unchanged : (bootMachine.foldl (passPeer cfg i) (s, true)).1.index i .msgIndex =
          cfg.maxNumOutstandingCompletes := by
        split at cleared <;> exact cleared
      rw [passed.other .msgIndex (by simp)] at unchanged
      exact absurd unchanged (State.acked_iff.mp acked).1
  have apart : s.acked cfg i .msgIndex = true → ∀ peer,
      s.acked cfg i (.msgIndexAux peer) = true →
      s.index i (.msgIndexAux peer) ≠ s.index i .msgIndex := fun acked peer =>
    ((passed.acked_iff (by simp)).mp (primary acked).2).2 peer (mem_bootMachine peer)
  refine ⟨?_, fun acked => (primary acked).1⟩
  intro c d ackedC ackedD same
  cases c with
  | msgIndex =>
    cases d with
    | msgIndex => rfl
    | msgIndexAux q => exact absurd same.symm (apart ackedC q ackedD)
  | msgIndexAux p =>
    cases d with
    | msgIndex => exact absurd same (apart ackedD p ackedC)
    | msgIndexAux q =>
      rw [pairs p (mem_bootMachine p) q (mem_bootMachine q) ackedC ackedD same]

/-- What the loop over the peers and the machine's own message come to when no two cells hold one
complete message. -/
theorem passAll_of_distinct (distinct : ∀ c d, s.acked cfg i c = true → s.acked cfg i d = true →
      s.index i c = s.index i d → c = d) :
    ((bootMachine.foldl (passPeer cfg i) (s, true)).2 = true ↔
      ∀ peer, s.lastHeld cfg i = some peer → s.acked cfg i (.msgIndexAux peer) = true) ∧
    ((bootMachine.foldl (passPeer cfg i) (s, true)).1.acked cfg i .msgIndex =
      s.acked cfg i .msgIndex) ∧
    ((bootMachine.foldl (passPeer cfg i) (s, true)).1.holds cfg i .msgIndex =
      s.holds cfg i .msgIndex) := by
  have passed := passed_foldl cfg i bootMachine (by decide) s true
  refine ⟨passed_result bootMachine (by decide) s ?_, ?_, ?_⟩
  · intro p _ q _ ackedP ackedQ same
    exact MsgCell.msgIndexAux.inj (distinct _ _ ackedP ackedQ same)
  · rw [Bool.eq_iff_iff, passed.acked_iff (by simp)]
    refine ⟨fun h => h.1, fun acked => ⟨acked, fun peer _ ackedPeer same => ?_⟩⟩
    cases distinct _ _ ackedPeer acked same
  · rw [State.holds, State.holds, passed.other .msgIndex (by simp)]

/-- The answer of the check. -/
theorem passAll_result (distinct : ∀ c d, s.acked cfg i c = true → s.acked cfg i d = true →
      s.index i c = s.index i d → c = d) :
    (passAll cfg i s).2 = true ↔
      (∀ peer, s.lastHeld cfg i = some peer → s.acked cfg i (.msgIndexAux peer) = true) ∧
        (s.holds cfg i .msgIndex = true → s.acked cfg i .msgIndex = true) := by
  obtain ⟨answer, acked, holds⟩ := passAll_of_distinct distinct
  rw [← answer, passAll, passPrimary, acked, holds]
  generalize bootMachine.foldl (passPeer cfg i) (s, true) = p
  obtain ⟨u, before⟩ := p
  generalize s.holds cfg i .msgIndex = held
  generalize s.acked cfg i .msgIndex = complete
  cases before <;> cases held <;> cases complete <;> simp

/-- When the conditions hold, the check answers for all messages and frees those that are
complete. -/
theorem AcksAgree.checks (agree : AcksAgree cfg i s) :
    ((passAll cfg i s).2 = true ↔ s.AllAcked cfg i) ∧
      FreesComplete cfg i s (passAll cfg i s).1 := by
  have passed := passed_foldl cfg i bootMachine (by decide) s true
  obtain ⟨answer, acked, holds⟩ := passAll_of_distinct agree.distinct
  have aux : ∀ peer, (passAll cfg i s).1.index i (.msgIndexAux peer) =
      if s.acked cfg i (.msgIndexAux peer) then cfg.maxNumOutstandingCompletes
      else s.index i (.msgIndexAux peer) := by
    intro peer
    rw [passAll_index_aux]
    split
    · next ackedPeer =>
      refine passed.cleared.mpr ?_ peer (mem_bootMachine peer) ackedPeer
      intro p _ q _ ackedP ackedQ same
      exact MsgCell.msgIndexAux.inj (agree.distinct _ _ ackedP ackedQ same)
    · next waits => exact passed.waiting _ (Bool.eq_false_of_not_eq_true waits)
  refine ⟨?_, ?_⟩
  · rw [passAll_result agree.distinct]
    constructor
    · rintro ⟨last, primary⟩ cell held
      cases cell with
      | msgIndex => exact primary held
      | msgIndexAux peer => exact agree.peers last primary peer held
    · intro all
      refine ⟨fun peer found => all _ ?_, all .msgIndex⟩
      simpa using List.find?_some found
  · -- the machine's own message is freed exactly when it is complete
    cases primary : s.acked cfg i .msgIndex with
    | true =>
      have both : ((bootMachine.foldl (passPeer cfg i) (s, true)).2 &&
          (bootMachine.foldl (passPeer cfg i) (s, true)).1.acked cfg i .msgIndex) = true := by
        rw [acked, primary, answer.mpr (agree.primary primary)]
        rfl
      have after : (passAll cfg i s).1 =
          (bootMachine.foldl (passPeer cfg i) (s, true)).1.freed cfg i .msgIndex := by
        rw [passAll, passPrimary, if_pos both]
      have index := passed.other .msgIndex (by simp)
      refine ⟨?_, ?_, ?_⟩
      · intro cell
        cases cell with
        | msgIndex => rw [after, State.index_freed, Function.update_self, if_pos primary]
        | msgIndexAux peer => exact aux peer
      · intro cell ackedCell
        rw [after, State.completes_freed, index]
        cases cell with
        | msgIndex =>
          rw [Function.update_self, passed.kept]
          intro peer _ ackedPeer same
          cases agree.distinct _ _ ackedPeer primary same
        | msgIndexAux peer =>
          rw [Function.update_of_ne, passed.freed peer (mem_bootMachine peer) ackedCell]
          intro same
          cases agree.distinct _ _ ackedCell primary same
      · intro k unheld
        rw [after, State.completes_freed, index, Function.update_of_ne (unheld _ primary).symm]
        exact passed.kept k fun peer _ => unheld _
    | false =>
      have after : (passAll cfg i s).1 = (bootMachine.foldl (passPeer cfg i) (s, true)).1 := by
        rw [passAll, passPrimary, acked, primary, Bool.and_false]
        simp only [Bool.false_eq_true, if_false]
        split <;> rfl
      refine ⟨?_, ?_, ?_⟩
      · intro cell
        cases cell with
        | msgIndex =>
          rw [after, passed.other .msgIndex (by simp), primary]
          rfl
        | msgIndexAux peer => exact aux peer
      · intro cell ackedCell
        cases cell with
        | msgIndex =>
          rw [primary] at ackedCell
          cases ackedCell
        | msgIndexAux peer =>
          rw [after]
          exact passed.freed peer (mem_bootMachine peer) ackedCell
      · intro k unheld
        rw [after]
        exact passed.kept k fun peer _ => unheld _

theorem AcksAgree.of_checks (answers : (passAll cfg i s).2 = true ↔ s.AllAcked cfg i)
    (frees : FreesComplete cfg i s (passAll cfg i s).1) : AcksAgree cfg i s := by
  obtain ⟨distinct, primary⟩ := distinct_of_freesComplete frees
  obtain ⟨answer, -, -⟩ := passAll_of_distinct distinct
  refine ⟨distinct, fun acked => answer.mp (primary acked), fun last own peer held => ?_⟩
  exact answers.mp ((passAll_result distinct).mpr ⟨last, own⟩) _ held

/-! ### The answer of the check for acknowledgements -/

/-- The check answers yes: the message of the last peer that has one and the machine's own are complete,
and no message that is checked before them has their index. -/
structure State.AcksFound (cfg : Config) (s : State) (i : U54) : Prop where
  peers : ∀ peer, s.lastHeld cfg i = some peer → s.acked cfg i (.msgIndexAux peer) = true ∧
    ∀ q ≠ peer, s.index i (.msgIndexAux q) ≠ s.index i (.msgIndexAux peer)
  primary : s.holds cfg i .msgIndex = true → s.acked cfg i .msgIndex = true ∧
    ∀ q, s.index i (.msgIndexAux q) ≠ s.index i .msgIndex

theorem State.acksFound_congr (index : t.index = s.index) (ipiData : t.ipiData = s.ipiData) :
    t.AcksFound cfg i ↔ s.AcksFound cfg i := by
  have holds : ∀ cell, t.holds cfg i cell = s.holds cfg i cell := fun cell => by
    rw [State.holds, State.holds, index]
  have acked : ∀ cell, t.acked cfg i cell = s.acked cfg i cell := fun cell => by
    rw [State.acked, State.acked, holds, index, ipiData]
  have last : t.lastHeld cfg i = s.lastHeld cfg i := by
    simp only [State.lastHeld, holds]
  constructor <;> rintro ⟨peers, primary⟩
  · simp only [holds, acked, last, index] at peers primary
    exact ⟨peers, primary⟩
  · simp only [← holds, ← acked, ← last, ← index] at peers primary
    exact ⟨peers, primary⟩

theorem acked_of_index_eq {c d : MsgCell} (acked : s.acked cfg i c = true)
    (same : s.index i d = s.index i c) : s.acked cfg i d = true := by
  rw [State.acked_iff] at acked ⊢
  rw [same]
  exact acked

/-- The loop over `peers` answers for the last of them that has a message. -/
theorem passed_answer (cfg : Config) (i : U54) (peers : List U54) (nodup : peers.Nodup) (s : State) :
    (peers.foldl (passPeer cfg i) (s, true)).2 = true ↔
      ∀ peer, (peers.reverse.find? fun p => s.holds cfg i (.msgIndexAux p)) = some peer →
        s.acked cfg i (.msgIndexAux peer) = true ∧
          ∀ q ∈ peers, q ≠ peer → s.index i (.msgIndexAux q) ≠ s.index i (.msgIndexAux peer) := by
  induction peers using List.reverseRecOn with
  | nil => simp
  | append_singleton peers peer ih =>
    rw [List.nodup_append] at nodup
    have new : ∀ q ∈ peers, q ≠ peer := fun q present => nodup.2.2 q present peer (by simp)
    have passed := passed_foldl cfg i peers nodup.1 s true
    have later : ∀ q ∈ peers, MsgCell.msgIndexAux peer ≠ .msgIndexAux q :=
      fun q present same => new q present (MsgCell.msgIndexAux.inj same).symm
    have acked := passed.acked_iff later
    have holds : (peers.foldl (passPeer cfg i) (s, true)).1.holds cfg i (.msgIndexAux peer) =
        s.holds cfg i (.msgIndexAux peer) := by
      rw [State.holds, State.holds, passed.other _ later]
    rw [List.foldl_append, List.foldl_cons, List.foldl_nil, List.reverse_append,
      List.reverse_singleton, List.singleton_append, List.find?_cons, passPeer, holds]
    cases held : s.holds cfg i (.msgIndexAux peer) with
    | true =>
      have last : (∀ p, some peer = some p → s.acked cfg i (.msgIndexAux p) = true ∧
          ∀ q ∈ peers ++ [peer], q ≠ p →
            s.index i (.msgIndexAux q) ≠ s.index i (.msgIndexAux p)) ↔
          (peers.foldl (passPeer cfg i) (s, true)).1.acked cfg i (.msgIndexAux peer) = true := by
        rw [acked]
        constructor
        · intro all
          obtain ⟨complete, alone⟩ := all peer rfl
          exact ⟨complete, fun q present _ => alone q (by simp [present]) (new q present)⟩
        · rintro ⟨complete, alone⟩ p same
          cases same
          refine ⟨complete, fun q present ne equal => ?_⟩
          have old : q ∈ peers := by simpa [ne] using present
          exact alone q old (acked_of_index_eq complete equal) equal
      rw [last]
      by_cases complete :
          (peers.foldl (passPeer cfg i) (s, true)).1.acked cfg i (.msgIndexAux peer) = true
      · simp [complete]
      · simp [complete]
    | false =>
      have waits : ¬ (peers.foldl (passPeer cfg i) (s, true)).1.acked cfg i (.msgIndexAux peer) =
          true := fun complete => by
        have := State.holds_of_acked (acked.mp complete).1
        rw [held] at this
        cases this
      rw [if_neg waits, if_neg (by decide), ih nodup.1]
      refine forall_congr' fun p => imp_congr_right fun found => and_congr_right fun complete => ?_
      refine ⟨fun alone q present ne => ?_, fun alone q present => alone q (by simp [present])⟩
      rcases List.mem_append.mp present with old | same
      · exact alone q old ne
      · rw [List.mem_singleton.mp same]
        intro equal
        have := State.holds_of_acked (acked_of_index_eq complete equal)
        rw [held] at this
        cases this

theorem passAll_answer : (passAll cfg i s).2 = true ↔ s.AcksFound cfg i := by
  have passed := passed_foldl cfg i bootMachine (by decide) s true
  have answer := passed_answer cfg i bootMachine (by decide) s
  have acked := passed.acked_iff (show ∀ q ∈ bootMachine, MsgCell.msgIndex ≠ .msgIndexAux q by simp)
  have holds : (bootMachine.foldl (passPeer cfg i) (s, true)).1.holds cfg i .msgIndex =
      s.holds cfg i .msgIndex := by
    rw [State.holds, State.holds, passed.other .msgIndex (by simp)]
  have peers : (bootMachine.foldl (passPeer cfg i) (s, true)).2 = true ↔ ∀ peer,
      s.lastHeld cfg i = some peer → s.acked cfg i (.msgIndexAux peer) = true ∧
        ∀ q ≠ peer, s.index i (.msgIndexAux q) ≠ s.index i (.msgIndexAux peer) := by
    rw [answer]
    refine forall_congr' fun peer => imp_congr_right fun _ => and_congr_right fun _ => ?_
    exact ⟨fun alone q => alone q (mem_bootMachine q), fun alone q _ => alone q⟩
  have own : (bootMachine.foldl (passPeer cfg i) (s, true)).1.acked cfg i .msgIndex = true ↔
      s.acked cfg i .msgIndex = true ∧ ∀ q, s.index i (.msgIndexAux q) ≠ s.index i .msgIndex := by
    rw [acked]
    refine and_congr_right fun complete => ⟨fun alone q equal => ?_, fun alone q _ _ => alone q⟩
    exact alone q (mem_bootMachine q) (acked_of_index_eq complete equal) equal
  rw [passAll, passPrimary, holds]
  constructor
  · intro yes
    refine ⟨peers.mp ?_, fun held => own.mp ?_⟩
    · revert yes
      split
      · next both => exact fun _ => (Bool.and_eq_true_iff.mp both).1
      · split
        · exact fun no => absurd no Bool.false_ne_true
        · exact id
    · revert yes
      split
      · next both => exact fun _ => (Bool.and_eq_true_iff.mp both).2
      · exact fun no => absurd no Bool.false_ne_true
  · intro found
    have before := peers.mpr found.peers
    split
    · rfl
    · next missing =>
      split
      · next held => exact absurd (Bool.and_eq_true_iff.mpr ⟨before, own.mpr (found.primary held)⟩) missing
      · exact before

/-! ### The states that wait for acknowledgements -/

/-- With the conditions, a machine that waits goes on only when all its messages are complete. -/
theorem AcksAgree.proceeds (agree : AcksAgree cfg i s)
    (inRange : ∀ cell, s.index i cell ≤ cfg.maxNumOutstandingCompletes)
    (idle : (s.machine i).state = .wait → s.entryPoint i = 0 → s.AllAcked cfg i) :
    ProceedsOnAcks cfg i s := by
  refine ⟨fun state inputs t done next => ?_, fun state inputs t done next => ?_⟩
  · rcases bootSetupPmpCompleteHandler_cases done with ⟨u, -, rfl⟩ | ⟨u, result, checked, rfl⟩
    · simp at next
    · rw [checkForIpiAcks_eq inRange] at checked
      have after : passAll cfg i s = (u, result) := Except.ok.inj checked
      have answers := agree.checks.1
      have machine := passAll_machine cfg i s
      rw [after] at answers machine
      cases result with
      | true => exact answers.mp rfl
      | false =>
        simp only [Bool.false_eq_true, if_false, show u.machine = s.machine from machine, state]
          at next
        rcases next with h | h <;> cases h
  · rcases bootWaitHandler_cases done with ⟨entry, rfl⟩ | ⟨-, v, -, rfl⟩ |
      ⟨-, v, result, checked, after⟩
    · exact idle state entry
    · simp at next
    · have started : AcksAgree cfg i
          (s.setMachine i { s.machine i with startTime := inputs.time }) :=
        ⟨agree.distinct, agree.primary, agree.peers⟩
      rw [checkForIpiAcks_eq (s := s.setMachine i _) inRange] at checked
      have passed := Except.ok.inj checked
      have answers := started.checks.1
      have machine := passAll_machine cfg i
        (s.setMachine i { s.machine i with startTime := inputs.time })
      rw [passed] at answers machine
      rcases after with ⟨rfl, rfl⟩ | ⟨rfl, -, -⟩
      · rw [show t.machine = _ from machine] at next
        simp [state] at next
      · exact answers.mp rfl

theorem bootWaitHandler_of_entryPoint_zero (cfg : Config) (inputs : Inputs) (entry : s.entryPoint i = 0) :
    ∃ t, bootWaitHandler cfg inputs i s = .ok t ∧ (t.machine i).state = .complete := by
  have same : (s.setMachine i { s.machine i with startTime := inputs.time }).entryPoint i =
      s.entryPoint i := rfl
  refine ⟨_, by simp only [bootWaitHandler, same, entry, if_true]; rfl, ?_⟩
  simp

/-- In every state that the system reaches, and in every state in which the handler of a machine
starts, the check answers for exactly the messages that the machine holds, frees exactly those that
are complete, and lets the machine go on only when none is outstanding, if and only if no two cells
hold one complete message, the last peer's answer stands for the others, and a machine that waits has
an entry point or nothing outstanding. -/
theorem checks_acks_iff {registry : HartId → IpiRegistry cfg IpiData} {mem : Mem}
    {pmpEntry : U54 → ℕ → PmpEntry} {bootInfo : Word} {events : List BootEvent} {a : State}
    (run : Run (bootStep cfg registry) (powerOn cfg mem pmpEntry bootInfo) events s)
    (start : a = s ∨ Entered cfg inputs i s a) :
    ∃ t result, checkForIpiAcks cfg i a = .ok (t, result) ∧
      (ChecksAcks cfg i a t result ↔ AcksAgree cfg i a ∧
        ((a.machine i).state = .wait → a.entryPoint i = 0 → a.AllAcked cfg i)) := by
  have all : InRange cfg a := by
    rcases start with rfl | entered
    · exact InRange.run run
    · exact (InRange.run run).entered entered
  have inRange := all i
  refine ⟨_, _, checkForIpiAcks_eq inRange, ?_⟩
  constructor
  · intro checks
    refine ⟨.of_checks checks.answers checks.frees, fun state entry => ?_⟩
    obtain ⟨t, done, complete⟩ := bootWaitHandler_of_entryPoint_zero cfg inputs entry
    exact checks.proceeds.wait state inputs t done complete
  · rintro ⟨agree, idle⟩
    have checks := agree.checks
    exact ⟨checks.1, checks.2, agree.proceeds inRange idle⟩

/-- The machine of hart 1 starts the harts 2 and 3 and waits, and the harts in `acks` acknowledge. -/
def startedEvents (acks : List U54) : List BootEvent :=
  setupPmpEvents .u54_1 ++ List.replicate 9 (.run .u54_1 tick) ++
    acks.flatMap fun hart => [.bus (.consume (.u54 hart) .e51 .opensbiInit true),
      .bus (.consume .e51 (.u54 hart) .ackComplete true)]

/-- With the acknowledgements of both harts that the machine started the check does what it should,
and with that of the later one alone it does not. -/
theorem checks_acks_iff_started :
    (∃ s t, Run (bootStep .icicleKitEs fun _ => .bare ..) threeHartsPowerOn
        (threeHartsEvents ++ startedEvents [.u54_2, .u54_3]) s ∧
      (s.machine .u54_1).state = .wait ∧
      (∀ peer, s.holds .icicleKitEs .u54_1 (.msgIndexAux peer) = true ↔
        peer = .u54_2 ∨ peer = .u54_3) ∧
      checkForIpiAcks .icicleKitEs .u54_1 s = .ok (t, true) ∧
      ChecksAcks .icicleKitEs .u54_1 s t true) ∧
    ∃ s t, Run (bootStep .icicleKitEs fun _ => .bare ..) threeHartsPowerOn
        (threeHartsEvents ++ startedEvents [.u54_3]) s ∧
      checkForIpiAcks .icicleKitEs .u54_1 s = .ok (t, true) ∧
      ¬ ChecksAcks .icicleKitEs .u54_1 s t true := by
  obtain ⟨s, run, state, held, agree, entry, answer⟩ := exists_run
    (bootNext .icicleKitEs fun _ => .bare ..) threeHartsStart (startedEvents [.u54_2, .u54_3])
    (P := fun s => (s.machine .u54_1).state = .wait ∧
      (∀ peer, s.holds .icicleKitEs .u54_1 (.msgIndexAux peer) = true ↔
        peer = .u54_2 ∨ peer = .u54_3) ∧
      ((∀ c d, s.acked .icicleKitEs .u54_1 c = true → s.acked .icicleKitEs .u54_1 d = true →
          s.index .u54_1 c = s.index .u54_1 d → c = d) ∧
        s.acked .icicleKitEs .u54_1 .msgIndex = false ∧
        ∀ cell, s.holds .icicleKitEs .u54_1 cell = true → s.acked .icicleKitEs .u54_1 cell = true) ∧
      s.entryPoint .u54_1 ≠ 0 ∧
      (checkForIpiAcks .icicleKitEs .u54_1 s).toOption.any (fun p => p.2) = true)
    (by decide +kernel)
  obtain ⟨distinct, own, all⟩ := agree
  have agree : AcksAgree .icicleKitEs .u54_1 s := by
    refine ⟨distinct, fun acked => ?_, fun _ _ peer => all (.msgIndexAux peer)⟩
    rw [own] at acked
    cases acked
  have started := threeHartsStart_run.trans run
  have start : s = s ∨ Entered .icicleKitEs tick .u54_1 s s := .inl rfl
  obtain ⟨t, result, checked, iff⟩ := checks_acks_iff started start
  have checks := iff.mpr ⟨agree, fun _ none => absurd none entry⟩
  obtain rfl : result = true := by simpa [checked, Except.toOption] using answer
  refine ⟨⟨s, t, started, state, held, checked, checks⟩, ?_⟩
  obtain ⟨s', run', missing⟩ := exists_run
    (bootNext .icicleKitEs fun _ => .bare ..) threeHartsStart (startedEvents [.u54_3])
    (P := fun s => s.lastHeld .icicleKitEs .u54_1 = some .u54_3 ∧
      s.acked .icicleKitEs .u54_1 (.msgIndexAux .u54_3) = true ∧
      s.holds .icicleKitEs .u54_1 .msgIndex = false ∧
      s.holds .icicleKitEs .u54_1 (.msgIndexAux .u54_2) = true ∧
      s.acked .icicleKitEs .u54_1 (.msgIndexAux .u54_2) = false ∧
      (checkForIpiAcks .icicleKitEs .u54_1 s).toOption.any (fun p => p.2) = true)
    (by decide +kernel)
  obtain ⟨last, acked, own, held, missing, answer'⟩ := missing
  have started' := threeHartsStart_run.trans run'
  have start' : s' = s' ∨ Entered .icicleKitEs tick .u54_1 s' s' := .inl rfl
  obtain ⟨t', result', checked', iff'⟩ := checks_acks_iff started' start'
  obtain rfl : result' = true := by simpa [checked', Except.toOption] using answer'
  refine ⟨s', t', started', checked', fun checks => ?_⟩
  have agree := (iff'.mp checks).1
  have all := agree.peers (fun peer found => ?_) (fun holds => ?_) .u54_2 held
  · rw [missing] at all
    cases all
  · obtain rfl : peer = .u54_3 := by simpa [last] using found.symm
    exact acked
  · rw [own] at holds
    cases holds

/-- The first machine starts the harts 2 and 3, and hart 3 alone acknowledges: the check answers yes
though the message to hart 2 is outstanding. -/
theorem check_passes_missing_ack :
    ∃ s, Run (bootStep .icicleKitEs fun _ => .bare ..) threeHartsPowerOn
        (threeHartsEvents ++ startedEvents [.u54_3]) s ∧
      (s.machine .u54_1).state = .wait ∧ ¬ s.AllAcked .icicleKitEs .u54_1 ∧
      ∃ t, checkForIpiAcks .icicleKitEs .u54_1 s = .ok (t, true) := by
  obtain ⟨s, run, state, held, missing, answer⟩ := exists_run
    (bootNext .icicleKitEs fun _ => .bare ..) threeHartsStart (startedEvents [.u54_3])
    (P := fun s => (s.machine .u54_1).state = .wait ∧
      s.holds .icicleKitEs .u54_1 (.msgIndexAux .u54_2) = true ∧
      s.acked .icicleKitEs .u54_1 (.msgIndexAux .u54_2) = false ∧
      (checkForIpiAcks .icicleKitEs .u54_1 s).toOption.any (fun p => p.2) = true)
    (by decide +kernel)
  refine ⟨s, threeHartsStart_run.trans run, state, fun all => ?_, ?_⟩
  · rw [all _ held] at missing
    cases missing
  · obtain ⟨⟨t, result⟩, done, yes⟩ := exists_ok (x := checkForIpiAcks .icicleKitEs .u54_1 s)
      (P := fun p => p.2 = true) (by simpa using answer)
    exact ⟨t, by rw [done, show result = true from yes]⟩

end Hss
