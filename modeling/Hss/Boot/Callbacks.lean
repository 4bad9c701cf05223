import Hss.Lib.Outcome
import Hss.Boot.System

/-! What each callback of the boot machines can do. -/

namespace Hss

open ByteMemory Outcome

variable {cfg : Config} {inputs : Inputs} {i j peer target : U54} {cell : MsgCell} {s t : State}

/-! ### Freeing -/

theorem freeCell_cases (done : freeCell cfg i cell s = .ok t) :
    (s.index i cell = cfg.maxNumOutstandingCompletes ∧ t = s) ∨
      (s.index i cell ≠ cfg.maxNumOutstandingCompletes ∧
        ∃ d, ipiMessageFree .e51 (s.index i cell) s.ipiData = .ok d ∧
          t = (setIpi s d).setIndex i cell cfg.maxNumOutstandingCompletes) := by
  unfold freeCell at done
  split at done
  · next holds =>
    simp only [bind_eq_ok] at done
    obtain ⟨d, freed, done⟩ := done
    cases done
    exact .inr ⟨holds, d, freed, rfl⟩
  · next empty =>
    cases done
    exact .inl ⟨not_not.mp empty, rfl⟩

/-- What the freeing of one message keeps, the freeing of all keeps. -/
theorem freeAll_induction {P : State → Prop}
    (free : ∀ cell s t, P s → freeCell cfg i cell s = .ok t → P t)
    (done : freeAll cfg i s = .ok t) (start : P s) : P t := by
  simp only [freeAll, bind_eq_ok] at done
  obtain ⟨u, freed, done⟩ := done
  exact free _ u t (foldlM_ok (fun _ s t => free _ s t) freed start) done

/-- One turn of the loop that looks for acknowledgements: it skips a peer without a message, frees
the message of a peer that is complete, or finds one that is not. -/
theorem checkPeerAck_cases {result result' : Bool}
    (done : checkPeerAck cfg i peer s result = .ok (t, result')) :
    (s.index i (.msgIndexAux peer) = cfg.maxNumOutstandingCompletes ∧ t = s ∧ result' = result) ∨
      (s.index i (.msgIndexAux peer) ≠ cfg.maxNumOutstandingCompletes ∧
        ipiMessageCheckIfComplete cfg s.ipiData (s.index i (.msgIndexAux peer)) = .ok result' ∧
        runIf result' (freeMsgIndexAux cfg i peer) s = .ok t) := by
  unfold checkPeerAck at done
  split at done
  · next holds =>
    simp only [bind_eq_ok] at done
    obtain ⟨complete, checked, u, freed, done⟩ := done
    cases done
    exact .inr ⟨holds, checked, freed⟩
  · next empty =>
    cases done
    exact .inl ⟨not_not.mp empty, rfl, rfl⟩

theorem checkForIpiAcks_cases {result : Bool} (done : checkForIpiAcks cfg i s = .ok (t, result)) :
    ∃ u before, bootMachine.foldlM (fun (s, result) peer => checkPeerAck cfg i peer s result)
        (s, true) = .ok (u, before) ∧
      ((u.index i .msgIndex = cfg.maxNumOutstandingCompletes ∧ t = u ∧ result = before) ∨
        (u.index i .msgIndex ≠ cfg.maxNumOutstandingCompletes ∧ ∃ complete,
          ipiMessageCheckIfComplete cfg u.ipiData (u.index i .msgIndex) = .ok complete ∧
          result = (before && complete) ∧
          runIf result (freeMsgIndex cfg i) u = .ok t)) := by
  simp only [checkForIpiAcks, bind_eq_ok] at done
  obtain ⟨⟨u, before⟩, peers, done⟩ := done
  refine ⟨u, before, peers, ?_⟩
  dsimp only at done
  split at done
  · next holds =>
    simp only [bind_eq_ok] at done
    obtain ⟨complete, checked, v, freed, done⟩ := done
    cases done
    exact .inr ⟨holds, complete, checked, rfl, freed⟩
  · next empty =>
    cases done
    exact .inl ⟨not_not.mp empty, rfl, rfl⟩

/-- What the freeing of one message keeps, the check for acknowledgements keeps. -/
theorem checkForIpiAcks_induction {P : State → Prop}
    (free : ∀ cell s t, P s → freeCell cfg i cell s = .ok t → P t) {result : Bool}
    (done : checkForIpiAcks cfg i s = .ok (t, result)) (start : P s) : P t := by
  obtain ⟨u, before, peers, last⟩ := checkForIpiAcks_cases done
  have kept : P u := by
    refine foldlM_ok (I := fun p => P p.1) ?_ peers start
    rintro peer ⟨v, r⟩ ⟨w, r'⟩ kept turn
    rcases checkPeerAck_cases turn with ⟨-, rfl, -⟩ | ⟨-, -, freed⟩
    · exact kept
    · cases r' with
      | true => exact free _ _ _ kept freed
      | false =>
        cases freed
        exact kept
  rcases last with ⟨-, rfl, -⟩ | ⟨-, complete, -, -, freed⟩
  · exact kept
  · cases result with
    | true => exact free _ _ _ kept freed
    | false =>
      cases freed
      exact kept

/-! ### Handing out -/

theorem hssBootPmpSetupRequest_cases {result : Bool}
    (done : hssBootPmpSetupRequest cfg inputs i s = .ok (t, result)) :
    ∃ index d e, ipiMessageAlloc cfg .e51 s.ipiData = (d, some index) ∧
      ipiMessageDeliver cfg (inputs.accepts .pmpSetup) .e51 index (.u54 i) .pmpSetup 0 0 0 d =
        .ok (e, result) ∧
      ∃ f, runIf (!result) (ipiMessageFree .e51 index) e = .ok f ∧
        t = setIpi (s.setIndex i .msgIndex index) f := by
  unfold hssBootPmpSetupRequest at done
  split at done
  · cases done
  · next d index taken =>
    simp only [bind_eq_ok] at done
    obtain ⟨⟨e, sent⟩, delivered, f, freed, done⟩ := done
    cases done
    exact ⟨index, d, e, taken, delivered, f, freed, rfl⟩

theorem commonBootMessageDelivery_cases
    (done : commonBootMessageDelivery cfg inputs i peer s = .ok t) :
    ∃ index d e sent, ipiMessageAlloc cfg .e51 s.ipiData = (d, some index) ∧
      ipiMessageDeliver cfg (inputs.accepts (startMsg s peer)) .e51 index (.u54 peer)
        (startMsg s peer) ((BootImage.privMode s.mem s.pBootImage peer).setWidth 32)
        (s.entryPoint peer) (s.localData i).ancilliaryData d = .ok (e, sent) ∧
      t = if sent then
          (setIpi (s.setIndex i (.msgIndexAux peer) index) e).record
            (.started i peer (s.machine i).state true)
        else ((setIpi (s.setIndex i (.msgIndexAux peer) index) e).record
            (.started i peer (s.machine i).state false)).goto i .error := by
  unfold commonBootMessageDelivery at done
  split at done
  · cases done
  · next d index taken =>
    simp only [bind_eq_ok] at done
    obtain ⟨⟨e, sent⟩, delivered, done⟩ := done
    cases done
    refine ⟨index, d, e, sent, taken, ?_, ?_⟩
    · have same : (((setIpi s d).setIndex i (.msgIndexAux peer) index).localData i).ancilliaryData =
          (s.localData i).ancilliaryData := by
        rw [State.setIndex, State.setLocal_localData, Function.update_self]
        rfl
      rw [same] at delivered
      exact delivered
    · cases sent <;> rfl

/-! ### Registering -/

/-- The machine registered its harts: it holds no message, and only the data of the domains
changed besides. -/
def Registers (cfg : Config) (i : U54) (s t : State) : Prop :=
  ∃ l hartLedger hartIndex2id,
    t = { s with
      localData := Function.update s.localData i l
      hartLedger := hartLedger
      hartIndex2id := hartIndex2id
      history := .registered i :: s.history } ∧
    l.toChunkWalk = (s.localData i).toChunkWalk ∧
    l.iterator = (s.localData i).iterator ∧
    l.ancilliaryData = (s.localData i).ancilliaryData ∧
    ∀ cell, l.index cell = cfg.maxNumOutstandingCompletes

/-- What a turn of the loop of `register_harts` changes. -/
theorem registerPeer_eq (cfg : Config) (i peer : U54) (s : State) :
    ∃ l hartLedger hartIndex2id,
      registerPeer cfg i peer s = { s with
        localData := Function.update s.localData i l
        hartLedger := hartLedger
        hartIndex2id := hartIndex2id } ∧
      l.toChunkWalk = (s.localData i).toChunkWalk ∧
      l.iterator = (s.localData i).iterator ∧
      l.ancilliaryData = (s.localData i).ancilliaryData ∧
      l.index = Function.update (s.localData i).index (.msgIndexAux peer) cfg.maxNumOutstandingCompletes := by
  have marked := LocalData.index_setIndex (s.localData i) (.msgIndexAux peer)
    cfg.maxNumOutstandingCompletes
  unfold registerPeer
  dsimp only
  split
  · split
    · exact ⟨_, _, _, rfl, rfl, rfl, rfl, marked⟩
    · split
      · refine ⟨{ (s.localData i).setIndex (.msgIndexAux peer) cfg.maxNumOutstandingCompletes with
          hartMask := (s.localData i).hartMask ||| (1 : BitVec 32) <<< peer.num },
          Function.update s.hartLedger peer { s.hartLedger peer with
            ownerHartid := i.num, bootPending := true, resetReason := 0, resetType := 0 },
          s.hartIndex2id, ?_, rfl, rfl, rfl, marked⟩
        simp only [State.setIndex, State.setLocal, mpfsDomainsRegisterHart, Function.update_self,
          Function.update_idem]
        rfl
      · exact ⟨_, s.hartLedger, s.hartIndex2id, rfl, rfl, rfl, rfl, marked⟩
  · exact ⟨_, s.hartLedger, s.hartIndex2id, rfl, rfl, rfl, rfl, marked⟩

/-- What the loop of `register_harts` changes, over the peers it has passed. -/
theorem registerPeers_eq (cfg : Config) (i : U54) (peers : List U54) (s : State) :
    ∃ l hartLedger hartIndex2id,
      peers.foldl (fun s peer => registerPeer cfg i peer s) s = { s with
        localData := Function.update s.localData i l
        hartLedger := hartLedger
        hartIndex2id := hartIndex2id } ∧
      l.toChunkWalk = (s.localData i).toChunkWalk ∧
      l.iterator = (s.localData i).iterator ∧
      l.ancilliaryData = (s.localData i).ancilliaryData ∧
      l.index .msgIndex = (s.localData i).index .msgIndex ∧
      ∀ peer ∈ peers, l.index (.msgIndexAux peer) = cfg.maxNumOutstandingCompletes := by
  induction peers using List.reverseRecOn with
  | nil =>
    refine ⟨s.localData i, s.hartLedger, s.hartIndex2id, ?_, rfl, rfl, rfl, rfl, by simp⟩
    rw [Function.update_eq_self]
    rfl
  | append_singleton peers peer ih =>
    obtain ⟨l, ledger, ids, after, walk, iterator, data, primary, cleared⟩ := ih
    obtain ⟨l', ledger', ids', turn, walk', iterator', data', index'⟩ :=
      registerPeer_eq cfg i peer (peers.foldl (fun s peer => registerPeer cfg i peer s) s)
    rw [List.foldl_append, List.foldl_cons, List.foldl_nil, turn, after]
    rw [after] at walk' iterator' data' index'
    simp only [Function.update_self] at walk' iterator' data' index'
    refine ⟨l', ledger', ids', by simp only [Function.update_idem], walk'.trans walk,
      iterator'.trans iterator, data'.trans data, ?_, ?_⟩
    · rw [index', Function.update_of_ne (by simp)]
      exact primary
    · intro other present
      rw [index']
      by_cases h : other = peer
      · rw [h, Function.update_self]
      · rw [Function.update_of_ne (by simpa using h)]
        refine cleared other ?_
        simpa [h] using present

theorem registerHarts_eq_ok (done : registerHarts cfg i s = .ok t) : Registers cfg i s t := by
  unfold registerHarts at done
  dsimp only at done
  obtain ⟨l, ledger, ids, after, walk, iterator, data, primary, cleared⟩ := registerPeers_eq cfg i
    bootMachine ((s.record (.registered i)).setIndex i .msgIndex cfg.maxNumOutstandingCompletes)
  generalize List.foldl _ _ _ = u at after done
  simp only [State.setIndex, State.setLocal, State.record, Function.update_self,
    Function.update_idem] at after walk iterator data primary
  have index : ∀ cell, l.index cell = cfg.maxNumOutstandingCompletes := by
    intro cell
    cases cell with
    | msgIndex => exact primary
    | msgIndexAux peer => exact cleared peer (mem_bootMachine peer)
  split at done
  · simp only [mpfsDomainsRegisterBootHart, bind_eq_ok] at done
    obtain ⟨-, -, done⟩ := done
    have last := (Except.ok.inj done).symm
    rw [after] at last
    exact ⟨l, _, ids, last, walk, iterator, data, index⟩
  · have last := (Except.ok.inj done).symm
    exact ⟨l, ledger, ids, last.trans after, walk, iterator, data, index⟩

/-! ### The callbacks of the states -/

theorem bootInitHandler_cases (done : bootInitHandler inputs i s = .ok t) :
    t = s ∨
      t = { s with bootFailCr := 0 }.setMachine i
        { s.machine i with state := .setupPmp, startTime := inputs.time } ∨
      t = s.goto i .error := by
  unfold bootInitHandler at done
  split at done
  · split at done
    · cases done
      refine .inr (.inl ?_)
      simp only [State.goto, State.setMachine, Function.update_self, Function.update_idem]
    · cases done
      exact .inr (.inr rfl)
  · cases done
    exact .inl rfl

theorem bootSetupPmpHandler_cases (done : bootSetupPmpHandler cfg inputs i s = .ok t) :
    (s.index i .msgIndex ≠ cfg.maxNumOutstandingCompletes ∧ t = s.goto i .setupPmpComplete) ∨
      (s.index i .msgIndex = cfg.maxNumOutstandingCompletes ∧
        ∃ u result, hssBootPmpSetupRequest cfg inputs i s = .ok (u, result) ∧
          t = if result then u.goto i .setupPmpComplete else u) := by
  unfold bootSetupPmpHandler at done
  split at done
  · next empty =>
    simp only [bind_eq_ok] at done
    obtain ⟨⟨u, result⟩, request, done⟩ := done
    cases done
    exact .inr ⟨empty, u, result, request, rfl⟩
  · next holds =>
    cases done
    exact .inl ⟨holds, rfl⟩

theorem bootSetupPmpCompleteHandler_cases
    (done : bootSetupPmpCompleteHandler cfg inputs i s = .ok t) :
    (∃ u, freeAll cfg i s = .ok u ∧ t = u.goto i .error) ∨
      ∃ u result, checkForIpiAcks cfg i s = .ok (u, result) ∧
        t = if result then
            u.goto i (if u.hasFlag i bootFlagSkipAutoboot then .complete else .zeroInitChunks)
          else u := by
  unfold bootSetupPmpCompleteHandler at done
  split at done
  · simp only [bind_eq_ok] at done
    obtain ⟨u, freed, done⟩ := done
    cases done
    exact .inl ⟨u, freed, rfl⟩
  · simp only [bind_eq_ok] at done
    obtain ⟨⟨u, result⟩, checked, done⟩ := done
    cases done
    exact .inr ⟨u, result, checked, rfl⟩

theorem bootZeroInitChunksOnEntry_eq_ok (done : bootZeroInitChunksOnEntry i s = .ok t) :
    t = s.setWalk i { (s.localData i).toChunkWalk with
      pZiChunk := s.pBootImage + BootImage.ziChunkTableOffset s.mem s.pBootImage } := by
  simp only [bootZeroInitChunksOnEntry, bind_eq_ok] at done
  obtain ⟨-, -, done⟩ := done
  cases done
  rfl

theorem bootDoZeroInitChunk_eq_ok {pZiChunk : Word}
    (done : bootDoZeroInitChunk i pZiChunk s = .ok t) :
    let ziChunk := ziChunkDesc s.mem pZiChunk
    let mem := fill s.mem ziChunk.execAddr ziChunk.size.toNat 0
    t = { s with mem }.access (.zeroInit i ziChunk) := by
  simp only [bootDoZeroInitChunk, bind_eq_ok] at done
  obtain ⟨-, -, done⟩ := done
  exact (Except.ok.inj done).symm

theorem bootZeroInitChunksHandler_cases (done : bootZeroInitChunksHandler cfg i s = .ok t) :
    let p := (s.localData i).pZiChunk
    let ziChunk := ziChunkDesc s.mem p
    let u := s.access (.readZiChunk i p)
    (ziChunk.size = 0 ∧ t = u.goto i .downloadChunks) ∨
      (ziChunk.size ≠ 0 ∧ ¬ ziChunk.OwnedBy i ∧ t = nextZiChunk i u) ∨
      (ziChunk.size ≠ 0 ∧ ziChunk.OwnedBy i ∧ t = u) ∨
      (ziChunk.size ≠ 0 ∧ ziChunk.OwnedBy i ∧
        let mem := fill s.mem ziChunk.execAddr ziChunk.size.toNat 0
        t = nextZiChunk i ({ u with mem }.access (.zeroInit i ziChunk))) := by
  simp only [bootZeroInitChunksHandler, bind_eq_ok] at done
  obtain ⟨-, -, done⟩ := done
  dsimp only
  split at done
  · next size =>
    split at done
    · next owned =>
      split at done
      · cases done
        exact .inr (.inr (.inl ⟨size, owned, rfl⟩))
      · simp only [bind_eq_ok] at done
        obtain ⟨u, cleared, done⟩ := done
        have last := (Except.ok.inj done).symm
        rw [bootDoZeroInitChunk_eq_ok cleared] at last
        exact .inr (.inr (.inr ⟨size, owned, last⟩))
    · next owned =>
      cases done
      exact .inr (.inl ⟨size, owned, rfl⟩)
  · next size =>
    cases done
    exact .inl ⟨not_not.mp size, rfl⟩

theorem bootDownloadChunksOnEntry_cases (done : bootDownloadChunksOnEntry i s = .ok t) :
    (s.numChunks i = 0 ∧ t = s) ∨
      (s.numChunks i ≠ 0 ∧ t = s.setWalk i { (s.localData i).toChunkWalk with
        pChunk := s.pBootImage + BootImage.chunkTableOffset s.mem s.pBootImage +
          sizeOfChunkDesc * s.firstChunk i
        chunkCount := 0
        subChunkOffset := 0 }) := by
  simp only [bootDownloadChunksOnEntry, bind_eq_ok] at done
  obtain ⟨-, -, done⟩ := done
  split at done
  · next chunks =>
    cases done
    exact .inr ⟨chunks, rfl⟩
  · next chunks =>
    cases done
    exact .inl ⟨not_not.mp chunks, rfl⟩

theorem bootDoDownloadChunk_eq_ok {pChunk subChunkOffset : Word} {subChunkSize : ℕ}
    (done : bootDoDownloadChunk i pChunk subChunkOffset subChunkSize s = .ok t) :
    let chunk := chunkDesc s.mem pChunk
    let mem := copy s.mem (chunk.execAddr + subChunkOffset)
      (s.pBootImage + chunk.loadAddr + subChunkOffset) subChunkSize
    t = { s with mem }.access
      (.download i s.pBootImage chunk subChunkOffset subChunkSize) := by
  simp only [bootDoDownloadChunk, memcpyViaPdma, bind_eq_ok] at done
  obtain ⟨-, -, -, -, mem, ⟨-, -, copied⟩, done⟩ := done
  have last := (Except.ok.inj done).symm
  rw [← Except.ok.inj copied] at last
  exact last

/-- The download has no chunks, has passed the last one, is at the sentinel, leaves a chunk out, or
copies a slice. -/
theorem bootDownloadChunksHandler_cases (done : bootDownloadChunksHandler i s = .ok t) :
    let walk := (s.localData i).toChunkWalk
    let chunk := chunkDesc s.mem walk.pChunk
    let permitted := chunk.OwnedBy i ∧
      hssPmpCheckWrite (s.pmpEntry i) chunk.execAddr chunk.size = true
    let u := s.access (.readChunk i walk.pChunk)
    (s.numChunks i = 0 ∧ t = s.goto i .complete) ∨
      (s.numChunks i ≠ 0 ∧ ¬ walk.chunkCount ≤ s.lastChunk i ∧
        t = (s.record (.loaded i)).goto i .opensbiInit) ∨
      (s.numChunks i ≠ 0 ∧ chunk.size = 0 ∧ t = (u.record (.loaded i)).goto i .opensbiInit) ∨
      (s.numChunks i ≠ 0 ∧ chunk.size ≠ 0 ∧ ¬ permitted ∧ t = skipChunk i u) ∨
      (s.numChunks i ≠ 0 ∧ walk.chunkCount ≤ s.lastChunk i ∧ chunk.size ≠ 0 ∧ permitted ∧
        let mem := copy s.mem (chunk.execAddr + walk.subChunkOffset)
          (s.pBootImage + chunk.loadAddr + walk.subChunkOffset) bootSubChunkSize
        let v := { u with mem }.access
          (.download i s.pBootImage chunk walk.subChunkOffset bootSubChunkSize)
        t = nextSlice i (chunkDesc mem walk.pChunk).size
          (noteAncilliaryData i (chunkDesc mem walk.pChunk) v)) := by
  simp only [bootDownloadChunksHandler, bind_eq_ok] at done
  obtain ⟨-, -, done⟩ := done
  dsimp only
  split at done
  · next chunks =>
    split at done
    · next count =>
      split at done
      · next size =>
        split at done
        · next permitted =>
          simp only [bind_eq_ok] at done
          obtain ⟨v, copied, done⟩ := done
          have last := (Except.ok.inj done).symm
          rw [bootDoDownloadChunk_eq_ok copied] at last
          exact .inr (.inr (.inr (.inr ⟨chunks, count, size, permitted, last⟩)))
        · next permitted =>
          cases done
          exact .inr (.inr (.inr (.inl ⟨chunks, size, permitted, rfl⟩)))
      · next size =>
        cases done
        exact .inr (.inr (.inl ⟨chunks, not_not.mp size, rfl⟩))
    · next count =>
      cases done
      exact .inr (.inl ⟨chunks, count, rfl⟩)
  · next chunks =>
    cases done
    exact .inl ⟨not_not.mp chunks, rfl⟩

theorem bootOpensbiInitOnEntry_eq_ok (done : bootOpensbiInitOnEntry i s = .ok t) :
    t = if s.entryPoint i ≠ 0 then s.setLocal i { s.localData i with iterator := 0 } else s := by
  simp only [bootOpensbiInitOnEntry, bind_eq_ok] at done
  obtain ⟨-, -, done⟩ := done
  exact (Except.ok.inj done).symm

/-- A machine that starts harts looks at the next peer, or has looked at all. -/
theorem bootOpensbiInitHandler_cases (done : bootOpensbiInitHandler cfg inputs i s = .ok t) :
    (s.primaryBootHart i = false ∧ t = s) ∨
      (s.primaryBootHart i = true ∧ bootMachine[(s.localData i).iterator]? = none ∧
        t = s.goto i .wait) ∨
      (s.primaryBootHart i = true ∧ ∃ peer u, bootMachine[(s.localData i).iterator]? = some peer ∧
        runIf (peer ≠ i && s.entryPoint peer = s.entryPoint i)
          (commonBootMessageDelivery cfg inputs i peer) s = .ok u ∧
        t = u.setLocal i { u.localData i with iterator := (u.localData i).iterator + 1 }) := by
  simp only [bootOpensbiInitHandler, bind_eq_ok] at done
  obtain ⟨-, -, done⟩ := done
  split at done
  · next primary =>
    split at done
    · next peer next =>
      simp only [bind_eq_ok] at done
      obtain ⟨u, sent, done⟩ := done
      cases done
      exact .inr (.inr ⟨primary, peer, u, next, sent, rfl⟩)
    · next none =>
      cases done
      exact .inr (.inl ⟨primary, none, rfl⟩)
  · next primary =>
    cases done
    exact .inl ⟨by simpa using primary, rfl⟩

theorem bootOpensbiInitOnExit_cases (done : bootOpensbiInitOnExit cfg inputs i s = .ok t) :
    (s.entryPoint i = 0 ∧ t = s) ∨
      (s.entryPoint i ≠ 0 ∧ commonBootMessageDelivery cfg inputs i i s = .ok t) := by
  simp only [bootOpensbiInitOnExit, bind_eq_ok] at done
  obtain ⟨-, -, done⟩ := done
  split at done
  · next entry => exact .inr ⟨entry, done⟩
  · next entry =>
    cases done
    exact .inl ⟨not_not.mp entry, rfl⟩

theorem bootWaitHandler_cases (done : bootWaitHandler cfg inputs i s = .ok t) :
    let u := s.setMachine i { s.machine i with startTime := inputs.time }
    (s.entryPoint i = 0 ∧ t = { u with
        hartStates := Function.update s.hartStates i .idle }.goto i .complete) ∨
      (s.entryPoint i ≠ 0 ∧ ∃ v, freeAll cfg i u = .ok v ∧ t = v.goto i .error) ∨
      (s.entryPoint i ≠ 0 ∧ ∃ v result, checkForIpiAcks cfg i u = .ok (v, result) ∧
        ((result = false ∧ t = v) ∨
          (result = true ∧ ∃ status, t = { v with mssStatus := status }.goto i .complete))) := by
  simp only [bootWaitHandler] at done
  dsimp only
  split at done
  · next entry =>
    cases done
    exact .inl ⟨entry, rfl⟩
  · next entry =>
    split at done
    · simp only [bind_eq_ok] at done
      obtain ⟨v, freed, done⟩ := done
      cases done
      exact .inr (.inl ⟨entry, v, freed, rfl⟩)
    · simp only [bind_eq_ok] at done
      obtain ⟨⟨v, result⟩, checked, done⟩ := done
      refine .inr (.inr ⟨entry, v, result, checked, ?_⟩)
      cases result <;> cases done
      · exact .inl ⟨rfl, rfl⟩
      · exact .inr ⟨rfl, _, rfl⟩

theorem bootCompleteHandler_cases (done : bootCompleteHandler i s = .ok t) :
    t = s ∨ t = (s.notify .bootComplete).goto i .idle := by
  unfold bootCompleteHandler at done
  have after := (Except.ok.inj done).symm
  split at after
  · exact .inr after
  · exact .inl after

end Hss
