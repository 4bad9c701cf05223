import Hss.Boot.State

/-! The boot service: the callbacks of the states of a boot machine, and the calls that restart
machines. -/

namespace Hss

open ByteMemory

/-- What a run of a machine is given from outside: the clock, as the engine and then the handler read
it, and the answers of the transport to messages. -/
structure Inputs where
  lastEntry : Word
  time : Word
  laterTime : Word
  accepts : MsgType → Bool

/-- `HSS_Timer_IsElapsed`, at the time `now` -/
def hssTimerIsElapsed (now startTime duration : Word) : Bool := startTime + duration < now

/-- `BOOT_SETUP_PMP_COMPLETE_TIMEOUT` and `BOOT_WAIT_TIMEOUT` -/
def bootSetupPmpCompleteTimeout (cfg : Config) : Word := cfg.oneSec * 1
def bootWaitTimeout (cfg : Config) : Word := cfg.oneSec * 5

/-- `BOOT_SUB_CHUNK_SIZE` -/
def bootSubChunkSize : ℕ := 256

variable (cfg : Config) (inputs : Inputs) (target : U54)

/-- `if (condition) { f(..); }` -/
def runIf {α : Type} (condition : Bool) (f : α → Except Halt α) (a : α) : Except Halt α :=
  if condition then f a else .ok a

/-! ### Copying and clearing -/

/-- `memcpy_via_pdma` -/
def memcpyViaPdma (dest src : Word) (numBytes : ℕ) (mem : Mem) : Except Halt Mem := do
  assert (if src < dest then src + BitVec.ofNat 64 numBytes - 1 < dest
    else dest + BitVec.ofNat 64 numBytes - 1 < src) .copyDisjoint
  return copy mem dest src numBytes

/-- `boot_do_download_chunk` -/
def bootDoDownloadChunk (pChunk subChunkOffset : Word) (subChunkSize : ℕ) (s : State) :
    Except Halt State := do
  assert (pChunk ≠ 0) .chunkNotNull
  let chunk := chunkDesc s.mem pChunk
  assert (chunk.size ≠ 0) .chunkNotEmpty
  let mem ← memcpyViaPdma (chunk.execAddr + subChunkOffset)
    (s.pBootImage + chunk.loadAddr + subChunkOffset) subChunkSize s.mem
  return { s with mem }.access (.download target s.pBootImage chunk subChunkOffset subChunkSize)

/-- `boot_do_zero_init_chunk` -/
def bootDoZeroInitChunk (pZiChunk : Word) (s : State) : Except Halt State := do
  assert (pZiChunk ≠ 0) .chunkNotNull
  let ziChunk := ziChunkDesc s.mem pZiChunk
  return { s with mem := fill s.mem ziChunk.execAddr ziChunk.size.toNat 0 }.access
    (.zeroInit target ziChunk)

/-! ### Messages -/

/-- The message whose index is in `cell` is freed, if there is one. -/
def freeCell (cell : MsgCell) (s : State) : Except Halt State :=
  if (s.localData target).index cell ≠ cfg.maxNumOutstandingCompletes then do
    let d ← ipiMessageFree .e51 ((s.localData target).index cell) s.ipiData
    return (setIpi s d).setIndex target cell cfg.maxNumOutstandingCompletes
  else .ok s

/-- `free_msg_index` -/
def freeMsgIndex : State → Except Halt State := freeCell cfg target .msgIndex

/-- `free_msg_index_aux` -/
def freeMsgIndexAux (peer : U54) : State → Except Halt State :=
  freeCell cfg target (.msgIndexAux peer)

/-- All messages of the machine are freed. -/
def freeAll (s : State) : Except Halt State := do
  let s ← bootMachine.foldlM (fun s peer => freeMsgIndexAux cfg target peer s) s
  freeMsgIndex cfg target s

/-- One turn of the loop of `check_for_ipi_acks`: the result of a peer whose message is checked
replaces the result so far. -/
def checkPeerAck (peer : U54) (s : State) (result : Bool) : Except Halt (State × Bool) :=
  if (s.localData target).msgIndexAux peer ≠ cfg.maxNumOutstandingCompletes then do
    let result ← ipiMessageCheckIfComplete cfg s.ipiData ((s.localData target).msgIndexAux peer)
    let s ← runIf result (freeMsgIndexAux cfg target peer) s
    return (s, result)
  else .ok (s, result)

/-- `check_for_ipi_acks` -/
def checkForIpiAcks (s : State) : Except Halt (State × Bool) := do
  let (s, result) ← bootMachine.foldlM (fun (s, result) peer => checkPeerAck cfg target peer s result)
    (s, true)
  if (s.localData target).msgIndex ≠ cfg.maxNumOutstandingCompletes then do
    let complete ← ipiMessageCheckIfComplete cfg s.ipiData (s.localData target).msgIndex
    let result := result && complete
    let s ← runIf result (freeMsgIndex cfg target) s
    return (s, result)
  else return (s, result)

/-- `HSS_Boot_PMPSetupRequest`, with the index written to the machine's data.  A message that could
not be sent is freed, and its index stays where it was written. -/
def hssBootPmpSetupRequest (s : State) : Except Halt (State × Bool) :=
  match ipiMessageAlloc cfg .e51 s.ipiData with
  | (_, none) => .error .completionAllocated
  | (d, some index) => do
    let s := (setIpi s d).setIndex target .msgIndex index
    let (d, sent) ← ipiMessageDeliver cfg (inputs.accepts .pmpSetup) .e51 index (.u54 target)
      .pmpSetup 0 0 0 s.ipiData
    let d ← runIf (!sent) (ipiMessageFree .e51 index) d
    return (setIpi s d, sent)

/-- The start message for a hart. -/
def startMsg (s : State) (peer : U54) : MsgType :=
  if s.hasFlag peer bootFlagSkipOpensbi then .goto else .opensbiInit

/-- `common_boot_message_delivery`, by the machine of `target` -/
def commonBootMessageDelivery (peer : U54) (s : State) : Except Halt State :=
  match ipiMessageAlloc cfg .e51 s.ipiData with
  | (_, none) => .error .completionAllocated
  | (d, some index) => do
    let s := (setIpi s d).setIndex target (.msgIndexAux peer) index
    let message := startMsg s peer
    let (d, sent) ← ipiMessageDeliver cfg (inputs.accepts message) .e51 index (.u54 peer) message
      ((BootImage.privMode s.mem s.pBootImage peer).setWidth 32) (s.entryPoint peer)
      (s.localData target).ancilliaryData s.ipiData
    let s := (setIpi s d).record (.started target peer (s.machine target).state sent)
    return if sent then s else s.goto target .error

/-! ### Domains -/

/-- `mpfs_domains_register_hart` -/
def mpfsDomainsRegisterHart (hart bootHart : U54) (s : State) : State :=
  { s with hartLedger := Function.update s.hartLedger hart { s.hartLedger hart with
      ownerHartid := bootHart.num, bootPending := true, resetReason := 0, resetType := 0 } }

/-- `mpfs_domains_deregister_hart` -/
def mpfsDomainsDeregisterHart (hart : U54) (s : State) : State :=
  { s with
    hartLedger := Function.update s.hartLedger hart
      { s.hartLedger hart with ownerHartid := 0, bootPending := false }
    hartIndex2id := Function.update s.hartIndex2id hart (-1) }

/-- `mpfs_domains_register_boot_hart`, with the description of the hart in the image -/
def mpfsDomainsRegisterBootHart (bootHart : U54) (hartMask : BitVec 32) (arg1 : Word) (s : State) :
    Except Halt State := do
  assert ((s.hartLedger bootHart).ownerHartid = bootHart.num) .bootHartRegistered
  return { s with hartLedger := Function.update s.hartLedger bootHart { s.hartLedger bootHart with
    name := BootImage.name s.mem s.pBootImage bootHart 63
    nextAddr := s.entryPoint bootHart
    nextArg1 := arg1
    hartMask := hartMask
    nextMode := (BootImage.privMode s.mem s.pBootImage bootHart).setWidth 32
    allowColdReboot := s.hasFlag bootHart bootFlagAllowColdReboot
    allowWarmReboot := s.hasFlag bootHart bootFlagAllowWarmReboot } }

/-- One turn of the loop of `register_harts`. -/
def registerPeer (peer : U54) (s : State) : State :=
  let s := s.setIndex target (.msgIndexAux peer) cfg.maxNumOutstandingCompletes
  if s.primaryBootHart target then
    if s.hasFlag peer bootFlagSkipOpensbi then mpfsDomainsDeregisterHart peer s
    else if peer = target ∨ s.entryPoint peer = s.entryPoint target then
      mpfsDomainsRegisterHart peer target (s.setLocal target { s.localData target with
        hartMask := (s.localData target).hartMask ||| (1 : BitVec 32) <<< peer.num })
    else s
  else s

/-- `register_harts` -/
def registerHarts (s : State) : Except Halt State :=
  let s := s.record (.registered target)
  let s := s.setIndex target .msgIndex cfg.maxNumOutstandingCompletes
  let s := bootMachine.foldl (fun s peer => registerPeer cfg target peer s) s
  if s.primaryBootHart target && !s.hasFlag target bootFlagSkipOpensbi then
    let arg1 := if (s.localData target).ancilliaryData ≠ 0 then (s.localData target).ancilliaryData
      else cfg.provideDtb.getD 0
    mpfsDomainsRegisterBootHart target (s.localData target).hartMask arg1 s
  else .ok s

/-! ### Restarts -/

/-- A machine is put back to its first state, unless it is starting its harts. -/
def restartMachine (hart : U54) (s : State) : State :=
  match (s.machine hart).state with
  | .opensbiInit => s
  | _ => (s.goto hart .initialization).record (.restarted hart)

/-- `boot_using_hart_bitmask_` -/
def bootUsingHartBitmask (mask : BitVec 32) (s : State) : State × Bool :=
  let (s, result) := bootMachine.foldl
    (fun (s, result) hart =>
      if mask.getLsbD hart.num then (restartMachine hart s, true) else (s, result))
    (s, false)
  (s.notify .postBoot, result)

/-- The hart and the other harts with its entry point. -/
def bootSetMask (source : U54) (s : State) : BitVec 32 :=
  bootMachine.foldl
    (fun mask peer =>
      if peer = source then mask
      else if s.entryPoint peer = s.entryPoint source then mask ||| (1 : BitVec 32) <<< peer.num
      else mask)
    0 ||| (1 : BitVec 32) <<< source.num

/-- `HSS_Boot_RestartCores_Using_Bitmask` -/
def hssBootRestartCoresUsingBitmask (mask : BitVec 32) (s : State) : State × StatusCode :=
  if s.pBootImage = 0 then (s, .fail)
  else if hssBootValidateImage s.mem s.pBootImage = false then (s, .fail)
  else
    let (s, result, _) := bootMachine.foldl
      (fun ((s, result, mask) : State × StatusCode × BitVec 32) source =>
        if mask.getLsbD source.num = false then (s, result, mask)
        else
          let localMask := bootSetMask source s
          if s.numChunks source ≠ 0 then
            let (s, booted) := bootUsingHartBitmask localMask s
            (s, if booted then .success else result, mask &&& ~~~localMask)
          else (s, result, mask &&& ~~~localMask))
      (s, .fail, mask)
    (s, result)

/-- `HSS_Boot_RestartCore`.  No source is `HSS_HART_ALL`. -/
def hssBootRestartCore (source : Option HartId) (s : State) : Except Halt (State × StatusCode) := do
  assert (s.pBootImage ≠ 0) .bootImageNotNull
  match source with
  | some source => return hssBootRestartCoresUsingBitmask ((1 : BitVec 32) <<< source.num) s
  | none =>
    if hssBootValidateImage s.mem s.pBootImage = false then return (s, .fail)
    else
      let (s, booted) := bootUsingHartBitmask bitmaskAllU54 s
      return (s, if booted then .success else .fail)

/-- The hart that a request to start a remote processor names. -/
def rprocTarget (mem : Mem) (rprocData : Word) : Option U54 :=
  bootMachine.find? fun hart => BitVec.ofNat 32 hart.num = load32 mem rprocData

/-- `HSS_Boot_IPIHandler`.  The machine of a remote processor goes straight to the start of its
harts: its program is in place. -/
def hssBootIpiHandler : IpiHandler State := fun _ source immediateArg extendedBuffer _ s =>
  if cfg.serviceOpensbiRproc && immediateArg = rprocBoot then
    match rprocTarget s.mem extendedBuffer with
    | none => .error .rprocTargetInRange
    | some hart => hssBootRestartCore (some (.u54 hart)) (s.goto hart .opensbiInit)
  else hssBootRestartCore (some source) s

/-- The handlers of the monitor that concern the boot service. -/
def bootRegistry : IpiRegistry cfg State where
  handler
    | .bootRequest => some (hssBootIpiHandler cfg)
    | .ackPending => some (ipiAckIpiHandler cfg)
    | .ackComplete => some (ipiAckIpiHandler cfg)
    | _ => some hssNullIpiHandler
  total msgType := by cases msgType <;> rfl
  ackPending := rfl
  ackComplete := rfl

/-! ### The callbacks of the states -/

/-- `boot_init_handler` -/
def bootInitHandler (s : State) : Except Halt State :=
  if s.triggers .ddrTrained && s.triggers .startupComplete then
    if s.pBootImage ≠ 0 then
      let s := { s with bootFailCr := 0 }
      .ok ((s.setMachine target { s.machine target with startTime := inputs.time }).goto target
        .setupPmp)
    else .ok (s.goto target .error)
  else .ok s

/-- `boot_setup_pmp_onEntry` -/
def bootSetupPmpOnEntry : State → Except Halt State := registerHarts cfg target

/-- `boot_setup_pmp_handler` -/
def bootSetupPmpHandler (s : State) : Except Halt State := do
  if (s.localData target).msgIndex = cfg.maxNumOutstandingCompletes then
    let (s, result) ← hssBootPmpSetupRequest cfg inputs target s
    return if result then s.goto target .setupPmpComplete else s
  else return s.goto target .setupPmpComplete

/-- `boot_setup_pmp_complete_handler` -/
def bootSetupPmpCompleteHandler (s : State) : Except Halt State := do
  if hssTimerIsElapsed inputs.time (s.machine target).startTime (bootSetupPmpCompleteTimeout cfg)
  then
    let s ← freeAll cfg target s
    return s.goto target .error
  else
    let (s, result) ← checkForIpiAcks cfg target s
    return if result then
        s.goto target (if s.hasFlag target bootFlagSkipAutoboot then .complete else .zeroInitChunks)
      else s

/-- `boot_zero_init_chunks_onEntry` -/
def bootZeroInitChunksOnEntry (s : State) : Except Halt State := do
  assert (s.pBootImage ≠ 0) .bootImageNotNull
  return s.setWalk target { (s.localData target).toChunkWalk with
    pZiChunk := s.pBootImage + BootImage.ziChunkTableOffset s.mem s.pBootImage }

/-- `pInstanceData->pZiChunk++` -/
def nextZiChunk (s : State) : State :=
  s.setWalk target { (s.localData target).toChunkWalk with
    pZiChunk := (s.localData target).pZiChunk + sizeOfZiChunkDesc }

/-- `boot_zero_init_chunks_handler` -/
def bootZeroInitChunksHandler (s : State) : Except Halt State := do
  assert (s.pBootImage ≠ 0) .bootImageNotNull
  let pZiChunk := (s.localData target).pZiChunk
  let ziChunk := ziChunkDesc s.mem pZiChunk
  let s := s.access (.readZiChunk target pZiChunk)
  if ziChunk.size ≠ 0 then
    if ziChunk.OwnedBy target then
      if hssDdrIsAddrInDdr cfg ziChunk.execAddr && !s.triggers .ddrTrained then
        return s
      else
        let s ← bootDoZeroInitChunk target pZiChunk s
        return nextZiChunk target s
    else return nextZiChunk target s
  else return s.goto target .downloadChunks

/-- `boot_download_chunks_onEntry` -/
def bootDownloadChunksOnEntry (s : State) : Except Halt State := do
  assert (s.pBootImage ≠ 0) .bootImageNotNull
  if s.numChunks target ≠ 0 then
    return s.setWalk target { (s.localData target).toChunkWalk with
      pChunk := s.pBootImage + BootImage.chunkTableOffset s.mem s.pBootImage +
        sizeOfChunkDesc * s.firstChunk target
      chunkCount := 0
      subChunkOffset := 0 }
  else return s

/-- The first chunk of ancilliary data is remembered. -/
def noteAncilliaryData (chunk : ChunkDesc) (s : State) : State :=
  if chunk.owner &&& bootFlagAncilliaryData ≠ 0 ∧ (s.localData target).ancilliaryData = 0 then
    s.setLocal target { s.localData target with ancilliaryData := chunk.execAddr }
  else s

/-- A slice of a chunk of `size` bytes is done: the next slice, or the next chunk. -/
def nextSlice (size : Word) (s : State) : State :=
  let walk := (s.localData target).toChunkWalk
  let subChunkOffset := walk.subChunkOffset + BitVec.ofNat 64 bootSubChunkSize
  s.setWalk target <|
    if subChunkOffset > size then
      { walk with
        pChunk := walk.pChunk + sizeOfChunkDesc
        chunkCount := walk.chunkCount + 1
        subChunkOffset := 0 }
    else { walk with subChunkOffset }

/-- `pInstanceData->pChunk++`, for a chunk that is left out -/
def skipChunk (s : State) : State :=
  s.setWalk target { (s.localData target).toChunkWalk with
    pChunk := (s.localData target).pChunk + sizeOfChunkDesc }

/-- `boot_download_chunks_handler` -/
def bootDownloadChunksHandler (s : State) : Except Halt State := do
  assert (s.pBootImage ≠ 0) .bootImageNotNull
  if s.numChunks target ≠ 0 then
    let walk := (s.localData target).toChunkWalk
    if walk.chunkCount ≤ s.lastChunk target then
      let chunk := chunkDesc s.mem walk.pChunk
      let s := s.access (.readChunk target walk.pChunk)
      if chunk.size ≠ 0 then
        if chunk.OwnedBy target ∧
            hssPmpCheckWrite (s.pmpEntry target) chunk.execAddr chunk.size then
          let s ← bootDoDownloadChunk target walk.pChunk walk.subChunkOffset bootSubChunkSize s
          -- the entry is read again: the slice may have been copied over it
          let chunk := chunkDesc s.mem walk.pChunk
          return nextSlice target chunk.size (noteAncilliaryData target chunk s)
        else return skipChunk target s
      else return (s.record (.loaded target)).goto target .opensbiInit
    else return (s.record (.loaded target)).goto target .opensbiInit
  else return s.goto target .complete

/-- `boot_download_chunks_onExit` -/
def bootDownloadChunksOnExit : State → Except Halt State := registerHarts cfg target

/-- `boot_opensbi_init_onEntry` -/
def bootOpensbiInitOnEntry (s : State) : Except Halt State := do
  assert (s.pBootImage ≠ 0) .bootImageNotNull
  return if s.entryPoint target ≠ 0 then
      s.setLocal target { s.localData target with iterator := 0 }
    else s

/-- `boot_opensbi_init_handler` -/
def bootOpensbiInitHandler (s : State) : Except Halt State := do
  assert (s.pBootImage ≠ 0) .bootImageNotNull
  if s.primaryBootHart target then
    match bootMachine[(s.localData target).iterator]? with
    | some peer =>
      let s ← runIf (peer ≠ target && s.entryPoint peer = s.entryPoint target)
        (commonBootMessageDelivery cfg inputs target peer) s
      return s.setLocal target
        { s.localData target with iterator := (s.localData target).iterator + 1 }
    | none => return s.goto target .wait
  else return s

/-- `boot_opensbi_init_onExit` -/
def bootOpensbiInitOnExit (s : State) : Except Halt State := do
  assert (s.pBootImage ≠ 0) .bootImageNotNull
  if s.entryPoint target ≠ 0 then commonBootMessageDelivery cfg inputs target target s
  else return s

/-- `boot_wait_handler` -/
def bootWaitHandler (s : State) : Except Halt State := do
  let s := s.setMachine target { s.machine target with startTime := inputs.time }
  if s.entryPoint target = 0 then
    return { s with hartStates := Function.update s.hartStates target .idle }.goto target .complete
  else if hssTimerIsElapsed inputs.laterTime (s.machine target).startTime (bootWaitTimeout cfg) then
    let s ← freeAll cfg target s
    return s.goto target .error
  else
    let (s, result) ← checkForIpiAcks cfg target s
    return if result then
        { s with mssStatus := s.mssStatus &&& 0xFFFF |||
          (1 : BitVec 32) <<< (target.num - 1) &&& 0xFFFF }.goto target .complete
      else s

/-- `boot_error_handler` -/
def bootErrorHandler (s : State) : Except Halt State :=
  .ok ({ s with bootFailCr := 1 }.goto target .complete)

/-- `boot_complete_onEntry` -/
def bootCompleteOnEntry (s : State) : Except Halt State :=
  .ok { s with bootComplete := Function.update s.bootComplete target true }

/-- `boot_complete_handler` -/
def bootCompleteHandler (s : State) : Except Halt State :=
  .ok (if bootMachine.all s.bootComplete then (s.notify .bootComplete).goto target .idle else s)

/-- `boot_idle_handler` -/
def bootIdleHandler (s : State) : Except Halt State := do
  let (s, _) ← ipiConsumeIntent cfg (bootRegistry cfg).handler (inputs.accepts .ackComplete) .e51
    (.u54 target) .bootRequest s
  return s

/-- `boot_state_descs`.  Entry callbacks that do nothing are left out. -/
def bootStateDescs : BootState → StateDesc State
  | .initialization => ⟨none, none, bootInitHandler inputs target⟩
  | .setupPmp => ⟨some (bootSetupPmpOnEntry cfg target), none, bootSetupPmpHandler cfg inputs target⟩
  | .setupPmpComplete => ⟨none, none, bootSetupPmpCompleteHandler cfg inputs target⟩
  | .zeroInitChunks =>
    ⟨some (bootZeroInitChunksOnEntry target), none, bootZeroInitChunksHandler cfg target⟩
  | .downloadChunks => ⟨some (bootDownloadChunksOnEntry target),
      some (bootDownloadChunksOnExit cfg target), bootDownloadChunksHandler target⟩
  | .opensbiInit => ⟨some (bootOpensbiInitOnEntry target),
      some (bootOpensbiInitOnExit cfg inputs target), bootOpensbiInitHandler cfg inputs target⟩
  | .wait => ⟨none, none, bootWaitHandler cfg inputs target⟩
  | .complete => ⟨some (bootCompleteOnEntry target), none, bootCompleteHandler target⟩
  | .idle => ⟨none, none, bootIdleHandler cfg inputs target⟩
  | .error => ⟨none, none, bootErrorHandler target⟩

/-- `boot_service1` to `boot_service4` -/
def bootService : MachineOf BootState State where
  get s := s.machine target
  put s m := s.setMachine target m

/-- `RunStateMachine` of a boot machine. -/
def runBootService (s : State) : Except Halt State :=
  (bootService target).run (bootStateDescs cfg inputs target) inputs.lastEntry s

end Hss
