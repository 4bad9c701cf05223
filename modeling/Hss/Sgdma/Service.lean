import Hss.Boot.Service

/-! The scatter-gather DMA service: its state machine, which copies the blocks of a descriptor list
in pieces, and the handler of the message that requests a transfer. -/

namespace Hss

/-- `enum SgdmaStatesEnum` -/
inductive SgdmaState
  | initialization | idle | transferring
  deriving DecidableEq, Repr

/-- `struct HSS_SGDMA_BlockDesc` -/
structure SgdmaBlockDesc where
  srcPhysAddr : Word
  destPhysAddr : Word
  size : Word
  ext : Bool
  deriving DecidableEq, Repr

/-- The descriptor at `p`. -/
def sgdmaBlockDesc (mem : Mem) (p : Word) : SgdmaBlockDesc :=
  ⟨load64 mem p, load64 mem (p + 8), load64 mem (p + 16), (load32 mem (p + 24)).getLsbD 31⟩

/-- `sizeof(struct HSS_SGDMA_BlockDesc)` -/
def sizeOfSgdmaBlockDesc : ℕ := 32

/-- What the service works on.  `mem` is the memory of the lists and of the blocks. -/
structure Sgdma where
  mem : Mem
  pmpEntry : HartId → ℕ → PmpEntry
  ipiData : IpiData
  sgdmaService : StateMachine SgdmaState
  pBlockDesc : Word
  activeHart : HartId
  /-- The hart whose turn it is in the idle state. -/
  i : HartId
  remainingInCurrentBlock : Word

instance : HasIpi Sgdma where
  ipi s := s.ipiData
  setIpi s d := { s with ipiData := d }
  ipi_setIpi _ _ := rfl
  setIpi_ipi _ := rfl
  setIpi_setIpi _ _ _ := rfl

def Sgdma.setMachine (s : Sgdma) (machine : StateMachine SgdmaState) : Sgdma :=
  { s with sgdmaService := machine }

/-- `pMyMachine->state = state` -/
def Sgdma.goto (s : Sgdma) (state : SgdmaState) : Sgdma :=
  s.setMachine { s.sgdmaService with state }

/-- `MAX_SGDMA_SIZE_PER_LOOP_ITER` -/
def maxSgdmaSizePerLoopIter : Word := 4096

/-- `(i + 1u) % HSS_HART_NUM_PEERS` -/
def HartId.next : HartId → HartId
  | .e51 => .u54 .u54_1
  | .u54 .u54_1 => .u54 .u54_2
  | .u54 .u54_2 => .u54 .u54_3
  | .u54 .u54_3 => .u54 .u54_4
  | .u54 .u54_4 => .e51

/-- `HSS_SGDMA_IPIHandler` -/
def hssSgdmaIpiHandler : IpiHandler Sgdma := fun _ source _ extendedBuffer _ s => do
  assert (extendedBuffer ≠ 0) .sgdmaBufferNotNull
  assert (s.sgdmaService.state = .idle) .sgdmaIsIdle
  return ({ s with pBlockDesc := extendedBuffer, activeHart := source }.goto .transferring, .success)

/-- The handlers of the monitor that concern the service. -/
def sgdmaRegistry (cfg : Config) : IpiRegistry cfg Sgdma where
  handler
    | .scattergatherDma => some hssSgdmaIpiHandler
    | .ackPending => some (ipiAckIpiHandler cfg)
    | .ackComplete => some (ipiAckIpiHandler cfg)
    | _ => some hssNullIpiHandler
  total msgType := by cases msgType <;> rfl
  ackPending := rfl
  ackComplete := rfl

/-- `sgdma_init_handler` -/
def sgdmaInitHandler (s : Sgdma) : Except Halt Sgdma := .ok (s.goto .idle)

/-- `sgdma_idle_handler`: the number of the hart is taken as that of a queue. -/
def sgdmaIdleHandler (cfg : Config) (accepts : Bool) (s : Sgdma) : Except Halt Sgdma := do
  let source := s.i
  let s ←
    if (s.ipiData.queues source.num).count ≠ 0 then do
      let (s, _) ← ipiConsumeIntent cfg (sgdmaRegistry cfg).handler accepts .e51 source
        .scattergatherDma s
      pure s
    else pure s
  return { s with i := source.next }

/-- The part of the current block that is copied next. -/
def Sgdma.chunkSize (s : Sgdma) (size : Word) : Word :=
  let chunkSize := if s.remainingInCurrentBlock = 0 then size else s.remainingInCurrentBlock
  if maxSgdmaSizePerLoopIter < chunkSize then maxSgdmaSizePerLoopIter else chunkSize

/-- `sgdma_transferring_handler`, in a build with the boot service: without it nothing is copied. -/
def sgdmaTransferringHandler (s : Sgdma) : Except Halt Sgdma := do
  assert (s.pBlockDesc ≠ 0) .blockDescNotNull
  let desc := sgdmaBlockDesc s.mem s.pBlockDesc
  if desc.ext then
    let remaining := if s.remainingInCurrentBlock = 0 then desc.size else s.remainingInCurrentBlock
    let chunkSize := s.chunkSize desc.size
    let mem ←
      if hssPmpCheckWrite (s.pmpEntry s.activeHart) desc.destPhysAddr chunkSize &&
          hssPmpCheckRead (s.pmpEntry s.activeHart) desc.srcPhysAddr chunkSize then
        memcpyViaPdma desc.destPhysAddr desc.srcPhysAddr chunkSize.toNat s.mem
      else pure s.mem
    assert (chunkSize ≤ remaining) .chunkInBlock
    return { s with
      mem := mem
      remainingInCurrentBlock := remaining - chunkSize
      pBlockDesc := if remaining - chunkSize = 0 then
        s.pBlockDesc + BitVec.ofNat 64 sizeOfSgdmaBlockDesc else s.pBlockDesc }
  else return { s with pBlockDesc := 0, activeHart := .e51 }.goto .idle

/-- `sgdma_state_descs` -/
def sgdmaStateDescs (cfg : Config) (accepts : Bool) : SgdmaState → StateDesc Sgdma
  | .initialization => ⟨none, none, sgdmaInitHandler⟩
  | .idle => ⟨none, none, sgdmaIdleHandler cfg accepts⟩
  | .transferring => ⟨none, none, sgdmaTransferringHandler⟩

/-- `sgdma_service` -/
def sgdmaService : MachineOf SgdmaState Sgdma := ⟨Sgdma.sgdmaService, Sgdma.setMachine⟩

/-- A run of the machine, at a time and with the transport's answer to the acknowledgement. -/
def runSgdmaService (cfg : Config) (s : Sgdma) (inputs : Word × Bool) : Except Halt Sgdma :=
  sgdmaService.run (sgdmaStateDescs cfg inputs.2) inputs.1 s

/-- The service after power-on. -/
def Sgdma.powerOn (mem : Mem) (pmpEntry : HartId → ℕ → PmpEntry) : Sgdma where
  mem := mem
  pmpEntry := pmpEntry
  ipiData := ipiQueuesInit
  sgdmaService := ⟨.initialization, none, 0, 0⟩
  pBlockDesc := 0
  activeHart := .e51
  i := .u54 .u54_1
  remainingInCurrentBlock := 0

/-! ### What a run of the machine does -/

/-- The engine calls the handler of the state: the rest of its work is its own record. -/
theorem runSgdmaService_eq (cfg : Config) (s : Sgdma) (inputs : Word × Bool) :
    ∃ machine : StateMachine SgdmaState, machine.state = s.sgdmaService.state ∧
      runSgdmaService cfg s inputs =
        ((sgdmaStateDescs cfg inputs.2 s.sgdmaService.state).handler (s.setMachine machine)).map
          fun t => t.setMachine
            { t.sgdmaService with executionCount := t.sgdmaService.executionCount + 1 } := by
  have callbacks : ∀ state, (sgdmaStateDescs cfg inputs.2 state).onEntry = none ∧
      (sgdmaStateDescs cfg inputs.2 state).onExit = none := fun state => by
    cases state <;> exact ⟨rfl, rfl⟩
  have finish : ∀ x : Except Halt Sgdma,
      (do let t ← x; pure (sgdmaService.put t
        { sgdmaService.get t with executionCount := (sgdmaService.get t).executionCount + 1 })) =
      x.map fun t => t.setMachine
        { t.sgdmaService with executionCount := t.sgdmaService.executionCount + 1 } := by
    intro x
    cases x <;> rfl
  have start : ∃ machine : StateMachine SgdmaState, machine.state = s.sgdmaService.state ∧
      sgdmaService.start inputs.1 s = s.setMachine machine := by
    rw [MachineOf.start]
    split
    · exact ⟨{ s.sgdmaService with startTime := inputs.1 }, rfl, rfl⟩
    · exact ⟨s.sgdmaService, rfl, rfl⟩
  obtain ⟨machine, same, started⟩ := start
  rw [runSgdmaService, MachineOf.run, started]
  dsimp only
  by_cases stays : (sgdmaService.get s).prevState = some (sgdmaService.get s).state
  · rw [if_pos stays]
    exact ⟨machine, same, finish _⟩
  · rw [if_neg stays]
    refine ⟨{ machine with executionCount := 0, prevState := some machine.state }, same, ?_⟩
    have changed : sgdmaService.changeState (sgdmaStateDescs cfg inputs.2)
        (sgdmaService.get s).prevState (sgdmaService.get s).state (s.setMachine machine) =
        .ok (s.setMachine { machine with executionCount := 0, prevState := some machine.state }) := by
      rw [MachineOf.changeState_eq_ok]
      refine ⟨s.setMachine machine, s.setMachine machine, ?_, ?_, rfl⟩
      · cases (sgdmaService.get s).prevState with
        | none => rfl
        | some prev => rw [Option.elim, (callbacks prev).2, runCallback_none]
      · rw [(callbacks _).1, runCallback_none]
    rw [changed]
    exact finish _

end Hss
