import Hss.Boot.Image
import Hss.Ipi.Bus
import Hss.StateMachine

/-! The state of the boot service: one machine for each application hart, what the machines read and
write, and a record of what they did. -/

namespace Hss

/-- `enum BootStatesEnum` -/
inductive BootState
  | initialization | setupPmp | setupPmpComplete | zeroInitChunks | downloadChunks | opensbiInit
  | wait | complete | idle | error
  deriving DecidableEq, Repr

/-- Where a boot machine keeps the index of a message. -/
inductive MsgCell
  | msgIndex
  | msgIndexAux (peer : U54)
  deriving DecidableEq, Repr

instance : Fintype MsgCell :=
  .ofList (.msgIndex :: bootMachine.map .msgIndexAux) fun cell => by
    cases cell with
    | msgIndex => exact List.mem_cons_self ..
    | msgIndexAux peer =>
      exact List.mem_cons_of_mem _ (List.mem_map.mpr ⟨peer, mem_bootMachine peer, rfl⟩)

/-- The part of the data of a boot machine that its walks of the tables use. -/
structure ChunkWalk where
  pChunk : Word
  pZiChunk : Word
  chunkCount : Word
  subChunkOffset : Word
  deriving DecidableEq, Repr

/-- `struct HSS_Boot_LocalData`, less its performance counter and its count of zero-init chunks.  Its
`target` is the hart of the machine. -/
structure LocalData extends ChunkWalk where
  msgIndex : ℕ
  hartMask : BitVec 32
  iterator : ℕ
  ancilliaryData : Word
  msgIndexAux : U54 → ℕ

def LocalData.index (l : LocalData) : MsgCell → ℕ
  | .msgIndex => l.msgIndex
  | .msgIndexAux peer => l.msgIndexAux peer

def LocalData.setIndex (l : LocalData) (cell : MsgCell) (index : ℕ) : LocalData :=
  match cell with
  | .msgIndex => { l with msgIndex := index }
  | .msgIndexAux peer => { l with msgIndexAux := Function.update l.msgIndexAux peer index }

theorem LocalData.index_setIndex (l : LocalData) (cell : MsgCell) (index : ℕ) :
    (l.setIndex cell index).index = Function.update l.index cell index := by
  funext other
  cases cell with
  | msgIndex => cases other <;> rfl
  | msgIndexAux peer =>
    cases other with
    | msgIndex => rfl
    | msgIndexAux peer' =>
      by_cases h : peer' = peer
      · rw [h, Function.update_self]
        exact Function.update_self ..
      · rw [Function.update_of_ne (fun same => h (MsgCell.msgIndexAux.inj same))]
        exact Function.update_of_ne h ..

@[simp] theorem LocalData.setIndex_toChunkWalk (l : LocalData) (cell : MsgCell) (index : ℕ) :
    (l.setIndex cell index).toChunkWalk = l.toChunkWalk := by cases cell <;> rfl

@[simp] theorem LocalData.setIndex_iterator (l : LocalData) (cell : MsgCell) (index : ℕ) :
    (l.setIndex cell index).iterator = l.iterator := by cases cell <;> rfl

/-- `enum HSS_Event`, less the events that the modelled code neither raises nor reads. -/
inductive HssEvent
  | ddrTrained | startupComplete | postBoot | bootComplete
  deriving DecidableEq, Repr

/-- `enum HSSU54State` -/
inductive U54State
  | idle | booting | sbiHartInit | sbiWaitForColdboot | running | trap | fatal
  deriving DecidableEq, Repr

/-- An entry of `hart_ledger`. -/
structure LedgerEntry where
  name : List (BitVec 8)
  nextAddr : Word
  nextArg1 : Word
  hartMask : BitVec 32
  nextMode : BitVec 32
  ownerHartid : ℕ
  bootPending : Bool
  resetType : BitVec 32
  resetReason : BitVec 32
  allowColdReboot : Bool
  allowWarmReboot : Bool

/-- What a boot machine reads of the tables and of the chunks, and what it writes. -/
inductive Access
  | readZiChunk (hart : U54) (p : Word)
  | readChunk (hart : U54) (p : Word)
  /-- The zero-init chunk is set to zero. -/
  | zeroInit (hart : U54) (ziChunk : ZiChunkDesc)
  /-- `len` bytes of the chunk are copied from `offset` on, from the image at `image`. -/
  | download (hart : U54) (image : Word) (chunk : ChunkDesc) (offset : Word) (len : ℕ)
  deriving DecidableEq, Repr

/-- What the boot machines did. -/
inductive BootRecord
  /-- The machine of `sender`, in `state`, delivered a start message to `target`. -/
  | started (sender target : U54) (state : BootState) (ok : Bool)
  /-- The machine of `hart` was put back to its first state. -/
  | restarted (hart : U54)
  /-- The machine of `hart` finished its walk of the chunk table. -/
  | loaded (hart : U54)
  /-- The machine of `hart` registered its harts. -/
  | registered (hart : U54)
  deriving DecidableEq, Repr

/-- The state that the boot service works on.  `mem` is the memory of the images and of their
payloads: the monitor's own data are in a memory of its own.  No code reads `accesses` and `history`,
which have the newest entry first. -/
structure State where
  mem : Mem
  pBootImage : Word
  pmpEntry : U54 → ℕ → PmpEntry
  ipiData : IpiData
  machine : U54 → StateMachine BootState
  localData : U54 → LocalData
  bootComplete : U54 → Bool
  triggers : HssEvent → Bool
  hartLedger : U54 → LedgerEntry
  hartIndex2id : U54 → ℤ
  bootFailCr : BitVec 32
  mssStatus : BitVec 32
  hartStates : U54 → U54State
  accesses : List Access
  history : List BootRecord

instance : HasIpi State where
  ipi s := s.ipiData
  setIpi s d := { s with ipiData := d }
  ipi_setIpi _ _ := rfl
  setIpi_ipi _ := rfl
  setIpi_setIpi _ _ _ := rfl

namespace State

variable (s : State) (i j : U54)

def setMachine (m : StateMachine BootState) : State :=
  { s with machine := Function.update s.machine i m }

/-- `pMyMachine->state = state` -/
def goto (state : BootState) : State := s.setMachine i { s.machine i with state }

def setLocal (l : LocalData) : State := { s with localData := Function.update s.localData i l }

def setIndex (cell : MsgCell) (index : ℕ) : State :=
  s.setLocal i ((s.localData i).setIndex cell index)

/-- The index that machine `i` has in `cell`. -/
def index (cell : MsgCell) : ℕ := (s.localData i).index cell

def setWalk (walk : ChunkWalk) : State :=
  s.setLocal i { s.localData i with toChunkWalk := walk }

def access (access : Access) : State := { s with accesses := access :: s.accesses }

def record (event : BootRecord) : State := { s with history := event :: s.history }

/-- `HSS_Trigger_Notify` -/
def notify (event : HssEvent) : State :=
  { s with triggers := Function.update s.triggers event true }

/-! The fields of the header of the boot image, as the service reads them. -/

def entryPoint : Word := BootImage.entryPoint s.mem s.pBootImage i
def numChunks : Word := BootImage.numChunks s.mem s.pBootImage i
def firstChunk : Word := BootImage.firstChunk s.mem s.pBootImage i
def lastChunk : Word := BootImage.lastChunk s.mem s.pBootImage i

/-- A flag of hart `i` is set. -/
def hasFlag (flag : BitVec 8) : Bool := BootImage.flags s.mem s.pBootImage i &&& flag ≠ 0

/-- The hart has chunks of its own and an entry point. -/
def primaryBootHart : Bool := s.numChunks i ≠ 0 && s.entryPoint i ≠ 0

section
variable (m : StateMachine BootState) (state : BootState) (l : LocalData) (cell : MsgCell)
  (index : ℕ) (walk : ChunkWalk) (a : Access) (event : BootRecord) (trigger : HssEvent)
  (d : IpiData)

@[simp] theorem ipi_eq : ipi s = s.ipiData := rfl

@[simp] theorem setIpi_ipiData : (setIpi s d).ipiData = d := rfl
@[simp] theorem setIpi_machine : (setIpi s d).machine = s.machine := rfl
@[simp] theorem setIpi_localData : (setIpi s d).localData = s.localData := rfl
@[simp] theorem setIpi_history : (setIpi s d).history = s.history := rfl

@[simp] theorem setMachine_ipiData : (s.setMachine i m).ipiData = s.ipiData := rfl
@[simp] theorem setMachine_machine :
    (s.setMachine i m).machine = Function.update s.machine i m := rfl
@[simp] theorem setMachine_localData : (s.setMachine i m).localData = s.localData := rfl
@[simp] theorem setMachine_history : (s.setMachine i m).history = s.history := rfl

@[simp] theorem goto_ipiData : (s.goto i state).ipiData = s.ipiData := rfl
@[simp] theorem goto_machine : (s.goto i state).machine =
    Function.update s.machine i { s.machine i with state } := rfl
@[simp] theorem goto_localData : (s.goto i state).localData = s.localData := rfl
@[simp] theorem goto_history : (s.goto i state).history = s.history := rfl

@[simp] theorem setLocal_ipiData : (s.setLocal i l).ipiData = s.ipiData := rfl
@[simp] theorem setLocal_machine : (s.setLocal i l).machine = s.machine := rfl
@[simp] theorem setLocal_localData :
    (s.setLocal i l).localData = Function.update s.localData i l := rfl
@[simp] theorem setLocal_history : (s.setLocal i l).history = s.history := rfl

theorem index_setIndex : (s.setIndex i cell index).index j =
    if j = i then Function.update (s.index i) cell index else s.index j := by
  unfold State.index setIndex
  by_cases h : j = i
  · rw [h, setLocal_localData, Function.update_self, LocalData.index_setIndex, if_pos rfl]
  · rw [setLocal_localData, Function.update_of_ne h, if_neg h]

theorem index_setLocal (same : l.index = (s.localData i).index) :
    (s.setLocal i l).index = s.index := by
  funext j
  unfold State.index
  by_cases h : j = i
  · rw [h, setLocal_localData, Function.update_self, same]
  · rw [setLocal_localData, Function.update_of_ne h]

@[simp] theorem index_setWalk : (s.setWalk i walk).index = s.index :=
  index_setLocal s i _ (by funext cell; cases cell <;> rfl)

@[simp] theorem index_setIpi : (setIpi s d).index = s.index := rfl
@[simp] theorem index_setMachine : (s.setMachine i m).index = s.index := rfl
@[simp] theorem index_goto : (s.goto i state).index = s.index := rfl
@[simp] theorem index_record : (s.record event).index = s.index := rfl
@[simp] theorem index_access : (s.access a).index = s.index := rfl
@[simp] theorem index_notify : (s.notify trigger).index = s.index := rfl

@[simp] theorem setIndex_ipiData : (s.setIndex i cell index).ipiData = s.ipiData := rfl
@[simp] theorem setIndex_machine : (s.setIndex i cell index).machine = s.machine := rfl
@[simp] theorem setIndex_history : (s.setIndex i cell index).history = s.history := rfl

@[simp] theorem record_ipiData : (s.record event).ipiData = s.ipiData := rfl
@[simp] theorem record_machine : (s.record event).machine = s.machine := rfl
@[simp] theorem record_localData : (s.record event).localData = s.localData := rfl
@[simp] theorem record_history : (s.record event).history = event :: s.history := rfl

@[simp] theorem access_mem : (s.access a).mem = s.mem := rfl
@[simp] theorem access_pBootImage : (s.access a).pBootImage = s.pBootImage := rfl
@[simp] theorem access_pmpEntry : (s.access a).pmpEntry = s.pmpEntry := rfl
@[simp] theorem access_ipiData : (s.access a).ipiData = s.ipiData := rfl
@[simp] theorem access_machine : (s.access a).machine = s.machine := rfl
@[simp] theorem access_localData : (s.access a).localData = s.localData := rfl
@[simp] theorem access_history : (s.access a).history = s.history := rfl

@[simp] theorem notify_ipiData : (s.notify trigger).ipiData = s.ipiData := rfl
@[simp] theorem notify_machine : (s.notify trigger).machine = s.machine := rfl
@[simp] theorem notify_localData : (s.notify trigger).localData = s.localData := rfl
@[simp] theorem notify_history : (s.notify trigger).history = s.history := rfl

end

end State

end Hss
