import Hss.Lib.Outcome
import Mathlib.Data.BitVec
import Mathlib.Data.Fintype.OfMap

/-! The harts of the platform, the build options that the model reads, and the assertions at which a
hart stops. -/

namespace Hss

export Outcome (bind_eq_ok ok_bind error_bind)

/-- A machine word: an address, a size, or a time in ticks. -/
abbrev Word := BitVec 64

abbrev Bytes := List (BitVec 8)

/-- The application harts. -/
inductive U54
  | u54_1 | u54_2 | u54_3 | u54_4
  deriving DecidableEq, Repr

/-- The harts: the monitor hart and the application harts. -/
inductive HartId
  | e51
  | u54 (hart : U54)
  deriving DecidableEq, Repr

def U54.num : U54 → ℕ
  | .u54_1 => 1
  | .u54_2 => 2
  | .u54_3 => 3
  | .u54_4 => 4

def HartId.num : HartId → ℕ
  | .e51 => 0
  | .u54 hart => hart.num

/-- The harts in the order of their numbers, and the harts of the boot machines in the order of
their table. -/
def harts : List HartId := [.e51, .u54 .u54_1, .u54 .u54_2, .u54 .u54_3, .u54 .u54_4]

def bootMachine : List U54 := [.u54_1, .u54_2, .u54_3, .u54_4]

theorem harts_eq : harts = .e51 :: bootMachine.map .u54 := rfl

theorem U54.num_pos (hart : U54) : 0 < hart.num := by cases hart <;> decide

theorem U54.num_le (hart : U54) : hart.num ≤ 4 := by cases hart <;> decide

theorem HartId.num_le (hart : HartId) : hart.num ≤ 4 := by
  cases hart with
  | e51 => exact Nat.zero_le 4
  | u54 hart => exact hart.num_le

theorem U54.num_injective {h h' : U54} (same : h.num = h'.num) : h = h' := by
  cases h <;> cases h' <;> first | rfl | cases same

theorem HartId.num_injective {h h' : HartId} (same : h.num = h'.num) : h = h' := by
  cases h with
  | e51 =>
    cases h' with
    | e51 => rfl
    | u54 hart => exact absurd same.symm (Nat.ne_of_gt hart.num_pos)
  | u54 hart =>
    cases h' with
    | e51 => exact absurd same (Nat.ne_of_gt hart.num_pos)
    | u54 hart' => rw [U54.num_injective same]

theorem mem_harts (hart : HartId) : hart ∈ harts := by
  cases hart with
  | e51 => decide
  | u54 hart => cases hart <;> decide

theorem mem_bootMachine (hart : U54) : hart ∈ bootMachine := by cases hart <;> decide

instance : Fintype HartId := .ofList harts mem_harts

instance : Fintype U54 := .ofList bootMachine mem_bootMachine

/-- The build options that the modelled code reads. -/
structure Config where
  /-- `CONFIG_IPI_MAX_NUM_QUEUE_MESSAGES` -/
  maxNumQueueMessages : ℕ
  maxNumQueueMessages_pos : 0 < maxNumQueueMessages
  /-- `CONFIG_HSS_USE_IHC`: messages go over the inter-hart communication block, not the CLINT. -/
  hssUseIhc : Bool
  /-- `CONFIG_SERVICE_OPENSBI_RPROC` -/
  serviceOpensbiRproc : Bool
  /-- `CONFIG_PROVIDE_DTB`: the address of the device tree that is linked in. -/
  provideDtb : Option Word
  /-- `ONE_SEC`, in ticks -/
  oneSec : Word
  /-- The start and size of the cached DDR and of the high cached DDR, from the linker script. -/
  ddr : Word × Word
  ddrHi : Word × Word

/-- `IPI_MAX_NUM_OUTSTANDING_COMPLETES`: the size of the completion table, and as an index the mark
of no message. -/
def Config.maxNumOutstandingCompletes (cfg : Config) : ℕ := cfg.maxNumQueueMessages * 4

/-- The options of the Icicle Kit board.  The address of the linked device tree is the linker's
choice. -/
def Config.icicleKitEs : Config where
  maxNumQueueMessages := 4
  maxNumQueueMessages_pos := by decide
  hssUseIhc := false
  serviceOpensbiRproc := true
  provideDtb := some 0x0A012000
  oneSec := 1000000
  ddr := (0x80000000, 0x20000000)
  ddrHi := (0x1000000000, 0x4C000000)

/-- The assertions of the modelled code, at which a hart spins for ever, and the uses of an index that the
code does not check. -/
inductive Halt
  | bootImageNotNull
  | chunkNotNull
  | chunkNotEmpty
  | copyDisjoint
  | completionAllocated
  | messageIndexInRange
  | freedMessageUsed
  | bootHartRegistered
  | rprocTargetInRange
  | blockDescNotNull
  | chunkInBlock
  | sgdmaBufferNotNull
  | sgdmaIsIdle
  | qspiRangeInDie
  | flashPageBoundary
  | flashUnprotected
  | codeSigningFailed
  | lineBufferBound
  deriving DecidableEq, Repr

/-- `assert` -/
def assert (condition : Prop) [Decidable condition] (reason : Halt) : Except Halt Unit :=
  if condition then .ok () else .error reason

theorem assert_eq_ok {condition : Prop} [Decidable condition] {reason : Halt} {u : Unit} :
    assert condition reason = .ok u ↔ condition := by
  unfold assert
  split <;> simp [*]

end Hss
