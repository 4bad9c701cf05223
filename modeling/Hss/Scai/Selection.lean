import Hss.Types
import Mathlib.Data.Fin.Basic
import Mathlib.Logic.Function.Basic

/-! The selection of one of the flash chips behind the FPGA: the active driver, its channel and its
type, over any calls. -/

namespace Hss

/-- `scai_flash_type_t` -/
inductive ScaiFlashType
  | micronMt29f
  | winbondW25n01Fpga
  | micronMt25q
  | winbondW25n01Direct
  | micronMt29fChip (chip : Fin 8)
  deriving DecidableEq, Repr

/-- The drivers of `scai_fpga.c`, each a table of functions. -/
inductive ScaiFlashDriver
  | winbondW25n01Fpga
  | w25n01Direct
  | micronMt29f
  deriving DecidableEq, Repr

/-- `scai_flash_status_t` -/
inductive ScaiFlashStatus
  | success
  | error
  deriving DecidableEq, Repr

namespace ScaiFlashType

/-- The type of a number, which is none from `SCAI_MEM_TYPES_QUANTITY` on. -/
def ofNat? : ℕ → Option ScaiFlashType
  | 0 => some .micronMt29f
  | 1 => some .winbondW25n01Fpga
  | 2 => some .micronMt25q
  | 3 => some .winbondW25n01Direct
  | n + 4 => if less : n < 8 then some (.micronMt29fChip ⟨n, less⟩) else none

/-- The driver for a type: there is none for the MT25Q. -/
def driver? : ScaiFlashType → Option ScaiFlashDriver
  | .micronMt29f => some .micronMt29f
  | .winbondW25n01Fpga => some .winbondW25n01Fpga
  | .micronMt25q => none
  | .winbondW25n01Direct => some .w25n01Direct
  | .micronMt29fChip _ => some .micronMt29f

end ScaiFlashType

def w25n01FpgaBaseAddr : Word := 0x40000300
def w25n01DirectBaseAddr : Word := 0

def mt29fBaseAddrs (chip : Fin 8) : Word :=
  if chip.val < 4 then 0x40000400 + BitVec.ofNat 64 (0x10 * chip.val)
  else 0x40000500 + BitVec.ofNat 64 (0x10 * (chip.val - 4))

/-- The base address of the chip of a type. -/
def ScaiFlashType.baseAddr : ScaiFlashType → Word
  | .micronMt29f => mt29fBaseAddrs 0
  | .winbondW25n01Fpga => w25n01FpgaBaseAddr
  | .micronMt25q => 0
  | .winbondW25n01Direct => w25n01DirectBaseAddr
  | .micronMt29fChip chip => mt29fBaseAddrs chip

/-- `scai_fpga_channel_t`, as far as a selection is concerned. -/
structure ScaiChannelRecord where
  baseAddr : Word
  isInitialized : Bool
  format : ℕ

/-- A run of the `init` of a driver, with its channel and the base address that the channel had. -/
structure DriverInit where
  driver : ScaiFlashDriver
  channel : Option (ScaiFlashType × Word)

/-- The state of the module and, the newest first, the runs of the `init` of a driver.  The active
channel is given by its index.  Neither pointer is ever null. -/
structure FlashSelection where
  channels : ScaiFlashType → ScaiChannelRecord
  activeChannel : ScaiFlashType
  activeDriver : ScaiFlashDriver
  activeFlashType : ScaiFlashType
  isMt29fEnabled : Bool
  inits : List DriverInit

namespace FlashSelection

/-- The state before any call. -/
def start : FlashSelection where
  channels := fun _ => ⟨0, false, 0⟩
  activeChannel := .winbondW25n01Direct
  activeDriver := .w25n01Direct
  activeFlashType := .winbondW25n01Direct
  isMt29fEnabled := false
  inits := []

variable (s : FlashSelection)

def setChannel (flashType : ScaiFlashType) (channel : ScaiChannelRecord) : FlashSelection :=
  { s with channels := Function.update s.channels flashType channel }

def setBaseAddr (flashType : ScaiFlashType) (baseAddr : Word) : FlashSelection :=
  s.setChannel flashType { s.channels flashType with baseAddr := baseAddr }

def setInitialized (flashType : ScaiFlashType) : FlashSelection :=
  s.setChannel flashType { s.channels flashType with isInitialized := true }

/-- The `init` of the active driver, on a channel or on none.  That of the MT29F stores the format in
the channel and sets its flag; those of the W25N01 leave the channel as it is. -/
def driverInit (channel : Option ScaiFlashType) (ioFormat : ℕ) : FlashSelection :=
  let s := { s with inits :=
    ⟨s.activeDriver, channel.map fun flashType => (flashType, (s.channels flashType).baseAddr)⟩ ::
      s.inits }
  match s.activeDriver, channel with
  | .micronMt29f, some flashType =>
      s.setChannel flashType
        { s.channels flashType with format := ioFormat, isInitialized := true }
  | _, _ => s

/-- The switch of `scai_set_flash_chip`: the driver and the base address.  For the MT25Q there is only
a message. -/
def selectDriver : ScaiFlashType → FlashSelection
  | .winbondW25n01Fpga =>
      { s with activeDriver := .winbondW25n01Fpga }.setBaseAddr .winbondW25n01Fpga w25n01FpgaBaseAddr
  | .winbondW25n01Direct =>
      { s with activeDriver := .w25n01Direct }.setBaseAddr .winbondW25n01Direct w25n01DirectBaseAddr
  | .micronMt29f =>
      { s with isMt29fEnabled := true, activeDriver := .micronMt29f }.setBaseAddr .micronMt29f
        (mt29fBaseAddrs 0)
  | .micronMt29fChip chip =>
      { s with isMt29fEnabled := true, activeDriver := .micronMt29f }.setBaseAddr
        (.micronMt29fChip chip) (mt29fBaseAddrs chip)
  | .micronMt25q => s

/-- `scai_set_flash_chip` -/
def scaiSetFlashChip (flashType ioFormat : ℕ) : FlashSelection × ScaiFlashStatus :=
  match ScaiFlashType.ofNat? flashType with
  | none => (s, .error)
  | some flashType =>
      if s.activeFlashType ≠ flashType then
        let s := s.selectDriver flashType
        let s := { s with activeFlashType := flashType, activeChannel := flashType }
        let s :=
          if (s.channels flashType).isInitialized then s
          else (s.driverInit (some flashType) ioFormat).setInitialized flashType
        (s, .success)
      else (s, .success)

/-- `MSS_QSPI_QUAD_FULL`, the last of the formats -/
def mssQspiQuadFull : ℕ := 7

/-- The chips of the MT29F are enabled, if one of them is active. -/
def enableActiveMt29f : FlashSelection :=
  match s.activeFlashType with
  | .micronMt29f | .micronMt29fChip _ => { s with isMt29fEnabled := true }
  | _ => s

/-- `Flash_init` -/
def flashInit (ioFormat : ℕ) : FlashSelection :=
  if ioFormat > mssQspiQuadFull then s
  else if s.activeFlashType = .winbondW25n01Direct then s.driverInit none ioFormat
  else
    let s := s.enableActiveMt29f
    if (s.channels s.activeChannel).isInitialized then s
    else s.driverInit (some s.activeChannel) ioFormat

end FlashSelection

/-- A call, with a number for a type and one for a format. -/
inductive SelectionCall
  | scaiSetFlashChip (flashType ioFormat : ℕ)
  | flashInit (ioFormat : ℕ)

namespace SelectionCall

/-- What a call does, and its status. -/
def step (s : FlashSelection) : SelectionCall → FlashSelection × ScaiFlashStatus
  | .scaiSetFlashChip flashType ioFormat => s.scaiSetFlashChip flashType ioFormat
  | .flashInit ioFormat => (s.flashInit ioFormat, .success)

/-- The call selects a type that has no driver. -/
def SelectsUndriven : SelectionCall → Prop
  | .scaiSetFlashChip flashType _ =>
      ∃ type, ScaiFlashType.ofNat? flashType = some type ∧ type.driver? = none
  | .flashInit _ => False

end SelectionCall

namespace FlashSelection

/-- The state after some calls. -/
def after (s : FlashSelection) (calls : List SelectionCall) : FlashSelection :=
  calls.foldl (fun s call => (call.step s).1) s

/-- Driver, channel, base address and flag belong to the type that is reported. -/
structure Consistent (s : FlashSelection) : Prop where
  driver : s.activeFlashType.driver? = some s.activeDriver
  channel : s.activeChannel = s.activeFlashType
  baseAddr : (s.channels s.activeChannel).baseAddr = s.activeFlashType.baseAddr
  initialized : (s.channels s.activeChannel).isInitialized = true →
    ⟨s.activeDriver, some (s.activeChannel, s.activeFlashType.baseAddr)⟩ ∈ s.inits

/-- A selection is fully in force still. -/
structure SameSelection (s t : FlashSelection) : Prop where
  driver : t.activeDriver = s.activeDriver
  channel : t.activeChannel = s.activeChannel
  flashType : t.activeFlashType = s.activeFlashType
  channels : t.channels = s.channels

/-- What a call in the state `s` is to do. -/
structure SelectsSoundly (s : FlashSelection) (call : SelectionCall) : Prop where
  consistent : (call.step s).1.Consistent
  kept : (call.step s).2 = .error ∨ call.SelectsUndriven → SameSelection s (call.step s).1

/-- What holds after any calls that select a type with a driver: each flag is set by the driver of its
type, on its channel and at its base address. -/
structure Sound (s : FlashSelection) : Prop where
  driver : s.activeFlashType.driver? = some s.activeDriver
  channel : s.activeChannel = s.activeFlashType
  baseAddr : (s.channels s.activeFlashType).baseAddr = s.activeFlashType.baseAddr
  initialized : ∀ t, (s.channels t).isInitialized = true →
    ∃ driver, t.driver? = some driver ∧ ⟨driver, some (t, t.baseAddr)⟩ ∈ s.inits

variable {s : FlashSelection} {flashType : ScaiFlashType} {channel : ScaiChannelRecord} {ioFormat : ℕ}

@[simp] theorem setChannel_self : (s.setChannel flashType channel).channels flashType = channel :=
  Function.update_self ..

@[simp] theorem setChannel_activeDriver :
    (s.setChannel flashType channel).activeDriver = s.activeDriver := rfl

@[simp] theorem setChannel_activeChannel :
    (s.setChannel flashType channel).activeChannel = s.activeChannel := rfl

@[simp] theorem setChannel_activeFlashType :
    (s.setChannel flashType channel).activeFlashType = s.activeFlashType := rfl

@[simp] theorem setChannel_inits : (s.setChannel flashType channel).inits = s.inits := rfl

theorem driverInit_activeFlashType {channel : Option ScaiFlashType} :
    (s.driverInit channel ioFormat).activeFlashType = s.activeFlashType := by
  unfold driverInit
  dsimp only
  split <;> rfl

theorem enableActiveMt29f_eq : ∃ enabled, s.enableActiveMt29f = { s with isMt29fEnabled := enabled } := by
  unfold enableActiveMt29f
  split
  · exact ⟨true, rfl⟩
  · exact ⟨true, rfl⟩
  · exact ⟨s.isMt29fEnabled, rfl⟩

theorem selectDriver_activeDriver (s : FlashSelection) (flashType : ScaiFlashType) :
    (s.selectDriver flashType).activeDriver = flashType.driver?.getD s.activeDriver := by
  cases flashType <;> rfl

theorem selectDriver_inits (s : FlashSelection) (flashType : ScaiFlashType) :
    (s.selectDriver flashType).inits = s.inits := by
  cases flashType <;> rfl

theorem selectDriver_isInitialized (s : FlashSelection) (flashType t : ScaiFlashType) :
    ((s.selectDriver flashType).channels t).isInitialized = (s.channels t).isInitialized := by
  have kept : ∀ addr, ((s.setBaseAddr flashType addr).channels t).isInitialized =
      (s.channels t).isInitialized := by
    intro addr
    by_cases here : t = flashType <;> simp [setBaseAddr, setChannel, here]
  cases flashType <;> first | exact kept _ | rfl

theorem selectDriver_baseAddr (s : FlashSelection) {flashType : ScaiFlashType}
    (driven : flashType.driver? ≠ none) :
    ((s.selectDriver flashType).channels flashType).baseAddr = flashType.baseAddr := by
  cases flashType with
  | micronMt25q => exact absurd rfl driven
  | winbondW25n01Fpga => simp [selectDriver, setBaseAddr, ScaiFlashType.baseAddr]
  | winbondW25n01Direct => simp [selectDriver, setBaseAddr, ScaiFlashType.baseAddr]
  | micronMt29f => simp [selectDriver, setBaseAddr, ScaiFlashType.baseAddr]
  | micronMt29fChip chip => simp [selectDriver, setBaseAddr, ScaiFlashType.baseAddr]

theorem Sound.consistent (sound : s.Sound) : s.Consistent := by
  refine ⟨sound.driver, sound.channel, ?_, fun set => ?_⟩
  · rw [sound.channel, sound.baseAddr]
  · obtain ⟨driver, same, member⟩ := sound.initialized _ set
    rw [sound.channel] at same member ⊢
    rw [sound.driver] at same
    cases same
    exact member

theorem sound_start : start.Sound := ⟨rfl, rfl, rfl, nofun⟩

/-- A flag is set or a format stored in a channel that its driver initialised. -/
theorem Sound.setChannel (sound : s.Sound) {driver : ScaiFlashDriver}
    (same : channel.baseAddr = (s.channels flashType).baseAddr)
    (owned : flashType.driver? = some driver)
    (ran : ⟨driver, some (flashType, flashType.baseAddr)⟩ ∈ s.inits) :
    (s.setChannel flashType channel).Sound := by
  refine ⟨sound.driver, sound.channel, ?_, fun t set => ?_⟩
  · by_cases here : s.activeFlashType = flashType
    · subst here
      simpa [same] using sound.baseAddr
    · simpa [FlashSelection.setChannel, here] using sound.baseAddr
  · by_cases here : t = flashType
    · subst here
      exact ⟨driver, owned, ran⟩
    · exact sound.initialized t (by simpa [FlashSelection.setChannel, here] using set)

theorem Sound.record (sound : s.Sound) (init : DriverInit) :
    Sound { s with inits := init :: s.inits } := by
  refine ⟨sound.driver, sound.channel, sound.baseAddr, fun t set => ?_⟩
  obtain ⟨driver, same, member⟩ := sound.initialized t set
  exact ⟨driver, same, List.mem_cons_of_mem _ member⟩

/-- After the `init` of the active driver on its channel. -/
theorem Sound.driverInit (sound : s.Sound) (ioFormat : ℕ) :
    (s.driverInit (some s.activeChannel) ioFormat).Sound ∧
      ⟨s.activeDriver, some (s.activeFlashType, s.activeFlashType.baseAddr)⟩ ∈
        (s.driverInit (some s.activeChannel) ioFormat).inits := by
  have first : (s.driverInit (some s.activeChannel) ioFormat).inits =
      ⟨s.activeDriver, some (s.activeFlashType, s.activeFlashType.baseAddr)⟩ :: s.inits := by
    rw [← sound.baseAddr, ← sound.channel]
    unfold FlashSelection.driverInit
    cases s.activeDriver <;> rfl
  have ran : ⟨s.activeDriver, some (s.activeFlashType, s.activeFlashType.baseAddr)⟩ ∈
      (s.driverInit (some s.activeChannel) ioFormat).inits := by
    rw [first]
    exact List.mem_cons_self
  refine ⟨?_, ran⟩
  have recorded := sound.record
    ⟨s.activeDriver, some (s.activeChannel, (s.channels s.activeChannel).baseAddr)⟩
  have owned := sound.driver
  rw [← sound.channel] at owned ran
  unfold FlashSelection.driverInit at ran ⊢
  cases driver : s.activeDriver with
  | winbondW25n01Fpga => simpa [driver] using recorded
  | w25n01Direct => simpa [driver] using recorded
  | micronMt29f =>
    rw [driver] at recorded ran owned
    exact recorded.setChannel rfl owned ran

/-- After the switch, for a type that has a driver. -/
theorem Sound.select (sound : s.Sound) {driver : ScaiFlashDriver}
    (owned : flashType.driver? = some driver) :
    Sound { s.selectDriver flashType with activeFlashType := flashType, activeChannel := flashType } := by
  refine ⟨?_, rfl, s.selectDriver_baseAddr (by simp [owned]), fun t set => ?_⟩
  · dsimp only
    rw [selectDriver_activeDriver, owned]
    rfl
  · dsimp only
    rw [selectDriver_inits]
    exact sound.initialized t ((s.selectDriver_isInitialized flashType t).symm.trans set)

theorem Sound.scaiSetFlashChip (sound : s.Sound) {number : ℕ}
    (driven : ∀ type, ScaiFlashType.ofNat? number = some type → type.driver? ≠ none) :
    (s.scaiSetFlashChip number ioFormat).1.Sound := by
  unfold FlashSelection.scaiSetFlashChip
  cases type : ScaiFlashType.ofNat? number with
  | none => exact sound
  | some flashType =>
    obtain ⟨driver, owned⟩ := Option.ne_none_iff_exists'.mp (driven flashType type)
    have selected := sound.select owned
    obtain ⟨initialised, ran⟩ := selected.driverInit ioFormat
    dsimp only
    split
    · dsimp only
      split
      · exact selected
      · exact initialised.setChannel rfl selected.driver ran
    · exact sound

theorem Sound.enableActiveMt29f (sound : s.Sound) : s.enableActiveMt29f.Sound := by
  obtain ⟨enabled, same⟩ := s.enableActiveMt29f_eq
  rw [same]
  exact ⟨sound.driver, sound.channel, sound.baseAddr, sound.initialized⟩

theorem Sound.flashInit (sound : s.Sound) : (s.flashInit ioFormat).Sound := by
  unfold FlashSelection.flashInit
  split
  · exact sound
  · split
    · next direct =>
      have driver := sound.driver
      rw [direct] at driver
      have recorded := sound.record ⟨s.activeDriver, none⟩
      unfold FlashSelection.driverInit
      rw [← Option.some.inj driver] at recorded ⊢
      exact recorded
    · dsimp only
      split
      · exact sound.enableActiveMt29f
      · exact (sound.enableActiveMt29f.driverInit ioFormat).1

theorem Sound.step (sound : s.Sound) {call : SelectionCall} (driven : ¬ call.SelectsUndriven) :
    (call.step s).1.Sound := by
  cases call with
  | scaiSetFlashChip number ioFormat =>
    exact sound.scaiSetFlashChip fun type same none => driven ⟨type, same, none⟩
  | flashInit ioFormat => exact sound.flashInit

/-- A call that returns an error changes nothing. -/
theorem step_error {call : SelectionCall} (error : (call.step s).2 = .error) :
    (call.step s).1 = s := by
  cases call with
  | flashInit ioFormat => cases error
  | scaiSetFlashChip number ioFormat =>
    simp only [SelectionCall.step, FlashSelection.scaiSetFlashChip] at error ⊢
    split at error
    · rfl
    · split at error <;> cases error

theorem Sound.after (sound : s.Sound) {calls : List SelectionCall}
    (driven : ∀ call ∈ calls, ¬ call.SelectsUndriven) : (s.after calls).Sound := by
  induction calls generalizing s with
  | nil => exact sound
  | cons call calls ih =>
    rw [List.forall_mem_cons] at driven
    exact ih (sound.step driven.1) driven.2

theorem Sound.selectsSoundly (sound : s.Sound) {call : SelectionCall}
    (driven : ¬ call.SelectsUndriven) : SelectsSoundly s call := by
  refine ⟨(sound.step driven).consistent, fun kept => ?_⟩
  rcases kept with error | undriven
  · rw [step_error error]
    exact ⟨rfl, rfl, rfl, rfl⟩
  · exact absurd undriven driven

/-- A type without a driver is reported once it is selected, and is never consistent. -/
theorem not_selectsSoundly {call : SelectionCall} (undriven : call.SelectsUndriven) :
    ¬ SelectsSoundly s call := by
  intro soundly
  cases call with
  | flashInit ioFormat => exact undriven
  | scaiSetFlashChip number ioFormat =>
    obtain ⟨type, same, none⟩ := undriven
    have reported : (s.scaiSetFlashChip number ioFormat).1.activeFlashType = type := by
      simp only [FlashSelection.scaiSetFlashChip, same]
      split
      · dsimp only
        split
        · rfl
        · exact driverInit_activeFlashType
      · next already => exact not_not.mp already
    have driver := soundly.consistent.driver
    rw [SelectionCall.step, reported, none] at driver
    cases driver

end FlashSelection

/-- Every call of a sequence leaves the selection consistent, and keeps it where it is to, if and only
if none of them selects the MT25Q. -/
theorem flashSelection_sound_iff (calls : List SelectionCall) :
    (∀ before call rest, calls = before ++ call :: rest →
        (FlashSelection.start.after before).SelectsSoundly call) ↔
      ∀ call ∈ calls, ¬ call.SelectsUndriven := by
  constructor
  · intro soundly call member undriven
    obtain ⟨before, rest, rfl⟩ := List.append_of_mem member
    exact FlashSelection.not_selectsSoundly undriven (soundly before call rest rfl)
  · rintro driven before call rest rfl
    have sound : (FlashSelection.start.after before).Sound :=
      FlashSelection.sound_start.after fun call member =>
        driven call (List.mem_append_left _ member)
    exact sound.selectsSoundly (driven call (by simp))

/-- The MT25Q is selected, and the driver is the one from before. -/
theorem flashSelection_not_sound :
    ¬ ∀ before call rest,
        [SelectionCall.scaiSetFlashChip 2 FlashSelection.mssQspiQuadFull] = before ++ call :: rest →
          (FlashSelection.start.after before).SelectsSoundly call := by
  intro sound
  have undriven : (SelectionCall.scaiSetFlashChip 2 FlashSelection.mssQspiQuadFull).SelectsUndriven :=
    ⟨.micronMt25q, rfl, rfl⟩
  exact FlashSelection.not_selectsSoundly undriven (sound [] _ [] rfl)

end Hss
