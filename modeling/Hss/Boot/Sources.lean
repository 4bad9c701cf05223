import Hss.Lib.Fallback
import Hss.Telemetry.BootStatus
import Hss.Boot.Fallback

/-! Which storage the boot image came from: the image that is registered, the active slot in
`boot_info` and the boot device of the telemetry, while the storages are tried one after another. -/

namespace Hss

/-! ### Storages -/

/-- The storages that can be built in. -/
inductive StorageId
  | fpgaQspi | qspi | spi | mmc | payload | ymodemPayload
  deriving DecidableEq, Repr

namespace StorageId

/-- The order of `pStorages`, when all are built in. -/
def all : List StorageId := [.fpgaQspi, .qspi, .spi, .mmc, .payload, .ymodemPayload]

def name : StorageId → List Char
  | .fpgaQspi => "FPGA_QSPI".toList
  | .qspi => "QSPI".toList
  | .spi => "SPI".toList
  | .mmc => "MMC".toList
  | .payload => "Payload".toList
  | .ymodemPayload => "YMODEM_PAYLOAD".toList

/-- What the storage's `getBootImage` gives to `update_boot_w25` before it reads: `MSS_W25` or
`FPGA_W25`. -/
def bootW25 : StorageId → Option (BitVec 8)
  | .qspi => some 0
  | .fpgaQspi => some 1
  | _ => none

end StorageId

/-- What the functions of a storage do: the `init` of one that has none counts as true. -/
structure StorageDriver where
  init : Bool
  getBootImage : Mem → BootImageResult

structure BootOptions extends InitConfig where
  /-- `CONFIG_SERVICE_…` of each storage. -/
  built : StorageId → Bool
  some_built : ∃ storage, built storage = true
  /-- `CONFIG_SERVICE_TELEMETRY_PUBLISH` -/
  telemetryPublish : Bool
  /-- `CONFIG_SERVICE_BOOT_DEVICE_NAME` -/
  deviceName : List Char

namespace BootOptions

variable (opts : BootOptions)

def pStorages : List StorageId := StorageId.all.filter opts.built

/-- There is a `boot_info`. -/
def hasBootInfo : Bool := opts.built .fpgaQspi || opts.built .qspi

/-- The storages that the initialisation tries: the selected one, or those of `pStorages`. -/
def order (pDefaultStorage : Option StorageId) : List StorageId :=
  match pDefaultStorage with
  | some storage => [storage]
  | none => opts.pStorages

end BootOptions

/-- The state of the boot with the two records beside it, and the reports with their devices, of which
the oldest is first. -/
structure SourceRecords where
  boot : State
  /-- `boot_info.__active_slot` -/
  activeSlot : BitVec 32
  /-- `boot_device` -/
  bootDevice : BitVec 8
  published : List (BootStatus × BitVec 8)

/-- The `boot_device` before `update_boot_w25` sets it. -/
def bootDeviceUnknown : BitVec 8 := 255

/-- `update_boot_w25`, of the device and not of its data: `BOOT_BD_MSSW25_RED` is 2. -/
def updateBootW25 (deviceName : List Char) (bootW25 bootDevice : BitVec 8) : BitVec 8 :=
  if deviceName = "red".toList ∧ bootW25 ≠ 255 then 2 + bootW25
  else if deviceName = "nom".toList ∧ bootW25 ≠ 255 then bootW25
  else bootDevice

/-- The active slot that a name stands for. -/
def activeSlotOf (name : List Char) : BitVec 32 :=
  if "FPGA_QSPI".toList.isPrefixOf name then 0x62
  else if "QSPI".toList.isPrefixOf name then 0x61
  else 0

/-! ### The initialisation -/

section
variable (opts : BootOptions) (miniz : Miniz) (driver : StorageId → StorageDriver)

namespace SourceRecords

/-- The start of a storage's `getBootImage`. -/
def startGetBootImage (storage : StorageId) (r : SourceRecords) : SourceRecords :=
  match storage.bootW25 with
  | some bootW25 =>
    if opts.telemetryPublish then
      { r with bootDevice := updateBootW25 opts.deviceName bootW25 r.bootDevice }
    else r
  | none => r

/-- `tryBootFunction_` of a storage, with its records. -/
def tryStorage (storage : StorageId) (r : SourceRecords) : Bool × SourceRecords :=
  let r := r.startGetBootImage opts storage
  let (result, boot) :=
    tryBootFunction opts.toInitConfig miniz (driver storage).getBootImage r.boot
  let r := { r with boot := boot }
  if result && opts.hasBootInfo then
    (result, { r with activeSlot := activeSlotOf storage.name })
  else
    (result, r)

/-- The loop of `HSS_BootInit` from the storage in place `i` on, with the place that it ends at. -/
def initLoop : List StorageId → ℕ → Bool → SourceRecords → Bool × ℕ × SourceRecords
  | [], i, result, r => (result, i, r)
  | storage :: storages, i, _, r =>
    if (driver storage).init then
      let (result, r) := r.tryStorage opts miniz driver storage
      if result then (true, i, r) else initLoop storages (i + 1) false r
    else
      initLoop storages (i + 1) false r

/-- The part of `HSS_BootInit` that tries the storages. -/
def tryStorages (pDefaultStorage : Option StorageId) (r : SourceRecords) : Bool × ℕ × SourceRecords :=
  match pDefaultStorage with
  | some storage =>
    if (driver storage).init then
      let (result, r) := r.tryStorage opts miniz driver storage
      if result then (true, 0, r) else (false, 1, r)
    else
      (false, 1, r)
  | none => initLoop opts miniz driver opts.pStorages 0 true r

/-- `HSS_BootInit`, with the place in its order of the storage that it ended at. -/
def hssBootInit (pDefaultStorage : Option StorageId) (r : SourceRecords) : Bool × ℕ × SourceRecords :=
  let (result, i, r) := r.tryStorages opts miniz driver pDefaultStorage
  if opts.telemetryPublish && !result then
    (result, i, { r with published := r.published ++ [(.bootloader2FailedReboot, r.bootDevice)] })
  else
    (result, i, r)

end SourceRecords

/-! ### What it is to do -/

/-- The image is one that can be booted from: with the magic of a boot image, or compressed, and then
it inflates fully. -/
structure BootImageResult.Valid (cfg : InitConfig) (got : BootImageResult) : Prop where
  result : got.result = true
  image : got.pBootImage ≠ 0
  content : BootImage.magic got.mem got.pBootImage = bootMagic ∨
    cfg.compression = true ∧ FullyInflates cfg miniz got.mem got.pBootImage cfg.ddrTargetAddr

/-- A storage succeeds, in a memory, at its `init` and at `getBootImage` with a valid image. -/
def GetsValidImage (mem : Mem) (storage : StorageId) : Prop :=
  (driver storage).init = true ∧
    ((driver storage).getBootImage mem).Valid miniz opts.toInitConfig

/-- The memory after a storage is tried in it. -/
def memAfter (mem : Mem) (storage : StorageId) : Mem :=
  if (driver storage).init then
    (imageToRegister opts.toInitConfig miniz ((driver storage).getBootImage mem)).mem
  else mem

/-- The image of a storage: what it got, or what that inflates to. -/
def imageOf (got : BootImageResult) : Word × Mem :=
  if got.DeliversCompressed then
    (opts.ddrTargetAddr, (hssDecompress opts.toInitConfig miniz got.mem got.pBootImage
      opts.ddrTargetAddr).2)
  else
    (got.pBootImage, got.mem)

/-- The slot of a storage. -/
def StorageId.slot : StorageId → BitVec 32
  | .qspi => 0x61
  | .fpgaQspi => 0x62
  | _ => 0

/-- `BOOT_BD_…` of a storage on the nominal or on the redundant side, else unknown. -/
def StorageId.device (deviceName : List Char) : StorageId → BitVec 8
  | .qspi =>
    if deviceName = "nom".toList then 0 else if deviceName = "red".toList then 2 else bootDeviceUnknown
  | .fpgaQspi =>
    if deviceName = "nom".toList then 1 else if deviceName = "red".toList then 3 else bootDeviceUnknown
  | _ => bootDeviceUnknown

/-- The records are those of the storage in place `k`, which got its image in `mem`. -/
structure RecordsOf (storage : StorageId) (mem : Mem) (k i : ℕ) (r : SourceRecords) : Prop where
  place : i = k
  image : (r.boot.pBootImage, r.boot.mem) = imageOf opts miniz ((driver storage).getBootImage mem)
  activeSlot : opts.hasBootInfo = true → r.activeSlot = storage.slot
  bootDevice : opts.telemetryPublish = true → r.bootDevice = storage.device opts.deviceName

open Fallback in
/-- The initialisation of `r` falls back as it is to: it succeeds when a storage in its order does,
and then the records are those of the first that does. -/
structure FallsBack (order : List StorageId) (r : SourceRecords) (out : Bool × ℕ × SourceRecords) :
    Prop where
  succeeds : out.1 = true ↔
    ∃ k, At (memAfter opts miniz driver) (GetsValidImage opts miniz driver) order r.boot.mem k
  belongs : ∀ k storage, order[k]? = some storage →
    First (memAfter opts miniz driver) (GetsValidImage opts miniz driver) order r.boot.mem k →
    RecordsOf opts miniz driver storage
      (before (memAfter opts miniz driver) order r.boot.mem k) k out.2.1 out.2.2

/-! ### When it does -/

/-- A storage is taken: its `init` succeeds and its `getBootImage` returns true, with an image where
decompression is built in. -/
def Taken (mem : Mem) (storage : StorageId) : Prop :=
  (driver storage).init = true ∧ ((driver storage).getBootImage mem).result = true ∧
    (opts.compression = true → ((driver storage).getBootImage mem).pBootImage ≠ 0)

/-- A storage sets the boot device. -/
def SetsDevice (storage : StorageId) : Prop :=
  storage.bootW25.isSome = true ∧
    (opts.deviceName = "nom".toList ∨ opts.deviceName = "red".toList)

open Fallback in
/-- No storage is taken before one gets a valid image, and the first that does sets the boot device, or
nothing did before it. -/
structure FallbackGood (order : List StorageId) (r : SourceRecords) : Prop where
  taken : ∀ j, At (memAfter opts miniz driver) (Taken opts driver) order r.boot.mem j →
    ∃ i ≤ j, At (memAfter opts miniz driver) (GetsValidImage opts miniz driver) order r.boot.mem i
  device : opts.telemetryPublish = true → ∀ k storage, order[k]? = some storage →
    First (memAfter opts miniz driver) (GetsValidImage opts miniz driver) order r.boot.mem k →
    SetsDevice opts storage ∨ r.bootDevice = bootDeviceUnknown ∧
      ∀ j < k, ∀ earlier, order[j]? = some earlier → (driver earlier).init = true →
        ¬ SetsDevice opts earlier

end

/-! ### Images -/

variable {opts : BootOptions} {miniz : Miniz} {driver : StorageId → StorageDriver} {mem : Mem}
  {storage : StorageId} {got : BootImageResult} {r : SourceRecords}

theorem imageToRegister_result {cfg : InitConfig} :
    (imageToRegister cfg miniz got).result = true ↔
      got.result = true ∧ (cfg.compression = true → got.pBootImage ≠ 0) := by
  by_cases compressed : cfg.compression = true ∧ got.DeliversCompressed
  · obtain ⟨compression, delivers⟩ := compressed
    rw [imageToRegister_compressed compression delivers]
    exact iff_of_true rfl ⟨delivers.1, fun _ => delivers.2.1⟩
  · rw [imageToRegister_plain fun on delivers => compressed ⟨on, delivers⟩]
    cases cfg.compression <;> simp

theorem BootImageResult.Valid.registers (valid : got.Valid miniz opts.toInitConfig) :
    ((imageToRegister opts.toInitConfig miniz got).pBootImage,
      (imageToRegister opts.toInitConfig miniz got).mem) = imageOf opts miniz got := by
  by_cases delivers : got.DeliversCompressed
  · have compressed : BootImage.magic got.mem got.pBootImage = compressedMagic := delivers.2.2
    obtain plain | ⟨compression, inflates⟩ := valid.content
    · rw [compressed] at plain
      exact absurd plain (by decide)
    · rw [imageToRegister_compressed compression delivers, imageOf, if_pos delivers]
      simp only [if_pos inflates.hssDecompress_ne]
  · rw [imageToRegister_plain fun _ => delivers, imageOf, if_neg delivers]

theorem GetsValidImage.taken (gets : GetsValidImage opts miniz driver mem storage) :
    Taken opts driver mem storage :=
  ⟨gets.1, gets.2.result, fun _ => gets.2.image⟩

/-! ### The device -/

theorem activeSlotOf_name (storage : StorageId) : activeSlotOf storage.name = storage.slot := by
  cases storage <;> decide

instance : Decidable (SetsDevice opts storage) := inferInstanceAs (Decidable (_ ∧ _))

theorem nom_ne_red : "nom".toList ≠ "red".toList := by decide

theorem SetsDevice.device_ne (sets : SetsDevice opts storage) :
    storage.device opts.deviceName ≠ bootDeviceUnknown := by
  obtain ⟨w25, side⟩ := sets
  cases storage with
  | qspi | fpgaQspi =>
    rcases side with side | side
    · simp [StorageId.device, side, bootDeviceUnknown]
    · simp [StorageId.device, side, bootDeviceUnknown]
  | _ => exact absurd w25 (by decide)

theorem device_of_not_sets (never : ¬ SetsDevice opts storage) :
    storage.device opts.deviceName = bootDeviceUnknown := by
  cases storage with
  | qspi | fpgaQspi =>
    have nominal : opts.deviceName ≠ "nom".toList := fun side => never ⟨rfl, .inl side⟩
    have redundant : opts.deviceName ≠ "red".toList := fun side => never ⟨rfl, .inr side⟩
    rw [StorageId.device, if_neg nominal, if_neg redundant]
  | _ => rfl

/-- `update_boot_w25` sets the device of the storage that calls it, when the side is known. -/
theorem updateBootW25_eq {bootW25 d : BitVec 8} (calls : storage.bootW25 = some bootW25) :
    updateBootW25 opts.deviceName bootW25 d =
      if SetsDevice opts storage then storage.device opts.deviceName else d := by
  have number : bootW25 ≠ 255 := by
    cases storage <;> cases calls <;> decide
  have some : storage.bootW25.isSome = true := by rw [calls]; rfl
  by_cases nominal : opts.deviceName = "nom".toList
  · have other : opts.deviceName ≠ "red".toList := nominal ▸ nom_ne_red
    rw [updateBootW25, if_neg fun red => other red.1, if_pos ⟨nominal, number⟩,
      if_pos ⟨some, .inl nominal⟩]
    cases storage <;> cases calls <;> simp [StorageId.device, nominal]
  · by_cases redundant : opts.deviceName = "red".toList
    · rw [updateBootW25, if_pos ⟨redundant, number⟩, if_pos ⟨some, .inr redundant⟩]
      cases storage <;> cases calls <;> simp [StorageId.device, redundant]
    · rw [updateBootW25, if_neg fun red => redundant red.1, if_neg fun nom => nominal nom.1,
        if_neg fun sets => sets.2.elim nominal redundant]

/-- The device once a storage is tried. -/
def deviceAfter (opts : BootOptions) (driver : StorageId → StorageDriver) (d : BitVec 8)
    (storage : StorageId) : BitVec 8 :=
  if (driver storage).init = true ∧ opts.telemetryPublish = true ∧ SetsDevice opts storage then
    storage.device opts.deviceName
  else d

theorem startGetBootImage_eq (init : (driver storage).init = true) :
    r.startGetBootImage opts storage =
      { r with bootDevice := deviceAfter opts driver r.bootDevice storage } := by
  unfold SourceRecords.startGetBootImage deviceAfter
  cases calls : storage.bootW25 with
  | none =>
    have never : ¬ SetsDevice opts storage := fun sets => by simp [SetsDevice, calls] at sets
    simp [never]
  | some bootW25 =>
    simp only [updateBootW25_eq calls, init, true_and]
    cases opts.telemetryPublish <;> by_cases sets : SetsDevice opts storage <;> simp [sets]

open Fallback

/-- A device is unknown for want of storages that set it. -/
theorem before_device_unknown {order : List StorageId} {d : BitVec 8} {k : ℕ}
    (publish : opts.telemetryPublish = true) (le : k ≤ order.length) :
    before (deviceAfter opts driver) order d k = bootDeviceUnknown ↔
      d = bootDeviceUnknown ∧ ∀ j < k, ∀ earlier, order[j]? = some earlier →
        (driver earlier).init = true → ¬ SetsDevice opts earlier := by
  induction k with
  | zero => exact (and_iff_left fun j less => absurd less (Nat.not_lt_zero j)).symm
  | succ k ih =>
    obtain ⟨storage, here⟩ : ∃ storage, order[k]? = some storage :=
      ⟨order[k], List.getElem?_eq_getElem le⟩
    rw [before_succ here, deviceAfter]
    split
    · next sets =>
      refine iff_of_false sets.2.2.device_ne ?_
      rintro ⟨-, never⟩
      exact never k (Nat.lt_succ_self k) storage here sets.1 sets.2.2
    · next unset =>
      rw [ih (Nat.le_of_succ_le le)]
      refine and_congr_right fun _ => ⟨fun never j less earlier there init => ?_,
        fun never j less => never j (Nat.lt_succ_of_lt less)⟩
      rcases Nat.lt_succ_iff_lt_or_eq.mp less with less | rfl
      · exact never j less earlier there init
      · obtain rfl : storage = earlier := Option.some.inj (here.symm.trans there)
        exact fun sets => unset ⟨init, publish, sets⟩

/-- The device of the storage in place `k` is reported exactly when that sets it, or nothing did. -/
theorem before_device_iff {order : List StorageId} {d : BitVec 8} {k : ℕ}
    (publish : opts.telemetryPublish = true) (here : order[k]? = some storage)
    (init : (driver storage).init = true) :
    before (deviceAfter opts driver) order d (k + 1) = storage.device opts.deviceName ↔
      SetsDevice opts storage ∨ d = bootDeviceUnknown ∧ ∀ j < k, ∀ earlier,
        order[j]? = some earlier → (driver earlier).init = true → ¬ SetsDevice opts earlier := by
  rw [before_succ here, deviceAfter]
  by_cases sets : SetsDevice opts storage
  · rw [if_pos ⟨init, publish, sets⟩]
    exact iff_of_true rfl (.inl sets)
  · rw [if_neg fun all => sets all.2.2, device_of_not_sets sets, or_iff_right sets]
    exact before_device_unknown publish (List.getElem?_eq_some_iff.mp here).1.le

/-! ### Runs -/

theorem tryStorage_taken (taken : Taken opts driver r.boot.mem storage) :
    r.tryStorage opts miniz driver storage =
      let image := imageToRegister opts.toInitConfig miniz ((driver storage).getBootImage r.boot.mem)
      (true, {
        boot := { r.boot with mem := image.mem, pBootImage := image.pBootImage }
        activeSlot := if opts.hasBootInfo then storage.slot else r.activeSlot
        bootDevice := deviceAfter opts driver r.bootDevice storage
        published := r.published }) := by
  have result : (imageToRegister opts.toInitConfig miniz
      ((driver storage).getBootImage r.boot.mem)).result = true :=
    imageToRegister_result.mpr ⟨taken.2.1, taken.2.2⟩
  rw [SourceRecords.tryStorage, startGetBootImage_eq taken.1, activeSlotOf_name]
  simp only [tryBootFunction, result, if_true, Bool.true_and, hssRegisterBootImage]
  cases opts.hasBootInfo <;> rfl

/-- A storage that is not taken leaves the active slot, and no image. -/
theorem tryStorage_not_taken (init : (driver storage).init = true)
    (refused : ¬ Taken opts driver r.boot.mem storage) :
    r.tryStorage opts miniz driver storage =
      let image := imageToRegister opts.toInitConfig miniz ((driver storage).getBootImage r.boot.mem)
      (false, { r with
        boot := { r.boot with mem := image.mem, pBootImage := 0 }
        bootDevice := deviceAfter opts driver r.bootDevice storage }) := by
  have result : (imageToRegister opts.toInitConfig miniz
      ((driver storage).getBootImage r.boot.mem)).result = false := by
    refine eq_false_of_ne_true fun result => refused ⟨init, ?_⟩
    exact imageToRegister_result.mp result
  rw [SourceRecords.tryStorage, startGetBootImage_eq init]
  simp only [tryBootFunction, result, hssRegisterBootImage]
  rfl

/-- The records once the storage in place `k` is taken. -/
def SourceRecords.taking (opts : BootOptions) (miniz : Miniz) (driver : StorageId → StorageDriver)
    (order : List StorageId) (k : ℕ) (storage : StorageId) (r : SourceRecords) : SourceRecords :=
  let image := imageToRegister opts.toInitConfig miniz
    ((driver storage).getBootImage (before (memAfter opts miniz driver) order r.boot.mem k))
  { boot := { r.boot with mem := image.mem, pBootImage := image.pBootImage }
    activeSlot := if opts.hasBootInfo then storage.slot else r.activeSlot
    bootDevice := before (deviceAfter opts driver) order r.bootDevice (k + 1)
    published := r.published }

/-- The loop ends at the first storage that is taken. -/
theorem initLoop_first {order : List StorageId} {i k : ℕ} {result : Bool}
    (here : order[k]? = some storage)
    (first : First (memAfter opts miniz driver) (Taken opts driver) order r.boot.mem k) :
    SourceRecords.initLoop opts miniz driver order i result r =
      (true, i + k, r.taking opts miniz driver order k storage) := by
  induction order generalizing i k result r with
  | nil => cases here
  | cons head order ih =>
    rw [SourceRecords.initLoop]
    cases k with
    | zero =>
      obtain rfl : head = storage := Option.some.inj here
      have taken := first_cons_zero.mp first
      rw [if_pos taken.1, tryStorage_taken taken]
      rfl
    | succ k =>
      obtain ⟨refused, first⟩ := first_cons_succ.mp first
      have place : i + 1 + k = i + (k + 1) := by omega
      split
      · next init =>
        rw [tryStorage_not_taken init refused]
        simp only [memAfter, if_pos init] at first
        refine (ih here first).trans ?_
        rw [place]
        simp only [SourceRecords.taking, before_cons_succ, memAfter, if_pos init]
      · next skipped =>
        simp only [memAfter, if_neg skipped] at first
        refine (ih here first).trans ?_
        rw [place]
        simp only [SourceRecords.taking, before_cons_succ, memAfter, deviceAfter, skipped]
        rfl

/-- Without a storage that is taken the loop fails. -/
theorem initLoop_none {order : List StorageId} {i : ℕ} {result : Bool}
    (last : order = [] → result = false)
    (none : ∀ k, ¬ At (memAfter opts miniz driver) (Taken opts driver) order r.boot.mem k) :
    (SourceRecords.initLoop opts miniz driver order i result r).1 = false := by
  induction order generalizing i result r with
  | nil => exact last rfl
  | cons head order ih =>
    have refused : ¬ Taken opts driver r.boot.mem head := fun taken =>
      none 0 (at_cons_zero.mpr taken)
    have rest (k : ℕ) (hit : At (memAfter opts miniz driver) (Taken opts driver) order
        (memAfter opts miniz driver r.boot.mem head) k) : False :=
      none (k + 1) (at_cons_succ.mpr hit)
    rw [SourceRecords.initLoop]
    split
    · next init =>
      rw [tryStorage_not_taken init refused]
      simp only [memAfter, if_pos init] at rest
      exact ih (fun _ => rfl) rest
    · next skipped =>
      simp only [memAfter, if_neg skipped] at rest
      exact ih (fun _ => rfl) rest

/-- Its image and result are those of the loop without records. -/
theorem initLoop_undivided {order : List StorageId} {i : ℕ} {result : Bool} :
    hssBootInitLoop opts.toInitConfig miniz
        (returning (order.map fun storage => ((driver storage).init, (driver storage).getBootImage)))
        result r.boot =
      some ((SourceRecords.initLoop opts miniz driver order i result r).1,
        (SourceRecords.initLoop opts miniz driver order i result r).2.2.boot) := by
  induction order generalizing i result r with
  | nil => rfl
  | cons head order ih =>
    rw [SourceRecords.initLoop, List.map_cons, returning, List.map_cons, hssBootInitLoop]
    split
    · next init =>
      rw [SourceRecords.tryStorage, startGetBootImage_eq init]
      dsimp only
      have same : tryBootFunction opts.toInitConfig miniz
          (fun _ => (driver head).getBootImage r.boot.mem) r.boot =
          tryBootFunction opts.toInitConfig miniz (driver head).getBootImage r.boot := rfl
      rw [same]
      obtain ⟨result, boot⟩ := tryBootFunction opts.toInitConfig miniz (driver head).getBootImage r.boot
      cases result with
      | false =>
        simp only [Bool.false_and, Bool.false_eq_true, if_false]
        exact ih (r := ⟨boot, r.activeSlot, deviceAfter opts driver r.bootDevice head, r.published⟩)
      | true => cases opts.hasBootInfo <;> rfl
    · exact ih

theorem order_ne_nil (opts : BootOptions) (pDefaultStorage : Option StorageId) :
    opts.order pDefaultStorage ≠ [] := by
  cases pDefaultStorage with
  | some storage => exact List.cons_ne_nil _ _
  | none =>
    obtain ⟨storage, built⟩ := opts.some_built
    have listed : storage ∈ StorageId.all := by cases storage <;> decide
    exact List.ne_nil_of_mem (List.mem_filter.mpr ⟨listed, built⟩)

/-- A selected storage is tried as the only one of a loop. -/
theorem tryStorages_eq (pDefaultStorage : Option StorageId) :
    r.tryStorages opts miniz driver pDefaultStorage =
      SourceRecords.initLoop opts miniz driver (opts.order pDefaultStorage) 0 true r := by
  cases pDefaultStorage <;> rfl

/-- The initialisation ends with the first storage in its order that is taken. -/
theorem hssBootInit_first {pDefaultStorage : Option StorageId} {k : ℕ}
    (here : (opts.order pDefaultStorage)[k]? = some storage)
    (first : First (memAfter opts miniz driver) (Taken opts driver) (opts.order pDefaultStorage)
      r.boot.mem k) :
    r.hssBootInit opts miniz driver pDefaultStorage =
      (true, k, r.taking opts miniz driver (opts.order pDefaultStorage) k storage) := by
  rw [SourceRecords.hssBootInit, tryStorages_eq, initLoop_first here first, Nat.zero_add]
  cases opts.telemetryPublish <;> rfl

theorem hssBootInit_none {pDefaultStorage : Option StorageId}
    (none : ∀ k, ¬ At (memAfter opts miniz driver) (Taken opts driver) (opts.order pDefaultStorage)
      r.boot.mem k) :
    (r.hssBootInit opts miniz driver pDefaultStorage).1 = false := by
  have result : (r.tryStorages opts miniz driver pDefaultStorage).1 = false := by
    rw [tryStorages_eq]
    exact initLoop_none (fun empty => absurd empty (order_ne_nil opts pDefaultStorage)) none
  rw [SourceRecords.hssBootInit]
  dsimp only
  split
  · exact result
  · exact result

/-- The records after the first storage with a valid image is taken are its own, but for a device that
another storage set. -/
theorem taking_recordsOf_iff {order : List StorageId} {k : ℕ} (here : order[k]? = some storage)
    (gets : GetsValidImage opts miniz driver
      (before (memAfter opts miniz driver) order r.boot.mem k) storage) :
    RecordsOf opts miniz driver storage (before (memAfter opts miniz driver) order r.boot.mem k) k k
        (r.taking opts miniz driver order k storage) ↔
      (opts.telemetryPublish = true → SetsDevice opts storage ∨ r.bootDevice = bootDeviceUnknown ∧
        ∀ j < k, ∀ earlier, order[j]? = some earlier → (driver earlier).init = true →
          ¬ SetsDevice opts earlier) := by
  constructor
  · intro own publish
    exact (before_device_iff publish here gets.1).mp (own.bootDevice publish)
  · intro device
    refine ⟨rfl, gets.2.registers, fun some => if_pos some, fun publish => ?_⟩
    exact (before_device_iff publish here gets.1).mpr (device publish)

/-- The initialisation succeeds exactly when a storage in its order succeeds at its `init` and at
`getBootImage` with a valid image, with all records those of the first that does, exactly when no
storage is taken before one gets a valid image, and the first that does sets the boot device or finds
it unset. -/
theorem hssBootInit_fallsBack_iff (opts : BootOptions) (miniz : Miniz)
    (driver : StorageId → StorageDriver) (pDefaultStorage : Option StorageId) (r : SourceRecords) :
    FallsBack opts miniz driver (opts.order pDefaultStorage) r
        (r.hssBootInit opts miniz driver pDefaultStorage) ↔
      FallbackGood opts miniz driver (opts.order pDefaultStorage) r := by
  set order := opts.order pDefaultStorage with tried
  constructor
  · intro falls
    have taken (j : ℕ) (hit : At (memAfter opts miniz driver) (Taken opts driver) order r.boot.mem j) :
        ∃ i ≤ j, At (memAfter opts miniz driver) (GetsValidImage opts miniz driver) order
          r.boot.mem i := by
      obtain ⟨l, first⟩ := exists_first ⟨j, hit⟩
      obtain ⟨storage, here, -⟩ := first.hit
      have ended := hssBootInit_first here first
      obtain ⟨k, valid⟩ := exists_first (falls.succeeds.mp (by rw [ended]))
      obtain ⟨_, there, -⟩ := valid.hit
      -- The place that the initialisation ended at is that of the first valid image.
      have place := (falls.belongs k _ there valid).place
      rw [ended] at place
      refine ⟨k, ?_, valid.hit⟩
      rw [← place]
      exact not_lt.mp fun less => first.first j (Nat.zero_le j) less hit
    refine ⟨taken, fun publish k storage here valid => ?_⟩
    have first := valid.widen (fun _ _ => GetsValidImage.taken) taken
    obtain ⟨_, there, gets⟩ := valid.hit
    obtain rfl := Option.some.inj (here.symm.trans there)
    have own := falls.belongs k storage here valid
    rw [hssBootInit_first here first] at own
    exact (taking_recordsOf_iff here gets).mp own publish
  · intro good
    constructor
    · constructor
      · intro success
        by_contra none
        have failed : (r.hssBootInit opts miniz driver pDefaultStorage).1 = false := by
          refine hssBootInit_none fun j hit => ?_
          obtain ⟨i, -, valid⟩ := good.taken j hit
          exact none ⟨i, valid⟩
        rw [failed] at success
        cases success
      · intro some
        obtain ⟨k, valid⟩ := exists_first some
        obtain ⟨storage, here, -⟩ := valid.hit
        rw [hssBootInit_first here (valid.widen (fun _ _ => GetsValidImage.taken) good.taken)]
    · intro k storage here valid
      obtain ⟨_, there, gets⟩ := valid.hit
      obtain rfl := Option.some.inj (here.symm.trans there)
      rw [hssBootInit_first here (valid.widen (fun _ _ => GetsValidImage.taken) good.taken)]
      exact (taking_recordsOf_iff here gets).mpr fun publish => good.device publish k storage here valid

/-! ### Records of another storage -/

/-- A board on the nominal side with a flash behind the FPGA and one of its own, and YMODEM. -/
def nominalDpu : BootOptions where
  toInitConfig := icicleKitInit
  built storage := storage ∈ [StorageId.fpgaQspi, .qspi, .ymodemPayload]
  some_built := ⟨.qspi, rfl⟩
  telemetryPublish := true
  deviceName := "nom".toList

def sentImage : BootImageResult :=
  ⟨true, 0x103FC00000, fieldsMem [(0x103FC00000, 4, 0xB007C0DE)]⟩

theorem sentImage_valid : sentImage.Valid inflateStoredByte nominalDpu.toInitConfig :=
  ⟨rfl, by decide, .inl (by decide +kernel)⟩

/-- Nothing is in the flashes, and an image comes by YMODEM. -/
def imageByYmodem : StorageId → StorageDriver
  | .ymodemPayload => ⟨true, fun _ => sentImage⟩
  | _ => ⟨true, fun mem => ⟨false, 0, mem⟩⟩

/-- The flash behind the FPGA has a compressed image with a wrong checksum besides. -/
def wrongChecksumFirst : StorageId → StorageDriver
  | .fpgaQspi => ⟨true, fun _ => ⟨true, 0x1000, compressedImage 0 2 0 0⟩⟩
  | storage => imageByYmodem storage

def beforeBoot : SourceRecords where
  boot := powerOn .icicleKitEs (fun _ => 0) (fun _ _ => ⟨0, 0, .nullRegion, false, false, false, false⟩) 0
  activeSlot := 0
  bootDevice := bootDeviceUnknown
  published := []

/-- The image that came by YMODEM is reported as that of the board's own flash; and one that does not
inflate ends the initialisation, with true and no image, before the one that comes by YMODEM. -/
theorem hssBootInit_other_source :
    ¬ FallsBack nominalDpu inflateStoredByte imageByYmodem (nominalDpu.order none) beforeBoot
        (beforeBoot.hssBootInit nominalDpu inflateStoredByte imageByYmodem none) ∧
      ¬ FallsBack nominalDpu inflateStoredByte wrongChecksumFirst (nominalDpu.order none) beforeBoot
        (beforeBoot.hssBootInit nominalDpu inflateStoredByte wrongChecksumFirst none) := by
  constructor
  · intro falls
    have first : First (memAfter nominalDpu inflateStoredByte imageByYmodem)
        (GetsValidImage nominalDpu inflateStoredByte imageByYmodem) (nominalDpu.order none)
        beforeBoot.boot.mem 2 := by
      refine .of_lt ⟨.ymodemPayload, rfl, rfl, sentImage_valid⟩ fun j less hit => ?_
      obtain ⟨storage, here, gets⟩ := hit
      interval_cases j <;> cases here <;> cases gets.2.result
    have device := (falls.belongs 2 .ymodemPayload rfl first).bootDevice rfl
    exact absurd device (by decide +kernel)
  · intro falls
    have first : First (memAfter nominalDpu inflateStoredByte wrongChecksumFirst)
        (GetsValidImage nominalDpu inflateStoredByte wrongChecksumFirst) (nominalDpu.order none)
        beforeBoot.boot.mem 2 := by
      refine .of_lt ⟨.ymodemPayload, rfl, rfl, sentImage_valid⟩ fun j less hit => ?_
      obtain ⟨storage, here, gets⟩ := hit
      interval_cases j
      · cases here
        obtain plain | ⟨-, inflates⟩ := gets.2.content
        · exact absurd plain (by decide +kernel)
        · exact absurd inflates.headerCrc (by decide +kernel)
      · cases here
        cases gets.2.result
    have place := (falls.belongs 2 .ymodemPayload rfl first).place
    exact absurd place (by decide +kernel)

end Hss
