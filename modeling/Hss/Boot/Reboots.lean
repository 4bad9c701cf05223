import Hss.Boot.Service

/-! Reboots: which harts restart when watchdogs fire, and what a domain may ask for when it stops,
over every ledger of the domains. -/

namespace Hss

/-! ### The ledger -/

/-- `hart_ledger`, of the application harts -/
abbrev HartLedger := U54 → LedgerEntry

/-- The calls that write the ledger. -/
inductive LedgerCall
  | registerHart (hart bootHart : U54)
  | registerBootHart (name : Bytes) (hartMask : BitVec 32) (bootHart : U54) (privMode : BitVec 32)
    (entryPoint arg1 : Word) (allowColdReboot allowWarmReboot : Bool)
  | deregisterHart (hart : U54)

namespace HartLedger

variable (l : HartLedger)

/-- `mpfs_domains_register_hart` -/
def registerHart (hart bootHart : U54) : HartLedger :=
  Function.update l hart { l hart with
    ownerHartid := bootHart.num, bootPending := true, resetReason := 0, resetType := 0 }

/-- `mpfs_domains_deregister_hart`, the part on the ledger -/
def deregisterHart (hart : U54) : HartLedger :=
  Function.update l hart { l hart with ownerHartid := 0, bootPending := false }

/-- `mpfs_domains_register_boot_hart` -/
def registerBootHart (name : Bytes) (hartMask : BitVec 32) (bootHart : U54) (privMode : BitVec 32)
    (entryPoint arg1 : Word) (allowColdReboot allowWarmReboot : Bool) : Except Halt HartLedger := do
  assert ((l bootHart).ownerHartid = bootHart.num) .bootHartRegistered
  return Function.update l bootHart { l bootHart with
    name, nextAddr := entryPoint, nextArg1 := arg1, hartMask, nextMode := privMode,
    allowColdReboot, allowWarmReboot }

def call : LedgerCall → Except Halt HartLedger
  | .registerHart hart bootHart => .ok (l.registerHart hart bootHart)
  | .registerBootHart name hartMask bootHart privMode entryPoint arg1 cold warm =>
    l.registerBootHart name hartMask bootHart privMode entryPoint arg1 cold warm
  | .deregisterHart hart => .ok (l.deregisterHart hart)

/-- A history of calls. -/
def calls (history : List LedgerCall) : Except Halt HartLedger := history.foldlM call l

/-- `mpfs_system_reset`, before the hart leaves OpenSBI -/
def systemReset (hart : U54) (resetType resetReason : BitVec 32) : HartLedger :=
  Function.update l hart { l hart with bootPending := true, resetReason, resetType }

/-- `mpfs_are_harts_in_same_domain` -/
def areHartsInSameDomain (hart hart' : U54) : Bool := (l hart).ownerHartid = (l hart').ownerHartid

/-- `mpfs_is_cold_reboot_allowed` -/
def isColdRebootAllowed (hart : U54) : Bool := (l hart).allowColdReboot

end HartLedger

/-- The ledger at power-on. -/
def emptyLedger : HartLedger := fun _ => ⟨[], 0, 0, 0, 0, 0, false, 0, 0, false, false⟩

theorem mpfsDomainsRegisterHart_hartLedger (hart bootHart : U54) (s : State) :
    (mpfsDomainsRegisterHart hart bootHart s).hartLedger =
      HartLedger.registerHart s.hartLedger hart bootHart := rfl

theorem mpfsDomainsDeregisterHart_hartLedger (hart : U54) (s : State) :
    (mpfsDomainsDeregisterHart hart s).hartLedger = HartLedger.deregisterHart s.hartLedger hart := rfl

/-- The boot service describes the hart from the image. -/
theorem mpfsDomainsRegisterBootHart_hartLedger (bootHart : U54) (hartMask : BitVec 32) (arg1 : Word)
    (s : State) : (mpfsDomainsRegisterBootHart bootHart hartMask arg1 s).map State.hartLedger =
      HartLedger.registerBootHart s.hartLedger (BootImage.name s.mem s.pBootImage bootHart 63) hartMask
        bootHart ((BootImage.privMode s.mem s.pBootImage bootHart).setWidth 32) (s.entryPoint bootHart)
        arg1 (s.hasFlag bootHart bootFlagAllowColdReboot)
        (s.hasFlag bootHart bootFlagAllowWarmReboot) := by
  rw [mpfsDomainsRegisterBootHart, HartLedger.registerBootHart, assert]
  split <;> rfl

/-! ### `HSS_reboot` -/

/-- What a reboot comes to: a cold reboot, or the harts that restart. -/
inductive Reboot
  | cold
  | warm (harts : List U54)
  deriving DecidableEq, Repr

section
variable (l : HartLedger)

/-- The turn of the loop over the harts for one whose watchdog fired, without a cold reboot. -/
def restartWith (source : U54) (restartMask : BitVec 32) : BitVec 32 :=
  bootMachine.foldl
    (fun mask peer =>
      if peer = source then mask
      else if l.areHartsInSameDomain peer source then mask ||| (1 : BitVec 32) <<< peer.num
      else mask)
    (restartMask ||| (1 : BitVec 32) <<< source.num)

/-- The loop over the harts: the harts to restart, or none once there is a cold reboot. -/
def restartMask (wdogStatus : BitVec 32) : List U54 → BitVec 32 → Option (BitVec 32)
  | [], mask => some mask
  | source :: sources, mask =>
    if wdogStatus.getLsbD source.num = false then restartMask wdogStatus sources mask
    else if l.isColdRebootAllowed source then none
    else restartMask wdogStatus sources (restartWith l source mask)

/-- `HSS_reboot`, with `CONFIG_ALLOW_COLDREBOOT` and without `CONFIG_ALLOW_COLDREBOOT_ALWAYS` -/
def hssReboot (wdogStatus : BitVec 32) : Reboot :=
  match restartMask l wdogStatus bootMachine 0 with
  | none => .cold
  | some mask => .warm (bootMachine.filter fun peer => mask.getLsbD peer.num)

end

/-! ### `mpfs_hart_stop` -/

/-- `SBI_SRST_RESET_TYPE_SHUTDOWN` and `SBI_SRST_RESET_TYPE_COLD_REBOOT` -/
def srstShutdown : BitVec 32 := 0
def srstColdReboot : BitVec 32 := 1

/-- What a hart that stops asks for. -/
inductive StopRequest
  | nothing | coldReboot | warmReboot
  deriving DecidableEq, Repr

/-- `mpfs_hart_stop`, up to the jump to `_start` -/
def mpfsHartStop (l : HartLedger) (hart : U54) : StopRequest :=
  if (l hart).ownerHartid = hart.num then
    if (l hart).resetType = srstShutdown then .nothing
    else if (l hart).resetType = srstColdReboot then
      if (l hart).allowColdReboot then .coldReboot else .warmReboot
    else .warmReboot
  else .nothing

/-! ### What reboots should do -/

/-- The hart's watchdog fired. -/
def Fired (wdogStatus : BitVec 32) (hart : U54) : Prop := wdogStatus.getLsbD hart.num = true

instance (wdogStatus : BitVec 32) (hart : U54) : Decidable (Fired wdogStatus hart) :=
  inferInstanceAs (Decidable (_ = true))

/-- The harts belong to one domain.  A hart without an owner belongs to none. -/
def HartLedger.SharesDomain (l : HartLedger) (hart hart' : U54) : Prop :=
  (l hart).ownerHartid ≠ 0 ∧ (l hart).ownerHartid = (l hart').ownerHartid

/-- The hart is the boot hart of a domain. -/
def HartLedger.BootHart (l : HartLedger) (hart : U54) : Prop := (l hart).ownerHartid = hart.num

instance (l : HartLedger) (hart : U54) : Decidable (l.BootHart hart) :=
  inferInstanceAs (Decidable (_ = hart.num))

/-- Watchdogs and a hart that stops with `resetType` reboot the right harts with the right
permission. -/
structure RebootsRight (l : HartLedger) (wdogStatus : BitVec 32) (hart : U54)
    (resetType resetReason : BitVec 32) : Prop where
  cold : hssReboot l wdogStatus = .cold ↔
    ∃ source, Fired wdogStatus source ∧ (l source).allowColdReboot = true
  warm : ∀ harts, hssReboot l wdogStatus = .warm harts → ∀ peer, peer ∈ harts ↔
    Fired wdogStatus peer ∨ ∃ source, Fired wdogStatus source ∧ l.SharesDomain peer source
  permitted : ∀ harts, hssReboot l wdogStatus = .warm harts → ∀ source ∈ harts,
    Fired wdogStatus source → l.BootHart source → (l source).allowWarmReboot = true
  stop : l.BootHart hart → mpfsHartStop (l.systemReset hart resetType resetReason) hart = .warmReboot →
    (l hart).allowWarmReboot = true

/-- The condition on the watchdogs: there is a cold reboot, or with a hart of no domain all harts of
no domain fired, and each boot hart that fired may restart. -/
def FiredRight (l : HartLedger) (wdogStatus : BitVec 32) : Prop :=
  (∃ source, Fired wdogStatus source ∧ (l source).allowColdReboot = true) ∨
    (∀ source peer, Fired wdogStatus source → (l source).ownerHartid = 0 →
      (l peer).ownerHartid = 0 → Fired wdogStatus peer) ∧
    ∀ source, Fired wdogStatus source → l.BootHart source → (l source).allowWarmReboot = true

/-- The condition on a hart that stops. -/
def StopRight (l : HartLedger) (hart : U54) (resetType : BitVec 32) : Prop :=
  ¬l.BootHart hart ∨ resetType = srstShutdown ∨
    resetType = srstColdReboot ∧ (l hart).allowColdReboot = true ∨ (l hart).allowWarmReboot = true

section
variable {l : HartLedger} {wdogStatus mask : BitVec 32} {sources : List U54} {peer : U54}

/-! ### The loops -/

theorem getLsbD_setHart (mask : BitVec 32) (hart peer : U54) :
    (mask ||| (1 : BitVec 32) <<< hart.num).getLsbD peer.num =
      (mask.getLsbD peer.num || decide (peer = hart)) := by
  have bit : ((1 : BitVec 32) <<< hart.num).getLsbD peer.num = decide (peer = hart) := by
    revert hart peer
    decide
  rw [BitVec.getLsbD_or, bit]

theorem restartWith_foldl_getLsbD (source : U54) (peers : List U54) :
    (peers.foldl
      (fun mask peer =>
        if peer = source then mask
        else if l.areHartsInSameDomain peer source then mask ||| (1 : BitVec 32) <<< peer.num
        else mask) mask).getLsbD peer.num = true ↔
    mask.getLsbD peer.num = true ∨
      peer ∈ peers ∧ peer ≠ source ∧ l.areHartsInSameDomain peer source = true := by
  induction peers generalizing mask with
  | nil => simp
  | cons hart peers ih =>
    rw [List.foldl_cons, ih]
    split
    · grind
    · split
      · rw [getLsbD_setHart]
        grind
      · grind

theorem restartWith_getLsbD (source : U54) : (restartWith l source mask).getLsbD peer.num = true ↔
    mask.getLsbD peer.num = true ∨ (l peer).ownerHartid = (l source).ownerHartid := by
  rw [restartWith, restartWith_foldl_getLsbD, getLsbD_setHart]
  have all : peer ∈ bootMachine := mem_bootMachine peer
  by_cases same : peer = source
  · simp [same]
  · simp [same, all, HartLedger.areHartsInSameDomain]

theorem restartMask_eq_none_iff (l : HartLedger) (wdogStatus : BitVec 32) (sources : List U54)
    (mask : BitVec 32) : restartMask l wdogStatus sources mask = none ↔
    ∃ source ∈ sources, Fired wdogStatus source ∧ (l source).allowColdReboot = true := by
  induction sources generalizing mask with
  | nil => simp [restartMask]
  | cons source sources ih =>
    rw [restartMask]
    split
    next quiet => simp [ih, Fired, quiet]
    next fired =>
      split
      next cold => grind [HartLedger.isColdRebootAllowed, Fired]
      next warm => grind [HartLedger.isColdRebootAllowed, Fired]

theorem restartMask_getLsbD {done : BitVec 32}
    (run : restartMask l wdogStatus sources mask = some done) :
    done.getLsbD peer.num = true ↔ mask.getLsbD peer.num = true ∨
      ∃ source ∈ sources, Fired wdogStatus source ∧ (l peer).ownerHartid = (l source).ownerHartid := by
  induction sources generalizing mask with
  | nil =>
    obtain rfl : mask = done := by simpa [restartMask] using run
    simp
  | cons source sources ih =>
    rw [restartMask] at run
    split at run
    next quiet => simp [ih run, Fired, quiet]
    next fired =>
      split at run
      next => exact absurd run (by simp)
      next =>
        rw [ih run, restartWith_getLsbD]
        simp [Fired, fired, or_assoc]

/-! ### When watchdogs reboot the right harts -/

theorem hssReboot_eq_cold_iff : hssReboot l wdogStatus = .cold ↔
    ∃ source, Fired wdogStatus source ∧ (l source).allowColdReboot = true := by
  have cold := restartMask_eq_none_iff l wdogStatus bootMachine 0
  simp only [mem_bootMachine, true_and] at cold
  rw [← cold, hssReboot]
  split
  next cold => exact iff_of_true rfl cold
  next mask run => exact iff_of_false Reboot.noConfusion (by rw [run]; exact Option.some_ne_none mask)

theorem mem_hssReboot {harts : List U54} (warm : hssReboot l wdogStatus = .warm harts) (peer : U54) :
    peer ∈ harts ↔
      ∃ source, Fired wdogStatus source ∧ (l peer).ownerHartid = (l source).ownerHartid := by
  rw [hssReboot] at warm
  split at warm
  next => exact absurd warm (by simp)
  next mask run =>
    obtain rfl := Reboot.warm.inj warm
    simp [restartMask_getLsbD run, mem_bootMachine]

theorem warm_of_not_cold
    (quiet : ¬∃ source, Fired wdogStatus source ∧ (l source).allowColdReboot = true) :
    ∃ harts, hssReboot l wdogStatus = .warm harts := by
  cases reboot : hssReboot l wdogStatus with
  | cold => exact absurd (hssReboot_eq_cold_iff.mp reboot) quiet
  | warm harts => exact ⟨harts, rfl⟩

/-- The harts that restart are the right ones when a fired hart of no domain has no company. -/
theorem restarts_iff {harts : List U54} (warm : hssReboot l wdogStatus = .warm harts) :
    (∀ peer, peer ∈ harts ↔
      Fired wdogStatus peer ∨ ∃ source, Fired wdogStatus source ∧ l.SharesDomain peer source) ↔
    ∀ source peer, Fired wdogStatus source → (l source).ownerHartid = 0 →
      (l peer).ownerHartid = 0 → Fired wdogStatus peer := by
  simp only [mem_hssReboot warm, HartLedger.SharesDomain]
  constructor
  · intro right source peer fired none none'
    have restarts := (right peer).mp ⟨source, fired, none'.trans none.symm⟩
    obtain own | ⟨source', -, owned, -⟩ := restarts
    · exact own
    · exact absurd none' owned
  · intro apart peer
    constructor
    · rintro ⟨source, fired, same⟩
      by_cases owned : (l peer).ownerHartid = 0
      · exact .inl (apart source peer fired (same.symm.trans owned) owned)
      · exact .inr ⟨source, fired, owned, same⟩
    · rintro (fired | ⟨source, fired, -, same⟩)
      · exact ⟨peer, fired, rfl⟩
      · exact ⟨source, fired, same⟩

theorem permitted_iff {harts : List U54} (warm : hssReboot l wdogStatus = .warm harts) :
    (∀ source ∈ harts, Fired wdogStatus source → l.BootHart source →
      (l source).allowWarmReboot = true) ↔
    ∀ source, Fired wdogStatus source → l.BootHart source → (l source).allowWarmReboot = true := by
  have restarts : ∀ source, Fired wdogStatus source → source ∈ harts := by
    intro source fired
    exact (mem_hssReboot warm source).mpr ⟨source, fired, rfl⟩
  grind

/-! ### When a hart that stops asks for what it may -/

theorem mpfsHartStop_systemReset (hart : U54) (resetType resetReason : BitVec 32) :
    mpfsHartStop (l.systemReset hart resetType resetReason) hart = .warmReboot ↔
      l.BootHart hart ∧ resetType ≠ srstShutdown ∧
        ¬(resetType = srstColdReboot ∧ (l hart).allowColdReboot = true) := by
  simp only [mpfsHartStop, HartLedger.systemReset, Function.update_self, HartLedger.BootHart]
  grind

theorem stop_iff (hart : U54) (resetType resetReason : BitVec 32) :
    (l.BootHart hart → mpfsHartStop (l.systemReset hart resetType resetReason) hart = .warmReboot →
      (l hart).allowWarmReboot = true) ↔ StopRight l hart resetType := by
  rw [mpfsHartStop_systemReset, StopRight]
  grind

end

/-- Reboots are right where no watchdog of a hart without a domain fires alone, and each boot hart
that restarts may do so: neither path asks for `allow_warm_reboot`. -/
theorem rebootsRight_iff (l : HartLedger) (wdogStatus : BitVec 32) (hart : U54)
    (resetType resetReason : BitVec 32) : RebootsRight l wdogStatus hart resetType resetReason ↔
      FiredRight l wdogStatus ∧ StopRight l hart resetType := by
  rw [← stop_iff hart resetType resetReason]
  by_cases cold : ∃ source, Fired wdogStatus source ∧ (l source).allowColdReboot = true
  · have reboot := hssReboot_eq_cold_iff.mpr cold
    constructor
    · intro right
      exact ⟨.inl cold, right.stop⟩
    · rintro ⟨-, stop⟩
      refine ⟨hssReboot_eq_cold_iff, ?_, ?_, stop⟩
      · intro harts warm
        exact absurd (reboot.symm.trans warm) (by simp)
      · intro harts warm
        exact absurd (reboot.symm.trans warm) (by simp)
  · obtain ⟨harts, warm⟩ := warm_of_not_cold cold
    constructor
    · intro right
      exact ⟨.inr ⟨(restarts_iff warm).mp (right.warm harts warm),
        (permitted_iff warm).mp (right.permitted harts warm)⟩, right.stop⟩
    · rintro ⟨fired, stop⟩
      obtain ⟨alone, permitted⟩ := fired.resolve_left cold
      refine ⟨hssReboot_eq_cold_iff, ?_, ?_, stop⟩
      · intro harts' warm'
        exact (restarts_iff warm').mpr alone
      · intro harts' warm'
        exact (permitted_iff warm').mpr permitted

/-- Hart 1, a domain of its own that may not restart.  Its watchdog restarts it, a refused cold reboot
does, and the watchdog of hart 2 restarts harts 3 and 4 as well, with which it shares no domain. -/
theorem restarts_without_permission : ∃ l,
    emptyLedger.calls [.registerHart .u54_1 .u54_1,
      .registerBootHart [] 2 .u54_1 1 0x80200000 0 false false] = .ok l ∧
    (l .u54_1).allowWarmReboot = false ∧ hssReboot l 2 = .warm [.u54_1] ∧
    mpfsHartStop (l.systemReset .u54_1 srstColdReboot 0) .u54_1 = .warmReboot ∧
    hssReboot l 4 = .warm [.u54_2, .u54_3, .u54_4] ∧
    ¬RebootsRight l 2 .u54_2 srstShutdown 0 ∧ ¬RebootsRight l 0 .u54_1 srstColdReboot 0 ∧
    ¬RebootsRight l 4 .u54_2 srstShutdown 0 := by
  refine ⟨_, rfl, by decide, by decide, by decide, by decide, ?_, ?_, ?_⟩
  · intro right
    exact absurd (right.permitted [.u54_1] (by decide) .u54_1 (by decide) (by decide) (by decide))
      (by decide)
  · intro right
    exact absurd (right.stop (by decide) (by decide)) (by decide)
  · intro right
    obtain fired | ⟨source, -, owned, -⟩ :=
      (right.warm [.u54_2, .u54_3, .u54_4] (by decide) .u54_3).mp (by decide)
    · exact absurd fired (by decide)
    · exact absurd owned (by decide)

end Hss
