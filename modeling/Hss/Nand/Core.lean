import Hss.Lib.Fuel
import Hss.Nand.BadBlockTable

/-! The blocks of a NAND device that are bad: what the driver finds out, marks and erases, over any
table of bad blocks and any device. -/

namespace Hss.Nand

open Fuel

def eio : ℤ := 5
def einval : ℤ := 22
def erange : ℤ := 34

/-- `struct nand_ops`, over the states of a device. -/
structure NandOps (σ : Type) where
  erase : NandPos → σ → ℤ × σ
  markbad : NandPos → σ → ℤ × σ
  isbad : NandPos → σ → Bool × σ

/-- A table of bad blocks: the status of a block, and a write of it, none for `-ERANGE`. -/
structure BlockTable (τ : Type) where
  getBlockStatus : τ → ℕ → Option (BitVec 64)
  setBlockStatus : τ → ℕ → BlockStatus → Option τ

/-- `struct nand_device`: its table, `ecc_stats.badblocks`, and the device behind it. -/
structure NandDevice (τ σ : Type) where
  bbt : τ
  badblocks : ℕ
  chip : σ

/-- What `mtd_erase` comes to: its result and `fail_addr`. -/
structure EraseOutcome where
  ret : ℤ
  failAddr : Option ℕ
  deriving DecidableEq

/-- A request to the MTD layer about blocks. -/
inductive BlockRequest
  | isbad (offs : ℕ)
  | isreserved (offs : ℕ)
  | markbad (offs : ℕ)
  | erase (addr len : ℕ)

section
variable {τ σ : Type} (table : BlockTable τ) (ops : NandOps σ) (m : MemoryOrganization)

/-- `nanddev_isbad` -/
def nanddevIsbad (pos : NandPos) (nand : NandDevice τ σ) : Bool × NandDevice τ σ :=
  let entry := nanddevBbtPosToEntry m pos
  let status := table.getBlockStatus nand.bbt entry
  if status = some BlockStatus.unknown.code then
    let isbad := ops.isbad pos nand.chip
    let status := if isbad.1 then BlockStatus.factoryBad else .good
    (status = .worn || status = .factoryBad,
      { nand with
        bbt := (table.setBlockStatus nand.bbt entry status).getD nand.bbt
        chip := isbad.2 })
  else (status = some BlockStatus.worn.code || status = some BlockStatus.factoryBad.code, nand)

/-- `nanddev_markbad`.  What the device says to the mark is overwritten. -/
def nanddevMarkbad (pos : NandPos) (nand : NandDevice τ σ) : ℤ × NandDevice τ σ :=
  let isbad := nanddevIsbad table ops m pos nand
  if isbad.1 then (0, isbad.2)
  else
    let markbad := ops.markbad pos isbad.2.chip
    let nand := { isbad.2 with chip := markbad.2 }
    match table.setBlockStatus nand.bbt (nanddevBbtPosToEntry m pos) .worn with
    | none => (-erange, nand)
    | some bbt => (0, { nand with bbt := bbt, badblocks := nand.badblocks + 1 })

/-- `nanddev_isreserved` -/
def nanddevIsreserved (pos : NandPos) (nand : NandDevice τ σ) : Bool :=
  table.getBlockStatus nand.bbt (nanddevBbtPosToEntry m pos) = some BlockStatus.reserved.code

/-- `nand->ops->erase` -/
def opsErase (pos : NandPos) (nand : NandDevice τ σ) : ℤ × NandDevice τ σ :=
  ((ops.erase pos nand.chip).1, { nand with chip := (ops.erase pos nand.chip).2 })

/-- `nanddev_erase` -/
def nanddevErase (pos : NandPos) (nand : NandDevice τ σ) : ℤ × NandDevice τ σ :=
  let isbad := nanddevIsbad table ops m pos nand
  if isbad.1 || nanddevIsreserved table m pos isbad.2 then
    if nanddevIsreserved table m pos isbad.2 then (-eio, isbad.2)
    else
      let entry := nanddevBbtPosToEntry m pos
      opsErase ops pos
        { isbad.2 with bbt := (table.setBlockStatus isbad.2.bbt entry .unknown).getD isbad.2.bbt }
  else opsErase ops pos isbad.2

/-- The loop of `nanddev_mtd_erase` -/
def nanddevMtdEraseLoop (last : NandPos) :
    ℕ → NandPos → NandDevice τ σ → Result (EraseOutcome × NandDevice τ σ)
  | 0, _, _ => .error .running
  | fuel + 1, pos, nand =>
      if nanddevPosCmp pos last ≤ 0 then
        let erase := nanddevErase table ops m pos nand
        if erase.1 ≠ 0 then .ok (⟨erase.1, some (nanddevPosToOffs m pos)⟩, erase.2)
        else nanddevMtdEraseLoop last fuel (nanddevPosNextEraseblock m pos) erase.2
      else .ok (⟨0, none⟩, nand)

/-- `nanddev_mtd_erase` -/
def nanddevMtdErase (addr len fuel : ℕ) (nand : NandDevice τ σ) :
    Result (EraseOutcome × NandDevice τ σ) :=
  nanddevMtdEraseLoop table ops m (nanddevOffsToPos m (addr + len - 1)).2 fuel
    (nanddevOffsToPos m addr).2 nand

/-- `mtd_erase` -/
def mtdErase (addr len fuel : ℕ) (nand : NandDevice τ σ) :
    Result (EraseOutcome × NandDevice τ σ) :=
  if nanddevSize m < addr ∨ nanddevSize m - addr < len then .ok (⟨-einval, none⟩, nand)
  else if len = 0 then .ok (⟨0, none⟩, nand)
  else nanddevMtdErase table ops m addr len fuel nand

/-- `mtd_block_isbad` -/
def mtdBlockIsbad (offs : ℕ) (nand : NandDevice τ σ) : ℤ × NandDevice τ σ :=
  if nanddevSize m < offs then (-einval, nand)
  else
    let isbad := nanddevIsbad table ops m (nanddevOffsToPos m offs).2 nand
    (isbad.1.toInt, isbad.2)

/-- A request: its outcome, of which only an erase has a place where it failed. -/
def serve (fuel : ℕ) (nand : NandDevice τ σ) : BlockRequest → Result (EraseOutcome × NandDevice τ σ)
  | .isbad offs =>
      let isbad := mtdBlockIsbad table ops m offs nand
      .ok (⟨isbad.1, none⟩, isbad.2)
  | .isreserved offs =>
      .ok (⟨(nanddevIsreserved table m (nanddevOffsToPos m offs).2 nand).toInt, none⟩, nand)
  | .markbad offs =>
      let markbad := nanddevMarkbad table ops m (nanddevOffsToPos m offs).2 nand
      .ok (⟨markbad.1, none⟩, markbad.2)
  | .erase addr len => mtdErase table ops m addr len fuel nand

/-- Requests one after the other: their outcomes. -/
def serveAll (fuel : ℕ) : List BlockRequest → NandDevice τ σ →
    Result (List EraseOutcome × NandDevice τ σ)
  | [], nand => .ok ([], nand)
  | request :: requests, nand => do
      let first ← serve table ops m fuel nand request
      let rest ← serveAll fuel requests first.2
      return (first.1 :: rest.1, rest.2)

end

section
variable {τ σ : Type} {table : BlockTable τ} {ops : NandOps σ} {m : MemoryOrganization} {pos : NandPos}
  {nand : NandDevice τ σ}

/-- The status that `nanddev_isbad` finds out. -/
def foundStatus (isbad : Bool) : BlockStatus := if isbad then .factoryBad else .good

/-- A block that is not known is looked up in the device. -/
theorem nanddevIsbad_unknown (unknown : table.getBlockStatus nand.bbt (nanddevBbtPosToEntry m pos) =
    some BlockStatus.unknown.code) :
    nanddevIsbad table ops m pos nand = ((ops.isbad pos nand.chip).1,
      { nand with
        bbt := (table.setBlockStatus nand.bbt (nanddevBbtPosToEntry m pos)
          (foundStatus (ops.isbad pos nand.chip).1)).getD nand.bbt
        chip := (ops.isbad pos nand.chip).2 }) := by
  rw [nanddevIsbad]
  dsimp only
  rw [if_pos unknown]
  refine Prod.ext ?_ rfl
  cases (ops.isbad pos nand.chip).1 <;> rfl

theorem nanddevIsbad_known (known : table.getBlockStatus nand.bbt (nanddevBbtPosToEntry m pos) ≠
    some BlockStatus.unknown.code) :
    nanddevIsbad table ops m pos nand =
      (table.getBlockStatus nand.bbt (nanddevBbtPosToEntry m pos) = some BlockStatus.worn.code ||
        table.getBlockStatus nand.bbt (nanddevBbtPosToEntry m pos) = some BlockStatus.factoryBad.code,
      nand) :=
  if_neg known

theorem nanddevMarkbad_bad (bad : (nanddevIsbad table ops m pos nand).1 = true) :
    nanddevMarkbad table ops m pos nand = (0, (nanddevIsbad table ops m pos nand).2) :=
  if_pos bad

end

section
variable {τ σ : Type} {table : BlockTable τ} {ops : NandOps σ} {m : MemoryOrganization}
  {pos last : NandPos} {nand : NandDevice τ σ} {fuel : ℕ}

/-- The block at an offset. -/
def blockOf (m : MemoryOrganization) (offs : ℕ) : ℕ :=
  nanddevBbtPosToEntry m (nanddevOffsToPos m offs).2

theorem posCmp_target (le : nanddevPosCmp pos last ≤ 0) : pos.target ≤ last.target := by
  by_contra after
  rw [nanddevPosCmp, if_pos (by omega), if_neg (by omega)] at le
  exact absurd le (by decide)

/-- Up to the last block, a walk is in the device, and its blocks are those of the table. -/
theorem NandPos.Within.entry_le (usable : m.Usable) (inside : pos.Within m) (inside' : last.Within m)
    (target : last.target < m.ntargets) (le : nanddevPosCmp pos last ≤ 0) :
    pos.target < m.ntargets ∧ nanddevBbtPosToEntry m pos = blockNumber m pos ∧
      blockNumber m pos ≤ blockNumber m last := by
  have here := (posCmp_target le).trans_lt target
  refine ⟨here, inside.entry usable here, ?_⟩
  rw [← inside.pageNumber_div, ← inside'.pageNumber_div]
  exact Nat.div_le_div_right ((inside.posCmp_le inside').mp le)

/-- The loop ends: the blocks that are left get fewer. -/
theorem exists_mtdEraseLoop (usable : m.Usable) (inside : pos.Within m) (inside' : last.Within m)
    (target : last.target < m.ntargets)
    (enough : blockNumber m last + 1 - blockNumber m pos < fuel) :
    ∃ r, nanddevMtdEraseLoop table ops m last fuel pos nand = .ok r := by
  induction fuel generalizing pos nand with
  | zero => exact absurd enough (Nat.not_lt_zero _)
  | succ fuel ih =>
    rw [nanddevMtdEraseLoop]
    dsimp only
    split
    next more =>
      obtain ⟨here, -, le⟩ := inside.entry_le usable inside' target more
      split
      · exact ⟨_, rfl⟩
      · obtain ⟨next, number⟩ := inside.nextEraseblock usable here
        exact ih next (by omega)
    next => exact ⟨_, rfl⟩

theorem blockNumber_lt (usable : m.Usable) {offs : ℕ} (less : offs < nanddevSize m) :
    blockNumber m (nanddevOffsToPos m offs).2 < nanddevNeraseblocks m * m.ntargets := by
  rw [← (within_offsToPos usable offs).pageNumber_div,
    pageNumber_offsToPos usable (counted_of_lt usable less.le)]
  exact (Nat.div_le_self _ _).trans_lt (div_pagesize_lt usable less)

/-- Every request is served, with fuel for the blocks of the device. -/
theorem exists_serveAll (usable : m.Usable) (enough : nanddevNeraseblocks m * m.ntargets + 1 < fuel)
    (requests : List BlockRequest) (nand : NandDevice τ σ) :
    ∃ r, serveAll table ops m fuel requests nand = .ok r := by
  induction requests generalizing nand with
  | nil => exact ⟨_, rfl⟩
  | cons request requests ih =>
    have served : ∃ r, serve table ops m fuel nand request = .ok r := by
      cases request with
      | erase addr len =>
        rw [serve, mtdErase]
        split
        · exact ⟨_, rfl⟩
        next fits =>
          split
          · exact ⟨_, rfl⟩
          next some =>
            have less : addr + len - 1 < nanddevSize m := by omega
            have last := blockNumber_lt usable less
            exact exists_mtdEraseLoop usable (within_offsToPos usable _) (within_offsToPos usable _)
              (target_offsToPos usable less) (by omega)
      | isbad offs => exact ⟨_, rfl⟩
      | isreserved offs => exact ⟨_, rfl⟩
      | markbad offs => exact ⟨_, rfl⟩
    obtain ⟨first, served⟩ := served
    obtain ⟨rest, later⟩ := ih first.2
    refine ⟨(first.1 :: rest.1, rest.2), ?_⟩
    rw [serveAll, served, Outcome.ok_bind, later]
    rfl

end

/-- The table of `bbt.c` -/
def packedTable (wide : ℕ → BitVec 64) (m : MemoryOrganization) : BlockTable BbtCache where
  getBlockStatus := nanddevBbtGetBlockStatus wide m
  setBlockStatus := nanddevBbtSetBlockStatus wide m

/-- A table that holds the status of each block. -/
def exactTable (m : MemoryOrganization) : BlockTable (ℕ → BlockStatus) where
  getBlockStatus status entry :=
    if nanddevNeraseblocks m ≤ entry then none else some (status entry).code
  setBlockStatus status entry new :=
    if nanddevNeraseblocks m ≤ entry then none else some (Function.update status entry new)

end Hss.Nand
