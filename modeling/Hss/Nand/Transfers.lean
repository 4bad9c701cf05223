import Hss.Nand.SpiNand

/-! Requests to a SPI NAND: what a write leaves in the flash, and what a read finds there. -/

namespace Hss.Nand

open Fuel

section
variable {chip : SpiNand} {m : MemoryOrganization} {layout : List OobRegion} {req : NandPageIoReq}
  {strength : ℕ} {enableEcc : Bool} {st tt : chip.State × RequestBuffers}
  {reqs : ℕ → NandPageIoReq} {k n offs : ℕ}

/-! ### Writes of pages -/

theorem preparePage_ok (prepared : preparePage (chip.ops m layout strength) enableEcc req st = .ok tt) :
    req.pos.target < m.ntargets ∧ chip.cells tt.1 = chip.cells st.1 ∧
      chip.busy tt.1 = chip.busy st.1 ∧ tt.2 = st.2 := by
  rw [preparePage] at prepared
  dsimp only at prepared
  split at prepared
  next => cases prepared
  next selected =>
    have target : ¬m.ntargets ≤ req.pos.target := fun le => selected (by
      show (if m.ntargets ≤ req.pos.target then -einval else 0) ≠ 0
      rw [if_pos le]
      decide)
    split at prepared
    next => cases prepared
    next =>
      rw [← Except.ok.inj prepared]
      exact ⟨Nat.lt_of_not_le target, chip.cells_eccEnable _ _, chip.busy_eccEnable _ _, rfl⟩

/-- What a page that is written does to the cells of a chip that is not busy. -/
theorem mtdWritePage_ok (addressed : chip.Addressed m) (usable : m.Usable)
    (idle : chip.busy st.1 = false)
    (ran : mtdWritePage (chip.ops m layout strength) enableEcc req st = .ok tt) :
    req.pos.target < m.ntargets ∧ tt.2 = st.2 ∧ chip.busy tt.1 = false ∧
      (req.Fits m → ∀ c < m.pagesize, chip.cells tt.1 (rowAddress m req.pos) c =
        chip.cells st.1 (rowAddress m req.pos) c &&& pageBuffer m layout req st.2.data st.2.oob c) ∧
      ∀ row, row ≠ rowAddress m req.pos → chip.cells tt.1 row = chip.cells st.1 row := by
  rw [mtdWritePage] at ran
  split at ran
  next => cases ran
  next ready prepared =>
    obtain ⟨target, cells, busy, bufs⟩ := preparePage_ok prepared
    dsimp only at ran
    split at ran
    next => cases ran
    next wrote =>
      rw [← Except.ok.inj ran, ← cells, ← bufs]
      obtain ⟨done, page⟩ := spinandWritePage_cells addressed usable target _ _ _ (busy.trans idle)
        (not_not.mp wrote)
      exact ⟨target, rfl, done, page, fun row other => spinandWritePage_cells_ne other _ _ _⟩

theorem Served.targets (addressed : chip.Addressed m) (usable : m.Usable)
    (idle : chip.busy st.1 = false)
    (served : Served (mtdWritePage (chip.ops m layout strength) enableEcc) reqs k st n tt) :
    ∀ j, k ≤ j → j < n → (reqs j).pos.target < m.ntargets := by
  induction served with
  | refl => omega
  | page wrote _ ih =>
    obtain ⟨target, -, done, -⟩ := mtdWritePage_ok addressed usable idle wrote
    intro j le less
    rcases Nat.lt_or_eq_of_le le with after | rfl
    · exact ih done j after less
    · exact target

/-- What pages of rows of their own do that are written. -/
theorem Served.cells (addressed : chip.Addressed m) (usable : m.Usable)
    (idle : chip.busy st.1 = false)
    (served : Served (mtdWritePage (chip.ops m layout strength) enableEcc) reqs k st n tt)
    (fits : ∀ j, k ≤ j → j < n → (reqs j).Fits m)
    (apart : ∀ i j, k ≤ i → i < j → j < n →
      rowAddress m (reqs i).pos ≠ rowAddress m (reqs j).pos) :
    (∀ j, k ≤ j → j < n → ∀ c < m.pagesize, chip.cells tt.1 (rowAddress m (reqs j).pos) c =
      chip.cells st.1 (rowAddress m (reqs j).pos) c &&&
        pageBuffer m layout (reqs j) st.2.data st.2.oob c) ∧
    ∀ row, (∀ j, k ≤ j → j < n → row ≠ rowAddress m (reqs j).pos) →
      chip.cells tt.1 row = chip.cells st.1 row := by
  induction served with
  | refl => exact ⟨by omega, fun _ _ => rfl⟩
  | @page k n s s' t wrote later ih =>
    obtain ⟨-, bufs, done, cells, others⟩ := mtdWritePage_ok addressed usable idle wrote
    obtain ⟨each, rest⟩ := ih done (fun j le => fits j (Nat.le_of_succ_le le))
      fun i j le => apart i j (Nat.le_of_succ_le le)
    rw [bufs] at each
    refine ⟨fun j le less c inPage => ?_, fun row other => ?_⟩
    · rcases Nat.lt_or_eq_of_le le with after | rfl
      · rw [each j after less c inPage, others _ (apart k j (Nat.le_refl k) after less).symm]
      · rw [rest _ fun j after less => apart k j (Nat.le_refl k) after less,
          cells (fits k le less) c inPage]
    · rw [rest row fun j le => other j (Nat.le_of_succ_le le)]
      exact others row (other k (Nat.le_refl k) later.le)

/-- Pages one after the other from one of the device on, or from its end, that are all found in a target
of the device are in it. -/
theorem inDevice_of_targets (usable : m.Usable) (le : offs ≤ nanddevSize m)
    (targets : ∀ j < n, (posOfPage m (offs / m.pagesize + j)).target < m.ntargets) : ∀ j < n,
    (offs / m.pagesize + j) / m.pagesPerEraseblock / m.eraseblocksPerLun / m.lunsPerTarget <
      m.ntargets := by
  have few := usable.ntargets_lt
  have counted {page : ℕ} (most : page / m.pagesPerEraseblock / m.eraseblocksPerLun /
      m.lunsPerTarget ≤ m.ntargets) (target : (posOfPage m page).target < m.ntargets) :
      page / m.pagesPerEraseblock / m.eraseblocksPerLun / m.lunsPerTarget < m.ntargets :=
    (Nat.mod_eq_of_lt (most.trans_lt few)).symm.trans_lt target
  intro j less
  induction j with
  | zero =>
    refine counted ?_ (targets 0 less)
    have last := (div_target_lt_iff usable).mpr (show offs < nanddevTargetSize m * (m.ntargets + 1) from
      le.trans_lt (Nat.mul_lt_mul_of_pos_left (Nat.lt_succ_self _)
        (Nat.mul_pos (Nat.mul_pos (Nat.mul_pos usable.lunsPerTarget usable.eraseblocksPerLun)
          usable.pagesPerEraseblock) usable.pagesize)))
    exact Nat.le_of_lt_succ last
  | succ j ih =>
    have before := ih (Nat.lt_of_succ_lt less)
    refine counted ?_ (targets (j + 1) less)
    rw [← Nat.add_assoc]
    rw [Nat.div_div_eq_div_mul, Nat.div_div_eq_div_mul] at before ⊢
    rw [Nat.succ_div]
    split <;> omega

/-- On a device with one target, pages on one row are the same. -/
theorem page_eq_of_row (usable : m.Usable) (addressed : chip.Addressed m) {page page' : ℕ}
    (target : page / m.pagesPerEraseblock / m.eraseblocksPerLun / m.lunsPerTarget < m.ntargets)
    (target' : page' / m.pagesPerEraseblock / m.eraseblocksPerLun / m.lunsPerTarget < m.ntargets)
    (same : rowAddress m (posOfPage m page) = rowAddress m (posOfPage m page')) : page = page' := by
  have few := usable.ntargets_lt
  have one := addressed.ntargets
  have first : (posOfPage m page).target < 1 := (Nat.mod_le _ _).trans_lt (one ▸ target)
  have second : (posOfPage m page').target < 1 := (Nat.mod_le _ _).trans_lt (one ▸ target')
  have pos := (rowAddress_inj usable (within_posOfPage usable page) (within_posOfPage usable page')
    addressed.rows (by omega)).mp same
  rw [← pageNumber_posOfPage (target.trans few), pos, pageNumber_posOfPage (target'.trans few)]

variable {req' : MtdOobOps}

/-- A request that passes the check begins in the device or at its end, and its bytes are in it. -/
theorem le_size_of_check (len : req'.len < 2 ^ 32) (passes : mtdCheckOobOps m offs req' = 0) :
    offs + req'.len ≤ nanddevSize m := by
  rw [mtdCheckOobOps] at passes
  split at passes
  next => exact absurd passes (by decide)
  next fits => omega

theorem MtdOobOps.Sound.of_addressed (usable : m.Usable) (addressed : chip.Addressed m)
    (len : req'.len < 2 ^ 32) (ooblen : req'.ooblen < 2 ^ 32)
    (passes : mtdCheckOobOps m offs req' = 0) : req'.Sound m := by
  have columns := addressed.columns
  have planes := (Nat.le_mul_of_pos_left _ usable.planesPerLun).trans addressed.planes
  exact .of_check len ooblen (by omega) passes

variable {req' : MtdOobOps}

theorem requestPage_fits (usable : m.Usable) (sound : req'.Sound m)
    (more : ¬nanddevIoIterEnd (requestIter m offs req' k) = true) :
    (requestPage m offs req' k).Fits m := by
  have inPage := Nat.mod_lt offs usable.pagesize
  have datalen : (requestPage m offs req' k).datalen =
      min (m.pagesize - (requestPage m offs req' k).dataoffs) (req'.len - dataBefore m offs req' k) :=
    dataBefore_succ_sub usable k
  have ooblen : (requestPage m offs req' k).ooblen =
      min (m.oobsize - (requestPage m offs req' k).ooboffs) (req'.ooblen - oobBefore m req' k) :=
    sound.oobBefore_succ_sub k
  have dataoffs : (requestPage m offs req' k).dataoffs < m.pagesize := by
    show (if k = 0 then offs % m.pagesize else 0) < m.pagesize
    split <;> omega
  have ooboffs (some : req'.ooblen ≠ 0) : (requestPage m offs req' k).ooboffs < m.oobsize := by
    have begins := sound.ooboffs some
    show (if k = 0 then req'.ooboffs.toNat else 0) < m.oobsize
    split <;> omega
  have data : dataBefore m offs req' k ≤ req'.len := Nat.min_le_left ..
  have oob : oobBefore m req' k ≤ req'.ooblen := Nat.min_le_left ..
  rw [ioIterEnd_iff] at more
  refine ⟨within_offsToPos usable _, by omega, fun some => ?_, ?_⟩
  · have begins := ooboffs (by omega)
    omega
  · by_cases none : req'.ooblen = 0
    · omega
    · have begins := ooboffs none
      omega

section
variable {rd rd' : (chip.State × RequestBuffers) × EccReads}

theorem preparePage_error {broke : ℤ × chip.State × RequestBuffers}
    (breaks : preparePage (chip.ops m layout strength) enableEcc req st = .error broke) :
    broke.1 < 0 := by
  rw [preparePage] at breaks
  split at breaks
  next bad =>
    rw [← Except.error.inj breaks]
    by_cases le : m.ntargets ≤ req.pos.target
    · exact (if_pos le).trans_lt (by decide)
    · exact absurd (if_neg le) bad
  next =>
    dsimp only at breaks
    split at breaks
    next bad =>
      rw [← Except.error.inj breaks]
      exact lt_of_le_of_ne (chip.eccEnable_le _ _) bad
    next => cases breaks

theorem mtdReadPage_error {broke : ℤ × (chip.State × RequestBuffers) × EccReads}
    (breaks : mtdReadPage (chip.ops m layout strength) enableEcc req rd = .error broke) :
    broke.1 < 0 := by
  rw [mtdReadPage] at breaks
  split at breaks
  next first =>
    rw [← Except.error.inj breaks]
    exact preparePage_error first
  next =>
    dsimp only at breaks
    split at breaks
    next bad =>
      rw [← Except.error.inj breaks]
      exact bad.1
    next => cases breaks

/-- What a page that is read does: the cells stay, and unless it is counted as beyond repair its bytes
are in the buffer and the chip is not busy, if it was not before. -/
theorem mtdReadPage_ok (addressed : chip.Addressed m) (usable : m.Usable)
    (ran : mtdReadPage (chip.ops m layout strength) enableEcc req rd = .ok rd') :
    chip.cells rd'.1.1 = chip.cells rd.1.1 ∧ rd.2.failed ≤ rd'.2.failed ∧
      (chip.busy rd.1.1 = false → rd'.2.failed ≤ rd.2.failed → chip.busy rd'.1.1 = false ∧
        (req.Fits m → rd'.1.2.data = copyTo rd.1.2.data req.databuf req.datalen fun i =>
          chip.cells rd.1.1 (rowAddress m req.pos) (req.dataoffs + i))) := by
  rw [mtdReadPage] at ran
  split at ran
  next => cases ran
  next ready prepared =>
    obtain ⟨target, cells, busy, bufs⟩ := preparePage_ok prepared
    dsimp only at ran
    split at ran
    next => cases ran
    next readable =>
      rw [← Except.ok.inj ran, ← cells, ← bufs]
      refine ⟨spinandReadPage_cells .., ?_, fun idle counted => ?_⟩
      · rw [EccReads.read]
        split
        · exact Nat.le_succ _
        · exact Nat.le_refl _
      · have fine : ((chip.ops m layout strength).readPage req enableEcc ready).1 ≠ -ebadmsg := by
          intro bad
          rw [EccReads.read, if_pos bad] at counted
          exact Nat.not_succ_le_self _ counted
        have nonneg : 0 ≤ ((chip.ops m layout strength).readPage req enableEcc ready).1 :=
          Int.not_lt.mp fun negative => readable ⟨negative, fine⟩
        exact spinandReadPage_data addressed usable target strength enableEcc ready.2 ready.1
          (busy.trans idle) nonneg

theorem Served.failed_le (addressed : chip.Addressed m) (usable : m.Usable)
    (served : Served (mtdReadPage (chip.ops m layout strength) enableEcc) reqs k rd n rd') :
    rd.2.failed ≤ rd'.2.failed := by
  induction served with
  | refl => exact Nat.le_refl _
  | page read _ ih => exact (mtdReadPage_ok addressed usable read).2.1.trans ih

/-- What pages do that are read, to parts of the buffer of their own, none of them beyond repair. -/
theorem Served.bytes (addressed : chip.Addressed m) (usable : m.Usable)
    (idle : chip.busy rd.1.1 = false)
    (served : Served (mtdReadPage (chip.ops m layout strength) enableEcc) reqs k rd n rd')
    (fits : ∀ j, k ≤ j → j < n → (reqs j).Fits m)
    (apart : ∀ i j, k ≤ i → i < j → j < n → (reqs i).databuf + (reqs i).datalen ≤ (reqs j).databuf)
    (counted : rd'.2.failed ≤ rd.2.failed) :
    chip.cells rd'.1.1 = chip.cells rd.1.1 ∧
    (∀ j, k ≤ j → j < n → ∀ i, (reqs j).databuf ≤ i → i < (reqs j).databuf + (reqs j).datalen →
      rd'.1.2.data i = chip.cells rd.1.1 (rowAddress m (reqs j).pos)
        ((reqs j).dataoffs + (i - (reqs j).databuf))) ∧
    ∀ i, (∀ j, k ≤ j → j < n → ¬((reqs j).databuf ≤ i ∧ i < (reqs j).databuf + (reqs j).datalen)) →
      rd'.1.2.data i = rd.1.2.data i := by
  induction served with
  | refl => exact ⟨rfl, by omega, fun _ _ => rfl⟩
  | @page k n rd rd' rd'' read later ih =>
    obtain ⟨cells, before, bytes⟩ := mtdReadPage_ok addressed usable read
    have after := later.failed_le addressed usable
    obtain ⟨done, bytes⟩ := bytes idle (after.trans counted)
    obtain ⟨cells', each, rest⟩ := ih done (fun j le => fits j (Nat.le_of_succ_le le))
      (fun i j le => apart i j (Nat.le_of_succ_le le)) (counted.trans before)
    rw [cells] at each
    have here := bytes (fits k (Nat.le_refl k) later.le)
    refine ⟨cells'.trans cells, fun j le less i from' upTo => ?_, fun i outside => ?_⟩
    · rcases Nat.lt_or_eq_of_le le with next | rfl
      · exact each j next less i from' upTo
      · rw [rest i fun j next less' both => by
          have gap := apart k j (Nat.le_refl k) next less'
          omega, here, copyTo, if_pos ⟨from', upTo⟩]
    · rw [rest i fun j le => outside j (Nat.le_of_succ_le le), here, copyTo,
        if_neg (outside k (Nat.le_refl k) later.le)]

end

end

/-! ### A flash on which nothing goes wrong -/

/-- A SPI NAND on which nothing goes wrong: its cells and its caches. -/
def idealSpiNand (columnBits : ℕ) (plane : BitVec 24 → ℕ) : SpiNand where
  State := (BitVec 24 → ℕ → BitVec 8) × (ℕ → ℕ → BitVec 8)
  columnBits := columnBits
  plane := plane
  cells := Prod.fst
  cache := Prod.snd
  enabled _ := true
  busy _ := false
  progFailed _ := false
  writeEnable s := (0, s)
  pageRead row s := (0, s.1, Function.update s.2 (plane row) (s.1 row))
  readCache column n s := ((0, (List.range n).map fun i =>
    s.2 (column.toNat / 2 ^ columnBits) (column.toNat % 2 ^ columnBits + i)), s)
  progLoad reset column bytes s := (0, s.1, Function.update s.2 (column.toNat / 2 ^ columnBits) fun c =>
    if column.toNat % 2 ^ columnBits ≤ c ∧ c < column.toNat % 2 ^ columnBits + bytes.length then
      bytes.getD (c - column.toNat % 2 ^ columnBits) 0
    else if reset then 0xFF
    else s.2 (column.toNat / 2 ^ columnBits) c)
  progExec row s := (0, Function.update s.1 row fun c => s.1 row c &&& s.2 (plane row) c, s.2)
  readStatus s := ((0, 0), s)
  eccEnable _ s := (0, s)
  cells_writeEnable _ := rfl
  busy_writeEnable _ := rfl
  enabled_writeEnable _ _ _ := rfl
  cells_pageRead _ _ := rfl
  cache_pageRead _ _ _ _ := Function.update_self _ _ _
  cells_readCache _ _ _ := rfl
  busy_readCache _ _ _ := rfl
  readCache_eq _ _ _ _ _ _ := rfl
  cells_progLoad _ _ _ _ := rfl
  enabled_progLoad _ _ _ _ := rfl
  busy_progLoad _ _ _ _ := rfl
  cache_progLoad _ _ _ _ _ _ _ _ _ _ := by
    dsimp only
    rw [Function.update_self]
  cells_progExec_ne _ _ _ other := Function.update_of_ne other _ _
  cells_progExec _ _ _ _ _ _ := Function.update_self _ _ _
  cells_readStatus _ := rfl
  cache_readStatus _ := rfl
  progFailed_readStatus _ := rfl
  readStatus_progFailed _ _ := (by decide : (0 : BitVec 8).getLsbD 3 = false)
  busy_readStatus _ _ _ := rfl
  cells_eccEnable _ _ := rfl
  busy_eccEnable _ _ := rfl
  eccEnable_le _ _ := Int.le_refl 0
  pageRead_le _ _ := Int.le_refl 0
  readCache_le _ _ _ := Int.le_refl 0
  readStatus_le _ := Int.le_refl 0

section
variable {columnBits : ℕ} {plane : BitVec 24 → ℕ} {m : MemoryOrganization} {layout : List OobRegion}
  {strength : ℕ} {enableEcc : Bool} {req : NandPageIoReq}

theorem writeToCacheLoop_ideal (buf : ℕ → BitVec 8) (reset : Bool) (column : BitVec 16)
    (place nbytes : ℕ) (s : (idealSpiNand columnBits plane).State) :
    (writeToCacheLoop (idealSpiNand columnBits plane) buf reset column place nbytes s).1 = 0 := by
  induction nbytes using Nat.strongRecOn generalizing reset column place s with
  | ind nbytes ih =>
    rw [writeToCacheLoop]
    split
    next => rfl
    next some =>
      have sent : 0 < min nbytes FpgaQspi.maxDataCmdLen.toNat :=
        Nat.lt_min.mpr ⟨Nat.pos_of_ne_zero some, by decide⟩
      exact (congrArg Prod.fst (if_neg (not_not.mpr rfl))).trans
        (ih (nbytes - min nbytes FpgaQspi.maxDataCmdLen.toNat) (by omega) ..)

theorem spinandWait_ideal (s : (idealSpiNand columnBits plane).State) :
    spinandWait (idealSpiNand columnBits plane) s = ((0, 0), s) := by
  rw [spinandWait, spinandWaitLoop]
  exact (if_neg (not_not.mpr rfl)).trans (if_neg (show ¬(0 : BitVec 8).getLsbD 0 = true by decide))

theorem preparePage_ideal (target : req.pos.target < m.ntargets)
    (st : (idealSpiNand columnBits plane).State × RequestBuffers) :
    preparePage ((idealSpiNand columnBits plane).ops m layout strength) enableEcc req st = .ok st := by
  have selected : (((idealSpiNand columnBits plane).ops m layout strength).selectTarget
      req.pos.target st).1 = 0 :=
    if_neg (Nat.not_le.mpr target)
  rw [preparePage, if_neg (not_not.mpr selected)]
  exact if_neg (not_not.mpr rfl)

theorem mtdWritePage_ideal (target : req.pos.target < m.ntargets)
    (st : (idealSpiNand columnBits plane).State × RequestBuffers) :
    ∃ tt, mtdWritePage ((idealSpiNand columnBits plane).ops m layout strength) enableEcc req st =
      .ok tt := by
  have wrote : (spinandWritePage (idealSpiNand columnBits plane) m layout req st.2.data st.2.oob
      st.1).1 = 0 := by
    rw [spinandWritePage, if_neg (not_not.mpr
        (show ((idealSpiNand columnBits plane).writeEnable st.1).1 = 0 from rfl)),
      spinandProgramPage, if_neg (not_not.mpr (writeToCacheLoop_ideal ..))]
    dsimp only
    rw [if_neg (not_not.mpr (show ((idealSpiNand columnBits plane).progExec _ _).1 = 0 from rfl)),
      spinandWait_ideal]
    exact if_neg fun both => absurd both.2 (show ¬(0 : BitVec 8).getLsbD 3 = true by decide)
  rw [mtdWritePage, preparePage_ideal target]
  exact ⟨_, if_neg (not_not.mpr wrote)⟩

theorem spinandReadPage_ideal (eccEnabled : Bool) (bufs : RequestBuffers)
    (s : (idealSpiNand columnBits plane).State) :
    (spinandReadPage (idealSpiNand columnBits plane) m layout strength req eccEnabled bufs s).1 =
      0 := by
  have read (s : (idealSpiNand columnBits plane).State) :
      (readFromCacheLoop (idealSpiNand columnBits plane) m req s).1.1 = 0 := by
    rw [readFromCacheLoop]
    split <;> rfl
  rw [spinandReadPage, if_neg (not_not.mpr
    (show ((idealSpiNand columnBits plane).pageRead _ _).1 = 0 from rfl))]
  dsimp only
  rw [spinandWait_ideal, if_neg (show ¬(0 : ℤ) < 0 by decide), if_neg (not_not.mpr (read _))]
  dsimp only
  split
  · exact if_pos (by decide)
  · rfl

theorem mtdReadPage_ideal (target : req.pos.target < m.ntargets)
    (rd : ((idealSpiNand columnBits plane).State × RequestBuffers) × EccReads) :
    mtdReadPage ((idealSpiNand columnBits plane).ops m layout strength) enableEcc req rd =
      .ok ((spinandReadPage (idealSpiNand columnBits plane) m layout strength req enableEcc rd.1.2
        rd.1.1).2, rd.2.read 0) := by
  have ret : (((idealSpiNand columnBits plane).ops m layout strength).readPage req enableEcc
      rd.1).1 = 0 :=
    spinandReadPage_ideal ..
  rw [mtdReadPage, preparePage_ideal target]
  dsimp only
  rw [ret]
  rfl

/-- No page of a read needs a correction. -/
theorem Served.clean {reqs : ℕ → NandPageIoReq} {k n : ℕ}
    {rd rd' : ((idealSpiNand columnBits plane).State × RequestBuffers) × EccReads}
    (served : Served (mtdReadPage ((idealSpiNand columnBits plane).ops m layout strength) enableEcc)
      reqs k rd n rd')
    (targets : ∀ j < n, (reqs j).pos.target < m.ntargets) (start : rd.2 = ⟨0, false, 0, 0, 0⟩) :
    rd'.2 = ⟨0, false, 0, 0, 0⟩ := by
  induction served with
  | refl => exact start
  | page read later ih =>
    rw [mtdReadPage_ideal (targets _ later.le)] at read
    refine ih targets ?_
    rw [← Except.ok.inj read, start]
    rfl

end

/-- An organization with two planes, which take turns with the blocks -/
def twoPlanesMemorg : MemoryOrganization := ⟨1, 2048, 128, 64, 2048, 2, 1, 1⟩

theorem twoPlanesMemorg_usable : twoPlanesMemorg.Usable := by
  constructor <;> decide

def twoPlanes : SpiNand := idealSpiNand 12 fun row => row.toNat / 64 % 2

theorem twoPlanes_addressed : twoPlanes.Addressed twoPlanesMemorg where
  ntargets := rfl
  rows := by decide
  columns := by decide
  planes := by decide
  shift _ := by decide
  plane pos inside target := by
    show (rowAddress twoPlanesMemorg pos).toNat / 64 % 2 = pos.plane
    have lun : pos.lun = 0 := Nat.lt_one_iff.mp inside.lun
    have number := inside.pageNumber_div
    rw [toNat_rowAddress twoPlanesMemorg_usable inside (by decide),
      toNat_nanddevPosToRow_of_two_pow twoPlanesMemorg_usable inside (by decide)
        (show twoPlanesMemorg.pagesPerEraseblock = 2 ^ 6 from rfl)
        (show twoPlanesMemorg.eraseblocksPerLun = 2 ^ 11 from rfl) target, inside.plane]
    change _ / 64 = _ at number
    rw [number, blockNumber, lun, target]
    rfl

end Hss.Nand
