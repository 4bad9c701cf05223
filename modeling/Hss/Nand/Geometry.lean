import Hss.Lib.MixedRadix
import Mathlib.Data.BitVec
import Mathlib.Data.Int.Basic

/-! Where a byte of a NAND device is: offsets, and the positions that the driver walks. -/

namespace Hss.Nand

open MixedRadix

/-! ### `generic_fls` -/

/-- A step of `generic_fls`: a word whose bits of the mask are clear is shifted. -/
def flsStep (mask : BitVec 32) (shift : ℕ) (s : BitVec 32 × ℕ) : BitVec 32 × ℕ :=
  if s.1 &&& mask = 0 then (s.1 <<< shift, s.2 - shift) else s

/-- `generic_fls` -/
def genericFls (x : BitVec 32) : ℕ :=
  if x = 0 then 0
  else (flsStep 0x80000000 1 (flsStep 0xC0000000 2 (flsStep 0xF0000000 4 (flsStep 0xFF000000 8
    (flsStep 0xFFFF0000 16 (x, 32)))))).2

/-! ### Positions -/

/-- `struct nand_memory_organization` -/
structure MemoryOrganization where
  bitsPerCell : ℕ
  pagesize : ℕ
  oobsize : ℕ
  pagesPerEraseblock : ℕ
  eraseblocksPerLun : ℕ
  planesPerLun : ℕ
  lunsPerTarget : ℕ
  ntargets : ℕ
  deriving DecidableEq

/-- `struct nand_pos`, of which the target is counted in 32 bits where it can be more. -/
@[ext] structure NandPos where
  target : ℕ
  lun : ℕ
  plane : ℕ
  eraseblock : ℕ
  page : ℕ
  deriving DecidableEq

variable (m : MemoryOrganization)

/-- `nanddev_target_size` -/
def nanddevTargetSize : ℕ :=
  m.lunsPerTarget * m.eraseblocksPerLun * m.pagesPerEraseblock * m.pagesize

/-- `nanddev_neraseblocks`, which counts the pages of a target. -/
def nanddevNeraseblocks : ℕ := m.lunsPerTarget * m.eraseblocksPerLun * m.pagesPerEraseblock

/-- `nanddev_size` -/
def nanddevSize : ℕ := nanddevTargetSize m * m.ntargets

/-- `nanddev_offs_to_pos`: the offset in the page, and the position. -/
def nanddevOffsToPos (offs : ℕ) : ℕ × NandPos :=
  let pages := offs / m.pagesize
  let blocks := pages / m.pagesPerEraseblock
  let luns := blocks / m.eraseblocksPerLun
  let eraseblock := blocks % m.eraseblocksPerLun
  (offs % m.pagesize,
    { page := pages % m.pagesPerEraseblock
      eraseblock := eraseblock
      plane := eraseblock % m.planesPerLun
      lun := luns % m.lunsPerTarget
      target := luns / m.lunsPerTarget % 2 ^ 32 })

/-- `nanddev_pos_cmp` -/
def nanddevPosCmp (a b : NandPos) : ℤ :=
  if a.target ≠ b.target then if a.target < b.target then -1 else 1
  else if a.lun ≠ b.lun then if a.lun < b.lun then -1 else 1
  else if a.eraseblock ≠ b.eraseblock then if a.eraseblock < b.eraseblock then -1 else 1
  else if a.page ≠ b.page then if a.page < b.page then -1 else 1
  else 0

/-- The number of a block in the device. -/
def blockNumber (pos : NandPos) : ℕ :=
  pos.eraseblock + (pos.lun + pos.target * m.lunsPerTarget) * m.eraseblocksPerLun

/-- The number of a page in the device. -/
def pageNumber (pos : NandPos) : ℕ := pos.page + blockNumber m pos * m.pagesPerEraseblock

/-- `nanddev_pos_to_offs`, where pages are counted in 32 bits. -/
def nanddevPosToOffs (pos : NandPos) : ℕ := pageNumber m pos % 2 ^ 32 * m.pagesize

/-- `nanddev_pos_next_target` -/
def nanddevPosNextTarget (pos : NandPos) : NandPos :=
  { page := 0, plane := 0, eraseblock := 0, lun := 0, target := (pos.target + 1) % 2 ^ 32 }

/-- `nanddev_pos_next_lun` -/
def nanddevPosNextLun (pos : NandPos) : NandPos :=
  if m.lunsPerTarget - 1 ≤ pos.lun then nanddevPosNextTarget pos
  else { pos with lun := pos.lun + 1, page := 0, plane := 0, eraseblock := 0 }

/-- `nanddev_pos_next_eraseblock` -/
def nanddevPosNextEraseblock (pos : NandPos) : NandPos :=
  if m.eraseblocksPerLun - 1 ≤ pos.eraseblock then nanddevPosNextLun m pos
  else { pos with
    eraseblock := pos.eraseblock + 1
    page := 0
    plane := (pos.eraseblock + 1) % m.planesPerLun }

/-- `nanddev_pos_next_page` -/
def nanddevPosNextPage (pos : NandPos) : NandPos :=
  if m.pagesPerEraseblock - 1 ≤ pos.page then nanddevPosNextEraseblock m pos
  else { pos with page := pos.page + 1 }

/-- `rowconv.eraseblock_addr_shift` -/
def eraseblockAddrShift : ℕ := genericFls (BitVec.ofNat 32 m.pagesPerEraseblock - 1)

/-- `rowconv.lun_addr_shift` -/
def lunAddrShift : ℕ :=
  genericFls (BitVec.ofNat 32 m.eraseblocksPerLun - 1) + eraseblockAddrShift m

/-- `nanddev_pos_to_row` -/
def nanddevPosToRow (pos : NandPos) : BitVec 32 :=
  BitVec.ofNat 32 pos.lun <<< lunAddrShift m |||
    BitVec.ofNat 32 pos.eraseblock <<< eraseblockAddrShift m ||| BitVec.ofNat 32 pos.page

/-- `nanddev_bbt_pos_to_entry`, of 32 bits -/
def nanddevBbtPosToEntry (pos : NandPos) : ℕ := blockNumber m pos % 2 ^ 32

/-- The bits of a row. -/
def rowBits : ℕ :=
  (m.lunsPerTarget - 1).size + ((m.eraseblocksPerLun - 1).size + (m.pagesPerEraseblock - 1).size)

/-- The organization of the W25N01GV: `NAND_MEMORG(1, 2048, 64, 64, 1024, 1, 1, 1)`. -/
def w25n01gvMemorg : MemoryOrganization := ⟨1, 2048, 64, 64, 1024, 1, 1, 1⟩

/-- What `nanddev_init` checks, and that the pages are counted in 32 bits. -/
structure MemoryOrganization.Usable : Prop where
  pagesize : 0 < m.pagesize
  pagesPerEraseblock : 0 < m.pagesPerEraseblock
  eraseblocksPerLun : 0 < m.eraseblocksPerLun
  planesPerLun : 0 < m.planesPerLun
  lunsPerTarget : 0 < m.lunsPerTarget
  ntargets : 0 < m.ntargets
  pages : nanddevNeraseblocks m * m.ntargets < 2 ^ 32

/-- The position is one of the device, if its target is. -/
structure NandPos.Within (pos : NandPos) : Prop where
  target : pos.target < 2 ^ 32
  page : pos.page < m.pagesPerEraseblock
  eraseblock : pos.eraseblock < m.eraseblocksPerLun
  lun : pos.lun < m.lunsPerTarget
  plane : pos.plane = pos.eraseblock % m.planesPerLun

variable {m} {pos pos' : NandPos} {offs : ℕ}

/-! ### The last bit that is set -/

theorem and_shiftLeft_allOnes_eq_zero_iff (x : BitVec 32) (j : ℕ) :
    x &&& BitVec.allOnes 32 <<< j = 0 ↔ x.toNat < 2 ^ j := by
  constructor
  · intro clear
    refine Nat.lt_pow_two_of_testBit _ fun i le => ?_
    by_cases small : i < 32
    · have bit := congrArg (BitVec.getLsbD · i) clear
      rw [BitVec.getLsbD_and, BitVec.getLsbD_shiftLeft, BitVec.getLsbD_allOnes] at bit
      have here : x.getLsbD i = false := by
        simpa [small, Nat.not_lt.mpr le, show i - j < 32 by omega] using bit
      exact here
    · exact Nat.testBit_lt_two_pow (x.isLt.trans_le (Nat.pow_le_pow_right (by decide) (by omega)))
  · intro less
    refine BitVec.eq_of_getLsbD_eq fun i _ => ?_
    by_cases below : i < j
    · simp [below]
    · have bit : x.getLsbD i = false :=
        Nat.testBit_lt_two_pow (less.trans_le (Nat.pow_le_pow_right (by decide) (by omega)))
      simp [bit]

/-- A step finds the last set bit in the upper bits of the mask, where it was in twice as many. -/
theorem flsStep_spec {mask : BitVec 32} {k n : ℕ} {s : BitVec 32 × ℕ}
    (upper : mask = BitVec.allOnes 32 <<< (32 - k)) (le : k ≤ 32)
    (size : n + 32 = s.1.toNat.size + s.2) (positive : 0 < n) (high : 32 - 2 * k < s.1.toNat.size) :
    n + 32 = (flsStep mask k s).1.toNat.size + (flsStep mask k s).2 ∧
      32 - k < (flsStep mask k s).1.toNat.size := by
  subst upper
  rw [flsStep]
  split
  next clear =>
    have less := (and_shiftLeft_allOnes_eq_zero_iff _ _).mp clear
    have short := Nat.size_le.mpr less
    have nonzero : s.1.toNat ≠ 0 := fun zero => by
      rw [zero, Nat.size_zero] at high
      exact Nat.not_lt_zero _ high
    have shifted : (s.1 <<< k).toNat = s.1.toNat <<< k := by
      rw [BitVec.toNat_shiftLeft, Nat.shiftLeft_eq, Nat.mod_eq_of_lt]
      calc s.1.toNat * 2 ^ k < 2 ^ (32 - k) * 2 ^ k :=
            Nat.mul_lt_mul_of_pos_right less (Nat.two_pow_pos k)
        _ = 2 ^ 32 := by rw [← Nat.pow_add, Nat.sub_add_cancel le]
    dsimp only
    rw [shifted, Nat.size_shiftLeft nonzero]
    omega
  next set =>
    refine ⟨size, ?_⟩
    by_contra short
    exact set ((and_shiftLeft_allOnes_eq_zero_iff _ _).mpr (Nat.size_le.mp (Nat.le_of_not_lt short)))

/-- The number of bits up to the last one that is set. -/
theorem genericFls_eq (x : BitVec 32) : genericFls x = x.toNat.size := by
  rw [genericFls]
  split
  next zero =>
    rw [zero]
    rfl
  next nonzero =>
    have positive : 0 < x.toNat.size := by
      refine Nat.pos_of_ne_zero fun zero => nonzero (BitVec.eq_of_toNat_eq ?_)
      exact Nat.size_eq_zero.mp zero
    have start : x.toNat.size + 32 = (x, 32).1.toNat.size + (x, 32).2 := rfl
    -- half of the bits that are left are taken with each step
    obtain ⟨size, high⟩ := flsStep_spec (show (0xFFFF0000 : BitVec 32) = _ <<< (32 - 16) from rfl)
      (by decide) start positive positive
    generalize flsStep 0xFFFF0000 16 (x, 32) = s at size high
    obtain ⟨size, high⟩ := flsStep_spec (show (0xFF000000 : BitVec 32) = _ <<< (32 - 8) from rfl)
      (by decide) size positive high
    generalize flsStep 0xFF000000 8 s = s at size high
    obtain ⟨size, high⟩ := flsStep_spec (show (0xF0000000 : BitVec 32) = _ <<< (32 - 4) from rfl)
      (by decide) size positive high
    generalize flsStep 0xF0000000 4 s = s at size high
    obtain ⟨size, high⟩ := flsStep_spec (show (0xC0000000 : BitVec 32) = _ <<< (32 - 2) from rfl)
      (by decide) size positive high
    generalize flsStep 0xC0000000 2 s = s at size high
    obtain ⟨size, high⟩ := flsStep_spec (show (0x80000000 : BitVec 32) = _ <<< (32 - 1) from rfl)
      (by decide) size positive high
    have word := Nat.size_le.mpr (flsStep 0x80000000 1 s).1.isLt
    omega

/-! ### The number of a page -/

theorem blockNumber_eq_join : blockNumber m pos =
    join m.eraseblocksPerLun (join m.lunsPerTarget pos.target pos.lun) pos.eraseblock :=
  rfl

theorem pageNumber_eq_join : pageNumber m pos = join m.pagesPerEraseblock
    (join m.eraseblocksPerLun (join m.lunsPerTarget pos.target pos.lun) pos.eraseblock) pos.page :=
  rfl

theorem NandPos.Within.pageNumber_div (inside : pos.Within m) :
    pageNumber m pos / m.pagesPerEraseblock = blockNumber m pos :=
  join_div inside.page

/-- The target of a position is what is left of its page when the other numbers are taken off. -/
theorem NandPos.Within.pageNumber_target (inside : pos.Within m) :
    pageNumber m pos / m.pagesPerEraseblock / m.eraseblocksPerLun / m.lunsPerTarget = pos.target := by
  rw [inside.pageNumber_div, blockNumber_eq_join, join_div inside.eraseblock, join_div inside.lun]

theorem NandPos.Within.pageNumber_lt (inside : pos.Within m) (target : pos.target < m.ntargets) :
    pageNumber m pos < nanddevNeraseblocks m * m.ntargets := by
  have luns := join_lt_mul inside.lun target
  have blocks := join_lt_mul inside.eraseblock luns
  have pages := join_lt_mul inside.page blocks
  rw [← pageNumber_eq_join] at pages
  refine pages.trans_eq ?_
  rw [nanddevNeraseblocks, Nat.mul_comm _ m.ntargets, Nat.mul_assoc, Nat.mul_assoc, Nat.mul_assoc]

/-- Positions are compared as their pages are. -/
theorem NandPos.Within.posCmp (inside : pos.Within m) (inside' : pos'.Within m) :
    nanddevPosCmp pos pos' = Int.sign (pageNumber m pos - pageNumber m pos') := by
  have luns : join m.lunsPerTarget pos.target pos.lun = join m.lunsPerTarget pos'.target pos'.lun ↔ _ :=
    join_inj inside.lun inside'.lun
  have blocks : join m.eraseblocksPerLun (join m.lunsPerTarget pos.target pos.lun) pos.eraseblock =
      join m.eraseblocksPerLun (join m.lunsPerTarget pos'.target pos'.lun) pos'.eraseblock ↔ _ :=
    (join_inj inside.eraseblock inside'.eraseblock).trans (and_congr_left' luns)
  rw [pageNumber_eq_join, pageNumber_eq_join, sign_join inside.page inside'.page,
    sign_join inside.eraseblock inside'.eraseblock, sign_join inside.lun inside'.lun, nanddevPosCmp]
  simp only [sign_sub, ne_eq, blocks, luns]
  grind

theorem NandPos.Within.posCmp_le (inside : pos.Within m) (inside' : pos'.Within m) :
    nanddevPosCmp pos pos' ≤ 0 ↔ pageNumber m pos ≤ pageNumber m pos' := by
  rw [inside.posCmp inside', Int.sign_nonpos_iff]
  omega

/-! ### Offsets -/

theorem MemoryOrganization.Usable.ntargets_lt (usable : m.Usable) : m.ntargets < 2 ^ 32 := by
  have pages : 0 < nanddevNeraseblocks m := Nat.mul_pos
    (Nat.mul_pos usable.lunsPerTarget usable.eraseblocksPerLun) usable.pagesPerEraseblock
  exact (Nat.le_mul_of_pos_left _ pages).trans_lt usable.pages

/-- The position of a page -/
def posOfPage (m : MemoryOrganization) (page : ℕ) : NandPos where
  page := page % m.pagesPerEraseblock
  eraseblock := page / m.pagesPerEraseblock % m.eraseblocksPerLun
  plane := page / m.pagesPerEraseblock % m.eraseblocksPerLun % m.planesPerLun
  lun := page / m.pagesPerEraseblock / m.eraseblocksPerLun % m.lunsPerTarget
  target := page / m.pagesPerEraseblock / m.eraseblocksPerLun / m.lunsPerTarget % 2 ^ 32

theorem nanddevOffsToPos_snd (m : MemoryOrganization) (offs : ℕ) :
    (nanddevOffsToPos m offs).2 = posOfPage m (offs / m.pagesize) :=
  rfl

theorem within_posOfPage (usable : m.Usable) (page : ℕ) : (posOfPage m page).Within m :=
  ⟨Nat.mod_lt _ (by decide), Nat.mod_lt _ usable.pagesPerEraseblock,
    Nat.mod_lt _ usable.eraseblocksPerLun, Nat.mod_lt _ usable.lunsPerTarget, rfl⟩

theorem within_offsToPos (usable : m.Usable) (offs : ℕ) : (nanddevOffsToPos m offs).2.Within m :=
  within_posOfPage usable _

/-- A page of a target that the position counts -/
theorem pageNumber_posOfPage {page : ℕ}
    (counted : page / m.pagesPerEraseblock / m.eraseblocksPerLun / m.lunsPerTarget < 2 ^ 32) :
    pageNumber m (posOfPage m page) = page := by
  simp only [pageNumber_eq_join, posOfPage, Nat.mod_eq_of_lt counted, join_div_mod]

theorem NandPos.Within.posOfPage_pageNumber (inside : pos.Within m) :
    posOfPage m (pageNumber m pos) = pos := by
  have blocks := inside.pageNumber_div
  have luns : blockNumber m pos / m.eraseblocksPerLun = join m.lunsPerTarget pos.target pos.lun :=
    join_div inside.eraseblock
  have eraseblock : blockNumber m pos % m.eraseblocksPerLun = pos.eraseblock :=
    join_mod inside.eraseblock
  refine NandPos.ext ?_ ?_ ?_ ?_ ?_
  · exact (congrArg (· % 2 ^ 32) inside.pageNumber_target).trans (Nat.mod_eq_of_lt inside.target)
  · rw [posOfPage, blocks, luns, join_mod inside.lun]
  · rw [posOfPage, blocks, eraseblock, inside.plane]
  · rw [posOfPage, blocks, eraseblock]
  · exact join_mod inside.page

/-- The target of an offset, where no 32 bits are too few for it -/
theorem div_target_lt_iff (usable : m.Usable) {targets : ℕ} :
    offs / m.pagesize / m.pagesPerEraseblock / m.eraseblocksPerLun / m.lunsPerTarget < targets ↔
      offs < nanddevTargetSize m * targets := by
  rw [Nat.div_lt_iff_lt_mul usable.lunsPerTarget, Nat.div_lt_iff_lt_mul usable.eraseblocksPerLun,
    Nat.div_lt_iff_lt_mul usable.pagesPerEraseblock, Nat.div_lt_iff_lt_mul usable.pagesize,
    nanddevTargetSize, Nat.mul_comm _ targets]
  simp only [Nat.mul_assoc]

theorem pageNumber_offsToPos (usable : m.Usable) (counted : offs < nanddevTargetSize m * 2 ^ 32) :
    pageNumber m (nanddevOffsToPos m offs).2 = offs / m.pagesize :=
  pageNumber_posOfPage ((div_target_lt_iff usable).mpr counted)

theorem counted_of_lt (usable : m.Usable) (le : offs ≤ nanddevSize m) :
    offs < nanddevTargetSize m * 2 ^ 32 := by
  have positive : 0 < nanddevTargetSize m := Nat.mul_pos (Nat.mul_pos
    (Nat.mul_pos usable.lunsPerTarget usable.eraseblocksPerLun) usable.pagesPerEraseblock)
    usable.pagesize
  exact le.trans_lt (Nat.mul_lt_mul_of_pos_left usable.ntargets_lt positive)

theorem target_offsToPos (usable : m.Usable) (less : offs < nanddevSize m) :
    (nanddevOffsToPos m offs).2.target < m.ntargets :=
  (Nat.mod_le _ _).trans_lt ((div_target_lt_iff usable).mpr less)

theorem div_pagesize_lt (usable : m.Usable) (less : offs < nanddevSize m) :
    offs / m.pagesize < nanddevNeraseblocks m * m.ntargets := by
  rw [Nat.div_lt_iff_lt_mul usable.pagesize]
  refine less.trans_eq ?_
  rw [nanddevSize, nanddevTargetSize, nanddevNeraseblocks, Nat.mul_right_comm]

theorem posToOffs_offsToPos (usable : m.Usable) (less : offs < nanddevSize m) :
    nanddevPosToOffs m (nanddevOffsToPos m offs).2 = offs - offs % m.pagesize := by
  have page := (div_pagesize_lt usable less).trans usable.pages
  rw [nanddevPosToOffs, pageNumber_offsToPos usable (counted_of_lt usable less.le),
    Nat.mod_eq_of_lt page]
  exact Nat.div_mul_self_eq_mod_sub_self

theorem offsToPos_posToOffs (usable : m.Usable) (inside : pos.Within m)
    (target : pos.target < m.ntargets) :
    nanddevOffsToPos m (nanddevPosToOffs m pos) = (0, pos) := by
  have page := (inside.pageNumber_lt target).trans usable.pages
  have offs : nanddevPosToOffs m pos = pageNumber m pos * m.pagesize := by
    rw [nanddevPosToOffs, Nat.mod_eq_of_lt page]
  refine Prod.ext ?_ ?_
  · show nanddevPosToOffs m pos % m.pagesize = 0
    rw [offs, Nat.mul_mod_left]
  · rw [nanddevOffsToPos_snd, offs, Nat.mul_div_cancel _ usable.pagesize, inside.posOfPage_pageNumber]

/-- The entry of a block of the device is its number. -/
theorem NandPos.Within.entry (usable : m.Usable) (inside : pos.Within m)
    (target : pos.target < m.ntargets) : nanddevBbtPosToEntry m pos = blockNumber m pos := by
  have pages := (inside.pageNumber_lt target).trans usable.pages
  rw [nanddevBbtPosToEntry, Nat.mod_eq_of_lt]
  rw [← inside.pageNumber_div]
  exact (Nat.div_le_self _ _).trans_lt pages

/-! ### The walk -/

/-- The first page of the next LUN -/
theorem nextLun_posOfPage (usable : m.Usable) (page : ℕ) :
    nanddevPosNextLun m (posOfPage m page) = posOfPage m
      ((page / m.pagesPerEraseblock / m.eraseblocksPerLun + 1) * m.eraseblocksPerLun *
        m.pagesPerEraseblock) := by
  rw [nanddevPosNextLun]
  simp only [posOfPage, nanddevPosNextTarget, Nat.mul_mod_left,
    Nat.mul_div_cancel _ usable.pagesPerEraseblock, Nat.mul_div_cancel _ usable.eraseblocksPerLun,
    Nat.zero_mod, Nat.mod_add_mod]
  generalize page / m.pagesPerEraseblock / m.eraseblocksPerLun = lun
  have less := Nat.mod_lt lun usable.lunsPerTarget
  split
  next last =>
    rw [← succ_digits_carry (show lun % m.lunsPerTarget + 1 = m.lunsPerTarget by omega),
      Nat.mul_mod_left, Nat.mul_div_cancel _ usable.lunsPerTarget]
  next more =>
    obtain ⟨target, next⟩ := succ_digits (show lun % m.lunsPerTarget + 1 < m.lunsPerTarget by omega)
    rw [target, next]

/-- The first page of the next block -/
theorem nextEraseblock_posOfPage (usable : m.Usable) (page : ℕ) :
    nanddevPosNextEraseblock m (posOfPage m page) =
      posOfPage m ((page / m.pagesPerEraseblock + 1) * m.pagesPerEraseblock) := by
  rw [nanddevPosNextEraseblock, nextLun_posOfPage usable]
  simp only [posOfPage, Nat.mul_mod_left, Nat.mul_div_cancel _ usable.pagesPerEraseblock]
  generalize page / m.pagesPerEraseblock = block
  have less := Nat.mod_lt block usable.eraseblocksPerLun
  split
  next last =>
    have full : block % m.eraseblocksPerLun + 1 = m.eraseblocksPerLun := by omega
    have carry := succ_digits_carry full
    have first : (block + 1) % m.eraseblocksPerLun = 0 := by rw [← carry, Nat.mul_mod_left]
    rw [carry, first]
  next more =>
    obtain ⟨luns, next⟩ :=
      succ_digits (show block % m.eraseblocksPerLun + 1 < m.eraseblocksPerLun by omega)
    rw [luns, next]

theorem nextPage_posOfPage (usable : m.Usable) (page : ℕ) :
    nanddevPosNextPage m (posOfPage m page) = posOfPage m (page + 1) := by
  rw [nanddevPosNextPage, nextEraseblock_posOfPage usable]
  have less := Nat.mod_lt page usable.pagesPerEraseblock
  split
  next last =>
    change m.pagesPerEraseblock - 1 ≤ page % m.pagesPerEraseblock at last
    rw [succ_digits_carry (show page % m.pagesPerEraseblock + 1 = m.pagesPerEraseblock by omega)]
  next more =>
    change ¬m.pagesPerEraseblock - 1 ≤ page % m.pagesPerEraseblock at more
    obtain ⟨blocks, next⟩ :=
      succ_digits (show page % m.pagesPerEraseblock + 1 < m.pagesPerEraseblock by omega)
    simp only [posOfPage, blocks, next]

/-- The block after one of the device, or the first one after all of them -/
theorem NandPos.Within.nextEraseblock (usable : m.Usable) (inside : pos.Within m)
    (target : pos.target < m.ntargets) :
    (nanddevPosNextEraseblock m pos).Within m ∧
      blockNumber m (nanddevPosNextEraseblock m pos) = blockNumber m pos + 1 := by
  have next := nextEraseblock_posOfPage usable (pageNumber m pos)
  rw [inside.posOfPage_pageNumber, inside.pageNumber_div] at next
  have there := within_posOfPage usable ((blockNumber m pos + 1) * m.pagesPerEraseblock)
  rw [next]
  refine ⟨there, ?_⟩
  have block : (blockNumber m pos + 1) * m.pagesPerEraseblock / m.pagesPerEraseblock =
      blockNumber m pos + 1 :=
    Nat.mul_div_cancel _ usable.pagesPerEraseblock
  have last : blockNumber m pos / m.eraseblocksPerLun / m.lunsPerTarget = pos.target := by
    rw [← inside.pageNumber_div, inside.pageNumber_target]
  rw [← there.pageNumber_div, pageNumber_posOfPage, block]
  rw [block, Nat.div_div_eq_div_mul] at *
  have step : (blockNumber m pos + 1) / (m.eraseblocksPerLun * m.lunsPerTarget) ≤
      blockNumber m pos / (m.eraseblocksPerLun * m.lunsPerTarget) + 1 := by
    rw [Nat.succ_div]
    split <;> omega
  have few := usable.ntargets_lt
  omega

/-- The next page is the one a page size further on. -/
theorem nextPage_offsToPos (usable : m.Usable) (offs : ℕ) :
    nanddevPosNextPage m (nanddevOffsToPos m offs).2 = (nanddevOffsToPos m (offs + m.pagesize)).2 := by
  rw [nanddevOffsToPos_snd, nanddevOffsToPos_snd, nextPage_posOfPage usable,
    Nat.add_div_right _ usable.pagesize]

/-- Pages that are taken one after the other are the pages of an offset that goes on by their size. -/
theorem nextPage_iterate (usable : m.Usable) (offs n : ℕ) :
    (nanddevPosNextPage m)^[n] (nanddevOffsToPos m offs).2 =
      (nanddevOffsToPos m (offs + n * m.pagesize)).2 := by
  induction n generalizing offs with
  | zero => simp
  | succ n ih =>
    rw [Function.iterate_succ_apply, nextPage_offsToPos usable, ih, Nat.succ_mul]
    congr 2
    omega

/-- Positions stand for offsets: they are in the order of the pages as long as their targets are
counted, a walk over pages goes on by their size, also past the end of a block, a LUN or a target, and
each way back gives what it came from. -/
theorem nanddev_positions (usable : m.Usable) :
    (∀ offs < nanddevTargetSize m * 2 ^ 32, ∀ offs' < nanddevTargetSize m * 2 ^ 32,
      nanddevPosCmp (nanddevOffsToPos m offs).2 (nanddevOffsToPos m offs').2 =
        Int.sign ((offs / m.pagesize : ℕ) - (offs' / m.pagesize : ℕ))) ∧
    (∀ offs n, (nanddevPosNextPage m)^[n] (nanddevOffsToPos m offs).2 =
      (nanddevOffsToPos m (offs + n * m.pagesize)).2) ∧
    (∀ offs < nanddevSize m, nanddevPosToOffs m (nanddevOffsToPos m offs).2 +
      (nanddevOffsToPos m offs).1 = offs) ∧
    ∀ pos : NandPos, pos.Within m → pos.target < m.ntargets →
      nanddevOffsToPos m (nanddevPosToOffs m pos) = (0, pos) := by
  refine ⟨fun offs counted offs' counted' => ?_, nextPage_iterate usable, fun offs less => ?_,
    fun pos inside target => offsToPos_posToOffs usable inside target⟩
  · rw [(within_offsToPos usable offs).posCmp (within_offsToPos usable offs'),
      pageNumber_offsToPos usable counted, pageNumber_offsToPos usable counted']
  · rw [posToOffs_offsToPos usable less]
    exact Nat.sub_add_cancel (Nat.mod_le _ _)

theorem w25n01gvMemorg_usable : w25n01gvMemorg.Usable := by
  constructor <;> decide

theorem nanddev_positions_w25n01gv :
    (nanddevPosNextPage w25n01gvMemorg)^[100] (nanddevOffsToPos w25n01gvMemorg 130000).2 =
      (nanddevOffsToPos w25n01gvMemorg (130000 + 100 * 2048)).2 :=
  (nanddev_positions w25n01gvMemorg_usable).2.1 130000 100

/-! ### Rows -/

theorem lt_two_pow_size {i n : ℕ} (less : i < n) : i < 2 ^ (n - 1).size :=
  (Nat.le_sub_one_of_lt less).trans_lt (Nat.lt_size_self _)

theorem toNat_ofNat_sub_one {n : ℕ} (positive : 0 < n) (less : n < 2 ^ 32) :
    (BitVec.ofNat 32 n - 1).toNat = n - 1 := by
  rw [BitVec.toNat_sub, BitVec.toNat_ofNat, Nat.mod_eq_of_lt less]
  show (2 ^ 32 - 1 + n) % 2 ^ 32 = n - 1
  omega

theorem MemoryOrganization.Usable.counts (usable : m.Usable) : m.pagesPerEraseblock < 2 ^ 32 ∧
    m.eraseblocksPerLun < 2 ^ 32 ∧ m.lunsPerTarget < 2 ^ 32 := by
  have pages : m.lunsPerTarget * m.eraseblocksPerLun * m.pagesPerEraseblock < 2 ^ 32 :=
    (Nat.le_mul_of_pos_right _ usable.ntargets).trans_lt usable.pages
  have blocks := (Nat.le_mul_of_pos_right _ usable.pagesPerEraseblock).trans_lt pages
  have both := Nat.mul_pos usable.lunsPerTarget usable.eraseblocksPerLun
  exact ⟨(Nat.le_mul_of_pos_left _ both).trans_lt pages,
    (Nat.le_mul_of_pos_left _ usable.lunsPerTarget).trans_lt blocks,
    (Nat.le_mul_of_pos_right _ usable.eraseblocksPerLun).trans_lt blocks⟩

theorem toNat_nanddevPosToRow (usable : m.Usable) (inside : pos.Within m) (fits : rowBits m ≤ 32) :
    (nanddevPosToRow m pos).toNat = join (2 ^ (m.pagesPerEraseblock - 1).size)
      (join (2 ^ (m.eraseblocksPerLun - 1).size) pos.lun pos.eraseblock) pos.page := by
  obtain ⟨pages, blocks, luns⟩ := usable.counts
  have page := lt_two_pow_size inside.page
  have eraseblock := lt_two_pow_size inside.eraseblock
  have lun := lt_two_pow_size inside.lun
  rw [rowBits] at fits
  -- nothing is shifted out
  have shifted {n k j : ℕ} (less : n < 2 ^ k) (fits : k + j ≤ 32) : n <<< j < 2 ^ 32 := by
    rw [Nat.shiftLeft_eq]
    calc n * 2 ^ j < 2 ^ k * 2 ^ j := Nat.mul_lt_mul_of_pos_right less (Nat.two_pow_pos j)
      _ = 2 ^ (k + j) := (Nat.pow_add _ _ _).symm
      _ ≤ 2 ^ 32 := Nat.pow_le_pow_right (by decide) fits
  rw [nanddevPosToRow, lunAddrShift, eraseblockAddrShift, genericFls_eq, genericFls_eq,
    toNat_ofNat_sub_one usable.pagesPerEraseblock pages,
    toNat_ofNat_sub_one usable.eraseblocksPerLun blocks, join_two_pow page, join_two_pow eraseblock,
    BitVec.toNat_or, BitVec.toNat_or, BitVec.toNat_shiftLeft, BitVec.toNat_shiftLeft,
    BitVec.toNat_ofNat, BitVec.toNat_ofNat, BitVec.toNat_ofNat,
    Nat.mod_eq_of_lt (inside.page.trans pages), Nat.mod_eq_of_lt (inside.eraseblock.trans blocks),
    Nat.mod_eq_of_lt (inside.lun.trans luns), Nat.mod_eq_of_lt (shifted lun fits),
    Nat.mod_eq_of_lt (shifted eraseblock (by omega)), Nat.shiftLeft_or_distrib, ← Nat.shiftLeft_add]

/-- No two positions of a target are at one row. -/
theorem nanddevPosToRow_inj (usable : m.Usable) (fits : rowBits m ≤ 32) (inside : pos.Within m)
    (inside' : pos'.Within m) (target : pos.target = pos'.target) :
    nanddevPosToRow m pos = nanddevPosToRow m pos' ↔ pos = pos' := by
  rw [← BitVec.toNat_inj, toNat_nanddevPosToRow usable inside fits,
    toNat_nanddevPosToRow usable inside' fits,
    join_inj (lt_two_pow_size inside.page) (lt_two_pow_size inside'.page),
    join_inj (lt_two_pow_size inside.eraseblock) (lt_two_pow_size inside'.eraseblock)]
  constructor
  · rintro ⟨⟨lun, eraseblock⟩, page⟩
    refine NandPos.ext target lun ?_ eraseblock page
    rw [inside.plane, inside'.plane, eraseblock]
  · rintro rfl
    exact ⟨⟨rfl, rfl⟩, rfl⟩

/-- Where the counts are powers of two, a row is the number of its page in the target. -/
theorem toNat_nanddevPosToRow_of_two_pow (usable : m.Usable) (inside : pos.Within m)
    (fits : rowBits m ≤ 32) {a b : ℕ} (pages : m.pagesPerEraseblock = 2 ^ a)
    (blocks : m.eraseblocksPerLun = 2 ^ b) (target : pos.target = 0) :
    (nanddevPosToRow m pos).toNat = pageNumber m pos := by
  have size (k : ℕ) : (2 ^ k - 1).size = k := by
    refine Nat.le_antisymm (Nat.size_le.mpr (Nat.sub_lt (Nat.two_pow_pos k) Nat.one_pos)) ?_
    by_contra short
    have less := Nat.size_le.mp (Nat.le_pred_of_lt (Nat.not_le.mp short))
    have half : 2 ^ k = 2 * 2 ^ (k - 1) := by
      rw [← Nat.pow_succ', Nat.succ_eq_add_one, Nat.sub_add_cancel (by omega)]
    have positive := Nat.two_pow_pos (k - 1)
    rw [Nat.pred_eq_sub_one] at less
    omega
  rw [toNat_nanddevPosToRow usable inside fits, pageNumber_eq_join, pages, blocks, size, size, target]
  simp [join]

end Hss.Nand
