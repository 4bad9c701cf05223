import Hss.Lib.Fuel
import Hss.Nand.Core

/-! Requests for the bytes of a NAND device, which are served page by page. -/

namespace Hss.Nand

open Fuel

def ebadmsg : ℤ := 77
def euclean : ℤ := 117

/-- The modes of a request -/
inductive MtdOpsMode
  | placeOob
  | autoOob
  | raw
  deriving DecidableEq

/-- `struct mtd_oob_ops`, without its buffers. -/
structure MtdOobOps where
  mode : MtdOpsMode
  len : ℕ
  ooblen : ℕ
  ooboffs : BitVec 32

/-- `struct nand_page_io_req`, with offsets into the buffers of the request. -/
@[ext] structure NandPageIoReq where
  mode : MtdOpsMode
  pos : NandPos
  dataoffs : ℕ
  datalen : ℕ
  databuf : ℕ
  ooboffs : ℕ
  ooblen : ℕ
  oobbuf : ℕ
  deriving DecidableEq

/-- `struct nand_io_iter` -/
structure NandIoIter where
  req : NandPageIoReq
  oobbytesPerPage : ℕ
  dataleft : ℕ
  oobleft : ℕ

/-- What the driver does with a page, over the states of the chip and of the buffers. -/
structure SpinandOps (σ : Type) where
  selectTarget : ℕ → σ → ℤ × σ
  eccEnable : Bool → σ → ℤ × σ
  readPage : NandPageIoReq → Bool → σ → ℤ × σ
  writePage : NandPageIoReq → σ → ℤ × σ

/-- How far a request is: `retlen`, `oobretlen`, and the chip. -/
structure IoProgress (σ : Type) where
  retlen : ℕ
  oobretlen : ℕ
  chip : σ

/-- The variables of `spinand_mtd_read` with what it adds to `ecc_stats`. -/
structure EccReads where
  ret : ℤ
  eccFailed : Bool
  maxBitflips : ℕ
  failed : ℕ
  corrected : ℕ
  deriving DecidableEq

/-- A page of `spinand_mtd_read`, by the result of its read. -/
def EccReads.read (reads : EccReads) (ret : ℤ) : EccReads :=
  if ret = -ebadmsg then { reads with ret := 0, eccFailed := true, failed := reads.failed + 1 }
  else
    { reads with
      ret := ret
      corrected := reads.corrected + ret.toNat
      maxBitflips := max reads.maxBitflips ret.toNat }

section
variable {σ : Type} (m : MemoryOrganization) (ops : SpinandOps σ)

/-- `mtd_div_by_ws` -/
def mtdDivByWs (sz : ℕ) : BitVec 32 := BitVec.ofNat 32 (sz / m.pagesize)

/-- `maxooblen` of `mtd_check_oob_ops`, a difference of type `size_t`. -/
def maxooblen (offs : ℕ) (ooboffs : BitVec 32) : BitVec 64 :=
  (mtdDivByWs m (nanddevSize m) - mtdDivByWs m offs).setWidth 64 * BitVec.ofNat 64 m.oobsize -
    ooboffs.setWidth 64

/-- `mtd_check_oob_ops`, of a request with both of its buffers or a length of zero.  An offset with its
first bit set is negative. -/
def mtdCheckOobOps (offs : ℕ) (req : MtdOobOps) : ℤ :=
  if 2 ^ 63 ≤ offs ∨ nanddevSize m < (offs + req.len) % 2 ^ 64 then -einval
  else if req.ooblen = 0 then 0
  else if m.oobsize ≤ req.ooboffs.toNat then -einval
  else if (maxooblen m offs req.ooboffs).toNat < req.ooblen then -einval
  else 0

/-- `nanddev_io_iter_init`.  What is left is counted in 32 bits. -/
def nanddevIoIterInit (offs : ℕ) (req : MtdOobOps) : NandIoIter :=
  let start := nanddevOffsToPos m offs
  let dataleft := req.len % 2 ^ 32
  let oobleft := req.ooblen % 2 ^ 32
  { req :=
      { mode := req.mode
        pos := start.2
        dataoffs := start.1
        datalen := min (m.pagesize - start.1) dataleft
        databuf := 0
        ooboffs := req.ooboffs.toNat
        ooblen := min (BitVec.ofNat 32 m.oobsize - req.ooboffs).toNat oobleft
        oobbuf := 0 }
    oobbytesPerPage := m.oobsize
    dataleft := dataleft
    oobleft := oobleft }

/-- `nanddev_io_iter_next_page` -/
def nanddevIoIterNextPage (iter : NandIoIter) : NandIoIter :=
  let dataleft := iter.dataleft - iter.req.datalen
  let oobleft := iter.oobleft - iter.req.ooblen
  { iter with
    req :=
      { mode := iter.req.mode
        pos := nanddevPosNextPage m iter.req.pos
        dataoffs := 0
        datalen := min m.pagesize dataleft
        databuf := iter.req.databuf + iter.req.datalen
        ooboffs := 0
        ooblen := min iter.oobbytesPerPage oobleft
        oobbuf := iter.req.oobbuf + iter.req.ooblen }
    dataleft := dataleft
    oobleft := oobleft }

/-- `nanddev_io_iter_end` -/
def nanddevIoIterEnd (iter : NandIoIter) : Bool := iter.dataleft = 0 && iter.oobleft = 0

/-- The loop of `nanddev_io_for_each_page`, which a page can break with a result. -/
def nanddevIoForEachPage (page : NandPageIoReq → σ → Except (ℤ × σ) σ) :
    ℕ → NandIoIter → IoProgress σ → Result (Option ℤ × IoProgress σ)
  | 0, _, _ => .error .running
  | fuel + 1, iter, s =>
      if nanddevIoIterEnd iter then .ok (none, s)
      else
        match page iter.req s.chip with
        | .error broke => .ok (some broke.1, { s with chip := broke.2 })
        | .ok chip =>
            nanddevIoForEachPage page fuel (nanddevIoIterNextPage m iter)
              ⟨s.retlen + iter.req.datalen, s.oobretlen + iter.req.ooblen, chip⟩

/-- `spinand_select_target` and `spinand_ecc_enable`, before a page. -/
def preparePage (enableEcc : Bool) (req : NandPageIoReq) (chip : σ) : Except (ℤ × σ) σ :=
  let target := ops.selectTarget req.pos.target chip
  if target.1 ≠ 0 then .error target
  else
    let ecc := ops.eccEnable enableEcc target.2
    if ecc.1 ≠ 0 then .error ecc else .ok ecc.2

/-- A page of `spinand_mtd_write` -/
def mtdWritePage (enableEcc : Bool) (req : NandPageIoReq) (chip : σ) : Except (ℤ × σ) σ :=
  match preparePage ops enableEcc req chip with
  | .error broke => .error broke
  | .ok chip =>
      let page := ops.writePage req chip
      if page.1 ≠ 0 then .error page else .ok page.2

/-- A page of `spinand_mtd_read` -/
def mtdReadPage (enableEcc : Bool) (req : NandPageIoReq) (s : σ × EccReads) :
    Except (ℤ × σ × EccReads) (σ × EccReads) :=
  match preparePage ops enableEcc req s.1 with
  | .error broke => .error (broke.1, broke.2, s.2)
  | .ok chip =>
      let page := ops.readPage req enableEcc chip
      if page.1 < 0 ∧ page.1 ≠ -ebadmsg then .error (page.1, page.2, s.2)
      else .ok (page.2, s.2.read page.1)

/-- `spinand_mtd_write`; `ooblayout` says that the device has one. -/
def spinandMtdWrite (ooblayout : Bool) (offs : ℕ) (req : MtdOobOps) (fuel : ℕ) (chip : σ) :
    Result (ℤ × IoProgress σ) :=
  (nanddevIoForEachPage m (mtdWritePage ops (req.mode ≠ .raw && ooblayout)) fuel
    (nanddevIoIterInit m offs req) ⟨0, 0, chip⟩).map fun done => (done.1.getD 0, done.2)

/-- What `spinand_mtd_read` returns after its loop. -/
def EccReads.result (reads : EccReads) : ℤ :=
  if reads.eccFailed && reads.ret = 0 then -ebadmsg
  else if reads.ret ≠ 0 then reads.ret
  else reads.maxBitflips

/-- `spinand_mtd_read` -/
def spinandMtdRead (ooblayout : Bool) (offs : ℕ) (req : MtdOobOps) (fuel : ℕ) (chip : σ) :
    Result (ℤ × IoProgress (σ × EccReads)) :=
  (nanddevIoForEachPage m (mtdReadPage ops (req.mode ≠ .raw && ooblayout)) fuel
    (nanddevIoIterInit m offs req) ⟨0, 0, chip, ⟨0, false, 0, 0, 0⟩⟩).map fun done =>
      (done.1.getD done.2.chip.2.result, done.2)

/-- `mtd_write_oob` -/
def mtdWriteOob (ooblayout : Bool) (offs : ℕ) (req : MtdOobOps) (fuel : ℕ) (chip : σ) :
    Result (ℤ × IoProgress σ) :=
  if mtdCheckOobOps m offs req ≠ 0 then .ok (mtdCheckOobOps m offs req, ⟨0, 0, chip⟩)
  else spinandMtdWrite m ops ooblayout offs req fuel chip

/-- What `mtd_read_oob` makes of what the driver returns. -/
def bitflipResult (eccStrength : ℕ) (bitflipThreshold ret : ℤ) : ℤ :=
  if ret < 0 then ret
  else if eccStrength = 0 then 0
  else if bitflipThreshold ≤ ret then -euclean
  else 0

/-- `mtd_read_oob`, on a device with these limits in its `mtd_info`. -/
def mtdReadOob (eccStrength : ℕ) (bitflipThreshold : ℤ) (ooblayout : Bool) (offs : ℕ) (req : MtdOobOps)
    (fuel : ℕ) (chip : σ) : Result (ℤ × IoProgress (σ × EccReads)) :=
  if mtdCheckOobOps m offs req ≠ 0 then
    .ok (mtdCheckOobOps m offs req, ⟨0, 0, chip, ⟨0, false, 0, 0, 0⟩⟩)
  else
    (spinandMtdRead m ops ooblayout offs req fuel chip).map fun done =>
      (bitflipResult eccStrength bitflipThreshold done.1, done.2)

end

section
variable {σ : Type} {m : MemoryOrganization} {ops : SpinandOps σ} {offs k n : ℕ} {req : MtdOobOps}

/-- Of so many bytes, those before place `k`, where each place has the size and the first one begins
later. -/
def bytesBefore (total size start k : ℕ) : ℕ := min total (k * size - start)

theorem bytesBefore_zero (total size start : ℕ) : bytesBefore total size start 0 = 0 := by
  simp [bytesBefore]

theorem bytesBefore_le_succ (total size start k : ℕ) :
    bytesBefore total size start k ≤ bytesBefore total size start (k + 1) := by
  rw [bytesBefore, bytesBefore, Nat.succ_mul]
  omega

theorem bytesBefore_mono (total size start : ℕ) {k j : ℕ} (le : k ≤ j) :
    bytesBefore total size start k ≤ bytesBefore total size start j := by
  have more := Nat.mul_le_mul_right size le
  rw [bytesBefore, bytesBefore]
  omega

/-- The bytes at place `k` -/
theorem bytesBefore_succ_sub {total size start : ℕ} (inside : total ≠ 0 → start ≤ size) (k : ℕ) :
    bytesBefore total size start (k + 1) - bytesBefore total size start k =
      min (size - if k = 0 then start else 0) (total - bytesBefore total size start k) := by
  rw [bytesBefore, bytesBefore]
  by_cases none : total = 0
  · simp [none]
  have le := inside none
  cases k with
  | zero => simp [Nat.min_comm]
  | succ k =>
    have more : size ≤ (k + 1) * size := Nat.le_mul_of_pos_left size (Nat.succ_pos k)
    rw [Nat.succ_mul (k + 1), if_neg (Nat.succ_ne_zero k)]
    omega

/-- The bytes of a request that are on pages before page `k` of it. -/
def dataBefore (m : MemoryOrganization) (offs : ℕ) (req : MtdOobOps) : ℕ → ℕ :=
  bytesBefore req.len m.pagesize (offs % m.pagesize)

/-- The spare bytes that are on pages before page `k`. -/
def oobBefore (m : MemoryOrganization) (req : MtdOobOps) : ℕ → ℕ :=
  bytesBefore req.ooblen m.oobsize req.ooboffs.toNat

/-- What is to be done with page `k` of a request. -/
def requestPage (m : MemoryOrganization) (offs : ℕ) (req : MtdOobOps) (k : ℕ) : NandPageIoReq where
  mode := req.mode
  pos := (nanddevOffsToPos m (offs + k * m.pagesize)).2
  dataoffs := if k = 0 then offs % m.pagesize else 0
  datalen := dataBefore m offs req (k + 1) - dataBefore m offs req k
  databuf := dataBefore m offs req k
  ooboffs := if k = 0 then req.ooboffs.toNat else 0
  ooblen := oobBefore m req (k + 1) - oobBefore m req k
  oobbuf := oobBefore m req k

/-- The iterator at page `k` -/
def requestIter (m : MemoryOrganization) (offs : ℕ) (req : MtdOobOps) (k : ℕ) : NandIoIter where
  req := requestPage m offs req k
  oobbytesPerPage := m.oobsize
  dataleft := req.len - dataBefore m offs req k
  oobleft := req.ooblen - oobBefore m req k

/-- A request that the counters of an iterator hold, with its spare bytes beginning in those of a
page. -/
structure MtdOobOps.Sound (m : MemoryOrganization) (req : MtdOobOps) : Prop where
  len : req.len < 2 ^ 32
  ooblen : req.ooblen < 2 ^ 32
  ooboffs : req.ooblen ≠ 0 → req.ooboffs.toNat < m.oobsize
  oobsize : m.oobsize < 2 ^ 32

theorem MtdOobOps.Sound.of_check (len : req.len < 2 ^ 32) (ooblen : req.ooblen < 2 ^ 32)
    (oobsize : m.oobsize < 2 ^ 32) (passes : mtdCheckOobOps m offs req = 0) : req.Sound m := by
  refine ⟨len, ooblen, fun some => ?_, oobsize⟩
  by_contra outside
  rw [mtdCheckOobOps, if_neg some, if_pos (Nat.le_of_not_lt outside)] at passes
  split at passes <;> cases passes

theorem dataBefore_succ_sub (usable : m.Usable) (k : ℕ) :
    dataBefore m offs req (k + 1) - dataBefore m offs req k =
      min (m.pagesize - if k = 0 then offs % m.pagesize else 0) (req.len - dataBefore m offs req k) :=
  bytesBefore_succ_sub (fun _ => (Nat.mod_lt offs usable.pagesize).le) k

theorem MtdOobOps.Sound.oobBefore_succ_sub (sound : req.Sound m) (k : ℕ) :
    oobBefore m req (k + 1) - oobBefore m req k =
      min (m.oobsize - if k = 0 then req.ooboffs.toNat else 0) (req.ooblen - oobBefore m req k) :=
  bytesBefore_succ_sub (fun some => (sound.ooboffs some).le) k

theorem ioIterInit_eq (usable : m.Usable) (sound : req.Sound m) :
    nanddevIoIterInit m offs req = requestIter m offs req 0 := by
  have oob : min (BitVec.ofNat 32 m.oobsize - req.ooboffs).toNat req.ooblen =
      min (m.oobsize - req.ooboffs.toNat) req.ooblen := by
    by_cases none : req.ooblen = 0
    · simp [none]
    have size : (BitVec.ofNat 32 m.oobsize).toNat = m.oobsize := by
      rw [BitVec.toNat_ofNat, Nat.mod_eq_of_lt sound.oobsize]
    rw [BitVec.toNat_sub_of_le, size]
    rw [BitVec.le_def, size]
    exact (sound.ooboffs none).le
  simp only [nanddevIoIterInit, requestIter, requestPage, dataBefore_succ_sub usable,
    sound.oobBefore_succ_sub, Nat.mod_eq_of_lt sound.len, Nat.mod_eq_of_lt sound.ooblen, oob, if_true]
  simp only [dataBefore, oobBefore, bytesBefore_zero, Nat.sub_zero, Nat.zero_mul, Nat.add_zero]
  rfl

theorem ioIterNextPage_eq (usable : m.Usable) (sound : req.Sound m) (k : ℕ) :
    nanddevIoIterNextPage m (requestIter m offs req k) = requestIter m offs req (k + 1) := by
  have data : dataBefore m offs req k ≤ dataBefore m offs req (k + 1) := bytesBefore_le_succ ..
  have oob : oobBefore m req k ≤ oobBefore m req (k + 1) := bytesBefore_le_succ ..
  have dataleft : req.len - dataBefore m offs req k -
      (dataBefore m offs req (k + 1) - dataBefore m offs req k) =
        req.len - dataBefore m offs req (k + 1) := by
    rw [Nat.sub_sub, Nat.add_sub_of_le data]
  have oobleft : req.ooblen - oobBefore m req k - (oobBefore m req (k + 1) - oobBefore m req k) =
      req.ooblen - oobBefore m req (k + 1) := by
    rw [Nat.sub_sub, Nat.add_sub_of_le oob]
  have pos : offs + k * m.pagesize + m.pagesize = offs + (k + 1) * m.pagesize := by
    rw [Nat.succ_mul, Nat.add_assoc]
  have next : ∀ a b : ℕ, (if k + 1 = 0 then a else b) = b := fun a b => if_neg (Nat.succ_ne_zero k)
  simp only [nanddevIoIterNextPage, requestIter, requestPage, nextPage_offsToPos usable, pos, dataleft,
    oobleft, Nat.add_sub_of_le data, Nat.add_sub_of_le oob, dataBefore_succ_sub usable (k + 1),
    sound.oobBefore_succ_sub (k + 1), next, Nat.sub_zero]

/-- Pages of a request are served one after the other, from page `k` on, up to page `n`. -/
inductive Served (page : NandPageIoReq → σ → Except (ℤ × σ) σ) (reqs : ℕ → NandPageIoReq) :
    ℕ → σ → ℕ → σ → Prop
  | refl (k : ℕ) (s : σ) : Served page reqs k s k s
  | page {k n : ℕ} {s s' t : σ} (served : page (reqs k) s = .ok s')
      (later : Served page reqs (k + 1) s' n t) : Served page reqs k s n t

theorem Served.le {page : NandPageIoReq → σ → Except (ℤ × σ) σ} {reqs : ℕ → NandPageIoReq} {s t : σ}
    (served : Served page reqs k s n t) : k ≤ n := by
  induction served with
  | refl => exact Nat.le_refl _
  | page _ _ ih => exact Nat.le_of_succ_le ih

theorem ioIterEnd_iff : nanddevIoIterEnd (requestIter m offs req k) = true ↔
    dataBefore m offs req k = req.len ∧ oobBefore m req k = req.ooblen := by
  have data : dataBefore m offs req k ≤ req.len := Nat.min_le_left ..
  have oob : oobBefore m req k ≤ req.ooblen := Nat.min_le_left ..
  rw [nanddevIoIterEnd, Bool.and_eq_true, decide_eq_true_iff, decide_eq_true_iff]
  show req.len - _ = 0 ∧ req.ooblen - _ = 0 ↔ _
  omega

/-- What a loop over the pages of a request comes to: the pages before page `n` are served, which is
behind the last one, or breaks the loop. -/
inductive PagesDone (page : NandPageIoReq → σ → Except (ℤ × σ) σ) (m : MemoryOrganization) (offs : ℕ)
    (req : MtdOobOps) (n : ℕ) (s : σ) : Option ℤ → σ → Prop
  | all (done : nanddevIoIterEnd (requestIter m offs req n) = true) :
      PagesDone page m offs req n s none s
  | broke {ret : ℤ} {t : σ} (breaks : page (requestPage m offs req n) s = .error (ret, t)) :
      PagesDone page m offs req n s (some ret) t

theorem nanddevIoForEachPage_ok {page : NandPageIoReq → σ → Except (ℤ × σ) σ} {iter : NandIoIter}
    {s : IoProgress σ} {chip : σ} (more : ¬nanddevIoIterEnd iter = true)
    (served : page iter.req s.chip = .ok chip) (fuel : ℕ) :
    nanddevIoForEachPage m page (fuel + 1) iter s =
      nanddevIoForEachPage m page fuel (nanddevIoIterNextPage m iter)
        ⟨s.retlen + iter.req.datalen, s.oobretlen + iter.req.ooblen, chip⟩ := by
  rw [nanddevIoForEachPage, if_neg more, served]

theorem nanddevIoForEachPage_error {page : NandPageIoReq → σ → Except (ℤ × σ) σ} {iter : NandIoIter}
    {s : IoProgress σ} {broke : ℤ × σ} (more : ¬nanddevIoIterEnd iter = true)
    (breaks : page iter.req s.chip = .error broke) (fuel : ℕ) :
    nanddevIoForEachPage m page (fuel + 1) iter s = .ok (some broke.1, { s with chip := broke.2 }) := by
  rw [nanddevIoForEachPage, if_neg more, breaks]

/-- A page that is served, and the loop goes on. -/
theorem ioForEachPage_page (usable : m.Usable) (sound : req.Sound m)
    {page : NandPageIoReq → σ → Except (ℤ × σ) σ} {chip chip' : σ}
    (more : ¬nanddevIoIterEnd (requestIter m offs req k) = true)
    (served : page (requestPage m offs req k) chip = .ok chip') (fuel : ℕ) :
    nanddevIoForEachPage m page (fuel + 1) (requestIter m offs req k)
        ⟨dataBefore m offs req k, oobBefore m req k, chip⟩ =
      nanddevIoForEachPage m page fuel (requestIter m offs req (k + 1))
        ⟨dataBefore m offs req (k + 1), oobBefore m req (k + 1), chip'⟩ := by
  have data : dataBefore m offs req k ≤ dataBefore m offs req (k + 1) := bytesBefore_le_succ ..
  have oob : oobBefore m req k ≤ oobBefore m req (k + 1) := bytesBefore_le_succ ..
  refine (nanddevIoForEachPage_ok more served fuel).trans ?_
  rw [ioIterNextPage_eq usable sound]
  show nanddevIoForEachPage m page _ _ ⟨dataBefore m offs req k + (dataBefore m offs req (k + 1) - _),
    oobBefore m req k + (oobBefore m req (k + 1) - _), chip'⟩ = _
  rw [Nat.add_sub_of_le data, Nat.add_sub_of_le oob]

theorem ioForEachPage_served (usable : m.Usable) (sound : req.Sound m)
    (page : NandPageIoReq → σ → Except (ℤ × σ) σ) {last : ℕ}
    (ends : nanddevIoIterEnd (requestIter m offs req last) = true) (left : ℕ) (chip : σ)
    (count : k + left = last) :
    ∃ n chip' ret t, (∀ fuel > left, nanddevIoForEachPage m page fuel (requestIter m offs req k)
        ⟨dataBefore m offs req k, oobBefore m req k, chip⟩ =
          .ok (ret, ⟨dataBefore m offs req n, oobBefore m req n, t⟩)) ∧
      (∀ j, k ≤ j → j < n → ¬nanddevIoIterEnd (requestIter m offs req j) = true) ∧
      Served page (requestPage m offs req) k chip n chip' ∧
      PagesDone page m offs req n chip' ret t := by
  induction left generalizing k chip with
  | zero =>
    obtain rfl : k = last := count
    refine ⟨k, chip, none, chip, fun fuel enough => ?_, by omega, .refl k chip, .all ends⟩
    obtain ⟨fuel, rfl⟩ := Nat.exists_eq_add_of_lt enough
    rw [Nat.zero_add, nanddevIoForEachPage, if_pos ends]
  | succ left ih =>
    by_cases done : nanddevIoIterEnd (requestIter m offs req k) = true
    · refine ⟨k, chip, none, chip, fun fuel enough => ?_, by omega, .refl k chip, .all done⟩
      obtain ⟨fuel, rfl⟩ := Nat.exists_eq_add_of_lt enough
      rw [nanddevIoForEachPage, if_pos done]
    cases served : page (requestPage m offs req k) chip with
    | error broke =>
      refine ⟨k, chip, some broke.1, broke.2, fun fuel enough => ?_, by omega, .refl k chip,
        .broke served⟩
      obtain ⟨fuel, rfl⟩ := Nat.exists_eq_add_of_lt enough
      exact nanddevIoForEachPage_error done served _
    | ok chip' =>
      obtain ⟨n, final, ret, t, loop, open', later, result⟩ := ih chip' (k := k + 1) (by omega)
      refine ⟨n, final, ret, t, fun fuel enough => ?_, fun j le less => ?_, .page served later, result⟩
      swap
      · rcases Nat.lt_or_ge k j with after | here
        · exact open' j after less
        · exact Nat.le_antisymm le here ▸ done
      obtain ⟨fuel, rfl⟩ := Nat.exists_eq_add_of_lt enough
      rw [ioForEachPage_page usable sound done served]
      exact loop _ (by omega)

/-- There is an end to the pages of a request. -/
theorem exists_ioIterEnd (usable : m.Usable) (sound : req.Sound m) (offs : ℕ) :
    ∃ last, nanddevIoIterEnd (requestIter m offs req last) = true := by
  have inPage := Nat.mod_lt offs usable.pagesize
  refine ⟨req.len + 1 + req.ooblen, ioIterEnd_iff.mpr ⟨Nat.min_eq_left ?_, ?_⟩⟩
  · have pages : (req.len + 1 + req.ooblen) * m.pagesize ≥ req.len + m.pagesize := by
      calc req.len + m.pagesize ≤ req.len * m.pagesize + m.pagesize :=
            Nat.add_le_add_right (Nat.le_mul_of_pos_right _ usable.pagesize) _
        _ = (req.len + 1) * m.pagesize := (Nat.succ_mul ..).symm
        _ ≤ _ := Nat.mul_le_mul_right _ (Nat.le_add_right ..)
    omega
  · by_cases none : req.ooblen = 0
    · rw [oobBefore, bytesBefore, none, Nat.zero_min]
    have begins := sound.ooboffs none
    have pages : (req.len + 1 + req.ooblen) * m.oobsize ≥ m.oobsize + req.ooblen := by
      calc m.oobsize + req.ooblen ≤ m.oobsize + req.ooblen * m.oobsize :=
            Nat.add_le_add_left (Nat.le_mul_of_pos_right _ (Nat.zero_lt_of_lt begins)) _
        _ = (1 + req.ooblen) * m.oobsize := by rw [Nat.add_mul, Nat.one_mul]
        _ ≤ _ := Nat.mul_le_mul_right _ (by omega)
    exact Nat.min_eq_left (by omega)

/-- The loop over the pages of a request ends. -/
theorem ioForEachPage_ends (usable : m.Usable) (sound : req.Sound m)
    (page : NandPageIoReq → σ → Except (ℤ × σ) σ) (offs : ℕ) (chip : σ) :
    ∃ n chip' ret t, Ends (fun fuel => nanddevIoForEachPage m page fuel (nanddevIoIterInit m offs req)
        ⟨0, 0, chip⟩) (ret, ⟨dataBefore m offs req n, oobBefore m req n, t⟩) ∧
      (∀ j < n, ¬nanddevIoIterEnd (requestIter m offs req j) = true) ∧
      Served page (requestPage m offs req) 0 chip n chip' ∧
      PagesDone page m offs req n chip' ret t := by
  obtain ⟨last, ends⟩ := exists_ioIterEnd usable sound offs
  obtain ⟨n, chip', ret, t, loop, more, rest⟩ :=
    ioForEachPage_served usable sound page ends last chip (Nat.zero_add last)
  refine ⟨n, chip', ret, t, ⟨last + 1, fun fuel enough => ?_⟩, fun j => more j (Nat.zero_le j), rest⟩
  have first := loop fuel enough
  rw [dataBefore, oobBefore, bytesBefore_zero, bytesBefore_zero] at first
  rw [ioIterInit_eq usable sound]
  exact first

/-! ### The bytes of the pages -/

/-- A byte of a request is on one page of it, where the byte at its offset is. -/
theorem requestPage_byte (usable : m.Usable) {i : ℕ} (inside : i < req.len) :
    ((requestPage m offs req k).databuf ≤ i ∧
        i < (requestPage m offs req k).databuf + (requestPage m offs req k).datalen) ↔
      k = (offs % m.pagesize + i) / m.pagesize := by
  have inPage := Nat.mod_lt offs usable.pagesize
  have data : dataBefore m offs req k ≤ dataBefore m offs req (k + 1) := bytesBefore_le_succ ..
  show dataBefore m offs req k ≤ i ∧
    i < dataBefore m offs req k + (dataBefore m offs req (k + 1) - _) ↔ _
  rw [Nat.add_sub_of_le data, eq_comm, Nat.div_eq_iff usable.pagesize, dataBefore, bytesBefore,
    bytesBefore, Nat.succ_mul]
  omega

theorem requestPage_byte_pos (usable : m.Usable) (req : MtdOobOps) {i : ℕ}
    (page : k = (offs % m.pagesize + i) / m.pagesize) :
    (requestPage m offs req k).pos = (nanddevOffsToPos m (offs + i)).2 := by
  refine congrArg (posOfPage m) ?_
  rw [Nat.add_mul_div_right _ _ usable.pagesize, page]
  conv_rhs => rw [← Nat.div_add_mod offs m.pagesize, Nat.add_assoc, Nat.mul_add_div usable.pagesize]

theorem requestPage_byte_column (usable : m.Usable) {i : ℕ} (inside : i < req.len)
    (page : k = (offs % m.pagesize + i) / m.pagesize) :
    (requestPage m offs req k).dataoffs + (i - (requestPage m offs req k).databuf) =
      (offs + i) % m.pagesize := by
  have inPage := Nat.mod_lt offs usable.pagesize
  obtain ⟨before, -⟩ := (requestPage_byte usable inside).mpr page
  have split := Nat.div_add_mod (offs % m.pagesize + i) m.pagesize
  rw [← page, Nat.mul_comm] at split
  rw [← Nat.mod_add_mod]
  show (if k = 0 then offs % m.pagesize else 0) + (i - dataBefore m offs req k) = _
  change dataBefore m offs req k ≤ i at before
  rw [dataBefore, bytesBefore] at before ⊢
  split_ifs with first
  · rw [first, Nat.zero_mul] at split ⊢
    omega
  · have size : m.pagesize ≤ k * m.pagesize := Nat.le_mul_of_pos_left _ (Nat.pos_of_ne_zero first)
    omega

/-- Where the bytes of a page of the device are in a request. -/
theorem mem_requestPage_iff (usable : m.Usable) {o : ℕ}
    (page : o / m.pagesize = offs / m.pagesize + k) :
    ((requestPage m offs req k).dataoffs ≤ o % m.pagesize ∧
        o % m.pagesize < (requestPage m offs req k).dataoffs + (requestPage m offs req k).datalen ↔
      offs ≤ o ∧ o < offs + req.len) ∧
    (offs ≤ o ∧ o < offs + req.len →
      (requestPage m offs req k).databuf + (o % m.pagesize - (requestPage m offs req k).dataoffs) =
        o - offs) := by
  have inPage := Nat.mod_lt offs usable.pagesize
  have inPage' := Nat.mod_lt o usable.pagesize
  have whole := Nat.div_add_mod' offs m.pagesize
  have whole' := Nat.div_add_mod' o m.pagesize
  rw [page, Nat.add_mul] at whole'
  have datalen : (requestPage m offs req k).datalen =
      min (m.pagesize - if k = 0 then offs % m.pagesize else 0) (req.len - dataBefore m offs req k) :=
    dataBefore_succ_sub usable k
  have databuf : (requestPage m offs req k).databuf =
      min req.len (k * m.pagesize - offs % m.pagesize) := rfl
  have before : dataBefore m offs req k = (requestPage m offs req k).databuf := rfl
  have dataoffs : (requestPage m offs req k).dataoffs = if k = 0 then offs % m.pagesize else 0 := rfl
  rw [before, databuf] at datalen
  rw [datalen, databuf, dataoffs]
  clear datalen databuf before dataoffs page
  generalize o % m.pagesize = column at inPage' whole' ⊢
  generalize offs % m.pagesize = start at inPage whole ⊢
  generalize offs / m.pagesize * m.pagesize = first at whole whole'
  by_cases none : k = 0
  · rw [none, Nat.zero_mul] at whole' ⊢
    simp only [if_true]
    omega
  · have size : m.pagesize ≤ k * m.pagesize := Nat.le_mul_of_pos_left _ (Nat.pos_of_ne_zero none)
    generalize k * m.pagesize = pages at whole' size ⊢
    simp only [none, if_false]
    omega

/-- The iterator of a request, moved on by `k` pages. -/
def ioIterAt (m : MemoryOrganization) (offs : ℕ) (req : MtdOobOps) (k : ℕ) : NandIoIter :=
  (nanddevIoIterNextPage m)^[k] (nanddevIoIterInit m offs req)

theorem ioIterAt_eq (usable : m.Usable) (sound : req.Sound m) (offs k : ℕ) :
    ioIterAt m offs req k = requestIter m offs req k := by
  induction k with
  | zero => exact ioIterInit_eq usable sound
  | succ k ih =>
    rw [ioIterAt, Function.iterate_succ_apply', ← ioIterAt, ih]
    exact ioIterNextPage_eq usable sound k

theorem ioIterAt_req (usable : m.Usable) (sound : req.Sound m) (offs : ℕ) :
    (fun k => (ioIterAt m offs req k).req) = requestPage m offs req :=
  funext fun k => congrArg NandIoIter.req (ioIterAt_eq usable sound offs k)

/-- The iterator takes the bytes of a request to their places: byte `i` is on the page where its offset
is, and on no other one, in the column of its offset. -/
theorem ioIterAt_bytes (usable : m.Usable) (sound : req.Sound m) (offs : ℕ) {i : ℕ}
    (inside : i < req.len)
    (k : ℕ) :
    ((ioIterAt m offs req k).req.databuf ≤ i ∧
        i < (ioIterAt m offs req k).req.databuf + (ioIterAt m offs req k).req.datalen ↔
      k = (offs % m.pagesize + i) / m.pagesize) ∧
    (k = (offs % m.pagesize + i) / m.pagesize →
      ((ioIterAt m offs req k).req.dataoffs + (i - (ioIterAt m offs req k).req.databuf),
        (ioIterAt m offs req k).req.pos) = nanddevOffsToPos m (offs + i)) := by
  rw [ioIterAt_eq usable sound]
  exact ⟨requestPage_byte usable inside, fun page =>
    Prod.ext (requestPage_byte_column usable inside page) (requestPage_byte_pos usable req page)⟩

theorem ioIterAt_bytes_w25n01gv :
    let page := (ioIterAt w25n01gvMemorg 1000 ⟨.raw, 5000, 0, 0⟩ 2).req
    (page.dataoffs + (4000 - page.databuf), page.pos) = nanddevOffsToPos w25n01gvMemorg 5000 :=
  (ioIterAt_bytes w25n01gvMemorg_usable
    ⟨by decide, by decide, fun some => absurd rfl some, by decide⟩ 1000
    (show 4000 < 5000 by decide) 2).2 (by decide)

/-! ### Writes -/

theorem ne_zero_of_preparePage {enableEcc : Bool} {page : NandPageIoReq} {chip : σ} {broke : ℤ × σ}
    (breaks : preparePage ops enableEcc page chip = .error broke) : broke.1 ≠ 0 := by
  rw [preparePage] at breaks
  dsimp only at breaks
  split at breaks
  next nonzero =>
    cases breaks
    exact nonzero
  next =>
    split at breaks
    next nonzero =>
      cases breaks
      exact nonzero
    next => cases breaks

theorem ne_zero_of_mtdWritePage {enableEcc : Bool} {page : NandPageIoReq} {chip : σ} {broke : ℤ × σ}
    (breaks : mtdWritePage ops enableEcc page chip = .error broke) : broke.1 ≠ 0 := by
  rw [mtdWritePage] at breaks
  split at breaks
  next first =>
    cases breaks
    exact ne_zero_of_preparePage first
  next =>
    dsimp only at breaks
    split at breaks
    next nonzero =>
      cases breaks
      exact nonzero
    next => cases breaks

/-- A write that returns 0 has passed the check. -/
theorem check_of_mtdWriteOob {ooblayout : Bool} {chip : σ} {t : IoProgress σ}
    (ran : Ends (fun fuel => mtdWriteOob m ops ooblayout offs req fuel chip) (0, t)) :
    mtdCheckOobOps m offs req = 0 := by
  obtain ⟨fuel, ended⟩ := ran.exists_eq
  by_contra fails
  rw [mtdWriteOob, if_pos fails] at ended
  exact fails (Prod.mk.inj (Except.ok.inj ended)).1

theorem mtdWriteOob_served (ops : SpinandOps σ) (usable : m.Usable) (sound : req.Sound m)
    (passes : mtdCheckOobOps m offs req = 0) (ooblayout : Bool) (chip : σ) :
    ∃ n written ret t, Ends (fun fuel => mtdWriteOob m ops ooblayout offs req fuel chip)
        (ret.getD 0, ⟨dataBefore m offs req n, oobBefore m req n, t⟩) ∧
      (∀ j < n, ¬nanddevIoIterEnd (requestIter m offs req j) = true) ∧
      Served (mtdWritePage ops (req.mode ≠ .raw && ooblayout)) (requestPage m offs req) 0 chip n
        written ∧
      PagesDone (mtdWritePage ops (req.mode ≠ .raw && ooblayout)) m offs req n written ret t := by
  obtain ⟨n, written, ret, t, ⟨enough, loop⟩, rest⟩ := ioForEachPage_ends usable sound
    (mtdWritePage ops (req.mode ≠ .raw && ooblayout)) offs chip
  refine ⟨n, written, ret, t, ⟨enough, fun fuel more => ?_⟩, rest⟩
  have done : nanddevIoForEachPage m _ fuel _ _ = _ := loop fuel more
  dsimp only
  rw [mtdWriteOob, if_neg (not_not.mpr passes), spinandMtdWrite, done]
  rfl

/-- A write that passes the check ends.  It has written the pages before some page, one after the other,
and the lengths it gives are those of their bytes: all bytes of the request where it succeeds, and else
the page that comes next has failed with its result. -/
theorem mtdWriteOob_pages (ops : SpinandOps σ) (usable : m.Usable) (len : req.len < 2 ^ 32)
    (ooblen : req.ooblen < 2 ^ 32) (oobsize : m.oobsize < 2 ^ 32)
    (passes : mtdCheckOobOps m offs req = 0) (ooblayout : Bool) (chip : σ) :
    ∃ n written ret t, Ends (fun fuel => mtdWriteOob m ops ooblayout offs req fuel chip) (ret, t) ∧
      Served (mtdWritePage ops (req.mode ≠ .raw && ooblayout)) (fun k => (ioIterAt m offs req k).req)
        0 chip n written ∧
      t.retlen = min req.len (n * m.pagesize - offs % m.pagesize) ∧
      t.oobretlen = min req.ooblen (n * m.oobsize - req.ooboffs.toNat) ∧
      (ret = 0 → t = ⟨req.len, req.ooblen, written⟩) ∧
      (ret ≠ 0 → mtdWritePage ops (req.mode ≠ .raw && ooblayout) (ioIterAt m offs req n).req written =
        .error (ret, t.chip)) := by
  have sound := MtdOobOps.Sound.of_check len ooblen oobsize passes
  obtain ⟨n, written, ret, t, ends, -, served, done⟩ :=
    mtdWriteOob_served ops usable sound passes ooblayout chip
  refine ⟨n, written, ret.getD 0, ⟨dataBefore m offs req n, oobBefore m req n, t⟩, ends, ?_, rfl,
    rfl, ?_⟩
  · rw [ioIterAt_req usable sound]
    exact served
  · rw [ioIterAt_eq usable sound]
    cases done with
    | all last =>
      obtain ⟨data, oob⟩ := ioIterEnd_iff.mp last
      rw [data, oob]
      exact ⟨fun _ => rfl, fun failed => absurd rfl failed⟩
    | broke breaks =>
      exact ⟨fun zero => absurd zero (ne_zero_of_mtdWritePage breaks), fun _ => breaks⟩

/-- A chip that counts the pages that are read or written.  It cannot correct the first page that is
read, and corrects one bit of each later one. -/
def countingOps : SpinandOps ℕ where
  selectTarget _ n := (0, n)
  eccEnable _ n := (0, n)
  readPage _ _ n := (if n = 0 then -ebadmsg else 1, n + 1)
  writePage _ n := (0, n + 1)

theorem mtdWriteOob_pages_countingOps : ∃ n ret t,
    Ends (fun fuel => mtdWriteOob w25n01gvMemorg countingOps true 1000 ⟨.raw, 5000, 0, 0⟩ fuel 0)
      (ret, t) ∧
      t.retlen = min 5000 (n * 2048 - 1000) ∧ (ret = 0 → t.retlen = 5000) := by
  obtain ⟨n, _, ret, t, ends, _, retlen, _, all, _⟩ := mtdWriteOob_pages countingOps
    w25n01gvMemorg_usable (show (⟨.raw, 5000, 0, 0⟩ : MtdOobOps).len < 2 ^ 32 by decide) (by decide)
    (by decide) (show mtdCheckOobOps _ 1000 _ = 0 by decide) true 0
  exact ⟨n, ret, t, ends, retlen, fun zero => congrArg IoProgress.retlen (all zero)⟩

/-! ### Reads -/

/-- The pages from page `k` on are read with these results. -/
inductive ReadsPages (ops : SpinandOps σ) (enableEcc : Bool) (reqs : ℕ → NandPageIoReq) :
    ℕ → σ → List ℤ → σ → Prop
  | nil (k : ℕ) (s : σ) : ReadsPages ops enableEcc reqs k s [] s
  | cons {k : ℕ} {s s' s'' t : σ} {ret : ℤ} {rets : List ℤ}
      (prepared : preparePage ops enableEcc (reqs k) s = .ok s')
      (read : ops.readPage (reqs k) enableEcc s' = (ret, s'')) (readable : 0 ≤ ret ∨ ret = -ebadmsg)
      (later : ReadsPages ops enableEcc reqs (k + 1) s'' rets t) :
      ReadsPages ops enableEcc reqs k s (ret :: rets) t

theorem ReadsPages.readable {enableEcc : Bool} {reqs : ℕ → NandPageIoReq} {s t : σ} {rets : List ℤ}
    (reads : ReadsPages ops enableEcc reqs k s rets t) : ∀ ret ∈ rets, 0 ≤ ret ∨ ret = -ebadmsg := by
  induction reads with
  | nil => exact List.forall_mem_nil _
  | cons _ _ readable _ ih => exact List.forall_mem_cons.mpr ⟨readable, ih⟩

/-- A loop over pages that can be read -/
theorem ReadsPages.loop (usable : m.Usable) (sound : req.Sound m) {enableEcc : Bool} {s t : σ}
    {rets : List ℤ} (reads : ReadsPages ops enableEcc (requestPage m offs req) k s rets t)
    (pages : ∀ j, nanddevIoIterEnd (requestIter m offs req j) = true ↔ k + rets.length ≤ j)
    (before : EccReads) {fuel : ℕ} (enough : rets.length < fuel) :
    nanddevIoForEachPage m (mtdReadPage ops enableEcc) fuel (requestIter m offs req k)
        ⟨dataBefore m offs req k, oobBefore m req k, s, before⟩ =
      .ok (none, ⟨req.len, req.ooblen, t, rets.foldl EccReads.read before⟩) := by
  induction reads generalizing before fuel with
  | nil k s =>
    obtain ⟨fuel, rfl⟩ := Nat.exists_eq_add_of_lt enough
    have ends := (pages k).mpr (Nat.le_refl k)
    obtain ⟨data, oob⟩ := ioIterEnd_iff.mp ends
    rw [nanddevIoForEachPage, if_pos ends, data, oob]
    rfl
  | @cons k s s' s'' t ret rets prepared read readable later ih =>
    obtain ⟨fuel, rfl⟩ := Nat.exists_eq_add_of_lt enough
    rw [List.length_cons] at pages
    have more : ¬nanddevIoIterEnd (requestIter m offs req k) = true := fun ends => by
      have le := (pages k).mp ends
      omega
    have served : mtdReadPage ops enableEcc (requestPage m offs req k) (s, before) =
        .ok (s'', before.read ret) := by
      rw [mtdReadPage, prepared]
      dsimp only
      rw [read, if_neg]
      rintro ⟨negative, other⟩
      exact readable.elim (fun positive => absurd negative (Int.not_lt.mpr positive)) other
    rw [ioForEachPage_page usable sound more served]
    refine ih (fun j => ?_) (before.read ret) (by rw [List.length_cons] at *; omega)
    rw [pages j]
    omega

/-- A read that returns 0 has passed the check. -/
theorem check_of_mtdReadOob {eccStrength : ℕ} {bitflipThreshold : ℤ} {ooblayout : Bool} {chip : σ}
    {t : IoProgress (σ × EccReads)}
    (ran : Ends (fun fuel => mtdReadOob m ops eccStrength bitflipThreshold ooblayout offs req fuel chip)
      (0, t)) :
    mtdCheckOobOps m offs req = 0 := by
  obtain ⟨fuel, ended⟩ := ran.exists_eq
  by_contra fails
  rw [mtdReadOob, if_pos fails] at ended
  exact fails (Prod.mk.inj (Except.ok.inj ended)).1

theorem mtdReadOob_served (ops : SpinandOps σ) (usable : m.Usable) (sound : req.Sound m)
    (passes : mtdCheckOobOps m offs req = 0) (eccStrength : ℕ) (bitflipThreshold : ℤ)
    (ooblayout : Bool)
    (chip : σ) :
    ∃ n got ret t, Ends (fun fuel =>
        mtdReadOob m ops eccStrength bitflipThreshold ooblayout offs req fuel chip)
        (bitflipResult eccStrength bitflipThreshold (ret.getD t.2.result),
          ⟨dataBefore m offs req n, oobBefore m req n, t⟩) ∧
      (∀ j < n, ¬nanddevIoIterEnd (requestIter m offs req j) = true) ∧
      Served (mtdReadPage ops (req.mode ≠ .raw && ooblayout)) (requestPage m offs req) 0
        (chip, ⟨0, false, 0, 0, 0⟩) n got ∧
      PagesDone (mtdReadPage ops (req.mode ≠ .raw && ooblayout)) m offs req n got ret t := by
  obtain ⟨n, got, ret, t, ⟨enough, loop⟩, rest⟩ := ioForEachPage_ends usable sound
    (mtdReadPage ops (req.mode ≠ .raw && ooblayout)) offs (chip, ⟨0, false, 0, 0, 0⟩)
  refine ⟨n, got, ret, t, ⟨enough, fun fuel more => ?_⟩, rest⟩
  have done : nanddevIoForEachPage m _ fuel _ _ = _ := loop fuel more
  dsimp only
  rw [mtdReadOob, if_neg (not_not.mpr passes), spinandMtdRead, done]
  rfl

theorem eccFailed_foldl (rets : List ℤ) (before : EccReads) :
    (rets.foldl EccReads.read before).eccFailed = true ↔ before.eccFailed = true ∨ -ebadmsg ∈ rets := by
  induction rets generalizing before with
  | nil => simp
  | cons ret rets ih =>
    rw [List.foldl_cons, ih, EccReads.read, List.mem_cons]
    split
    next bad => simp [bad]
    next good => simp [Ne.symm good]

/-- What `spinand_mtd_read` has as its result after pages with these results: that of the last one. -/
theorem ret_foldl (rets : List ℤ) (last : ℤ) (before : EccReads) :
    ((rets ++ [last]).foldl EccReads.read before).ret = if last = -ebadmsg then 0 else last := by
  rw [List.foldl_append, List.foldl_cons, List.foldl_nil, EccReads.read]
  split <;> rfl

theorem EccReads.result_cases {reads : EccReads} (nonneg : 0 ≤ reads.ret) :
    reads.result = -ebadmsg ∧ reads.eccFailed = true ∧ reads.ret = 0 ∨
      0 ≤ reads.result ∧ ¬(reads.eccFailed = true ∧ reads.ret = 0) := by
  rw [result]
  split
  next failed =>
    rw [Bool.and_eq_true, decide_eq_true_iff] at failed
    exact .inl ⟨rfl, failed⟩
  next fine =>
    rw [Bool.and_eq_true, decide_eq_true_iff] at fine
    refine .inr ⟨?_, fine⟩
    split
    · exact nonneg
    · exact Int.natCast_nonneg _

/-- Pages are read, and one of them is beyond repair: the read says so just when the bits of the last
page needed no correction, or that page is beyond repair too. -/
theorem mtdReadOob_badmsg_iff (usable : m.Usable) (len : req.len < 2 ^ 32)
    (ooblen : req.ooblen < 2 ^ 32)
    (oobsize : m.oobsize < 2 ^ 32) (passes : mtdCheckOobOps m offs req = 0) (eccStrength : ℕ)
    (bitflipThreshold : ℤ) (ooblayout : Bool) {s t : σ} {rets : List ℤ} {last : ℤ}
    (reads : ReadsPages ops (req.mode ≠ .raw && ooblayout) (fun k => (ioIterAt m offs req k).req) 0 s
      (rets ++ [last]) t)
    (pages : ∀ k, nanddevIoIterEnd (ioIterAt m offs req k) = true ↔ rets.length < k) :
    ∃ ret progress, Ends (fun fuel =>
        mtdReadOob m ops eccStrength bitflipThreshold ooblayout offs req fuel s) (ret, progress) ∧
      progress.retlen = req.len ∧ progress.oobretlen = req.ooblen ∧ progress.chip.1 = t ∧
      (ret = -ebadmsg ↔ -ebadmsg ∈ rets ++ [last] ∧ (last = 0 ∨ last = -ebadmsg)) := by
  have sound := MtdOobOps.Sound.of_check len ooblen oobsize passes
  rw [ioIterAt_req usable sound] at reads
  simp only [ioIterAt_eq usable sound] at pages
  have count (k : ℕ) : nanddevIoIterEnd (requestIter m offs req k) = true ↔
      0 + (rets ++ [last]).length ≤ k := by
    rw [pages k, Nat.zero_add, List.length_append]
    rfl
  have loop (fuel : ℕ) (enough : (rets ++ [last]).length < fuel) :=
    reads.loop usable sound count ⟨0, false, 0, 0, 0⟩ enough
  rw [dataBefore, oobBefore, bytesBefore_zero, bytesBefore_zero, ← ioIterInit_eq usable sound] at loop
  have ret := ret_foldl rets last ⟨0, false, 0, 0, 0⟩
  have failed := eccFailed_foldl (rets ++ [last]) ⟨0, false, 0, 0, 0⟩
  have readable := reads.readable last (List.mem_append_right _ (List.mem_singleton_self _))
  generalize (rets ++ [last]).foldl EccReads.read ⟨0, false, 0, 0, 0⟩ = final at loop ret failed
  have nonneg : 0 ≤ final.ret := by
    rw [ret]
    split
    · exact Int.le_refl 0
    · exact readable.resolve_right ‹_›
  have zero : final.ret = 0 ↔ last = 0 ∨ last = -ebadmsg := by
    rw [ret]
    split
    next bad => exact iff_of_true rfl (.inr bad)
    next good => exact (or_iff_left good).symm
  have bad : -ebadmsg ∈ rets ++ [last] ∧ (last = 0 ∨ last = -ebadmsg) ↔
      final.eccFailed = true ∧ final.ret = 0 := by
    rw [failed, zero]
    simp
  refine ⟨bitflipResult eccStrength bitflipThreshold final.result, ⟨req.len, req.ooblen, t, final⟩,
    ⟨(rets ++ [last]).length + 1, fun fuel enough => ?_⟩, rfl, rfl, rfl, ?_⟩
  · dsimp only
    rw [mtdReadOob, if_neg (not_not.mpr passes), spinandMtdRead, loop fuel enough]
    rfl
  rw [bad, bitflipResult]
  rcases EccReads.result_cases nonneg with ⟨result, both⟩ | ⟨result, neither⟩
  · rw [result, if_pos (by decide)]
    exact iff_of_true rfl both
  · rw [if_neg (Int.not_lt.mpr result)]
    refine iff_of_false ?_ neither
    split_ifs <;> decide

/-- The first of two pages is beyond repair, and the read does not say so. -/
theorem mtdReadOob_badmsg_iff_twoPages : ∃ ret t,
    Ends (fun fuel => mtdReadOob w25n01gvMemorg countingOps 1 1 true 0 ⟨.autoOob, 4096, 0, 0⟩ fuel 0)
        (ret, t) ∧
      t.retlen = 4096 ∧ ret ≠ -ebadmsg := by
  have sound : (⟨.autoOob, 4096, 0, 0⟩ : MtdOobOps).Sound w25n01gvMemorg :=
    ⟨by decide, by decide, fun some => absurd rfl some, by decide⟩
  obtain ⟨ret, t, ends, retlen, -, -, badmsg⟩ := mtdReadOob_badmsg_iff w25n01gvMemorg_usable sound.len
    sound.ooblen sound.oobsize (show mtdCheckOobOps _ 0 _ = 0 by decide) 1 1 true
    (.cons rfl (show countingOps.readPage _ _ 0 = (-ebadmsg, 1) from rfl) (.inr rfl)
      (.cons rfl (show countingOps.readPage _ _ 1 = (1, 2) from rfl) (.inl (by decide)) (.nil _ _)))
    (show ∀ k, _ ↔ [-ebadmsg].length < k from fun k => by
      rw [ioIterAt_eq w25n01gvMemorg_usable sound, ioIterEnd_iff, List.length_singleton]
      simp only [dataBefore, oobBefore, bytesBefore, w25n01gvMemorg]
      omega)
  refine ⟨ret, t, ends, retlen, fun bad => ?_⟩
  exact absurd (badmsg.mp bad).2 (by decide)

end

end Hss.Nand
