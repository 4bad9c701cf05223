import Hss.FpgaQspi.Driver
import Hss.Nand.Requests
import Hss.Types

/-! A page of a SPI NAND: the commands with which the driver writes it and reads it. -/

namespace Hss.Nand

open Fuel MixedRadix

/-! ### Spare bytes -/

/-- `memcpy` of bytes to a buffer, from `start` on. -/
def copyTo (buf : ℕ → BitVec 8) (start len : ℕ) (bytes : ℕ → BitVec 8) (i : ℕ) : BitVec 8 :=
  if start ≤ i ∧ i < start + len then bytes (i - start) else buf i

/-- `struct mtd_oob_region` -/
structure OobRegion where
  offset : ℕ
  length : ℕ

/-- `w25m02gv_ooblayout_free`, section by section up to its `-ERANGE`. -/
def w25m02gvOoblayoutFree : List OobRegion := (List.range 4).map fun i => ⟨16 * i + 2, 6⟩

/-- `mtd_ooblayout_find_region`: the regions from the one of a byte on, which is made to begin there. -/
def mtdOoblayoutFindRegion : List OobRegion → ℕ → List OobRegion
  | [], _ => []
  | region :: later, byte =>
      if byte < region.length then ⟨region.offset + byte, region.length - byte⟩ :: later
      else mtdOoblayoutFindRegion later (byte - region.length)

/-- The loop of `mtd_ooblayout_set_bytes` and of `mtd_ooblayout_get_bytes`, by what a turn does with the
offset of its region, with how far the request is, and with `cnt`. -/
def ooblayoutLoop (copy : ℕ → ℕ → ℕ → (ℕ → BitVec 8) → ℕ → BitVec 8) :
    List OobRegion → ℕ → ℕ → (ℕ → BitVec 8) → ℕ → BitVec 8
  | [], _, _, bytes => bytes
  | region :: later, done, nbytes, bytes =>
      let cnt := min nbytes region.length
      let bytes := copy region.offset done cnt bytes
      if nbytes - cnt = 0 then bytes else ooblayoutLoop copy later (done + cnt) (nbytes - cnt) bytes

/-- `mtd_ooblayout_set_databytes`, where the spare bytes of a buffer begin at `oobbuf`. -/
def mtdOoblayoutSetDatabytes (layout : List OobRegion) (databuf : ℕ → BitVec 8)
    (oobbuf start nbytes : ℕ) : (ℕ → BitVec 8) → ℕ → BitVec 8 :=
  ooblayoutLoop
    (fun offset done cnt buf => copyTo buf (oobbuf + offset) cnt fun i => databuf (done + i))
    (mtdOoblayoutFindRegion layout start) 0 nbytes

/-- `mtd_ooblayout_get_databytes`, to a buffer from `databuf` on. -/
def mtdOoblayoutGetDatabytes (layout : List OobRegion) (oobbuf : ℕ → BitVec 8)
    (databuf start nbytes : ℕ) : (ℕ → BitVec 8) → ℕ → BitVec 8 :=
  ooblayoutLoop
    (fun offset done cnt buf => copyTo buf (databuf + done) cnt fun i => oobbuf (offset + i))
    (mtdOoblayoutFindRegion layout start) 0 nbytes

theorem copyTo_of_lt {buf bytes : ℕ → BitVec 8} {start len i : ℕ} (before : i < start) :
    copyTo buf start len bytes i = buf i :=
  if_neg fun inside => Nat.not_le.mpr before inside.1

/-- What comes before the spare bytes of a buffer stays as it is. -/
theorem mtdOoblayoutSetDatabytes_of_lt {layout : List OobRegion} {databuf buf : ℕ → BitVec 8}
    {oobbuf start nbytes i : ℕ} (before : i < oobbuf) :
    mtdOoblayoutSetDatabytes layout databuf oobbuf start nbytes buf i = buf i := by
  have loop (regions : List OobRegion) (done nbytes : ℕ) (buf : ℕ → BitVec 8) :
      ooblayoutLoop (fun offset done cnt buf =>
        copyTo buf (oobbuf + offset) cnt fun i => databuf (done + i)) regions done nbytes buf i =
        buf i := by
    induction regions generalizing done nbytes buf with
    | nil => rfl
    | cons region later ih =>
      have turn : copyTo buf (oobbuf + region.offset) (min nbytes region.length)
          (fun i => databuf (done + i)) i = buf i :=
        copyTo_of_lt (before.trans_le (Nat.le_add_right ..))
      rw [ooblayoutLoop]
      split
      · exact turn
      · exact (ih ..).trans turn
  exact loop ..

/-! ### The chip -/

/-- A SPI NAND with one target, as data sheets have it: rows of cells, and for each plane a cache that
a row is read to and programmed from.  A column says in its upper bits whose cache is meant.  A command
that succeeds while the chip is not busy does what it is for, a load and a program if writes are
enabled.  Of the cells, no command but a program changes any, and a program none of another row. -/
structure SpiNand where
  State : Type
  columnBits : ℕ
  plane : BitVec 24 → ℕ
  cells : State → BitVec 24 → ℕ → BitVec 8
  cache : State → ℕ → ℕ → BitVec 8
  enabled : State → Bool
  busy : State → Bool
  progFailed : State → Bool
  writeEnable : State → ℤ × State
  pageRead : BitVec 24 → State → ℤ × State
  readCache : BitVec 16 → ℕ → State → (ℤ × Bytes) × State
  /-- `SPINAND_PROG_LOAD`, which sets the rest of the cache or leaves it. -/
  progLoad : Bool → BitVec 16 → Bytes → State → ℤ × State
  progExec : BitVec 24 → State → ℤ × State
  readStatus : State → (ℤ × BitVec 8) × State
  /-- `spinand_ecc_enable` -/
  eccEnable : Bool → State → ℤ × State
  cells_writeEnable : ∀ s, cells (writeEnable s).2 = cells s
  busy_writeEnable : ∀ s, busy (writeEnable s).2 = busy s
  enabled_writeEnable : ∀ s, busy s = false → (writeEnable s).1 = 0 →
    enabled (writeEnable s).2 = true
  cells_pageRead : ∀ row s, cells (pageRead row s).2 = cells s
  cache_pageRead : ∀ row s, busy s = false → (pageRead row s).1 = 0 →
    cache (pageRead row s).2 (plane row) = cells s row
  cells_readCache : ∀ column n s, cells (readCache column n s).2 = cells s
  busy_readCache : ∀ column n s, busy (readCache column n s).2 = busy s
  readCache_eq : ∀ column n s, busy s = false → column.toNat % 2 ^ columnBits + n ≤ 2 ^ columnBits →
    (readCache column n s).1.1 = 0 → (readCache column n s).1.2 = (List.range n).map fun i =>
      cache s (column.toNat / 2 ^ columnBits) (column.toNat % 2 ^ columnBits + i)
  cells_progLoad : ∀ reset column bytes s, cells (progLoad reset column bytes s).2 = cells s
  enabled_progLoad : ∀ reset column bytes s, enabled (progLoad reset column bytes s).2 = enabled s
  busy_progLoad : ∀ reset column bytes s, busy (progLoad reset column bytes s).2 = busy s
  cache_progLoad : ∀ reset column bytes s, busy s = false → enabled s = true →
    bytes.length ≤ FpgaQspi.maxDataCmdLen.toNat →
    column.toNat % 2 ^ columnBits + bytes.length ≤ 2 ^ columnBits →
    (progLoad reset column bytes s).1 = 0 →
    ∀ c, cache (progLoad reset column bytes s).2 (column.toNat / 2 ^ columnBits) c =
      if column.toNat % 2 ^ columnBits ≤ c ∧ c < column.toNat % 2 ^ columnBits + bytes.length then
        bytes.getD (c - column.toNat % 2 ^ columnBits) 0
      else if reset then 0xFF
      else cache s (column.toNat / 2 ^ columnBits) c
  cells_progExec_ne : ∀ row s row', row' ≠ row → cells (progExec row s).2 row' = cells s row'
  cells_progExec : ∀ row s, busy s = false → enabled s = true → (progExec row s).1 = 0 →
    progFailed (progExec row s).2 = false →
    cells (progExec row s).2 row = fun c => cells s row c &&& cache s (plane row) c
  cells_readStatus : ∀ s, cells (readStatus s).2 = cells s
  cache_readStatus : ∀ s, cache (readStatus s).2 = cache s
  progFailed_readStatus : ∀ s, progFailed (readStatus s).2 = progFailed s
  readStatus_progFailed : ∀ s, (readStatus s).1.1 = 0 → (readStatus s).1.2.getLsbD 3 = progFailed s
  busy_readStatus : ∀ s, (readStatus s).1.1 = 0 → (readStatus s).1.2.getLsbD 0 = false →
    busy (readStatus s).2 = false
  cells_eccEnable : ∀ enable s, cells (eccEnable enable s).2 = cells s
  busy_eccEnable : ∀ enable s, busy (eccEnable enable s).2 = busy s
  eccEnable_le : ∀ enable s, (eccEnable enable s).1 ≤ 0
  pageRead_le : ∀ row s, (pageRead row s).1 ≤ 0
  readCache_le : ∀ column n s, (readCache column n s).1.1 ≤ 0
  readStatus_le : ∀ s, (readStatus s).1.1 ≤ 0

section
variable (chip : SpiNand) (m : MemoryOrganization) (layout : List OobRegion)

/-- The three bytes of a row that a command has. -/
def rowAddress (pos : NandPos) : BitVec 24 := (nanddevPosToRow m pos).setWidth 24

/-- The rows and columns of the chip are those of the organization. -/
structure SpiNand.Addressed : Prop where
  ntargets : m.ntargets = 1
  rows : rowBits m ≤ 24
  columns : m.pagesize + m.oobsize ≤ 2 ^ chip.columnBits
  planes : m.planesPerLun * 2 ^ chip.columnBits ≤ 2 ^ 16
  shift : 1 < m.planesPerLun → chip.columnBits = m.pagesize.size
  plane : ∀ pos : NandPos, pos.Within m → pos.target = 0 → chip.plane (rowAddress m pos) = pos.plane

/-- The loop of `spinand_wait`, with so many turns left. -/
def spinandWaitLoop : ℕ → chip.State → (ℤ × BitVec 8) × chip.State
  | 0, s =>
      let read := chip.readStatus s
      if read.1.1 ≠ 0 then read
      else ((if read.1.2.getLsbD 0 then -FpgaQspi.etimedout else 0, read.1.2), read.2)
  | turns + 1, s =>
      let read := chip.readStatus s
      if read.1.1 ≠ 0 then read
      else if read.1.2.getLsbD 0 then spinandWaitLoop turns read.2
      else ((0, read.1.2), read.2)

/-- `spinand_wait` -/
def spinandWait (s : chip.State) : (ℤ × BitVec 8) × chip.State := spinandWaitLoop chip 40001 s

/-- `nbytes` of `spinand_write_to_cache_op` and `spinand_read_from_cache_op`. -/
def cacheBytes (req : NandPageIoReq) : ℕ :=
  (if req.datalen ≠ 0 then m.pagesize else 0) + if req.ooblen ≠ 0 then m.oobsize else 0

/-- Where `buf` of both is in `databuf`, which is also the first `column`. -/
def cacheStart (req : NandPageIoReq) : ℕ :=
  if req.datalen ≠ 0 then 0 else if req.ooblen ≠ 0 then m.pagesize else 0

/-- `spinand_cache_op_adjust_colum` -/
def spinandCacheOpAdjustColum (req : NandPageIoReq) (column : BitVec 16) : BitVec 16 :=
  if m.planesPerLun < 2 then column
  else
    let shift := genericFls (BitVec.ofNat 32 m.pagesize)
    column ||| (BitVec.ofNat 32 req.pos.plane <<< shift).setWidth 16

/-- `column` of both -/
def cacheColumn (req : NandPageIoReq) : BitVec 16 :=
  spinandCacheOpAdjustColum m req (BitVec.ofNat 16 (cacheStart m req))

/-- `databuf` of a write, with `oobbuf` behind the bytes of the page. -/
def pageBuffer (req : NandPageIoReq) (data oob : ℕ → BitVec 8) : ℕ → BitVec 8 :=
  let databuf := copyTo (fun _ => 0xFF) req.dataoffs req.datalen fun i => data (req.databuf + i)
  if req.ooblen = 0 then databuf
  else if req.mode = .autoOob then
    mtdOoblayoutSetDatabytes layout (fun i => oob (req.oobbuf + i)) m.pagesize req.ooboffs req.ooblen
      databuf
  else copyTo databuf (m.pagesize + req.ooboffs) req.ooblen fun i => oob (req.oobbuf + i)

/-- The loop of `spinand_write_to_cache_op`, at a place of its buffer. -/
def writeToCacheLoop (buf : ℕ → BitVec 8) (reset : Bool) (column : BitVec 16) (place nbytes : ℕ)
    (s : chip.State) : ℤ × chip.State :=
  if nbytes = 0 then (0, s)
  else
    let n := min nbytes FpgaQspi.maxDataCmdLen.toNat
    let load := chip.progLoad reset column ((List.range n).map fun i => buf (place + i)) s
    if load.1 ≠ 0 then load
    else writeToCacheLoop buf false (column + BitVec.ofNat 16 n) (place + n) (nbytes - n) load.2
termination_by nbytes
decreasing_by
  have sent : 0 < FpgaQspi.maxDataCmdLen.toNat := by decide
  omega

/-- `spinand_write_page` after `spinand_write_to_cache_op` -/
def spinandProgramPage (req : NandPageIoReq) (load : ℤ × chip.State) : ℤ × chip.State :=
  if load.1 ≠ 0 then load
  else
    let program := chip.progExec (rowAddress m req.pos) load.2
    if program.1 ≠ 0 then program
    else
      let wait := spinandWait chip program.2
      (if wait.1.1 = 0 ∧ wait.1.2.getLsbD 3 = true then -eio else wait.1.1, wait.2)

/-- `spinand_write_page` -/
def spinandWritePage (req : NandPageIoReq) (data oob : ℕ → BitVec 8) (s : chip.State) :
    ℤ × chip.State :=
  let enable := chip.writeEnable s
  if enable.1 ≠ 0 then enable
  else spinandProgramPage chip m req
    (writeToCacheLoop chip (pageBuffer m layout req data oob) true (cacheColumn m req)
      (cacheStart m req) (cacheBytes m req) enable.2)

/-- The buffers of a request -/
structure RequestBuffers where
  data : ℕ → BitVec 8
  oob : ℕ → BitVec 8

/-- `spinand_check_ecc_status`, of a chip without a `get_status` of its own. -/
def spinandCheckEccStatus (strength : ℕ) (status : BitVec 8) : ℤ :=
  if status &&& 0x30 = 0 then 0
  else if status &&& 0x30 = 0x10 then strength
  else if status &&& 0x30 = 0x20 then -ebadmsg
  else -einval

/-- The loop of `spinand_read_from_cache_op`, which has one turn: reads are not split. -/
def readFromCacheLoop (req : NandPageIoReq) (s : chip.State) : (ℤ × Bytes) × chip.State :=
  if cacheBytes m req = 0 then ((0, []), s)
  else chip.readCache (cacheColumn m req) (cacheBytes m req) s

/-- What `spinand_read_from_cache_op` copies to the buffers of a request.  No byte is looked at that was
not read, in a layout within the spare bytes. -/
def copyFromCache (req : NandPageIoReq) (read : Bytes) (bufs : RequestBuffers) : RequestBuffers :=
  let byte := fun c => read.getD (c - cacheStart m req) 0
  { data := copyTo bufs.data req.databuf req.datalen fun i => byte (req.dataoffs + i)
    oob :=
      if req.ooblen = 0 then bufs.oob
      else if req.mode = .autoOob then
        mtdOoblayoutGetDatabytes layout (fun i => byte (m.pagesize + i)) req.oobbuf req.ooboffs
          req.ooblen bufs.oob
      else copyTo bufs.oob req.oobbuf req.ooblen fun i => byte (m.pagesize + req.ooboffs + i) }

/-- `spinand_read_page` -/
def spinandReadPage (strength : ℕ) (req : NandPageIoReq) (eccEnabled : Bool) (bufs : RequestBuffers)
    (s : chip.State) : ℤ × chip.State × RequestBuffers :=
  let load := chip.pageRead (rowAddress m req.pos) s
  if load.1 ≠ 0 then (load.1, load.2, bufs)
  else
    let wait := spinandWait chip load.2
    if wait.1.1 < 0 then (wait.1.1, wait.2, bufs)
    else
      let read := readFromCacheLoop chip m req wait.2
      if read.1.1 ≠ 0 then (read.1.1, read.2, bufs)
      else
        (if eccEnabled then spinandCheckEccStatus strength wait.1.2 else 0, read.2,
          copyFromCache m layout req read.1.2 bufs)

/-- What the loops over pages do with the chip and the buffers of a request.  There is one target. -/
def SpiNand.ops (strength : ℕ) : SpinandOps (chip.State × RequestBuffers) where
  selectTarget target s := (if m.ntargets ≤ target then -einval else 0, s)
  eccEnable enable s := ((chip.eccEnable enable s.1).1, (chip.eccEnable enable s.1).2, s.2)
  readPage req eccEnabled s := spinandReadPage chip m layout strength req eccEnabled s.2 s.1
  writePage req s :=
    let page := spinandWritePage chip m layout req s.2.data s.2.oob s.1
    (page.1, page.2, s.2)

/-- The byte of the flash at an offset. -/
def SpiNand.byteAt (s : chip.State) (offs : ℕ) : BitVec 8 :=
  chip.cells s (rowAddress m (nanddevOffsToPos m offs).2) (offs % m.pagesize)

end

section
variable {chip : SpiNand} {m : MemoryOrganization} {layout : List OobRegion} {req : NandPageIoReq}
  {data oob : ℕ → BitVec 8}

theorem waitLoop_cells (turns : ℕ) (s : chip.State) :
    chip.cells (spinandWaitLoop chip turns s).2 = chip.cells s := by
  induction turns generalizing s with
  | zero =>
    rw [spinandWaitLoop]
    split <;> exact chip.cells_readStatus s
  | succ turns ih =>
    rw [spinandWaitLoop]
    split
    · exact chip.cells_readStatus s
    · split
      · exact (ih _).trans (chip.cells_readStatus s)
      · exact chip.cells_readStatus s

/-- What is known after a wait that succeeds: the bit for a failed program, the cache, and that the chip
is not busy. -/
theorem waitLoop_status (turns : ℕ) (s : chip.State) (waited : (spinandWaitLoop chip turns s).1.1 = 0) :
    (spinandWaitLoop chip turns s).1.2.getLsbD 3 = chip.progFailed s ∧
      chip.cache (spinandWaitLoop chip turns s).2 = chip.cache s ∧
      chip.busy (spinandWaitLoop chip turns s).2 = false := by
  induction turns generalizing s with
  | zero =>
    rw [spinandWaitLoop] at waited ⊢
    split at waited
    next bad => exact absurd waited bad
    next good =>
      rw [if_neg good]
      have read := not_not.mp good
      have ready : (chip.readStatus s).1.2.getLsbD 0 = false :=
        Bool.eq_false_iff.mpr fun busy => absurd ((if_pos busy).symm.trans waited) (by decide)
      exact ⟨chip.readStatus_progFailed s read, chip.cache_readStatus s,
        chip.busy_readStatus s read ready⟩
  | succ turns ih =>
    rw [spinandWaitLoop] at waited ⊢
    split at waited
    next bad => exact absurd waited bad
    next good =>
      rw [if_neg good]
      split at waited
      next busy =>
        rw [if_pos busy]
        obtain ⟨bit, kept, idle⟩ := ih _ waited
        exact ⟨bit.trans (chip.progFailed_readStatus s), kept.trans (chip.cache_readStatus s), idle⟩
      next ready =>
        rw [if_neg ready]
        have read := not_not.mp good
        exact ⟨chip.readStatus_progFailed s read, chip.cache_readStatus s,
          chip.busy_readStatus s read (Bool.eq_false_iff.mpr ready)⟩

/-- What no load changes is as it was when all bytes are sent. -/
theorem writeToCacheLoop_keeps {α : Type} {f : chip.State → α}
    (keeps : ∀ reset column bytes s, f (chip.progLoad reset column bytes s).2 = f s)
    (buf : ℕ → BitVec 8) (reset : Bool) (column : BitVec 16) (place nbytes : ℕ) (s : chip.State) :
    f (writeToCacheLoop chip buf reset column place nbytes s).2 = f s := by
  induction nbytes using Nat.strongRecOn generalizing reset column place s with
  | ind nbytes ih =>
    rw [writeToCacheLoop]
    split
    next => rfl
    next some =>
      have sent : 0 < min nbytes FpgaQspi.maxDataCmdLen.toNat :=
        Nat.lt_min.mpr ⟨Nat.pos_of_ne_zero some, by decide⟩
      dsimp only
      split
      · exact keeps ..
      · exact (ih _ (by omega) ..).trans (keeps ..)

/-- The bytes are in the cache of the plane, whatever the number of commands that it took to send
them. -/
theorem writeToCacheLoop_cache (buf : ℕ → BitVec 8) (reset : Bool) {column : BitVec 16}
    {plane start : ℕ} (place nbytes : ℕ) (s : chip.State) (ready : chip.busy s = false)
    (enabled : chip.enabled s = true) (planes : (plane + 1) * 2 ^ chip.columnBits ≤ 2 ^ 16)
    (inPlane : start + nbytes ≤ 2 ^ chip.columnBits)
    (begins : nbytes ≠ 0 → column.toNat = join (2 ^ chip.columnBits) plane start)
    (ran : (writeToCacheLoop chip buf reset column place nbytes s).1 = 0) (c : ℕ) :
    chip.cache (writeToCacheLoop chip buf reset column place nbytes s).2 plane c =
      if start ≤ c ∧ c < start + nbytes then buf (place + (c - start))
      else if reset = true ∧ nbytes ≠ 0 then 0xFF
      else chip.cache s plane c := by
  induction nbytes using Nat.strongRecOn generalizing reset column start place s with
  | ind nbytes ih =>
    rw [writeToCacheLoop] at ran ⊢
    split at ran
    next none =>
      rw [if_pos none, if_neg (by omega), if_neg fun both => both.2 none]
    next some =>
      rw [if_neg some]
      have less : start < 2 ^ chip.columnBits := by omega
      have here := begins some
      have home : column.toNat / 2 ^ chip.columnBits = plane := by rw [here, join_div less]
      have first : column.toNat % 2 ^ chip.columnBits = start := by rw [here, join_mod less]
      have sent : 0 < min nbytes FpgaQspi.maxDataCmdLen.toNat :=
        Nat.lt_min.mpr ⟨Nat.pos_of_ne_zero some, by decide⟩
      have most : min nbytes FpgaQspi.maxDataCmdLen.toNat ≤ nbytes := Nat.min_le_left ..
      have held : min nbytes FpgaQspi.maxDataCmdLen.toNat ≤ FpgaQspi.maxDataCmdLen.toNat :=
        Nat.min_le_right ..
      generalize min nbytes FpgaQspi.maxDataCmdLen.toNat = n at ran sent most held
      -- the column of the next command is in the plane, if there is one
      have next : nbytes - n ≠ 0 → (column + BitVec.ofNat 16 n).toNat =
          join (2 ^ chip.columnBits) plane (start + n) := fun more => by
        have inside : join (2 ^ chip.columnBits) plane (start + n) < 2 ^ 16 :=
          (join_lt_mul (show start + n < 2 ^ chip.columnBits by omega)
            (Nat.lt_succ_self plane)).trans_le planes
        rw [join] at inside here ⊢
        rw [BitVec.toNat_add, BitVec.toNat_ofNat, Nat.add_mod_mod, here, Nat.mod_eq_of_lt (by omega)]
        omega
      have byte (inside : start ≤ c ∧ c < start + n) :
          ((List.range n).map fun i => buf (place + i)).getD (c - start) 0 =
            buf (place + (c - start)) := by
        have less : c - start < n := by omega
        simp [List.getD_eq_getElem?_getD, less]
      dsimp only at ran ⊢
      split at ran
      next bad => exact absurd ran bad
      next good =>
        have loaded := chip.cache_progLoad _ _ _ _ ready enabled
          (by rwa [List.length_map, List.length_range])
          (by rw [first, List.length_map, List.length_range]; omega) (not_not.mp good) c
        rw [home, first, List.length_map, List.length_range] at loaded
        rw [if_neg good, ih _ (by omega) _ _ _ ((chip.busy_progLoad ..).trans ready)
          ((chip.enabled_progLoad ..).trans enabled) (by omega) next ran, loaded]
        by_cases later : start + n ≤ c ∧ c < start + n + (nbytes - n)
        · rw [if_pos later, if_pos (by omega)]
          congr 1
          omega
        · rw [if_neg later, if_neg (by simp)]
          by_cases inside : start ≤ c ∧ c < start + n
          · rw [if_pos inside, if_pos (by omega), byte inside]
          · rw [if_neg inside, if_neg (show ¬(start ≤ c ∧ c < start + nbytes) by omega)]
            simp [some]

/-- A request for bytes of a page, with spare bytes of the page. -/
structure NandPageIoReq.Fits (m : MemoryOrganization) (req : NandPageIoReq) : Prop where
  pos : req.pos.Within m
  data : req.dataoffs + req.datalen ≤ m.pagesize
  oob : req.ooblen ≠ 0 → req.ooboffs + req.ooblen ≤ m.oobsize
  some : req.datalen ≠ 0 ∨ req.ooblen ≠ 0

theorem NandPageIoReq.Fits.cacheBytes_ne_zero (fits : req.Fits m) : cacheBytes m req ≠ 0 := by
  have data := fits.data
  have oob := fits.oob
  rw [cacheBytes]
  rcases fits.some with some | some
  · rw [if_pos some]
    omega
  · have inside := oob some
    rw [if_pos some]
    omega

theorem cacheStart_add_cacheBytes_le (m : MemoryOrganization) (req : NandPageIoReq) :
    cacheStart m req + cacheBytes m req ≤ m.pagesize + m.oobsize := by
  rw [cacheStart, cacheBytes]
  split <;> split <;> omega

/-- Bytes of the page that are not sent to the cache are blank. -/
theorem pageBuffer_data (data oob : ℕ → BitVec 8) {c : ℕ} (inPage : c < m.pagesize) :
    pageBuffer m layout req data oob c =
      if req.dataoffs ≤ c ∧ c < req.dataoffs + req.datalen then data (req.databuf + (c - req.dataoffs))
      else 0xFF := by
  rw [pageBuffer]
  split
  · rfl
  · split
    · exact mtdOoblayoutSetDatabytes_of_lt inPage
    · exact copyTo_of_lt (inPage.trans_le (Nat.le_add_right ..))

theorem pageBuffer_of_notSent (fits : req.Fits m) (data oob : ℕ → BitVec 8) {c : ℕ}
    (inPage : c < m.pagesize)
    (notSent : ¬(cacheStart m req ≤ c ∧ c < cacheStart m req + cacheBytes m req)) :
    pageBuffer m layout req data oob c = 0xFF := by
  have inside := fits.data
  rw [pageBuffer_data data oob inPage, if_neg]
  intro sent
  have some : req.datalen ≠ 0 := by omega
  rw [cacheStart, cacheBytes, if_pos some, if_pos some] at notSent
  omega

/-! ### Rows and columns -/

theorem toNat_rowAddress (usable : m.Usable) {pos : NandPos} (inside : pos.Within m)
    (rows : rowBits m ≤ 24) :
    (rowAddress m pos).toNat = (nanddevPosToRow m pos).toNat := by
  rw [rowAddress, BitVec.toNat_setWidth, Nat.mod_eq_of_lt]
  rw [toNat_nanddevPosToRow usable inside (rows.trans (by decide))]
  have digits := join_lt_mul (lt_two_pow_size inside.page)
    (join_lt_mul (lt_two_pow_size inside.eraseblock) (lt_two_pow_size inside.lun))
  refine digits.trans_le ?_
  rw [← Nat.pow_add, ← Nat.pow_add, Nat.add_assoc]
  exact Nat.pow_le_pow_right (by decide) rows

/-- No two positions of a target are at one row. -/
theorem rowAddress_inj (usable : m.Usable) {pos pos' : NandPos} (inside : pos.Within m)
    (inside' : pos'.Within m) (rows : rowBits m ≤ 24) (target : pos.target = pos'.target) :
    rowAddress m pos = rowAddress m pos' ↔ pos = pos' := by
  rw [← BitVec.toNat_inj, toNat_rowAddress usable inside rows, toNat_rowAddress usable inside' rows,
    BitVec.toNat_inj]
  exact nanddevPosToRow_inj usable (rows.trans (by decide)) inside inside' target

/-- The column of a command has the plane of the page above the place in the page. -/
theorem SpiNand.Addressed.toNat_cacheColumn (addressed : chip.Addressed m) (usable : m.Usable)
    (fits : req.Fits m) :
    (cacheColumn m req).toNat = join (2 ^ chip.columnBits) req.pos.plane (cacheStart m req) := by
  have columns := addressed.columns
  have planes := addressed.planes
  have sent := cacheStart_add_cacheBytes_le m req
  have some := fits.cacheBytes_ne_zero
  have less : cacheStart m req < 2 ^ chip.columnBits := by omega
  have most : 2 ^ chip.columnBits ≤ 2 ^ 16 :=
    (Nat.le_mul_of_pos_left _ usable.planesPerLun).trans planes
  have start : (BitVec.ofNat 16 (cacheStart m req)).toNat = cacheStart m req := by
    rw [BitVec.toNat_ofNat, Nat.mod_eq_of_lt (less.trans_le most)]
  have plane := fits.pos.plane
  rw [cacheColumn, spinandCacheOpAdjustColum]
  split
  next one =>
    have none : m.planesPerLun = 1 := Nat.le_antisymm (Nat.le_of_lt_succ one) usable.planesPerLun
    rw [start, plane, none, Nat.mod_one, join, Nat.zero_mul, Nat.add_zero]
  next many =>
    have size : genericFls (BitVec.ofNat 32 m.pagesize) = chip.columnBits := by
      rw [genericFls_eq, BitVec.toNat_ofNat, Nat.mod_eq_of_lt, addressed.shift (by omega)]
      omega
    have inPlanes : req.pos.plane < m.planesPerLun := plane.trans_lt (Nat.mod_lt _ usable.planesPerLun)
    have shifted : req.pos.plane <<< chip.columnBits < 2 ^ 16 := by
      rw [Nat.shiftLeft_eq]
      exact (Nat.mul_lt_mul_of_pos_right inPlanes (Nat.two_pow_pos _)).trans_le planes
    have small : req.pos.plane < 2 ^ 32 := by
      have le := Nat.le_mul_of_pos_right m.planesPerLun (Nat.two_pow_pos chip.columnBits)
      omega
    dsimp only
    rw [size, BitVec.toNat_or, start, BitVec.toNat_setWidth, BitVec.toNat_shiftLeft, BitVec.toNat_ofNat,
      Nat.mod_eq_of_lt small, Nat.mod_eq_of_lt (shifted.trans (by decide)), Nat.mod_eq_of_lt shifted,
      join_two_pow less, Nat.or_comm]

theorem SpiNand.Addressed.plane_fits (addressed : chip.Addressed m) (usable : m.Usable)
    (fits : req.Fits m) : (req.pos.plane + 1) * 2 ^ chip.columnBits ≤ 2 ^ 16 := by
  have inPlanes : req.pos.plane < m.planesPerLun :=
    fits.pos.plane.trans_lt (Nat.mod_lt _ usable.planesPerLun)
  exact (Nat.mul_le_mul_right _ inPlanes).trans addressed.planes

theorem SpiNand.Addressed.plane_eq (addressed : chip.Addressed m) (fits : req.Fits m)
    (target : req.pos.target < m.ntargets) : chip.plane (rowAddress m req.pos) = req.pos.plane :=
  addressed.plane _ fits.pos (Nat.lt_one_iff.mp (addressed.ntargets ▸ target))

/-! ### Writes of a page -/

/-- Of the cells, a program changes none of another row. -/
theorem spinandWritePage_cells_ne {row : BitVec 24} (other : row ≠ rowAddress m req.pos)
    (data oob : ℕ → BitVec 8) (s : chip.State) :
    chip.cells (spinandWritePage chip m layout req data oob s).2 row = chip.cells s row := by
  have enabled := congrFun (chip.cells_writeEnable s) row
  rw [spinandWritePage]
  split
  next => exact enabled
  next =>
    refine Eq.trans ?_ enabled
    have loaded := congrFun (writeToCacheLoop_keeps chip.cells_progLoad
      (pageBuffer m layout req data oob) true (cacheColumn m req) (cacheStart m req)
      (cacheBytes m req) (chip.writeEnable s).2) row
    refine Eq.trans ?_ loaded
    rw [spinandProgramPage]
    split
    next => rfl
    next =>
      dsimp only
      split
      · exact chip.cells_progExec_ne _ _ _ other
      · exact (congrFun (waitLoop_cells 40001 _) row).trans (chip.cells_progExec_ne _ _ _ other)

/-- After a page of which the write succeeds the chip is not busy, and if it was not before, bits are
cleared where the buffer has them clear. -/
theorem spinandWritePage_cells (addressed : chip.Addressed m) (usable : m.Usable)
    (target : req.pos.target < m.ntargets) (data oob : ℕ → BitVec 8) (s : chip.State)
    (ready : chip.busy s = false) (ran : (spinandWritePage chip m layout req data oob s).1 = 0) :
    chip.busy (spinandWritePage chip m layout req data oob s).2 = false ∧
      (req.Fits m → ∀ c < m.pagesize,
        chip.cells (spinandWritePage chip m layout req data oob s).2 (rowAddress m req.pos) c =
          chip.cells s (rowAddress m req.pos) c &&& pageBuffer m layout req data oob c) := by
  rw [spinandWritePage] at ran ⊢
  split at ran
  next bad => exact absurd ran bad
  next good =>
    rw [if_neg good]
    have enabled := chip.enabled_writeEnable s ready (not_not.mp good)
    have idle := (chip.busy_writeEnable s).trans ready
    have kept {α : Type} {f : chip.State → α}
        (keeps : ∀ reset column bytes s, f (chip.progLoad reset column bytes s).2 = f s) :=
      writeToCacheLoop_keeps keeps (pageBuffer m layout req data oob) true (cacheColumn m req)
        (cacheStart m req) (cacheBytes m req) (chip.writeEnable s).2
    have cells := (kept chip.cells_progLoad).trans (chip.cells_writeEnable s)
    have loadIdle := (kept chip.busy_progLoad).trans idle
    have loadEnabled := (kept chip.enabled_progLoad).trans enabled
    have cache (fits : req.Fits m) := writeToCacheLoop_cache (pageBuffer m layout req data oob) true
      (cacheStart m req) (cacheBytes m req) (chip.writeEnable s).2 idle enabled
      (addressed.plane_fits usable fits)
      ((cacheStart_add_cacheBytes_le m req).trans addressed.columns)
      fun _ => addressed.toNat_cacheColumn usable fits
    generalize writeToCacheLoop chip (pageBuffer m layout req data oob) true (cacheColumn m req)
      (cacheStart m req) (cacheBytes m req) (chip.writeEnable s).2 = load
      at ran cells cache loadIdle loadEnabled
    rw [spinandProgramPage] at ran ⊢
    split at ran
    next bad => exact absurd ran bad
    next loaded =>
      rw [if_neg loaded]
      dsimp only at ran ⊢
      split at ran
      next bad => exact absurd ran bad
      next executed =>
        rw [if_neg executed]
        dsimp only at ran ⊢
        split at ran
        next => exact absurd ran (by decide)
        next fine =>
          obtain ⟨bit, -, done⟩ := waitLoop_status 40001 _ ran
          have passed : chip.progFailed (chip.progExec (rowAddress m req.pos) load.2).2 = false :=
            bit.symm.trans (Bool.eq_false_iff.mpr fun set => fine ⟨ran, set⟩)
          refine ⟨done, fun fits c inPage => ?_⟩
          rw [spinandWait, waitLoop_cells,
            chip.cells_progExec _ _ loadIdle loadEnabled (not_not.mp executed) passed, cells]
          show _ &&& chip.cache load.2 (chip.plane (rowAddress m req.pos)) c = _
          rw [addressed.plane_eq fits target, cache fits (not_not.mp loaded)]
          split
          next sent => rw [Nat.add_sub_of_le sent.1]
          next notSent =>
            rw [if_pos ⟨rfl, fits.cacheBytes_ne_zero⟩,
              pageBuffer_of_notSent fits data oob inPage notSent]

/-! ### Reads of a page -/

theorem waitLoop_le (turns : ℕ) (s : chip.State) : (spinandWaitLoop chip turns s).1.1 ≤ 0 := by
  induction turns generalizing s with
  | zero =>
    rw [spinandWaitLoop]
    split
    · exact chip.readStatus_le s
    · dsimp only
      split <;> decide
  | succ turns ih =>
    rw [spinandWaitLoop]
    split
    · exact chip.readStatus_le s
    · split
      · exact ih _
      · exact Int.le_refl 0

/-- What no read of a cache changes is as it was when the bytes are there. -/
theorem readFromCacheLoop_keeps {α : Type} {f : chip.State → α}
    (keeps : ∀ column n s, f (chip.readCache column n s).2 = f s) (req : NandPageIoReq)
    (s : chip.State) : f (readFromCacheLoop chip m req s).2 = f s := by
  rw [readFromCacheLoop]
  split
  · rfl
  · exact keeps ..

theorem spinandReadPage_cells (strength : ℕ) (req : NandPageIoReq) (eccEnabled : Bool)
    (bufs : RequestBuffers) (s : chip.State) :
    chip.cells (spinandReadPage chip m layout strength req eccEnabled bufs s).2.1 = chip.cells s := by
  have loaded := chip.cells_pageRead (rowAddress m req.pos) s
  have waited := (waitLoop_cells 40001 _).trans loaded
  have read := (readFromCacheLoop_keeps chip.cells_readCache (m := m) req _).trans waited
  rw [spinandReadPage]
  dsimp only
  split
  · exact loaded
  · split
    · exact waited
    · split <;> exact read

/-- The bytes that are read are those of the cache. -/
theorem readFromCacheLoop_byte (addressed : chip.Addressed m) (usable : m.Usable) (fits : req.Fits m)
    {s : chip.State} (ready : chip.busy s = false)
    (ran : (readFromCacheLoop chip m req s).1.1 = 0) {c : ℕ} (after : cacheStart m req ≤ c)
    (before : c < cacheStart m req + cacheBytes m req) :
    (readFromCacheLoop chip m req s).1.2.getD (c - cacheStart m req) 0 =
      chip.cache s req.pos.plane c := by
  have columns := (cacheStart_add_cacheBytes_le m req).trans addressed.columns
  have column := addressed.toNat_cacheColumn usable fits
  have inPlane : cacheStart m req < 2 ^ chip.columnBits := by omega
  rw [readFromCacheLoop, if_neg fits.cacheBytes_ne_zero] at ran ⊢
  rw [chip.readCache_eq _ _ _ ready (by rw [column, join_mod inPlane]; exact columns) ran, column,
    join_div inPlane, join_mod inPlane]
  have less : c - cacheStart m req < cacheBytes m req := by omega
  simp [List.getD_eq_getElem?_getD, less, Nat.add_sub_of_le after]

/-- After a read that returns no error the chip is not busy, and if it was not before, the bytes of the
page are in the buffer. -/
theorem spinandReadPage_data (addressed : chip.Addressed m) (usable : m.Usable)
    (target : req.pos.target < m.ntargets) (strength : ℕ) (eccEnabled : Bool) (bufs : RequestBuffers)
    (s : chip.State) (idle : chip.busy s = false)
    (ran : 0 ≤ (spinandReadPage chip m layout strength req eccEnabled bufs s).1) :
    chip.busy (spinandReadPage chip m layout strength req eccEnabled bufs s).2.1 = false ∧
      (req.Fits m → (spinandReadPage chip m layout strength req eccEnabled bufs s).2.2.data =
        copyTo bufs.data req.databuf req.datalen fun i =>
          chip.cells s (rowAddress m req.pos) (req.dataoffs + i)) := by
  rw [spinandReadPage] at ran ⊢
  dsimp only at ran ⊢
  split at ran
  next bad => exact absurd (Int.le_antisymm (chip.pageRead_le ..) ran) bad
  next loaded =>
    rw [if_neg loaded]
    split at ran
    next bad => exact absurd ran (Int.not_le.mpr bad)
    next good =>
      rw [if_neg good]
      have waited := Int.le_antisymm (waitLoop_le 40001 _) (Int.not_lt.mp good)
      obtain ⟨-, cache, ready⟩ : _ ∧ _ ∧ chip.busy (spinandWait chip _).2 = false :=
        waitLoop_status 40001 _ waited
      have page := chip.cache_pageRead _ _ idle (not_not.mp loaded)
      split at ran
      next bad =>
        refine absurd (Int.le_antisymm ?_ ran) bad
        rw [readFromCacheLoop]
        split
        · exact Int.le_refl 0
        · exact chip.readCache_le ..
      next read =>
        rw [if_neg read]
        refine ⟨(readFromCacheLoop_keeps chip.busy_readCache req _).trans ready, fun fits => ?_⟩
        rw [addressed.plane_eq fits target] at page
        have data := fits.data
        refine funext fun i => ?_
        rw [copyFromCache]
        dsimp only
        rw [copyTo, copyTo]
        split
        next here =>
          have some : req.datalen ≠ 0 := by omega
          have sent : cacheStart m req = 0 ∧ m.pagesize ≤ cacheBytes m req := by
            rw [cacheStart, cacheBytes, if_pos some, if_pos some]
            exact ⟨rfl, Nat.le_add_right ..⟩
          rw [readFromCacheLoop_byte addressed usable fits ready (not_not.mp read) (by omega)
            (by omega)]
          exact congrFun ((congrFun cache _).trans page) _
        next => rfl

end

end Hss.Nand
