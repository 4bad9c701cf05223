import Hss.W25n.Device

/-! Pages that the driver of the W25N01GV flash programs and reads back. -/

namespace Hss

open Pieces

namespace W25n

variable {d : W25nDelay} {s : W25n}

/-! ### The subpages of a page -/

/-- A range of `buffer` replaced by the bytes that `bytes` has there. -/
def overlay (buffer bytes : ℕ → BitVec 8) (start total : ℕ) : ℕ → BitVec 8 := fun i =>
  if start ≤ i ∧ i < start + total then bytes i else buffer i

theorem writeBuffer_eq_overlay (buffer bytes : ℕ → BitVec 8) (start total : ℕ) :
    writeBuffer buffer start (firstBytes (fun i => bytes (start + i)) total) =
      overlay buffer bytes start total := by
  funext i
  unfold overlay
  split
  · next mem =>
    rw [writeBuffer_of_mem mem.1 (by rw [length_firstBytes]; exact mem.2), firstBytes,
      List.getD_eq_getElem _ _ (by simp; omega)]
    simp [Nat.add_sub_cancel' mem.1]
  · next notMem => exact writeBuffer_of_notMem (by rw [length_firstBytes]; omega)

theorem overlay_overlay (buffer bytes : ℕ → BitVec 8) {start length total : ℕ}
    (le : length ≤ total) : overlay (overlay buffer bytes start length) bytes (start + length)
      (total - length) = overlay buffer bytes start total := by
  funext i
  unfold overlay
  grind

/-- The frame of a load: the opcode and the column over the data of the frame before, and the data. -/
theorem firstBytes_load (commandBuf : ℕ → BitVec 8) (opcode high low : BitVec 8) (data : Bytes) :
    firstBytes (writeBuffer (writeBuffer commandBuf 0 [opcode, high, low]) 3 data)
      (1 + data.length + 2) = opcode :: high :: low :: data := by
  have header := firstBytes_writeBuffer commandBuf 0 [opcode, high, low]
  rw [show 1 + data.length + 2 = 3 + data.length by omega, firstBytes_writeBuffer]
  exact congrArg (· ++ data) header

theorem loadSubpage (ready : s.busy = 0) (commandBuf txBuf : ℕ → BitVec 8) {column length : ℕ}
    (less : column < 65536) (short : length ≤ mssQspiCmdbytesLimit) (rest : List (ℕ × ℕ)) :
    ∃ commandBuf', (bus d).loadSubpages txBuf ((column, length) :: rest) commandBuf s =
      (bus d).loadSubpages txBuf rest commandBuf' { s with
        buffer := overlay (if column = 0 then fun _ => 0xFF else s.buffer) txBuf column length
        wel := true } := by
  have size := length_firstBytes (fun idx => txBuf (column + idx)) length
  have frame := firstBytes_load commandBuf
    (if column = 0 then loadProgramDataOpcode else randomLoadProgramDataOpcode) (highByte column)
    (lowByte column) (firstBytes (fun idx => txBuf (column + idx)) length)
  have load := transfer_load (d := d) (s := { s with wel := true }) ready rfl less
    (size.trans_le short)
  rw [size] at frame
  rw [writeBuffer_eq_overlay] at load
  refine ⟨writeBuffer (writeBuffer commandBuf 0
    [if column = 0 then loadProgramDataOpcode else randomLoadProgramDataOpcode, highByte column,
      lowByte column]) 3 (firstBytes (fun idx => txBuf (column + idx)) length), ?_⟩
  rw [QspiBus.loadSubpages, sendWriteEnableCommand_eq ready, polledTransferBlock_eq]
  dsimp only
  rw [frame]
  exact congrArg (QspiBus.loadSubpages _ _ _ _) load

/-- The subpages after the first one, whose columns are not 0. -/
theorem loadSubpages_rest (txBuf : ℕ → BitVec 8) (start total : ℕ) :
    0 < start → start + total ≤ pageLength → ∀ (s : W25n) (commandBuf : ℕ → BitVec 8), s.busy = 0 →
      s.wel = true → ∃ commandBuf', (bus d).loadSubpages txBuf
        (pieces mssQspiCmdbytesLimit start total) commandBuf s =
          (commandBuf', { s with buffer := overlay s.buffer txBuf start total }) := by
  refine pieces_induct (by decide) (motive := fun start total ps => 0 < start →
    start + total ≤ pageLength → ∀ (s : W25n) (commandBuf : ℕ → BitVec 8), s.busy = 0 →
      s.wel = true → ∃ commandBuf', (bus d).loadSubpages txBuf ps commandBuf s =
        (commandBuf', { s with buffer := overlay s.buffer txBuf start total })) ?_ ?_ start total
  · intro start _ _ s commandBuf _ _
    have same : overlay s.buffer txBuf start 0 = s.buffer := funext fun i => if_neg (by omega)
    rw [same]
    exact ⟨commandBuf, rfl⟩
  · intro start total length rest positive le fits _ ih later inside s commandBuf ready enabled
    have less : start < 65536 := by
      rw [pageLength] at inside
      omega
    obtain ⟨commandBuf', load⟩ := loadSubpage (d := d) ready commandBuf txBuf less
      ((Nat.le_add_left ..).trans fits) rest
    obtain ⟨commandBuf'', loads⟩ := ih (by omega) (by omega) { s with
      buffer := overlay s.buffer txBuf start length
      wel := true } commandBuf' ready rfl
    refine ⟨commandBuf'', ?_⟩
    rw [load, if_neg (Nat.ne_of_gt later), loads, overlay_overlay _ _ le, enabled]

/-- The subpages of a page, after which the page buffer holds the data and the rest of it is reset. -/
theorem loadSubpages_page (txBuf : ℕ → BitVec 8) {wrLen : ℕ} (some : 0 < wrLen)
    (inside : wrLen ≤ pageLength) (ready : s.busy = 0) (commandBuf : ℕ → BitVec 8) :
    ∃ commandBuf', (bus d).loadSubpages txBuf (pieces mssQspiCmdbytesLimit 0 wrLen) commandBuf s =
      (commandBuf', { s with buffer := overlay (fun _ => 0xFF) txBuf 0 wrLen, wel := true }) := by
  have limit : mssQspiCmdbytesLimit - 0 % mssQspiCmdbytesLimit = mssQspiCmdbytesLimit := by decide
  have short : min mssQspiCmdbytesLimit wrLen ≤ mssQspiCmdbytesLimit := Nat.min_le_left ..
  have le : min mssQspiCmdbytesLimit wrLen ≤ wrLen := Nat.min_le_right ..
  have positive : 0 < min mssQspiCmdbytesLimit wrLen := Nat.lt_min.mpr ⟨by decide, some⟩
  rw [pieces_of_pos (by decide) some, limit]
  obtain ⟨commandBuf', load⟩ := loadSubpage (d := d) ready commandBuf txBuf
    (show 0 < 65536 by decide) short
    (pieces mssQspiCmdbytesLimit (0 + min mssQspiCmdbytesLimit wrLen)
      (wrLen - min mssQspiCmdbytesLimit wrLen))
  obtain ⟨commandBuf'', loads⟩ := loadSubpages_rest (d := d) txBuf
    (0 + min mssQspiCmdbytesLimit wrLen) (wrLen - min mssQspiCmdbytesLimit wrLen)
    (by omega) (by omega) { s with
      buffer := overlay (fun _ => 0xFF) txBuf 0 (min mssQspiCmdbytesLimit wrLen)
      wel := true } commandBuf' ready rfl
  refine ⟨commandBuf'', ?_⟩
  rw [load, if_pos rfl, loads, overlay_overlay _ _ le]

/-! ### Pages -/

theorem programPage_eq (txBuf : ℕ → BitVec 8) {page wrLen : ℕ} (less : page < 65536)
    (some : 0 < wrLen) (inside : wrLen ≤ pageLength) (ready : s.busy = 0)
    (unprotected : s.protection = 0) :
    (bus d).programPage txBuf page wrLen s =
      ({ s with
        array := Function.update s.array page fun column =>
          s.array page column &&& overlay (fun _ => 0xFF) txBuf 0 wrLen column
        buffer := overlay (fun _ => 0xFF) txBuf 0 wrLen
        wel := false }, 0) := by
  obtain ⟨commandBuf, load⟩ := loadSubpages_page (d := d) txBuf some inside ready fun _ => 0
  have frame : firstBytes (writeBuffer commandBuf 0
      [programExecuteOpcode, 0, highByte page, lowByte page]) (1 + 3 + 0) =
        [programExecuteOpcode, 0, highByte page, lowByte page] :=
    firstBytes_writeBuffer commandBuf 0 [programExecuteOpcode, 0, highByte page, lowByte page]
  have execute := transfer_programExecute (d := d)
    (s := { s with buffer := overlay (fun _ => 0xFF) txBuf 0 wrLen, wel := true }) ready rfl
    unprotected less
  rw [QspiBus.programPage, QspiBus.programPageStatus, load]
  dsimp only
  rw [sendWriteEnableCommand_eq (by exact ready), polledTransferBlock_eq]
  dsimp only
  rw [frame, execute, waitIfBusyOrWel_eq (by exact d.polls_lt) rfl]
  dsimp only
  rw [ready]
  rfl

/-- A page is read from its start, and reading it leaves it in the page buffer. -/
theorem readPage_eq (ioFormat : MssQspiIoFormat) {page length : ℕ} (less : page < 65536)
    (inside : length ≤ pageLength) (ready : s.busy = 0) :
    (bus d).readPage ioFormat page 0 length s =
      ({ s with buffer := s.array page, wel := false }, firstBytes (s.array page) length, 0) := by
  have load := transfer_pageDataRead (d := d) ready less
  have read := transfer_bufferRead (d := d)
    (s := { s with buffer := s.array page, wel := false, busy := 0 }) rfl ioFormat
    (show 0 < 65536 by decide)
  have select : firstBytes (ofBytes [pageDataReadOpcode, 0, highByte page, lowByte page])
    (1 + 3 + 0) = [pageDataReadOpcode, 0, highByte page, lowByte page] := rfl
  have command : firstBytes (ofBytes [(QspiBus.readCommand ioFormat).1, highByte 0, lowByte 0,
    lowByte page]) (1 + 0 + 2) = [(QspiBus.readCommand ioFormat).1, highByte 0, lowByte 0] := rfl
  have idle : { s with busy := 0 } = s := by rw [← ready]
  rw [QspiBus.readPage, QspiBus.readPageStatus, waitIfBusy_eq (by rw [ready]; decide), idle]
  simp only [polledTransferBlock_eq, readStatusreg_eq, select, load]
  rw [waitIfBusy_eq (by exact d.polls_lt)]
  simp only [command, read, Nat.zero_add]
  rw [if_neg (Nat.not_lt.mpr inside), statusRegister_three, ready]
  simp

/-! ### Ranges of pages -/

/-- The bytes of a range of the buffer programmed over the cells of its pages, from `firstPage` on. -/
def programmedRange (array : ℕ → ℕ → BitVec 8) (buf : ℕ → BitVec 8) (firstPage start total : ℕ) :
    ℕ → ℕ → BitVec 8 := fun page column =>
  let i := (page - firstPage) * pageLength + column
  if column < pageLength ∧ firstPage ≤ page ∧ start ≤ i ∧ i < start + total then
    array page column &&& buf i
  else array page column

theorem programmedRange_page (array : ℕ → ℕ → BitVec 8) (buf : ℕ → BitVec 8) (firstPage : ℕ)
    {start length : ℕ} (aligned : start % pageLength = 0) (inside : length ≤ pageLength) :
    (Function.update array (firstPage + start / pageLength) fun column =>
      array (firstPage + start / pageLength) column &&&
        overlay (fun _ => 0xFF) (fun i => buf (start + i)) 0 length column) =
      programmedRange array buf firstPage start length := by
  funext page column
  rw [pageLength] at *
  by_cases here : page = firstPage + start / 2048
  · subst here
    rw [Function.update_self, overlay, programmedRange, pageLength]
    have place : (firstPage + start / 2048 - firstPage) * 2048 + column = start + column := by omega
    rw [place]
    by_cases mem : column < length
    · rw [if_pos (by omega), if_pos (by omega)]
    · rw [if_neg (by omega), if_neg (by omega)]
      exact BitVec.and_allOnes
  · rw [Function.update_of_ne here, programmedRange, pageLength]
    exact (if_neg (by omega)).symm

theorem programmedRange_add (array : ℕ → ℕ → BitVec 8) (buf : ℕ → BitVec 8) (firstPage : ℕ)
    {start length total : ℕ} (le : length ≤ total) :
    programmedRange (programmedRange array buf firstPage start length) buf firstPage (start + length)
      (total - length) = programmedRange array buf firstPage start total := by
  funext page column
  unfold programmedRange
  grind

theorem programPages_eq (buf : ℕ → BitVec 8) (firstPage start total : ℕ) :
    (total = 0 ∨ start % pageLength = 0) → firstPage * pageLength + (start + total) ≤ 2 ^ 27 →
    ∀ (s : W25n) (status : BitVec 8), s.busy = 0 → s.protection = 0 → ∃ t,
      (bus d).programPages buf firstPage (pieces pageLength start total) status s =
        (t, if total = 0 then status else 0) ∧
      t.array = programmedRange s.array buf firstPage start total ∧ t.busy = 0 := by
  refine pieces_induct (by decide) (motive := fun start total ps =>
    (total = 0 ∨ start % pageLength = 0) → firstPage * pageLength + (start + total) ≤ 2 ^ 27 →
    ∀ (s : W25n) (status : BitVec 8), s.busy = 0 → s.protection = 0 → ∃ t,
      (bus d).programPages buf firstPage ps status s = (t, if total = 0 then status else 0) ∧
      t.array = programmedRange s.array buf firstPage start total ∧ t.busy = 0) ?_ ?_ start total
  · intro start _ _ s status ready _
    refine ⟨s, rfl, ?_, ready⟩
    funext page column
    exact (if_neg (by omega)).symm
  · intro start total length rest positive le fits next ih aligned inside s status ready unprotected
    have whole : start % pageLength = 0 := aligned.resolve_left (by omega)
    rw [whole, Nat.zero_add] at fits next
    have page : firstPage + start / pageLength < 65536 := by
      rw [pageLength] at inside ⊢
      omega
    have program := programPage_eq (d := d) (fun i => buf (start + i)) page positive fits ready
      unprotected
    rw [programmedRange_page _ _ _ whole fits] at program
    obtain ⟨t, programs, array, ready'⟩ := ih
      (by rw [pageLength] at *; omega) (by omega)
      { s with
        array := programmedRange s.array buf firstPage start length
        buffer := overlay (fun _ => 0xFF) (fun i => buf (start + i)) 0 length
        wel := false } 0 ready unprotected
    refine ⟨t, ?_, ?_, ready'⟩
    · rw [QspiBus.programPages, program]
      refine programs.trans (congrArg (t, ·) ?_)
      rw [ite_self, if_neg (by omega)]
    · rw [array]
      exact programmedRange_add _ _ _ le

/-- What the pages hold, one after the other from `firstPage` on. -/
def contents (array : ℕ → ℕ → BitVec 8) (firstPage : ℕ) : ℕ → BitVec 8 := fun i =>
  array (firstPage + i / pageLength) (i % pageLength)

theorem readPages_eq (ioFormat : MssQspiIoFormat) (firstPage start total : ℕ) :
    (total = 0 ∨ start % pageLength = 0) → firstPage * pageLength + (start + total) ≤ 2 ^ 27 →
    ∀ (s : W25n) (dst : ℕ → BitVec 8), s.busy = 0 → ∃ t,
      (bus d).readPages ioFormat firstPage (pieces pageLength start total) dst s =
        (t, overlay dst (contents s.array firstPage) start total, 0) ∧ t.array = s.array := by
  refine pieces_induct (by decide) (motive := fun start total ps =>
    (total = 0 ∨ start % pageLength = 0) → firstPage * pageLength + (start + total) ≤ 2 ^ 27 →
    ∀ (s : W25n) (dst : ℕ → BitVec 8), s.busy = 0 → ∃ t,
      (bus d).readPages ioFormat firstPage ps dst s =
        (t, overlay dst (contents s.array firstPage) start total, 0) ∧ t.array = s.array)
    ?_ ?_ start total
  · intro start _ _ s dst _
    have same : overlay dst (contents s.array firstPage) start 0 = dst :=
      funext fun i => if_neg (by omega)
    rw [same]
    exact ⟨s, rfl, rfl⟩
  · intro start total length rest positive le fits next ih aligned inside s dst ready
    have whole : start % pageLength = 0 := aligned.resolve_left (by omega)
    rw [whole, Nat.zero_add] at fits next
    have page : firstPage + start / pageLength < 65536 := by
      rw [pageLength] at inside ⊢
      omega
    have bytes : firstBytes (s.array (firstPage + start / pageLength)) length =
        firstBytes (fun i => contents s.array firstPage (start + i)) length := by
      refine List.map_congr_left fun i mem => ?_
      have less := (List.mem_range.mp mem).trans_le fits
      rw [pageLength] at whole less
      rw [contents, pageLength, show (start + i) / 2048 = start / 2048 by omega,
        show (start + i) % 2048 = i by omega]
    obtain ⟨t, reads, array⟩ := ih (by rw [pageLength] at *; omega) (by omega)
      { s with buffer := s.array (firstPage + start / pageLength), wel := false }
      (overlay dst (contents s.array firstPage) start length) ready
    refine ⟨t, ?_, array⟩
    rw [QspiBus.readPages, readPage_eq ioFormat page fits ready]
    dsimp only
    rw [if_neg (by decide), bytes, writeBuffer_eq_overlay, reads]
    dsimp only
    rw [overlay_overlay _ _ le]

/-! ### The round trip -/

/-- The page has bytes of the range. -/
def OfRange (addr len page : ℕ) : Prop := addr / pageLength ≤ page ∧ page * pageLength < addr + len

theorem OfRange.of_index {addr len page column : ℕ} (aligned : addr % pageLength = 0)
    (first : addr / pageLength ≤ page)
    (last : (page - addr / pageLength) * pageLength + column < len) : OfRange addr len page := by
  obtain ⟨q, rfl⟩ := Nat.exists_eq_add_of_le first
  refine ⟨first, ?_⟩
  rw [Nat.add_sub_cancel_left] at last
  rw [Nat.add_mul, Nat.div_mul_cancel (Nat.dvd_of_mod_eq_zero aligned)]
  omega

def ErasedPages (s : W25n) (addr len : ℕ) : Prop :=
  ∀ page, OfRange addr len page → ∀ column < pageLength, s.array page column = 0xFF

/-- The bytes of the pages of `len` bytes. -/
def wholePages (len : ℕ) : ℕ := (len + pageLength - 1) / pageLength * pageLength

theorem contents_programmedRange (buf : ℕ → BitVec 8) {addr len : ℕ}
    (aligned : addr % pageLength = 0) (erased : s.ErasedPages addr len) {i : ℕ}
    (less : i < wholePages len) :
    contents (programmedRange s.array buf (addr / pageLength) 0 len) (addr / pageLength) i =
      if i < len then buf i else 0xFF := by
  have clear : s.array (addr / pageLength + i / pageLength) (i % pageLength) = 0xFF := by
    refine erased _ ⟨Nat.le_add_right .., ?_⟩ _ (Nat.mod_lt _ (by decide))
    rw [wholePages] at less
    rw [pageLength] at *
    omega
  have place : (addr / pageLength + i / pageLength - addr / pageLength) * pageLength +
      i % pageLength = i := by
    rw [pageLength]
    omega
  simp only [contents, programmedRange, place, clear]
  by_cases inside : i < len
  · rw [if_pos ⟨Nat.mod_lt _ (by decide), Nat.le_add_right .., by omega, by omega⟩, if_pos inside]
    exact BitVec.allOnes_and
  · rw [if_neg (by omega), if_neg inside]

end W25n

open W25n

/-- Whatever the format of the reads, pages that were erased and then programmed are read back as the
data, and as erased from there to the end of the last page; all other pages are as before. -/
theorem w25n01gv_roundTrip (d : W25nDelay) (ioFormat : MssQspiIoFormat) (buf dst : ℕ → BitVec 8)
    {addr len : ℕ} (aligned : addr % pageLength = 0)
    (inside : addr + len ≤ numBlocksPerDie * numPagesPerBlock * pageLength) (s : W25n)
    (ready : s.busy = 0) (erased : s.ErasedPages addr len) :
    ∃ t, (W25n.bus d).flashProgram buf addr len s = (t, if len = 0 then 0xFF else 0) ∧
      (∀ page, ¬ OfRange addr len page → t.array page = s.array page) ∧
      ∀ n ≤ wholePages len, ∃ u, (W25n.bus d).flashRead ioFormat dst addr n t =
        .ok (u, fun i => if i < n then if i < len then buf i else 0xFF else dst i, 0) ∧
          u.array = t.array := by
  have total : addr / pageLength * pageLength + (0 + len) ≤ 2 ^ 27 := by
    rw [show numBlocksPerDie * numPagesPerBlock * pageLength = 2 ^ 27 by decide] at inside
    rw [pageLength] at *
    omega
  obtain ⟨t, program, array, ready'⟩ := programPages_eq (d := d) buf (addr / pageLength) 0 len
    (.inr (by decide)) total { s with protection := 0 } 0xFF ready rfl
  refine ⟨t, ?_, fun page outside => ?_, fun n le => ?_⟩
  · rw [QspiBus.flashProgram, disableWriteProtect_eq ready, program]
  · rw [array]
    refine funext fun column => if_neg ?_
    rintro ⟨low, first, -, last⟩
    rw [Nat.zero_add] at last
    exact outside (.of_index aligned first last)
  · have whole : addr / pageLength * pageLength + (0 + n) ≤ 2 ^ 27 := by
      rw [wholePages] at le
      rw [pageLength] at aligned total le ⊢
      omega
    obtain ⟨u, read, same⟩ := readPages_eq (d := d) ioFormat (addr / pageLength) 0 n
      (.inr (by decide)) whole t dst ready'
    refine ⟨u, ?_, same⟩
    have bytes : overlay dst (contents t.array (addr / pageLength)) 0 n =
        fun i => if i < n then if i < len then buf i else 0xFF else dst i := by
      funext i
      unfold overlay
      by_cases less : i < n
      · rw [if_pos (by omega), if_pos less, array]
        exact contents_programmedRange buf aligned erased (less.trans_le le)
      · rw [if_neg (by omega), if_neg less]
    rw [QspiBus.flashRead, (assert_eq_ok (u := ())).mpr aligned, ok_bind,
      if_pos (by omega)]
    dsimp only
    rw [read, bytes]
    rfl

theorem polls_lt_maxSpinCount : 3 < maxSpinCount := by decide

/-- A flash after power-up, all of it erased and protected. -/
def erasedW25n : W25n := ⟨fun _ _ => 0xFF, fun _ => 0xFF, false, 0x7C, 0⟩

theorem w25n01gv_roundTrip_twoPages : ∃ t u,
    (W25n.bus ⟨3, polls_lt_maxSpinCount⟩).flashProgram (BitVec.ofNat 8) 4096 3000 erasedW25n = (t, 0) ∧
    (W25n.bus ⟨3, polls_lt_maxSpinCount⟩).flashRead .quadExRw (fun _ => 0) 4096 4096 t =
      .ok (u, fun i => if i < 4096 then if i < 3000 then BitVec.ofNat 8 i else 0xFF else 0, 0) := by
  obtain ⟨t, program, -, reads⟩ := w25n01gv_roundTrip ⟨3, polls_lt_maxSpinCount⟩ .quadExRw
    (BitVec.ofNat 8) (fun _ => 0) (show 4096 % pageLength = 0 by decide)
    (show 4096 + 3000 ≤ numBlocksPerDie * numPagesPerBlock * pageLength by decide) erasedW25n rfl
    fun _ _ _ _ => rfl
  obtain ⟨u, read, -⟩ := reads 4096 (by decide)
  exact ⟨t, u, program, read⟩

end Hss
