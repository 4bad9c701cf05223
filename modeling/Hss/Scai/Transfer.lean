import Hss.Scai.Words

/-! When the MT29F driver transfers exactly the bytes of a range. -/

namespace Hss

open Pieces ScaiFpgaChannel

/-- Exact transfers of a range: the map of its bytes, a read, the part of the buffer that is programmed
whatever is behind the registers, a program, and both of them on erased bytes. -/
structure Mt29fTransfers (d : Mt29fDelay) (format : MssQspiIoFormat) (addr len : ℕ) : Prop where
  injective : Set.InjOn mt29fPlace (Set.Iio mt29fCapacity)
  inPage : ∀ i < len, (mt29fPlace (addr + i)).column < mt29fPageSizeBytes
  read : ∀ (c : ScaiFpgaChannel Mt29fBus) (buf : ℕ) (memory : ℕ → BitVec 8), Ready format c →
    ∃ t, mt29FlashRead (mt29fQspi d) buf addr len memory c =
        (t, writeBuffer memory buf
          (firstBytes (fun i => Mt29fArray.byte c.hardware.flash.array (addr + i)) len), 0) ∧
      Ready format t ∧ t.hardware.flash.array = c.hardware.flash.array
  reads : ∀ {σ : Type} (qspi : ScaiQspi σ) (c : ScaiFpgaChannel σ) (source source' : ℕ → BitVec 8),
    c.format = format → (∀ i < len, source i = source' i) →
      mt29FlashProgram qspi (some source) addr len c = mt29FlashProgram qspi (some source') addr len c
  program : ∀ (c : ScaiFpgaChannel Mt29fBus) (source : ℕ → BitVec 8), Ready format c →
    ∃ t, mt29FlashProgram (mt29fQspi d) (some source) addr len c = (t, 0) ∧ Ready format t ∧
      Programs c.hardware.flash.array t.hardware.flash.array addr len source
  roundTrip : ∀ (c : ScaiFpgaChannel Mt29fBus) (source : ℕ → BitVec 8) (buf : ℕ)
    (memory : ℕ → BitVec 8), Ready format c →
    (∀ i < len, Mt29fArray.byte c.hardware.flash.array (addr + i) = 0xFF) →
    ∃ t u, mt29FlashProgram (mt29fQspi d) (some source) addr len c = (t, 0) ∧
      mt29FlashRead (mt29fQspi d) buf addr len memory t =
        (u, writeBuffer memory buf (firstBytes source len), 0) ∧
      ∀ place, (∀ i < len, place ≠ mt29fPlace (addr + i)) →
        Mt29fArray.cell u.hardware.flash.array place = Mt29fArray.cell c.hardware.flash.array place

variable {d : Mt29fDelay} {format : MssQspiIoFormat} {addr len : ℕ}

/-- The pieces are whole words where the range is, and starts with a word if it has several pieces. -/
theorem pieces_words (addr len : ℕ) :
    (∀ piece ∈ pieces mt29fPageSizeBytes addr len, 4 ∣ piece.2) ↔
      4 ∣ len ∧ (addr % mt29fPageSizeBytes + len ≤ mt29fPageSizeBytes ∨ 4 ∣ addr) := by
  refine pieces_induct (by decide) (motive := fun addr len ps => (∀ piece ∈ ps, 4 ∣ piece.2) ↔
    4 ∣ len ∧ (addr % mt29fPageSizeBytes + len ≤ mt29fPageSizeBytes ∨ 4 ∣ addr)) ?_ ?_ addr len
  · intro addr
    have room : addr % mt29fPageSizeBytes < mt29fPageSizeBytes := Nat.mod_lt _ (by decide)
    exact iff_of_true (by simp) ⟨Nat.dvd_zero _, .inl room.le⟩
  · intro addr len length rest positive le fits next ih
    rw [List.forall_mem_cons, ih, mt29fPageSizeBytes] at *
    omega

/-! ### Ranges that are transferred exactly -/

theorem inPage_column {addr : ℕ} (inside : addr < mt29fCapacity) :
    (mt29fPlace addr).column < mt29fPageSizeBytes := by
  rw [mt29fPlace_eq inside]
  exact Nat.mod_lt _ (by decide)

/-- Nothing is transferred of no bytes, whatever the format. -/
theorem transfers_none : Mt29fTransfers d format addr 0 where
  injective := mt29fPlace_injOn
  inPage _ less := absurd less (Nat.not_lt_zero _)
  read c buf memory here := ⟨c, by
    rw [show firstBytes _ 0 = [] from rfl, writeBuffer_nil]
    rfl, here, rfl⟩
  reads _ _ _ _ _ _ := rfl
  program c source here := ⟨c, rfl, here, .refl ..⟩
  roundTrip c source buf memory here _ := ⟨c, c, rfl, by
    rw [show firstBytes _ 0 = [] from rfl, writeBuffer_nil]
    rfl, fun _ _ => rfl⟩

theorem transfers_of_words (inside : addr + len ≤ mt29fCapacity)
    (words : ∀ piece ∈ pieces mt29fPageSizeBytes addr len, 4 ∣ piece.2) :
    Mt29fTransfers d .quadFull addr len := by
  have read : ∀ (c : ScaiFpgaChannel Mt29fBus) (buf : ℕ) (memory : ℕ → BitVec 8), Ready .quadFull c →
      ∃ t, mt29FlashRead (mt29fQspi d) buf addr len memory c =
          (t, writeBuffer memory buf
            (firstBytes (fun i => Mt29fArray.byte c.hardware.flash.array (addr + i)) len), 0) ∧
        Ready .quadFull t ∧ t.hardware.flash.array = c.hardware.flash.array := by
    intro c buf memory here
    rw [← readPieces_words _ addr len words inside]
    exact here.flashRead inside buf memory
  have program : ∀ (c : ScaiFpgaChannel Mt29fBus) (source : ℕ → BitVec 8), Ready .quadFull c →
      ∃ t, mt29FlashProgram (mt29fQspi d) (some source) addr len c = (t, 0) ∧ Ready .quadFull t ∧
        Programs c.hardware.flash.array t.hardware.flash.array addr len source := by
    intro c source here
    obtain ⟨t, programmed, there, array⟩ := here.flashProgram (d := d) inside source
    refine ⟨t, programmed, there, ?_⟩
    rw [array]
    exact programPieces_words _ source addr len words inside
  refine ⟨mt29fPlace_injOn, fun i less => inPage_column (by omega), read, ?_, program, ?_⟩
  · intro σ qspi c source source' quad same
    rw [flashProgram_eq inside, flashProgram_eq inside, quad]
    exact programLoop_congr words inside same c
  · intro c source buf memory here erased
    obtain ⟨t, programmed, there, programs⟩ := program c source here
    obtain ⟨u, got, -, same⟩ := read t buf memory there
    have bytes : firstBytes (fun i => Mt29fArray.byte t.hardware.flash.array (addr + i)) len =
        firstBytes source len := by
      refine List.map_congr_left fun i mem => ?_
      have less := List.mem_range.mp mem
      rw [programs.byte_eq i less, erased i less]
      exact BitVec.allOnes_and
    rw [bytes] at got
    refine ⟨t, u, programmed, got, fun place outside => ?_⟩
    rw [same]
    exact programs.frame place outside

/-! ### Ranges that are not -/

/-- A channel to a flash that holds `array`. -/
def readyChannel (format : MssQspiIoFormat) (array : Mt29fArray) : ScaiFpgaChannel Mt29fBus :=
  ⟨idleCtrl1, format, ⟨⟨array, fun _ => 0, false, false, 0⟩, idleCtrl1, [], [], 0, 0, 0, 0⟩⟩

theorem ready_readyChannel (format : MssQspiIoFormat) (array : Mt29fArray) :
    Ready format (readyChannel format array) :=
  ⟨⟨rfl, rfl, rfl, rfl, rfl, rfl, rfl, rfl⟩, rfl⟩

theorem elementBytes_succ (output : ℕ → BitVec 8) (n : ℕ) :
    elementBytes false output (n + 1) = elementBytes false output n ++ [output n, 0, 0, 0] := by
  rw [elementBytes, elementBytes, List.range_succ, List.flatMap_append]
  simp

theorem length_elementBytes (output : ℕ → BitVec 8) (n : ℕ) :
    (elementBytes false output n).length = 4 * n := by
  induction n with
  | zero => rfl
  | succ n ih =>
    rw [elementBytes_succ, List.length_append, ih]
    rfl

/-- Over one lane each byte is stored with three more. -/
theorem elementBytes_getD (output : ℕ → BitVec 8) {n j : ℕ} (less : j < 4 * n) :
    (elementBytes false output n).getD j 0 = if j % 4 = 0 then output (j / 4) else 0 := by
  induction n with
  | zero => exact absurd less (Nat.not_lt_zero _)
  | succ n ih =>
    have size := length_elementBytes output n
    rw [elementBytes_succ]
    by_cases early : j < 4 * n
    · rw [List.getD_append _ _ _ _ (by omega), ih early]
    · rw [List.getD_append_right _ _ _ _ (by omega), size]
      obtain ⟨i, rfl⟩ := Nat.exists_eq_add_of_le (Nat.not_lt.mp early)
      rw [Nat.add_sub_cancel_left, show (4 * n + i) % 4 = i by omega, show (4 * n + i) / 4 = n by omega]
      obtain rfl | rfl | rfl | rfl : i = 0 ∨ i = 1 ∨ i = 2 ∨ i = 3 := by omega
      all_goals rfl

/-- Pieces that are read over one lane, where the last byte is a 1 and all others are 0: the byte after
the buffer is written, or the last one of the buffer is not. -/
theorem readPieces_bytes (array : Mt29fArray) (addr len : ℕ) :
    (len = 0 → pieces mt29fPageSizeBytes addr len = []) ∧
    (0 < len → addr + len ≤ mt29fCapacity → ∀ (buf : ℕ) (memory : ℕ → BitVec 8),
      (∀ i < len, array.byte (addr + i) = if i + 1 = len then 1 else 0) →
      (∀ p, p ≠ buf + len → memory p = 0) →
      readPieces false array (pieces mt29fPageSizeBytes addr len) buf memory (buf + (len - 1)) ≠ 1 ∨
        readPieces false array (pieces mt29fPageSizeBytes addr len) buf memory (buf + len) ≠ 0xFF) := by
  refine pieces_induct (by decide) (motive := fun addr len ps => (len = 0 → ps = []) ∧
    (0 < len → addr + len ≤ mt29fCapacity → ∀ (buf : ℕ) (memory : ℕ → BitVec 8),
      (∀ i < len, array.byte (addr + i) = if i + 1 = len then 1 else 0) →
      (∀ p, p ≠ buf + len → memory p = 0) →
      readPieces false array ps buf memory (buf + (len - 1)) ≠ 1 ∨
        readPieces false array ps buf memory (buf + len) ≠ 0xFF)) ?_ ?_ addr len
  · exact fun _ => ⟨fun _ => rfl, fun none => absurd none (Nat.lt_irrefl 0)⟩
  · intro addr len length rest positive le fits next ih
    refine ⟨by omega, fun _ inside buf memory bytes zero => ?_⟩
    rw [readPieces]
    generalize count : readElements false length = k
    have few : k ≤ length := by
      rw [← count]
      exact Nat.mod_le ..
    have element : ∀ j < 4 * k,
        (elementBytes false (array.cellsFrom (mt29fPlace addr)) k).getD j 0 =
          if j % 4 = 0 ∧ j / 4 + 1 = len then 1 else 0 := by
      intro j less
      rw [elementBytes_getD _ less, cellsFrom_eq array (by omega) (by omega), bytes _ (by omega)]
      split <;> simp_all
    have size := length_elementBytes (array.cellsFrom (mt29fPlace addr)) k
    generalize elementBytes false (array.cellsFrom (mt29fPlace addr)) k = stored at *
    have written : ∀ j < 4 * k, writeBuffer memory buf stored (buf + j) =
        if j % 4 = 0 ∧ j / 4 + 1 = len then 1 else 0 := by
      intro j less
      rw [writeBuffer_of_mem (Nat.le_add_right ..) (by omega), Nat.add_sub_cancel_left, element j less]
    by_cases last : length = len
    · subst last
      rw [ih.1 (Nat.sub_self _), readPieces]
      by_cases past : length < 4 * k
      · refine .inr ?_
        rw [written length past]
        split <;> decide
      · refine .inl ?_
        by_cases ends : length - 1 < 4 * k
        · rw [written _ ends, if_neg (by omega)]
          decide
        · rw [writeBuffer_of_notMem (by omega), zero _ (by omega)]
          decide
    · have end' : buf + length + (len - length) = buf + len := by omega
      have later := ih.2 (by omega) (by omega) (buf + length) (writeBuffer memory buf stored)
        (fun i less => ?_) fun p other => ?_
      · rw [end', show buf + length + (len - length - 1) = buf + (len - 1) by omega] at later
        exact later
      · rw [Nat.add_assoc, bytes _ (by omega)]
        exact if_congr (by omega) rfl rfl
      · rw [end'] at other
        by_cases inRange : buf ≤ p ∧ p < buf + 4 * k
        · obtain ⟨j, rfl⟩ := Nat.exists_eq_add_of_le inRange.1
          rw [written j (by omega), if_neg (by omega)]
        · rw [writeBuffer_of_notMem (by omega), zero p other]

theorem Mt29fTransfers.quadFull (transfers : Mt29fTransfers d format addr len) (some : 0 < len)
    (inside : addr + len ≤ mt29fCapacity) : format = .quadFull := by
  by_contra oneLane
  let array : Mt29fArray := fun die row column =>
    if (⟨die, row, column⟩ : Mt29fPlace) = mt29fPlace (addr + (len - 1)) then 1 else 0
  let memory : ℕ → BitVec 8 := fun p => if p = len then 0xFF else 0
  have bytes : ∀ i < len, array.byte (addr + i) = if i + 1 = len then 1 else 0 := by
    intro i less
    refine if_congr ⟨fun same => ?_, fun last => ?_⟩ rfl rfl
    · have eq := mt29fPlace_injOn (show addr + i < mt29fCapacity by omega)
        (show addr + (len - 1) < mt29fCapacity by omega) same
      omega
    · rw [← last, Nat.add_sub_cancel]
  obtain ⟨t, got, -⟩ := transfers.read (readyChannel format array) 0 memory (ready_readyChannel ..)
  obtain ⟨u, got', -⟩ := (ready_readyChannel format array).flashRead (d := d) inside 0 memory
  rw [got, decide_eq_false oneLane, Prod.mk.injEq, Prod.mk.injEq] at got'
  have wrong := (readPieces_bytes array addr len).2 some inside 0 memory bytes fun p other =>
    if_neg (by omega)
  have same : writeBuffer memory 0 (firstBytes (fun i => array.byte (addr + i)) len) =
    readPieces false array (pieces mt29fPageSizeBytes addr len) 0 memory := got'.2.1
  rw [← same, writeBuffer_firstBytes, writeBuffer_firstBytes] at wrong
  rcases wrong with last | next
  · rw [if_pos (by omega), bytes _ (by omega), if_pos (by omega)] at last
    exact last rfl
  · rw [if_neg (Nat.lt_irrefl len), Nat.zero_add] at next
    exact next (if_pos rfl)

theorem programPieces_zero {array : Mt29fArray} {place : Mt29fPlace} (zero : array.cell place = 0)
    (ps : List (ℕ × ℕ)) (source : ℕ → BitVec 8) : (programPieces array ps source).cell place = 0 := by
  induction ps generalizing array source with
  | nil => exact zero
  | cons piece rest ih =>
    refine ih ?_ _
    rw [programmed_cell, zero]
    split
    · exact BitVec.zero_and
    · rfl

/-- A piece that ends within a word clears a cell after it, which is not of the range. -/
theorem programPieces_part (addr len : ℕ) : addr + len ≤ mt29fCapacity →
    (∃ piece ∈ pieces mt29fPageSizeBytes addr len, ¬ 4 ∣ piece.2) →
    ∃ place : Mt29fPlace, (mt29fPageSizeBytes ≤ place.column ∨
        addr + len < mt29fCapacity ∧ place = mt29fPlace (addr + len)) ∧
      ∀ array, (programPieces array (pieces mt29fPageSizeBytes addr len) fun _ => 0).cell place =
        0 := by
  refine pieces_induct (by decide) (motive := fun addr len ps => addr + len ≤ mt29fCapacity →
    (∃ piece ∈ ps, ¬ 4 ∣ piece.2) →
    ∃ place : Mt29fPlace, (mt29fPageSizeBytes ≤ place.column ∨
        addr + len < mt29fCapacity ∧ place = mt29fPlace (addr + len)) ∧
      ∀ array, (programPieces array ps fun _ => 0).cell place = 0) ?_ ?_ addr len
  · rintro _ _ ⟨piece, mem, -⟩
    exact absurd mem List.not_mem_nil
  · intro addr len length rest positive le fits next ih inside part
    by_cases words : 4 ∣ length
    · have later : ∃ piece ∈ rest, ¬ 4 ∣ piece.2 := by
        obtain ⟨piece, mem, part⟩ := part
        rcases List.mem_cons.mp mem with rfl | mem
        · exact absurd words part
        · exact ⟨piece, mem, part⟩
      obtain ⟨place, outside, cleared⟩ := ih (by omega) later
      rw [show addr + length + (len - length) = addr + len by omega] at outside
      exact ⟨place, outside, fun array => cleared _⟩
    · refine ⟨{ mt29fPlace addr with column := (mt29fPlace addr).column + length }, ?_, fun array => ?_⟩
      · have column : (mt29fPlace addr).column = addr % mt29fPageSizeBytes :=
          congrArg Mt29fPlace.column (mt29fPlace_eq (by omega))
        by_cases whole : addr % mt29fPageSizeBytes + length = mt29fPageSizeBytes
        · refine .inl ?_
          dsimp only
          rw [column, whole]
        · obtain rfl : length = len := by omega
          have less : addr + length < mt29fCapacity := by
            rw [mt29fPageSizeBytes] at fits whole
            rw [mt29fCapacity_eq] at inside ⊢
            omega
          exact .inr ⟨less, (mt29fPlace_add less (Nat.lt_of_le_of_ne fits whole)).symm⟩
      · refine programPieces_zero ?_ rest _
        rw [programmed_cell, if_pos ⟨rfl, rfl⟩]
        dsimp only
        rw [writeBuffer_firstBytes, if_pos (by omega)]
        exact BitVec.and_zero

theorem Mt29fTransfers.words (transfers : Mt29fTransfers d .quadFull addr len)
    (inside : addr + len ≤ mt29fCapacity) :
    ∀ piece ∈ pieces mt29fPageSizeBytes addr len, 4 ∣ piece.2 := by
  by_contra part
  push Not at part
  obtain ⟨place, outside, cleared⟩ := programPieces_part addr len inside part
  let array : Mt29fArray := fun _ _ _ => 0xFF
  obtain ⟨t, programmed, -, programs⟩ := transfers.program (readyChannel .quadFull array) (fun _ => 0)
    (ready_readyChannel ..)
  obtain ⟨u, programmed', -, same⟩ := (ready_readyChannel .quadFull array).flashProgram (d := d) inside
    fun _ => 0
  rw [programmed, Prod.mk.injEq] at programmed'
  have kept := programs.frame place fun i less eq => ?_
  · rw [programmed'.1, same, cleared] at kept
    exact absurd (show (0 : BitVec 8) = 0xFF from kept) (by decide)
  · rcases outside with beyond | ⟨more, rfl⟩
    · rw [eq] at beyond
      exact Nat.not_lt.mpr beyond (inPage_column (by omega))
    · have := mt29fPlace_injOn more (show addr + i < mt29fCapacity by omega) eq
      omega

/-- The transfers of a range are exact if and only if it has no bytes, or the flash is used over four
lanes, the range is whole words, and it starts with a word if it goes past a page. -/
theorem mt29f_transfers_iff (d : Mt29fDelay) (format : MssQspiIoFormat) {addr len : ℕ}
    (inside : addr + len ≤ mt29fTotalBlocks * mt29fBlockSizeBytes) :
    Mt29fTransfers d format addr len ↔
      len = 0 ∨ format = .quadFull ∧ 4 ∣ len ∧
        (addr % mt29fPageSizeBytes + len ≤ mt29fPageSizeBytes ∨ 4 ∣ addr) := by
  rcases Nat.eq_zero_or_pos len with rfl | some
  · exact iff_of_true transfers_none (.inl rfl)
  rw [← pieces_words, or_iff_right (Nat.ne_of_gt some)]
  constructor
  · intro transfers
    obtain rfl := transfers.quadFull some inside
    exact ⟨rfl, transfers.words inside⟩
  · rintro ⟨rfl, words⟩
    exact transfers_of_words inside words

theorem polls_lt_mt29fTimeoutIter : 3 < mt29fTimeoutIter := by decide

/-- A range over two pages in whole words. -/
theorem mt29f_transfers_twoPages :
    Mt29fTransfers ⟨3, polls_lt_mt29fTimeoutIter⟩ .quadFull 4000 2000 :=
  (mt29f_transfers_iff ⟨3, polls_lt_mt29fTimeoutIter⟩ .quadFull (by decide)).mpr
    (.inr ⟨rfl, by decide, .inr (by decide)⟩)

/-- A byte is not transferred exactly over one lane. -/
theorem mt29f_not_transfers : ¬ ∀ (d : Mt29fDelay) (format : MssQspiIoFormat) (addr len : ℕ),
    addr + len ≤ mt29fTotalBlocks * mt29fBlockSizeBytes → Mt29fTransfers d format addr len := by
  intro transfers
  have quad := (transfers ⟨3, polls_lt_mt29fTimeoutIter⟩ .normal 0 1 (by decide)).quadFull
    (by decide) (by decide)
  exact absurd quad (by decide)

end Hss
