import Hss.Scai.Ranges

/-! Ranges of the MT29F flash in whole words, which are read and programmed as they are. -/

namespace Hss

open Pieces

/-! ### Ranges of whole words -/

theorem elementBytes_words (output : ℕ → BitVec 8) (n : ℕ) :
    elementBytes true output n = firstBytes output (4 * n) := by
  induction n with
  | zero => rfl
  | succ n ih =>
    rw [Nat.mul_succ, firstBytes_add, ← ih, elementBytes, elementBytes, List.range_succ,
      List.flatMap_append]
    simp

/-- Where the cells of a page from a byte on are the bytes that follow it. -/
theorem cellsFrom_eq (array : Mt29fArray) {addr i : ℕ} (inside : addr + i < mt29fCapacity)
    (inPage : addr % mt29fPageSizeBytes + i < mt29fPageSizeBytes) :
    array.cellsFrom (mt29fPlace addr) i = array.byte (addr + i) := by
  rw [Mt29fArray.byte, mt29fPlace_add inside inPage]
  rfl

/-- Whole words of a page are read as they are. -/
theorem elementBytes_piece (array : Mt29fArray) {addr length : ℕ} (words : 4 ∣ length)
    (inPage : addr % mt29fPageSizeBytes + length ≤ mt29fPageSizeBytes)
    (inside : addr + length ≤ mt29fCapacity) :
    elementBytes true (array.cellsFrom (mt29fPlace addr)) (ScaiFpgaChannel.readElements true length) =
      firstBytes (fun i => array.byte (addr + i)) length := by
  have count : 4 * ScaiFpgaChannel.readElements true length = length := by
    rw [mt29fPageSizeBytes] at inPage
    rw [ScaiFpgaChannel.readElements, if_pos rfl]
    omega
  rw [elementBytes_words, count]
  refine List.map_congr_left fun i mem => ?_
  have less := List.mem_range.mp mem
  exact cellsFrom_eq array (by omega) (by omega)

theorem readPieces_words (array : Mt29fArray) (addr len : ℕ) :
    (∀ piece ∈ pieces mt29fPageSizeBytes addr len, 4 ∣ piece.2) → addr + len ≤ mt29fCapacity →
    ∀ buf memory, readPieces true array (pieces mt29fPageSizeBytes addr len) buf memory =
      writeBuffer memory buf (firstBytes (fun i => array.byte (addr + i)) len) := by
  refine pieces_induct (by decide) (motive := fun addr len ps => (∀ piece ∈ ps, 4 ∣ piece.2) →
    addr + len ≤ mt29fCapacity → ∀ buf memory, readPieces true array ps buf memory =
      writeBuffer memory buf (firstBytes (fun i => array.byte (addr + i)) len)) ?_ ?_ addr len
  · intro addr _ _ buf memory
    exact (writeBuffer_nil memory buf).symm
  · intro addr len length rest positive le fits _ ih words inside buf memory
    obtain ⟨more, rfl⟩ := Nat.exists_eq_add_of_le le
    rw [Nat.add_sub_cancel_left] at ih
    have append := writeBuffer_append memory buf (firstBytes (fun i => array.byte (addr + i)) length)
      (firstBytes (fun i => array.byte (addr + length + i)) more)
    rw [length_firstBytes] at append
    rw [readPieces, elementBytes_piece array (words (addr, length) List.mem_cons_self) fits
      (by omega), ih (fun piece mem => words piece (List.mem_cons_of_mem _ mem)) (by omega),
      append, firstBytes_add]
    simp only [Nat.add_assoc]

/-! ### Programs -/

/-- What has been programmed of a range: bits of its bytes are cleared, and nothing else changes. -/
structure Programs (array array' : Mt29fArray) (addr len : ℕ) (source : ℕ → BitVec 8) : Prop where
  byte_eq : ∀ i < len, array'.byte (addr + i) = array.byte (addr + i) &&& source i
  frame : ∀ place, (∀ i < len, place ≠ mt29fPlace (addr + i)) → array'.cell place = array.cell place

theorem Programs.refl (array : Mt29fArray) (addr : ℕ) (source : ℕ → BitVec 8) :
    Programs array array addr 0 source := ⟨fun _ less => absurd less (Nat.not_lt_zero _), fun _ _ => rfl⟩

/-- Two ranges, one after the other. -/
theorem Programs.append {array array' array'' : Mt29fArray} {addr m n : ℕ} {source : ℕ → BitVec 8}
    (inside : addr + (m + n) ≤ mt29fCapacity) (first : Programs array array' addr m source)
    (second : Programs array' array'' (addr + m) n fun i => source (m + i)) :
    Programs array array'' addr (m + n) source := by
  have differ : ∀ i < m + n, ∀ j < m + n, i ≠ j → mt29fPlace (addr + i) ≠ mt29fPlace (addr + j) := by
    intro i less j less' ne same
    have eq := mt29fPlace_injOn (show addr + i < mt29fCapacity by omega)
      (show addr + j < mt29fCapacity by omega) same
    omega
  constructor
  · intro i less
    by_cases early : i < m
    · have kept : array''.byte (addr + i) = array'.byte (addr + i) := by
        refine second.frame _ fun j less' => ?_
        rw [Nat.add_assoc]
        exact differ i less (m + j) (by omega) (by omega)
      rw [kept, first.byte_eq i early]
    · obtain ⟨j, rfl⟩ := Nat.exists_eq_add_of_le (Nat.not_lt.mp early)
      have kept : array'.byte (addr + (m + j)) = array.byte (addr + (m + j)) :=
        first.frame _ fun i less' => differ (m + j) less i (by omega) (by omega)
      have programmed := second.byte_eq j (by omega)
      rw [Nat.add_assoc, kept] at programmed
      exact programmed
  · intro place outside
    rw [second.frame place fun j less => ?_, first.frame place fun i less => outside i (by omega)]
    rw [Nat.add_assoc]
    exact outside (m + j) (by omega)

theorem programmed_cell (array : Mt29fArray) (place place' : Mt29fPlace) (bytes : Bytes) :
    (array.programmed place bytes).cell place' =
      if place'.die = place.die ∧ place'.row = place.row then
        array.cell place' &&& writeBuffer (fun _ => 0xFF) place.column bytes place'.column
      else array.cell place' := by
  obtain ⟨die', row', column'⟩ := place'
  unfold Mt29fArray.programmed Mt29fArray.cell
  by_cases die : die' = place.die
  · subst die
    by_cases row : row' = place.row
    · subst row
      simp
    · simp [row]
  · simp [die]

/-- Whole words of a page are programmed as they are. -/
theorem programs_piece (array : Mt29fArray) (source : ℕ → BitVec 8) {addr length : ℕ}
    (words : 4 ∣ length) (inPage : addr % mt29fPageSizeBytes + length ≤ mt29fPageSizeBytes)
    (inside : addr + length ≤ mt29fCapacity) :
    Programs array (array.programmed (mt29fPlace addr)
      (firstBytes source (4 * ((length + 3) / 4)))) addr length source := by
  have count : 4 * ((length + 3) / 4) = length := by omega
  have fits : addr % 4096 + length ≤ 4096 := inPage
  rw [count]
  constructor
  · intro i less
    rw [Mt29fArray.byte, Mt29fArray.byte, programmed_cell, mt29fPlace_add (by omega) (by omega),
      if_pos ⟨rfl, rfl⟩]
    dsimp only
    rw [writeBuffer_firstBytes, if_pos less]
  · rintro ⟨die, row, column⟩ outside
    rw [programmed_cell]
    split
    · next samePage =>
      obtain ⟨rfl, rfl⟩ := samePage
      have clear : writeBuffer (fun _ => 0xFF) (mt29fPlace addr).column (firstBytes source length)
          column = 0xFF := by
        refine writeBuffer_of_notMem ?_
        rw [length_firstBytes]
        by_contra within
        obtain ⟨i, rfl⟩ := Nat.exists_eq_add_of_le
          (show (mt29fPlace addr).column ≤ column by omega)
        exact outside i (by omega) (mt29fPlace_add (by omega) (by omega)).symm
      rw [clear]
      exact BitVec.and_allOnes
    · rfl

theorem programPieces_words (array : Mt29fArray) (source : ℕ → BitVec 8) (addr len : ℕ)
    (words : ∀ piece ∈ pieces mt29fPageSizeBytes addr len, 4 ∣ piece.2)
    (inside : addr + len ≤ mt29fCapacity) :
    Programs array (programPieces array (pieces mt29fPageSizeBytes addr len) source) addr len
      source := by
  revert words inside array source
  refine pieces_induct (by decide) (motive := fun addr len ps => ∀ array source,
    (∀ piece ∈ ps, 4 ∣ piece.2) → addr + len ≤ mt29fCapacity →
      Programs array (programPieces array ps source) addr len source) ?_ ?_ addr len
  · intro addr array source _ _
    exact Programs.refl array addr source
  · intro addr len length rest positive le fits _ ih array source words inside
    obtain ⟨more, rfl⟩ := Nat.exists_eq_add_of_le le
    rw [Nat.add_sub_cancel_left] at ih
    refine (programs_piece array source (words (addr, length) List.mem_cons_self) fits
      (by omega)).append inside ?_
    exact ih _ _ (fun piece mem => words piece (List.mem_cons_of_mem _ mem)) (by omega)

/-! ### The buffer that is programmed -/

variable {σ : Type} {qspi : ScaiQspi σ}

theorem ScaiQspi.writeChunk_congr {element element' : ℕ → BitVec 32} {n i : ℕ} (s : σ)
    (same : ∀ j < i + n, element j = element' j) :
    qspi.writeChunk element n i s = qspi.writeChunk element' n i s := by
  induction n generalizing i s with
  | zero => rfl
  | succ n ih =>
    rw [writeChunk, writeChunk, same i (by omega)]
    exact ih _ fun j less => same j (by omega)

/-- No element past the last one is taken. -/
theorem ScaiQspi.fifoWrite_congr {element element' : ℕ → BitVec 32} {txLen : ℕ}
    (same : ∀ j < txLen, element j = element' j) (rounds elementsWritten : ℕ) (s : σ) :
    qspi.fifoWrite element txLen rounds elementsWritten s =
      qspi.fifoWrite element' txLen rounds elementsWritten s := by
  induction rounds generalizing elementsWritten s with
  | zero => rfl
  | succ rounds ih =>
    rw [fifoWrite, fifoWrite]
    split
    · rfl
    · obtain ⟨s, status2⟩ := qspi.waitTxSpace scaiFpgaFifoTimeout s
      cases status2 with
      | none => rfl
      | some status2 =>
        dsimp only
        rw [writeChunk_congr s fun j less => same j (by omega), ih]

namespace ScaiFpgaChannel

theorem transaction_congr (params : ScaiFpgaTransaction) {source : ℕ → BitVec 8}
    (same : ∀ j < params.txLen, txElement params.dataSizeIsWord params.txBuffer j =
      txElement params.dataSizeIsWord source j) (memory : ℕ → BitVec 8) (channel : ScaiFpgaChannel σ) :
    transaction qspi params memory channel =
      transaction qspi { params with txBuffer := source } memory channel := by
  rw [transaction, transaction, ScaiQspi.fifoWrite_congr same]
  rfl

theorem programLoad_congr {source source' : ℕ → BitVec 8} {writeLenBytes : ℕ}
    (words : 4 ∣ writeLenBytes) (same : ∀ i < writeLenBytes, source i = source' i) (colAddr : ℕ)
    (channel : ScaiFpgaChannel σ) :
    programLoad qspi true source colAddr writeLenBytes channel =
      programLoad qspi true source' colAddr writeLenBytes channel := by
  have elements : ∀ j < (writeLenBytes + 3) / 4,
      txElement true source j = txElement true source' j := by
    intro j less
    simp only [txElement, if_true, same (4 * j + 3) (by omega), same (4 * j + 2) (by omega),
      same (4 * j + 1) (by omega), same (4 * j) (by omega)]
  rw [programLoad, programLoad]
  exact congrArg Prod.fst (transaction_congr _ elements _ _)

/-- Of whole words, the driver reads no more than the range from the buffer, whatever is behind the
registers. -/
theorem programLoop_congr {rounds addr len : ℕ} {source source' : ℕ → BitVec 8}
    (words : ∀ piece ∈ pieces mt29fPageSizeBytes addr len, 4 ∣ piece.2)
    (inside : addr + len ≤ mt29fCapacity) (same : ∀ i < len, source i = source' i)
    (channel : ScaiFpgaChannel σ) :
    programLoop qspi true rounds addr source len channel =
      programLoop qspi true rounds addr source' len channel := by
  induction rounds generalizing addr len source source' channel with
  | zero => rfl
  | succ rounds ih =>
    rcases Nat.eq_zero_or_pos len with rfl | left
    · rfl
    have room : addr % mt29fPageSizeBytes < mt29fPageSizeBytes := Nat.mod_lt _ (by decide)
    rw [pieces_of_pos (by decide) left] at words
    rw [programLoop, programLoop, if_neg (by omega), if_neg (by omega)]
    dsimp only
    rw [pieceLength addr len (by omega)]
    have word := words _ List.mem_cons_self
    have later := fun piece mem => words piece (List.mem_cons_of_mem _ mem)
    generalize piece : min (mt29fPageSizeBytes - addr % mt29fPageSizeBytes) len = writeLenBytes at *
    obtain ⟨channel, result⟩ := selectDie qspi (mt29fLogicalToPhysical addr) channel
    dsimp only
    rw [programPage, programPage, programLoad_congr word fun i less => same i (by omega)]
    obtain ⟨channel, status⟩ := waitFlashReady qspi (programExecute qspi
      (mt29fRowAddr (mt29fLogicalToPhysical addr)) (programLoad qspi true source'
        (mt29fColAddr (mt29fLogicalToPhysical addr)) writeLenBytes
        (disableWriteProtect qspi channel)))
    dsimp only
    rw [ih later (by omega) fun i less => same (writeLenBytes + i) (by omega)]

end ScaiFpgaChannel

end Hss
