import Hss.Scai.Places
import Hss.Lib.Pieces

/-! Ranges of the MT29F flash that the driver reads and programs, page by page. -/

namespace Hss

open Pieces

/-- The memory after pieces of a range have been read to the buffer at `currentBuf`. -/
def readPieces (useQuadMode : Bool) (array : Mt29fArray) :
    List (ℕ × ℕ) → ℕ → (ℕ → BitVec 8) → ℕ → BitVec 8
  | [], _, memory => memory
  | (currentAddr, readLen) :: rest, currentBuf, memory =>
      readPieces useQuadMode array rest (currentBuf + readLen)
        (writeBuffer memory currentBuf (elementBytes useQuadMode
          (array.cellsFrom (mt29fPlace currentAddr))
          (ScaiFpgaChannel.readElements useQuadMode readLen)))

/-- The cells after pieces of a range have been programmed over four lanes. -/
def programPieces : Mt29fArray → List (ℕ × ℕ) → (ℕ → BitVec 8) → Mt29fArray
  | array, [], _ => array
  | array, (currentAddr, writeLenBytes) :: rest, currentBuf =>
      programPieces (array.programmed (mt29fPlace currentAddr)
          (firstBytes currentBuf (4 * ((writeLenBytes + 3) / 4)))) rest
        fun i => currentBuf (writeLenBytes + i)

namespace ScaiFpgaChannel

variable {d : Mt29fDelay} {c : ScaiFpgaChannel Mt29fBus} {format : MssQspiIoFormat} {flash : Mt29f}
  {nwp : Bool}

/-- A channel between frames, at a flash that is not busy. -/
structure Ready (format : MssQspiIoFormat) (c : ScaiFpgaChannel Mt29fBus) : Prop where
  idle : Idle format c.hardware.flash c.ctrl1State.nwp c
  ready : c.hardware.flash.busy = 0

theorem Idle.toReady (here : Idle format flash nwp c) (ready : flash.busy = 0) : Ready format c := by
  obtain rfl := here.flash_eq
  obtain rfl := here.nwp_eq
  exact ⟨here, ready⟩

theorem Idle.selectDie (here : Idle format flash nwp c) (ready : flash.busy = 0) (addr : ℕ) :
    ∃ t result, selectDie (mt29fQspi d) (mt29fLogicalToPhysical addr) c = (t, result) ∧
      result ≠ 255 ∧ Idle format { flash with die := (mt29fPlace addr).die } nwp t := by
  obtain ⟨t, set, there⟩ := here.setDie (d := d) ready (mt29fPlace addr).die
  have target : (if mt29fTargetDie (mt29fLogicalToPhysical addr) = 0 then mt29fDie0 else mt29fDie1) =
      Mt29f.dieByte (mt29fPlace addr).die := by
    by_cases first : mt29fTargetDie (mt29fLogicalToPhysical addr) = 0 <;>
      simp [mt29fPlace, Mt29f.dieByte, first]
  refine ⟨t, Mt29f.dieByte (mt29fPlace addr).die, ?_, ?_, there⟩
  · rw [ScaiFpgaChannel.selectDie, target, set]
  · cases (mt29fPlace addr).die <;> decide

theorem pieceLength (addr remainingLen : ℕ) (inside : addr < mt29fCapacity) :
    (if remainingLen > mt29fPageSizeBytes - mt29fColAddr (mt29fLogicalToPhysical addr) then
      mt29fPageSizeBytes - mt29fColAddr (mt29fLogicalToPhysical addr)
    else remainingLen) = min (mt29fPageSizeBytes - addr % mt29fPageSizeBytes) remainingLen := by
  have column : mt29fColAddr (mt29fLogicalToPhysical addr) = addr % mt29fPageSizeBytes :=
    congrArg Mt29fPlace.column (mt29fPlace_eq inside)
  rw [column]
  split <;> omega

theorem row_lt {addr : ℕ} (inside : addr < mt29fCapacity) :
    mt29fRowAddr (mt29fLogicalToPhysical addr) < 2 ^ 24 := by
  have row : mt29fRowAddr (mt29fLogicalToPhysical addr) = addr / 4096 % 131072 :=
    congrArg Mt29fPlace.row (mt29fPlace_eq inside)
  omega

theorem column_lt {addr : ℕ} (inside : addr < mt29fCapacity) :
    mt29fColAddr (mt29fLogicalToPhysical addr) < 2 ^ 13 := by
  have column : mt29fColAddr (mt29fLogicalToPhysical addr) = addr % 4096 :=
    congrArg Mt29fPlace.column (mt29fPlace_eq inside)
  omega

/-- A page is moved to the cache and read from there. -/
theorem Idle.readPage (here : Idle format flash nwp c) (ready : flash.busy = 0) {addr : ℕ}
    (inside : addr < mt29fCapacity) (die : flash.die = (mt29fPlace addr).die) (useQuadMode : Bool)
    (readLen currentBuf : ℕ) (memory : ℕ → BitVec 8) :
    ∃ t u, ScaiFpgaChannel.waitFlashReady (mt29fQspi d) (ScaiFpgaChannel.pageReadToCache
          (mt29fQspi d) (mt29fRowAddr (mt29fLogicalToPhysical addr)) c) = (t, 0) ∧
      ScaiFpgaChannel.readFromCache (mt29fQspi d) useQuadMode
          (mt29fColAddr (mt29fLogicalToPhysical addr)) readLen currentBuf memory t =
        (u, writeBuffer memory currentBuf (elementBytes useQuadMode
          (Mt29fArray.cellsFrom flash.array (mt29fPlace addr)) (readElements useQuadMode readLen))) ∧
      Ready format u ∧ u.hardware.flash.array = flash.array := by
  obtain ⟨t, waited, there⟩ := (here.pageReadToCache (d := d) ready
    (row_lt inside)).waitFlashReady (d := d) d.polls_lt
  obtain ⟨u, read, there⟩ := there.readFromCache (d := d) rfl useQuadMode (column_lt inside) readLen
    currentBuf memory
  have cells : Mt29fArray.cellsFrom flash.array (mt29fPlace addr) = fun i =>
      flash.array flash.die (mt29fRowAddr (mt29fLogicalToPhysical addr))
        (mt29fColAddr (mt29fLogicalToPhysical addr) + i) := by
    rw [die]
    rfl
  refine ⟨t, u, waited, ?_, there.toReady rfl, by rw [there.flash_eq]⟩
  rw [cells]
  exact read

/-- A round of `SCAI_MT29_Flash_read` that goes well. -/
theorem readLoop_succ {σ : Type} {qspi : ScaiQspi σ} {s t u v : ScaiFpgaChannel σ} {result : BitVec 8}
    {useQuadMode : Bool} {rounds currentAddr currentBuf remainingLen readLen : ℕ}
    {memory memory' : ℕ → BitVec 8} (left : remainingLen ≠ 0) (inside : currentAddr < mt29fCapacity)
    (piece : min (mt29fPageSizeBytes - currentAddr % mt29fPageSizeBytes) remainingLen = readLen)
    (selected : selectDie qspi (mt29fLogicalToPhysical currentAddr) s = (t, result))
    (valid : result ≠ 255)
    (waited : waitFlashReady qspi (pageReadToCache qspi
      (mt29fRowAddr (mt29fLogicalToPhysical currentAddr)) t) = (u, 0))
    (read : readFromCache qspi useQuadMode (mt29fColAddr (mt29fLogicalToPhysical currentAddr)) readLen
      currentBuf memory u = (v, memory')) :
    readLoop qspi useQuadMode (rounds + 1) currentAddr currentBuf remainingLen memory s =
      readLoop qspi useQuadMode rounds (currentAddr + readLen) (currentBuf + readLen)
        (remainingLen - readLen) memory' v := by
  rw [readLoop, if_neg left]
  dsimp only
  rw [pieceLength currentAddr remainingLen inside, piece, selected]
  dsimp only
  rw [if_neg valid, waited]
  dsimp only
  rw [if_neg (by decide), read]

/-- A range is read in its pieces. -/
theorem Ready.readLoop (here : Ready format c) (useQuadMode : Bool) {rounds currentAddr remainingLen : ℕ}
    (currentBuf : ℕ) (memory : ℕ → BitVec 8) (enough : remainingLen ≤ rounds)
    (inside : currentAddr + remainingLen ≤ mt29fCapacity) :
    ∃ t, readLoop (mt29fQspi d) useQuadMode rounds currentAddr currentBuf remainingLen memory c =
        (t, readPieces useQuadMode c.hardware.flash.array
          (pieces mt29fPageSizeBytes currentAddr remainingLen) currentBuf memory, 0) ∧
      Ready format t ∧ t.hardware.flash.array = c.hardware.flash.array := by
  induction rounds generalizing c currentAddr remainingLen currentBuf memory with
  | zero =>
    obtain rfl : remainingLen = 0 := by omega
    exact ⟨c, rfl, here, rfl⟩
  | succ rounds ih =>
    rcases Nat.eq_zero_or_pos remainingLen with rfl | left
    · exact ⟨c, rfl, here, rfl⟩
    have less : currentAddr < mt29fCapacity := by omega
    have room : currentAddr % mt29fPageSizeBytes < mt29fPageSizeBytes := Nat.mod_lt _ (by decide)
    obtain ⟨readLen, piece⟩ : ∃ readLen,
        min (mt29fPageSizeBytes - currentAddr % mt29fPageSizeBytes) remainingLen = readLen := ⟨_, rfl⟩
    obtain ⟨t, result, selected, valid, there⟩ := here.idle.selectDie (d := d) here.ready currentAddr
    obtain ⟨u, v, waited, read, there, same⟩ := there.readPage (d := d) here.ready less rfl useQuadMode
      readLen currentBuf memory
    obtain ⟨w, rest, done, same'⟩ := ih there (currentBuf + readLen) (writeBuffer memory currentBuf
      (elementBytes useQuadMode (Mt29fArray.cellsFrom c.hardware.flash.array (mt29fPlace currentAddr))
        (readElements useQuadMode readLen)))
      (show remainingLen - readLen ≤ rounds by omega) (show currentAddr + readLen + _ ≤ _ by omega)
    rw [same] at rest same'
    refine ⟨w, ?_, done, same'⟩
    rw [readLoop_succ (by omega) less piece selected valid waited read, rest,
      pieces_of_pos (by decide) left, piece, readPieces]

/-- A page is loaded to the cache over four lanes and programmed. -/
theorem Idle.programPage (here : Idle format flash nwp c) (ready : flash.busy = 0) {addr : ℕ}
    (inside : addr < mt29fCapacity) (die : flash.die = (mt29fPlace addr).die)
    (currentBuf : ℕ → BitVec 8) {writeLenBytes : ℕ} (short : writeLenBytes ≤ mt29fPageSizeBytes) :
    ∃ t, ScaiFpgaChannel.waitFlashReady (mt29fQspi d) (ScaiFpgaChannel.programPage (mt29fQspi d) true
          currentBuf (mt29fLogicalToPhysical addr) writeLenBytes c) = (t, 0) ∧
      Ready format (ScaiFpgaChannel.enableWriteProtect (mt29fQspi d) t) ∧
      (ScaiFpgaChannel.enableWriteProtect (mt29fQspi d) t).hardware.flash.array =
        Mt29fArray.programmed flash.array (mt29fPlace addr)
          (firstBytes currentBuf (4 * ((writeLenBytes + 3) / 4))) := by
  have loaded := (here.disableWriteProtect (d := d)).programLoad (d := d) ready currentBuf
    ((column_lt inside).trans (by decide)) short
  obtain ⟨t, waited, there⟩ := (loaded.programExecute (d := d) ready
    (row_lt inside)).waitFlashReady (d := d) d.polls_lt
  have there := there.enableWriteProtect (d := d)
  have cells : Mt29fArray.programmed flash.array (mt29fPlace addr)
        (firstBytes currentBuf (4 * ((writeLenBytes + 3) / 4))) =
      Function.update flash.array flash.die (Function.update (flash.array flash.die)
        (mt29fRowAddr (mt29fLogicalToPhysical addr)) fun column =>
          flash.array flash.die (mt29fRowAddr (mt29fLogicalToPhysical addr)) column &&&
            writeBuffer (fun _ => 0xFF) (mt29fColAddr (mt29fLogicalToPhysical addr))
              (firstBytes currentBuf (4 * ((writeLenBytes + 3) / 4))) column) := by
    rw [die]
    rfl
  refine ⟨t, waited, there.toReady rfl, ?_⟩
  rw [cells, there.flash_eq]

/-- A round of `SCAI_MT29_Flash_program` that goes well. -/
theorem programLoop_succ {σ : Type} {qspi : ScaiQspi σ} {s t u : ScaiFpgaChannel σ}
    {result : BitVec 8} {useQuadMode : Bool} {rounds currentAddr remainingLen writeLenBytes : ℕ}
    {currentBuf : ℕ → BitVec 8} (left : remainingLen ≠ 0) (inside : currentAddr < mt29fCapacity)
    (piece : min (mt29fPageSizeBytes - currentAddr % mt29fPageSizeBytes) remainingLen = writeLenBytes)
    (selected : selectDie qspi (mt29fLogicalToPhysical currentAddr) s = (t, result))
    (valid : result ≠ 255)
    (waited : waitFlashReady qspi (programPage qspi useQuadMode currentBuf
      (mt29fLogicalToPhysical currentAddr) writeLenBytes t) = (u, 0)) :
    programLoop qspi useQuadMode (rounds + 1) currentAddr currentBuf remainingLen s =
      programLoop qspi useQuadMode rounds (currentAddr + writeLenBytes)
        (fun i => currentBuf (writeLenBytes + i)) (remainingLen - writeLenBytes)
        (enableWriteProtect qspi u) := by
  rw [programLoop, if_neg left]
  dsimp only
  rw [pieceLength currentAddr remainingLen inside, piece, selected]
  dsimp only
  rw [if_neg valid, waited]
  dsimp only
  rw [if_neg (by decide)]

/-- A range is programmed in its pieces. -/
theorem Ready.programLoop (here : Ready format c) {rounds currentAddr remainingLen : ℕ}
    (currentBuf : ℕ → BitVec 8) (enough : remainingLen ≤ rounds)
    (inside : currentAddr + remainingLen ≤ mt29fCapacity) :
    ∃ t, programLoop (mt29fQspi d) true rounds currentAddr currentBuf remainingLen c = (t, 0) ∧
      Ready format t ∧ t.hardware.flash.array = programPieces c.hardware.flash.array
        (pieces mt29fPageSizeBytes currentAddr remainingLen) currentBuf := by
  induction rounds generalizing c currentAddr remainingLen currentBuf with
  | zero =>
    obtain rfl : remainingLen = 0 := by omega
    exact ⟨c, rfl, here, rfl⟩
  | succ rounds ih =>
    rcases Nat.eq_zero_or_pos remainingLen with rfl | left
    · exact ⟨c, rfl, here, rfl⟩
    have less : currentAddr < mt29fCapacity := by omega
    have room : currentAddr % mt29fPageSizeBytes < mt29fPageSizeBytes := Nat.mod_lt _ (by decide)
    obtain ⟨writeLenBytes, piece⟩ : ∃ writeLenBytes,
        min (mt29fPageSizeBytes - currentAddr % mt29fPageSizeBytes) remainingLen = writeLenBytes :=
      ⟨_, rfl⟩
    obtain ⟨t, result, selected, valid, there⟩ := here.idle.selectDie (d := d) here.ready currentAddr
    obtain ⟨u, waited, there, programmed⟩ := there.programPage (d := d) here.ready less rfl currentBuf
      (show writeLenBytes ≤ _ by omega)
    obtain ⟨v, rest, done, array⟩ := ih there (fun i => currentBuf (writeLenBytes + i))
      (show remainingLen - writeLenBytes ≤ rounds by omega)
      (show currentAddr + writeLenBytes + _ ≤ _ by omega)
    rw [programmed] at array
    refine ⟨v, ?_, done, ?_⟩
    · rw [programLoop_succ (by omega) less piece selected valid waited, rest]
    · rw [array, pieces_of_pos (by decide) left, piece, programPieces]

theorem Ready.flashRead (here : Ready format c) {addr len : ℕ} (inside : addr + len ≤ mt29fCapacity)
    (buf : ℕ) (memory : ℕ → BitVec 8) :
    ∃ t, mt29FlashRead (mt29fQspi d) buf addr len memory c =
        (t, readPieces (format = .quadFull) c.hardware.flash.array
          (pieces mt29fPageSizeBytes addr len) buf memory, 0) ∧
      Ready format t ∧ t.hardware.flash.array = c.hardware.flash.array := by
  rw [mt29FlashRead, here.idle.format_eq]
  exact here.readLoop _ buf memory (Nat.le_refl _) inside

theorem flashProgram_eq {σ : Type} {qspi : ScaiQspi σ} {addr len : ℕ}
    (inside : addr + len ≤ mt29fCapacity) (source : ℕ → BitVec 8) (channel : ScaiFpgaChannel σ) :
    mt29FlashProgram qspi (some source) addr len channel =
      programLoop qspi (channel.format = .quadFull) len addr source len channel :=
  if_neg (show ¬ len > mt29fCapacity by omega)

theorem Ready.flashProgram (here : Ready .quadFull c) {addr len : ℕ}
    (inside : addr + len ≤ mt29fCapacity) (source : ℕ → BitVec 8) :
    ∃ t, mt29FlashProgram (mt29fQspi d) (some source) addr len c = (t, 0) ∧ Ready .quadFull t ∧
      t.hardware.flash.array =
        programPieces c.hardware.flash.array (pieces mt29fPageSizeBytes addr len) source := by
  rw [flashProgram_eq inside, here.idle.format_eq]
  exact here.programLoop source (Nat.le_refl _) inside

end ScaiFpgaChannel

end Hss
