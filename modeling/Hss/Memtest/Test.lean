import Hss.Types
import Mathlib.Logic.Function.Basic

/-! The memory test, on a memory with a fault: a data bit of a cell that is stuck, an address line that
is stuck, or two address lines that are shorted. -/

namespace Hss

/-! ### The memory -/

/-- A fault of the memory.  A cell is named by its address, and shorted lines carry the or or the and of
what is driven on them. -/
inductive MemFault
  | none
  | stuckBit (cell : Word) (bit : Fin 64) (value : Bool)
  | lineStuck (line : Fin 64) (value : Bool)
  | linesShorted (line line' : Fin 64) (wiredOr : Bool)
  deriving DecidableEq, Repr

/-- `a` with one bit set to `value`. -/
def forceBit (a : Word) (bit : Fin 64) (value : Bool) : Word :=
  if value then a ||| (1 : Word) <<< bit.val else a &&& ~~~((1 : Word) <<< bit.val)

/-- The cell that an address selects. -/
def MemFault.decode : MemFault → Word → Word
  | .none, a => a
  | .stuckBit _ _ _, a => a
  | .lineStuck line value, a => forceBit a line value
  | .linesShorted line line' wiredOr, a =>
    let value := if wiredOr then a.getLsbD line || a.getLsbD line' else a.getLsbD line && a.getLsbD line'
    forceBit (forceBit a line value) line' value

/-- What a cell holds once a value is written to it. -/
def MemFault.hold : MemFault → Word → Word → Word
  | .stuckBit cell bit value, a, written => if a = cell then forceBit written bit value else written
  | _, _, written => written

/-- The memory under test, and the keys: whether call `k` of `check_if_interrupted` finds Ctrl-C or
ESC. -/
structure MemRig where
  base : Word
  fault : MemFault
  keys : ℕ → Bool

/-- A test under way: the cells, the calls of `check_if_interrupted` so far and whether one of them found
a key, and the addresses of the words that were read or written. -/
structure MemTest where
  cells : Word → Word
  checks : ℕ
  interrupted : Bool
  accesses : List Word

/-- The test before its first access. -/
def MemTest.start (cells : Word → Word) : MemTest := ⟨cells, 0, false, []⟩

namespace MemRig

variable (r : MemRig)

/-- `&baseAddr[offset]` -/
def address (offset : Word) : Word := r.base + offset * 8

/-- The cell of `baseAddr[offset]`. -/
def cell (offset : Word) : Word := r.fault.decode (r.address offset)

/-- The word at an address is read. -/
def readWord (a : Word) (s : MemTest) : MemTest × Word :=
  ({ s with accesses := a :: s.accesses }, s.cells (r.fault.decode a))

/-- The word at an address is written. -/
def writeWord (a value : Word) (s : MemTest) : MemTest :=
  { s with
    accesses := a :: s.accesses
    cells := Function.update s.cells (r.fault.decode a) (r.fault.hold (r.fault.decode a) value) }

/-- `baseAddr[offset]` -/
def read (offset : Word) (s : MemTest) : MemTest × Word := r.readWord (r.address offset) s

/-- `baseAddr[offset] = value` -/
def write (offset value : Word) (s : MemTest) : MemTest := r.writeWord (r.address offset) value s

/-- `check_if_interrupted` -/
def checkIfInterrupted (s : MemTest) : MemTest × Bool :=
  ({ s with checks := s.checks + 1, interrupted := s.interrupted || r.keys s.checks }, r.keys s.checks)

end MemRig

/-! ### The data bus and the address bus -/

/-- The values of a variable that starts at one and is shifted to the left until it is zero. -/
def walkingOnes : List Word := (List.range 64).map fun i => (1 : Word) <<< i

/-- How a loop is left: at its end, at a word that differs, or for a key. -/
inductive LoopExit
  | finished
  | found (address : Word)
  | stopped
  deriving DecidableEq, Repr

/-- `pattern` and `antiPattern` -/
def busPattern : Word := 0xAAAAAAAAAAAAAAAA
def busAntiPattern : Word := 0x5555555555555555

/-- `numBytes / sizeof(uint64_t)` -/
def numWords (numBytes : Word) : Word := numBytes / 8

/-- The offsets of the loops of `HSS_MemTestAddressBus`: the words apart from the base word that it
tests. -/
def probes (numBytes : Word) : List Word :=
  walkingOnes.takeWhile fun offset => offset &&& (numWords numBytes - 1) ≠ 0

/-- The value of `offset` behind these loops. -/
def probesEnd (numBytes : Word) : Word :=
  (walkingOnes.dropWhile fun offset => offset &&& (numWords numBytes - 1) ≠ 0).headD 0

/-- The offsets of the loops of `HSS_MemTestDevice`. -/
def wordOffsets (numBytes : Word) : List Word :=
  (List.range (numWords numBytes).toNat).map (BitVec.ofNat 64)

namespace MemRig

variable (r : MemRig)

/-- The loop of `HSS_MemTestDataBus`. -/
def testPatterns : List Word → MemTest → MemTest × Word
  | [], s => (s, 0)
  | pattern :: patterns, s =>
    let s := r.write 0 pattern s
    let (s, value) := r.read 0 s
    if value ≠ pattern then (s, pattern) else testPatterns patterns s

/-- `HSS_MemTestDataBus` -/
def hssMemTestDataBus (s : MemTest) : MemTest × Word := r.testPatterns walkingOnes s

/-- "Walking up address bus, setting cells to pattern" -/
def setProbes : List Word → MemTest → MemTest × LoopExit
  | [], s => (s, .finished)
  | offset :: offsets, s =>
    let s := r.write offset busPattern s
    let (s, key) := r.checkIfInterrupted s
    if key then (s, .stopped) else setProbes offsets s

/-- "Walking up address bus, verifying set cells" -/
def verifyProbes : List Word → MemTest → MemTest × LoopExit
  | [], s => (s, .finished)
  | offset :: offsets, s =>
    let (s, value) := r.read offset s
    if value ≠ busPattern then ((r.read offset s).1, .found (r.address offset))
    else
      let (s, key) := r.checkIfInterrupted s
      if key then (s, .stopped) else verifyProbes offsets s

/-- The inner loop of the next one: whether another cell than that at `testOffset` is affected. -/
def otherAffected (testOffset : Word) : List Word → MemTest → MemTest × Bool
  | [], s => (s, false)
  | offset :: offsets, s =>
    let (s, value) := r.read offset s
    if value ≠ busPattern ∧ offset ≠ testOffset then ((r.read offset s).1, true)
    else otherAffected testOffset offsets s

/-- "Walking up address bus, setting cells to antipattern".  The message for the base reads the word
at which the loop before ended. -/
def setAntiProbes (numBytes : Word) : List Word → MemTest → MemTest × LoopExit
  | [], s => (s, .finished)
  | testOffset :: testOffsets, s =>
    let s := r.write testOffset busAntiPattern s
    let (s, value) := r.read 0 s
    if value ≠ busPattern then
      ((r.read (probesEnd numBytes) s).1, .found (r.address testOffset))
    else
      let (s, affected) := r.otherAffected testOffset (probes numBytes) s
      let s := if affected then s else r.write testOffset busPattern s
      let (s, key) := r.checkIfInterrupted s
      if affected then (s, .found (r.address testOffset))
      else if key then (s, .stopped)
      else setAntiProbes numBytes testOffsets s

/-- `HSS_MemTestAddressBus`.  The result `NULL` is `none`: a word has no null address. -/
def hssMemTestAddressBus (numBytes : Word) (s : MemTest) : MemTest × Option Word :=
  match r.setProbes (probes numBytes) s with
  | (s, .stopped) => (s, none)
  | (s, _) =>
    match r.verifyProbes (probes numBytes) (r.write 0 busAntiPattern s) with
    | (s, .stopped) => (s, none)
    | (s, .found address) => (r.write 0 busPattern s, some address)
    | (s, .finished) =>
      match r.setAntiProbes numBytes (probes numBytes) (r.write 0 busPattern s) with
      | (s, .found address) => (s, some address)
      | (s, _) => (s, none)

/-! ### The device -/

/-- "Write Seed Pattern to all cells" -/
def seedCells : List Word → MemTest → MemTest × LoopExit
  | [], s => (s, .finished)
  | offset :: offsets, s =>
    let s := r.write offset (offset + 1) s
    let (s, key) := r.checkIfInterrupted s
    if key then (s, .stopped) else seedCells offsets s

/-- "First Pass: Check each location" -/
def firstPass : List Word → MemTest → MemTest × LoopExit
  | [], s => (s, .finished)
  | offset :: offsets, s =>
    let (s, value) := r.read offset s
    if value ≠ offset + 1 then ((r.read offset s).1, .found (r.address offset))
    else
      let s := r.write offset (~~~(offset + 1)) s
      let (s, key) := r.checkIfInterrupted s
      if key then (s, .stopped) else firstPass offsets s

/-- "Second Pass: Check each location" -/
def secondPass : List Word → MemTest → MemTest × LoopExit
  | [], s => (s, .finished)
  | offset :: offsets, s =>
    let (s, value) := r.read offset s
    if value ≠ ~~~(offset + 1) then ((r.read offset s).1, .found (r.address offset))
    else
      let (s, key) := r.checkIfInterrupted s
      if key then (s, .stopped) else secondPass offsets s

/-- `HSS_MemTestDevice` -/
def hssMemTestDevice (numBytes : Word) (s : MemTest) : MemTest × Option Word :=
  match r.seedCells (wordOffsets numBytes) s with
  | (s, .stopped) => (s, none)
  | (s, _) =>
    match r.firstPass (wordOffsets numBytes) s with
    | (s, .stopped) => (s, none)
    | (s, .found address) => (s, some address)
    | (s, .finished) =>
      match r.secondPass (wordOffsets numBytes) s with
      | (s, .found address) => (s, some address)
      | (s, _) => (s, none)

/-- The condition of `HSS_MemTestDDR_Ex`: the three tests up to the first that finds a fault. -/
def memTests (numBytes : Word) (s : MemTest) : MemTest × Bool :=
  let (s, bits) := r.hssMemTestDataBus s
  if bits ≠ 0 then (s, false)
  else
    let (s, word) := r.hssMemTestAddressBus numBytes s
    if word ≠ none then (s, false)
    else
      let (s, word) := r.hssMemTestDevice numBytes s
      (s, word = none)

end MemRig

/-! ### The cache ways -/

/-- `LIBERO_SETTING_DDR_32_CACHE` and `BASE_ADDRESS_CACHED_32_DDR` -/
def ddr32Cache : Word := 0x80000000

/-- `TWO_MBYTES` -/
def twoMbytes : ℕ := 0x200000

/-- Two words of `ddr_init_pattern`, and its size. -/
def ddrInitPattern : Word := 0xDEADBEEFDEADBEEF
def patternLength : ℕ := 256

/-- The turns of the loop of `load_ddr_pattern`, which goes on while the end of the next pattern is
before the end of the memory: the last one is left out. -/
def patternTurns : ℕ := (twoMbytes * 4 - 1) / patternLength

/-- The words that `load_ddr_pattern` has copied to, a pattern in each turn. -/
def patternWords : List Word :=
  (List.range patternTurns).flatMap fun turn => (List.range (patternLength / 8)).map fun i =>
    ddr32Cache + BitVec.ofNat 64 (patternLength * turn + 8 * i)

/-- The words of `fill_cache_new_seg_address`: the first of each cache line. -/
def cacheLineWords : List Word :=
  (List.range (twoMbytes / 64)).map fun line => ddr32Cache + BitVec.ofNat 64 (64 * line)

namespace MemRig

variable (r : MemRig)

/-- `load_ddr_pattern` -/
def loadDdrPattern (s : MemTest) : MemTest :=
  patternWords.foldl (fun s a => r.writeWord a ddrInitPattern s) s

/-- `fill_cache_new_seg_address` -/
def fillCacheNewSegAddress (s : MemTest) : MemTest :=
  cacheLineWords.foldl (fun s a => (r.readWord a (r.writeWord a 0 s)).1) s

/-- `clear_bootup_cache_ways` -/
def clearBootupCacheWays (s : MemTest) : MemTest := r.fillCacheNewSegAddress (r.loadDdrPattern s)

/-- `HSS_MemTestDDR_Ex` -/
def hssMemTestDdrEx (numBytes : Word) (s : MemTest) : MemTest × Bool :=
  let (s, result) := r.memTests numBytes s
  (r.clearBootupCacheWays s, result)

end MemRig

/-! ### What the test should do -/

namespace MemRig

variable (r : MemRig) (numBytes : Word)

/-- A word of the range. -/
def InRange (offset : Word) : Prop := offset.toNat < numBytes.toNat / 8

/-- An address line is stuck or shorted so that two words of the range are one cell. -/
def Aliases : Prop := ∃ offset offset', InRange numBytes offset ∧ InRange numBytes offset' ∧
  offset ≠ offset' ∧ r.cell offset = r.cell offset'

/-- A bit of a word of the range is stuck. -/
def Stuck : Prop := ∃ offset, InRange numBytes offset ∧
  ∃ bit value, r.fault = .stuckBit (r.address offset) bit value

/-- The range holds the memory that `clear_bootup_cache_ways` fills. -/
def HoldsCleared : Prop :=
  (ddr32Cache - r.base).toNat + patternLength * patternTurns ≤ numBytes.toNat

end MemRig

/-- The test of `numBytes` bytes is sound on a memory with these cells. -/
structure MemTestSound (r : MemRig) (numBytes : Word) (cells : Word → Word) : Prop where
  addressBus : r.Aliases numBytes →
    (r.hssMemTestAddressBus numBytes (.start cells)).1.interrupted = false →
      (r.hssMemTestAddressBus numBytes (.start cells)).2 ≠ none
  passes : (r.hssMemTestDdrEx numBytes (.start cells)).2 = true ↔
    ¬(r.Aliases numBytes ∨ r.Stuck numBytes) ∧
      (r.hssMemTestDdrEx numBytes (.start cells)).1.interrupted = false
  stopped : (r.hssMemTestDdrEx numBytes (.start cells)).1.interrupted = true →
    (r.hssMemTestDdrEx numBytes (.start cells)).2 = false
  inside : ∀ a ∈ (r.hssMemTestDdrEx numBytes (.start cells)).1.accesses,
    (a - r.base).toNat + 8 ≤ numBytes.toNat

end Hss
