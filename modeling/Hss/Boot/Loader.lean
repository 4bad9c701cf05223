import Hss.Boot.Service

/-! Two walks of the tables of an image that differ in where they start, where they end and what they
take: which of their turns write the same. -/

namespace Hss

open ByteMemory

/-- Where a walk of the tables is: at an entry of the zero-init table, at an entry of the chunk table
with an offset into its chunk and the number of chunks so far, or behind both. -/
inductive LoaderPos
  | zeroing (pZiChunk : Word)
  | downloading (pChunk subChunkOffset chunkCount : Word)
  | finished
  deriving DecidableEq, Repr

/-- A walk of the tables: the memory, what it has written, newest first, and where it is. -/
structure Loader where
  mem : Mem
  written : List Access
  pos : LoaderPos

/-- What is left to a walk: the first chunk it looks at, whether it is at its end for the number of
chunks it has copied, and the chunks it copies. -/
structure LoadRules where
  firstChunk : Mem → Word
  ends : Mem → Word → Bool
  takes : ChunkDesc → Bool

/-- The address of the first entry of the zero-init table, and of entry `firstChunk` of the chunk
table. -/
def ziTableStart (image : Word) (mem : Mem) : Word := image + BootImage.ziChunkTableOffset mem image
def chunkTableEntry (image : Word) (mem : Mem) (firstChunk : Word) : Word :=
  image + BootImage.chunkTableOffset mem image + sizeOfChunkDesc * firstChunk

/-- The memory after a zero-init chunk, and after a slice of a chunk. -/
def clearChunk (pZiChunk : Word) (mem : Mem) : Except Halt Mem := do
  assert (pZiChunk ≠ 0) .chunkNotNull
  return fill mem (ziChunkDesc mem pZiChunk).execAddr (ziChunkDesc mem pZiChunk).size.toNat 0
def copySlice (image pChunk subChunkOffset : Word) (mem : Mem) : Except Halt Mem := do
  assert (pChunk ≠ 0) .chunkNotNull
  assert ((chunkDesc mem pChunk).size ≠ 0) .chunkNotEmpty
  memcpyViaPdma ((chunkDesc mem pChunk).execAddr + subChunkOffset)
    (image + (chunkDesc mem pChunk).loadAddr + subChunkOffset) bootSubChunkSize mem

/-- Where a walk goes on after a slice of a chunk of `size` bytes. -/
def LoaderPos.next (size pChunk subChunkOffset chunkCount : Word) : LoaderPos :=
  if subChunkOffset + BitVec.ofNat 64 bootSubChunkSize > size then
    .downloading (pChunk + sizeOfChunkDesc) 0 (chunkCount + 1)
  else .downloading pChunk (subChunkOffset + BitVec.ofNat 64 bootSubChunkSize) chunkCount

section
variable (target : U54) (image : Word) (R : LoadRules)

/-- One turn of a walk. -/
def loadTurn (x : Loader) : Except Halt Loader :=
  match x.pos with
  | .zeroing p =>
    if (ziChunkDesc x.mem p).size = 0 then
      .ok { x with
        pos := .downloading (chunkTableEntry image x.mem (R.firstChunk x.mem)) 0 0 }
    else if (ziChunkDesc x.mem p).OwnedBy target then do
      let mem ← clearChunk p x.mem
      return ⟨mem, .zeroInit target (ziChunkDesc x.mem p) :: x.written,
        .zeroing (p + sizeOfZiChunkDesc)⟩
    else .ok { x with pos := .zeroing (p + sizeOfZiChunkDesc) }
  | .downloading p offset count =>
    if (chunkDesc x.mem p).size = 0 ∨ R.ends x.mem count = true then .ok { x with pos := .finished }
    else if R.takes (chunkDesc x.mem p) then do
      let mem ← copySlice image p offset x.mem
      return ⟨mem, .download target image (chunkDesc x.mem p) offset bootSubChunkSize :: x.written,
        .next (chunkDesc mem p).size p offset count⟩
    else .ok { x with pos := .downloading (p + sizeOfChunkDesc) offset count }
  | .finished => .ok x

/-- `n` turns. -/
def loadTurns : ℕ → Loader → Except Halt Loader
  | 0, x => .ok x
  | n + 1, x => loadTurn target image R x >>= loadTurns n

end

/-- What a walk leaves: the memory and what was written. -/
def Loader.left (x : Loader) : Mem × List Access := (x.mem, x.written)

/-- No chunk from `p` on is taken before the entry of size zero. -/
def TakesNothing (R : LoadRules) (mem : Mem) (p : Word) : Prop :=
  ∀ j, (∀ i ≤ j, (chunkDesc mem (p + sizeOfChunkDesc * BitVec.ofNat 64 i)).size ≠ 0) →
    R.takes (chunkDesc mem (p + sizeOfChunkDesc * BitVec.ofNat 64 j)) = false

/-- The next turns of two walks write the same: `R` takes the chunk if `R'` does, and takes no more
where `R'` is at its end. -/
def Loader.Agrees (R R' : LoadRules) (x : Loader) : Prop :=
  match x.pos with
  | .downloading p _ count => (chunkDesc x.mem p).size ≠ 0 →
    if R'.ends x.mem count then TakesNothing R x.mem p
    else R'.takes (chunkDesc x.mem p) = true → R.takes (chunkDesc x.mem p) = true
  | _ => True

/-- The walks start at the same chunk. -/
def Loader.SameFirst (R R' : LoadRules) (x : Loader) : Prop :=
  ∀ p, x.pos = .zeroing p → (ziChunkDesc x.mem p).size = 0 → R.firstChunk x.mem = R'.firstChunk x.mem

/-- Two walks that have written the same: they are the same, or the second is at its end and the first
takes nothing more. -/
inductive Alongside (R R' : LoadRules) : Loader → Loader → Prop
  | same (x : Loader) : Alongside R R' x x
  | ended {mem : Mem} {written : List Access} {p offset count : Word}
      (ends : R'.ends mem count = true) (nothing : TakesNothing R mem p) :
      Alongside R R' ⟨mem, written, .downloading p offset count⟩ ⟨mem, written, .finished⟩

/-- `R` has no bound on the chunks, and takes no chunk that `R'` does not take. -/
structure Narrower (R R' : LoadRules) : Prop where
  never : ∀ mem count, R.ends mem count = false
  less : ∀ chunk, R.takes chunk = true → R'.takes chunk = true

/-- Both walks stop at the same assertion, or go on alongside. -/
def Together (R R' : LoadRules) : Except Halt Loader → Except Halt Loader → Prop
  | .ok x, .ok y => Alongside R R' x y
  | .error e, .error e' => e = e'
  | .ok _, .error _ | .error _, .ok _ => False

section
variable {target : U54} {image p offset count : Word} {R R' : LoadRules} {x x' y : Loader}
  {mem : Mem} {written : List Access} {n : ℕ}

theorem Together.refl (outcome : Except Halt Loader) : Together R R' outcome outcome := by
  cases outcome with
  | error e => exact rfl
  | ok x => exact .same x

theorem entry_zero (p : Word) : p + sizeOfChunkDesc * BitVec.ofNat 64 0 = p := BitVec.add_zero p

theorem entry_succ (p : Word) (j : ℕ) : p + sizeOfChunkDesc + sizeOfChunkDesc * BitVec.ofNat 64 j =
    p + sizeOfChunkDesc * BitVec.ofNat 64 (j + 1) := by
  rw [BitVec.ofNat_add, BitVec.mul_add, BitVec.mul_one, BitVec.add_assoc,
    BitVec.add_comm sizeOfChunkDesc]

theorem TakesNothing.here (nothing : TakesNothing R mem p) (size : (chunkDesc mem p).size ≠ 0) :
    R.takes (chunkDesc mem p) = false := by
  have taken := nothing 0
  rw [entry_zero] at taken
  refine taken fun i le => ?_
  rw [Nat.le_zero.mp le, entry_zero]
  exact size

theorem TakesNothing.next (nothing : TakesNothing R mem p) (size : (chunkDesc mem p).size ≠ 0) :
    TakesNothing R mem (p + sizeOfChunkDesc) := by
  intro j sizes
  simp only [entry_succ] at sizes ⊢
  refine nothing (j + 1) fun i le => ?_
  cases i with
  | zero =>
    rw [entry_zero]
    exact size
  | succ i => exact sizes i (Nat.le_of_succ_le_succ le)

/-! ### Turns -/

theorem loadTurn_sentinel (size : (ziChunkDesc mem p).size = 0) :
    loadTurn target image R ⟨mem, written, .zeroing p⟩ = .ok ⟨mem, written,
      .downloading (chunkTableEntry image mem (R.firstChunk mem)) 0 0⟩ := if_pos size

theorem loadTurn_pass (size : (ziChunkDesc mem p).size ≠ 0)
    (other : ¬(ziChunkDesc mem p).OwnedBy target) :
    loadTurn target image R ⟨mem, written, .zeroing p⟩ =
      .ok ⟨mem, written, .zeroing (p + sizeOfZiChunkDesc)⟩ := by
  rw [loadTurn]
  exact (if_neg size).trans (if_neg other)

theorem loadTurn_clear (size : (ziChunkDesc mem p).size ≠ 0)
    (owned : (ziChunkDesc mem p).OwnedBy target) :
    loadTurn target image R ⟨mem, written, .zeroing p⟩ = (do
      let mem' ← clearChunk p mem
      return ⟨mem', .zeroInit target (ziChunkDesc mem p) :: written,
        .zeroing (p + sizeOfZiChunkDesc)⟩) := by
  rw [loadTurn]
  exact (if_neg size).trans (if_pos owned)

theorem loadTurn_end (stops : (chunkDesc mem p).size = 0 ∨ R.ends mem count = true) :
    loadTurn target image R ⟨mem, written, .downloading p offset count⟩ =
      .ok ⟨mem, written, .finished⟩ := if_pos stops

theorem loadTurn_skip (goes : ¬((chunkDesc mem p).size = 0 ∨ R.ends mem count = true))
    (skips : R.takes (chunkDesc mem p) = false) :
    loadTurn target image R ⟨mem, written, .downloading p offset count⟩ =
      .ok ⟨mem, written, .downloading (p + sizeOfChunkDesc) offset count⟩ := by
  rw [loadTurn]
  exact (if_neg goes).trans (if_neg (Bool.eq_false_iff.mp skips))

theorem loadTurn_take (goes : ¬((chunkDesc mem p).size = 0 ∨ R.ends mem count = true))
    (takes : R.takes (chunkDesc mem p) = true) :
    loadTurn target image R ⟨mem, written, .downloading p offset count⟩ = (do
      let mem' ← copySlice image p offset mem
      return ⟨mem', .download target image (chunkDesc mem p) offset bootSubChunkSize :: written,
        .next (chunkDesc mem' p).size p offset count⟩) := by
  rw [loadTurn]
  exact (if_neg goes).trans (if_pos takes)

/-- A turn that takes a chunk leaves another list of writes, or stops. -/
theorem left_take (goes : ¬((chunkDesc mem p).size = 0 ∨ R.ends mem count = true))
    (takes : R.takes (chunkDesc mem p) = true) (mem' : Mem) :
    (loadTurn target image R ⟨mem, written, .downloading p offset count⟩).map Loader.left ≠
      .ok (mem', written) := by
  rw [loadTurn_take goes takes]
  cases copySlice image p offset mem with
  | error e => exact nofun
  | ok mem'' =>
    intro same
    have lists : _ :: written = written := congrArg Prod.snd (Except.ok.inj same)
    exact absurd (congrArg List.length lists) (Nat.succ_ne_self _)

theorem Narrower.goes (narrower : Narrower R R') (count : Word) (size : (chunkDesc mem p).size ≠ 0) :
    ¬((chunkDesc mem p).size = 0 ∨ R.ends mem count = true) := by
  rw [narrower.never]
  exact not_or.mpr ⟨size, Bool.false_ne_true⟩

/-! ### Runs -/

/-- A turn that agrees keeps the walks alongside. -/
theorem Alongside.turn (target : U54) (image : Word) (narrower : Narrower R R')
    (alongside : Alongside R R' x y) (agrees : x.Agrees R R') (first : x.SameFirst R R') :
    Together R R' (loadTurn target image R x) (loadTurn target image R' y) := by
  cases alongside with
  | same =>
    obtain ⟨mem, written, pos⟩ := x
    cases pos with
    | finished => exact .refl _
    | zeroing p =>
      by_cases size : (ziChunkDesc mem p).size = 0
      · simp only [loadTurn, if_pos size, first p rfl size]
        exact .same _
      · simp only [loadTurn, if_neg size]
        exact .refl _
    | downloading p offset count =>
      by_cases size : (chunkDesc mem p).size = 0
      · rw [loadTurn_end (.inl size), loadTurn_end (.inl size)]
        exact .same _
      have goes := narrower.goes count size
      have turn := agrees size
      split at turn
      next ends =>
        rw [loadTurn_skip goes (turn.here size), loadTurn_end (.inr ends)]
        exact .ended ends (turn.next size)
      next goesOn =>
        have goes' : ¬((chunkDesc mem p).size = 0 ∨ R'.ends mem count = true) :=
          not_or.mpr ⟨size, goesOn⟩
        cases taken : R.takes (chunkDesc mem p) with
        | true =>
          rw [loadTurn_take goes taken, loadTurn_take goes' (narrower.less _ taken)]
          exact .refl _
        | false =>
          have skips : R'.takes (chunkDesc mem p) = false :=
            Bool.eq_false_iff.mpr fun takes => Bool.false_ne_true (taken.symm.trans (turn takes))
          rw [loadTurn_skip goes taken, loadTurn_skip goes' skips]
          exact .same _
  | @ended mem written p offset count ends nothing =>
    show Together R R' (loadTurn target image R ⟨mem, written, .downloading p offset count⟩)
      (.ok ⟨mem, written, .finished⟩)
    by_cases size : (chunkDesc mem p).size = 0
    · rw [loadTurn_end (.inl size)]
      exact .same _
    · rw [loadTurn_skip (narrower.goes count size) (nothing.here size)]
      exact .ended ends (nothing.next size)

/-- What the walks leave after each number of turns is the same. -/
def LeaveTheSame (target : U54) (image : Word) (R R' : LoadRules) (x y : Loader) : Prop :=
  ∀ n, (loadTurns target image R n x).map Loader.left =
    (loadTurns target image R' n y).map Loader.left

theorem Together.left {outcome outcome' : Except Halt Loader}
    (together : Together R R' outcome outcome') :
    outcome.map Loader.left = outcome'.map Loader.left := by
  cases outcome with
  | error e =>
    cases outcome' with
    | error e' => exact congrArg Except.error together
    | ok y => exact together.elim
  | ok x =>
    cases outcome' with
    | error e' => exact together.elim
    | ok y => cases together <;> rfl

theorem loadTurns_finished (n : ℕ) : loadTurns target image R n ⟨mem, written, .finished⟩ =
    .ok ⟨mem, written, .finished⟩ := by
  induction n with
  | zero => rfl
  | succ n ih => exact ih

theorem Together.exists_ok {outcome : Except Halt Loader} (together : Together R R' (.ok x) outcome) :
    ∃ y, outcome = .ok y ∧ Alongside R R' x y := by
  cases outcome with
  | error e => exact together.elim
  | ok y => exact ⟨y, rfl, together⟩

/-- Walks whose turns agree leave the same. -/
theorem Alongside.turns (narrower : Narrower R R') (alongside : Alongside R R' x y)
    (agree : ∀ k x', loadTurns target image R k x = .ok x' → x'.Agrees R R' ∧ x'.SameFirst R R') :
    Together R R' (loadTurns target image R n x) (loadTurns target image R' n y) := by
  induction n generalizing x y with
  | zero => exact alongside
  | succ n ih =>
    have here := agree 0 x rfl
    have turn := alongside.turn target image narrower here.1 here.2
    rw [loadTurns, loadTurns]
    cases turned : loadTurn target image R x with
    | error e =>
      rw [turned] at turn
      cases turned' : loadTurn target image R' y with
      | error e' =>
        rw [turned'] at turn
        exact turn
      | ok y' =>
        rw [turned'] at turn
        exact turn.elim
    | ok x' =>
      rw [turned] at turn
      obtain ⟨y', turned', alongside'⟩ := turn.exists_ok
      rw [turned']
      refine ih alongside' fun k x'' later => agree (k + 1) x'' ?_
      rw [loadTurns, turned]
      exact later

theorem loadTurns_one : loadTurns target image R 1 x = loadTurn target image R x := by
  rw [loadTurns]
  cases loadTurn target image R x <;> rfl

theorem LeaveTheSame.turn {y' : Loader} (same : LeaveTheSame target image R R' x y)
    (turned : loadTurn target image R x = .ok x') (turned' : loadTurn target image R' y = .ok y') :
    LeaveTheSame target image R R' x' y' := by
  intro n
  have later := same (n + 1)
  rwa [loadTurns, loadTurns, turned, turned'] at later

/-- A walk that leaves the same as one that takes no chunk takes none. -/
theorem LeaveTheSame.not_takes (narrower : Narrower R R') {pos pos' : LoaderPos}
    (same : LeaveTheSame target image R R' ⟨mem, written, .downloading p offset count⟩
      ⟨mem, written, pos⟩) (turned : loadTurn target image R' ⟨mem, written, pos⟩ =
      .ok ⟨mem, written, pos'⟩) (size : (chunkDesc mem p).size ≠ 0) :
    R.takes (chunkDesc mem p) = false := by
  refine Bool.eq_false_iff.mpr fun takes => ?_
  refine left_take (narrower.goes count size) takes mem ((congrArg _ loadTurns_one.symm).trans
    ((same 1).trans ?_))
  rw [loadTurns_one, turned]
  rfl

/-- A walk that leaves the same as one at its end takes nothing more. -/
theorem LeaveTheSame.takesNothing (narrower : Narrower R R')
    (same : LeaveTheSame target image R R' ⟨mem, written, .downloading p offset count⟩
      ⟨mem, written, .finished⟩) : TakesNothing R mem p := by
  intro j
  induction j generalizing p with
  | zero =>
    intro sizes
    have size := sizes 0 le_rfl
    rw [entry_zero] at size ⊢
    exact same.not_takes narrower rfl size
  | succ j ih =>
    intro sizes
    have size := sizes 0 (Nat.zero_le _)
    rw [entry_zero] at size
    have skips := same.not_takes narrower rfl size
    rw [← entry_succ]
    refine ih (same.turn (loadTurn_skip (narrower.goes count size) skips) rfl) fun i le => ?_
    rw [entry_succ]
    exact sizes (i + 1) (Nat.succ_le_succ le)

theorem Alongside.agrees (narrower : Narrower R R') (alongside : Alongside R R' x y)
    (same : LeaveTheSame target image R R' x y) : x.Agrees R R' := by
  cases alongside with
  | @ended mem written p offset count ends nothing =>
    intro size
    rw [if_pos ends]
    exact nothing
  | same =>
    obtain ⟨mem, written, pos⟩ := x
    cases pos with
    | zeroing | finished => exact trivial
    | downloading p offset count =>
      intro size
      have goes := narrower.goes count size
      split
      next ends =>
        have ended : LeaveTheSame target image R R' ⟨mem, written, .downloading p offset count⟩
            ⟨mem, written, .finished⟩ := by
          intro n
          cases n with
          | zero => rfl
          | succ n =>
            refine (same (n + 1)).trans (congrArg _ ?_)
            rw [loadTurns, loadTurn_end (.inr ends)]
            rfl
        exact ended.takesNothing narrower
      next goesOn =>
        intro takes
        by_contra skips
        rw [Bool.not_eq_true] at skips
        have goes' : ¬((chunkDesc mem p).size = 0 ∨ R'.ends mem count = true) :=
          not_or.mpr ⟨size, goesOn⟩
        refine left_take goes' takes mem ((congrArg _ loadTurns_one.symm).trans ((same 1).symm.trans ?_))
        rw [loadTurns_one, loadTurn_skip goes skips]
        rfl

/-- Walks that leave the same agree in each turn. -/
theorem LeaveTheSame.agree (narrower : Narrower R R') (alongside : Alongside R R' x y)
    (same : LeaveTheSame target image R R' x y)
    (first : ∀ k x', loadTurns target image R k x = .ok x' → x'.SameFirst R R') :
    ∀ k x', loadTurns target image R k x = .ok x' → x'.Agrees R R' := by
  intro k
  induction k generalizing x y with
  | zero =>
    intro x' start
    cases start
    exact alongside.agrees narrower same
  | succ k ih =>
    intro x' later
    have turn := alongside.turn target image narrower (alongside.agrees narrower same) (first 0 x rfl)
    obtain ⟨x₁, turned, later⟩ := bind_eq_ok.mp later
    rw [turned] at turn
    obtain ⟨y₁, turned', alongside₁⟩ := turn.exists_ok
    refine ih alongside₁ (same.turn turned turned') (fun j x'' reached => first (j + 1) x'' ?_) x' later
    rw [loadTurns, turned]
    exact reached

/-- Walks that start at the same chunk leave the same if and only if their turns agree. -/
theorem leaveTheSame_iff (narrower : Narrower R R')
    (first : ∀ k x', loadTurns target image R k x = .ok x' → x'.SameFirst R R') :
    LeaveTheSame target image R R' x x ↔
      ∀ k x', loadTurns target image R k x = .ok x' → x'.Agrees R R' := by
  constructor
  · exact fun same => same.agree narrower (.same x) first
  · intro agree n
    exact (Alongside.turns narrower (.same x) fun k x' reached =>
      ⟨agree k x' reached, first k x' reached⟩).left

end

end Hss
