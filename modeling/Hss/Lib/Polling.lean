import Mathlib.Data.List.Basic
import Mathlib.Order.MinMax

/-! Loops that poll a status until something can be moved, give up after a number of readings in a row
that say it cannot, and then move as much as the last reading says: when they end, and what they have
moved. -/

namespace Polling

universe u

/-- The readings of a status, one after the other: whether nothing can be moved, and how much can. -/
structure Readings where
  blocked : ℕ → Bool
  room : ℕ → ℕ

/-- A loop after some of its turns: the readings and the elements so far, after which reading how many
were moved, and what the moves came to. -/
structure Loop (α : Type u) where
  readings : ℕ
  moved : ℕ
  chunks : List (ℕ × ℕ)
  effect : α
  returned : Bool

variable {α : Type u}

/-- The first of the next `timeout` readings that is not blocked. -/
def wait (blocked : ℕ → Bool) : ℕ → ℕ → Option ℕ
  | 0, _ => none
  | timeout + 1, n => if blocked n then wait blocked timeout (n + 1) else some n

/-- The next `count` elements are moved. -/
def moveChunk (move : ℕ → α → α) : ℕ → ℕ → α → α
  | _, 0, effect => effect
  | moved, count + 1, effect => moveChunk move (moved + 1) count (move moved effect)

/-- A turn of the loop, which moves `len` elements. -/
def turn (r : Readings) (timeout len : ℕ) (move : ℕ → α → α) (l : Loop α) : Loop α :=
  if len ≤ l.moved then { l with returned := true }
  else
    match wait r.blocked timeout l.readings with
    | none => { l with readings := l.readings + timeout, returned := true }
    | some m =>
        let chunk := min (len - l.moved) (r.room m)
        { l with
          readings := m + 1
          moved := l.moved + chunk
          chunks := l.chunks ++ [(m, chunk)]
          effect := moveChunk move l.moved chunk l.effect }

/-- `n` turns of the loop, or fewer if it returns before. -/
def run (r : Readings) (timeout len : ℕ) (move : ℕ → α → α) : ℕ → Loop α → Loop α
  | 0, l => l
  | n + 1, l => if l.returned then l else run r timeout len move n (turn r timeout len move l)

def start (effect : α) : Loop α := ⟨0, 0, [], effect, false⟩

/-- How much the first `n` readings say can be moved. -/
def gained (r : Readings) : ℕ → ℕ
  | 0 => 0
  | n + 1 => gained r n + if r.blocked n then 0 else r.room n

/-- The readings before number `n` end with `timeout` blocked ones. -/
def TimesOut (r : Readings) (timeout n : ℕ) : Prop :=
  timeout ≤ n ∧ ∀ m, n - timeout ≤ m → m < n → r.blocked m = true

/-- With `n` readings the loop is over: there was room enough, or it timed out. -/
def Settled (r : Readings) (timeout len n : ℕ) : Prop :=
  len ≤ gained r n ∨ TimesOut r timeout n

variable {r : Readings} {timeout len n : ℕ} {move : ℕ → α → α} {l : Loop α} {effect : α}

theorem wait_eq_none (timeout n : ℕ) : wait r.blocked timeout n = none ↔
    ∀ m, n ≤ m → m < n + timeout → r.blocked m = true := by
  induction timeout generalizing n with
  | zero => exact iff_of_true rfl fun m low high => by omega
  | succ timeout ih =>
    rw [wait]
    cases blocked : r.blocked n with
    | false => simpa using ⟨n, le_refl n, by omega, blocked⟩
    | true =>
      rw [if_pos rfl, ih]
      constructor
      · intro all m low high
        rcases low.eq_or_lt with rfl | low
        · exact blocked
        · exact all m low (by omega)
      · exact fun all m low high => all m (by omega) (by omega)

theorem wait_eq_some {m : ℕ} (found : wait r.blocked timeout n = some m) :
    n ≤ m ∧ m < n + timeout ∧ r.blocked m = false ∧ ∀ k, n ≤ k → k < m → r.blocked k = true := by
  induction timeout generalizing n with
  | zero => cases found
  | succ timeout ih =>
    rw [wait] at found
    cases blocked : r.blocked n with
    | false =>
      rw [blocked, if_neg Bool.false_ne_true] at found
      cases found
      exact ⟨le_refl _, by omega, blocked, fun k low high => by omega⟩
    | true =>
      rw [blocked, if_pos rfl] at found
      obtain ⟨low, high, clear, before⟩ := ih found
      refine ⟨by omega, by omega, clear, fun k low' high' => ?_⟩
      rcases low'.eq_or_lt with rfl | low'
      · exact blocked
      · exact before k low' high'

/-- Blocked readings say nothing of room. -/
theorem gained_blocked {m : ℕ} (le : n ≤ m) (all : ∀ k, n ≤ k → k < m → r.blocked k = true) :
    gained r m = gained r n := by
  induction m, le using Nat.le_induction with
  | base => rfl
  | succ m le ih =>
    rw [gained, all m le (Nat.lt_succ_self m), if_pos rfl, Nat.add_zero]
    exact ih fun k low high => all k low (by omega)

theorem moveChunk_add (move : ℕ → α → α) (moved first second : ℕ) (effect : α) :
    moveChunk move moved (first + second) effect =
      moveChunk move (moved + first) second (moveChunk move moved first effect) := by
  induction first generalizing moved effect with
  | zero => simp [moveChunk]
  | succ first ih =>
    rw [Nat.succ_add, moveChunk, moveChunk, ih, show moved + 1 + first = moved + (first + 1) by omega]

/-- What holds of a loop after any number of turns: it has moved what the readings allow, a chunk after
each of them that was not blocked, and it is not over before the last of them. -/
structure Inv (r : Readings) (timeout len : ℕ) (move : ℕ → α → α) (effect : α) (l : Loop α) :
    Prop where
  moved : l.moved = min len (gained r l.readings)
  effect : l.effect = moveChunk move 0 l.moved effect
  chunks : ∀ m c, (m, c) ∈ l.chunks ↔
    m < l.readings ∧ r.blocked m = false ∧ c = min (len - gained r m) (r.room m)
  unsettled : ∀ m < l.readings, ¬ Settled r timeout len m
  fresh : l.returned = false →
    ¬ TimesOut r timeout l.readings ∧ (0 < l.readings → r.blocked (l.readings - 1) = false)
  settled : l.returned = true → Settled r timeout len l.readings

theorem inv_start (r : Readings) (len : ℕ) (move : ℕ → α → α) (effect : α) (positive : 0 < timeout) :
    Inv r timeout len move effect (start effect) :=
  ⟨(Nat.min_zero len).symm, rfl, fun m c => by simp [start],
    fun m less => absurd less (Nat.not_lt_zero m),
    fun _ => ⟨fun ended => absurd ended.1 (Nat.not_le.mpr positive),
      fun less => absurd less (lt_irrefl 0)⟩,
    nofun⟩

/-- After a reading that is not blocked the loop has not timed out before `timeout` more. -/
theorem not_timesOut {m : ℕ} (before : ¬ TimesOut r timeout n)
    (clear : 0 < n → r.blocked (n - 1) = false) (low : n ≤ m) (high : m < n + timeout) :
    ¬ TimesOut r timeout m := by
  rintro ⟨enough, all⟩
  rcases low.eq_or_lt with rfl | less
  · exact before ⟨enough, all⟩
  · have here := all (n - 1) (by omega) (by omega)
    rw [clear (by omega)] at here
    cases here

namespace Inv

/-- The loop returns because all is moved. -/
theorem finish (inv : Inv r timeout len move effect l) (enough : len ≤ l.moved) :
    Inv r timeout len move effect { l with returned := true } := by
  refine ⟨inv.moved, inv.effect, inv.chunks, inv.unsettled, nofun, fun _ => .inl ?_⟩
  rw [inv.moved] at enough
  exact (le_min_iff.mp enough).2

theorem gained_lt (inv : Inv r timeout len move effect l) (more : ¬ len ≤ l.moved) :
    gained r l.readings < len ∧ l.moved = gained r l.readings := by
  rw [inv.moved] at more ⊢
  have short : gained r l.readings < len := by
    by_contra enough
    exact more (le_min (le_refl len) (not_lt.mp enough))
  exact ⟨short, min_eq_right short.le⟩

/-- While the readings are blocked the loop is not over. -/
theorem not_settled (inv : Inv r timeout len move effect l) (going : l.returned = false)
    (more : ¬ len ≤ l.moved) {m : ℕ} (low : l.readings ≤ m) (high : m < l.readings + timeout)
    (all : ∀ k, l.readings ≤ k → k < m → r.blocked k = true) : ¬ Settled r timeout len m := by
  obtain ⟨before, clear⟩ := inv.fresh going
  rintro (enough | ended)
  · rw [gained_blocked low all] at enough
    exact absurd (inv.gained_lt more).1 (not_lt.mpr enough)
  · exact not_timesOut before clear low high ended

/-- The loop returns because it timed out. -/
theorem giveUp (inv : Inv r timeout len move effect l) (going : l.returned = false)
    (more : ¬ len ≤ l.moved) (none : wait r.blocked timeout l.readings = none) :
    Inv r timeout len move effect
      { l with readings := l.readings + timeout, returned := true } := by
  have all := (wait_eq_none _ _).mp none
  refine ⟨?_, inv.effect, fun m c => ?_, fun m less => ?_, nofun,
    fun _ => .inr ⟨Nat.le_add_left .., fun m low high => all m ?_ high⟩⟩
  · exact inv.moved.trans (by rw [gained_blocked (Nat.le_add_right ..) all])
  · dsimp only
    rw [inv.chunks]
    constructor
    · exact fun ⟨less, rest⟩ => ⟨by omega, rest⟩
    · rintro ⟨less, clear, count⟩
      refine ⟨?_, clear, count⟩
      by_contra past
      have blocked := all m (by omega) less
      rw [clear] at blocked
      cases blocked
  · dsimp only at less
    rcases Nat.lt_or_ge m l.readings with past | low
    · exact inv.unsettled m past
    · exact inv.not_settled going more low less fun k low' high => all k low' (by omega)
  · dsimp only at low
    omega

/-- The loop moves a chunk. -/
theorem chunk (inv : Inv r timeout len move effect l) (going : l.returned = false)
    (more : ¬ len ≤ l.moved) {m : ℕ} (found : wait r.blocked timeout l.readings = some m) :
    Inv r timeout len move effect
      { readings := m + 1
        moved := l.moved + min (len - l.moved) (r.room m)
        chunks := l.chunks ++ [(m, min (len - l.moved) (r.room m))]
        effect := moveChunk move l.moved (min (len - l.moved) (r.room m)) l.effect
        returned := l.returned } := by
  obtain ⟨low, high, clear, before⟩ := wait_eq_some found
  obtain ⟨short, moved⟩ := inv.gained_lt more
  have here : gained r m = l.moved := (gained_blocked low before).trans moved.symm
  have next : gained r (m + 1) = l.moved + r.room m := by
    rw [gained, clear, if_neg Bool.false_ne_true, here]
  have fresh : ¬ TimesOut r timeout (m + 1) := by
    rintro ⟨_, all⟩
    have blocked := all m (by omega) (Nat.lt_succ_self m)
    rw [clear] at blocked
    cases blocked
  refine ⟨?_, ?_, fun k c => ?_, fun k less => ?_, fun _ => ⟨fresh, fun _ => clear⟩, fun ended => ?_⟩
  · dsimp only
    rw [next]
    omega
  · dsimp only
    rw [inv.effect, moveChunk_add, Nat.zero_add]
  · dsimp only
    rw [List.mem_append, inv.chunks, List.mem_singleton, Prod.mk.injEq]
    constructor
    · rintro (⟨less, rest⟩ | ⟨rfl, rfl⟩)
      · exact ⟨by omega, rest⟩
      · exact ⟨Nat.lt_succ_self _, clear, by rw [here]⟩
    · rintro ⟨less, clear', count⟩
      rcases Nat.lt_or_ge k l.readings with past | low'
      · exact .inl ⟨past, clear', count⟩
      · rcases (Nat.le_of_lt_succ less).eq_or_lt with rfl | less'
        · exact .inr ⟨rfl, by rw [count, here]⟩
        · rw [before k low' less'] at clear'
          cases clear'
  · dsimp only at less
    rcases Nat.lt_or_ge k l.readings with past | low'
    · exact inv.unsettled k past
    · exact inv.not_settled going more low' (by omega) fun j low'' high' => before j low'' (by omega)
  · rw [going] at ended
    cases ended

theorem turn (inv : Inv r timeout len move effect l) (going : l.returned = false) :
    Inv r timeout len move effect (turn r timeout len move l) := by
  unfold Polling.turn
  split
  · next enough => exact inv.finish enough
  · next more =>
    split
    · next none => exact inv.giveUp going more none
    · next m found => exact inv.chunk going more found

theorem run (inv : Inv r timeout len move effect l) (n : ℕ) :
    Inv r timeout len move effect (run r timeout len move n l) := by
  induction n generalizing l with
  | zero => exact inv
  | succ n ih =>
    rw [Polling.run]
    split
    · exact inv
    · next going => exact ih (inv.turn (by simpa using going))

end Inv

/-- A turn that does not return takes a reading at least, and never more than `timeout`. -/
theorem turn_readings (r : Readings) (timeout len : ℕ) (move : ℕ → α → α) (l : Loop α) :
    (turn r timeout len move l).readings ≤ l.readings + timeout ∧
      ((turn r timeout len move l).returned = false →
        l.readings < (turn r timeout len move l).readings) := by
  unfold turn
  split
  · exact ⟨Nat.le_add_right .., nofun⟩
  · split
    · exact ⟨le_refl _, nofun⟩
    · next m found =>
      obtain ⟨low, high, _⟩ := wait_eq_some found
      exact ⟨high, fun _ => Nat.lt_succ_of_le low⟩

theorem run_of_returned (ended : l.returned = true) (n : ℕ) : run r timeout len move n l = l := by
  cases n with
  | zero => rfl
  | succ n => exact if_pos ended

theorem run_readings (r : Readings) (timeout len : ℕ) (move : ℕ → α → α) (n : ℕ) (l : Loop α) :
    (run r timeout len move n l).readings ≤ l.readings + n * timeout ∧
      ((run r timeout len move n l).returned = false →
        l.readings + n ≤ (run r timeout len move n l).readings) := by
  induction n generalizing l with
  | zero => exact ⟨by simp [run], fun _ => le_refl _⟩
  | succ n ih =>
    rw [run, Nat.succ_mul]
    split
    · next ended => exact ⟨by omega, fun going => absurd ended (by simp [going])⟩
    · obtain ⟨most, least⟩ := turn_readings r timeout len move l
      obtain ⟨most', least'⟩ := ih (turn r timeout len move l)
      refine ⟨by omega, fun going => ?_⟩
      have more := least' going
      cases ended : (turn r timeout len move l).returned with
      | false =>
        have := least ended
        omega
      | true =>
        rw [run_of_returned ended, ended] at going
        cases going

/-- The loop returns if and only if there comes a reading with which it is over. -/
theorem returns_iff (positive : 0 < timeout) :
    (∃ n, (run r timeout len move n (start effect)).returned = true) ↔
      ∃ n, Settled r timeout len n := by
  constructor
  · rintro ⟨n, ended⟩
    exact ⟨_, ((inv_start _ _ move effect positive).run n).settled ended⟩
  · rintro ⟨n, settled⟩
    refine ⟨n + 1, ?_⟩
    by_contra going
    have inv := (inv_start r len move effect positive).run (n + 1)
    have more := (run_readings r timeout len move (n + 1) (start effect)).2 (by simpa using going)
    exact inv.unsettled n (Nat.lt_of_lt_of_le (by simp [start]) more) settled

/-- A loop is never over if none of its readings is blocked and none says that there is room. -/
theorem not_settled_of_stuck (positive : 0 < timeout) (more : 0 < len)
    (stuck : ∀ m, r.blocked m = false ∧ r.room m = 0) (n : ℕ) : ¬ Settled r timeout len n := by
  have nothing : gained r n = 0 := by
    induction n with
    | zero => rfl
    | succ n ih => rw [gained, ih, (stuck n).1, if_neg Bool.false_ne_true, (stuck n).2]
  rintro (enough | ⟨many, all⟩)
  · omega
  · have blocked := all (n - 1) (by omega) (by omega)
    rw [(stuck _).1] at blocked
    cases blocked

/-- With room at each reading that is not blocked, a turn that does not return moves an element. -/
theorem run_moved (l : Loop α) (opened : ∀ m, r.blocked m = false → 0 < r.room m) (n : ℕ)
    (going : (run r timeout len move n l).returned = false) :
    l.moved + n ≤ (run r timeout len move n l).moved := by
  induction n generalizing l with
  | zero => exact le_refl _
  | succ n ih =>
    rw [run] at going ⊢
    split at going
    · next ended => exact absurd ended (by simp [going])
    · next here =>
      rw [if_neg here]
      have later := ih _ going
      have still : (turn r timeout len move l).returned = false := by
        by_contra ended
        rw [run_of_returned (by simpa using ended)] at going
        exact ended going
      have moves : l.moved < (turn r timeout len move l).moved := by
        unfold turn at still ⊢
        split at still
        · cases still
        · next more =>
          rw [if_neg more]
          split at still
          · cases still
          · next m found =>
            have := opened m (wait_eq_some found).2.2.1
            dsimp only
            omega
      omega

/-- With room at each reading that is not blocked, the loop returns after as many turns as there are
elements, and one. -/
theorem returns_of_room (positive : 0 < timeout)
    (opened : ∀ m, r.blocked m = false → 0 < r.room m) :
    (run r timeout len move (len + 1) (start effect)).returned = true := by
  by_contra going
  have inv := (inv_start r len move effect positive).run (len + 1)
  have moved := run_moved (start effect) opened (len + 1) (by simpa using going)
  have most := inv.moved
  rw [show (start effect).moved = 0 from rfl] at moved
  omega

end Polling
