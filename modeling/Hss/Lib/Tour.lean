import Mathlib.Data.List.Basic
import Mathlib.Tactic.Common

/-! Machines that go round a list again and again, some elements in each step.  When each step gives the
next of what is left of the round, or starts a round after the last element, the outputs of all steps are
whole rounds and a part of one, and no round takes for ever. -/

namespace Tour

variable {σ α : Type}

/-- So many rounds, one after another. -/
def rounds (words : List α) (n : ℕ) : List α := (List.replicate n words).flatten

/-- The outputs of so many steps, and the state after them. -/
def outputs (step : σ → List α × σ) : ℕ → σ → List α × σ
  | 0, s => ([], s)
  | n + 1, s => ((step s).1 ++ (outputs step n (step s).2).1, (outputs step n (step s).2).2)

/-- A machine on the round of `words`: `rest` is what is left of the round, and `left` bounds the steps
until all of it is given. -/
structure Tours (words : List α) (step : σ → List α × σ) (good : σ → Prop) (rest : σ → List α)
    (left : σ → ℕ) : Prop where
  good_step : ∀ s, good s → good (step s).2
  next : ∀ s, good s → rest s = (step s).1 ++ rest (step s).2 ∧ left (step s).2 < left s ∨
    rest s = [] ∧ words = (step s).1 ++ rest (step s).2

variable {words : List α} {step : σ → List α × σ} {good : σ → Prop} {rest : σ → List α} {left : σ → ℕ}
  {s : σ}

@[simp] theorem rounds_zero (words : List α) : rounds words 0 = [] := rfl

theorem rounds_succ (words : List α) (n : ℕ) : rounds words (n + 1) = words ++ rounds words n := by
  simp [rounds, List.replicate_succ]

theorem rounds_succ' (words : List α) (n : ℕ) : rounds words (n + 1) = rounds words n ++ words := by
  induction n with
  | zero => simp [rounds_succ]
  | succ n ih =>
    calc rounds words (n + 1 + 1) = words ++ rounds words (n + 1) := rounds_succ ..
      _ = words ++ (rounds words n ++ words) := by rw [ih]
      _ = rounds words (n + 1) ++ words := by rw [← List.append_assoc, rounds_succ]

theorem mem_of_mem_rounds {a : α} {n : ℕ} (mem : a ∈ rounds words n) : a ∈ words := by
  induction n with
  | zero => simp at mem
  | succ n ih =>
    rw [rounds_succ, List.mem_append] at mem
    rcases mem with first | later
    · exact first
    · exact ih later

theorem outputs_add (step : σ → List α × σ) (m n : ℕ) (s : σ) :
    outputs step (m + n) s =
      ((outputs step m s).1 ++ (outputs step n (outputs step m s).2).1,
        (outputs step n (outputs step m s).2).2) := by
  induction m generalizing s with
  | zero => simp [outputs]
  | succ m ih =>
    rw [Nat.succ_add]
    simp [outputs, ih]

namespace Tours

theorem good_outputs (tours : Tours words step good rest left) (start : good s) (n : ℕ) :
    good (outputs step n s).2 := by
  induction n generalizing s with
  | zero => exact start
  | succ n ih => exact ih (tours.good_step s start)

/-- The outputs and what is left of the round are the rest of the first round and whole ones. -/
theorem outputs_rest (tours : Tours words step good rest left) (start : good s) (n : ℕ) :
    ∃ k, (outputs step n s).1 ++ rest (outputs step n s).2 = rest s ++ rounds words k := by
  induction n generalizing s with
  | zero => exact ⟨0, by simp [outputs]⟩
  | succ n ih =>
    obtain ⟨k, later⟩ := ih (tours.good_step s start)
    rcases tours.next s start with ⟨next, -⟩ | ⟨none, next⟩
    · exact ⟨k, by simp [outputs, next, later]⟩
    · exact ⟨k + 1, by simp [outputs, none, rounds_succ, next, later]⟩

/-- The round is ended by some number of steps. -/
theorem exists_end (tours : Tours words step good rest left) (start : good s) :
    ∃ n, (outputs step n s).1 = rest s ∧ rest (outputs step n s).2 = [] := by
  induction bound : left s using Nat.strongRecOn generalizing s with
  | ind bound' ih =>
    by_cases none : rest s = []
    · exact ⟨0, by simp [outputs, none]⟩
    · rcases tours.next s start with ⟨next, less⟩ | ⟨none', -⟩
      · obtain ⟨n, given, ended⟩ := ih _ (bound ▸ less) (tours.good_step s start) rfl
        exact ⟨n + 1, by simp [outputs, given, next], ended⟩
      · exact absurd none' none

/-- After a round the next one is gone, by some number of steps. -/
theorem exists_round (tours : Tours words step good rest left) (start : good s) (ended : rest s = []) :
    ∃ n, (outputs step n s).1 = words ∧ rest (outputs step n s).2 = [] := by
  induction bound : left s using Nat.strongRecOn generalizing s with
  | ind bound' ih =>
    rcases tours.next s start with ⟨next, less⟩ | ⟨-, next⟩
    · -- the machine has nothing to give yet
      obtain ⟨nothing, ended'⟩ := List.append_eq_nil_iff.mp (next.symm.trans ended)
      obtain ⟨n, given, again⟩ := ih _ (bound ▸ less) (tours.good_step s start) ended' rfl
      exact ⟨n + 1, by simp [outputs, nothing, given], again⟩
    · obtain ⟨n, given, again⟩ := tours.exists_end (tours.good_step s start)
      exact ⟨n + 1, by simp [outputs, given, next], again⟩

/-- From the start of a round, any number of rounds is gone by some number of steps. -/
theorem exists_rounds (tours : Tours words step good rest left) (start : good s)
    (whole : rest s = words) (k : ℕ) : ∃ n, (outputs step n s).1 = rounds words k := by
  cases k with
  | zero => exact ⟨0, rfl⟩
  | succ k =>
    have ends : ∃ n, (outputs step n s).1 = rounds words (k + 1) ∧ rest (outputs step n s).2 = [] := by
      induction k with
      | zero =>
        obtain ⟨n, given, ended⟩ := tours.exists_end start
        exact ⟨n, by simp [given, whole, rounds_succ], ended⟩
      | succ k ih =>
        obtain ⟨m, given, ended⟩ := ih
        obtain ⟨n, round, again⟩ := tours.exists_round (tours.good_outputs start m) ended
        refine ⟨m + n, ?_, ?_⟩
        · rw [outputs_add, given, round, ← rounds_succ']
        · rw [outputs_add]
          exact again
    obtain ⟨n, given, -⟩ := ends
    exact ⟨n, given⟩

/-- From the start of a round, the outputs are whole rounds and a part of one. -/
theorem outputs_prefix (tours : Tours words step good rest left) (start : good s)
    (whole : rest s = words) (n : ℕ) : ∃ k, (outputs step n s).1 <+: rounds words k := by
  obtain ⟨k, all⟩ := tours.outputs_rest start n
  exact ⟨k + 1, rest (outputs step n s).2, by rw [all, whole, rounds_succ]⟩

end Tours

/-! ### Parts of a machine -/

/-- What a part of a machine gives is among the outputs of the whole. -/
theorem outputs_part {τ β : Type} (part : σ → τ) {given : α → Option β} {step' : τ → List β × τ}
    (outs : ∀ s, (step s).1.filterMap given = (step' (part s)).1)
    (states : ∀ s, part (step s).2 = (step' (part s)).2) (n : ℕ) (s : σ) :
    (outputs step n s).1.filterMap given = (outputs step' n (part s)).1 := by
  induction n generalizing s with
  | zero => rfl
  | succ n ih => rw [outputs, outputs, List.filterMap_append, outs, ih, states]

/-- A machine that gives all words in each step that ends a period, and nothing in the others. -/
structure Ticks (words : List α) (step : σ → List α × σ) (good : σ → Prop) (phase : σ → ℕ)
    (period : ℕ) : Prop where
  good_step : ∀ s, good s → good (step s).2
  next : ∀ s, good s →
    phase s + 1 < period ∧ (step s).1 = [] ∧ phase (step s).2 = phase s + 1 ∨
      phase s + 1 = period ∧ (step s).1 = words ∧ phase (step s).2 = 0

/-- The outputs are one round for each period that is over. -/
theorem Ticks.outputs_eq {phase : σ → ℕ} {period : ℕ} (ticks : Ticks words step good phase period)
    (start : good s) (n : ℕ) (before : phase s < period) :
    (outputs step n s).1 = rounds words ((phase s + n) / period) := by
  induction n generalizing s with
  | zero => rw [Nat.add_zero, Nat.div_eq_of_lt before, rounds_zero, outputs]
  | succ n ih =>
    rcases ticks.next s start with ⟨within, nothing, phase'⟩ | ⟨last, all, phase'⟩
    · rw [outputs, nothing, List.nil_append, ih (ticks.good_step s start) (phase' ▸ within), phase',
        Nat.add_assoc, Nat.add_comm 1 n]
    · have more : phase s + (n + 1) = n + period := by omega
      rw [outputs, all, ih (ticks.good_step s start) (phase' ▸ by omega), phase', Nat.zero_add, more,
        Nat.add_div_right n (by omega), rounds_succ]

end Tour
