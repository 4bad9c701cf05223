import Hss.Lib.Outcome
import Mathlib.Logic.Function.Iterate

/-! Programs that need not end: functions of the fuel they are given, which stop when it is used up or
when they do something undefined.  A rule for the states that a loop can be left in, and one for loops
that end. -/

namespace Fuel

/-- Why a program has no result. -/
inductive Stop
  | running
  | undefined
  deriving DecidableEq, Repr

abbrev Result (α : Type) := Except Stop α

variable {σ α β : Type}

/-- `while (cond) body`, with fuel for so many turns. -/
def whileLoop (cond : σ → Bool) (body : σ → Result σ) : ℕ → σ → Result σ
  | 0, s => if cond s then .error .running else .ok s
  | turns + 1, s => if cond s then body s >>= whileLoop cond body turns else .ok s

/-- With enough fuel the program ends with a result, always the same. -/
def Ends (program : ℕ → Result α) (a : α) : Prop := ∃ enough, ∀ fuel ≥ enough, program fuel = .ok a

variable {cond : σ → Bool} {body : σ → Result σ} {bodies : ℕ → σ → Result σ} {I : σ → Prop}
variable {program : ℕ → Result α} {rest : ℕ → α → Result β} {a a' : α} {b : β} {s s' : σ}

theorem whileLoop_of_not (done : cond s = false) (turns : ℕ) : whileLoop cond body turns s = .ok s := by
  cases turns <;> simp [whileLoop, done]

/-- What a turn keeps holds where the loop is left. -/
theorem whileLoop_inv (keeps : ∀ s s', I s → cond s = true → body s = .ok s' → I s') {turns : ℕ}
    (start : I s) (ran : whileLoop cond body turns s = .ok s') : I s' ∧ cond s' = false := by
  induction turns generalizing s with
  | zero =>
    rw [whileLoop] at ran
    split at ran
    · cases ran
    · next done =>
      cases ran
      exact ⟨start, Bool.eq_false_iff.mpr done⟩
  | succ turns ih =>
    rw [whileLoop] at ran
    split at ran
    · next more =>
      obtain ⟨middle, turned, later⟩ := Outcome.bind_eq_ok.mp ran
      exact ih (keeps s middle start more turned) later
    · next done =>
      cases ran
      exact ⟨start, Bool.eq_false_iff.mpr done⟩

theorem Ends.ok (a : α) : Ends (fun _ => .ok a) a := ⟨0, fun _ _ => rfl⟩

theorem Ends.exists_eq (ends : Ends program a) : ∃ fuel, program fuel = .ok a := by
  obtain ⟨enough, all⟩ := ends
  exact ⟨enough, all enough (Nat.le_refl _)⟩

theorem Ends.unique (first : Ends program a) (second : Ends program a') : a = a' := by
  obtain ⟨k, all⟩ := first
  obtain ⟨k', all'⟩ := second
  have same := (all (max k k') (Nat.le_max_left ..)).symm.trans (all' (max k k') (Nat.le_max_right ..))
  exact Except.ok.inj same

theorem Ends.bind (first : Ends program a) (second : Ends (rest · a) b) :
    Ends (fun fuel => program fuel >>= rest fuel) b := by
  obtain ⟨k, all⟩ := first
  obtain ⟨k', all'⟩ := second
  refine ⟨max k k', fun fuel enough => ?_⟩
  show program fuel >>= rest fuel = .ok b
  rw [all fuel (Nat.le_trans (Nat.le_max_left ..) enough)]
  exact all' fuel (Nat.le_trans (Nat.le_max_right ..) enough)

/-- A loop ends whose turns end, keep the invariant and take something off a rank. -/
theorem Ends.whileLoop (rank : σ → ℕ)
    (keeps : ∀ fuel s s', I s → cond s = true → bodies fuel s = .ok s' → I s' ∧ rank s' < rank s)
    (turn : ∀ s, I s → cond s = true → ∃ s', Ends (bodies · s) s') (start : I s) :
    ∃ s', Ends (fun fuel => Fuel.whileLoop cond (bodies fuel) fuel s) s' := by
  -- the fuel for the turns is taken apart from that for their bodies
  suffices apart : ∃ s' enough, ∀ fuel ≥ enough, ∀ turns ≥ enough,
      Fuel.whileLoop cond (bodies fuel) turns s = .ok s' by
    obtain ⟨s', enough, all⟩ := apart
    exact ⟨s', enough, fun fuel le => all fuel le fuel le⟩
  induction bound : rank s using Nat.strongRecOn generalizing s with
  | _ n ih =>
    cases more : cond s with
    | false => exact ⟨s, 0, fun _ _ turns _ => whileLoop_of_not more turns⟩
    | true =>
      obtain ⟨middle, k, turned⟩ := turn s start more
      obtain ⟨kept, less⟩ := keeps k s middle start more (turned k (Nat.le_refl k))
      obtain ⟨s', k', later⟩ := ih (rank middle) (bound ▸ less) kept rfl
      refine ⟨s', max k k' + 1, fun fuel enough turns le => ?_⟩
      obtain ⟨turns, rfl⟩ := Nat.exists_eq_add_of_le' (show 1 ≤ turns by omega)
      have ran : bodies fuel s = .ok middle := turned fuel (by omega)
      rw [Fuel.whileLoop, if_pos more, ran]
      exact later fuel (by omega) turns (by omega)

/-- A loop ends that only looks again, once it sees what it waits for. -/
theorem Ends.poll (cond : σ → Bool) (look : σ → σ) (n : ℕ) (seen : cond (look^[n] s) = false) :
    ∃ s', Ends (fun fuel => Fuel.whileLoop cond (fun s => .ok (look s)) fuel s) s' := by
  induction n generalizing s with
  | zero => exact ⟨s, 0, fun fuel _ => whileLoop_of_not seen fuel⟩
  | succ n ih =>
    cases more : cond s with
    | false => exact ⟨s, 0, fun fuel _ => whileLoop_of_not more fuel⟩
    | true =>
      obtain ⟨s', enough, later⟩ := ih (s := look s) seen
      refine ⟨s', enough + 1, fun fuel le => ?_⟩
      obtain ⟨fuel, rfl⟩ := Nat.exists_eq_add_of_le' (show 1 ≤ fuel by omega)
      show Fuel.whileLoop cond _ (fuel + 1) s = .ok s'
      rw [Fuel.whileLoop, if_pos more]
      exact later fuel (by omega)

end Fuel
