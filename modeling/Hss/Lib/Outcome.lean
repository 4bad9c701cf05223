import Mathlib.Logic.Basic

/-! Outcomes of computations that can stop with an error: a computation meets a postcondition when
its result, if it has one, satisfies it, and it does not stop with one forbidden error.  Two
computations agree up to a map of their results when their parts do. -/

namespace Outcome

variable {ε α β σ ι : Type}

/-! ### Sequences -/

section
variable {x : Except ε α} {f : α → Except ε β} {check : ι → Except ε Unit}

theorem bind_eq_ok {b : β} : x >>= f = .ok b ↔ ∃ a, x = .ok a ∧ f a = .ok b := by
  cases x with
  | error e => simp [bind, Except.bind]
  | ok a => simp [bind, Except.bind]

@[simp] theorem ok_bind (a : α) (f : α → Except ε β) : (Except.ok a >>= f) = f a := rfl

@[simp] theorem error_bind (e : ε) (f : α → Except ε β) : (Except.error e >>= f) = .error e := rfl

theorem forM_eq_ok {l : List ι} : l.forM check = .ok () ↔ ∀ i ∈ l, check i = .ok () := by
  induction l with
  | nil => exact ⟨fun _ _ absent => absurd absent List.not_mem_nil, fun _ => rfl⟩
  | cons i l ih =>
    show (check i >>= fun _ => l.forM check) = .ok () ↔ _
    rw [List.forall_mem_cons, ← ih, bind_eq_ok]
    exact ⟨fun ⟨(), first, rest⟩ => ⟨first, rest⟩, fun ⟨first, rest⟩ => ⟨(), first, rest⟩⟩

end

/-! ### Postconditions -/

/-- `x` does not stop with `bad`, and its result satisfies `Q`. -/
def Meets (bad : ε) (x : Except ε α) (Q : α → Prop) : Prop :=
  x ≠ .error bad ∧ ∀ a, x = .ok a → Q a

variable {bad e : ε} {x : Except ε α} {f : α → Except ε β} {a : α} {P Q : α → Prop} {R : β → Prop}

theorem Meets.ok (holds : Q a) : Meets bad (.ok a) Q :=
  ⟨nofun, fun _ same => Except.ok.inj same ▸ holds⟩

theorem Meets.error (other : e ≠ bad) : Meets bad (.error e : Except ε α) Q :=
  ⟨fun same => other (Except.error.inj same), nofun⟩

theorem Meets.mono (meets : Meets bad x P) (weaker : ∀ a, P a → Q a) : Meets bad x Q :=
  ⟨meets.1, fun a done => weaker a (meets.2 a done)⟩

theorem Meets.computed (meets : Meets bad x Q) : Meets bad x fun a => x = .ok a ∧ Q a :=
  ⟨meets.1, fun a done => ⟨done, meets.2 a done⟩⟩

theorem Meets.bind (first : Meets bad x P) (rest : ∀ a, P a → Meets bad (f a) R) :
    Meets bad (x >>= f) R := by
  cases x with
  | error e => exact .error fun same => first.1 (congrArg _ same)
  | ok a => exact rest a (first.2 a rfl)

theorem Meets.foldlM {I : σ → Prop} {turn : σ → ι → Except ε σ} (l : List ι) {s : σ} (start : I s)
    (keeps : ∀ i ∈ l, ∀ s, I s → Meets bad (turn s i) I) : Meets bad (l.foldlM turn s) I := by
  induction l generalizing s with
  | nil => exact .ok start
  | cons i l ih =>
    rw [List.foldlM_cons]
    refine (keeps i (List.mem_cons_self ..) s start).bind fun t kept => ih kept ?_
    exact fun j present => keeps j (List.mem_cons_of_mem _ present)

theorem map_bind {α' β' : Type} {g : α → α'} {h : β → β'} {y : Except ε α'}
    {f' : α' → Except ε β'} (first : x.map g = y) (rest : ∀ a, x = .ok a → (f a).map h = f' (g a)) :
    (x >>= f).map h = y >>= f' := by
  cases x with
  | error e =>
    cases first
    rfl
  | ok a =>
    cases first
    exact rest a rfl

/-- A loop over a list keeps what each of its turns keeps. -/
theorem foldlM_ok {I : σ → Prop} {turn : σ → ι → Except ε σ} {l : List ι} {s t : σ}
    (keeps : ∀ i s t, I s → turn s i = .ok t → I t) (done : l.foldlM turn s = .ok t) (start : I s) :
    I t := by
  induction l generalizing s with
  | nil =>
    cases done
    exact start
  | cons i l ih =>
    rw [List.foldlM_cons] at done
    cases first : turn s i with
    | error e =>
      rw [first] at done
      cases done
    | ok u =>
      rw [first] at done
      exact ih done (keeps i s u start first)

end Outcome
