import Mathlib.Data.Set.Basic

/-! Regions in the order of their priority: the first that meets an access decides on it, and what no
region meets is denied. -/

namespace PriorityRegions

variable {α : Type} {n i k : ℕ} {cover : ℕ → Set α} {grants : ℕ → Prop} {access : Set α}

/-- Of `n` regions, `i` is the first that meets the access. -/
structure Decides (n : ℕ) (cover : ℕ → Set α) (access : Set α) (i : ℕ) : Prop where
  bound : i < n
  meets : (cover i ∩ access).Nonempty
  first : ∀ k < i, ¬ (cover k ∩ access).Nonempty

/-- The region that decides contains the access and grants it. -/
def Permits (n : ℕ) (cover : ℕ → Set α) (grants : ℕ → Prop) (access : Set α) : Prop :=
  ∃ i, Decides n cover access i ∧ access ⊆ cover i ∧ grants i

theorem Decides.unique (hi : Decides n cover access i) (hk : Decides n cover access k) : i = k := by
  rcases Nat.lt_trichotomy i k with less | same | less
  · exact absurd hi.meets (hk.first i less)
  · exact same
  · exact absurd hk.meets (hi.first k less)

theorem Decides.permits_iff (decides : Decides n cover access i) :
    Permits n cover grants access ↔ access ⊆ cover i ∧ grants i := by
  constructor
  · rintro ⟨k, other, inside, granted⟩
    cases decides.unique other
    exact ⟨inside, granted⟩
  · rintro ⟨inside, granted⟩
    exact ⟨i, decides, inside, granted⟩

theorem not_permits_of_disjoint (disjoint : ∀ i < n, ¬ (cover i ∩ access).Nonempty) :
    ¬ Permits n cover grants access := by
  rintro ⟨i, decides, -, -⟩
  exact disjoint i decides.bound decides.meets

end PriorityRegions
