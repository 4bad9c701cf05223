import Hss.Tinycli

/-! The command that a token names: its whole name, or the start of it and of no other. -/

namespace Hss

variable {W : Type}

/-- The letters that `strncasecmp` compares. -/
def ignoringCase (name : Token) : Token := name.map Char.toLower

/-- The token is the name of the command at a place of the table, or abbreviates it and no other. -/
def Names (pCmds : List (TinycliCmd W)) (token : Token) (i : ℕ) (cmd : TinycliCmd W) : Prop :=
  pCmds[i]? = some cmd ∧ (ignoringCase token = ignoringCase cmd.name.toList ∨
    ignoringCase token <+: ignoringCase cmd.name.toList ∧
      ignoringCase token ≠ ignoringCase cmd.name.toList ∧
      ∀ j other, pCmds[j]? = some other → j ≠ i →
        ¬ignoringCase token <+: ignoringCase other.name.toList)

/-- The token is resolved to what it names. -/
structure Resolved (pCmds : List (TinycliCmd W)) (token : Token) : Prop where
  named : ∀ i cmd, namedCmd pCmds token = some (i, cmd) ↔ Names pCmds token i cmd
  rejected : (∀ cmd ∈ pCmds, ¬ignoringCase token <+: ignoringCase cmd.name.toList) →
    namedCmd pCmds token = none

/-- A command at this place is the first one whose name the token starts with. -/
def FirstStart (pCmds : List (TinycliCmd W)) (token : Token) (i : ℕ) (cmd : TinycliCmd W) : Prop :=
  pCmds[i]? = some cmd ∧ ignoringCase cmd.name.toList <+: ignoringCase token ∧
    ∀ j other, pCmds[j]? = some other → j < i →
      ¬ignoringCase other.name.toList <+: ignoringCase token

/-- If the token starts with the name of a command, then it is the name of the first such command, and
of no other one. -/
def StartsWithNone (pCmds : List (TinycliCmd W)) (token : Token) : Prop :=
  ∀ i cmd, FirstStart pCmds token i cmd → ignoringCase token = ignoringCase cmd.name.toList ∧
    ∀ j other, pCmds[j]? = some other → j ≠ i →
      ignoringCase token ≠ ignoringCase other.name.toList

/-! ### Comparisons -/

theorem strncasecmp_left (a b : Token) :
    strncasecmp a b a.length = true ↔ ignoringCase a <+: ignoringCase b := by
  rw [List.prefix_iff_eq_take]
  simp [strncasecmp, ignoringCase, List.map_take]

theorem strncasecmp_right (a b : Token) :
    strncasecmp a b b.length = true ↔ ignoringCase b <+: ignoringCase a := by
  rw [List.prefix_iff_eq_take]
  simp [strncasecmp, ignoringCase, List.map_take, eq_comm]

/-- Each of two names is the start of the other only if they are the same. -/
theorem eq_of_prefixes {a b : Token} (left : a <+: b) (right : b <+: a) : a = b :=
  left.eq_of_length_le right.length_le

/-! ### The search of the table -/

theorem countP_eq_zero_iff_getElem? {α : Type} (p : α → Bool) (l : List α) :
    l.countP p = 0 ↔ ∀ (i : ℕ) a, l[i]? = some a → ¬p a = true := by
  rw [List.countP_eq_zero]
  constructor
  · intro none i a at_i
    exact none a (List.mem_of_getElem? at_i)
  · intro none a mem
    obtain ⟨i, at_i⟩ := List.getElem?_of_mem mem
    exact none i a at_i

/-- The place of the one element with a property. -/
theorem unique_place_iff {α : Type} (p : α → Bool) (l : List α) (i : ℕ) :
    (if l.countP p = 1 then l.findIdx? p else none) = some i ↔
      (∃ a, l[i]? = some a ∧ p a = true) ∧ ∀ j a, l[j]? = some a → j ≠ i → ¬p a = true := by
  induction l generalizing i with
  | nil => simp
  | cons a l ih =>
    rw [List.countP_cons, List.findIdx?_cons]
    by_cases holds : p a = true
    · rw [if_pos holds, if_pos holds]
      cases i with
      | zero =>
        have alone : l.countP p + 1 = 1 ↔ ∀ (j : ℕ) b, l[j]? = some b → ¬p b = true := by
          rw [← countP_eq_zero_iff_getElem?]
          omega
        constructor
        · intro first
          have one : l.countP p + 1 = 1 := by
            by_contra more
            rw [if_neg more] at first
            contradiction
          refine ⟨⟨a, rfl, holds⟩, fun j b at_j ne => ?_⟩
          cases j with
          | zero => exact absurd rfl ne
          | succ j => exact alone.mp one j b (by simpa using at_j)
        · rintro ⟨-, others⟩
          rw [if_pos (alone.mpr fun j b at_j => others (j + 1) b (by simpa using at_j) (by omega))]
      | succ i =>
        constructor
        · intro first
          split at first <;> simp at first
        · rintro ⟨-, others⟩
          exact absurd holds (others 0 a rfl (by omega))
    · rw [if_neg holds, if_neg holds, Nat.add_zero]
      cases i with
      | zero =>
        constructor
        · intro first
          split at first <;> simp at first
        · rintro ⟨⟨b, first, holds'⟩, -⟩
          cases first
          exact absurd holds' holds
      | succ i =>
        have later : (if l.countP p = 1 then (l.findIdx? p).map (· + 1) else none) = some (i + 1) ↔
            (if l.countP p = 1 then l.findIdx? p else none) = some i := by
          split <;> simp
        rw [later, ih, List.getElem?_cons_succ]
        refine and_congr_right fun _ => ⟨fun others j b at_j ne => ?_, fun others j b at_j ne => ?_⟩
        · cases j with
          | zero =>
            cases at_j
            exact holds
          | succ j => exact others j b (by simpa using at_j) (by omega)
        · exact others (j + 1) b (by simpa using at_j) (by omega)

section

variable (pCmds : List (TinycliCmd W)) (token : Token)

theorem namedCmd_eq_some_iff (i : ℕ) (cmd : TinycliCmd W) : namedCmd pCmds token = some (i, cmd) ↔
    tinyCliNameToCmdIndex pCmds token = some i ∧ pCmds[i]? = some cmd := by
  unfold namedCmd
  cases tinyCliNameToCmdIndex pCmds token with
  | none => simp
  | some index =>
    simp only [Option.bind_eq_bind, Option.bind_some, Option.map_eq_some_iff, Prod.mk.injEq,
      Option.some.injEq]
    constructor
    · rintro ⟨found, at_index, rfl, rfl⟩
      exact ⟨rfl, at_index⟩
    · rintro ⟨rfl, at_index⟩
      exact ⟨cmd, at_index, rfl, rfl⟩

theorem full_match_iff (i : ℕ) :
    (pCmds.findIdx? fun cmd => strncasecmp cmd.name.toList token cmd.name.length) = some i ↔
      ∃ cmd, FirstStart pCmds token i cmd := by
  rw [List.findIdx?_eq_some_iff_getElem]
  constructor
  · rintro ⟨inside, starts, before⟩
    refine ⟨pCmds[i], List.getElem?_eq_getElem inside, (strncasecmp_left _ _).mp starts,
      fun j other at_j lt starts => ?_⟩
    obtain ⟨_, rfl⟩ := List.getElem?_eq_some_iff.mp at_j
    exact before j lt ((strncasecmp_left _ _).mpr starts)
  · rintro ⟨cmd, at_i, starts, before⟩
    obtain ⟨inside, rfl⟩ := List.getElem?_eq_some_iff.mp at_i
    refine ⟨inside, (strncasecmp_left _ _).mpr starts, fun j lt earlier => ?_⟩
    exact before j _ (List.getElem?_eq_getElem _) lt ((strncasecmp_left _ _).mp earlier)

/-- With a command whose name the token starts with, the first such command is found. -/
theorem namedCmd_of_firstStart {i : ℕ} {cmd : TinycliCmd W} (first : FirstStart pCmds token i cmd) :
    namedCmd pCmds token = some (i, cmd) := by
  refine (namedCmd_eq_some_iff pCmds token i cmd).mpr ⟨?_, first.1⟩
  have found := (full_match_iff pCmds token i).mpr ⟨cmd, first⟩
  simp only [tinyCliNameToCmdIndex, found]

/-- Without one, the token is resolved to what it names. -/
theorem namedCmd_of_no_start (none : ∀ cmd ∈ pCmds,
    ¬ignoringCase cmd.name.toList <+: ignoringCase token) (i : ℕ) (cmd : TinycliCmd W) :
    namedCmd pCmds token = some (i, cmd) ↔ Names pCmds token i cmd := by
  have no_full : (pCmds.findIdx? fun cmd => strncasecmp cmd.name.toList token cmd.name.length) =
      Option.none := by
    rw [List.findIdx?_eq_none_iff]
    intro cmd mem
    rw [← Bool.not_eq_true]
    exact fun starts => none cmd mem ((strncasecmp_left _ _).mp starts)
  rw [namedCmd_eq_some_iff, tinyCliNameToCmdIndex]
  simp only [no_full]
  rw [unique_place_iff]
  simp only [strncasecmp_right]
  constructor
  · rintro ⟨⟨⟨found, at_i, abbreviates⟩, others⟩, at_i'⟩
    obtain rfl : found = cmd := Option.some.inj (at_i.symm.trans at_i')
    refine ⟨at_i, .inr ⟨abbreviates, fun same => ?_, others⟩⟩
    exact none found (List.mem_of_getElem? at_i) (same ▸ List.prefix_refl _)
  · rintro ⟨at_i, same | ⟨abbreviates, -, others⟩⟩
    · exact absurd (same ▸ List.prefix_refl _) (none cmd (List.mem_of_getElem? at_i))
    · exact ⟨⟨⟨cmd, at_i, abbreviates⟩, others⟩, at_i⟩

theorem firstStart_or : (∃ i cmd, FirstStart pCmds token i cmd) ∨
    ∀ cmd ∈ pCmds, ¬ignoringCase cmd.name.toList <+: ignoringCase token := by
  cases search : pCmds.findIdx? fun cmd => strncasecmp cmd.name.toList token cmd.name.length with
  | some i => exact .inl ⟨i, (full_match_iff pCmds token i).mp search⟩
  | none =>
    refine .inr fun cmd mem starts => ?_
    have fails := List.findIdx?_eq_none_iff.mp search cmd mem
    exact Bool.false_ne_true (fails.symm.trans ((strncasecmp_left _ _).mpr starts))

variable {pCmds token}

theorem Names.abbreviates {i : ℕ} {cmd : TinycliCmd W} (names : Names pCmds token i cmd) :
    ignoringCase token <+: ignoringCase cmd.name.toList := by
  rcases names with ⟨-, same | ⟨abbreviates, -⟩⟩
  · exact same ▸ List.prefix_refl _
  · exact abbreviates

/-- A token that starts with a name and is resolved to it is the name. -/
theorem Names.same {i : ℕ} {cmd : TinycliCmd W} (names : Names pCmds token i cmd)
    (starts : ignoringCase cmd.name.toList <+: ignoringCase token) :
    ignoringCase token = ignoringCase cmd.name.toList :=
  eq_of_prefixes names.abbreviates starts

/-- The name of one command names no other one. -/
theorem Names.unique {i j : ℕ} {cmd other : TinycliCmd W} (names : Names pCmds token j other)
    (at_i : pCmds[i]? = some cmd) (same : ignoringCase token = ignoringCase cmd.name.toList)
    (alone : ∀ j other, pCmds[j]? = some other → j ≠ i →
      ignoringCase token ≠ ignoringCase other.name.toList) : j = i ∧ other = cmd := by
  obtain ⟨at_j, how⟩ := names
  have place : j = i := by
    by_contra ne
    rcases how with same' | ⟨-, -, others⟩
    · exact alone j other at_j ne same'
    · exact others i cmd at_i (Ne.symm ne) (same ▸ List.prefix_refl _)
  subst place
  exact ⟨rfl, Option.some.inj (at_j.symm.trans at_i)⟩

theorem resolved_of_named
    (named : ∀ i cmd, namedCmd pCmds token = some (i, cmd) ↔ Names pCmds token i cmd) :
    Resolved pCmds token := by
  refine ⟨named, fun none => ?_⟩
  by_contra some
  obtain ⟨⟨i, cmd⟩, found⟩ := Option.ne_none_iff_exists'.mp some
  have names := (named i cmd).mp found
  exact none cmd (List.mem_of_getElem? names.1) names.abbreviates

variable (pCmds token)

/-- A token is resolved to what it names just when it starts with no other name. -/
theorem resolved_iff : Resolved pCmds token ↔ StartsWithNone pCmds token := by
  constructor
  · intro resolved i cmd first
    have found := namedCmd_of_firstStart pCmds token first
    have names := (resolved.named i cmd).mp found
    refine ⟨names.same first.2.1, fun j other at_j ne same => ?_⟩
    have found' := (resolved.named j other).mpr ⟨at_j, .inl same⟩
    rw [found] at found'
    cases found'
    exact ne rfl
  · intro condition
    apply resolved_of_named
    rcases firstStart_or pCmds token with ⟨i, cmd, first⟩ | none
    · intro j other
      obtain ⟨same, alone⟩ := condition i cmd first
      rw [namedCmd_of_firstStart pCmds token first]
      constructor
      · intro found
        cases found
        exact ⟨first.1, .inl same⟩
      · intro names
        obtain ⟨rfl, rfl⟩ := names.unique first.1 same alone
        rfl
    · exact namedCmd_of_no_start pCmds token none

end

/-- What is no command resets the board: its name starts with `RESET`. -/
theorem resetter_resolved : ¬Resolved (toplevelCmds bareCli idleLeaf) "resetter".toList := by
  intro resolved
  have unknown : ∀ cmd ∈ toplevelCmds bareCli idleLeaf,
      ¬ignoringCase "resetter".toList <+: ignoringCase cmd.name.toList := by decide +kernel
  have found : (namedCmd (toplevelCmds bareCli idleLeaf) "resetter".toList).isSome = true := by
    decide +kernel
  rw [resolved.rejected unknown] at found
  cases found

end Hss
