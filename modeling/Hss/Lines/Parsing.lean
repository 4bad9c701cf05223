import Hss.Lines.Bounds

/-! The parsing of a line: `strtok_r` goes on after a line of too many tokens, and with no NUL byte ahead
it runs over the end of the buffer. -/

namespace Hss

/-- What `strtok_r` and the loop around it leave of a buffer that has a NUL byte at `i` or after it: the
NUL bytes. -/
theorem strtokScan_ok {buffer : LineBuffer} {i left : ℕ} (terminated : buffer.Terminated i)
    (enough : hssUartHelperMaxGetline ≤ i + left) :
    ∃ result j, strtokScan buffer i left = .ok (result, j) ∧ result.Terminated j ∧
      ∀ k, buffer k = 0 → result k = 0 := by
  induction left generalizing i with
  | zero =>
    obtain ⟨k, above, -⟩ := terminated
    exact absurd k.isLt (by omega)
  | succ left ih =>
    obtain ⟨k, above, nul⟩ := terminated
    obtain ⟨j, place⟩ := LineBuffer.exists_place (i := (i : ℤ)) (Int.natCast_nonneg _)
      (Int.ofNat_lt.mpr (by have := k.isLt; omega))
    have same : j.val = i := Int.ofNat_inj.mp place
    rw [strtokScan, ← place, LineBuffer.load_inside, ok_bind]
    by_cases stop : buffer j = 0
    · rw [if_pos stop]
      exact ⟨buffer, i, rfl, ⟨k, above, nul⟩, fun _ nul => nul⟩
    rw [if_neg stop]
    have after : i + 1 ≤ k.val := by
      have ne : k ≠ j := fun eq => stop (eq ▸ nul)
      have : k.val ≠ j.val := fun eq => ne (Fin.ext eq)
      omega
    by_cases delimiter : buffer j = 0x0A ∨ buffer j = 0x20
    · rw [if_pos delimiter, LineBuffer.store_inside]
      have keeps : ∀ k, buffer k = 0 → Function.update buffer j 0 k = 0 := by
        intro k nul
        by_cases here : k = j
        · rw [here, Function.update_self]
        · rw [Function.update_of_ne here, nul]
      exact ⟨_, i + 1, rfl, ⟨k, after, keeps k nul⟩, keeps⟩
    · rw [if_neg delimiter]
      exact ih ⟨k, after, nul⟩ (by omega)

/-- A scan goes forward. -/
theorem strtokScan_moves {buffer result : LineBuffer} {i j left : ℕ}
    (scanned : strtokScan buffer i left = .ok (result, j)) :
    i ≤ j ∧ (buffer.load i ≠ .ok 0 → i < j) := by
  induction left generalizing i with
  | zero => cases scanned
  | succ left ih =>
    rw [strtokScan] at scanned
    obtain ⟨byte, read, scanned⟩ := bind_eq_ok.mp scanned
    split at scanned
    · next stop =>
      cases scanned
      exact ⟨le_refl _, fun other => absurd (stop ▸ read) other⟩
    · split at scanned
      · obtain ⟨_, -, scanned⟩ := bind_eq_ok.mp scanned
        cases scanned
        exact ⟨by omega, fun _ => by omega⟩
      · have forward := (ih scanned).1
        exact ⟨by omega, fun _ => by omega⟩

/-- Without a NUL byte from its start on, a scan ends at a delimiter, if it ends. -/
theorem strtokScan_unterminated {buffer result : LineBuffer} {i j left : ℕ}
    (unterminated : ¬buffer.Terminated i) (scanned : strtokScan buffer i left = .ok (result, j)) :
    i < j ∧ ¬result.Terminated j := by
  induction left generalizing i with
  | zero => cases scanned
  | succ left ih =>
    have later : ¬buffer.Terminated (i + 1) := fun more => unterminated (more.mono (by omega))
    rw [strtokScan] at scanned
    obtain ⟨byte, read, scanned⟩ := bind_eq_ok.mp scanned
    obtain ⟨place, same, rfl⟩ := LineBuffer.load_eq_ok read
    split at scanned
    · next stop => exact absurd ⟨place, same.ge, stop⟩ unterminated
    · split at scanned
      · obtain ⟨changed, stored, scanned⟩ := bind_eq_ok.mp scanned
        rw [← same, LineBuffer.store_inside] at stored
        cases stored
        cases scanned
        refine ⟨by omega, fun more => later ?_⟩
        obtain ⟨k, above, nul⟩ := more
        rw [Function.update_of_ne (fun eq => by rw [eq] at above; omega)] at nul
        exact ⟨k, above, nul⟩
      · obtain ⟨forward, unterminated'⟩ := ih later scanned
        exact ⟨by omega, unterminated'⟩

theorem load_of_terminated {buffer : LineBuffer} {i : ℕ} (terminated : buffer.Terminated i) :
    ∃ j : Fin hssUartHelperMaxGetline, j.val = i ∧ buffer.load i = .ok (buffer j) := by
  obtain ⟨k, above, -⟩ := terminated
  have inside : i < hssUartHelperMaxGetline := by have := k.isLt; omega
  exact ⟨⟨i, inside⟩, rfl, LineBuffer.load_inside ⟨i, inside⟩⟩

/-- A call of `strtok_r` with a NUL byte ahead finds no token, or one that ends further on. -/
theorem strtokR_ok {buffer : LineBuffer} {str saveptr : Option ℕ} {i : ℕ}
    (start : saveptr.or str = some i) (terminated : buffer.Terminated i) :
    strtokR buffer str saveptr = .ok (none, buffer, none) ∨
      ∃ result j, strtokR buffer str saveptr = .ok (some i, result, some j) ∧ i < j ∧
        result.Terminated j ∧ ∀ k, buffer k = 0 → result k = 0 := by
  obtain ⟨place, same, read⟩ := load_of_terminated terminated
  simp only [strtokR, start, read, ok_bind]
  by_cases stop : buffer place = 0
  · rw [if_pos stop]
    exact .inl rfl
  · rw [if_neg stop]
    have enough : hssUartHelperMaxGetline ≤ i + (hssUartHelperMaxGetline - i) := by omega
    obtain ⟨result, j, scanned, terminated', keeps⟩ := strtokScan_ok terminated enough
    have forward : i < j := by
      refine (strtokScan_moves scanned).2 fun nul => ?_
      rw [read] at nul
      exact stop (Except.ok.inj nul)
    rw [scanned]
    exact .inr ⟨result, j, rfl, forward, terminated', keeps⟩

/-- A call without a NUL byte ahead finds a token inside the buffer, if it ends, and none is ahead of the
next one. -/
theorem strtokR_unterminated {buffer result : LineBuffer} {str saveptr saveptr' pToken : Option ℕ}
    {i : ℕ} (start : saveptr.or str = some i) (unterminated : ¬buffer.Terminated i)
    (called : strtokR buffer str saveptr = .ok (pToken, result, saveptr')) :
    pToken = some i ∧ i < hssUartHelperMaxGetline ∧
      ∃ j, saveptr' = some j ∧ i < j ∧ ¬result.Terminated j := by
  simp only [strtokR, start] at called
  obtain ⟨byte, read, called⟩ := bind_eq_ok.mp called
  obtain ⟨place, same, rfl⟩ := LineBuffer.load_eq_ok read
  split at called
  · next stop => exact absurd ⟨place, same.ge, stop⟩ unterminated
  · obtain ⟨⟨result', j⟩, scanned, called⟩ := bind_eq_ok.mp called
    cases called
    obtain ⟨forward, unterminated'⟩ := strtokScan_unterminated unterminated scanned
    exact ⟨rfl, by have := place.isLt; omega, j, rfl, forward, unterminated'⟩

theorem parseLoop_none (buffer : LineBuffer) (saveptr : Option ℕ) (room : ℕ) :
    parseLoop none buffer saveptr room = .ok ([], buffer, saveptr) := by
  cases room with
  | zero => rfl
  | succ room => rfl

theorem parseLoop_ok {buffer : LineBuffer} {i : ℕ} (terminated : buffer.Terminated i) (token : ℕ)
    (room : ℕ) : ∃ tokens result saveptr,
      parseLoop (some token) buffer (some i) room = .ok (tokens, result, saveptr) ∧
        (∀ k, buffer k = 0 → result k = 0) ∧ ∀ j ∈ saveptr, i + room ≤ j := by
  induction room generalizing buffer i token with
  | zero =>
    refine ⟨[], buffer, some i, rfl, fun _ nul => nul, fun j mem => ?_⟩
    cases mem
    exact le_refl _
  | succ room ih =>
    have start : (some i).or none = some i := rfl
    rcases strtokR_ok start terminated with none | ⟨changed, j, more, forward, terminated', keeps⟩
    · simp only [parseLoop, none, ok_bind, parseLoop_none]
      exact ⟨[token], buffer, Option.none, rfl, fun _ nul => nul, fun j mem => by cases mem⟩
    · obtain ⟨tokens, result, saveptr, rest, keeps', far⟩ := ih terminated' i
      simp only [parseLoop, more, ok_bind, rest]
      refine ⟨token :: tokens, result, saveptr, rfl, fun k nul => keeps' k (keeps k nul),
        fun l mem => ?_⟩
      have beyond := far l mem
      omega

theorem parseLoop_unterminated {buffer : LineBuffer} {i room : ℕ}
    (unterminated : ¬buffer.Terminated i) (positive : 0 < room)
    (far : hssUartHelperMaxGetline < i + room) (token : ℕ)
    (result : List ℕ × LineBuffer × Option ℕ) :
    parseLoop (some token) buffer (some i) room ≠ .ok result := by
  induction room generalizing buffer i token result with
  | zero => omega
  | succ room ih =>
    intro parsed
    rw [parseLoop] at parsed
    obtain ⟨⟨pToken, changed, saveptr⟩, called, parsed⟩ := bind_eq_ok.mp parsed
    have start : (some i).or none = some i := rfl
    obtain ⟨rfl, inside, j, rfl, forward, unterminated'⟩ :=
      strtokR_unterminated start unterminated called
    obtain ⟨rest, parsed, -⟩ := bind_eq_ok.mp parsed
    exact ih unterminated' (by omega) (by omega) i rest parsed

namespace LineEditor

variable {s : LineEditor}

/-- The place where `strtok_r` goes on, after a line of more tokens than there is room for. -/
def SavedFar (s : LineEditor) : Prop := ∀ i ∈ s.strtokString, mMaxNumTokens < i

theorem parseIntoTokens_ok
    (terminated : s.myBuffer.Terminated (s.strtokString.getD 0)) :
    ∃ count t, s.parseIntoTokens = .ok (count, t) ∧ t.SavedFar ∧
      (∀ k, s.myBuffer k = 0 → t.myBuffer k = 0) ∧ t.myPrevBuffer = s.myPrevBuffer ∧
      t.readStringLen = s.readStringLen ∧ t.tinycliService = s.tinycliService := by
  have start : s.strtokString.or (some 0) = some (s.strtokString.getD 0) := by
    cases s.strtokString <;> rfl
  rw [parseIntoTokens, hssTinyCliParseIntoTokens]
  rcases strtokR_ok start terminated with none | ⟨changed, j, more, forward, terminated', keeps⟩
  · rw [none]
    simp only [ok_bind, parseLoop_none]
    refine ⟨0, _, rfl, ?_, fun _ nul => nul, rfl, rfl, rfl⟩
    intro j mem
    cases mem
  · obtain ⟨tokens, result, saveptr, rest, keeps', far⟩ :=
      parseLoop_ok terminated' (s.strtokString.getD 0) mMaxNumTokens
    rw [more]
    simp only [ok_bind, rest]
    refine ⟨tokens.length, _, rfl, fun l mem => ?_, fun k nul => keeps' k (keeps k nul), rfl, rfl,
      rfl⟩
    have beyond := far l mem
    omega

/-- Where `strtok_r` goes on without a NUL byte ahead, the line ends before the room for tokens does. -/
theorem parseIntoTokens_unterminated (line : s.myBuffer.Terminated 0) (saved : s.SavedFar)
    (unterminated : ¬s.myBuffer.Terminated (s.strtokString.getD 0)) (result : ℕ × LineEditor) :
    s.parseIntoTokens ≠ .ok result := by
  intro parsed
  cases stale : s.strtokString with
  | none =>
    rw [stale] at unterminated
    exact unterminated line
  | some i =>
    rw [stale] at unterminated
    have far := saved i stale
    rw [parseIntoTokens, stale] at parsed
    obtain ⟨tokens, parsed, -⟩ := bind_eq_ok.mp parsed
    obtain ⟨⟨pToken, changed, saveptr⟩, called, parsed⟩ := bind_eq_ok.mp parsed
    have start : (some i).or (some 0) = some i := rfl
    obtain ⟨rfl, inside, j, rfl, forward, unterminated'⟩ :=
      strtokR_unterminated start unterminated called
    have size : hssUartHelperMaxGetline < j + mMaxNumTokens := by
      have room : mMaxNumTokens = 40 := rfl
      have length : hssUartHelperMaxGetline = 80 := rfl
      omega
    exact parseLoop_unterminated unterminated' (by decide) size i tokens parsed

end LineEditor

end Hss
