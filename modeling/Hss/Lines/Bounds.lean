import Hss.Lines.Editor

/-! The bounds of the line editor: what keeps its buffers terminated, and the runs in which they are. -/

namespace Hss

namespace LineBuffer

variable {buffer : LineBuffer}

/-- The byte at this place is the only NUL byte. -/
def OnlyNul (buffer : LineBuffer) (i : ℤ) : Prop :=
  ∃ j : Fin hssUartHelperMaxGetline, (j.val : ℤ) = i ∧ buffer j = 0 ∧ ∀ k, buffer k = 0 → k = j

/-! ### Accesses -/

theorem load_inside (i : Fin hssUartHelperMaxGetline) : buffer.load i.val = .ok (buffer i) := by
  have inside : 0 ≤ (i.val : ℤ) ∧ (i.val : ℤ).toNat < hssUartHelperMaxGetline :=
    ⟨Int.natCast_nonneg _, by simp⟩
  rw [load, dif_pos inside]
  simp

theorem store_inside (i : Fin hssUartHelperMaxGetline) (byte : BitVec 8) :
    buffer.store i.val byte = .ok (Function.update buffer i byte) := by
  have inside : 0 ≤ (i.val : ℤ) ∧ (i.val : ℤ).toNat < hssUartHelperMaxGetline :=
    ⟨Int.natCast_nonneg _, by simp⟩
  rw [store, dif_pos inside]
  simp

/-- A number from zero on and below the size is a place of the buffer. -/
theorem exists_place {i : ℤ} (low : 0 ≤ i) (high : i < hssUartHelperMaxGetline) :
    ∃ j : Fin hssUartHelperMaxGetline, (j.val : ℤ) = i :=
  ⟨⟨i.toNat, by omega⟩, Int.toNat_of_nonneg low⟩

theorem load_eq_ok {i : ℕ} {byte : BitVec 8} (read : buffer.load i = .ok byte) :
    ∃ j : Fin hssUartHelperMaxGetline, j.val = i ∧ buffer j = byte := by
  unfold load at read
  split at read
  · next inside =>
    cases read
    exact ⟨⟨i, by simpa using inside.2⟩, rfl, rfl⟩
  · cases read

theorem strlen_of_terminated (terminated : buffer.Terminated 0) :
    ∃ n : Fin hssUartHelperMaxGetline, buffer.strlen = .ok n.val ∧ buffer n = 0 := by
  rw [strlen]
  cases search : (List.ofFn buffer).findIdx? (· = 0) with
  | none =>
    obtain ⟨i, -, nul⟩ := terminated
    have none := List.findIdx?_eq_none_iff.mp search (buffer i) (List.mem_ofFn.mpr ⟨i, rfl⟩)
    simp [nul] at none
  | some n =>
    obtain ⟨inside, nul, -⟩ := List.findIdx?_eq_some_iff_getElem.mp search
    rw [List.length_ofFn] at inside
    rw [List.getElem_ofFn] at nul
    exact ⟨⟨n, inside⟩, rfl, of_decide_eq_true nul⟩

theorem memcpy_inside (dest source : LineBuffer) (n : ℕ) (inside : n ≤ hssUartHelperMaxGetline) :
    dest.memcpy source n = .ok fun i => if i.val < n then source i else dest i := by
  have bound : n ≤ 80 := inside
  have small : (n : ℤ) % 2 ^ 64 = n := by omega
  rw [memcpy, small, if_pos (Int.ofNat_le.mpr inside)]
  simp only [Int.ofNat_lt]

/-! ### NUL bytes -/

theorem Terminated.mono {i j : ℕ} (terminated : buffer.Terminated j) (le : i ≤ j) :
    buffer.Terminated i := by
  obtain ⟨k, above, nul⟩ := terminated
  exact ⟨k, le.trans above, nul⟩

theorem terminated_of_nul {i : Fin hssUartHelperMaxGetline} (nul : buffer i = 0) :
    buffer.Terminated 0 := ⟨i, Nat.zero_le _, nul⟩

theorem terminated_update_nul (buffer : LineBuffer) (i : Fin hssUartHelperMaxGetline) :
    LineBuffer.Terminated (Function.update buffer i 0) 0 :=
  terminated_of_nul (Function.update_self i 0 buffer)

/-- A byte that is written leaves the buffer without a NUL byte only over the last one. -/
theorem terminated_update_iff (terminated : buffer.Terminated 0) (i : Fin hssUartHelperMaxGetline)
    {byte : BitVec 8} (text : byte ≠ 0) :
    LineBuffer.Terminated (Function.update buffer i byte) 0 ↔ ¬buffer.OnlyNul i.val := by
  constructor
  · rintro ⟨k, -, nul⟩ ⟨j, same, -, only⟩
    obtain rfl : j = i := Fin.ext (by omega)
    by_cases here : k = j
    · subst here
      rw [Function.update_self] at nul
      exact text nul
    · rw [Function.update_of_ne here] at nul
      exact here (only k nul)
  · intro other
    by_contra unterminated
    obtain ⟨k, -, nul⟩ := terminated
    have all : ∀ k, buffer k = 0 → k = i := by
      intro k nul
      by_contra ne
      exact unterminated (terminated_of_nul (i := k) (by rw [Function.update_of_ne ne, nul]))
    have same := all k nul
    exact other ⟨i, rfl, same ▸ nul, all⟩

end LineBuffer

namespace LineEditor

/-! ### Bounds -/

/-- What is to hold where `tinycli_readline_handler` is entered. -/
structure InBounds (s : LineEditor) : Prop where
  low : 0 ≤ s.readStringLen
  high : s.readStringLen ≤ bufferLen
  line : s.myBuffer.Terminated 0
  previous : s.myPrevBuffer.Terminated 0

/-- A run stays in bounds: no event accesses a buffer outside, and after all of them the handler is
entered in bounds. -/
def Bounded (cfg : CliConfig) (events : List TinycliEvent) : Prop :=
  ∀ before rest, events = before ++ rest → ∃ s, after cfg before = .ok s ∧
    (s.tinycliService.state = .readline → ∀ input a, entered cfg input s = .ok a → a.InBounds)

/-- The control characters, and the letters of escape sequences. -/
def controls : Bytes := [0x0D, 0x0A, 0x7F, 0x08, 0x01, 0x05, 0x04, 0x03, 0x1B]
def escapeLetters : Bytes := [0x5B, 0x41, 0x42, 0x43, 0x44]

/-- The byte becomes part of the line. -/
def IsText (s : LineEditor) (byte : BitVec 8) : Prop :=
  byte ∉ controls ∧ (s.escapeActive = true → byte ∉ escapeLetters)

/-- The byte does not overwrite the only NUL byte of the line: neither a right arrow that blanks the
next place, nor text at this place. -/
def KeepsNul (s : LineEditor) (byte : BitVec 8) : Prop :=
  s.readStringLen < bufferLen →
    ¬(s.escapeActive = true ∧ byte = 0x43 ∧ s.myBuffer.OnlyNul (s.readStringLen + 1)) ∧
    ¬(s.IsText byte ∧ byte ≠ 0 ∧ s.myBuffer.OnlyNul s.readStringLen)

/-- The condition on an event: a byte keeps the line terminated, and a line that is parsed has a NUL byte
where `strtok_r` goes on, or after it. -/
def Meets (cfg : CliConfig) (s : LineEditor) : TinycliEvent → Prop
  | .run input => ∀ a, entered cfg input s = .ok a → match s.tinycliService.state with
    | .readline => ∀ byte ∈ input.received, a.KeepsNul byte
    | .parseline => 0 < a.readStringLen → a.myBuffer.Terminated (a.strtokString.getD 0)
    | _ => True
  | .surrenderUart => True

/-! ### Keys -/

variable {s : LineEditor}

theorem InBounds.hasRoom_iff (bounds : s.InBounds) : s.hasRoom ↔ s.readStringLen < bufferLen := by
  have low := bounds.low
  have high := bounds.high
  rw [hasRoom]
  simp only [bufferLen, hssUartHelperMaxGetline] at *
  omega

/-- What a byte that is received makes of a state in bounds, with the condition under which the line has
a NUL byte afterwards. -/
structure Left (s t : LineEditor) (condition : Prop) : Prop where
  low : -1 ≤ t.readStringLen
  high : t.readStringLen ≤ bufferLen
  line : t.myBuffer.Terminated 0 ↔ condition
  previous : t.myPrevBuffer.Terminated 0
  service : t.tinycliService = s.tinycliService ∧ 0 ≤ t.readStringLen ∨
    t.tinycliService = { s.tinycliService with state := .parseline } ∧ t.myBuffer.Terminated 0
  strtok : t.strtokString = s.strtokString

theorem Left.stays {t : LineEditor} {condition : Prop} (low : 0 ≤ t.readStringLen)
    (high : t.readStringLen ≤ bufferLen) (line : t.myBuffer.Terminated 0 ↔ condition)
    (previous : t.myPrevBuffer.Terminated 0) (service : t.tinycliService = s.tinycliService)
    (strtok : t.strtokString = s.strtokString) : s.Left t condition :=
  ⟨(by decide : (-1 : ℤ) ≤ 0).trans low, high, line, previous, .inl ⟨service, low⟩, strtok⟩

theorem InBounds.left (bounds : s.InBounds) : s.Left s True :=
  .stays bounds.low bounds.high (iff_of_true bounds.line trivial) bounds.previous rfl rfl

theorem bufferLen_eq : bufferLen = 79 := rfl

theorem length_le (n : Fin hssUartHelperMaxGetline) : (n.val : ℤ) ≤ bufferLen := by
  have inside : n.val < 80 := n.isLt
  rw [bufferLen_eq]
  omega

theorem store_first (buffer : LineBuffer) : buffer.store 0 0 = .ok (Function.update buffer 0 0) :=
  LineBuffer.store_inside 0 0

theorem upArrow_spec (bounds : s.InBounds) : ∃ t, s.upArrow = .ok t ∧ s.Left t True := by
  obtain ⟨n, length, nul⟩ := LineBuffer.strlen_of_terminated bounds.line
  have low : (0 : ℤ) ≤ n.val := Int.natCast_nonneg _
  rw [upArrow, length]
  simp only [ok_bind]
  by_cases empty : n.val = 0
  · rw [if_neg (not_not.mpr empty), store_first]
    refine ⟨_, rfl, ?_⟩
    exact .stays low (length_le n) (iff_of_true (LineBuffer.terminated_update_nul _ 0) trivial)
      bounds.previous rfl rfl
  · rw [if_pos empty, LineBuffer.memcpy_inside _ _ _ n.isLt.le]
    -- the copy ends before the NUL byte
    have terminated : LineBuffer.Terminated
        (fun i => if i.val < n.val then s.myPrevBuffer i else s.myBuffer i) 0 :=
      LineBuffer.terminated_of_nul (i := n) (by rw [if_neg (lt_irrefl n.val)]; exact nul)
    obtain ⟨m, shown, -⟩ := LineBuffer.strlen_of_terminated terminated
    simp only [ok_bind, shown]
    refine ⟨_, rfl, ?_⟩
    exact .stays low (length_le n) (iff_of_true terminated trivial) bounds.previous rfl rfl

/-- A store of text at a place, and the condition under which it leaves a NUL byte. -/
theorem store_text (bounds : s.InBounds) {i : ℤ} (low : 0 ≤ i) (high : i ≤ bufferLen)
    (byte : BitVec 8) : ∃ buffer, s.myBuffer.store i byte = .ok buffer ∧
      (buffer.Terminated 0 ↔ byte = 0 ∨ ¬s.myBuffer.OnlyNul i) := by
  rw [bufferLen_eq] at high
  obtain ⟨j, rfl⟩ := LineBuffer.exists_place low (show i < 80 by omega)
  refine ⟨_, LineBuffer.store_inside j byte, ?_⟩
  by_cases nul : byte = 0
  · subst nul
    exact iff_of_true (LineBuffer.terminated_update_nul _ j) (.inl rfl)
  · rw [LineBuffer.terminated_update_iff bounds.line j nul, or_iff_right nul]

theorem rightArrow_spec (bounds : s.InBounds) : ∃ t, s.rightArrow = .ok t ∧
    s.Left t (s.readStringLen < bufferLen → ¬s.myBuffer.OnlyNul (s.readStringLen + 1)) := by
  have low := bounds.low
  have room : { s with escapeActive := false }.hasRoom ↔ s.readStringLen < bufferLen :=
    bounds.hasRoom_iff
  rw [rightArrow]
  by_cases full : s.readStringLen < bufferLen
  · obtain ⟨j, place⟩ := LineBuffer.exists_place (i := s.readStringLen + 1) (by omega)
      (by rw [bufferLen_eq] at full; show _ < (80 : ℤ); omega)
    have high := length_le j
    simp only [if_pos (room.mpr full), ← place, LineBuffer.load_inside, ok_bind]
    by_cases nul : s.myBuffer j = 0
    · rw [if_pos nul, LineBuffer.store_inside]
      refine ⟨_, rfl, ?_⟩
      refine .stays (Int.natCast_nonneg _) high ?_ bounds.previous rfl rfl
      rw [LineBuffer.terminated_update_iff bounds.line j (by decide)]
      exact ⟨fun other _ => other, fun other => other full⟩
    · rw [if_neg nul]
      refine ⟨_, rfl, ?_⟩
      refine .stays (Int.natCast_nonneg _) high ?_ bounds.previous rfl rfl
      refine iff_of_true bounds.line fun _ => ?_
      rintro ⟨k, same, nul', -⟩
      obtain rfl : k = j := Fin.ext (by omega)
      exact nul nul'
  · rw [if_neg (fun more => full (room.mp more))]
    refine ⟨_, rfl, ?_⟩
    exact .stays low bounds.high (iff_of_true bounds.line fun more => absurd more full)
      bounds.previous rfl rfl

theorem leftArrow_spec (bounds : s.InBounds) : s.Left s.leftArrow True := by
  have low := bounds.low
  have high := bounds.high
  have shorter : 0 ≤ s.leftArrow.readStringLen ∧ s.leftArrow.readStringLen ≤ bufferLen := by
    simp only [leftArrow]
    split <;> omega
  exact .stays shorter.1 shorter.2 (iff_of_true bounds.line trivial) bounds.previous rfl rfl

theorem terminate_spec (bounds : s.InBounds) : ∃ t, s.terminate = .ok t ∧ t.InBounds ∧
    t.readStringLen = s.readStringLen ∧ t.tinycliService = s.tinycliService ∧
    t.strtokString = s.strtokString ∧
    (s.readStringLen < bufferLen → ∀ j : Fin hssUartHelperMaxGetline,
      (j.val : ℤ) = s.readStringLen → t.myBuffer j = 0) := by
  rw [terminate]
  by_cases room : s.readStringLen < bufferLen
  · obtain ⟨j, place⟩ := LineBuffer.exists_place bounds.low
      (by rw [bufferLen_eq] at room; show _ < (80 : ℤ); omega)
    rw [if_pos (bounds.hasRoom_iff.mpr room), ← place, LineBuffer.store_inside]
    refine ⟨_, rfl, ⟨Int.natCast_nonneg _, length_le j, LineBuffer.terminated_update_nul _ j,
      bounds.previous⟩, rfl, rfl, rfl, fun _ k same => ?_⟩
    obtain rfl : k = j := Fin.ext (by omega)
    exact Function.update_self k 0 s.myBuffer
  · rw [if_neg (fun more => room (bounds.hasRoom_iff.mp more))]
    exact ⟨s, rfl, bounds, rfl, rfl, rfl, fun more => absurd more room⟩

theorem enter_spec (bounds : s.InBounds) : ∃ t, s.enter = .ok t ∧ s.Left t True := by
  obtain ⟨u, terminated, bounds', length, service, strtok, nul⟩ := terminate_spec bounds
  have low := bounds'.low
  have high := bounds'.high
  rw [enter, terminated, ok_bind]
  by_cases empty : u.readStringLen = 0
  · obtain ⟨n, previous, nul⟩ := LineBuffer.strlen_of_terminated bounds'.previous
    have size : n.val + 1 ≤ hssUartHelperMaxGetline := n.isLt
    have copied := LineBuffer.memcpy_inside u.myBuffer u.myPrevBuffer (n.val + 1) size
    rw [Int.natCast_add, Int.natCast_one] at copied
    rw [if_neg (not_not.mpr empty), previous]
    simp only [ok_bind, copied]
    refine ⟨_, rfl, ?_⟩
    have line : LineBuffer.Terminated
        (fun i => if i.val < n.val + 1 then u.myPrevBuffer i else u.myBuffer i) 0 :=
      LineBuffer.terminated_of_nul (i := n) (by rw [if_pos (Nat.lt_succ_self _)]; exact nul)
    refine ⟨?_, length_le n, iff_of_true line trivial, bounds'.previous, .inr ⟨?_, line⟩, strtok⟩
    · exact (by decide : (-1 : ℤ) ≤ 0).trans (Int.natCast_nonneg _)
    · simp only [goto, service]
  · obtain ⟨n, place⟩ := LineBuffer.exists_place low
      (by rw [bufferLen_eq] at high; show _ < (80 : ℤ); omega)
    have size : n.val + 1 ≤ hssUartHelperMaxGetline := n.isLt
    have copied := LineBuffer.memcpy_inside u.myPrevBuffer u.myBuffer (n.val + 1) size
    rw [Int.natCast_add, Int.natCast_one, place] at copied
    rw [if_pos empty]
    simp only [ok_bind, copied]
    refine ⟨_, rfl, ?_⟩
    refine ⟨?_, high, iff_of_true bounds'.line trivial, ?_, .inr ⟨?_, bounds'.line⟩, strtok⟩
    · show -1 ≤ u.readStringLen
      omega
    · -- the copy has the NUL byte: at its end, or, for a full line, wherever the line has it
      by_cases room : s.readStringLen < bufferLen
      · refine LineBuffer.terminated_of_nul (i := n) ?_
        show (if n.val < n.val + 1 then u.myBuffer n else u.myPrevBuffer n) = 0
        rw [if_pos (Nat.lt_succ_self _)]
        exact nul room n (by omega)
      · obtain ⟨k, -, nul'⟩ := bounds'.line
        refine LineBuffer.terminated_of_nul (i := k) ?_
        show (if k.val < n.val + 1 then u.myBuffer k else u.myPrevBuffer k) = 0
        have inside := length_le k
        rw [if_pos (by omega)]
        exact nul'
    · simp only [goto, service]

theorem delete_spec (bounds : s.InBounds) : ∃ t, s.delete = .ok t ∧ s.Left t True := by
  have low := bounds.low
  have high := bounds.high
  rw [delete]
  by_cases empty : s.readStringLen = 0
  · rw [if_neg (not_not.mpr empty)]
    exact ⟨s, rfl, bounds.left⟩
  · obtain ⟨buffer, stored, terminated⟩ := store_text bounds (i := s.readStringLen - 1) (by omega)
      (by omega) 0
    rw [if_pos empty]
    simp only [stored, ok_bind]
    refine ⟨_, rfl, ?_⟩
    refine .stays ?_ ?_ (iff_of_true (terminated.mpr (.inl rfl)) trivial) bounds.previous rfl rfl
    · show 0 ≤ s.readStringLen - 1
      omega
    · show s.readStringLen - 1 ≤ bufferLen
      omega

theorem toEnd_spec (bounds : s.InBounds) : ∃ t, s.toEnd = .ok t ∧ s.Left t True := by
  obtain ⟨n, length, -⟩ := LineBuffer.strlen_of_terminated bounds.line
  have low : (0 : ℤ) ≤ n.val := Int.natCast_nonneg _
  rw [toEnd, length]
  exact ⟨_, rfl, .stays low (length_le n) (iff_of_true bounds.line trivial) bounds.previous rfl rfl⟩

theorem interrupt_spec (bounds : s.InBounds) : ∃ t, s.interrupt = .ok t ∧ s.Left t True := by
  rw [interrupt, store_first]
  have high : (-1 : ℤ) ≤ bufferLen := by decide
  have line := s.myBuffer.terminated_update_nul 0
  exact ⟨_, rfl, le_refl _, high, iff_of_true line trivial, bounds.previous, .inr ⟨rfl, line⟩, rfl⟩

theorem insert_spec (bounds : s.InBounds) (byte : BitVec 8) : ∃ t, s.insert byte = .ok t ∧
    s.Left t (s.readStringLen < bufferLen → byte = 0 ∨ ¬s.myBuffer.OnlyNul s.readStringLen) := by
  have low := bounds.low
  rw [insert]
  by_cases room : s.readStringLen < bufferLen
  · obtain ⟨buffer, stored, terminated⟩ := store_text bounds low bounds.high byte
    rw [if_pos (bounds.hasRoom_iff.mpr room), stored]
    refine ⟨_, rfl, ?_⟩
    refine .stays ?_ ?_ ?_ bounds.previous rfl rfl
    · show 0 ≤ s.readStringLen + 1
      omega
    · show s.readStringLen + 1 ≤ bufferLen
      omega
    · exact terminated.trans ⟨fun keeps _ => keeps, fun keeps => keeps room⟩
  · rw [if_neg (fun more => room (bounds.hasRoom_iff.mp more))]
    exact ⟨s, rfl, .stays low bounds.high (iff_of_true bounds.line fun more => absurd more room)
      bounds.previous rfl rfl⟩

theorem Left.congr {t : LineEditor} {condition condition' : Prop} (left : s.Left t condition)
    (same : condition ↔ condition') : s.Left t condition' :=
  ⟨left.low, left.high, left.line.trans same, left.previous, left.service, left.strtok⟩

theorem plainKey_spec (bounds : s.InBounds) (byte : BitVec 8) : ∃ t, s.plainKey byte = .ok t ∧
    s.Left t (s.readStringLen < bufferLen →
      ¬(byte ∉ controls ∧ byte ≠ 0 ∧ s.myBuffer.OnlyNul s.readStringLen)) := by
  -- what a control character does keeps the line terminated
  have control : byte ∈ controls → ∀ {u : LineEditor}, s.Left u True →
      s.Left u (s.readStringLen < bufferLen →
        ¬(byte ∉ controls ∧ byte ≠ 0 ∧ s.myBuffer.OnlyNul s.readStringLen)) := by
    intro mem u left
    exact left.congr (iff_of_true trivial fun _ text => text.1 mem)
  unfold plainKey
  by_cases enter : byte = 0x0D ∨ byte = 0x0A
  · obtain ⟨t, done, left⟩ := enter_spec bounds
    rw [if_pos enter]
    exact ⟨t, done, control (by rcases enter with rfl | rfl <;> decide) left⟩
  rw [if_neg enter]
  by_cases delete : byte = 0x7F ∨ byte = 0x08
  · obtain ⟨t, done, left⟩ := delete_spec bounds
    rw [if_pos delete]
    exact ⟨t, done, control (by rcases delete with rfl | rfl <;> decide) left⟩
  rw [if_neg delete]
  by_cases start : byte = 0x01
  · rw [if_pos start]
    refine ⟨_, rfl, control (by subst start; decide) ?_⟩
    have high : (0 : ℤ) ≤ bufferLen := by decide
    exact .stays (le_refl 0) high (iff_of_true bounds.line trivial) bounds.previous rfl rfl
  rw [if_neg start]
  by_cases toEnd : byte = 0x05
  · obtain ⟨t, done, left⟩ := toEnd_spec bounds
    rw [if_pos toEnd]
    exact ⟨t, done, control (by subst toEnd; decide) left⟩
  rw [if_neg toEnd]
  by_cases kept : byte = 0x04 ∧ s.readStringLen ≠ 0
  · rw [if_pos kept]
    exact ⟨s, rfl, control (by rw [kept.1]; decide) bounds.left⟩
  rw [if_neg kept]
  by_cases interrupt : byte = 0x04 ∨ byte = 0x03
  · obtain ⟨t, done, left⟩ := interrupt_spec bounds
    rw [if_pos interrupt]
    exact ⟨t, done, control (by rcases interrupt with rfl | rfl <;> decide) left⟩
  rw [if_neg interrupt]
  by_cases escape : byte = 0x1B
  · rw [if_pos escape]
    refine ⟨_, rfl, control (by subst escape; decide) ?_⟩
    exact .stays bounds.low bounds.high (iff_of_true bounds.line trivial) bounds.previous rfl rfl
  rw [if_neg escape]
  obtain ⟨t, done, left⟩ := insert_spec bounds byte
  have text : byte ∉ controls := by
    simp only [controls, List.mem_cons, List.not_mem_nil, or_false]
    tauto
  refine ⟨t, done, left.congr (forall_congr' fun _ => ?_)⟩
  rw [and_iff_right text, not_and_or, ne_eq, not_not]

theorem keepsNul_of_not_text {byte : BitVec 8}
    (other : ¬(s.escapeActive = true ∧ byte = 0x43)) (control : ¬s.IsText byte) : s.KeepsNul byte :=
  fun _ => ⟨fun arrow => other ⟨arrow.1, arrow.2.1⟩, fun text => control text.1⟩

/-- A byte that is received keeps the bounds, and the line terminated just under the condition. -/
theorem key_spec (bounds : s.InBounds) (byte : BitVec 8) :
    ∃ t, s.key byte = .ok t ∧ s.Left t (s.KeepsNul byte) := by
  unfold key
  by_cases active : s.escapeActive = true
  · rw [if_pos active]
    -- in a sequence, none of its letters is text
    have sequence : byte ∈ escapeLetters → ¬s.IsText byte :=
      fun mem text => text.2 active mem
    by_cases bracket : byte = 0x5B
    · rw [if_pos bracket]
      refine ⟨s, rfl, bounds.left.congr (iff_of_true trivial ?_)⟩
      subst bracket
      exact keepsNul_of_not_text (fun arrow => absurd arrow.2 (by decide)) (sequence (by decide))
    rw [if_neg bracket]
    by_cases up : byte = 0x41
    · obtain ⟨t, done, left⟩ := upArrow_spec bounds
      rw [if_pos up]
      refine ⟨t, done, left.congr (iff_of_true trivial ?_)⟩
      subst up
      exact keepsNul_of_not_text (fun arrow => absurd arrow.2 (by decide)) (sequence (by decide))
    rw [if_neg up]
    by_cases down : byte = 0x42
    · rw [if_pos down]
      have left : s.Left { s with escapeActive := false } True :=
        .stays bounds.low bounds.high (iff_of_true bounds.line trivial) bounds.previous rfl rfl
      refine ⟨_, rfl, left.congr (iff_of_true trivial ?_)⟩
      subst down
      exact keepsNul_of_not_text (fun arrow => absurd arrow.2 (by decide)) (sequence (by decide))
    rw [if_neg down]
    by_cases right : byte = 0x43
    · obtain ⟨t, done, left⟩ := rightArrow_spec bounds
      rw [if_pos right]
      refine ⟨t, done, left.congr (forall_congr' fun _ => ?_)⟩
      have control := sequence (by subst right; decide)
      simp only [active, right, true_and]
      rw [← right]
      exact ⟨fun other => ⟨other, fun text => control text.1⟩, fun both => both.1⟩
    rw [if_neg right]
    by_cases leftward : byte = 0x44
    · rw [if_pos leftward]
      refine ⟨_, rfl, (leftArrow_spec bounds).congr (iff_of_true trivial ?_)⟩
      subst leftward
      exact keepsNul_of_not_text (fun arrow => absurd arrow.2 (by decide)) (sequence (by decide))
    rw [if_neg leftward]
    have bounds' : { s with escapeActive := false }.InBounds :=
      ⟨bounds.low, bounds.high, bounds.line, bounds.previous⟩
    obtain ⟨t, done, left⟩ := plainKey_spec bounds' byte
    have left' : s.Left t _ :=
      ⟨left.low, left.high, left.line, left.previous, left.service, left.strtok⟩
    refine ⟨t, done, left'.congr (forall_congr' fun _ => ?_)⟩
    have letter : byte ∉ escapeLetters := by
      simp only [escapeLetters, List.mem_cons, List.not_mem_nil, or_false]
      tauto
    have text : s.IsText byte ↔ byte ∉ controls := and_iff_left fun _ => letter
    rw [text]
    exact ⟨fun keeps => ⟨fun arrow => right arrow.2.1, keeps⟩, fun both => both.2⟩
  · rw [if_neg active]
    obtain ⟨t, done, left⟩ := plainKey_spec bounds byte
    refine ⟨t, done, left.congr (forall_congr' fun _ => ?_)⟩
    have text : s.IsText byte ↔ byte ∉ controls := and_iff_left fun on => absurd on active
    rw [text]
    exact ⟨fun keeps => ⟨fun arrow => active arrow.1, keeps⟩, fun both => both.2⟩

end LineEditor

end Hss
