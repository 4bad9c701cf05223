import Hss.Lines.Session
import Mathlib.Data.List.GetD

/-! `uart_getline`: the keys of a line, the line that they spell, and the string that is returned. -/

namespace Hss

/-- The loop of `uart_getline`: the count, and the buffer. -/
structure Getline where
  result : ℤ
  myBuffer : LineBuffer

namespace Getline

/-- A line that is given up. -/
def interrupt (s : Getline) : Except Halt (Bool × Getline) := do
  let myBuffer ← s.myBuffer.store 0 0
  return (true, ⟨-1, myBuffer⟩)

/-- A byte that was received: whether the line is finished.  The count is compared as unsigned. -/
def key (s : Getline) (byte : BitVec 8) : Except Halt (Bool × Getline) :=
  if byte = 0x0D ∨ byte = 0x0A then .ok (true, s)
  else if byte = 0x7F ∨ byte = 0x08 then
    if s.result ≠ 0 then do
      let myBuffer ← s.myBuffer.store (s.result - 1) 0
      return (false, ⟨s.result - 1, myBuffer⟩)
    else .ok (false, s)
  else if byte = 0x03 ∨ byte = 0x1B then s.interrupt
  else if byte = 0x04 then if s.result = 0 then s.interrupt else .ok (false, s)
  else if s.result % 2 ^ 64 < hssUartHelperMaxGetline then do
    let myBuffer ← s.myBuffer.store s.result byte
    return (false, ⟨s.result + 1, myBuffer⟩)
  else .ok (false, s)

end Getline

/-- `uart_getline` on what is received: whether it has returned, and its count and its buffer.  It
returns the buffer as a string when the count is positive. -/
def uartGetline (received : Bytes) : Except Halt (Bool × Getline) :=
  received.foldlM (fun s byte => if s.1 then .ok s else s.2.key byte) (false, ⟨0, fun _ => 0⟩)

/-- What `uart_getline` is to do: no access outside its buffer, a count within it, and a string of the
length that is returned. -/
def GetlineExact (received : Bytes) : Prop :=
  ∃ finished s, uartGetline received = .ok (finished, s) ∧
    (finished = false → 0 ≤ s.result ∧ s.result ≤ hssUartHelperMaxGetline) ∧
    (finished = true → 0 < s.result → ∃ length : ℕ, s.myBuffer.strlen = .ok length ∧ length = s.result)

/-- A line that is typed, the newest byte first. -/
inductive Typing
  | typing (line : Bytes)
  | entered (line : Bytes)
  | cancelled

/-- What a key makes of a line. -/
def Typing.key : Typing → BitVec 8 → Typing
  | .typing line, byte =>
    if byte = 0x0D ∨ byte = 0x0A then .entered line
    else if byte = 0x7F ∨ byte = 0x08 then .typing line.tail
    else if byte = 0x03 ∨ byte = 0x1B then .cancelled
    else if byte = 0x04 then if line = [] then .cancelled else .typing line
    else if line.length < hssUartHelperMaxGetline then .typing (byte :: line)
    else .typing line
  | typed, _ => typed

/-- The line that the keys spell. -/
def typed (received : Bytes) : Typing := received.foldl Typing.key (.typing [])

/-- A line that is entered leaves room for the NUL byte, and has none itself. -/
def Spells (received : Bytes) : Prop :=
  ∀ line, typed received = .entered line → line.length < hssUartHelperMaxGetline ∧ 0 ∉ line

/-! ### The line in the buffer -/

/-- The buffer has the line, and NUL bytes after it. -/
def Holds (s : Getline) (line : Bytes) : Prop :=
  s.result = line.length ∧ line.length ≤ hssUartHelperMaxGetline ∧
    ∀ i, s.myBuffer i = line.reverse.getD i.val 0

/-- The loop does what the keys spell. -/
def Shows : Typing → Bool × Getline → Prop
  | .typing line, (finished, s) => finished = false ∧ Holds s line
  | .entered line, (finished, s) => finished = true ∧ Holds s line
  | .cancelled, (finished, s) => finished = true ∧ s.result = -1

theorem holds_nil : Holds ⟨0, fun _ => 0⟩ [] := ⟨rfl, Nat.zero_le _, fun _ => rfl⟩

theorem getD_reverse_cons (byte : BitVec 8) (line : Bytes) (i : ℕ) :
    (byte :: line).reverse.getD i 0 = if i = line.length then byte else line.reverse.getD i 0 := by
  rw [List.reverse_cons]
  by_cases inside : i < line.length
  · rw [List.getD_append _ _ _ _ (by simpa using inside), if_neg (by omega)]
  · rw [List.getD_append_right _ _ _ _ (by simpa using inside)]
    by_cases last : i = line.length
    · simp [last]
    · rw [if_neg last, List.getD_eq_default _ _ (by simp; omega),
        List.getD_eq_default _ _ (by simp; omega)]

/-- A byte more. -/
theorem Holds.push {s : Getline} {line : Bytes} (holds : Holds s line)
    (room : line.length < hssUartHelperMaxGetline) (byte : BitVec 8) :
    ∃ buffer, s.myBuffer.store s.result byte = .ok buffer ∧
      Holds ⟨s.result + 1, buffer⟩ (byte :: line) := by
  obtain ⟨count, -, bytes⟩ := holds
  refine ⟨_, count ▸ LineBuffer.store_inside ⟨line.length, room⟩ byte, ?_, room, fun i => ?_⟩
  · simp [count]
  · rw [getD_reverse_cons]
    by_cases here : i.val = line.length
    · obtain rfl : i = ⟨line.length, room⟩ := Fin.ext here
      simp
    · have ne : i ≠ ⟨line.length, room⟩ := fun same => here (congrArg Fin.val same)
      simp only [if_neg here, Function.update_of_ne ne, bytes]

/-- A byte less. -/
theorem Holds.pop {s : Getline} {byte : BitVec 8} {line : Bytes} (holds : Holds s (byte :: line)) :
    ∃ buffer, s.myBuffer.store (s.result - 1) 0 = .ok buffer ∧
      Holds ⟨s.result - 1, buffer⟩ line := by
  obtain ⟨count, inside, bytes⟩ := holds
  have room : line.length < hssUartHelperMaxGetline := inside
  have shorter : s.result - 1 = line.length := by
    rw [count]
    simp
  rw [shorter]
  refine ⟨_, LineBuffer.store_inside ⟨line.length, room⟩ 0, rfl, room.le, fun i => ?_⟩
  by_cases here : i.val = line.length
  · obtain rfl : i = ⟨line.length, room⟩ := Fin.ext here
    simp
  · have ne : i ≠ ⟨line.length, room⟩ := fun same => here (congrArg Fin.val same)
    simp only [Function.update_of_ne ne, bytes, getD_reverse_cons, if_neg here]

/-- A key does to the buffer what it does to the line. -/
theorem key_shows {s : Getline} {line : Bytes} (holds : Holds s line) (byte : BitVec 8) :
    ∃ result, s.key byte = .ok result ∧ Shows ((Typing.typing line).key byte) result := by
  have interrupted : ∃ result, s.interrupt = .ok result ∧ Shows .cancelled result := by
    rw [Getline.interrupt, LineEditor.store_first]
    exact ⟨_, rfl, rfl, rfl⟩
  have empty_iff : s.result = 0 ↔ line = [] := by
    rw [holds.1, Int.natCast_eq_zero, List.length_eq_zero_iff]
  unfold Getline.key Typing.key
  by_cases enter : byte = 0x0D ∨ byte = 0x0A
  · simp only [if_pos enter]
    exact ⟨_, rfl, rfl, holds⟩
  simp only [if_neg enter]
  by_cases delete : byte = 0x7F ∨ byte = 0x08
  · simp only [if_pos delete]
    cases line with
    | nil =>
      rw [if_neg (not_not.mpr (empty_iff.mpr rfl))]
      exact ⟨_, rfl, rfl, holds⟩
    | cons last line =>
      obtain ⟨buffer, stored, holds'⟩ := holds.pop
      have some : s.result ≠ 0 := fun none => List.cons_ne_nil _ _ (empty_iff.mp none)
      rw [if_pos some, stored]
      exact ⟨_, rfl, rfl, holds'⟩
  simp only [if_neg delete]
  by_cases escape : byte = 0x03 ∨ byte = 0x1B
  · simp only [if_pos escape]
    exact interrupted
  simp only [if_neg escape]
  by_cases eot : byte = 0x04
  · simp only [if_pos eot, empty_iff]
    by_cases empty : line = []
    · simp only [if_pos empty]
      exact interrupted
    · simp only [if_neg empty]
      exact ⟨_, rfl, rfl, holds⟩
  simp only [if_neg eot]
  have inside := holds.2.1
  have room : s.result % 2 ^ 64 < hssUartHelperMaxGetline ↔ line.length < hssUartHelperMaxGetline := by
    have small : line.length ≤ 80 := inside
    rw [holds.1]
    show (line.length : ℤ) % 2 ^ 64 < (80 : ℤ) ↔ line.length < 80
    omega
  by_cases full : line.length < hssUartHelperMaxGetline
  · obtain ⟨buffer, stored, holds'⟩ := holds.push full byte
    rw [if_pos (room.mpr full), if_pos full, stored]
    exact ⟨_, rfl, rfl, holds'⟩
  · rw [if_neg (fun more => full (room.mp more)), if_neg full]
    exact ⟨_, rfl, rfl, holds⟩

/-- The loop shows the line that the keys spell, whatever is received. -/
theorem uartGetline_shows (received : Bytes) :
    ∃ result, uartGetline received = .ok result ∧ Shows (typed received) result := by
  induction received using List.reverseRecOn with
  | nil => exact ⟨_, rfl, rfl, holds_nil⟩
  | append_singleton received byte ih =>
    obtain ⟨⟨finished, s⟩, before, shows⟩ := ih
    rw [uartGetline] at before
    rw [uartGetline, typed, List.foldlM_append, before, List.foldl_append, ok_bind]
    simp only [List.foldlM_cons, List.foldlM_nil, List.foldl_cons, List.foldl_nil, bind_pure]
    change Shows (typed received) (finished, s) at shows
    change ∃ result, _ ∧ Shows ((typed received).key byte) result
    cases spelled : typed received with
    | typing line =>
      rw [spelled] at shows
      obtain ⟨rfl, holds⟩ := shows
      exact key_shows holds byte
    | entered line =>
      rw [spelled] at shows
      obtain ⟨rfl, holds⟩ := shows
      exact ⟨_, rfl, rfl, holds⟩
    | cancelled =>
      rw [spelled] at shows
      obtain ⟨rfl, given_up⟩ := shows
      exact ⟨_, rfl, rfl, given_up⟩

theorem strlen_eq_ok_iff {buffer : LineBuffer} {n : ℕ} : buffer.strlen = .ok n ↔
    ∃ i : Fin hssUartHelperMaxGetline, i.val = n ∧ buffer i = 0 ∧
      ∀ j : Fin hssUartHelperMaxGetline, j.val < n → buffer j ≠ 0 := by
  have place : (List.ofFn buffer).findIdx? (· = 0) = some n ↔ ∃ i : Fin hssUartHelperMaxGetline,
      i.val = n ∧ buffer i = 0 ∧ ∀ j : Fin hssUartHelperMaxGetline, j.val < n → buffer j ≠ 0 := by
    rw [List.findIdx?_eq_some_iff_getElem]
    simp only [List.length_ofFn, List.getElem_ofFn, decide_eq_true_eq]
    constructor
    · rintro ⟨inside, nul, before⟩
      exact ⟨⟨n, inside⟩, rfl, nul, fun j less => before j.val less⟩
    · rintro ⟨i, rfl, nul, before⟩
      exact ⟨i.isLt, nul, fun j less => before ⟨j, less.trans i.isLt⟩ less⟩
  rw [← place, LineBuffer.strlen]
  cases (List.ofFn buffer).findIdx? (· = 0) with
  | none => simp
  | some length => simp

/-- The string in the buffer is the line just when the line leaves room for the NUL byte and has none
itself. -/
theorem Holds.strlen_iff {s : Getline} {line : Bytes} (holds : Holds s line) :
    (∃ length : ℕ, s.myBuffer.strlen = .ok length ∧ length = s.result) ↔
      line.length < hssUartHelperMaxGetline ∧ 0 ∉ line := by
  obtain ⟨count, inside, bytes⟩ := holds
  constructor
  · rintro ⟨length, found, same⟩
    obtain rfl : length = line.length := by rw [count] at same; exact Int.ofNat_inj.mp same
    obtain ⟨i, place, -, before⟩ := strlen_eq_ok_iff.mp found
    have room : line.length < hssUartHelperMaxGetline := place ▸ i.isLt
    refine ⟨room, fun nul => ?_⟩
    obtain ⟨j, less, at_j⟩ := List.getElem_of_mem (List.mem_reverse.mpr nul)
    rw [List.length_reverse] at less
    refine before ⟨j, less.trans room⟩ less ?_
    rw [bytes, List.getD_eq_getElem _ _ (by simpa using less), at_j]
  · rintro ⟨room, text⟩
    refine ⟨line.length, strlen_eq_ok_iff.mpr ⟨⟨line.length, room⟩, rfl, ?_, ?_⟩, count.symm⟩
    · rw [bytes, List.getD_eq_default _ _ (by simp)]
    · intro j less nul
      rw [bytes, List.getD_eq_getElem _ _ (by simpa using less)] at nul
      exact text (List.mem_reverse.mp (nul ▸ List.getElem_mem _))

theorem getlineExact_iff_spells (received : Bytes) : GetlineExact received ↔ Spells received := by
  obtain ⟨⟨finished, s⟩, run, shows⟩ := uartGetline_shows received
  -- what there is to show is about the one result
  have exact_iff : GetlineExact received ↔
      (finished = false → 0 ≤ s.result ∧ s.result ≤ hssUartHelperMaxGetline) ∧
        (finished = true → 0 < s.result →
          ∃ length : ℕ, s.myBuffer.strlen = .ok length ∧ length = s.result) := by
    constructor
    · rintro ⟨finished', s', run', exact⟩
      cases run.symm.trans run'
      exact exact
    · exact fun exact => ⟨finished, s, run, exact⟩
  rw [exact_iff, Spells]
  cases spelled : typed received with
  | typing line =>
    rw [spelled] at shows
    obtain ⟨rfl, count, inside, -⟩ := shows
    refine iff_of_true ⟨fun _ => ?_, fun returned => absurd returned (by decide)⟩ fun line entered => ?_
    · rw [count]
      exact ⟨Int.natCast_nonneg _, Int.ofNat_le.mpr inside⟩
    · cases entered
  | entered line =>
    rw [spelled] at shows
    obtain ⟨rfl, holds⟩ := shows
    have whole : (∀ line', Typing.entered line = .entered line' →
        line'.length < hssUartHelperMaxGetline ∧ 0 ∉ line') ↔
        line.length < hssUartHelperMaxGetline ∧ 0 ∉ line :=
      ⟨fun all => all line rfl, fun one line' same => by cases same; exact one⟩
    rw [whole, ← holds.strlen_iff]
    constructor
    · intro exact
      rcases Nat.eq_zero_or_pos line.length with empty | positive
      · -- an empty line is not returned, but is terminated all the same
        rw [holds.strlen_iff, List.length_eq_zero_iff.mp empty]
        exact ⟨by decide, List.not_mem_nil⟩
      · exact exact.2 rfl (by rw [holds.1]; omega)
    · exact fun exact => ⟨fun unfinished => absurd unfinished (by decide), fun _ _ => exact⟩
  | cancelled =>
    rw [spelled] at shows
    obtain ⟨rfl, given_up⟩ := shows
    refine iff_of_true ⟨fun unfinished => absurd unfinished (by decide), fun _ positive => ?_⟩
      fun line entered => ?_
    · change s.result = -1 at given_up
      omega
    · cases entered

/-! ### Both editors -/

/-- The line editors stay in bounds just where no byte overwrites the only NUL byte of the line and no
line is parsed past its last one, and where a line leaves room for the NUL byte and has none itself. -/
theorem line_editors_bounded_iff (cfg : CliConfig) (events : List TinycliEvent) (received : Bytes) :
    (LineEditor.Bounded cfg events ↔ LineEditor.Guarded cfg events) ∧
      (GetlineExact received ↔ Spells received) :=
  ⟨LineEditor.bounded_iff_guarded cfg events, getlineExact_iff_spells received⟩

/-- The machine runs, with a byte that was received, if there is one. -/
def TinycliEvent.receive (received : Option (BitVec 8)) : TinycliEvent :=
  .run ⟨0, true, true, true, received, none, true⟩

/-- A full line, the left arrow and the right arrow. -/
def fullLine : List TinycliEvent :=
  .receive none :: List.replicate 79 (.receive (some 0x61)) ++
    [.receive (some 0x1B), .receive (some 0x44), .receive (some 0x1B), .receive (some 0x43)]

/-- The right arrow blanks the last byte of a full line, and `uart_getline` fills its whole buffer. -/
theorem line_editors_unterminated : ¬LineEditor.Bounded bareCli fullLine ∧
    ¬GetlineExact (List.replicate 80 0x61 ++ [0x0D]) := by
  constructor
  · intro bounded
    obtain ⟨s, reached, bounds⟩ := bounded fullLine [] (List.append_nil _).symm
    have final : (LineEditor.after bareCli fullLine).toOption.any (fun s =>
        s.tinycliService.state = .readline ∧ s.tinycliService.prevState = some .readline ∧
          ¬s.myBuffer.Terminated 0) = true := by decide +kernel
    rw [reached] at final
    obtain ⟨reads, stays, unterminated⟩ := of_decide_eq_true final
    exact unterminated (LineEditor.line_of_entered reads stays (bounds reads))
  · rw [getlineExact_iff_spells]
    intro spells
    have spelled : typed (List.replicate 80 0x61 ++ [0x0D]) = .entered (List.replicate 80 0x61) := by
      rfl
    exact absurd (spells _ spelled).1 (by decide)

end Hss
