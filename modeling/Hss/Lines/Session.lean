import Hss.Lines.Parsing

/-! The line editor over the runs of its machine: the events under which it stays in bounds. -/

namespace Hss

namespace LineEditor

/-! ### What the callbacks keep -/

/-- What holds of the lines and the length whenever the machine is at rest or calls a handler. -/
structure Sound (s : LineEditor) : Prop where
  low : -1 ≤ s.readStringLen
  high : s.readStringLen ≤ bufferLen
  line : s.myBuffer.Terminated 0
  previous : s.myPrevBuffer.Terminated 0
  saved : s.SavedFar

/-- What holds between the events: also that a line is only read on from a length. -/
structure Kept (s : LineEditor) : Prop extends s.Sound where
  reading : s.tinycliService.state = .readline → s.tinycliService.prevState = some .readline →
    0 ≤ s.readStringLen

theorem kept_powerOn : powerOn.Kept where
  low := by decide
  high := by decide
  line := ⟨0, Nat.zero_le _, rfl⟩
  previous := ⟨0, Nat.zero_le _, rfl⟩
  saved := fun i mem => by cases mem
  reading := fun _ _ => le_refl 0

variable {cfg : CliConfig} {input : TinycliInput} {s t : LineEditor}

/-- The lines and the length do not depend on the machine's own record. -/
theorem Sound.record (sound : s.Sound) (machine : StateMachine TinycliState) :
    { s with tinycliService := machine }.Sound :=
  ⟨sound.low, sound.high, sound.line, sound.previous, sound.saved⟩

theorem start_spec (now : Word) (s : LineEditor) : ∃ machine : StateMachine TinycliState,
    Hss.tinycliService.start now s = { s with tinycliService := machine } ∧
      machine.state = s.tinycliService.state ∧ machine.prevState = s.tinycliService.prevState := by
  rw [MachineOf.start]
  split
  · exact ⟨{ s.tinycliService with startTime := now }, rfl, rfl, rfl⟩
  · exact ⟨s.tinycliService, rfl, rfl, rfl⟩

theorem onExit_spec (cfg : CliConfig) (input : TinycliInput) (sound : s.Sound) (prevState : Option TinycliState) :
    ∃ a, prevState.elim (.ok s) (fun prev => runCallback (tinycliStateDescs cfg input prev).onExit s) =
      .ok a ∧ a.Sound ∧ a.tinycliService = s.tinycliService := by
  have unchanged : ∃ a : LineEditor, Except.ok (ε := Halt) s = .ok a ∧ a.Sound ∧
      a.tinycliService = s.tinycliService := ⟨s, rfl, sound, rfl⟩
  cases prevState with
  | none => exact unchanged
  | some prev =>
    cases prev with
    | readline =>
      show ∃ a, tinycliReadlineOnExit s = .ok a ∧ _
      rw [tinycliReadlineOnExit]
      by_cases positive : s.readStringLen > 0
      · rw [if_pos positive]
        exact unchanged
      · rw [if_neg positive, store_first]
        refine ⟨_, rfl, ⟨?_, ?_, s.myBuffer.terminated_update_nul 0, sound.previous, sound.saved⟩, rfl⟩
        · exact (by decide : (-1 : ℤ) ≤ 0)
        · exact (by decide : (0 : ℤ) ≤ bufferLen)
    | initialization => exact unchanged
    | preboot => exact unchanged
    | doboot => exact unchanged
    | parseline => exact unchanged
    | usbdmsc => exact unchanged
    | uartSurrender => exact unchanged

theorem onEntry_spec (cfg : CliConfig) (input : TinycliInput) (sound : s.Sound) (state : TinycliState) :
    ∃ a, runCallback (tinycliStateDescs cfg input state).onEntry s = .ok a ∧ a.Sound ∧
      a.tinycliService = s.tinycliService ∧ (state = .readline → 0 ≤ a.readStringLen) := by
  have unchanged : state ≠ .readline → ∃ a : LineEditor, Except.ok (ε := Halt) s = .ok a ∧ a.Sound ∧
      a.tinycliService = s.tinycliService ∧ (state = .readline → 0 ≤ a.readStringLen) :=
    fun other => ⟨s, rfl, sound, rfl, fun same => absurd same other⟩
  cases state with
  | readline =>
    refine ⟨_, rfl, ⟨?_, ?_, sound.line, sound.previous, sound.saved⟩, rfl, fun _ => le_refl 0⟩
    · exact (by decide : (-1 : ℤ) ≤ 0)
    · exact (by decide : (0 : ℤ) ≤ bufferLen)
  | initialization => exact unchanged (by decide)
  | preboot => exact unchanged (by decide)
  | doboot => exact unchanged (by decide)
  | parseline => exact unchanged (by decide)
  | usbdmsc => exact unchanged (by decide)
  | uartSurrender => exact unchanged (by decide)

/-- The state in which a handler is called. -/
structure Entered (s a : LineEditor) : Prop where
  sound : a.Sound
  state : a.tinycliService.state = s.tinycliService.state
  prevState : a.tinycliService.prevState = some s.tinycliService.state
  reading : s.tinycliService.state = .readline → 0 ≤ a.readStringLen

theorem entered_spec (kept : s.Kept) (cfg : CliConfig) (input : TinycliInput) :
    ∃ a, entered cfg input s = .ok a ∧ s.Entered a := by
  obtain ⟨machine, started, state, prevState⟩ := start_spec input.now s
  have sound := kept.toSound.record machine
  rw [entered]
  simp only [started]
  by_cases stays : s.tinycliService.prevState = some s.tinycliService.state
  · rw [if_pos stays]
    refine ⟨_, rfl, sound, state, prevState.trans stays, fun reads => ?_⟩
    exact kept.reading reads (stays.trans (congrArg some reads))
  · rw [if_neg stays]
    obtain ⟨a, left, sound, same⟩ := onExit_spec cfg input sound
      s.tinycliService.prevState
    obtain ⟨b, come, sound, same', reading⟩ := onEntry_spec cfg input sound
      s.tinycliService.state
    have changed := MachineOf.changeState_eq_ok (m := Hss.tinycliService).mpr ⟨a, b, left, come, rfl⟩
    refine ⟨_, changed, sound.record _, ?_, ?_, reading⟩
    · show b.tinycliService.state = _
      rw [same', same, state]
    · show some b.tinycliService.state = _
      rw [same', same, state]

theorem Entered.inBounds {a : LineEditor} (entered : s.Entered a)
    (reads : s.tinycliService.state = .readline) : a.InBounds :=
  ⟨entered.reading reads, entered.sound.high, entered.sound.line, entered.sound.previous⟩

/-- A run of the machine calls the handler of the state. -/
theorem next_run_eq_ok : next cfg s (.run input) = .ok t ↔ ∃ a b, entered cfg input s = .ok a ∧
    (tinycliStateDescs cfg input s.tinycliService.state).handler a = .ok b ∧
    t = { b with tinycliService :=
      { b.tinycliService with executionCount := b.tinycliService.executionCount + 1 } } :=
  MachineOf.run_eq_ok

/-! ### Events -/

/-- A handler that only changes the machine's state keeps what holds, and the editor reads a new line
after it. -/
theorem kept_of_goto {a : LineEditor} (entered : s.Entered a)
    (other : s.tinycliService.state ≠ .readline) {b : LineEditor} (sound : b.Sound)
    (prevState : b.tinycliService.prevState = a.tinycliService.prevState) (count : ℕ) :
    { b with tinycliService := { b.tinycliService with executionCount := count } }.Kept where
  toSound := sound.record _
  reading := by
    intro _ reads
    have same : some s.tinycliService.state = some .readline :=
      entered.prevState.symm.trans (prevState.symm.trans reads)
    exact absurd (Option.some.inj same) other

theorem Sound.goto (sound : s.Sound) (state : TinycliState) : (s.goto state).Sound := sound.record _

/-- A byte, or none, under its condition. -/
theorem readlineHandler_spec {a : LineEditor} (entered : s.Entered a)
    (reads : s.tinycliService.state = .readline)
    (keeps : ∀ byte ∈ input.received, a.KeepsNul byte) (count : ℕ) :
    ∃ b, tinycliReadlineHandler input a = .ok b ∧
      { b with tinycliService := { b.tinycliService with executionCount := count } }.Kept := by
  have bounds := entered.inBounds reads
  rw [tinycliReadlineHandler]
  cases received : input.received with
  | none => exact ⟨a, rfl, entered.sound.record _, fun _ _ => bounds.low⟩
  | some byte =>
    obtain ⟨b, done, left⟩ := key_spec bounds byte
    have saved : b.SavedFar := fun i mem => entered.sound.saved i (left.strtok ▸ mem)
    refine ⟨b, done, ⟨left.low, left.high, left.line.mpr (keeps byte received), left.previous, saved⟩,
      fun state _ => ?_⟩
    rcases left.service with ⟨-, low⟩ | ⟨parses, -⟩
    · exact low
    · have state' : b.tinycliService.state = .readline := state
      rw [parses] at state'
      cases state'

/-- A line, if there is one, that has a NUL byte where `strtok_r` goes on. -/
theorem parselineHandler_spec {a : LineEditor} (entered : s.Entered a)
    (keeps : 0 < a.readStringLen → a.myBuffer.Terminated (a.strtokString.getD 0)) :
    ∃ b, tinycliParselineHandler input a = .ok b ∧ b.Sound ∧
      b.tinycliService.prevState = a.tinycliService.prevState := by
  have tokens : ∃ count b, a.tokens = .ok (count, b) ∧ b.Sound ∧ b.tinycliService = a.tinycliService := by
    rw [LineEditor.tokens]
    by_cases positive : a.readStringLen > 0
    · obtain ⟨count, b, parsed, saved, nuls, previous, length, service⟩ :=
        parseIntoTokens_ok (keeps positive)
      obtain ⟨k, above, nul⟩ := entered.sound.line
      rw [if_pos positive]
      refine ⟨count, b, parsed, ⟨?_, ?_, ⟨k, above, nuls k nul⟩, ?_, saved⟩, service⟩
      · exact length ▸ entered.sound.low
      · exact length ▸ entered.sound.high
      · exact previous ▸ entered.sound.previous
    · rw [if_neg positive]
      exact ⟨0, a, rfl, entered.sound, rfl⟩
  obtain ⟨count, b, parsed, sound, service⟩ := tokens
  have changed : ∀ command : Option StateChange, (command.elim b b.change).Sound ∧
      (command.elim b b.change).tinycliService.prevState = a.tinycliService.prevState := by
    intro command
    rw [← service]
    cases command with
    | none => exact ⟨sound, rfl⟩
    | some change =>
      cases change with
      | waitForUsbmscdDone => exact ⟨sound.goto _, rfl⟩
      | surrenderUart => exact ⟨sound.goto _, rfl⟩
  have executed : (if count ≠ 0 then input.command.elim b b.change else b).Sound ∧
      (if count ≠ 0 then input.command.elim b b.change else b).tinycliService.prevState =
        a.tinycliService.prevState := by
    split
    · exact changed input.command
    · exact changed none
  rw [tinycliParselineHandler, parsed]
  simp only [ok_bind]
  generalize (if count ≠ 0 then input.command.elim b b.change else b) = after at executed
  refine ⟨_, rfl, ?_⟩
  split
  · exact ⟨executed.1.goto _, executed.2⟩
  · exact executed

/-- The handlers of the other states only choose the next one. -/
theorem otherHandler_spec {a : LineEditor} (sound : a.Sound) (cfg : CliConfig) (input : TinycliInput)
    {state : TinycliState} (reads : state ≠ .readline) (parses : state ≠ .parseline) :
    ∃ b, (tinycliStateDescs cfg input state).handler a = .ok b ∧ b.Sound ∧
      b.tinycliService.prevState = a.tinycliService.prevState := by
  have chosen : ∀ (p : Prop) [Decidable p] (next : TinycliState),
      (if p then a.goto next else a).Sound ∧
        (if p then a.goto next else a).tinycliService.prevState = a.tinycliService.prevState := by
    intro p _ next
    split
    · exact ⟨sound.goto next, rfl⟩
    · exact ⟨sound, rfl⟩
  cases state with
  | initialization => exact ⟨_, rfl, chosen _ _⟩
  | preboot => exact ⟨_, rfl, sound.goto _, rfl⟩
  | doboot =>
    refine ⟨_, rfl, ?_⟩
    split
    · exact ⟨sound, rfl⟩
    · exact ⟨sound.goto _, rfl⟩
  | usbdmsc =>
    refine ⟨_, rfl, ?_⟩
    split
    · exact ⟨sound, rfl⟩
    · exact ⟨sound.goto _, rfl⟩
  | uartSurrender => exact ⟨a, rfl, sound, rfl⟩
  | readline => exact absurd rfl reads
  | parseline => exact absurd rfl parses

/-- An event that meets its condition stays inside the buffers and keeps what holds. -/
theorem Kept.next (kept : s.Kept) {event : TinycliEvent} (meets : s.Meets cfg event) :
    ∃ t, s.next cfg event = .ok t ∧ t.Kept := by
  cases event with
  | surrenderUart =>
    refine ⟨_, rfl, kept.toSound.record _, fun reads _ => ?_⟩
    cases reads
  | run input =>
    obtain ⟨a, start, entered⟩ := entered_spec kept cfg input
    have condition := meets a start
    have finish : ∀ {b : LineEditor},
        (tinycliStateDescs cfg input s.tinycliService.state).handler a = .ok b →
        { b with tinycliService := { b.tinycliService with
          executionCount := b.tinycliService.executionCount + 1 } }.Kept →
        ∃ t, s.next cfg (.run input) = .ok t ∧ t.Kept :=
      fun handled kept => ⟨_, next_run_eq_ok.mpr ⟨a, _, start, handled, rfl⟩, kept⟩
    by_cases reads : s.tinycliService.state = .readline
    · rw [reads] at condition finish
      obtain ⟨b, handled, -⟩ := readlineHandler_spec entered reads condition 0
      obtain ⟨b', handled', kept⟩ := readlineHandler_spec entered reads condition
        (b.tinycliService.executionCount + 1)
      cases handled.symm.trans handled'
      exact finish handled kept
    · have handled : ∃ b, (tinycliStateDescs cfg input s.tinycliService.state).handler a = .ok b ∧
          b.Sound ∧ b.tinycliService.prevState = a.tinycliService.prevState := by
        by_cases parses : s.tinycliService.state = .parseline
        · rw [parses] at condition ⊢
          exact parselineHandler_spec entered condition
        · exact otherHandler_spec entered.sound cfg input reads parses
      obtain ⟨b, handled, sound, prevState⟩ := handled
      exact finish handled (kept_of_goto entered reads sound prevState _)

/-- A machine that stays in its state calls the handler at once. -/
theorem entered_of_stays (stays : s.tinycliService.prevState = some s.tinycliService.state) :
    entered cfg input s = .ok (Hss.tinycliService.start input.now s) := by
  rw [entered]
  exact if_pos stays

/-- Where the editor reads on, the handler is entered with the line as it is. -/
theorem line_of_entered (reads : t.tinycliService.state = .readline)
    (stays : t.tinycliService.prevState = some .readline)
    (bounds : ∀ input a, entered cfg input t = .ok a → a.InBounds) : t.myBuffer.Terminated 0 := by
  obtain ⟨machine, started, -, -⟩ := start_spec 0 t
  have idle : entered cfg ⟨0, false, false, false, none, none, false⟩ t =
      .ok { t with tinycliService := machine } := by
    rw [entered_of_stays (stays.trans (congrArg some reads.symm)), started]
  exact (bounds _ _ idle).line

/-- An event that leads to a state in bounds meets its condition. -/
theorem Kept.meets (kept : s.Kept) {event : TinycliEvent} (done : s.next cfg event = .ok t)
    (bounds : t.tinycliService.state = .readline → ∀ input a, entered cfg input t = .ok a →
      a.InBounds) : s.Meets cfg event := by
  cases event with
  | surrenderUart => trivial
  | run input =>
    intro a start
    obtain ⟨a', start', entered⟩ := entered_spec kept cfg input
    cases start.symm.trans start'
    obtain ⟨a', b, start', handled, same⟩ := next_run_eq_ok.mp done
    cases start.symm.trans start'
    have record : t.tinycliService.state = b.tinycliService.state ∧
        t.tinycliService.prevState = b.tinycliService.prevState ∧ t.myBuffer = b.myBuffer := by
      rw [same]
      exact ⟨rfl, rfl, rfl⟩
    cases state : s.tinycliService.state with
    | readline =>
      intro byte received
      by_contra overwrites
      obtain ⟨b', pressed, left⟩ := key_spec (entered.inBounds state) byte
      have pressed' : b' = b := by
        rw [state] at handled
        have read : tinycliReadlineHandler input a = .ok b := handled
        rw [tinycliReadlineHandler, received] at read
        exact Except.ok.inj (pressed.symm.trans read)
      subst pressed'
      rcases left.service with ⟨service, -⟩ | ⟨-, line⟩
      · -- the editor reads on, so the handler is entered with the line as it is
        have reads : t.tinycliService.state = .readline := by
          rw [record.1, service, entered.state, state]
        have stays : t.tinycliService.prevState = some .readline := by
          rw [record.2.1, service, entered.prevState, state]
        have line := line_of_entered reads stays (bounds reads)
        rw [record.2.2] at line
        exact overwrites (left.line.mp line)
      · exact overwrites (left.line.mp line)
    | parseline =>
      intro positive
      by_contra unterminated
      rw [state] at handled
      have parsed : tinycliParselineHandler input a = .ok b := handled
      obtain ⟨result, tokens, -⟩ := bind_eq_ok.mp parsed
      rw [LineEditor.tokens, if_pos positive] at tokens
      exact parseIntoTokens_unterminated entered.sound.line entered.sound.saved unterminated _ tokens
    | initialization => trivial
    | preboot => trivial
    | doboot => trivial
    | usbdmsc => trivial
    | uartSurrender => trivial

/-! ### Runs -/

theorem after_snoc (cfg : CliConfig) (events : List TinycliEvent) (event : TinycliEvent) :
    after cfg (events ++ [event]) = after cfg events >>= fun s => s.next cfg event := by
  rw [after, List.foldlM_append]
  simp only [List.foldlM_cons, List.foldlM_nil, bind_pure]
  rfl

/-- Each event of a run meets its condition in the state before it. -/
def Guarded (cfg : CliConfig) (events : List TinycliEvent) : Prop :=
  ∀ before event rest, events = before ++ event :: rest → ∀ s, after cfg before = .ok s →
    s.Meets cfg event

theorem Guarded.kept {events : List TinycliEvent} (guarded : Guarded cfg events) :
    ∀ before rest, events = before ++ rest → ∃ s, after cfg before = .ok s ∧ s.Kept := by
  intro before
  induction before using List.reverseRecOn with
  | nil => exact fun _ _ => ⟨powerOn, rfl, kept_powerOn⟩
  | append_singleton before event ih =>
    intro rest split
    rw [List.append_assoc, List.singleton_append] at split
    obtain ⟨s, reached, kept⟩ := ih (event :: rest) split
    obtain ⟨t, done, kept'⟩ := kept.next (guarded before event rest split s reached)
    exact ⟨t, by rw [after_snoc, reached, ok_bind, done], kept'⟩

theorem Bounded.kept {events : List TinycliEvent} (bounded : Bounded cfg events) :
    ∀ before rest, events = before ++ rest → ∃ s, after cfg before = .ok s ∧ s.Kept := by
  intro before
  induction before using List.reverseRecOn with
  | nil => exact fun _ _ => ⟨powerOn, rfl, kept_powerOn⟩
  | append_singleton before event ih =>
    intro rest split
    obtain ⟨t, reached', bounds⟩ := bounded (before ++ [event]) rest split
    rw [List.append_assoc, List.singleton_append] at split
    obtain ⟨s, reached, kept⟩ := ih (event :: rest) split
    have done := reached'
    rw [after_snoc, reached, ok_bind] at done
    obtain ⟨t', done', kept'⟩ := kept.next (kept.meets done bounds)
    cases done.symm.trans done'
    exact ⟨t, reached', kept'⟩

/-- The line editor stays in bounds just in the runs whose events meet their conditions. -/
theorem bounded_iff_guarded (cfg : CliConfig) (events : List TinycliEvent) :
    Bounded cfg events ↔ Guarded cfg events := by
  constructor
  · intro bounded before event rest split s reached
    obtain ⟨s', reached', kept⟩ := bounded.kept before (event :: rest) split
    cases reached.symm.trans reached'
    have later : events = (before ++ [event]) ++ rest := by rw [split, List.append_assoc]; rfl
    obtain ⟨t, reached', bounds⟩ := bounded (before ++ [event]) rest later
    rw [after_snoc, reached, ok_bind] at reached'
    exact kept.meets reached' bounds
  · intro guarded before rest split
    obtain ⟨s, reached, kept⟩ := guarded.kept before rest split
    refine ⟨s, reached, fun reads input a start => ?_⟩
    obtain ⟨a', start', entered⟩ := entered_spec kept cfg input
    cases start.symm.trans start'
    exact entered.inBounds reads

end LineEditor

end Hss
