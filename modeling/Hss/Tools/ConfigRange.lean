import Hss.Lib.Outcome
import Hss.Tools.Config

/-! The indices of the configuration parser: for which events each of them stays within its table. -/

namespace Hss

open Outcome

/-! ### What was taken -/

/-- Whether an owner was taken since the mapping of the payload last started. -/
def ownerTaken : List ConfigRecord → Bool
  | [] => false
  | .payload :: _ | .mapping :: _ => false
  | .owner _ :: _ => true
  | .secondary _ :: history => ownerTaken history

/-- How many secondary harts were taken for the payload. -/
def secondariesTaken : List ConfigRecord → ℕ
  | [] => 0
  | .payload :: _ => 0
  | .mapping :: history | .owner _ :: history => secondariesTaken history
  | .secondary _ :: history => secondariesTaken history + 1

namespace ConfigParser

/-- The condition on an event: a payload that ends has an owner, and no payload gets a fourth secondary
hart. -/
structure InRange (p : ConfigParser) (event : YamlEvent) : Prop where
  owner : p.state = .newPayload → event = .mappingEnd → ownerTaken p.history = true
  secondary : p.state = .newPayloadSecondaryHart → ∀ value u, event = .scalar value →
    stringToScalar value = .hart u → secondariesTaken p.history < 3

/-- All events that the parser handles meet it. -/
def InRangeThroughout (files : ConfigFiles) : List YamlEvent → ConfigParser → Prop
  | [], _ => True
  | .streamEnd :: _, _ => True
  | .noEvent :: events, p => InRangeThroughout files events p
  | event :: events, p => p.InRange event ∧
      ∀ q, p.handle files event = .ok q → InRangeThroughout files events q

/-! ### The indices -/

/-- The indices are of harts, or zero, and say what was taken. -/
structure Indexed (p : ConfigParser) : Prop where
  owner : p.baseOwner ≤ 4
  taken : p.baseOwner ≠ 0 ↔ ownerTaken p.history = true
  secondary : ∀ i, p.baseSecondary i ≤ 4
  count : p.secondaryIdx = secondariesTaken p.history

variable {p q : ConfigParser} {files : ConfigFiles} {event : YamlEvent} {events : List YamlEvent}

theorem indexed_start : start.Indexed :=
  ⟨Nat.zero_le 4, ⟨fun some => absurd rfl some, fun taken => nomatch taken⟩, fun _ => Nat.zero_le 4, rfl⟩

theorem Indexed.same (indexed : p.Indexed) (owner : q.baseOwner = p.baseOwner)
    (secondary : q.baseSecondary = p.baseSecondary) (count : q.secondaryIdx = p.secondaryIdx)
    (history : q.history = p.history) : q.Indexed := by
  refine ⟨?_, ?_, ?_, ?_⟩
  · rw [owner]
    exact indexed.owner
  · rw [owner, history]
    exact indexed.taken
  · rw [secondary]
    exact indexed.secondary
  · rw [count, history]
    exact indexed.count

theorem U54.num_le_four (u : U54) : u.num ≤ 4 := by cases u <;> decide

theorem U54.num_ne_zero (u : U54) : u.num ≠ 0 := by cases u <;> decide

theorem hartAt_ok {index : ℕ} (some : index ≠ 0) (le : index ≤ 4) : ∃ u, hartAt index = .ok u := by
  match index with
  | 0 => exact absurd rfl some
  | 1 => exact ⟨.u54_1, rfl⟩
  | 2 => exact ⟨.u54_2, rfl⟩
  | 3 => exact ⟨.u54_3, rfl⟩
  | 4 => exact ⟨.u54_4, rfl⟩

/-! ### What the handlers keep -/

theorem meets_illegal {Q : ConfigParser → Prop} : Meets .outOfRange illegal Q := .error (by decide)

theorem meets_never {Q : ConfigParser → Prop} : Meets .outOfRange never Q := .error (by decide)

theorem meets_fails {α : Type} {Q : α → Prop} {reason : ToolError} :
    Meets .outOfRange (.error (.fails reason) : Except ConfigHalt α) Q := .error (by simp)

/-- A state in which a value is taken. -/
theorem Indexed.onValue (indexed : p.Indexed) {take : Bytes → Except ConfigHalt ConfigParser}
    (takes : ∀ value, event = .scalar value → Meets .outOfRange (take value) Indexed) :
    Meets .outOfRange (p.onValue take event) Indexed := by
  cases event with
  | mappingStart => exact .ok indexed
  | mappingEnd => exact .ok (indexed.same rfl rfl rfl rfl)
  | scalar value => exact takes value rfl
  | _ => exact meets_illegal

/-- The loops over the secondary harts. -/
theorem Indexed.secondaries (indexed : p.Indexed) {σ : Type} {turn : σ → ℕ → Except ConfigHalt σ}
    (turns : ∀ secondary ≤ 4, ∀ s, Meets .outOfRange (turn s secondary) fun _ => True) (s : σ) :
    Meets .outOfRange (p.secondaries.foldlM turn s) fun _ => True := by
  refine Meets.foldlM _ trivial fun secondary present s _ => turns secondary ?_ s
  obtain ⟨i, rfl⟩ := List.mem_ofFn.mp present
  exact indexed.secondary i

theorem setSecondaryMode_meets {secondary : ℕ} (le : secondary ≤ 4) (privMode : U54 → BitVec 8) :
    Meets .outOfRange (p.setSecondaryMode privMode secondary) fun _ => True := by
  rw [setSecondaryMode]
  split
  · next some =>
    obtain ⟨u, hart⟩ := hartAt_ok some le
    rw [hart, ok_bind]
    split
    · exact .ok trivial
    · exact meets_fails
  · exact .ok trivial

theorem setSecondaryFlags_meets {secondary : ℕ} (le : secondary ≤ 4) (flags : U54 → BitVec 8) :
    Meets .outOfRange (p.setSecondaryFlags flags secondary) fun _ => True := by
  rw [setSecondaryFlags]
  split
  · next some =>
    obtain ⟨u, hart⟩ := hartAt_ok some le
    rw [hart, ok_bind]
    exact .ok trivial
  · exact .ok trivial

theorem mapError_meets {α : Type} {x : Except ToolError α} :
    Meets .outOfRange (x.mapError ConfigHalt.fails) fun _ => True := by
  cases x with
  | error reason => exact meets_fails
  | ok a => exact .ok trivial

/-- A payload with an owner ends within the tables. -/
theorem Indexed.endPayload (indexed : p.Indexed) (some : p.baseOwner ≠ 0) :
    Meets .outOfRange (p.endPayload files) Indexed := by
  obtain ⟨owner, hart⟩ := hartAt_ok some indexed.owner
  rw [ConfigParser.endPayload, hart, ok_bind]
  refine (indexed.secondaries (fun _ le s => setSecondaryMode_meets le s) _).bind fun privMode _ => ?_
  rw [assertOwner, if_pos some, ok_bind]
  refine mapError_meets.bind fun generator _ => ?_
  refine (indexed.secondaries (fun _ le s => setSecondaryFlags_meets le s) _).bind fun flags _ => ?_
  exact .ok (indexed.same rfl rfl rfl rfl)

theorem Indexed.handleNewPayload (indexed : p.Indexed)
    (owner : event = .mappingEnd → ownerTaken p.history = true) :
    Meets .outOfRange (p.handleNewPayload files event) Indexed := by
  cases event with
  | mappingStart =>
    exact .ok ⟨Nat.zero_le 4, ⟨fun some => absurd rfl some, fun taken => nomatch taken⟩,
      indexed.secondary, indexed.count⟩
  | mappingEnd => exact indexed.endPayload (indexed.taken.mpr (owner rfl))
  | scalar value =>
    rw [ConfigParser.handleNewPayload]
    split
    all_goals first | exact .ok (indexed.same rfl rfl rfl rfl) | exact meets_illegal
  | _ => exact meets_illegal

theorem Indexed.handleNewPayloadOwnerHart (indexed : p.Indexed) :
    Meets .outOfRange (p.handleNewPayloadOwnerHart event) Indexed := by
  refine indexed.onValue fun value _ => ?_
  split
  · next u _ =>
    exact .ok ⟨U54.num_le_four u, ⟨fun _ => rfl, fun _ => U54.num_ne_zero u⟩, indexed.secondary,
      indexed.count⟩
  · exact meets_illegal

/-- A secondary hart has a place while there are fewer than three. -/
theorem Indexed.handleNewPayloadSecondaryHart (indexed : p.Indexed)
    (secondary : ∀ value u, event = .scalar value → stringToScalar value = .hart u →
      secondariesTaken p.history < 3) :
    Meets .outOfRange (p.handleNewPayloadSecondaryHart event) Indexed := by
  refine indexed.onValue fun value isScalar => ?_
  split
  · next u token =>
    have inside : p.secondaryIdx < 3 := indexed.count ▸ secondary value u isScalar token
    rw [storeSecondary, dif_pos inside, ok_bind]
    refine .ok ⟨indexed.owner, indexed.taken, fun i => ?_, congrArg (· + 1) indexed.count⟩
    show Function.update p.baseSecondary ⟨p.secondaryIdx, inside⟩ u.num i ≤ 4
    rw [Function.update_apply]
    split
    · exact U54.num_le_four u
    · exact indexed.secondary i
  · exact meets_illegal

/-- An event that meets the condition leaves the indices in range. -/
theorem Indexed.handle (indexed : p.Indexed) (inRange : p.InRange event) :
    Meets .outOfRange (p.handle files event) Indexed := by
  -- a parser with the same indices
  have kept {q : ConfigParser} (owner : q.baseOwner = p.baseOwner)
      (secondary : q.baseSecondary = p.baseSecondary) (count : q.secondaryIdx = p.secondaryIdx)
      (history : q.history = p.history) :
      Meets .outOfRange (.ok q : Except ConfigHalt ConfigParser) Indexed :=
    .ok (indexed.same owner secondary count history)
  rw [ConfigParser.handle]
  cases state : p.state with
  | idle =>
    cases event with
    | streamStart => exact kept rfl rfl rfl rfl
    | _ => exact meets_illegal
  | stream =>
    cases event with
    | documentStart => exact kept rfl rfl rfl rfl
    | documentEnd => exact kept rfl rfl rfl rfl
    | _ => exact meets_illegal
  | doc =>
    cases event with
    | mappingStart => exact kept rfl rfl rfl rfl
    | documentEnd => exact kept rfl rfl rfl rfl
    | _ => exact meets_illegal
  | mapping =>
    cases event with
    | mappingEnd => exact kept rfl rfl rfl rfl
    | scalar value =>
      dsimp only [handleMapping]
      split
      · exact kept rfl rfl rfl rfl
      · exact kept rfl rfl rfl rfl
      · exact kept rfl rfl rfl rfl
      · exact meets_illegal
    | _ => exact meets_illegal
  | setName =>
    cases event with
    | mappingStart => exact meets_never
    | mappingEnd => exact meets_never
    | scalar value => exact kept rfl rfl rfl rfl
    | _ => exact meets_illegal
  | hartEntryPoints =>
    refine indexed.onValue fun value _ => ?_
    split
    · exact kept rfl rfl rfl rfl
    · exact meets_illegal
  | hartEntryPointsOf u => exact indexed.onValue fun value _ => kept rfl rfl rfl rfl
  | payloadMappings =>
    refine indexed.onValue fun value _ => .ok ⟨Nat.zero_le 4, ?_, fun _ => Nat.zero_le 4, rfl⟩
    exact ⟨fun some => absurd rfl some, fun taken => nomatch taken⟩
  | newPayload => exact indexed.handleNewPayload (inRange.owner state)
  | newPayloadExecAddr => exact indexed.onValue fun value _ => kept rfl rfl rfl rfl
  | newPayloadOwnerHart => exact indexed.handleNewPayloadOwnerHart
  | newPayloadPayloadName =>
    cases event with
    | mappingStart => exact meets_never
    | mappingEnd => exact meets_never
    | scalar value => exact kept rfl rfl rfl rfl
    | _ => exact meets_illegal
  | newPayloadPrivMode =>
    refine indexed.onValue fun value _ => ?_
    split
    · exact kept rfl rfl rfl rfl
    · exact kept rfl rfl rfl rfl
    · exact kept rfl rfl rfl rfl
    · exact meets_illegal
  | newPayloadSecondaryHart => exact indexed.handleNewPayloadSecondaryHart (inRange.secondary state)
  | newPayloadSkipOpensbi =>
    cases event with
    | mappingStart => exact kept rfl rfl rfl rfl
    | mappingEnd => exact meets_never
    | scalar value => exact kept rfl rfl rfl rfl
    | _ => exact meets_illegal
  | newPayloadAllowReboot =>
    refine indexed.onValue fun value _ => ?_
    split
    · exact kept rfl rfl rfl rfl
    · exact kept rfl rfl rfl rfl
    · exact meets_illegal
  | newPayloadSkipAutoboot => exact indexed.onValue fun value _ => kept rfl rfl rfl rfl
  | newPayloadAncilliaryData => exact indexed.onValue fun value _ => kept rfl rfl rfl rfl

/-! ### What leaves the tables -/

/-- The end of a payload without an owner is looked up before the assertion. -/
theorem Indexed.endPayload_outOfRange (indexed : p.Indexed) (missing : ownerTaken p.history = false) :
    p.endPayload files = .error .outOfRange := by
  have zero : p.baseOwner = 0 := by
    by_contra some
    rw [indexed.taken.mp some] at missing
    cases missing
  rw [ConfigParser.endPayload, zero]
  rfl

theorem Indexed.storeSecondary_outOfRange (indexed : p.Indexed) {u : U54}
    (full : 3 ≤ secondariesTaken p.history) : p.storeSecondary u = .error .outOfRange := by
  rw [storeSecondary, dif_neg (indexed.count ▸ Nat.not_lt.mpr full)]

theorem Indexed.inRange_of_handle (indexed : p.Indexed)
    (within : p.handle files event ≠ .error .outOfRange) : p.InRange event := by
  refine ⟨fun state isEnd => ?_, fun state value u isScalar token => ?_⟩
  · by_contra missing
    subst isEnd
    apply within
    rw [ConfigParser.handle, state]
    exact indexed.endPayload_outOfRange (Bool.eq_false_of_not_eq_true missing)
  · by_contra full
    subst isScalar
    apply within
    rw [ConfigParser.handle, state]
    dsimp only [ConfigParser.handleNewPayloadSecondaryHart, ConfigParser.onValue]
    rw [token]
    dsimp only
    rw [indexed.storeSecondary_outOfRange (Nat.not_lt.mp full), error_bind]

/-! ### Runs -/

/-- An event that is handled, and the rest. -/
theorem Indexed.cons_iff (indexed : p.Indexed)
    (rest : ∀ q, q.Indexed → (yamlParser files events q ≠ .error .outOfRange ↔
      InRangeThroughout files events q)) :
    (p.handle files event >>= yamlParser files events) ≠ .error .outOfRange ↔
      p.InRange event ∧ ∀ q, p.handle files event = .ok q → InRangeThroughout files events q := by
  constructor
  · intro within
    have first : p.handle files event ≠ .error .outOfRange := by
      intro leaves
      rw [leaves] at within
      exact within rfl
    have inRange := indexed.inRange_of_handle first
    refine ⟨inRange, fun q handled => ?_⟩
    rw [handled] at within
    exact (rest q ((indexed.handle inRange).2 q handled)).mp within
  · rintro ⟨inRange, later⟩
    have meets : Meets .outOfRange (p.handle files event >>= yamlParser files events) fun _ => True := by
      refine (indexed.handle inRange).computed.bind fun q handled => ⟨?_, fun _ _ => trivial⟩
      exact (rest q handled.2).mpr (later q handled.1)
    exact meets.1

theorem Indexed.yamlParser_iff (indexed : p.Indexed) :
    yamlParser files events p ≠ .error .outOfRange ↔ InRangeThroughout files events p := by
  induction events generalizing p with
  | nil => exact ⟨fun _ => trivial, fun _ => nofun⟩
  | cons event events ih =>
    have rest (q : ConfigParser) (indexed : q.Indexed) := ih (p := q) indexed
    cases event with
    | streamEnd => exact ⟨fun _ => trivial, fun _ => nofun⟩
    | noEvent => exact ih indexed
    | _ => exact indexed.cons_iff rest

/-- A configuration is parsed within the tables just when no payload ends without an owner and none gets
a fourth secondary hart. -/
theorem yamlParser_inRange_iff (files : ConfigFiles) (events : List YamlEvent) :
    yamlParser files events start ≠ .error .outOfRange ↔ InRangeThroughout files events start :=
  indexed_start.yamlParser_iff

/-- The events of a configuration with a payload that has nothing in its mapping. -/
def ownerless : List YamlEvent :=
  [.streamStart, .documentStart, .mappingStart, .scalar (chars "payloads"), .mappingStart,
    .scalar (chars "a.elf"), .mappingStart, .mappingEnd, .mappingEnd, .mappingEnd, .documentEnd,
    .streamEnd]

def noFiles : ConfigFiles := ⟨fun _ => .missing, fun _ => none⟩

/-- The mode of its owner is set before the owner is asserted. -/
theorem ownerless_outOfRange :
    ¬∀ files events, yamlParser files events start ≠ .error .outOfRange :=
  fun within => within noFiles ownerless rfl

end ConfigParser

end Hss
