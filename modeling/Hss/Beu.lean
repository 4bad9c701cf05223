import Hss.Types

/-! The service that monitors the bus-error units: what it logs and what it counts, over the readings
that the units give it. -/

namespace Hss

/-! ### The service -/

/-- The events of `beu_stats_`. -/
inductive BeuEvent
  | itimCorrectable | itimUncorrectable | tilelinkBusError | dataCacheCorrectable
  | dataCacheUncorrectable
  deriving DecidableEq, Repr

/-- `enum BEU_event_cause` -/
def BeuEvent.bitPosition : BeuEvent → ℕ
  | .itimCorrectable => 2
  | .itimUncorrectable => 3
  | .tilelinkBusError => 5
  | .dataCacheCorrectable => 6
  | .dataCacheUncorrectable => 7

/-- `BIT(beu_stats_[i].bit_position)` -/
def BeuEvent.bit (e : BeuEvent) : Word := 1 <<< e.bitPosition

/-- `beu_stats_` -/
def beuStats : List BeuEvent :=
  [.itimCorrectable, .itimUncorrectable, .tilelinkBusError, .dataCacheCorrectable,
    .dataCacheUncorrectable]

/-- `BEU_ENABLE_MASK` -/
def beuEnableMask : Word :=
  BeuEvent.bit .itimCorrectable ||| BeuEvent.bit .itimUncorrectable |||
    BeuEvent.bit .tilelinkBusError ||| BeuEvent.bit .dataCacheCorrectable |||
    BeuEvent.bit .dataCacheUncorrectable

/-- `BEU_ENABLE_UNCORRECTABLE_MASK` -/
def beuEnableUncorrectableMask : Word :=
  BeuEvent.bit .itimUncorrectable ||| BeuEvent.bit .dataCacheUncorrectable

/-- The registers of a unit. -/
structure BeuRegs where
  accrued : Word
  value : Word
  enable : Word

/-- The lines that the service logs. -/
inductive BeuLine
  | uncorrectable (hart : HartId) (accrued value : Word)
  | event (hart : HartId) (event : BeuEvent)
  deriving DecidableEq, Repr

def BeuLine.hart : BeuLine → HartId
  | .uncorrectable hart _ _ => hart
  | .event hart _ => hart

/-- The units, the static data of the service, and what it logged, oldest line first. -/
structure Beu where
  regs : HartId → BeuRegs
  shadowAccrued : HartId → Word
  shadowValue : HartId → Word
  counter : BeuEvent → Word
  log : List BeuLine

namespace Beu

def setRegs (s : Beu) (hart : HartId) (regs : BeuRegs) : Beu :=
  { s with regs := Function.update s.regs hart regs }

/-- `beu_init_handler` -/
def initHandler (s : Beu) : Beu :=
  { s with regs := fun _ => ⟨0, 0, beuEnableMask⟩ }

/-- One turn of the loop over `beu_stats_`. -/
def countEvent (hart : HartId) (accrued : Word) (s : Beu) (e : BeuEvent) : Beu :=
  if accrued &&& e.bit ≠ 0 then
    let s := { s with counter := Function.update s.counter e (s.counter e + 1) }
    let regs := s.regs hart
    let s := s.setRegs hart { regs with accrued := regs.accrued &&& ~~~e.bit }
    { s with log := s.log ++ [.event hart e] }
  else s

/-- One turn of the loop of `beu_monitoring_handler`. -/
def monitorHart (s : Beu) (hart : HartId) : Beu :=
  let accrued := (s.regs hart).accrued
  let value := (s.regs hart).value
  if accrued &&& beuEnableMask ≠ 0 then
    let s :=
      if accrued &&& beuEnableUncorrectableMask ≠ 0 then
        let s :=
          if (s.regs hart).enable ≠ 0 ∧ value = s.shadowValue hart then
            { s with log := s.log ++ [.uncorrectable hart accrued value] }
          else s
        s.setRegs hart { s.regs hart with enable := 0 }
      else s
    let s := beuStats.foldl (countEvent hart accrued) s
    { s with
      shadowAccrued := Function.update s.shadowAccrued hart accrued
      shadowValue := Function.update s.shadowValue hart value }
  else s

/-- `beu_monitoring_handler` -/
def monitoringHandler (s : Beu) : Beu := harts.foldl monitorHart s

/-- What the units show before a run.  A unit that is not enabled accrues nothing. -/
def observe (reading : HartId → Word × Word) (s : Beu) : Beu :=
  { s with
    regs := fun hart =>
      let regs := s.regs hart
      { regs with
        accrued := if regs.enable = 0 then regs.accrued else (reading hart).1
        value := (reading hart).2 } }

end Beu

/-- The readings of `ACCRUED` and of `VALUE` of each unit, run by run. -/
abbrev BeuReadings := ℕ → HartId → Word × Word

/-- The service after its initialisation, from units with any content. -/
def beuStart (regs : HartId → BeuRegs) : Beu :=
  Beu.initHandler ⟨regs, fun _ => 0, fun _ => 0, fun _ => 0, []⟩

section
variable (regs : HartId → BeuRegs) (readings : BeuReadings)

/-- The service after `n` runs. -/
def beuRun : ℕ → Beu
  | 0 => beuStart regs
  | n + 1 => ((beuRun n).observe (readings n)).monitoringHandler

/-- The units in run `n`, when the service reads them. -/
def beuObserved (n : ℕ) : HartId → BeuRegs := ((beuRun regs readings n).observe (readings n)).regs

end

/-! ### What the service promises -/

/-- The errors that a hart does not survive. -/
def UncorrectableEvent (accrued : Word) : Prop := accrued &&& beuEnableUncorrectableMask ≠ 0

instance (accrued : Word) : Decidable (UncorrectableEvent accrued) :=
  inferInstanceAs (Decidable (_ ≠ _))

/-- Run `k` is the first in which the hart's unit shows such an error. -/
def FirstUncorrectable (readings : BeuReadings) (hart : HartId) (k : ℕ) : Prop :=
  UncorrectableEvent (readings k hart).1 ∧ ∀ j < k, ¬UncorrectableEvent (readings j hart).1

/-- No event is lost, and none is hidden. -/
structure BeuFaithful (regs : HartId → BeuRegs) (readings : BeuReadings) : Prop where
  logged : ∀ hart k, FirstUncorrectable readings hart k → ∃ accrued,
    .uncorrectable hart accrued (readings k hart).2 ∈ (beuRun regs readings (k + 2)).log
  counted : ∀ n e, (beuRun regs readings (n + 1)).counter e = (beuRun regs readings n).counter e +
    BitVec.ofNat 64
      (harts.filter fun h => (beuObserved regs readings n h).accrued &&& e.bit ≠ 0).length
  cleared : ∀ n hart (e : BeuEvent),
    ((beuRun regs readings (n + 1)).regs hart).accrued &&& e.bit = 0
  separate : ∀ readings' hart, (∀ n, readings' n hart = readings n hart) → ∀ n,
    (beuRun regs readings' n).log.filter (·.hart = hart) =
      (beuRun regs readings n).log.filter (·.hart = hart)

/-- The address of the last event before run `n`, or 0. -/
def lastAddress (readings : BeuReadings) (hart : HartId) : ℕ → Word
  | 0 => 0
  | n + 1 =>
    if (readings n hart).1 &&& beuEnableMask ≠ 0 then (readings n hart).2
    else lastAddress readings hart n

/-! ### Events -/

theorem mem_beuStats (e : BeuEvent) : e ∈ beuStats := by cases e <;> decide

theorem count_beuStats (e : BeuEvent) : beuStats.count e = 1 := by cases e <;> decide

theorem and_enableMask {accrued : Word} :
    accrued &&& beuEnableMask = 0 ↔ ∀ e : BeuEvent, accrued &&& e.bit = 0 := by
  constructor
  · intro none e
    have part : beuEnableMask &&& e.bit = e.bit := by cases e <;> decide
    rw [← part, ← BitVec.and_assoc, none]
    exact BitVec.zero_and
  · intro none
    have zero : (0 : Word) ||| 0 = 0 := by decide
    simp only [beuEnableMask, BitVec.and_or_distrib_left, none, zero]

theorem UncorrectableEvent.enabled {accrued : Word} (fatal : UncorrectableEvent accrued) :
    accrued &&& beuEnableMask ≠ 0 := by
  intro none
  refine fatal ?_
  have part : beuEnableMask &&& beuEnableUncorrectableMask = beuEnableUncorrectableMask := by decide
  rw [← part, ← BitVec.and_assoc, none]
  exact BitVec.zero_and

/-- What the loop over `beu_stats_` leaves of a register. -/
def clearEvents (accrued : Word) (events : List BeuEvent) (register : Word) : Word :=
  events.foldl (fun register e => if accrued &&& e.bit ≠ 0 then register &&& ~~~e.bit else register)
    register

theorem clearEvents_keeps {accrued register bit : Word} (events : List BeuEvent)
    (clear : register &&& bit = 0) : clearEvents accrued events register &&& bit = 0 := by
  induction events generalizing register with
  | nil => exact clear
  | cons e events ih =>
    refine ih ?_
    dsimp only
    split
    · rw [BitVec.and_assoc, BitVec.and_comm _ bit, ← BitVec.and_assoc, clear]
      exact BitVec.zero_and
    · exact clear

theorem clearEvents_mem {accrued register : Word} {events : List BeuEvent} {e : BeuEvent}
    (member : e ∈ events) (set : accrued &&& e.bit ≠ 0) :
    clearEvents accrued events register &&& e.bit = 0 := by
  induction events generalizing register with
  | nil => cases member
  | cons f events ih =>
    rcases List.mem_cons.mp member with rfl | later
    · refine clearEvents_keeps events ?_
      dsimp only
      rw [if_pos set, BitVec.and_assoc, BitVec.and_comm _ e.bit, BitVec.and_not_self]
      exact BitVec.and_zero
    · exact ih later

theorem clearEvents_beuStats (accrued : Word) (e : BeuEvent) :
    clearEvents accrued beuStats accrued &&& e.bit = 0 := by
  by_cases set : accrued &&& e.bit = 0
  · exact clearEvents_keeps beuStats set
  · exact clearEvents_mem (mem_beuStats e) set

/-- The events that a register shows. -/
def shownEvents (accrued : Word) (events : List BeuEvent) : List BeuEvent :=
  events.filter fun e => accrued &&& e.bit ≠ 0

theorem shownEvents_cons_pos {accrued : Word} {e : BeuEvent} (set : accrued &&& e.bit ≠ 0)
    (events : List BeuEvent) : shownEvents accrued (e :: events) = e :: shownEvents accrued events :=
  List.filter_cons_of_pos (by simpa using set)

theorem shownEvents_cons_neg {accrued : Word} {e : BeuEvent} (set : ¬accrued &&& e.bit ≠ 0)
    (events : List BeuEvent) : shownEvents accrued (e :: events) = shownEvents accrued events :=
  List.filter_cons_of_neg (by simpa using set)

theorem count_shownEvents (accrued : Word) (e : BeuEvent) :
    (shownEvents accrued beuStats).count e = if accrued &&& e.bit ≠ 0 then 1 else 0 := by
  by_cases set : accrued &&& e.bit ≠ 0
  · rw [shownEvents, List.count_filter (by simpa using set), count_beuStats, if_pos set]
  · rw [if_neg set, List.count_eq_zero, shownEvents, List.mem_filter]
    exact fun member => set (by simpa using member.2)

namespace Beu

variable {s : Beu} {hart other : HartId}

theorem countEvent_pos {accrued : Word} {e : BeuEvent} (set : accrued &&& e.bit ≠ 0) :
    countEvent hart accrued s e =
      { s with
        regs := Function.update s.regs hart
          { s.regs hart with accrued := (s.regs hart).accrued &&& ~~~e.bit }
        counter := Function.update s.counter e (s.counter e + 1)
        log := s.log ++ [.event hart e] } := by
  rw [countEvent, if_pos set]
  rfl

/-- The loop over `beu_stats_`. -/
theorem foldl_countEvent (accrued : Word) (events : List BeuEvent) :
    events.foldl (countEvent hart accrued) s =
      { s with
        regs := Function.update s.regs hart
          { s.regs hart with accrued := clearEvents accrued events (s.regs hart).accrued }
        counter := fun e => s.counter e + BitVec.ofNat 64 ((shownEvents accrued events).count e)
        log := s.log ++ (shownEvents accrued events).map (.event hart) } := by
  induction events generalizing s with
  | nil => simp [clearEvents, shownEvents]
  | cons f events ih =>
    rw [List.foldl_cons, ih, clearEvents, clearEvents, List.foldl_cons]
    by_cases set : accrued &&& f.bit ≠ 0
    · rw [countEvent_pos set, shownEvents_cons_pos set, if_pos set]
      simp only [Function.update_idem, Function.update_self, List.map_cons, List.append_assoc,
        List.singleton_append, mk.injEq, true_and, and_true]
      funext e
      by_cases same : e = f
      · subst same
        rw [Function.update_self, List.count_cons_self, Nat.add_comm, BitVec.ofNat_add,
          ← BitVec.add_assoc]
        rfl
      · rw [Function.update_of_ne same, List.count_cons_of_ne (Ne.symm same)]
    · rw [countEvent, if_neg set, shownEvents_cons_neg set, if_neg set]

/-- The part of the state that belongs to one hart. -/
structure Part where
  regs : BeuRegs
  shadowValue : Word
  lines : List BeuLine

/-- What the service keeps of a hart. -/
def part (s : Beu) (hart : HartId) : Part :=
  ⟨s.regs hart, s.shadowValue hart, s.log.filter (·.hart = hart)⟩

/-- The lines of a run that observes events. -/
def newLines (hart : HartId) (p : Part) : List BeuLine :=
  (if UncorrectableEvent p.regs.accrued ∧ p.regs.enable ≠ 0 ∧ p.regs.value = p.shadowValue then
    [.uncorrectable hart p.regs.accrued p.regs.value] else []) ++
    (shownEvents p.regs.accrued beuStats).map (.event hart)

/-- A run of the service, for one hart. -/
def Part.monitor (hart : HartId) (p : Part) : Part :=
  if p.regs.accrued &&& beuEnableMask ≠ 0 then
    { regs :=
        { accrued := clearEvents p.regs.accrued beuStats p.regs.accrued
          value := p.regs.value
          enable := if UncorrectableEvent p.regs.accrued then 0 else p.regs.enable }
      shadowValue := p.regs.value
      lines := p.lines ++ newLines hart p }
  else p

theorem Part.monitor_pos {p : Part} (enabled : p.regs.accrued &&& beuEnableMask ≠ 0) :
    p.monitor hart =
      { regs :=
          { accrued := clearEvents p.regs.accrued beuStats p.regs.accrued
            value := p.regs.value
            enable := if UncorrectableEvent p.regs.accrued then 0 else p.regs.enable }
        shadowValue := p.regs.value
        lines := p.lines ++ newLines hart p } := if_pos enabled

theorem Part.monitor_neg {p : Part} (quiet : ¬p.regs.accrued &&& beuEnableMask ≠ 0) :
    p.monitor hart = p := if_neg quiet

theorem monitorHart_pos (enabled : (s.regs hart).accrued &&& beuEnableMask ≠ 0) :
    s.monitorHart hart =
      { regs := Function.update s.regs hart
          { accrued := clearEvents (s.regs hart).accrued beuStats (s.regs hart).accrued
            value := (s.regs hart).value
            enable := if UncorrectableEvent (s.regs hart).accrued then 0 else (s.regs hart).enable }
        shadowAccrued := Function.update s.shadowAccrued hart (s.regs hart).accrued
        shadowValue := Function.update s.shadowValue hart (s.regs hart).value
        counter := fun e => s.counter e +
          BitVec.ofNat 64 ((shownEvents (s.regs hart).accrued beuStats).count e)
        log := s.log ++ newLines hart (s.part hart) } := by
  rw [monitorHart, if_pos enabled]
  dsimp only
  rw [newLines, part]
  by_cases fatal : (s.regs hart).accrued &&& beuEnableUncorrectableMask ≠ 0
  · have uncorrectable : UncorrectableEvent (s.regs hart).accrued := fatal
    rw [if_pos fatal, foldl_countEvent, if_pos uncorrectable]
    by_cases report : (s.regs hart).enable ≠ 0 ∧ (s.regs hart).value = s.shadowValue hart
    · rw [if_pos report, if_pos ⟨uncorrectable, report⟩]
      simp [setRegs]
    · rw [if_neg report, if_neg fun h => report h.2]
      simp [setRegs]
  · have correctable : ¬UncorrectableEvent (s.regs hart).accrued := fatal
    rw [if_neg fatal, foldl_countEvent, if_neg correctable, if_neg fun h => correctable h.1]
    rfl

theorem monitorHart_neg (quiet : ¬(s.regs hart).accrued &&& beuEnableMask ≠ 0) :
    s.monitorHart hart = s := by
  rw [monitorHart, if_neg quiet]

theorem hart_of_mem_newLines {p : Part} {line : BeuLine} (member : line ∈ newLines hart p) :
    line.hart = hart := by
  rcases List.mem_append.mp member with first | event
  · split at first
    · rw [List.mem_singleton.mp first]
      rfl
    · cases first
  · obtain ⟨e, -, rfl⟩ := List.mem_map.mp event
    rfl

theorem mem_newLines {p : Part} {accrued value : Word} :
    .uncorrectable hart accrued value ∈ newLines hart p ↔
      (UncorrectableEvent p.regs.accrued ∧ p.regs.enable ≠ 0 ∧ p.regs.value = p.shadowValue) ∧
        accrued = p.regs.accrued ∧ value = p.regs.value := by
  have noEvent : BeuLine.uncorrectable hart accrued value ∉
      (shownEvents p.regs.accrued beuStats).map (.event hart) := by simp
  rw [newLines, List.mem_append, or_iff_left noEvent]
  split
  · next report =>
    rw [List.mem_singleton, BeuLine.uncorrectable.injEq, and_iff_right report, and_iff_right rfl]
  · next silent => exact iff_of_false nofun fun h => silent h.1

/-- A turn for a hart is a run of its part, and leaves the parts of the others as they are. -/
theorem monitorHart_part : (s.monitorHart hart).part hart = (s.part hart).monitor hart := by
  by_cases enabled : (s.regs hart).accrued &&& beuEnableMask ≠ 0
  · rw [monitorHart_pos enabled, Part.monitor_pos (p := s.part hart) enabled]
    have own : (newLines hart (s.part hart)).filter (·.hart = hart) = newLines hart (s.part hart) :=
      List.filter_eq_self.mpr fun line member => decide_eq_true (hart_of_mem_newLines member)
    rw [part]
    dsimp only
    rw [Function.update_self, Function.update_self, List.filter_append, own]
    rfl
  · rw [monitorHart_neg enabled, Part.monitor_neg (p := s.part hart) enabled]

theorem monitorHart_of_ne (ne : other ≠ hart) : (s.monitorHart hart).part other = s.part other := by
  by_cases enabled : (s.regs hart).accrued &&& beuEnableMask ≠ 0
  · rw [monitorHart_pos enabled]
    have none : (newLines hart (s.part hart)).filter (·.hart = other) = [] :=
      List.filter_eq_nil_iff.mpr fun line member => by
        rw [hart_of_mem_newLines member]
        simpa using ne.symm
    rw [part]
    dsimp only
    rw [Function.update_of_ne ne, Function.update_of_ne ne, List.filter_append, none,
      List.append_nil]
    rfl
  · rw [monitorHart_neg enabled]

theorem monitorHart_counter (e : BeuEvent) : (s.monitorHart hart).counter e =
    s.counter e + BitVec.ofNat 64 ((shownEvents (s.regs hart).accrued beuStats).count e) := by
  by_cases enabled : (s.regs hart).accrued &&& beuEnableMask ≠ 0
  · rw [monitorHart_pos enabled]
  · rw [monitorHart_neg enabled, count_shownEvents,
      if_neg (not_not.mpr (and_enableMask.mp (not_not.mp enabled) e))]
    exact (BitVec.add_zero _).symm

theorem foldl_monitorHart_part {harts : List HartId} (nodup : harts.Nodup) :
    (harts.foldl monitorHart s).part hart =
      if hart ∈ harts then (s.part hart).monitor hart else s.part hart := by
  induction harts generalizing s with
  | nil => rfl
  | cons first harts ih =>
    obtain ⟨absent, nodup⟩ := List.nodup_cons.mp nodup
    rw [List.foldl_cons, ih nodup]
    by_cases same : hart = first
    · subst same
      rw [if_neg absent, if_pos (List.mem_cons_self ..), monitorHart_part]
    · rw [monitorHart_of_ne same]
      simp [same]

theorem monitoringHandler_part : s.monitoringHandler.part hart = (s.part hart).monitor hart := by
  rw [monitoringHandler, foldl_monitorHart_part (by decide), if_pos (mem_harts hart)]

theorem foldl_monitorHart_counter {harts : List HartId} (nodup : harts.Nodup) (e : BeuEvent) :
    (harts.foldl monitorHart s).counter e = s.counter e +
      BitVec.ofNat 64 (harts.filter fun h => (s.regs h).accrued &&& e.bit ≠ 0).length := by
  induction harts generalizing s with
  | nil => exact (BitVec.add_zero _).symm
  | cons first harts ih =>
    obtain ⟨absent, nodup⟩ := List.nodup_cons.mp nodup
    have others : harts.filter (fun h => ((s.monitorHart first).regs h).accrued &&& e.bit ≠ 0) =
        harts.filter fun h => (s.regs h).accrued &&& e.bit ≠ 0 := by
      refine List.filter_congr fun h member => ?_
      have ne : h ≠ first := by
        rintro rfl
        exact absent member
      have kept := congrArg Part.regs (monitorHart_of_ne (s := s) ne)
      rw [show (s.monitorHart first).regs h = s.regs h from kept]
    rw [List.foldl_cons, ih nodup, others, monitorHart_counter, count_shownEvents, BitVec.add_assoc,
      ← BitVec.ofNat_add]
    by_cases set : (s.regs first).accrued &&& e.bit ≠ 0
    · rw [if_pos set, List.filter_cons_of_pos (by simpa using set), List.length_cons, Nat.add_comm]
    · rw [if_neg set, List.filter_cons_of_neg (by simpa using set), Nat.zero_add]

end Beu

/-! ### Runs -/

section
variable {regs : HartId → BeuRegs} {readings : BeuReadings} {hart : HartId} {n k : ℕ}

/-- The part of a hart that a run observes. -/
def Beu.Part.observe (reading : Word × Word) (p : Beu.Part) : Beu.Part :=
  { p with
    regs := { p.regs with
      accrued := if p.regs.enable = 0 then p.regs.accrued else reading.1
      value := reading.2 } }

theorem beuRun_part : (beuRun regs readings (n + 1)).part hart =
    (((beuRun regs readings n).part hart).observe (readings n hart)).monitor hart :=
  Beu.monitoringHandler_part

/-- Before the first such error the unit is enabled, the address is the last one, and no line is of
such an error. -/
theorem beuRun_before (correctable : ∀ j < n, ¬UncorrectableEvent (readings j hart).1) :
    ((beuRun regs readings n).part hart).regs.enable = beuEnableMask ∧
      ((beuRun regs readings n).part hart).shadowValue = lastAddress readings hart n ∧
      ∀ accrued value,
        .uncorrectable hart accrued value ∉ ((beuRun regs readings n).part hart).lines := by
  induction n with
  | zero => exact ⟨rfl, rfl, fun _ _ => nofun⟩
  | succ n ih =>
    obtain ⟨enable, shadow, none⟩ := ih fun j less => correctable j (Nat.lt_succ_of_lt less)
    have on : beuEnableMask ≠ 0 := by decide
    have shown : (((beuRun regs readings n).part hart).observe (readings n hart)).regs.accrued =
        (readings n hart).1 := by
      rw [Beu.Part.observe]
      dsimp only
      rw [enable, if_neg on]
    rw [beuRun_part, lastAddress]
    by_cases enabled : (readings n hart).1 &&& beuEnableMask ≠ 0
    · rw [if_pos enabled, Beu.Part.monitor_pos (shown ▸ enabled), shown,
        if_neg (correctable n (Nat.lt_succ_self n))]
      refine ⟨enable, rfl, fun accrued value member => ?_⟩
      rcases List.mem_append.mp member with before | new
      · exact none accrued value before
      · rw [Beu.mem_newLines, shown] at new
        exact correctable n (Nat.lt_succ_self n) new.1.1
    · rw [if_neg enabled, Beu.Part.monitor_neg (shown ▸ enabled)]
      exact ⟨enable, shadow, none⟩

theorem mem_log_iff {s : Beu} {accrued value : Word} :
    .uncorrectable hart accrued value ∈ s.log ↔
      .uncorrectable hart accrued value ∈ (s.part hart).lines := by
  rw [Beu.part, List.mem_filter]
  exact (and_iff_left (decide_eq_true rfl)).symm

/-- The first such error is logged in its run, if it is at the last address, or never. -/
theorem beuRun_first (first : FirstUncorrectable readings hart k) {accrued value : Word} :
    .uncorrectable hart accrued value ∈ (beuRun regs readings (k + 2)).log ↔
      (readings k hart).2 = lastAddress readings hart k ∧
        accrued = (readings k hart).1 ∧ value = (readings k hart).2 := by
  obtain ⟨enable, shadow, none⟩ := @beuRun_before regs readings hart k first.2
  have on : beuEnableMask ≠ 0 := by decide
  have shown : (((beuRun regs readings k).part hart).observe (readings k hart)).regs.accrued =
      (readings k hart).1 := by
    rw [Beu.Part.observe]
    dsimp only
    rw [enable, if_neg on]
  have after : (beuRun regs readings (k + 1)).part hart = _ :=
    beuRun_part.trans (Beu.Part.monitor_pos (shown ▸ first.1.enabled))
  -- the unit is off, and its events are cleared
  have off : ((beuRun regs readings (k + 1)).part hart).regs.enable = 0 := by
    rw [after, shown]
    exact if_pos first.1
  have cleared : ((beuRun regs readings (k + 1)).part hart).regs.accrued &&& beuEnableMask = 0 := by
    rw [after]
    exact and_enableMask.mpr (clearEvents_beuStats _)
  have quiet : ((beuRun regs readings (k + 2)).part hart).lines =
      ((beuRun regs readings (k + 1)).part hart).lines := by
    have kept : (((beuRun regs readings (k + 1)).part hart).observe
        (readings (k + 1) hart)).regs.accrued =
          ((beuRun regs readings (k + 1)).part hart).regs.accrued := if_pos off
    rw [beuRun_part, Beu.Part.monitor_neg (by rw [kept, cleared]; simp)]
    rfl
  have old : .uncorrectable hart accrued value ∉
      (((beuRun regs readings k).part hart).observe (readings k hart)).lines := none accrued value
  rw [mem_log_iff, quiet, after, List.mem_append, or_iff_right old, Beu.mem_newLines, shown]
  have enabled : (((beuRun regs readings k).part hart).observe (readings k hart)).regs.enable ≠ 0 :=
    fun zero => on (enable.symm.trans zero)
  have last : (((beuRun regs readings k).part hart).observe (readings k hart)).shadowValue =
      lastAddress readings hart k := shadow
  rw [last]
  exact ⟨fun h => ⟨h.1.2.2, h.2⟩, fun h => ⟨⟨first.1, enabled, h.1⟩, h.2⟩⟩

/-- The readings of one hart decide its part. -/
theorem beuRun_separate {readings' : BeuReadings} (same : ∀ n, readings' n hart = readings n hart) :
    (beuRun regs readings' n).part hart = (beuRun regs readings n).part hart := by
  induction n with
  | zero => rfl
  | succ n ih => rw [beuRun_part, beuRun_part, ih, same]

theorem beuRun_cleared (e : BeuEvent) :
    ((beuRun regs readings (n + 1)).regs hart).accrued &&& e.bit = 0 := by
  change ((beuRun regs readings (n + 1)).part hart).regs.accrued &&& e.bit = 0
  rw [beuRun_part]
  generalize ((beuRun regs readings n).part hart).observe (readings n hart) = p
  by_cases enabled : p.regs.accrued &&& beuEnableMask ≠ 0
  · rw [Beu.Part.monitor_pos enabled]
    exact clearEvents_beuStats _ e
  · rw [Beu.Part.monitor_neg enabled]
    exact and_enableMask.mp (not_not.mp enabled) e

end

/-- Events are neither lost nor hidden exactly when the first uncorrectable error of each hart is at
the address of the hart's last event before it, or at 0 if it had none. -/
theorem beuFaithful_iff (regs : HartId → BeuRegs) (readings : BeuReadings) :
    BeuFaithful regs readings ↔ ∀ hart k, FirstUncorrectable readings hart k →
      (readings k hart).2 = lastAddress readings hart k := by
  constructor
  · intro faithful hart k first
    obtain ⟨accrued, logged⟩ := faithful.logged hart k first
    exact ((beuRun_first first).mp logged).1
  · intro repeated
    refine ⟨fun hart k first => ⟨_, (beuRun_first first).mpr ⟨repeated hart k first, rfl, rfl⟩⟩,
      fun n e => ?_, fun n hart e => beuRun_cleared e, fun readings' hart same n => ?_⟩
    · exact Beu.foldl_monitorHart_counter (by decide) e
    · exact congrArg Beu.Part.lines (beuRun_separate same)

/-- The first error of every hart is an uncorrectable one of the data cache. -/
def dataCacheErrors : BeuReadings := fun _ _ => (0x80, 0x80000000)

/-- It is counted, and no line has its address. -/
theorem dataCacheErrors_hidden : ¬∀ regs readings, BeuFaithful regs readings := by
  intro faithful
  have first : FirstUncorrectable dataCacheErrors .e51 0 := ⟨by decide, fun _ => nofun⟩
  obtain ⟨accrued, logged⟩ := (faithful (fun _ => ⟨0, 0, 0⟩) dataCacheErrors).logged .e51 0 first
  exact absurd ((beuRun_first first).mp logged).1 (by decide)

end Hss
