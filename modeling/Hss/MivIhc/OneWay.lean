import Hss.MivIhc.Delivery

/-! Channels that are used in one direction only, and channels that are used in both. -/

namespace Hss

open Runs

/-- The hart is in a call that sends to `remote`. -/
def IhcPc.transmits (remote : HartId) : IhcPc → Bool
  | .checkRmp r _ | .checkAck r _ | .fill r _ _ | .readToSend r _ | .send r _ _ => r = remote
  | _ => false

/-- The hart is at an acknowledgement from `remote`. -/
def IhcPc.clears (remote : HartId) : IhcPc → Bool
  | .readToClear r | .clear r _ => r = remote
  | _ => false

/-- The hart has read the value from its register of the channel to `remote`, to write it back. -/
inductive IhcPc.Holds (remote : HartId) (ctl : BitVec 32) : IhcPc → Prop
  | send (message : ℕ → BitVec 32) : Holds remote ctl (.send remote message ctl)
  | take : Holds remote ctl (.take remote ctl)
  | clear : Holds remote ctl (.clear remote ctl)

namespace IhcSystem

variable {ip : MivIhc} {setup : IhcSetup} {s t : IhcSystem ip} {a b hart r : HartId} {v : BitVec 32}

/-- What a turn writes to the subsystem. -/
inductive Wrote (s : IhcSystem ip) (hart : HartId) (block : ip.State) : Prop
  | nothing (same : block = s.block)
  | word {r : HartId} {message : ℕ → BitVec 32} {i : ℕ} (pc : s.pc hart = .fill r message i)
      (same : block = ip.writeMesgOut hart r i (message i) s.block)
  | send {r : HartId} {message : ℕ → BitVec 32} {ctl : BitVec 32} (pc : s.pc hart = .send r message ctl)
      (same : block = ip.writeCtlReg hart r (ctl ||| rmpMessagePresent) s.block)
  | take {r : HartId} {ctl : BitVec 32} (pc : s.pc hart = .take r ctl)
      (same : block = ip.writeCtlReg hart r (takeValue ctl) s.block)
  | clear {r : HartId} {ctl : BitVec 32} (pc : s.pc hart = .clear r ctl)
      (same : block = ip.writeCtlReg hart r (ctl &&& ~~~ackClr) s.block)

theorem turn_wrote (setup : IhcSetup) (s : IhcSystem ip) (hart : HartId) :
    s.Wrote hart (s.turn setup hart).block := by
  unfold turn
  cases pc : s.pc hart with
  | fill =>
    dsimp only
    split
    · exact .word pc rfl
    · exact .nothing rfl
  | send => exact .send pc rfl
  | take => exact .take pc rfl
  | clear => exact .clear pc rfl
  | scanAck polling left =>
    cases left with
    | nil => exact .nothing rfl
    | cons =>
      dsimp only
      repeat' split
      all_goals exact .nothing rfl
  | _ =>
    dsimp only
    repeat' split
    all_goals exact .nothing rfl

/-- A hart comes to transmit by a call, to clear an acknowledgement that the aggregator shows, and to
write back what its register has. -/
theorem turn_transmits (transmits : ((s.turn setup hart).pc hart).transmits b = true) :
    (s.pc hart).transmits b = true := by
  have goes := turn_goes setup s hart
  generalize (s.turn setup hart).pc hart = after, s.pc hart = before at goes transmits ⊢
  cases goes <;> first | exact transmits | cases transmits

theorem turn_clears (clears : ((s.turn setup hart).pc hart).clears b = true) :
    (s.pc hart).clears b = true ∨ (ip.msgAvail s.block hart).getLsbD (2 * b.num + 1) = true := by
  have goes := turn_goes setup s hart
  generalize (s.turn setup hart).pc hart = after, s.pc hart = before at goes clears ⊢
  cases goes with
  | ack polling r left shown =>
    obtain rfl : r = b := of_decide_eq_true clears
    have below := r.num_le
    refine .inr ((and_twoPow_eq_iff _ _ (by omega)).mp ?_)
    have split := BitVec.and_twoPow (ip.msgAvail s.block hart) (2 * r.num + 1)
    rw [split, if_pos]
    by_contra none
    rw [if_neg none] at split
    exact shown split
  | readToClear r => exact .inl clears
  | _ => cases clears

theorem turn_holds (holds : ((s.turn setup hart).pc hart).Holds b v) :
    v = ip.ctlReg s.block hart b := by
  have goes := turn_goes setup s hart
  generalize (s.turn setup hart).pc hart = after, s.pc hart = before at goes holds
  cases goes <;> cases holds <;> rfl

/-! ### No acknowledgements -/

/-- The side neither has an acknowledgement nor gives one. -/
structure Unasked (s : IhcSystem ip) (a b : HartId) : Prop where
  ack : (ip.ctlReg s.block a b).getLsbD 3 = false
  ackie : (ip.ctlReg s.block a b).getLsbD 5 = false
  clears : (s.pc a).clears b = false
  holds : ∀ v, (s.pc a).Holds b v → v.getLsbD 3 = false ∧ v.getLsbD 5 = false

/-- A write that neither acknowledges nor asks for an acknowledgement -/
theorem Unasked.written (unasked : s.Unasked a b) {x y : HartId}
    (none : x ≠ y → v.getLsbD 3 = false ∧ v.getLsbD 5 = false) (ne : a ≠ b) :
    (ip.ctlReg (ip.writeCtlReg x y v s.block) a b).getLsbD 3 = false ∧
      (ip.ctlReg (ip.writeCtlReg x y v s.block) a b).getLsbD 5 = false := by
  by_cases own : a = x ∧ b = y
  · obtain ⟨rfl, rfl⟩ := own
    refine ⟨eq_false_of_ne_true fun raised => ?_, (ip.ackie_written _ _ _ _ ne).trans (none ne).2⟩
    exact Bool.false_ne_true (unasked.ack.symm.trans (ip.ack_own _ _ _ _ ne raised))
  by_cases other : a = y ∧ b = x
  · obtain ⟨rfl, rfl⟩ := other
    refine ⟨eq_false_of_ne_true fun raised => ?_, (ip.ackie_other _ _ _ _ ne.symm).trans unasked.ackie⟩
    rcases ip.ack_raised _ _ _ _ ne.symm raised with before | written
    · exact Bool.false_ne_true (unasked.ack.symm.trans before)
    · exact Bool.false_ne_true ((none ne.symm).1.symm.trans written)
  · rw [ip.ctlReg_apart _ _ _ _ _ _ own other]
    exact ⟨unasked.ack, unasked.ackie⟩

theorem takeValue_of_unasked (ack : v.getLsbD 3 = false) (ackie : v.getLsbD 5 = false) :
    (takeValue v).getLsbD 3 = false ∧ (takeValue v).getLsbD 5 = false := by
  have none : v &&& ~~~mpMessagePresent &&& ackieEn = 0 := by
    have split := BitVec.and_twoPow (v &&& ~~~mpMessagePresent) 5
    rw [if_neg] at split
    · exact split
    · rw [BitVec.getLsbD_and, ackie]
      exact Bool.false_ne_true
  rw [takeValue, if_neg (not_not.mpr none), BitVec.getLsbD_and, BitVec.getLsbD_and, ack, ackie]
  exact ⟨rfl, rfl⟩

theorem Unasked.turn (unasked : ∀ a b, a ≠ b → s.Unasked a b) (hart : HartId) (ne : a ≠ b) :
    (s.turn setup hart).Unasked a b := by
  have here := unasked a b ne
  have wrote := turn_wrote setup s hart
  have bits : (ip.ctlReg (s.turn setup hart).block a b).getLsbD 3 = false ∧
      (ip.ctlReg (s.turn setup hart).block a b).getLsbD 5 = false := by
    cases wrote with
    | nothing same =>
      rw [same]
      exact ⟨here.ack, here.ackie⟩
    | word pc same =>
      rw [same, ip.ctlReg_mesgOut]
      exact ⟨here.ack, here.ackie⟩
    | @send r message ctl pc same =>
      rw [same]
      refine here.written (fun other => ?_) ne
      obtain ⟨ack, ackie⟩ := (unasked hart r other).holds ctl (pc ▸ .send message)
      rw [or_rmp_bit, or_rmp_bit, ack, ackie]
      exact ⟨rfl, rfl⟩
    | @take r ctl pc same =>
      rw [same]
      refine here.written (fun other => ?_) ne
      obtain ⟨ack, ackie⟩ := (unasked hart r other).holds ctl (pc ▸ .take)
      exact takeValue_of_unasked ack ackie
    | @clear r ctl pc same =>
      rw [same]
      refine here.written (fun other => ?_) ne
      have none := (unasked hart r other).clears
      rw [pc] at none
      exact absurd none (by simp [IhcPc.clears])
  refine ⟨bits.1, bits.2, eq_false_of_ne_true fun clears => ?_, fun v holds => ?_⟩
  · by_cases own : a = hart
    · subst own
      rcases turn_clears clears with before | shown
      · exact Bool.false_ne_true (here.clears.symm.trans before)
      · rw [ip.msgAvail_ack _ _ _ ne, here.ack] at shown
        cases shown
    · rw [turn_pc own] at clears
      exact Bool.false_ne_true (here.clears.symm.trans clears)
  · by_cases own : a = hart
    · subst own
      rw [turn_holds holds]
      exact ⟨here.ack, here.ackie⟩
    · rw [turn_pc own] at holds
      exact here.holds v holds

/-! ### Who sends -/

/-- The hart `a` sends nothing to `b`. -/
structure Silent (s : IhcSystem ip) (a b : HartId) : Prop where
  transmits : (s.pc a).transmits b = false
  none : s.announced a b = false

/-- Only a transmission announces a message. -/
theorem Silent.turn (silent : s.Silent a b) (channels : s.Channels) (unasked : ∀ a b, a ≠ b → s.Unasked a b)
    (hart : HartId) (ne : a ≠ b) : (s.turn setup hart).Silent a b := by
  refine ⟨eq_false_of_ne_true fun transmits => ?_, ?_⟩
  · refine Bool.false_ne_true (silent.transmits.symm.trans ?_)
    by_cases own : a = hart
    · subst own
      exact turn_transmits transmits
    · rwa [turn_pc own] at transmits
  have before : (ip.ctlReg s.block a b).getLsbD 0 = false := silent.none
  show (ip.ctlReg (s.turn setup hart).block a b).getLsbD 0 = false
  cases turn_wrote setup s hart with
  | nothing same => rwa [same]
  | word pc same => rwa [same, ip.ctlReg_mesgOut]
  | @send r message ctl pc same =>
    rw [same]
    by_cases own : a = hart ∧ b = r
    · obtain ⟨rfl, rfl⟩ := own
      have transmits := silent.transmits
      rw [pc] at transmits
      exact absurd transmits (by simp [IhcPc.transmits])
    by_cases other : a = r ∧ b = hart
    · obtain ⟨rfl, rfl⟩ := other
      have upToDate := (channels b a ne.symm).upToDate
      rw [pc] at upToDate
      rw [ip.rmp_eq_mp _ _ _ ne, ip.mp_kept _ _ _ _ ne.symm, ← ip.rmp_eq_mp _ _ _ ne]
      · exact before
      · rw [or_rmp_bit]
        exact (Bool.or_false _).trans (upToDate rfl).2
    · rwa [ip.ctlReg_apart _ _ _ _ _ _ own other]
  | @take r ctl pc same =>
    rw [same]
    by_cases own : a = hart ∧ b = r
    · obtain ⟨rfl, rfl⟩ := own
      have upToDate := (channels a b ne).upToDate
      rw [pc] at upToDate
      rw [ip.rmp_kept _ _ _ _ ne]
      · exact before
      · rw [takeValue_bit _ (by decide) rfl rfl]
        exact (upToDate rfl).1
    by_cases other : a = r ∧ b = hart
    · obtain ⟨rfl, rfl⟩ := other
      rw [ip.rmp_eq_mp _ _ _ ne]
      exact ip.mp_cleared _ _ _ _ ne.symm (takeValue_mp ctl)
    · rwa [ip.ctlReg_apart _ _ _ _ _ _ own other]
  | @clear r ctl pc same =>
    rw [same]
    by_cases apart : r = hart
    · subst apart
      rwa [ip.ctlReg_apart _ _ _ _ _ _ (fun both => ne (both.1.trans both.2.symm))
        (fun both => ne (both.1.trans both.2.symm))]
    · have none := (unasked hart r (Ne.symm apart)).clears
      rw [pc] at none
      exact absurd none (by simp [IhcPc.clears])

/-- In no channel do both sides send, and what follows from it so far. -/
structure OneWay (sends : HartId → HartId → Prop) (s : IhcSystem ip) : Prop where
  channels : s.Channels
  unasked : ∀ a b, a ≠ b → s.Unasked a b
  silent : ∀ a b, a ≠ b → ¬sends a b → s.Silent a b

theorem sendsTo_or_takesFrom {pc : IhcPc} (writesBack : pc.writesBack r = true) (clears : pc.clears r = false) :
    pc.sendsTo r = true ∨ pc.takesFrom r = true := by
  cases pc with
  | send => exact .inl writesBack
  | take => exact .inr writesBack
  | clear => exact absurd (clears.symm.trans writesBack) Bool.false_ne_true
  | _ => cases writesBack

theorem transmits_of_sendsTo {pc : IhcPc} (sends : pc.sendsTo r = true) : pc.transmits r = true := by
  cases pc <;> first | exact sends | cases sends

/-- So no turn disturbs the other side. -/
theorem OneWay.undisturbed {sends : HartId → HartId → Prop} (oneWay : OneWay sends s)
    (way : ∀ a b, a ≠ b → sends a b → ¬sends b a) (action : IhcAction) : Undisturbed s action := by
  cases action with
  | tx | messagePresent => trivial
  | turn hart =>
    intro remote ne mine
    by_contra theirs
    have there := oneWay.channels remote hart ne.symm
    have here := oneWay.channels hart remote ne
    -- both transmit, or both messages are announced, or one message is both there and not
    have both : ¬(sends hart remote ∧ sends remote hart) := fun both => way _ _ ne both.1 both.2
    have silent (none : ¬sends hart remote) := oneWay.silent hart remote ne none
    have silent' (none : ¬sends remote hart) := oneWay.silent remote hart ne.symm none
    rcases sendsTo_or_takesFrom mine (oneWay.unasked hart remote ne).clears with sending | taking <;>
      rcases sendsTo_or_takesFrom (eq_true_of_ne_false theirs) (oneWay.unasked remote hart ne.symm).clears
        with sending' | taking'
    · by_cases first : sends hart remote
      · have none := (silent' fun second => both ⟨first, second⟩).transmits
        rw [transmits_of_sendsTo sending'] at none
        cases none
      · have none := (silent first).transmits
        rw [transmits_of_sendsTo sending] at none
        cases none
    · exact Bool.false_ne_true ((here.free sending).symm.trans (here.present taking'))
    · exact Bool.false_ne_true ((there.free sending').symm.trans (there.present taking))
    · by_cases first : sends hart remote
      · have none := (silent' fun second => both ⟨first, second⟩).none
        exact Bool.false_ne_true (none.symm.trans (there.present taking))
      · exact Bool.false_ne_true ((silent first).none.symm.trans (here.present taking'))

theorem OneWay.step {sends : HartId → HartId → Prop} (oneWay : OneWay sends s)
    (way : ∀ a b, a ≠ b → sends a b → ¬sends b a) {action : IhcAction}
    (step : ihcStep setup sends s action t) : OneWay sends t := by
  refine ⟨oneWay.channels.step (oneWay.undisturbed way action) step, fun a b ne => ?_, fun a b ne none => ?_⟩
  · have unasked := oneWay.unasked a b ne
    have begun {hart : HartId} {pc : IhcPc} (clears : pc.clears b = false)
        (holds : ∀ v, ¬pc.Holds b v) : (s.goto hart pc).Unasked a b := by
      refine ⟨unasked.ack, unasked.ackie, ?_, fun v held => ?_⟩
      · by_cases own : a = hart
        · subst own
          rwa [goto_pc_self]
        · rw [goto_pc _ own]
          exact unasked.clears
      · by_cases own : a = hart
        · subst own
          rw [goto_pc_self] at held
          exact absurd held (holds v)
        · rw [goto_pc _ own] at held
          exact unasked.holds v held
    cases action with
    | tx hart remote message =>
      obtain ⟨-, -, -, rfl⟩ := step
      exact begun rfl nofun
    | messagePresent hart polling =>
      obtain ⟨-, rfl⟩ := step
      exact begun rfl nofun
    | turn hart =>
      cases step
      exact Unasked.turn oneWay.unasked hart ne
  · have silent := oneWay.silent a b ne none
    have begun {hart : HartId} {pc : IhcPc} (transmits : a = hart → pc.transmits b = false) :
        (s.goto hart pc).Silent a b := by
      refine ⟨?_, silent.none⟩
      by_cases own : a = hart
      · subst own
        rw [goto_pc_self]
        exact transmits rfl
      · rw [goto_pc _ own]
        exact silent.transmits
    cases action with
    | tx hart remote message =>
      obtain ⟨-, -, may, rfl⟩ := step
      refine begun fun own => decide_eq_false fun same => ?_
      subst own same
      exact none may
    | messagePresent hart polling =>
      obtain ⟨-, rfl⟩ := step
      exact begun fun _ => rfl
    | turn hart =>
      cases step
      exact silent.turn oneWay.channels oneWay.unasked hart ne

theorem oneWay_start (sends : HartId → HartId → Prop) (cfg : Config) (block : ip.State) :
    OneWay sends (ihcStart ip cfg block) := by
  refine ⟨channels_start cfg block, fun a b ne => ?_, fun a b ne _ => ⟨rfl, ?_⟩⟩
  · have clear := MivIhc.allClear_hssIhcInit cfg block a b ne
    exact ⟨clear.ack, clear.ackie, rfl, nofun⟩
  · exact (ip.rmp_eq_mp _ _ _ ne).trans (MivIhc.allClear_hssIhcInit cfg block b a ne.symm).mp

/-- Where each channel is used in one direction, every run loses no message. -/
theorem conserves_of_oneWay {sends : HartId → HartId → Prop}
    (way : ∀ a b, a ≠ b → sends a b → ¬sends b a) (cfg : Config) (block : ip.State)
    {actions : List IhcAction} (run : Run (ihcStep setup sends) (ihcStart ip cfg block) actions s) :
    s.Conserves :=
  (run.invariant (oneWay_start sends cfg block) fun _ _ _ oneWay step =>
    oneWay.step way step).channels.conserves

/-! ### Both directions -/

section
variable {sends : HartId → HartId → Prop} {message : ℕ → BitVec 32}

/-- The same but for where one hart is, and for the contents of the buffers. -/
structure Reaches (s : IhcSystem ip) (hart : HartId) (pc : IhcPc) (t : IhcSystem ip) : Prop where
  pc : t.pc = Function.update s.pc hart pc
  ctl : ip.ctlReg t.block = ip.ctlReg s.block
  sent : t.sent = s.sent
  delivered : t.delivered = s.delivered

theorem Reaches.goto (s : IhcSystem ip) (hart : HartId) (pc : IhcPc) : s.Reaches hart pc (s.goto hart pc) :=
  ⟨rfl, rfl, rfl, rfl⟩

theorem Reaches.trans {pc pc' : IhcPc} {u : IhcSystem ip} (first : s.Reaches hart pc t)
    (second : t.Reaches hart pc' u) : s.Reaches hart pc' u where
  pc := by rw [second.pc, first.pc, Function.update_idem]
  ctl := second.ctl.trans first.ctl
  sent := second.sent.trans first.sent
  delivered := second.delivered.trans first.delivered

theorem Reaches.here {pc : IhcPc} (reaches : s.Reaches hart pc t) : t.pc hart = pc := by
  rw [reaches.pc, Function.update_self]

theorem ihcStep_turn (s : IhcSystem ip) (hart : HartId) :
    ihcStep setup sends s (.turn hart) (s.turn setup hart) := rfl

/-- The words are put into the buffer one turn each. -/
theorem exists_filled (setup : IhcSetup) (sends : HartId → HartId → Prop) (left i : ℕ)
    (at_ : s.pc hart = .fill r message i) (all : ip.sizeMsg hart r = i + left) :
    ∃ actions t, Run (ihcStep setup sends) s actions t ∧ s.Reaches hart (.readToSend r message) t := by
  induction left generalizing s i with
  | zero =>
    have turn : s.turn setup hart = s.goto hart (.readToSend r message) := by
      unfold turn
      rw [at_]
      exact if_neg (by omega)
    refine ⟨_, _, .single (ihcStep_turn s hart), ?_⟩
    rw [turn]
    exact .goto s hart _
  | succ left ih =>
    have turn : s.turn setup hart = { s.goto hart (.fill r message (i + 1)) with
        block := ip.writeMesgOut hart r i (message i) s.block } := by
      unfold turn
      rw [at_]
      exact if_pos (by omega)
    have first : s.Reaches hart (.fill r message (i + 1)) (s.turn setup hart) := by
      rw [turn]
      exact ⟨rfl, ip.ctlReg_mesgOut .., rfl, rfl⟩
    obtain ⟨actions, t, run, reaches⟩ := ih (i + 1) first.here (by omega)
    exact ⟨_, t, (Run.single (ihcStep_turn s hart)).trans run, first.trans reaches⟩

/-- A hart that finds the channel free comes to where it is to announce its message. -/
theorem exists_readToSend (setup : IhcSetup) (message : ℕ → BitVec 32) (idle : s.pc hart = .idle)
    (ne : hart ≠ r) (may : sends hart r) (rmp : (ip.ctlReg s.block hart r).getLsbD 0 = false)
    (ack : (ip.ctlReg s.block hart r).getLsbD 3 = false) :
    ∃ actions t, Run (ihcStep setup sends) s actions t ∧ s.Reaches hart (.readToSend r message) t := by
  have begun := Reaches.goto s hart (.checkRmp r message)
  have free : (s.goto hart (.checkRmp r message)).turn setup hart =
      (s.goto hart (.checkRmp r message)).goto hart (.checkAck r message) := by
    rw [turn]
    simp only [goto_pc_self]
    refine if_neg fun busy => Bool.false_ne_true (rmp.symm.trans ?_)
    exact (and_rmp_iff _).mp busy
  have checked := begun.trans (free ▸ Reaches.goto _ hart (.checkAck r message))
  have begins : ((s.goto hart (.checkRmp r message)).turn setup hart).turn setup hart =
      ((s.goto hart (.checkRmp r message)).turn setup hart).goto hart (.fill r message 0) := by
    rw [turn, checked.here]
    refine if_neg fun busy => Bool.false_ne_true (ack.symm.trans ?_)
    have bit := (and_twoPow_eq_iff _ 3 (by decide)).mp busy
    rwa [checked.ctl] at bit
  have filling := checked.trans (begins ▸ Reaches.goto _ hart (.fill r message 0))
  obtain ⟨actions, t, run, reaches⟩ :=
    exists_filled setup sends _ 0 filling.here (Nat.zero_add _).symm
  have first : Run (ihcStep setup sends) s [.tx hart r message, .turn hart, .turn hart]
      (((s.goto hart (.checkRmp r message)).turn setup hart).turn setup hart) := by
    have call : ihcStep setup sends s (.tx hart r message) (s.goto hart (.checkRmp r message)) :=
      ⟨idle, ne, may, rfl⟩
    exact ((Run.single call).snoc (ihcStep_turn ..)).snoc (ihcStep_turn ..)
  exact ⟨_, t, first.trans run, filling.trans reaches⟩

/-- Two harts that send to each other at the same time lose a message: both have read their registers
before either announces, and the second to write takes the message of the first out of the channel. -/
theorem exists_lost (setup : IhcSetup) (cfg : Config) (block : ip.State) (m m' : ℕ → BitVec 32)
    (ne : a ≠ b) (may : sends a b) (may' : sends b a) :
    ∃ actions t, Run (ihcStep setup sends) (ihcStart ip cfg block) actions t ∧
      t.sent b a = [carried ip b a m'] ∧ t.delivered b a = [] ∧ t.inFlight b a = [] := by
  have clear := MivIhc.allClear_hssIhcInit cfg block
  have none {c d : HartId} (ne : c ≠ d) :
      (ip.ctlReg (ihcStart ip cfg block).block c d).getLsbD 0 = false :=
    (ip.rmp_eq_mp _ _ _ ne).trans (clear d c ne.symm).mp
  obtain ⟨first, s, run, here⟩ :=
    exists_readToSend setup m rfl ne may (none ne) (clear a b ne).ack
  have idle : s.pc b = .idle := by
    rw [here.pc, Function.update_of_ne ne.symm]
    rfl
  obtain ⟨second, t, run', there⟩ := exists_readToSend setup m' idle ne.symm may'
    (by rw [here.ctl]; exact none ne.symm) (by rw [here.ctl]; exact (clear b a ne.symm).ack)
  have ctl : ip.ctlReg t.block = ip.ctlReg (ip.hssIhcInit cfg block) := there.ctl.trans here.ctl
  -- both read
  have atA : t.pc a = .readToSend b m := by rw [there.pc, Function.update_of_ne ne, here.here]
  have readA : t.turn setup a = t.goto a (.send b m (ip.ctlReg t.block a b)) := by
    rw [turn, atA]
  have atB : (t.turn setup a).pc b = .readToSend a m' := by
    rw [turn_pc ne.symm, there.here]
  have readB : (t.turn setup a).turn setup b =
      (t.turn setup a).goto b (.send a m' (ip.ctlReg t.block b a)) := by
    rw [turn, atB, readA]
    rfl
  generalize u_eq : (t.turn setup a).turn setup b = u at readB
  have sendsB : u.pc b = .send a m' (ip.ctlReg t.block b a) := by rw [readB, goto_pc_self]
  have sendsA : u.pc a = .send b m (ip.ctlReg t.block a b) := by
    rw [readB, goto_pc _ ne, readA, goto_pc_self]
  -- `b` announces, and then `a` writes back that there is no message
  have sentB : (u.turn setup b).sent b a = [carried ip b a m'] := by
    rw [turn, sendsB]
    show logMessage u.sent b a _ b a = _
    rw [logMessage_self, readB, readA]
    show t.sent b a ++ _ = _
    rw [there.sent, here.sent]
    rfl
  have deliveredB : (u.turn setup b).delivered = fun _ _ => [] := by
    rw [turn, sendsB]
    show u.delivered = _
    rw [readB, readA]
    exact there.delivered.trans here.delivered
  have stillA : (u.turn setup b).pc a = .send b m (ip.ctlReg t.block a b) := by
    rw [turn_pc ne, sendsA]
  have last : (u.turn setup b).turn setup a = { (u.turn setup b).goto a .idle with
      block := ip.writeCtlReg a b (ip.ctlReg t.block a b ||| rmpMessagePresent) (u.turn setup b).block
      sent := logMessage (u.turn setup b).sent a b (carried ip a b m) } := by
    rw [turn, stillA]
  have all : Run (ihcStep setup sends) t [.turn a, .turn b, .turn b, .turn a]
      ((u.turn setup b).turn setup a) := by
    rw [← u_eq]
    exact (((Run.single (ihcStep_turn t a)).snoc (ihcStep_turn ..)).snoc (ihcStep_turn ..)).snoc
      (ihcStep_turn ..)
  refine ⟨_, _, (run.trans run').trans all, ?_, ?_, inFlight_of_none ?_⟩
  · rw [last]
    exact (logMessage_apart fun same => ne same.1.symm).trans sentB
  · rw [last]
    exact congrFun (congrFun deliveredB b) a
  · rw [announced_eq_mp ne.symm, last]
    refine ip.mp_cleared _ _ _ _ ne ?_
    rw [or_rmp_bit, ctl, (clear a b ne).mp]
    rfl

end

end IhcSystem

namespace IhcSystem

variable {ip : MivIhc} {setup : IhcSetup} {sends : HartId → HartId → Prop}

theorem turns_pc {a hart : HartId} (s : IhcSystem ip) (other : a ≠ hart) (n : ℕ) :
    ((fun s => s.turn setup hart)^[n] s).pc a = s.pc a := by
  induction n generalizing s with
  | zero => rfl
  | succ n ih => exact (ih (s.turn setup hart)).trans (turn_pc other)

/-- While no other is to write back to one of its channels, a hart takes its turns undisturbed. -/
theorem run_turns {s : IhcSystem ip} {hart : HartId}
    (alone : ∀ r, r ≠ hart → (s.pc r).writesBack hart = false) (n : ℕ) :
    Run (Under Undisturbed (ihcStep setup sends)) s (List.replicate n (.turn hart))
      ((fun s => s.turn setup hart)^[n] s) := by
  induction n generalizing s with
  | zero => exact .nil
  | succ n ih =>
    have first : Run (Under Undisturbed (ihcStep setup sends)) s [.turn hart] (s.turn setup hart) :=
      .single ⟨fun remote ne _ => alone remote ne.symm, rfl⟩
    exact first.trans (ih fun r ne => (turn_pc ne).symm ▸ alone r ne)

end IhcSystem

/-- The runs in which harts send as `sends` has it lose no message just when no two harts send to each
other. -/
theorem ihc_conserves_iff (ip : MivIhc) (setup : IhcSetup) (cfg : Config) (sends : HartId → HartId → Prop)
    (block : ip.State) :
    (∀ actions s, Run (ihcStep setup sends) (ihcStart ip cfg block) actions s → s.Conserves) ↔
      ∀ a b, a ≠ b → sends a b → ¬sends b a := by
  refine ⟨fun conserves a b ne may may' => ?_, fun way actions s run =>
    IhcSystem.conserves_of_oneWay way cfg block run⟩
  obtain ⟨actions, t, run, sent, delivered, inFlight⟩ :=
    IhcSystem.exists_lost setup cfg block (fun _ => 0) (fun _ => 0) ne may may'
  have log := conserves actions t run b a ne.symm
  rw [sent, delivered, inFlight] at log
  cases log

/-- Whoever sends, no message is lost in a run in which no hart writes to a channel while the other side is
to write back what it has read. -/
theorem ihc_conserves_of_undisturbed {ip : MivIhc} {setup : IhcSetup} {cfg : Config} {block : ip.State}
    {sends : HartId → HartId → Prop} {actions : List IhcAction} {s : IhcSystem ip}
    (run : Run (Under Undisturbed (ihcStep setup sends)) (ihcStart ip cfg block) actions s) :
    s.Conserves :=
  (run.invariant (IhcSystem.channels_start cfg block) fun _ _ _ channels step =>
    channels.step step.1 step.2).conserves

/-- Every bit of the registers is set before the start-up; then the first hart sends a message to another,
which polls and takes it. -/
theorem ihc_conserves_of_undisturbed_plain :
    let setup : IhcSetup := ⟨fun _ => 0x1F, fun _ => 0⟩
    let powerOn : PlainIhc := ⟨fun _ _ => true, fun _ _ => true, fun _ _ => true, fun _ _ => true,
      fun _ _ _ => 0⟩
    ∃ actions s, Run (Under Undisturbed (ihcStep setup fun _ _ => True))
      (ihcStart PlainIhc.miv { Config.icicleKitEs with hssUseIhc := true } powerOn) actions s ∧
      s.delivered .e51 (.u54 .u54_1) = [[0, 1, 2, 3]] ∧ s.Conserves := by
  intro setup powerOn
  let start := ihcStart PlainIhc.miv { Config.icicleKitEs with hssUseIhc := true } powerOn
  let called := start.goto .e51 (.checkRmp (.u54 .u54_1) (BitVec.ofNat 32))
  let sent := (fun s => s.turn setup .e51)^[9] called
  let polling := sent.goto (.u54 .u54_1) (.scanAck true harts)
  have alone : ∀ r, r ≠ .e51 → (called.pc r).writesBack .e51 = false := by decide +kernel
  have alone' : ∀ r, r ≠ .u54 .u54_1 → (polling.pc r).writesBack (.u54 .u54_1) = false := by
    decide +kernel
  have idle : sent.pc (.u54 .u54_1) = .idle := IhcSystem.turns_pc _ (by decide) 9
  have calls : Run (Under Undisturbed (ihcStep setup fun _ _ => True)) start
      [.tx .e51 (.u54 .u54_1) (BitVec.ofNat 32)] called :=
    .single ⟨trivial, rfl, by decide, trivial, rfl⟩
  have poll : Under Undisturbed (ihcStep setup fun _ _ => True) sent
      (.messagePresent (.u54 .u54_1) true) polling := ⟨trivial, idle, rfl⟩
  have polls := (calls.trans (IhcSystem.run_turns alone 9)).snoc poll
  refine ⟨_, _, polls.trans (IhcSystem.run_turns alone' 10), by decide +kernel, ?_⟩
  exact ihc_conserves_of_undisturbed (polls.trans (IhcSystem.run_turns alone' 10))

end Hss
