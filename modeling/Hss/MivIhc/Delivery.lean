import Hss.MivIhc.Driver

/-! What is sent over the channels against what is delivered: each channel's invariant, the turns that
keep it, and the runs that do. -/

namespace Hss

open Runs

/-! ### The bits that are tested and written -/

theorem and_twoPow_eq_iff {w : ℕ} (x : BitVec w) (i : ℕ) (inside : i < w) :
    x &&& BitVec.twoPow w i = BitVec.twoPow w i ↔ x.getLsbD i = true := by
  rw [BitVec.and_twoPow]
  split
  · simp_all
  · have some : BitVec.twoPow w i ≠ 0#w := fun zero => by
      have bit := congrArg (fun y => y.getLsbD i) zero
      simp [inside] at bit
    simp_all [some.symm]

theorem and_rmp_iff (ctl : BitVec 32) :
    ctl &&& rmpMessagePresent = rmpMessagePresent ↔ ctl.getLsbD 0 = true :=
  and_twoPow_eq_iff ctl 0 (by decide)

theorem and_mp_iff (ctl : BitVec 32) :
    ctl &&& mpMessagePresent = mpMessagePresent ↔ ctl.getLsbD 1 = true :=
  and_twoPow_eq_iff ctl 1 (by decide)

theorem or_rmp_bit (ctl : BitVec 32) (i : ℕ) :
    (ctl ||| rmpMessagePresent).getLsbD i = (ctl.getLsbD i || rmpMessagePresent.getLsbD i) :=
  BitVec.getLsbD_or

theorem and_not_ackClr_bit (ctl : BitVec 32) {i : ℕ} (small : i < 32)
    (other : ackClr.getLsbD i = false) : (ctl &&& ~~~ackClr).getLsbD i = ctl.getLsbD i := by
  rw [BitVec.getLsbD_and, BitVec.getLsbD_not, other, decide_eq_true small]
  exact Bool.and_true _

theorem takeValue_bit (ctl : BitVec 32) {i : ℕ} (small : i < 32) (mp : mpMessagePresent.getLsbD i = false)
    (ack : ackInt.getLsbD i = false) : (takeValue ctl).getLsbD i = ctl.getLsbD i := by
  have kept : (ctl &&& ~~~mpMessagePresent).getLsbD i = ctl.getLsbD i := by
    rw [BitVec.getLsbD_and, BitVec.getLsbD_not, mp, decide_eq_true small]
    exact Bool.and_true _
  rw [takeValue]
  split
  · rw [BitVec.getLsbD_or, ack, Bool.or_false, kept]
  · exact kept

theorem takeValue_mp (ctl : BitVec 32) : (takeValue ctl).getLsbD 1 = false := by
  have cleared : (ctl &&& ~~~mpMessagePresent).getLsbD 1 = false := by
    simp [mpMessagePresent]
  rw [takeValue]
  split
  · rw [BitVec.getLsbD_or, cleared]
    rfl
  · exact cleared

/-! ### The invariant of a channel -/

namespace IhcPc

/-- The hart sends to `remote`, and has found no message of its own there. -/
def sendsTo (remote : HartId) : IhcPc → Bool
  | .checkAck r _ | .fill r _ _ | .readToSend r _ | .send r _ _ => r = remote
  | _ => false

/-- The hart is at the message that it has found from `remote`. -/
def takesFrom (remote : HartId) : IhcPc → Bool
  | .copy r _ | .readToTake r | .take r _ => r = remote
  | _ => false

/-- What the hart has put into the channel to `remote` is there, and what it has copied from it. -/
def Filled (remote : HartId) (n : ℕ) (word : ℕ → BitVec 32) : IhcPc → Prop
  | .fill r message i => r = remote → ∀ j < i, word j = message j
  | .readToSend r message | .send r message _ => r = remote → ∀ j < n, word j = message j
  | _ => True

def Copied (remote : HartId) (n : ℕ) (word : ℕ → BitVec 32) : IhcPc → Prop
  | .copy r words => r = remote → words.length ≤ n ∧ words = (List.range words.length).map word
  | _ => True

/-- What the hart is to write back is what the register has. -/
def UpToDate (remote : HartId) (ctl : BitVec 32) : IhcPc → Prop
  | .send r _ v | .take r v | .clear r v =>
    r = remote → v.getLsbD 0 = ctl.getLsbD 0 ∧ v.getLsbD 1 = ctl.getLsbD 1
  | _ => True

variable {remote : HartId} {n : ℕ} {word : ℕ → BitVec 32} {ctl : BitVec 32} {pc : IhcPc}

theorem takesFrom_of_handled (handled : pc.handled remote = true) : pc.takesFrom remote = true := by
  cases pc <;> first | exact handled | cases handled

theorem filled_of_not_sendsTo (other : pc.sendsTo remote = false) : pc.Filled remote n word := by
  cases pc with
  | fill r | readToSend r | send r =>
    intro same
    exact absurd same (of_decide_eq_false other)
  | _ => trivial

theorem copied_of_not_takesFrom (other : pc.takesFrom remote = false) : pc.Copied remote n word := by
  cases pc with
  | copy r =>
    intro same
    exact absurd same (of_decide_eq_false other)
  | _ => trivial

theorem upToDate_of_not_writesBack (other : pc.writesBack remote = false) : pc.UpToDate remote ctl := by
  cases pc with
  | send r | take r | clear r =>
    intro same
    exact absurd same (of_decide_eq_false other)
  | _ => trivial

end IhcPc

namespace IhcSystem

variable {ip : MivIhc} {setup : IhcSetup} {s t : IhcSystem ip} {a b hart : HartId}

/-- The channel from `a` to `b`: what either side is at agrees with what is in the channel, and no message
is lost. -/
structure Channel (s : IhcSystem ip) (a b : HartId) : Prop where
  free : (s.pc a).sendsTo b = true → s.announced a b = false
  filled : (s.pc a).Filled b (ip.sizeMsg a b) (ip.mesgIn s.block b a)
  present : (s.pc b).takesFrom a = true → s.announced a b = true
  copied : (s.pc b).Copied a (ip.sizeMsg a b) (ip.mesgIn s.block b a)
  upToDate : (s.pc a).UpToDate b (ip.ctlReg s.block a b)
  log : s.sent a b = s.delivered a b ++ s.inFlight a b

def Channels (s : IhcSystem ip) : Prop := ∀ a b, a ≠ b → s.Channel a b

/-- What the two states share of a channel, and what the sides may have begun or left. -/
theorem Channel.congr (channel : s.Channel a b) (announced : t.announced a b = s.announced a b)
    (words : ip.mesgIn t.block b a = ip.mesgIn s.block b a) (sent : t.sent a b = s.sent a b)
    (delivered : t.delivered a b = s.delivered a b)
    (source : t.pc a = s.pc a ∨ (t.pc a).sendsTo b = false)
    (target : t.pc b = s.pc b ∨ (t.pc b).takesFrom a = false ∧ (s.pc b).handled a = false)
    (upToDate : (t.pc a).UpToDate b (ip.ctlReg t.block a b)) : t.Channel a b where
  free := by
    rw [announced]
    rcases source with same | not
    · rw [same]
      exact channel.free
    · rw [not]
      exact nofun
  filled := by
    rw [words]
    rcases source with same | not
    · rw [same]
      exact channel.filled
    · exact IhcPc.filled_of_not_sendsTo not
  present := by
    rw [announced]
    rcases target with same | ⟨not, -⟩
    · rw [same]
      exact channel.present
    · rw [not]
      exact nofun
  copied := by
    rw [words]
    rcases target with same | ⟨not, -⟩
    · rw [same]
      exact channel.copied
    · exact IhcPc.copied_of_not_takesFrom not
  upToDate := upToDate
  log := by
    have handled : (t.pc b).handled a = (s.pc b).handled a := by
      rcases target with same | ⟨not, before⟩
      · rw [same]
      · rw [before]
        by_contra now
        rw [IhcPc.takesFrom_of_handled (eq_true_of_ne_false now)] at not
        cases not
    rw [sent, delivered, channel.log, inFlight, inFlight, announced, handled, words]

theorem Channel.not_handled (channel : s.Channel a b) (none : s.announced a b = false) :
    (s.pc b).takesFrom a = false := by
  by_contra takes
  rw [channel.present (eq_true_of_ne_false takes)] at none
  cases none

theorem inFlight_of_none (none : s.announced a b = false) : s.inFlight a b = [] :=
  if_neg fun both => Bool.false_ne_true (none.symm.trans both.1)

@[simp] theorem goto_block (pc : IhcPc) : (s.goto hart pc).block = s.block := rfl
@[simp] theorem goto_sent (pc : IhcPc) : (s.goto hart pc).sent = s.sent := rfl
@[simp] theorem goto_delivered (pc : IhcPc) : (s.goto hart pc).delivered = s.delivered := rfl
@[simp] theorem goto_pc_self (pc : IhcPc) : (s.goto hart pc).pc hart = pc := Function.update_self ..
theorem goto_pc (pc : IhcPc) (other : a ≠ hart) : (s.goto hart pc).pc a = s.pc a :=
  Function.update_of_ne other ..

/-! ### A turn -/

/-- What two states share of a channel. -/
structure SameChannel (s t : IhcSystem ip) (a b : HartId) : Prop where
  ctl : ip.ctlReg t.block a b = ip.ctlReg s.block a b
  words : ip.mesgIn t.block b a = ip.mesgIn s.block b a
  sent : t.sent a b = s.sent a b
  delivered : t.delivered a b = s.delivered a b

theorem SameChannel.goto (pc : IhcPc) : SameChannel s (s.goto hart pc) a b := ⟨rfl, rfl, rfl, rfl⟩

theorem logMessage_apart {log : HartId → HartId → List (List (BitVec 32))} {source target : HartId}
    {words : List (BitVec 32)} (apart : ¬(a = source ∧ b = target)) :
    logMessage log source target words a b = log a b := if_neg apart

theorem logMessage_self (log : HartId → HartId → List (List (BitVec 32))) (words : List (BitVec 32)) :
    logMessage log a b words a b = log a b ++ [words] := if_pos ⟨rfl, rfl⟩

/-- A turn of another hart leaves where a hart is. -/
theorem turn_pc (other : a ≠ hart) : (s.turn setup hart).pc a = s.pc a := by
  unfold turn
  split <;> (try dsimp only) <;> (repeat' split) <;> first | rfl | exact goto_pc _ other

end IhcSystem

/-- The remote hart of the channel at which a hart is. -/
def IhcPc.remote : IhcPc → Option HartId
  | .checkRmp r _ | .checkAck r _ | .fill r _ _ | .readToSend r _ | .send r _ _ | .checkMp r
  | .copy r _ | .readToTake r | .take r _ | .readToClear r | .clear r _ => some r
  | .idle | .scanAck _ _ | .scanMp _ _ _ => none

namespace IhcSystem

variable {ip : MivIhc} {setup : IhcSetup} {s t : IhcSystem ip} {a b hart : HartId}

/-- A turn leaves each channel but the one at which the hart is. -/
theorem turn_sameChannel (source : a = hart → (s.pc hart).remote ≠ some b)
    (target : b = hart → (s.pc hart).remote ≠ some a) :
    SameChannel s (s.turn setup hart) a b := by
  unfold turn
  cases pc : s.pc hart with
  | idle => exact ⟨rfl, rfl, rfl, rfl⟩
  | fill r message i =>
    rw [pc] at source target
    dsimp only
    split
    · refine ⟨congrFun (congrFun (ip.ctlReg_mesgOut ..) _) _, ?_, rfl, rfl⟩
      funext j
      rw [ip.mesgIn_mesgOut, if_neg]
      rintro ⟨rfl, rfl, -⟩
      exact source rfl rfl
    · exact .goto _
  | send r message ctl | take r ctl | clear r ctl =>
    rw [pc] at source target
    refine ⟨ip.ctlReg_apart _ _ _ _ _ _ ?_ ?_, congrFun (congrFun (ip.mesgIn_ctlReg ..) _) _, ?_, rfl⟩
    · rintro ⟨rfl, rfl⟩
      exact source rfl rfl
    · rintro ⟨rfl, rfl⟩
      exact target rfl rfl
    · first
        | rfl
        | refine logMessage_apart ?_
          rintro ⟨rfl, rfl⟩
          exact source rfl rfl
  | copy r words =>
    rw [pc] at source target
    dsimp only
    split
    · exact .goto _
    · refine ⟨rfl, rfl, rfl, logMessage_apart ?_⟩
      rintro ⟨rfl, rfl⟩
      exact target rfl rfl
  | scanAck polling left =>
    cases left with
    | nil => exact .goto _
    | cons remote left =>
      dsimp only
      repeat' split
      all_goals exact .goto _
  | _ =>
    dsimp only
    repeat' split
    all_goals exact .goto _

/-- Where a hart is after a turn, by where it is before. -/
inductive Goes (s : IhcSystem ip) (hart : HartId) : IhcPc → IhcPc → Prop
  | rest (pc : IhcPc) : Goes s hart pc .idle
  | checkAck (r : HartId) (message : ℕ → BitVec 32) : Goes s hart (.checkRmp r message) (.checkAck r message)
  | begin (r : HartId) (message : ℕ → BitVec 32) : Goes s hart (.checkAck r message) (.fill r message 0)
  | word (r : HartId) (message : ℕ → BitVec 32) (i : ℕ) :
      Goes s hart (.fill r message i) (.fill r message (i + 1))
  | filled (r : HartId) (message : ℕ → BitVec 32) (i : ℕ) :
      Goes s hart (.fill r message i) (.readToSend r message)
  | readToSend (r : HartId) (message : ℕ → BitVec 32) :
      Goes s hart (.readToSend r message) (.send r message (ip.ctlReg s.block hart r))
  | scanNext {pc : IhcPc} (polling : Bool) (left : List HartId) : Goes s hart pc (.scanAck polling left)
  | scanMp (polling : Bool) (r : HartId) (left : List HartId) :
      Goes s hart (.scanAck polling (r :: left)) (.scanMp polling r left)
  | ack (polling : Bool) (r : HartId) (left : List HartId)
      (shown : ip.msgAvail s.block hart &&& 1 <<< (2 * r.num + 1) ≠ 0) :
      Goes s hart (.scanAck polling (r :: left)) (.readToClear r)
  | mp (polling : Bool) (r : HartId) (left : List HartId) :
      Goes s hart (.scanMp polling r left) (.checkMp r)
  | found (r : HartId) : Goes s hart (.checkMp r) (.copy r [])
  | copies (r : HartId) (words more : List (BitVec 32)) : Goes s hart (.copy r words) (.copy r more)
  | handled (r : HartId) (words : List (BitVec 32)) : Goes s hart (.copy r words) (.readToTake r)
  | readToTake (r : HartId) : Goes s hart (.readToTake r) (.take r (ip.ctlReg s.block hart r))
  | readToClear (r : HartId) : Goes s hart (.readToClear r) (.clear r (ip.ctlReg s.block hart r))

theorem turn_goes (setup : IhcSetup) (s : IhcSystem ip) (hart : HartId) :
    s.Goes hart (s.pc hart) ((s.turn setup hart).pc hart) := by
  unfold turn
  cases pc : s.pc hart with
  | idle =>
    rw [pc]
    exact .rest _
  | scanAck polling left =>
    cases left with
    | nil =>
      rw [goto_pc_self]
      exact .rest _
    | cons r left =>
      dsimp only
      repeat' split
      · rw [goto_pc_self]
        exact .ack polling r left (‹_ ∧ _›).1
      · rw [goto_pc_self]
        exact .scanMp polling r left
      · rw [goto_pc_self]
        exact .scanNext polling left
  | scanMp polling r left =>
    dsimp only
    split
    · rw [goto_pc_self]
      exact .mp polling r left
    · rw [goto_pc_self]
      exact .scanNext polling left
  | _ =>
    dsimp only
    repeat' split
    all_goals
      simp only [goto_pc_self]
      constructor

/-- A hart comes to send, to take or to write back only in the channel at which it is. -/
theorem turn_engaged (other : (s.pc hart).remote ≠ some b) :
    ((s.turn setup hart).pc hart).sendsTo b = false ∧
      ((s.turn setup hart).pc hart).takesFrom b = false ∧
        ((s.turn setup hart).pc hart).writesBack b = false := by
  have goes := turn_goes setup s hart
  have apart {r : HartId} (here : (s.pc hart).remote = some r) : decide (r = b) = false :=
    decide_eq_false fun same => other (here.trans (congrArg some same))
  generalize (s.turn setup hart).pc hart = after, s.pc hart = before at goes apart
  cases goes with
  | checkAck r | begin r | word r | filled r => exact ⟨apart rfl, rfl, rfl⟩
  | readToSend r => exact ⟨apart rfl, rfl, apart rfl⟩
  | found r | copies r | handled r => exact ⟨rfl, apart rfl, rfl⟩
  | readToTake r => exact ⟨rfl, apart rfl, apart rfl⟩
  | readToClear r => exact ⟨rfl, rfl, apart rfl⟩
  | _ => exact ⟨rfl, rfl, rfl⟩

/-- A channel at which the hart is not. -/
theorem Channel.apart (channel : s.Channel a b) (source : a = hart → (s.pc hart).remote ≠ some b)
    (target : b = hart → (s.pc hart).remote ≠ some a) : (s.turn setup hart).Channel a b := by
  have same : SameChannel s (s.turn setup hart) a b := turn_sameChannel source target
  have announced : (s.turn setup hart).announced a b = s.announced a b := by
    rw [IhcSystem.announced, same.ctl]
    rfl
  refine channel.congr announced same.words same.sent same.delivered ?_ ?_ ?_
  · by_cases own : a = hart
    · subst own
      exact .inr (turn_engaged (source rfl)).1
    · exact .inl (turn_pc own)
  · by_cases own : b = hart
    · subst own
      refine .inr ⟨(turn_engaged (target rfl)).2.1, ?_⟩
      cases pc : s.pc b with
      | readToTake r | take r =>
        rw [pc] at target
        exact decide_eq_false fun same => target rfl (congrArg some same)
      | _ => rfl
    · exact .inl (turn_pc own)
  · rw [same.ctl]
    by_cases own : a = hart
    · subst own
      exact IhcPc.upToDate_of_not_writesBack (turn_engaged (source rfl)).2.2
    · rw [turn_pc own]
      exact channel.upToDate

/-! ### A turn of one of the sides -/

/-- The hart that sends goes on. -/
theorem Channel.sourceGoes (channel : s.Channel a b) (ne : a ≠ b) {pc : IhcPc}
    (free : pc.sendsTo b = true → s.announced a b = false)
    (filled : pc.Filled b (ip.sizeMsg a b) (ip.mesgIn s.block b a))
    (upToDate : pc.UpToDate b (ip.ctlReg s.block a b)) : (s.goto a pc).Channel a b where
  free := by
    rw [goto_pc_self]
    exact free
  filled := by
    rw [goto_pc_self]
    exact filled
  present := by
    rw [goto_pc _ ne.symm]
    exact channel.present
  copied := by
    rw [goto_pc _ ne.symm]
    exact channel.copied
  upToDate := by
    rw [goto_pc_self]
    exact upToDate
  log := by
    rw [inFlight, goto_pc _ ne.symm]
    exact channel.log

/-- The hart that receives goes on. -/
theorem Channel.targetGoes (channel : s.Channel a b) (ne : a ≠ b) {pc : IhcPc}
    (present : pc.takesFrom a = true → s.announced a b = true)
    (copied : pc.Copied a (ip.sizeMsg a b) (ip.mesgIn s.block b a))
    (handled : pc.handled a = (s.pc b).handled a) : (s.goto b pc).Channel a b where
  free := by
    rw [goto_pc _ ne]
    exact channel.free
  filled := by
    rw [goto_pc _ ne]
    exact channel.filled
  present := by
    rw [goto_pc_self]
    exact present
  copied := by
    rw [goto_pc_self]
    exact copied
  upToDate := by
    rw [goto_pc _ ne]
    exact channel.upToDate
  log := by
    rw [inFlight, goto_pc_self, handled]
    exact channel.log

/-- A side writes to the control register, and keeps what is announced from `a` to `b`. -/
theorem Channel.written (channel : s.Channel a b) {x y : HartId} {v : BitVec 32}
    {sent : HartId → HartId → List (List (BitVec 32))} (sentSame : sent a b = s.sent a b)
    (announced : (ip.ctlReg (ip.writeCtlReg x y v s.block) a b).getLsbD 0 = s.announced a b)
    (source : (s.goto x .idle).pc a = s.pc a ∨ a = x)
    (target : (s.goto x .idle).pc b = s.pc b ∨ b = x ∧ (s.pc b).handled a = false)
    (quiet : ((s.goto x .idle).pc a).writesBack b = false) :
    ({ s.goto x .idle with block := ip.writeCtlReg x y v s.block, sent } : IhcSystem ip).Channel a b := by
  refine channel.congr announced (congrFun (congrFun (ip.mesgIn_ctlReg ..) _) _) sentSame rfl ?_ ?_
    (IhcPc.upToDate_of_not_writesBack quiet)
  · rcases source with same | rfl
    · exact .inl same
    · refine .inr ?_
      rw [show ({ s.goto a .idle with block := ip.writeCtlReg a y v s.block, sent } : IhcSystem ip).pc a
        = .idle from goto_pc_self _]
      rfl
  · rcases target with same | ⟨rfl, handled⟩
    · exact .inl same
    · refine .inr ⟨?_, handled⟩
      rw [show ({ s.goto b .idle with block := ip.writeCtlReg b y v s.block, sent } : IhcSystem ip).pc b
        = .idle from goto_pc_self _]
      rfl

/-- What the register of `a` has of the message from `b`. -/
theorem announced_eq_mp (ne : a ≠ b) : s.announced a b = (ip.ctlReg s.block b a).getLsbD 1 :=
  ip.rmp_eq_mp _ _ _ ne

/-- A turn of the hart that sends over the channel, or of what it does in the channel of the other
direction. -/
theorem Channel.source (channel : s.Channel a b) (ne : a ≠ b) (here : (s.pc a).remote = some b)
    (quiet : (s.pc a).writesBack b = true → (s.pc b).writesBack a = false) :
    (s.turn setup a).Channel a b := by
  unfold turn
  cases pc : s.pc a with
  | idle | scanAck | scanMp =>
    rw [pc] at here
    cases here
  | checkRmp r message =>
    rw [pc] at here
    obtain rfl : r = b := Option.some.inj here
    dsimp only
    split
    · exact channel.sourceGoes ne nofun trivial trivial
    · next busy =>
      rw [and_rmp_iff] at busy
      exact channel.sourceGoes ne (fun _ => eq_false_of_ne_true busy) trivial trivial
  | checkAck r message =>
    rw [pc] at here
    obtain rfl : r = b := Option.some.inj here
    have free := channel.free
    rw [pc] at free
    dsimp only
    split
    · exact channel.sourceGoes ne nofun trivial trivial
    · exact channel.sourceGoes ne free (fun _ j none => absurd none (Nat.not_lt_zero j)) trivial
  | fill r message i =>
    rw [pc] at here
    obtain rfl : r = b := Option.some.inj here
    have free := channel.free
    have filled := channel.filled
    rw [pc] at free filled
    have none := free (decide_eq_true rfl)
    dsimp only
    split
    · have announced : IhcSystem.announced ({ s.goto a (.fill r message (i + 1)) with
          block := ip.writeMesgOut a r i (message i) s.block } : IhcSystem ip) a r = false := by
        rw [IhcSystem.announced, ip.ctlReg_mesgOut]
        exact none
      have takes := channel.not_handled none
      have same : (s.goto a (.fill r message (i + 1))).pc r = s.pc r := goto_pc _ ne.symm
      refine ⟨fun _ => announced, ?_, ?_, ?_, ?_, ?_⟩
      · show IhcPc.Filled _ _ _ ((s.goto a (.fill r message (i + 1))).pc a)
        rw [goto_pc_self]
        intro _ j before
        rw [ip.mesgIn_mesgOut]
        split
        · next last => rw [last.2.2]
        · next other =>
          refine filled rfl j (lt_of_le_of_ne (Nat.lt_succ_iff.mp before) fun last => ?_)
          exact other ⟨rfl, rfl, last⟩
      · show ((s.goto a (.fill r message (i + 1))).pc r).takesFrom a = true → _
        rw [same, takes]
        exact nofun
      · show IhcPc.Copied _ _ _ ((s.goto a (.fill r message (i + 1))).pc r)
        rw [same]
        exact IhcPc.copied_of_not_takesFrom takes
      · show IhcPc.UpToDate _ _ ((s.goto a (.fill r message (i + 1))).pc a)
        rw [goto_pc_self]
        trivial
      · rw [inFlight_of_none announced]
        refine channel.log.trans ?_
        rw [inFlight_of_none none]
        rfl
    · next full =>
      exact channel.sourceGoes ne free
        (fun _ j less => filled rfl j (Nat.lt_of_lt_of_le less (Nat.le_of_not_lt full))) trivial
  | readToSend r message =>
    rw [pc] at here
    obtain rfl : r = b := Option.some.inj here
    have free := channel.free
    have filled := channel.filled
    rw [pc] at free filled
    exact channel.sourceGoes ne free filled fun _ => ⟨rfl, rfl⟩
  | send r message ctl =>
    rw [pc] at here
    obtain rfl : r = b := Option.some.inj here
    have free := channel.free
    have filled := channel.filled
    rw [pc] at free filled
    have none := free (decide_eq_true rfl)
    have takes := channel.not_handled none
    have same : (s.goto a .idle).pc r = s.pc r := goto_pc _ ne.symm
    have words : ip.mesgIn (ip.writeCtlReg a r (ctl ||| rmpMessagePresent) s.block) r a =
        ip.mesgIn s.block r a := congrFun (congrFun (ip.mesgIn_ctlReg ..) _) _
    have announced : (ip.ctlReg (ip.writeCtlReg a r (ctl ||| rmpMessagePresent) s.block) a r).getLsbD 0 =
        true := by
      refine ip.rmp_set _ _ _ _ ne ?_
      rw [or_rmp_bit]
      exact Bool.or_true _
    have idle : (s.goto a .idle).pc a = .idle := goto_pc_self _
    have handled : (s.pc r).handled a = false := by
      by_contra now
      rw [IhcPc.takesFrom_of_handled (eq_true_of_ne_false now)] at takes
      cases takes
    refine ⟨?_, ?_, fun _ => announced, ?_, ?_, ?_⟩
    · show ((s.goto a .idle).pc a).sendsTo r = true → _
      rw [idle]
      exact nofun
    · show IhcPc.Filled _ _ _ ((s.goto a .idle).pc a)
      rw [idle]
      trivial
    · show IhcPc.Copied _ _ _ ((s.goto a .idle).pc r)
      rw [same]
      exact IhcPc.copied_of_not_takesFrom takes
    · show IhcPc.UpToDate _ _ ((s.goto a .idle).pc a)
      rw [idle]
      trivial
    · have sent : carried ip a r message = carried ip a r (ip.mesgIn s.block r a) :=
        List.map_congr_left fun j inside => (filled rfl j (List.mem_range.mp inside)).symm
      show logMessage s.sent a r _ a r = s.delivered a r ++ _
      rw [logMessage_self, channel.log, inFlight_of_none none, List.append_nil, sent, inFlight,
        if_pos ⟨announced, by rw [show IhcSystem.pc _ r = s.pc r from same, handled]⟩, words]
  | checkMp r | readToTake r | readToClear r =>
    rw [pc] at here
    obtain rfl : r = b := Option.some.inj here
    dsimp only
    repeat' split
    all_goals first
      | exact channel.sourceGoes ne nofun trivial trivial
      | exact channel.sourceGoes ne nofun trivial fun _ => ⟨rfl, rfl⟩
  | copy r words =>
    rw [pc] at here
    obtain rfl : r = b := Option.some.inj here
    dsimp only
    split
    · exact channel.sourceGoes ne nofun trivial trivial
    · have gone : (s.goto a (.readToTake r)).Channel a r :=
        channel.sourceGoes ne nofun trivial trivial
      refine gone.congr rfl rfl rfl (logMessage_apart fun same => ne same.1) ?_ ?_ gone.upToDate
      · exact .inl rfl
      · exact .inl rfl
  | take r ctl =>
    rw [pc] at here
    obtain rfl : r = b := Option.some.inj here
    have upToDate := channel.upToDate
    rw [pc] at upToDate
    refine channel.written rfl ?_ (.inr rfl) (.inl (goto_pc _ ne.symm)) ?_
    · refine ip.rmp_kept _ _ _ _ ne ?_
      rw [takeValue_bit _ (by decide) rfl rfl]
      exact (upToDate rfl).1
    · rw [goto_pc_self]
      rfl
  | clear r ctl =>
    rw [pc] at here
    obtain rfl : r = b := Option.some.inj here
    have upToDate := channel.upToDate
    rw [pc] at upToDate
    refine channel.written rfl ?_ (.inr rfl) (.inl (goto_pc _ ne.symm)) ?_
    · refine ip.rmp_kept _ _ _ _ ne ?_
      rw [and_not_ackClr_bit _ (by decide) rfl]
      exact (upToDate rfl).1
    · rw [goto_pc_self]
      rfl

/-- A turn of the hart that receives over the channel, or of what it does in the channel of the other
direction. -/
theorem Channel.target (channel : s.Channel a b) (back : s.Channel b a) (ne : a ≠ b)
    (here : (s.pc b).remote = some a)
    (quiet : (s.pc b).writesBack a = true → (s.pc a).writesBack b = false) :
    (s.turn setup b).Channel a b := by
  -- a write of `b` that leaves the message of `a`
  have kept {v : BitVec 32} (mp : v.getLsbD 1 = (ip.ctlReg s.block b a).getLsbD 1) :
      (ip.ctlReg (ip.writeCtlReg b a v s.block) a b).getLsbD 0 = s.announced a b := by
    rw [announced_eq_mp ne, ip.rmp_eq_mp _ _ _ ne]
    exact ip.mp_kept _ _ _ _ ne.symm mp
  have idle : (s.goto b .idle).pc a = s.pc a := goto_pc _ ne
  unfold turn
  cases pc : s.pc b with
  | idle | scanAck | scanMp =>
    rw [pc] at here
    cases here
  | checkRmp r | checkAck r | readToSend r =>
    rw [pc] at here
    obtain rfl : r = a := Option.some.inj here
    dsimp only
    repeat' split
    all_goals exact channel.targetGoes ne nofun trivial (by rw [pc]; rfl)
  | readToClear r =>
    rw [pc] at here
    obtain rfl : r = a := Option.some.inj here
    exact channel.targetGoes ne nofun trivial (by rw [pc]; rfl)
  | fill r message i =>
    rw [pc] at here
    obtain rfl : r = a := Option.some.inj here
    dsimp only
    split
    · have gone : (s.goto b (.fill r message (i + 1))).Channel r b :=
        channel.targetGoes ne nofun trivial (by rw [pc]; rfl)
      refine gone.congr ?_ ?_ rfl rfl (.inl rfl) (.inl rfl) ?_
      · rw [IhcSystem.announced, ip.ctlReg_mesgOut]
        rfl
      · funext j
        rw [ip.mesgIn_mesgOut, if_neg fun same => ne same.1.symm]
        rfl
      · rw [ip.ctlReg_mesgOut]
        exact gone.upToDate
    · exact channel.targetGoes ne nofun trivial (by rw [pc]; rfl)
  | send r message ctl =>
    rw [pc] at here
    obtain rfl : r = a := Option.some.inj here
    have upToDate := back.upToDate
    rw [pc] at upToDate quiet
    refine channel.written (logMessage_apart fun same => ne same.1) (kept ?_) (.inl idle)
      (.inr ⟨rfl, by rw [pc]; rfl⟩) ?_
    · rw [or_rmp_bit]
      exact (Bool.or_false _).trans (upToDate rfl).2
    · rw [idle]
      exact quiet (decide_eq_true rfl)
  | clear r ctl =>
    rw [pc] at here
    obtain rfl : r = a := Option.some.inj here
    have upToDate := back.upToDate
    rw [pc] at upToDate quiet
    refine channel.written rfl (kept ?_) (.inl idle) (.inr ⟨rfl, by rw [pc]; rfl⟩) ?_
    · rw [and_not_ackClr_bit _ (by decide) rfl]
      exact (upToDate rfl).2
    · rw [idle]
      exact quiet (decide_eq_true rfl)
  | checkMp r =>
    rw [pc] at here
    obtain rfl : r = a := Option.some.inj here
    dsimp only
    split
    · next found =>
      rw [and_mp_iff] at found
      refine channel.targetGoes ne (fun _ => (announced_eq_mp ne).trans found) (fun _ => ?_) (by rw [pc]; rfl)
      exact ⟨Nat.zero_le _, rfl⟩
    · exact channel.targetGoes ne nofun trivial (by rw [pc]; rfl)
  | copy r words =>
    rw [pc] at here
    obtain rfl : r = a := Option.some.inj here
    have present := channel.present
    have copied := channel.copied
    rw [pc] at present copied
    have announced := present (decide_eq_true rfl)
    obtain ⟨short, words_eq⟩ := copied rfl
    dsimp only
    split
    · next more =>
      rw [ip.sizeMsg_comm] at more
      refine channel.targetGoes ne (fun _ => announced) (fun _ => ⟨?_, ?_⟩) (by rw [pc]; rfl)
      · rw [List.length_append]
        exact more
      · rw [List.length_append, List.length_singleton, List.range_succ, List.map_append,
          List.map_singleton, ← words_eq]
    · next all =>
      rw [ip.sizeMsg_comm] at all
      have full : words = carried ip r b (ip.mesgIn s.block b r) := by
        rw [words_eq, Nat.le_antisymm short (Nat.le_of_not_lt all)]
        rfl
      have same : (s.goto b (.readToTake r)).pc r = s.pc r := goto_pc _ ne
      have here : (s.goto b (.readToTake r)).pc b = .readToTake r := goto_pc_self _
      refine ⟨?_, ?_, fun _ => announced, ?_, ?_, ?_⟩
      · show ((s.goto b (.readToTake r)).pc r).sendsTo b = true → _
        rw [same]
        exact channel.free
      · show IhcPc.Filled _ _ _ ((s.goto b (.readToTake r)).pc r)
        rw [same]
        exact channel.filled
      · show IhcPc.Copied _ _ _ ((s.goto b (.readToTake r)).pc b)
        rw [here]
        trivial
      · show IhcPc.UpToDate _ _ ((s.goto b (.readToTake r)).pc r)
        rw [same]
        exact channel.upToDate
      · have before : s.inFlight r b = [words] := by
          rw [inFlight, if_pos ⟨announced, by rw [pc]; rfl⟩, full]
        rw [inFlight, if_neg]
        · show s.sent r b = logMessage s.delivered r b words r b ++ []
          rw [logMessage_self, List.append_nil, channel.log, before]
        · rintro ⟨-, not⟩
          rw [show IhcSystem.pc _ b = .readToTake r from here] at not
          exact absurd (decide_eq_true rfl : (IhcPc.readToTake r).handled r = true)
            (Bool.not_eq_true _ ▸ not)
  | readToTake r =>
    rw [pc] at here
    obtain rfl : r = a := Option.some.inj here
    have present := channel.present
    rw [pc] at present
    exact channel.targetGoes ne present trivial (by rw [pc]; rfl)
  | take r ctl =>
    rw [pc] at here
    obtain rfl : r = a := Option.some.inj here
    rw [pc] at quiet
    have none : (ip.ctlReg (ip.writeCtlReg b r (takeValue ctl) s.block) r b).getLsbD 0 = false := by
      rw [ip.rmp_eq_mp _ _ _ ne]
      exact ip.mp_cleared _ _ _ _ ne.symm (takeValue_mp ctl)
    have words : ip.mesgIn (ip.writeCtlReg b r (takeValue ctl) s.block) b r = ip.mesgIn s.block b r :=
      congrFun (congrFun (ip.mesgIn_ctlReg ..) _) _
    have here : (s.goto b .idle).pc b = .idle := goto_pc_self _
    refine ⟨fun _ => none, ?_, ?_, ?_, ?_, ?_⟩
    · show IhcPc.Filled _ _ (ip.mesgIn (ip.writeCtlReg b r (takeValue ctl) s.block) b r)
        ((s.goto b .idle).pc r)
      rw [words, idle]
      exact channel.filled
    · show ((s.goto b .idle).pc b).takesFrom r = true → _
      rw [here]
      exact nofun
    · show IhcPc.Copied _ _ _ ((s.goto b .idle).pc b)
      rw [here]
      trivial
    · show IhcPc.UpToDate _ _ ((s.goto b .idle).pc r)
      rw [idle]
      exact IhcPc.upToDate_of_not_writesBack (quiet (decide_eq_true rfl))
    · have before : s.inFlight r b = [] := by
        rw [inFlight, if_neg]
        rintro ⟨-, not⟩
        rw [pc] at not
        exact absurd (decide_eq_true rfl : (IhcPc.take r ctl).handled r = true) (Bool.not_eq_true _ ▸ not)
      refine channel.log.trans ?_
      rw [before, inFlight_of_none]
      · rfl
      · exact none

/-- A turn that disturbs nothing keeps all channels. -/
theorem Channels.turn (channels : s.Channels) (hart : HartId)
    (quiet : Undisturbed s (.turn hart)) : (s.turn setup hart).Channels := by
  intro a b ne
  have channel := channels a b ne
  by_cases source : a = hart ∧ (s.pc hart).remote = some b
  · obtain ⟨rfl, here⟩ := source
    exact channel.source ne here (quiet b ne)
  by_cases target : b = hart ∧ (s.pc hart).remote = some a
  · obtain ⟨rfl, here⟩ := target
    exact channel.target (channels b a ne.symm) ne here (quiet a ne.symm)
  · exact channel.apart (fun own here => source ⟨own, here⟩) fun own here => target ⟨own, here⟩

/-- A call begins, which keeps all channels. -/
theorem Channels.begin (channels : s.Channels) (idle : s.pc hart = .idle) {pc : IhcPc}
    (begins : ∀ r, pc.sendsTo r = false ∧ pc.takesFrom r = false ∧ pc.writesBack r = false) :
    (s.goto hart pc).Channels := by
  intro a b ne
  refine (channels a b ne).congr rfl rfl rfl rfl ?_ ?_ ?_
  · by_cases own : a = hart
    · subst own
      rw [goto_pc_self]
      exact .inr (begins b).1
    · exact .inl (goto_pc _ own)
  · by_cases own : b = hart
    · subst own
      rw [goto_pc_self, idle]
      exact .inr ⟨(begins a).2.1, rfl⟩
    · exact .inl (goto_pc _ own)
  · by_cases own : a = hart
    · subst own
      rw [goto_pc_self]
      exact IhcPc.upToDate_of_not_writesBack (begins b).2.2
    · rw [goto_pc _ own]
      exact (channels a b ne).upToDate

theorem Channels.step {sends : HartId → HartId → Prop} (channels : s.Channels) {action : IhcAction}
    (quiet : Undisturbed s action) (step : ihcStep setup sends s action t) : t.Channels := by
  cases action with
  | tx hart remote message =>
    obtain ⟨idle, -, -, rfl⟩ := step
    exact channels.begin idle fun _ => ⟨rfl, rfl, rfl⟩
  | messagePresent hart polling =>
    obtain ⟨idle, rfl⟩ := step
    exact channels.begin idle fun _ => ⟨rfl, rfl, rfl⟩
  | turn hart =>
    cases step
    exact channels.turn hart quiet

theorem channels_start (cfg : Config) (block : ip.State) : (ihcStart ip cfg block).Channels := by
  intro a b ne
  have clear := MivIhc.allClear_hssIhcInit cfg block b a ne.symm
  have none : (ihcStart ip cfg block).announced a b = false := (ip.rmp_eq_mp _ _ _ ne).trans clear.mp
  refine ⟨nofun, trivial, nofun, trivial, trivial, ?_⟩
  rw [inFlight_of_none none]
  rfl

theorem Channels.conserves (channels : s.Channels) : s.Conserves := fun a b ne => (channels a b ne).log

end IhcSystem

end Hss
