import Hss.Types

/-! The Mi-V inter-hart communication subsystem as the driver sees it: the registers of its channels,
what is promised of a write to them, and the start-up that clears them. -/

namespace Hss

/-! ### The registers -/

/-- The bits of `CTL_REG`. -/
def rmpMessagePresent : BitVec 32 := 1 <<< 0
def mpMessagePresent : BitVec 32 := 1 <<< 1
def mpieEn : BitVec 32 := 1 <<< 2
def ackInt : BitVec 32 := 1 <<< 3
def ackClr : BitVec 32 := 1 <<< 4
def ackieEn : BitVec 32 := 1 <<< 5

/-- The subsystem, which is fabric: what its registers hold, and what a write to one leaves.  The laws
are what `miv_ihc_regs.h` says of the bits; of the rest the fabric may make what it likes. -/
structure MivIhc where
  State : Type
  /-- `CTL_REG` of a hart, of its channel to another. -/
  ctlReg : State → HartId → HartId → BitVec 32
  writeCtlReg : HartId → HartId → BitVec 32 → State → State
  /-- `MSG_AVAIL` of the aggregator of a hart -/
  msgAvail : State → HartId → BitVec 32
  /-- `size_msg` of a channel -/
  sizeMsg : HartId → HartId → ℕ
  /-- A word of `mesg_in` of a hart, from another. -/
  mesgIn : State → HartId → HartId → ℕ → BitVec 32
  /-- A word of `mesg_out` of a hart, to another, is written. -/
  writeMesgOut : HartId → HartId → ℕ → BitVec 32 → State → State
  sizeMsg_comm : ∀ a b, sizeMsg a b = sizeMsg b a
  /-- A message that is present for one side is the remote message of the other. -/
  rmp_eq_mp : ∀ s a b, a ≠ b → (ctlReg s a b).getLsbD 0 = (ctlReg s b a).getLsbD 1
  /-- `RMP` is set to 1 to send a message, `MP` is set to 0 when it is read; and what is written back as
  it is stays. -/
  rmp_set : ∀ s a b v, a ≠ b → v.getLsbD 0 = true →
    (ctlReg (writeCtlReg a b v s) a b).getLsbD 0 = true
  mp_cleared : ∀ s a b v, a ≠ b → v.getLsbD 1 = false →
    (ctlReg (writeCtlReg a b v s) a b).getLsbD 1 = false
  rmp_kept : ∀ s a b v, a ≠ b → v.getLsbD 0 = (ctlReg s a b).getLsbD 0 →
    (ctlReg (writeCtlReg a b v s) a b).getLsbD 0 = (ctlReg s a b).getLsbD 0
  mp_kept : ∀ s a b v, a ≠ b → v.getLsbD 1 = (ctlReg s a b).getLsbD 1 →
    (ctlReg (writeCtlReg a b v s) a b).getLsbD 1 = (ctlReg s a b).getLsbD 1
  /-- An acknowledgement comes from the other side only, which writes 1, and goes when 0 is written to
  `CLR_ACK`. -/
  ack_raised : ∀ s a b v, a ≠ b → (ctlReg (writeCtlReg a b v s) b a).getLsbD 3 = true →
    (ctlReg s b a).getLsbD 3 = true ∨ v.getLsbD 3 = true
  ack_own : ∀ s a b v, a ≠ b → (ctlReg (writeCtlReg a b v s) a b).getLsbD 3 = true →
    (ctlReg s a b).getLsbD 3 = true
  ack_cleared : ∀ s a b v, a ≠ b → v.getLsbD 4 = false →
    (ctlReg (writeCtlReg a b v s) a b).getLsbD 3 = false
  /-- The enable is the side's own. -/
  ackie_written : ∀ s a b v, a ≠ b → (ctlReg (writeCtlReg a b v s) a b).getLsbD 5 = v.getLsbD 5
  ackie_other : ∀ s a b v, a ≠ b →
    (ctlReg (writeCtlReg a b v s) b a).getLsbD 5 = (ctlReg s b a).getLsbD 5
  /-- The aggregator shows the two bits of each channel. -/
  msgAvail_mp : ∀ s a b, a ≠ b → (msgAvail s a).getLsbD (2 * b.num) = (ctlReg s a b).getLsbD 1
  msgAvail_ack : ∀ s a b, a ≠ b → (msgAvail s a).getLsbD (2 * b.num + 1) = (ctlReg s a b).getLsbD 3
  /-- The channels are apart from each other, and the control registers from the buffers. -/
  ctlReg_apart : ∀ s a b c d v, ¬(c = a ∧ d = b) → ¬(c = b ∧ d = a) →
    ctlReg (writeCtlReg a b v s) c d = ctlReg s c d
  ctlReg_mesgOut : ∀ s a b i w, ctlReg (writeMesgOut a b i w s) = ctlReg s
  mesgIn_ctlReg : ∀ s a b v, mesgIn (writeCtlReg a b v s) = mesgIn s
  /-- What a hart puts into `mesg_out` the other finds in `mesg_in`. -/
  mesgIn_mesgOut : ∀ s a b i w c d j, mesgIn (writeMesgOut a b i w s) c d j =
    if c = b ∧ d = a ∧ j = i then w else mesgIn s c d j

/-! ### Start-up -/

namespace MivIhc

variable (ip : MivIhc)

/-- `IHC_local_context_init`: there is no channel of a hart to itself. -/
def ihcLocalContextInit (hart : HartId) (s : ip.State) : ip.State :=
  harts.foldl (fun s remote => if remote = hart then s else ip.writeCtlReg hart remote 0 s) s

/-- `IHC_global_init` -/
def ihcGlobalInit (s : ip.State) : ip.State := harts.foldl (fun s hart => ip.ihcLocalContextInit hart s) s

/-- `IHC_local_remote_config` -/
def ihcLocalRemoteConfig (hart remote : HartId) (setMpieEn setAckEn : Bool) (s : ip.State) : ip.State :=
  let s := if setMpieEn then ip.writeCtlReg hart remote (ip.ctlReg s hart remote ||| mpieEn) s else s
  if setAckEn then ip.writeCtlReg hart remote (ip.ctlReg s hart remote ||| ackieEn) s else s

/-- `HSS_IHCInit` -/
def hssIhcInit (cfg : Config) (s : ip.State) : ip.State :=
  bootMachine.foldl (fun s hart =>
    let s := ip.ihcLocalContextInit (.u54 hart) s
    if cfg.hssUseIhc then
      ip.ihcLocalRemoteConfig (.u54 hart) .e51 true false
        (ip.ihcLocalRemoteConfig .e51 (.u54 hart) false false s)
    else s) (ip.ihcLocalContextInit .e51 (ip.ihcGlobalInit s))

/-- No message is present for the side, no acknowledgement, and none is asked of it. -/
structure Clear (s : ip.State) (a b : HartId) : Prop where
  mp : (ip.ctlReg s a b).getLsbD 1 = false
  ack : (ip.ctlReg s a b).getLsbD 3 = false
  ackie : (ip.ctlReg s a b).getLsbD 5 = false

/-- All sides are clear. -/
def AllClear (s : ip.State) : Prop := ∀ a b : HartId, a ≠ b → ip.Clear s a b

variable {ip} {s : ip.State} {a b c d : HartId} {v : BitVec 32}

/-- A write that announces nothing, acknowledges nothing and asks for nothing leaves a side that is
clear, and the other if it is. -/
theorem Clear.other (clear : ip.Clear s c d) (ne : a ≠ b)
    (rmp : v.getLsbD 0 = false) (mp : v.getLsbD 1 = false) (ack : v.getLsbD 3 = false)
    (ackie : v.getLsbD 5 = false) : ip.Clear (ip.writeCtlReg a b v s) c d := by
  by_cases this : c = a ∧ d = b
  · obtain ⟨rfl, rfl⟩ := this
    refine ⟨ip.mp_cleared _ _ _ _ ne mp, ?_, (ip.ackie_written _ _ _ _ ne).trans ackie⟩
    by_contra raised
    have before := ip.ack_own _ _ _ _ ne (eq_true_of_ne_false raised)
    rw [clear.ack] at before
    cases before
  by_cases other : c = b ∧ d = a
  · obtain ⟨rfl, rfl⟩ := other
    refine ⟨?_, ?_, (ip.ackie_other _ _ _ _ ne).trans clear.ackie⟩
    · have none : (ip.ctlReg s d c).getLsbD 0 = false := (ip.rmp_eq_mp _ _ _ ne).trans clear.mp
      rw [← ip.rmp_eq_mp _ _ _ ne, ip.rmp_kept _ _ _ _ ne (rmp.trans none.symm), none]
    · by_contra raised
      rcases ip.ack_raised _ _ _ _ ne (eq_true_of_ne_false raised) with before | written
      · rw [clear.ack] at before
        cases before
      · rw [ack] at written
        cases written
  · have same := ip.ctlReg_apart s a b c d v this other
    exact ⟨same ▸ clear.mp, same ▸ clear.ack, same ▸ clear.ackie⟩

theorem clear_writeCtlReg (ne : a ≠ b) : ip.Clear (ip.writeCtlReg a b 0 s) a b :=
  ⟨ip.mp_cleared _ _ _ _ ne rfl, ip.ack_cleared _ _ _ _ ne rfl, ip.ackie_written _ _ _ _ ne⟩

theorem Clear.zero (clear : ip.Clear s c d) (ne : a ≠ b) :
    ip.Clear (ip.writeCtlReg a b 0 s) c d := clear.other ne rfl rfl rfl rfl

/-- The loop over the remote harts clears the sides that it comes to. -/
theorem clear_localContextInit (remotes : List HartId) (s : ip.State) (ne : c ≠ d)
    (clear : c = a ∧ d ∈ remotes ∨ ip.Clear s c d) :
    ip.Clear (remotes.foldl (fun s remote =>
      if remote = a then s else ip.writeCtlReg a remote 0 s) s) c d := by
  induction remotes generalizing s with
  | nil =>
    rcases clear with ⟨-, none⟩ | clear
    · cases none
    · exact clear
  | cons remote remotes ih =>
    refine ih _ ?_
    dsimp only
    by_cases own : remote = a
    · rw [if_pos own]
      rcases clear with ⟨rfl, first | later⟩ | clear
      · exact absurd own.symm ne
      · exact .inl ⟨rfl, ‹_›⟩
      · exact .inr clear
    · rw [if_neg own]
      rcases clear with ⟨rfl, first | later⟩ | clear
      · exact .inr (clear_writeCtlReg (Ne.symm own))
      · exact .inl ⟨rfl, ‹_›⟩
      · exact .inr (clear.zero (Ne.symm own))

theorem clear_globalInit (hs : List HartId) (s : ip.State) (ne : c ≠ d)
    (clear : c ∈ hs ∨ ip.Clear s c d) :
    ip.Clear (hs.foldl (fun s hart => ip.ihcLocalContextInit hart s) s) c d := by
  induction hs generalizing s with
  | nil => exact clear.resolve_left (List.not_mem_nil)
  | cons hart hs ih =>
    refine ih _ ?_
    rcases clear with mem | clear
    · rcases List.mem_cons.mp mem with rfl | later
      · exact .inr (clear_localContextInit _ _ ne (.inl ⟨rfl, mem_harts d⟩))
      · exact .inl later
    · exact .inr (clear_localContextInit _ _ ne (.inr clear))

theorem AllClear.localContextInit (clear : ip.AllClear s) (hart : HartId) :
    ip.AllClear (ip.ihcLocalContextInit hart s) :=
  fun _ _ ne => clear_localContextInit _ _ ne (.inr (clear _ _ ne))

/-- The enable of the message interrupt is set beside what the register has. -/
theorem AllClear.localRemoteConfig (clear : ip.AllClear s) (ne : a ≠ b) (setMpieEn : Bool) :
    ip.AllClear (ip.ihcLocalRemoteConfig a b setMpieEn false s) := by
  cases setMpieEn with
  | false => exact clear
  | true =>
    intro c d ne'
    have here := clear a b ne
    have there : (ip.ctlReg s a b).getLsbD 0 = false :=
      (ip.rmp_eq_mp _ _ _ ne).trans (clear b a ne.symm).mp
    have bits (i : ℕ) (other : mpieEn.getLsbD i = false) :
        (ip.ctlReg s a b ||| mpieEn).getLsbD i = (ip.ctlReg s a b).getLsbD i := by
      rw [BitVec.getLsbD_or, other, Bool.or_false]
    exact (clear c d ne').other ne ((bits 0 rfl).trans there) ((bits 1 rfl).trans here.mp)
      ((bits 3 rfl).trans here.ack) ((bits 5 rfl).trans here.ackie)

/-- Whatever the registers hold before, all sides are clear after the start-up. -/
theorem allClear_hssIhcInit (cfg : Config) (s : ip.State) : ip.AllClear (ip.hssIhcInit cfg s) := by
  have start : ip.AllClear (ip.ihcLocalContextInit .e51 (ip.ihcGlobalInit s)) :=
    AllClear.localContextInit (fun c _ ne => clear_globalInit _ _ ne (.inl (mem_harts c))) _
  rw [hssIhcInit]
  generalize ip.ihcLocalContextInit .e51 (ip.ihcGlobalInit s) = s at start ⊢
  induction bootMachine generalizing s with
  | nil => exact start
  | cons hart rest ih =>
    refine ih _ ?_
    have inited := start.localContextInit (.u54 hart)
    dsimp only
    cases cfg.hssUseIhc with
    | false => exact inited
    | true =>
      have first := inited.localRemoteConfig (a := .e51) (b := .u54 hart) (by simp) false
      exact first.localRemoteConfig (by simp) true

end MivIhc

/-! ### A plain subsystem -/

/-- The registers of a subsystem that does what is promised, and nothing else. -/
structure PlainIhc where
  present : HartId → HartId → Bool
  ack : HartId → HartId → Bool
  mpie : HartId → HartId → Bool
  ackie : HartId → HartId → Bool
  mesgIn : HartId → HartId → ℕ → BitVec 32

namespace PlainIhc

variable {s : PlainIhc} {a b c d : HartId} {v : BitVec 32} {i : ℕ}

/-- `CTL_REG` with these bits -/
def ofFlags (rmp mp mpie ack ackie : Bool) : BitVec 32 :=
  (BitVec.ofBoolListLE [rmp, mp, mpie, ack, false, ackie]).setWidth 32

def ctlReg (s : PlainIhc) (a b : HartId) : BitVec 32 :=
  ofFlags (s.present a b) (s.present b a) (s.mpie a b) (s.ack a b) (s.ackie a b)

def writeCtlReg (a b : HartId) (v : BitVec 32) (s : PlainIhc) : PlainIhc :=
  { s with
    present := fun c d =>
      if c = a ∧ d = b then s.present a b || v.getLsbD 0
      else if c = b ∧ d = a then s.present b a && v.getLsbD 1
      else s.present c d
    ack := fun c d =>
      if c = a ∧ d = b then s.ack a b && v.getLsbD 4
      else if c = b ∧ d = a then s.ack b a || v.getLsbD 3
      else s.ack c d
    mpie := fun c d => if c = a ∧ d = b then v.getLsbD 2 else s.mpie c d
    ackie := fun c d => if c = a ∧ d = b then v.getLsbD 5 else s.ackie c d }

def msgAvail (s : PlainIhc) (a : HartId) : BitVec 32 :=
  (BitVec.ofBoolListLE (harts.flatMap fun b => [s.present b a, s.ack a b])).setWidth 32

def writeMesgOut (a b : HartId) (i : ℕ) (w : BitVec 32) (s : PlainIhc) : PlainIhc :=
  { s with mesgIn := fun c d j => if c = b ∧ d = a ∧ j = i then w else s.mesgIn c d j }

theorem ctlReg_bit (s : PlainIhc) (a b : HartId) (small : i < 32) : (s.ctlReg a b).getLsbD i =
    [s.present a b, s.present b a, s.mpie a b, s.ack a b, false, s.ackie a b].getD i false := by
  rw [ctlReg, ofFlags, BitVec.getLsbD_setWidth, BitVec.getLsbD_ofBoolListLE, decide_eq_true small, Bool.true_and]

theorem ctlReg_rmp : (s.ctlReg a b).getLsbD 0 = s.present a b := ctlReg_bit s a b (by decide)

theorem ctlReg_mp : (s.ctlReg a b).getLsbD 1 = s.present b a := ctlReg_bit s a b (by decide)

theorem ctlReg_ack : (s.ctlReg a b).getLsbD 3 = s.ack a b := ctlReg_bit s a b (by decide)

theorem ctlReg_ackie : (s.ctlReg a b).getLsbD 5 = s.ackie a b := ctlReg_bit s a b (by decide)

theorem msgAvail_bit (s : PlainIhc) (a : HartId) (small : i < 32) : (s.msgAvail a).getLsbD i =
    (harts.flatMap fun b => [s.present b a, s.ack a b]).getD i false := by
  rw [msgAvail, BitVec.getLsbD_setWidth, BitVec.getLsbD_ofBoolListLE, decide_eq_true small, Bool.true_and]

theorem swapped (ne : a ≠ b) : ¬(b = a ∧ a = b) := fun both => ne both.2

/-- The plain subsystem, with messages of four words -/
def miv : MivIhc where
  State := PlainIhc
  ctlReg := ctlReg
  writeCtlReg := writeCtlReg
  msgAvail := msgAvail
  sizeMsg _ _ := 4
  mesgIn := mesgIn
  writeMesgOut := writeMesgOut
  sizeMsg_comm _ _ := rfl
  rmp_eq_mp s a b _ := by rw [ctlReg_rmp, ctlReg_mp]
  rmp_set s a b v ne set := by simp only [ctlReg_rmp, writeCtlReg, set, and_self, if_true, Bool.or_true]
  mp_cleared s a b v ne clear := by
    simp only [ctlReg_mp, writeCtlReg, clear, swapped ne, and_self, if_true, if_false, Bool.and_false]
  rmp_kept s a b v ne same := by
    simp only [ctlReg_rmp] at same ⊢
    simp only [writeCtlReg, same, and_self, if_true, Bool.or_self]
  mp_kept s a b v ne same := by
    simp only [ctlReg_mp] at same ⊢
    simp only [writeCtlReg, same, swapped ne, and_self, if_true, if_false, Bool.and_self]
  ack_raised s a b v ne raised := by
    simpa only [ctlReg_ack, writeCtlReg, swapped ne, and_self, if_true, if_false,
      Bool.or_eq_true] using raised
  ack_own s a b v ne raised := by
    simp only [ctlReg_ack, writeCtlReg, and_self, if_true, Bool.and_eq_true] at raised ⊢
    exact raised.1
  ack_cleared s a b v ne clear := by
    simp only [ctlReg_ack, writeCtlReg, clear, and_self, if_true, Bool.and_false]
  ackie_written s a b v ne := by simp only [ctlReg_ackie, writeCtlReg, and_self, if_true]
  ackie_other s a b v ne := by simp only [ctlReg_ackie, writeCtlReg, swapped ne, if_false]
  msgAvail_mp s a b _ := by
    rw [ctlReg_mp]
    rcases b with - | b
    · exact msgAvail_bit s a (by decide)
    · cases b <;> exact msgAvail_bit s a (by decide)
  msgAvail_ack s a b _ := by
    rw [ctlReg_ack]
    rcases b with - | b
    · exact msgAvail_bit s a (by decide)
    · cases b <;> exact msgAvail_bit s a (by decide)
  ctlReg_apart s a b c d v own other := by
    have own' : ¬(d = a ∧ c = b) := fun both => other both.symm
    have other' : ¬(d = b ∧ c = a) := fun both => own both.symm
    simp only [ctlReg, writeCtlReg, own, other, own', other', if_false]
  ctlReg_mesgOut _ _ _ _ _ := rfl
  mesgIn_ctlReg _ _ _ _ := rfl
  mesgIn_mesgOut _ _ _ _ _ _ _ _ := rfl

end PlainIhc

end Hss
