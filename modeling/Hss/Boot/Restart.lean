import Hss.Boot.Memory

/-! Which machines a restart puts back to their first state: those of the harts that share their
entry point with a requested hart, and what becomes of the machines when a request is refused. -/

namespace Hss

variable {cfg : Config} {s t : State} {mask : BitVec 32} {result : StatusCode} {hart source i : U54}

/-! ### Boot sets -/

/-- A machine after a restart. -/
def restarted (m : StateMachine BootState) : StateMachine BootState :=
  match m.state with
  | .opensbiInit => m
  | _ => { m with state := .initialization }

theorem restarted_restarted (m : StateMachine BootState) : restarted (restarted m) = restarted m := by
  obtain ⟨state, prevState, startTime, executionCount⟩ := m
  cases state <;> rfl

theorem restartMachine_machine (i : U54) (s : State) :
    (restartMachine i s).machine = Function.update s.machine i (restarted (s.machine i)) := by
  unfold restartMachine restarted
  cases (s.machine i).state with
  | opensbiInit => exact (Function.update_eq_self i s.machine).symm
  | _ => rfl

theorem SameImage.restart (mask : BitVec 32) (s : State) :
    SameImage s (bootUsingHartBitmask mask s).1 :=
  bootUsingHartBitmask_induction (P := SameImage s)
    (fun hart u same => same.trans (SameTables.restartMachine hart u).toSameImage)
    (fun _ same => same.trans ⟨rfl, rfl, rfl, rfl⟩) mask (.refl s)

/-- One turn of the loop of `boot_using_hart_bitmask_`. -/
def bootTurn (mask : BitVec 32) (p : State × Bool) (hart : U54) : State × Bool :=
  if mask.getLsbD hart.num then (restartMachine hart p.1, true) else p

theorem bootUsingHartBitmask_eq (mask : BitVec 32) (s : State) :
    bootUsingHartBitmask mask s =
      ((bootMachine.foldl (bootTurn mask) (s, false)).1.notify .postBoot,
        (bootMachine.foldl (bootTurn mask) (s, false)).2) := rfl

theorem foldl_bootTurn_machine (mask : BitVec 32) (hart : U54) (l : List U54) (p : State × Bool) :
    (l.foldl (bootTurn mask) p).1.machine hart =
      if hart ∈ l ∧ mask.getLsbD hart.num = true then restarted (p.1.machine hart)
      else p.1.machine hart := by
  induction l generalizing p with
  | nil => simp
  | cons i l ih =>
    rw [List.foldl_cons, ih, bootTurn]
    by_cases asked : mask.getLsbD i.num = true
    · simp only [asked, if_true, restartMachine_machine]
      by_cases own : hart = i
      · subst own
        simp [asked, restarted_restarted]
      · simp [own]
    · have other : mask.getLsbD hart.num = true → hart ≠ i := by
        rintro bit rfl
        exact asked bit
      simp only [asked, List.mem_cons]
      by_cases bit : mask.getLsbD hart.num = true
      · simp [other bit]
      · simp [bit]

theorem bootUsingHartBitmask_machine (mask : BitVec 32) (s : State) (hart : U54) :
    (bootUsingHartBitmask mask s).1.machine hart =
      if mask.getLsbD hart.num then restarted (s.machine hart) else s.machine hart := by
  rw [bootUsingHartBitmask_eq, State.notify_machine, foldl_bootTurn_machine]
  simp only [mem_bootMachine, true_and]

theorem foldl_bootTurn_booted (asked : mask.getLsbD hart.num = true) (l : List U54)
    (p : State × Bool) (h : hart ∈ l ∨ p.2 = true) : (l.foldl (bootTurn mask) p).2 = true := by
  induction l generalizing p with
  | nil => exact h.resolve_left List.not_mem_nil
  | cons i l ih =>
    rw [List.foldl_cons, bootTurn]
    refine ih _ ?_
    split
    · exact .inr rfl
    · next unasked =>
      refine h.imp_left fun member => (List.mem_cons.mp member).resolve_left ?_
      rintro rfl
      exact unasked asked

theorem bootUsingHartBitmask_booted (s : State) (asked : mask.getLsbD hart.num = true) :
    (bootUsingHartBitmask mask s).2 = true := by
  rw [bootUsingHartBitmask_eq]
  exact foldl_bootTurn_booted asked bootMachine (s, false) (.inl (mem_bootMachine hart))

theorem getLsbD_hartBit (i hart : U54) :
    ((1 : BitVec 32) <<< i.num).getLsbD hart.num = decide (hart = i) := by
  revert i hart
  decide

theorem getLsbD_bootSetMask (source : U54) (s : State) (hart : U54) :
    (bootSetMask source s).getLsbD hart.num =
      decide (s.entryPoint hart = s.entryPoint source) := by
  have fold : ∀ (l : List U54) (mask : BitVec 32),
      (l.foldl (fun mask peer =>
        if peer = source then mask
        else if s.entryPoint peer = s.entryPoint source then mask ||| (1 : BitVec 32) <<< peer.num
        else mask) mask).getLsbD hart.num =
        (mask.getLsbD hart.num ||
          decide (hart ∈ l ∧ hart ≠ source ∧ s.entryPoint hart = s.entryPoint source)) := by
    intro l
    induction l with
    | nil => simp
    | cons peer l ih =>
      intro mask
      rw [List.foldl_cons, ih]
      by_cases own : hart = peer
      · subst own
        by_cases self : hart = source
        · simp [self]
        · by_cases same : s.entryPoint hart = s.entryPoint source
          · rw [if_neg self, if_pos same, BitVec.getLsbD_or, getLsbD_hartBit]
            simp [self, same]
          · simp [self, same]
      · split
        · simp [own]
        · split
          · rw [BitVec.getLsbD_or, getLsbD_hartBit]
            simp [own]
          · simp [own]
  rw [bootSetMask, BitVec.getLsbD_or, fold, getLsbD_hartBit]
  by_cases self : hart = source
  · simp [self]
  · simp [self, mem_bootMachine]

/-! ### The sweep over the requested harts -/

/-- One turn of the loop of `HSS_Boot_RestartCores_Using_Bitmask`. -/
def restartTurn (p : State × StatusCode × BitVec 32) (source : U54) :
    State × StatusCode × BitVec 32 :=
  let (s, result, mask) := p
  if mask.getLsbD source.num = false then (s, result, mask)
  else
    let localMask := bootSetMask source s
    if s.numChunks source ≠ 0 then
      let (s, booted) := bootUsingHartBitmask localMask s
      (s, if booted then .success else result, mask &&& ~~~localMask)
    else (s, result, mask &&& ~~~localMask)

theorem restartTurn_of_not (asked : mask.getLsbD source.num = false) :
    restartTurn (s, result, mask) source = (s, result, mask) := if_pos asked

theorem restartTurn_of_noChunks (asked : mask.getLsbD source.num = true)
    (chunks : s.numChunks source = 0) : restartTurn (s, result, mask) source =
      (s, result, mask &&& ~~~bootSetMask source s) := by
  simp only [restartTurn, asked, chunks, Bool.true_eq_false, if_false, ne_eq, not_true_eq_false]

theorem restartTurn_of_chunks (asked : mask.getLsbD source.num = true)
    (chunks : s.numChunks source ≠ 0) : restartTurn (s, result, mask) source =
      ((bootUsingHartBitmask (bootSetMask source s) s).1, .success,
        mask &&& ~~~bootSetMask source s) := by
  have own : (bootSetMask source s).getLsbD source.num = true := by
    rw [getLsbD_bootSetMask]
    exact decide_eq_true rfl
  simp only [restartTurn, asked, chunks, bootUsingHartBitmask_booted s own, Bool.true_eq_false,
    if_false, ne_eq, not_false_eq_true, if_true]

theorem hssBootRestartCoresUsingBitmask_eq
    (valid : hssBootValidateImage s.mem s.pBootImage = true) (mask : BitVec 32) :
    hssBootRestartCoresUsingBitmask mask s =
      let p := bootMachine.foldl restartTurn (s, .fail, mask)
      (p.1, p.2.1) := by
  have image : s.pBootImage ≠ 0 := by
    intro null
    rw [null] at valid
    exact absurd valid (by simp [hssBootValidateImage])
  rw [hssBootRestartCoresUsingBitmask, if_neg image, valid]
  rfl

/-- The first hart of a list that is requested and has the entry point of `hart`. -/
def firstRequested (l : List U54) (mask : BitVec 32) (s : State) (hart : U54) : Option U54 :=
  l.find? fun source => mask.getLsbD source.num && decide (s.entryPoint source = s.entryPoint hart)

/-- The mask after a turn that took the boot set of `source`. -/
theorem getLsbD_remaining (mask : BitVec 32) (source : U54) (s : State) (hart : U54) :
    (mask &&& ~~~bootSetMask source s).getLsbD hart.num =
      (mask.getLsbD hart.num && !decide (s.entryPoint hart = s.entryPoint source)) := by
  have small : hart.num < 32 := lt_of_le_of_lt hart.num_le (by decide)
  rw [BitVec.getLsbD_and, BitVec.getLsbD_not, getLsbD_bootSetMask]
  simp [small]

/-- After the boot set of `source` was taken, no hart of it is requested. -/
theorem firstRequested_taken {u : State} (l : List U54) (same : SameImage s u)
    (mask : BitVec 32) (member : s.entryPoint hart = s.entryPoint source) :
    firstRequested l (mask &&& ~~~bootSetMask source s) u hart = none := by
  refine List.find?_eq_none.mpr fun i _ => ?_
  rw [getLsbD_remaining, same.entryPoint, same.entryPoint, member]
  by_cases h : s.entryPoint i = s.entryPoint source <;> simp [h]

/-- For a hart of another boot set, the requests are as before. -/
theorem firstRequested_other {u : State} (l : List U54) (same : SameImage s u) (mask : BitVec 32)
    (other : s.entryPoint hart ≠ s.entryPoint source) :
    firstRequested l (mask &&& ~~~bootSetMask source s) u hart = firstRequested l mask s hart := by
  unfold firstRequested
  congr 1
  funext i
  rw [getLsbD_remaining, same.entryPoint, same.entryPoint]
  by_cases h : s.entryPoint i = s.entryPoint hart
  · simp [h, other]
  · simp [h]

/-- The machine of a hart after the turns for a list: it is restarted if the first requested hart of
its boot set has chunks. -/
theorem foldl_restartTurn_machine (l : List U54) (s : State) (result : StatusCode)
    (mask : BitVec 32) (hart : U54) :
    (l.foldl restartTurn (s, result, mask)).1.machine hart =
      if (firstRequested l mask s hart).any (fun source => s.numChunks source ≠ 0) then
        restarted (s.machine hart)
      else s.machine hart := by
  induction l generalizing s result mask with
  | nil => rfl
  | cons source l ih =>
    rw [List.foldl_cons]
    cases asked : mask.getLsbD source.num with
    | false =>
      have first : firstRequested (source :: l) mask s hart = firstRequested l mask s hart :=
        List.find?_cons_of_neg (by simp [asked])
      rw [restartTurn_of_not asked, ih, first]
    | true =>
      by_cases member : s.entryPoint hart = s.entryPoint source
      · have first : firstRequested (source :: l) mask s hart = some source :=
          List.find?_cons_of_pos (by simp [asked, member])
        rw [first, Option.any_some]
        by_cases chunks : s.numChunks source = 0
        · rw [restartTurn_of_noChunks asked chunks, ih,
            firstRequested_taken l (.refl s) mask member]
          simp [chunks]
        · rw [restartTurn_of_chunks asked chunks, ih,
            firstRequested_taken l (.restart _ s) mask member, bootUsingHartBitmask_machine,
            getLsbD_bootSetMask, if_pos (decide_eq_true member), if_pos (decide_eq_true chunks)]
          rfl
      · have first : firstRequested (source :: l) mask s hart = firstRequested l mask s hart :=
          List.find?_cons_of_neg (by simp [asked, Ne.symm member])
        rw [first]
        by_cases chunks : s.numChunks source = 0
        · rw [restartTurn_of_noChunks asked chunks, ih,
            firstRequested_other l (.refl s) mask member]
        · rw [restartTurn_of_chunks asked chunks, ih,
            firstRequested_other l (.restart _ s) mask member, bootUsingHartBitmask_machine,
            getLsbD_bootSetMask]
          simp only [(SameImage.restart _ s).numChunks, member, decide_false, Bool.false_eq_true,
            if_false]

/-- The machine of a hart after a restart by mask. -/
theorem restartCores_machine (valid : hssBootValidateImage s.mem s.pBootImage = true)
    (mask : BitVec 32) (hart : U54) :
    (hssBootRestartCoresUsingBitmask mask s).1.machine hart =
      if (firstRequested bootMachine mask s hart).any (fun source => s.numChunks source ≠ 0) then
        restarted (s.machine hart)
      else s.machine hart := by
  rw [hssBootRestartCoresUsingBitmask_eq valid]
  exact foldl_restartTurn_machine bootMachine s .fail mask hart

theorem before_of_find?_bootMachine {p : U54 → Bool} (found : bootMachine.find? p = some source)
    {peer : U54} (lower : peer.num < source.num) : p peer = false := by
  obtain ⟨-, before, after, split, none⟩ := List.find?_eq_some_iff_append.mp found
  have sorted : (before ++ source :: after).Pairwise fun i j => i.num < j.num :=
    split ▸ (by decide : bootMachine.Pairwise fun i j => i.num < j.num)
  have member : peer ∈ before ++ source :: after := split ▸ mem_bootMachine peer
  rcases List.mem_append.mp member with early | late
  · simpa using none peer early
  · rcases List.mem_cons.mp late with rfl | late
    · exact absurd lower (lt_irrefl _)
    · have := List.rel_of_pairwise_cons (List.pairwise_append.mp sorted).2.1 late
      omega

/-- The harts that can be the first requested of a boot set. -/
theorem firstRequested_spec (first : firstRequested bootMachine mask s hart = some source) :
    mask.getLsbD source.num = true ∧ s.entryPoint source = s.entryPoint hart ∧
      ∀ peer : U54, peer.num < source.num → mask.getLsbD peer.num = true →
        s.entryPoint peer ≠ s.entryPoint hart := by
  have holds := List.find?_some first
  rw [Bool.and_eq_true, decide_eq_true_eq] at holds
  refine ⟨holds.1, holds.2, fun peer lower asked member => ?_⟩
  have unasked := before_of_find?_bootMachine first lower
  rw [asked, decide_eq_true member] at unasked
  cases unasked

theorem exists_firstRequested (asked : mask.getLsbD source.num = true)
    (member : s.entryPoint source = s.entryPoint hart) :
    ∃ first, firstRequested bootMachine mask s hart = some first := by
  refine Option.isSome_iff_exists.mp (List.find?_isSome.mpr ⟨source, mem_bootMachine source, ?_⟩)
  rw [asked, decide_eq_true member]
  rfl

/-- For a validated image and any mask: the whole boot set of a requested hart with chunks is
restarted, unless a requested hart of the set with a lower number has none, and the machines of the
harts that share no entry point with a requested hart with chunks are left alone.  A restart leaves a
machine that is starting its harts where it is. -/
theorem restartCores_machines (valid : hssBootValidateImage s.mem s.pBootImage = true)
    (mask : BitVec 32) (hart : U54) :
    let t := (hssBootRestartCoresUsingBitmask mask s).1
    ((∃ source, mask.getLsbD source.num = true ∧ s.numChunks source ≠ 0 ∧
        s.entryPoint source = s.entryPoint hart ∧
        ∀ peer : U54, peer.num < source.num → mask.getLsbD peer.num = true →
          s.entryPoint peer = s.entryPoint hart → s.numChunks peer ≠ 0) →
      t.machine hart = restarted (s.machine hart)) ∧
    ((∀ source : U54, mask.getLsbD source.num = true → s.entryPoint source = s.entryPoint hart →
        s.numChunks source = 0) →
      t.machine hart = s.machine hart) := by
  dsimp only
  rw [restartCores_machine valid]
  constructor
  · rintro ⟨source, asked, chunks, member, lower⟩
    obtain ⟨first, found⟩ := exists_firstRequested asked member
    obtain ⟨firstAsked, firstMember, before⟩ := firstRequested_spec found
    rw [found, Option.any_some, if_pos]
    refine decide_eq_true ?_
    rcases Nat.lt_trichotomy first.num source.num with less | same | more
    · exact lower first less firstAsked firstMember
    · rwa [U54.num_injective same]
    · exact absurd member (before source more asked)
  · intro none
    rw [if_neg]
    intro any
    obtain ⟨source, found, chunks⟩ := (Option.any_eq_true _ _).mp any
    obtain ⟨asked, member, -⟩ := firstRequested_spec found
    exact of_decide_eq_true chunks (none source asked member)

/-- A restart of the three harts' image in which the first machine is starting its harts. -/
def threeHartsStarting : State := threeHartsRegistered.goto .u54_1 .opensbiInit

theorem restartCores_machines_threeHarts :
    ((hssBootRestartCoresUsingBitmask 0x2 threeHartsRegistered).1.machine .u54_3).state =
      .initialization := by
  have machines := restartCores_machines (s := threeHartsRegistered) threeHarts_valid 0x2 .u54_3
  rw [machines.1 ⟨.u54_1, by decide, by decide +kernel, by decide +kernel, fun peer lower => by
    cases peer <;> exact absurd lower (by decide)⟩]
  rfl

/-- The request for the first hart, which has chunks, leaves its machine where it is, and the request
for the third, which shares the entry point but has no chunks, restarts no hart of the boot set. -/
theorem threeHarts_not_restarted :
    hssBootValidateImage threeHartsStarting.mem threeHartsStarting.pBootImage = true ∧
      threeHartsStarting.numChunks .u54_1 ≠ 0 ∧
      ((hssBootRestartCoresUsingBitmask 0x2 threeHartsStarting).1.machine .u54_1).state ≠
        .initialization ∧
      threeHartsStarting.entryPoint .u54_3 = threeHartsStarting.entryPoint .u54_2 ∧
      ((hssBootRestartCoresUsingBitmask 0x8 threeHartsStarting).1.machine .u54_2).state ≠
        .initialization := by
  have valid : hssBootValidateImage threeHartsStarting.mem threeHartsStarting.pBootImage = true :=
    threeHarts_valid
  have third : (firstRequested bootMachine 0x8 threeHartsStarting .u54_2).any
      (fun source => threeHartsStarting.numChunks source ≠ 0) = false := by decide +kernel
  refine ⟨valid, by decide +kernel, ?_, by decide +kernel, ?_⟩
  · rw [restartCores_machine valid]
    split <;> decide
  · rw [restartCores_machine valid, third]
    decide

/-! ### Refused requests -/

/-- The result after the turns for a list: a success once the first requested hart of some boot set
has chunks. -/
theorem foldl_restartTurn_result (l : List U54) (s : State) (result : StatusCode)
    (mask : BitVec 32) :
    (l.foldl restartTurn (s, result, mask)).2.1 =
      if ∃ hart, (firstRequested l mask s hart).any (fun source => s.numChunks source ≠ 0) = true then
        .success
      else result := by
  induction l generalizing s result mask with
  | nil => simp [firstRequested]
  | cons source l ih =>
    rw [List.foldl_cons]
    cases asked : mask.getLsbD source.num with
    | false =>
      have first : ∀ hart, firstRequested (source :: l) mask s hart = firstRequested l mask s hart :=
        fun hart => List.find?_cons_of_neg (by simp [asked])
      simp only [restartTurn_of_not asked, ih, first]
    | true =>
      have own : ∀ hart, s.entryPoint hart = s.entryPoint source →
          firstRequested (source :: l) mask s hart = some source := fun hart member =>
        List.find?_cons_of_pos (by simp [asked, member])
      have other : ∀ hart, s.entryPoint hart ≠ s.entryPoint source →
          firstRequested (source :: l) mask s hart = firstRequested l mask s hart :=
        fun hart member => List.find?_cons_of_neg (by simp [asked, Ne.symm member])
      by_cases chunks : s.numChunks source = 0
      · rw [restartTurn_of_noChunks asked chunks, ih]
        refine if_congr (exists_congr fun hart => ?_) rfl rfl
        by_cases member : s.entryPoint hart = s.entryPoint source
        · rw [firstRequested_taken l (.refl s) mask member, own hart member]
          simp [chunks]
        · rw [firstRequested_other l (.refl s) mask member, other hart member]
      · have found : ∃ hart, (firstRequested (source :: l) mask s hart).any
            (fun source => s.numChunks source ≠ 0) = true :=
          ⟨source, by rw [own source rfl]; exact decide_eq_true chunks⟩
        rw [restartTurn_of_chunks asked chunks, ih, if_pos found, ite_self]

theorem restartCores_of_not_valid (invalid : hssBootValidateImage s.mem s.pBootImage = false)
    (mask : BitVec 32) : hssBootRestartCoresUsingBitmask mask s = (s, .fail) := by
  rw [hssBootRestartCoresUsingBitmask, invalid]
  split <;> rfl

theorem restartCores_failed (failed : (hssBootRestartCoresUsingBitmask mask s).2 = .fail) :
    (hssBootRestartCoresUsingBitmask mask s).1.machine = s.machine := by
  cases valid : hssBootValidateImage s.mem s.pBootImage with
  | false => rw [restartCores_of_not_valid valid]
  | true =>
    funext hart
    rw [hssBootRestartCoresUsingBitmask_eq valid] at failed
    have result := (foldl_restartTurn_result bootMachine s .fail mask).symm.trans failed
    have none : ¬ (firstRequested bootMachine mask s hart).any
        (fun source => s.numChunks source ≠ 0) = true := by
      intro any
      rw [if_pos ⟨hart, any⟩] at result
      cases result
    rw [restartCores_machine valid, if_neg none]

/-- The machines that a restart by mask changes are in the boot set of a requested hart. -/
theorem restartCores_changed
    (changed : (hssBootRestartCoresUsingBitmask mask s).1.machine hart ≠ s.machine hart) :
    ∃ source : U54, mask.getLsbD source.num = true ∧ s.entryPoint hart = s.entryPoint source := by
  cases valid : hssBootValidateImage s.mem s.pBootImage with
  | false =>
    rw [restartCores_of_not_valid valid] at changed
    exact absurd rfl changed
  | true =>
    rw [restartCores_machine valid] at changed
    split at changed
    · next any =>
      obtain ⟨source, first, -⟩ := (Option.any_eq_true _ _).mp any
      obtain ⟨asked, member, -⟩ := firstRequested_spec first
      exact ⟨source, asked, member.symm⟩
    · exact absurd rfl changed

/-- The restart of one hart succeeds if the image is valid and has chunks for it. -/
theorem restartCores_one (source : U54) (s : State) :
    (hssBootRestartCoresUsingBitmask ((1 : BitVec 32) <<< source.num) s).2 = .fail ↔
      ¬ (hssBootValidateImage s.mem s.pBootImage = true ∧ s.numChunks source ≠ 0) := by
  cases valid : hssBootValidateImage s.mem s.pBootImage with
  | false => simp [restartCores_of_not_valid valid]
  | true =>
    rw [hssBootRestartCoresUsingBitmask_eq valid]
    dsimp only
    rw [foldl_restartTurn_result]
    have only : ∀ {hart first}, firstRequested bootMachine ((1 : BitVec 32) <<< source.num) s hart = some first →
        first = source := fun found =>
      of_decide_eq_true ((getLsbD_hartBit source _).symm.trans (firstRequested_spec found).1)
    by_cases chunks : s.numChunks source = 0
    · have none : ¬ ∃ hart, (firstRequested bootMachine ((1 : BitVec 32) <<< source.num) s hart).any
          (fun source => s.numChunks source ≠ 0) = true := by
        rintro ⟨hart, any⟩
        obtain ⟨first, found, some⟩ := (Option.any_eq_true _ _).mp any
        cases only found
        exact of_decide_eq_true some chunks
      rw [if_neg none]
      exact iff_of_true rfl fun h => h.2 chunks
    · have asked : ((1 : BitVec 32) <<< source.num).getLsbD source.num = true := by
        rw [getLsbD_hartBit, decide_eq_true rfl]
      obtain ⟨first, found⟩ := exists_firstRequested (s := s) asked rfl
      have some : ∃ hart, (firstRequested bootMachine ((1 : BitVec 32) <<< source.num) s hart).any
          (fun source => s.numChunks source ≠ 0) = true := by
        refine ⟨source, ?_⟩
        rw [found, Option.any_some, only found]
        exact decide_eq_true chunks
      rw [if_pos some]
      exact iff_of_false (fun h => nomatch h) fun h => h ⟨rfl, chunks⟩

/-- The requests to restart machines. -/
inductive RestartRequest
  /-- A message to `HSS_Boot_IPIHandler`. -/
  | ipi (transactionId : TxId) (source : HartId) (immediateArg : BitVec 32)
      (extendedBuffer ancilliaryBuffer : Word)
  /-- `HSS_Boot_RestartCore` -/
  | core (source : Option HartId)
  /-- `HSS_Boot_RestartCores_Using_Bitmask` -/
  | cores (mask : BitVec 32)

/-- The call that a request makes. -/
def RestartRequest.perform (cfg : Config) (s : State) :
    RestartRequest → Except Halt (State × StatusCode)
  | .ipi transactionId source immediateArg extendedBuffer ancilliaryBuffer =>
    hssBootIpiHandler cfg transactionId source immediateArg extendedBuffer ancilliaryBuffer s
  | .core source => hssBootRestartCore source s
  | .cores mask => .ok (hssBootRestartCoresUsingBitmask mask s)

/-- The message asks to start a remote processor. -/
def asksRproc (cfg : Config) (immediateArg : BitVec 32) : Bool :=
  cfg.serviceOpensbiRproc && immediateArg = rprocBoot

/-- The harts that a request asks for. -/
def RestartRequest.Asks (cfg : Config) (s : State) (hart : U54) : RestartRequest → Prop
  | .ipi _ source immediateArg extendedBuffer _ =>
    if asksRproc cfg immediateArg then rprocTarget s.mem extendedBuffer = some hart
    else source = .u54 hart
  | .core none => True
  | .core (some source) => source = .u54 hart
  | .cores mask => mask.getLsbD hart.num = true

/-- A request that fails leaves the states of all machines as they were, and one that succeeds changes
those of the boot sets of the requested harts only. -/
structure AllOrNothing (asked : U54 → Prop) (result : StatusCode) (s t : State) : Prop where
  failed : result = .fail → ∀ hart, (t.machine hart).state = (s.machine hart).state
  succeeded : result = .success → ∀ hart, (t.machine hart).state ≠ (s.machine hart).state →
    ∃ source, asked source ∧ s.entryPoint hart = s.entryPoint source

/-- When a request is all or nothing: if it asks to start a remote processor, the machine of that
processor is starting its harts already, or the image is valid and has chunks for it. -/
def RestartRequest.Accepted (cfg : Config) (s : State) : RestartRequest → Prop
  | .ipi _ _ immediateArg extendedBuffer _ => asksRproc cfg immediateArg = true →
    ∀ hart, rprocTarget s.mem extendedBuffer = some hart →
      (s.machine hart).state = .opensbiInit ∨
        (hssBootValidateImage s.mem s.pBootImage = true ∧ s.numChunks hart ≠ 0)
  | _ => True

theorem allOrNothing_cores (mask : BitVec 32) (s : State) :
    AllOrNothing (fun hart => mask.getLsbD hart.num = true)
      (hssBootRestartCoresUsingBitmask mask s).2 s (hssBootRestartCoresUsingBitmask mask s).1 where
  failed failed hart := by rw [restartCores_failed failed]
  succeeded _ hart changed := restartCores_changed fun same => changed (by rw [same])

theorem AllOrNothing.mono {asked asked' : U54 → Prop} (more : ∀ hart, asked hart → asked' hart)
    (all : AllOrNothing asked result s t) : AllOrNothing asked' result s t where
  failed := all.failed
  succeeded success hart changed :=
    (all.succeeded success hart changed).imp fun _ h => h.imp_left (more _)

theorem allOrNothing_core {source : Option HartId}
    (done : hssBootRestartCore source s = .ok (t, result)) :
    AllOrNothing (fun hart => ∀ h, source = some h → h = .u54 hart) result s t := by
  simp only [hssBootRestartCore, bind_eq_ok, assert_eq_ok] at done
  obtain ⟨-, -, done⟩ := done
  cases source with
  | some source =>
    have cores := allOrNothing_cores ((1 : BitVec 32) <<< source.num) s
    have after : hssBootRestartCoresUsingBitmask ((1 : BitVec 32) <<< source.num) s = (t, result) :=
      Except.ok.inj done
    rw [after] at cores
    refine cores.mono fun hart bit h same => ?_
    cases same
    cases source with
    | e51 =>
      revert bit
      revert hart
      decide
    | u54 own => rw [of_decide_eq_true ((getLsbD_hartBit own hart).symm.trans bit)]
  | none =>
    dsimp only at done
    split at done
    · cases done
      exact ⟨fun _ _ => rfl, fun success => absurd success (by decide)⟩
    · cases done
      rw [bootUsingHartBitmask_booted s (show bitmaskAllU54.getLsbD U54.u54_1.num = true by decide)]
      exact ⟨fun failed => absurd failed (by decide), fun _ hart _ =>
        ⟨hart, fun h none => absurd none (by simp), rfl⟩⟩

/-- A request to start a remote processor. -/
theorem allOrNothing_rproc_iff (source : U54)
    (done : hssBootRestartCore (some (.u54 source)) (s.goto source .opensbiInit) = .ok (t, result)) :
    AllOrNothing (fun hart => source = hart) result s t ↔
      (s.machine source).state = .opensbiInit ∨
        (hssBootValidateImage s.mem s.pBootImage = true ∧ s.numChunks source ≠ 0) := by
  simp only [hssBootRestartCore, bind_eq_ok, assert_eq_ok] at done
  obtain ⟨-, -, done⟩ := done
  have after : hssBootRestartCoresUsingBitmask ((1 : BitVec 32) <<< source.num)
      (s.goto source .opensbiInit) = (t, result) := Except.ok.inj done
  have cores := allOrNothing_cores ((1 : BitVec 32) <<< source.num) (s.goto source .opensbiInit)
  have one := restartCores_one source (s.goto source .opensbiInit)
  rw [after] at cores one
  have own : ((s.goto source .opensbiInit).machine source).state = .opensbiInit := by simp
  have others : ∀ hart, hart ≠ source →
      ((s.goto source .opensbiInit).machine hart).state = (s.machine hart).state := fun hart other => by
    simp [Function.update_of_ne other]
  constructor
  · intro all
    by_contra refused
    obtain ⟨moved, noChunks⟩ := not_or.mp refused
    have failed : result = .fail := one.mpr noChunks
    exact moved ((all.failed failed source).symm.trans ((cores.failed failed source).trans own))
  · rintro (starting | good)
    · have same : ∀ hart, ((s.goto source .opensbiInit).machine hart).state =
          (s.machine hart).state := fun hart => by
        by_cases h : hart = source
        · rw [h, own, starting]
        · exact others hart h
      refine ⟨fun failed hart => (cores.failed failed hart).trans (same hart),
        fun success hart changed => ?_⟩
      obtain ⟨asked, bit, member⟩ := cores.succeeded success hart fun h => changed (h.trans (same hart))
      exact ⟨asked, (of_decide_eq_true ((getLsbD_hartBit source asked).symm.trans bit)).symm, member⟩
    · refine ⟨fun failed => absurd good (one.mp failed), fun success hart changed => ?_⟩
      by_cases h : hart = source
      · exact ⟨source, rfl, by rw [h]⟩
      · obtain ⟨asked, bit, member⟩ := cores.succeeded success hart fun same =>
          changed (same.trans (others hart h))
        exact ⟨asked, (of_decide_eq_true ((getLsbD_hartBit source asked).symm.trans bit)).symm, member⟩

/-- Of every request, in every state: it is all or nothing exactly if it is accepted in the sense
above. A request to start a remote processor moves the processor's machine before the image and its
chunks are looked at. -/
theorem restartRequest_allOrNothing_iff (request : RestartRequest)
    (done : request.perform cfg s = .ok (t, result)) :
    AllOrNothing (fun hart => request.Asks cfg s hart) result s t ↔ request.Accepted cfg s := by
  cases request with
  | ipi transactionId source immediateArg extendedBuffer ancilliaryBuffer =>
    rw [RestartRequest.perform, hssBootIpiHandler, ← asksRproc] at done
    simp only [RestartRequest.Asks, RestartRequest.Accepted]
    by_cases rproc : asksRproc cfg immediateArg = true
    · rw [if_pos rproc] at done
      simp only [rproc, if_true]
      cases named : rprocTarget s.mem extendedBuffer with
      | none =>
        rw [named] at done
        cases done
      | some hart =>
        rw [named] at done
        have one := allOrNothing_rproc_iff hart done
        simp only [Option.some.injEq, forall_const]
        rw [one]
        exact ⟨fun h _ same => same ▸ h, fun h => h hart rfl⟩
    · rw [if_neg rproc] at done
      refine iff_of_true ((allOrNothing_core done).mono fun hart asked => ?_) fun h => absurd h rproc
      rw [if_neg rproc]
      exact asked source rfl
  | core source =>
    refine iff_of_true ((allOrNothing_core done).mono fun hart asked => ?_) trivial
    cases source with
    | none => trivial
    | some source => exact asked source rfl
  | cores mask =>
    have after : hssBootRestartCoresUsingBitmask mask s = (t, result) := Except.ok.inj done
    have cores := allOrNothing_cores mask s
    rw [after] at cores
    exact iff_of_true cores trivial

/-- The three harts' image, and at `0x9000` a message that names the third hart, which has no chunks. -/
def rprocThird : State := { threeHartsRegistered with mem := Function.update threeHarts 0x9000 3 }

theorem restartRequest_allOrNothing_iff_second :
    AllOrNothing (fun hart => (RestartRequest.cores 0x4).Asks .icicleKitEs rprocThird hart)
      (hssBootRestartCoresUsingBitmask 0x4 rprocThird).2 rprocThird
      (hssBootRestartCoresUsingBitmask 0x4 rprocThird).1 := by
  have all : ∀ p, (RestartRequest.cores 0x4).perform .icicleKitEs rprocThird = .ok p →
      AllOrNothing (fun hart => (RestartRequest.cores 0x4).Asks .icicleKitEs rprocThird hart) p.2
        rprocThird p.1 := fun p done =>
    (restartRequest_allOrNothing_iff (.cores 0x4) done).mpr trivial
  exact all _ rfl

/-- A request to start the third hart as a remote processor fails, and its machine is no longer
idle. -/
theorem failedRproc_moves_machine :
    ∃ t, (RestartRequest.ipi 1 (.u54 .u54_1) rprocBoot 0x9000 0).perform .icicleKitEs rprocThird =
        .ok (t, .fail) ∧
      (rprocThird.machine .u54_3).state = .idle ∧ (t.machine .u54_3).state = .opensbiInit := by
  have named : rprocTarget rprocThird.mem 0x9000 = some .u54_3 := by decide +kernel
  have noChunks : (rprocThird.goto .u54_3 .opensbiInit).numChunks .u54_3 = 0 := by decide +kernel
  have failed := (restartCores_one .u54_3 (rprocThird.goto .u54_3 .opensbiInit)).mpr
    fun good => good.2 noChunks
  have core : hssBootRestartCore (some (.u54 .u54_3)) (rprocThird.goto .u54_3 .opensbiInit) =
      .ok (hssBootRestartCoresUsingBitmask ((1 : BitVec 32) <<< U54.u54_3.num)
        (rprocThird.goto .u54_3 .opensbiInit)) := rfl
  generalize same : hssBootRestartCoresUsingBitmask ((1 : BitVec 32) <<< U54.u54_3.num)
    (rprocThird.goto .u54_3 .opensbiInit) = p at failed core
  obtain ⟨t, result⟩ := p
  cases failed
  refine ⟨t, ?_, rfl, ?_⟩
  · rw [RestartRequest.perform, hssBootIpiHandler, if_pos (by decide), named]
    exact core
  · have machine := restartCores_failed (congrArg Prod.snd same)
    rw [same] at machine
    rw [machine]
    rfl

end Hss
