import Hss.Ecalls
import Hss.Ipi.Requests
import Mathlib.Tactic.IntervalCases

/-! The ecalls for the crypto engine, which several harts make at once: one flag says that the engine
was initialised, and another that an operation is in progress. -/

namespace Hss

open Runs

/-! ### The engine -/

/-- `SUBBLK_CLOCK_CR_ATHENA_MASK` in the clock and in the soft reset register, and whether `CALIni`
has succeeded since the engine was last reset. -/
structure Athena where
  clock : Bool
  softReset : Bool
  calReady : Bool
  deriving DecidableEq, Repr

/-- The engine is powered and initialised. -/
def Athena.Live (athena : Athena) : Prop :=
  athena.clock = true ∧ athena.softReset = false ∧ athena.calReady = true

/-- An access of a hart that initialises the engine or turns it off. -/
inductive AthenaAccess
  | clock (on : Bool)
  | softReset (held : Bool)
  /-- `ATHENA_CR`, with or without `SYSREG_ATHENACR_RESET` -/
  | athenaCr (reset : Bool)
  | calIni
  | cryptoInitialized (value : Bool)
  deriving DecidableEq, Repr

/-- `peripheral_on_off`, of the one bit that `MSS_PERIPH_CRYPTO` and `MSS_PERIPH_ATHENA` share -/
def peripheralOnOff (on : Bool) : List AthenaAccess := [.clock on, .softReset !on]

/-- `SBI_EXT_CRYPTO_INIT` after the check, for `ENABLED` and for `DISABLED` -/
def enableAccesses : List AthenaAccess :=
  peripheralOnOff true ++ peripheralOnOff true ++
    [.athenaCr true, .athenaCr false, .calIni, .cryptoInitialized true]

def disableAccesses : List AthenaAccess :=
  peripheralOnOff false ++ peripheralOnOff false ++ [.cryptoInitialized false]

/-- What an access does to the engine; `success` is what `CALIni` answers. -/
def Athena.perform (athena : Athena) (success : Bool) : AthenaAccess → Athena
  | .clock on => { athena with clock := on }
  | .softReset held => { athena with softReset := held, calReady := athena.calReady && !held }
  | .athenaCr reset => { athena with calReady := athena.calReady && !reset }
  | .calIni => { athena with calReady := success && athena.clock && !athena.softReset }
  | .cryptoInitialized _ => athena

/-! ### The calls -/

/-- `SBI_ERR_ALREADY_STARTED` and `SBI_EALREADY_STOPPED` -/
def sbiErrAlreadyStarted : ℤ := -7
def sbiEAlreadyStopped : ℤ := -8

/-- `CRYPTO_SERVICE_AES` -/
def cryptoServiceAes : BitVec 32 := 1

/-- The functions of `sbi_ecall_crypto_handler`, with the registers that they read. -/
inductive CryptoFunc
  | init (a0 : Word)
  | servicesProbe (a0 : Word)
  | services (a0 : Word)

/-- Where a hart is in `sbi_ecall_crypto_handler`, up to its next access. -/
inductive CryptoPc
  | outside
  /-- The engine is initialised, or turned off: the accesses still to make. -/
  | enable (rest : List AthenaAccess)
  | disable (rest : List AthenaAccess)
  /-- `crypto_initialized` is set. -/
  | xchg (cryptoService : BitVec 32)
  /-- `CALSymEncryptDMA` or `CALSymDecryptDMA` -/
  | sym
  /-- `CALPKTrfRes` -/
  | trfRes
  /-- `atomic_write(&crypto_in_progress, 0)` -/
  | write (result : ℤ)
  deriving DecidableEq, Repr

/-- The flags, the engine, where the harts are, and what their last calls returned. -/
structure Crypto where
  cryptoInitialized : Bool
  cryptoInProgress : Bool
  athena : Athena
  pc : U54 → CryptoPc
  returned : U54 → Option ℤ

namespace Crypto

variable (s : Crypto)

def goto (hart : U54) (pc : CryptoPc) : Crypto := { s with pc := Function.update s.pc hart pc }

def ret (hart : U54) (result : ℤ) : Crypto :=
  { s.goto hart .outside with returned := Function.update s.returned hart (some result) }

/-- A hart makes an access of those that initialise the engine or turn it off. -/
def perform (success : Bool) (access : AthenaAccess) : Crypto :=
  { s with
    athena := s.athena.perform success access
    cryptoInitialized := match access with
      | .cryptoInitialized value => value
      | _ => s.cryptoInitialized }

/-- The result of a call, as an error code. -/
def probeResult (ret : SbiRet) : ℤ :=
  match ret with
  | .ok => sbiOk
  | .einval => sbiEInval
  | .efail => sbiErrFailed

/-- A hart makes a call: up to its read of `crypto_initialized`. -/
def call (hart : U54) : CryptoFunc → Crypto
  | .init a0 =>
    let cryptoClkEnable := a0.setWidth 8
    if cryptoClkEnable = 1 then
      if s.cryptoInitialized then s.ret hart sbiOk else s.goto hart (.enable enableAccesses)
    else if cryptoClkEnable = 0 then
      if s.cryptoInitialized then s.goto hart (.disable disableAccesses)
      else s.ret hart sbiEAlreadyStopped
    else s.ret hart sbiErrFailed
  | .servicesProbe a0 => s.ret hart (probeResult (sbiEcallCryptoProbe s.cryptoInitialized a0).1)
  | .services a0 =>
    if s.cryptoInitialized then s.goto hart (.xchg (a0.setWidth 32)) else s.ret hart sbiErrFailed

/-- The next access of a hart; `success` is what a call of the CAL library answers. -/
def access (hart : U54) (success : Bool) : Crypto :=
  match s.pc hart with
  | .outside => s
  | .enable [] => s.ret hart sbiOk
  | .disable [] => s.ret hart sbiOk
  | .enable (access :: rest) =>
    let s := s.perform success access
    if rest = [] then s.ret hart sbiOk else s.goto hart (.enable rest)
  | .disable (access :: rest) =>
    let s := s.perform success access
    if rest = [] then s.ret hart sbiOk else s.goto hart (.disable rest)
  | .xchg cryptoService =>
    if s.cryptoInProgress then s.ret hart sbiErrAlreadyStarted
    else
      { s.goto hart (if cryptoService = cryptoServiceAes then .sym else .write sbiErrFailed) with
        cryptoInProgress := true }
  | .sym => s.goto hart (if success then .trfRes else .write sbiErrFailed)
  | .trfRes => s.goto hart (.write (if success then sbiOk else sbiErrFailed))
  | .write result => { s.ret hart result with cryptoInProgress := false }

end Crypto

/-- What happens: a hart that is in no call makes one, or a hart that is in a call makes its next
access. -/
inductive CryptoEvent
  | call (hart : U54) (func : CryptoFunc)
  | access (hart : U54) (success : Bool)

def cryptoNext (s : Crypto) : CryptoEvent → Except Unit Crypto
  | .call hart func => if s.pc hart = .outside then .ok (s.call hart func) else .error ()
  | .access hart success => if s.pc hart = .outside then .error () else .ok (s.access hart success)

/-! ### Exclusion -/

namespace CryptoPc

/-- The hart runs an AES operation. -/
def operates : CryptoPc → Bool
  | .sym | .trfRes => true
  | _ => false

/-- The hart has set `crypto_in_progress`. -/
def holds : CryptoPc → Bool
  | .sym | .trfRes | .write _ => true
  | _ => false

/-- The hart has found the engine initialised, and its operation is not over. -/
def relies : CryptoPc → Bool
  | .xchg _ | .sym | .trfRes => true
  | _ => false

/-- The hart initialises the engine. -/
def initialises : CryptoPc → Bool
  | .enable _ => true
  | _ => false

def callsCalIni : CryptoPc → Bool
  | .enable (.calIni :: _) => true
  | _ => false

/-- The hart initialises the engine or turns it off. -/
def switches : CryptoPc → Bool
  | .enable _ | .disable _ => true
  | _ => false

end CryptoPc

namespace Crypto

variable (s : Crypto)

/-- A service call of the hart starts its operation. -/
def Accepts (hart : U54) : Prop :=
  ∃ t u, cryptoNext s (.call hart (.services 1)) = .ok t ∧ cryptoNext t (.access hart true) = .ok u ∧
    (u.pc hart).operates = true

/-- One operation at a time, on an engine that is powered and initialised and that no hart
initialises; and when no hart holds the engine, a request is accepted. -/
structure Exclusive : Prop where
  one : ∀ {hart hart'}, (s.pc hart).operates = true → (s.pc hart').operates = true → hart = hart'
  live : ∀ {hart}, (s.pc hart).operates = true → s.athena.Live
  apart : ∀ {hart hart'}, (s.pc hart).operates = true → (s.pc hart').initialises = false
  accepts : s.cryptoInitialized = true → (∀ hart, (s.pc hart).holds = false) →
    ∀ hart, s.pc hart = .outside → s.Accepts hart

/-- A hart goes on to initialise the engine while no other does so or turns it off, to turn it off
while moreover none relies on it, and to a service while none turns it off; and `CALIni` succeeds. -/
def Separate : CryptoEvent → Prop
  | .call _ (.init a0) =>
    (a0.setWidth 8 = (1 : BitVec 8) → s.cryptoInitialized = false →
        ∀ other, (s.pc other).switches = false) ∧
      (a0.setWidth 8 = (0 : BitVec 8) → s.cryptoInitialized = true →
        ∀ other, (s.pc other).switches = false ∧ (s.pc other).relies = false)
  | .call _ (.servicesProbe _) => True
  | .call _ (.services _) => s.cryptoInitialized = true → ∀ other, (s.pc other).switches = false
  | .access hart success => (s.pc hart).callsCalIni = true → success = true

instance (event : CryptoEvent) : Decidable (s.Separate event) :=
  match event with
  | .call _ (.init _) => inferInstanceAs (Decidable (_ ∧ _))
  | .call _ (.servicesProbe _) => inferInstanceAs (Decidable True)
  | .call _ (.services _) => inferInstanceAs (Decidable (_ → _))
  | .access _ _ => inferInstanceAs (Decidable (_ → _))

end Crypto

/-- No hart is in a call, and the flags are clear; the engine may be in any state. -/
structure CryptoStart (s : Crypto) : Prop where
  pc : ∀ hart, s.pc hart = .outside
  cryptoInitialized : s.cryptoInitialized = false
  cryptoInProgress : s.cryptoInProgress = false

variable {s t : Crypto} {hart : U54}

theorem Crypto.goto_pc (pc : CryptoPc) (h : U54) :
    (s.goto hart pc).pc h = if h = hart then pc else s.pc h := Function.update_apply ..

/-- What a call does first: it returns, or goes on to initialise the engine, to turn it off, or to a
service. -/
theorem Crypto.call_cases (hart : U54) (func : CryptoFunc) :
    (∃ result, s.call hart func = s.ret hart result) ∨
    (∃ a0, func = .init a0 ∧ a0.setWidth 8 = (1 : BitVec 8) ∧ s.cryptoInitialized = false ∧
      s.call hart func = s.goto hart (.enable enableAccesses)) ∨
    (∃ a0, func = .init a0 ∧ a0.setWidth 8 = (0 : BitVec 8) ∧ s.cryptoInitialized = true ∧
      s.call hart func = s.goto hart (.disable disableAccesses)) ∨
    (∃ a0, func = .services a0 ∧ s.cryptoInitialized = true ∧
      s.call hart func = s.goto hart (.xchg (a0.setWidth 32))) := by
  cases func with
  | init a0 =>
    simp only [call]
    split
    · next enabled =>
      split
      · exact .inl ⟨_, rfl⟩
      · next clear => exact .inr (.inl ⟨a0, rfl, enabled, Bool.eq_false_of_not_eq_true clear, rfl⟩)
    · split
      · next disabled =>
        split
        · next set => exact .inr (.inr (.inl ⟨a0, rfl, disabled, set, rfl⟩))
        · exact .inl ⟨_, rfl⟩
      · exact .inl ⟨_, rfl⟩
  | servicesProbe a0 => exact .inl ⟨_, rfl⟩
  | services a0 =>
    simp only [call]
    split
    · next set => exact .inr (.inr (.inr ⟨a0, rfl, set, rfl⟩))
    · exact .inl ⟨_, rfl⟩

/-! ### The flag of the operation -/

/-- The flag is set by one hart, and while it is set. -/
structure CryptoHeld (s : Crypto) : Prop where
  flag : ∀ {hart}, (s.pc hart).holds = true → s.cryptoInProgress = true
  holder : s.cryptoInProgress = true → ∃ hart, (s.pc hart).holds = true
  one : ∀ {hart hart'}, (s.pc hart).holds = true → (s.pc hart').holds = true → hart = hart'

namespace CryptoHeld

theorem of_same (held : CryptoHeld s) (flag : t.cryptoInProgress = s.cryptoInProgress)
    (same : ∀ h, (t.pc h).holds = (s.pc h).holds) : CryptoHeld t := by
  refine ⟨fun {h} holds => ?_, fun set => ?_, fun {h h'} holds holds' => ?_⟩
  · rw [same] at holds
    rw [flag]
    exact held.flag holds
  · rw [flag] at set
    obtain ⟨h, holds⟩ := held.holder set
    exact ⟨h, (same h).trans holds⟩
  · rw [same] at holds holds'
    exact held.one holds holds'

theorem goto (held : CryptoHeld s) (hart : U54) (pc : CryptoPc) (same : pc.holds = (s.pc hart).holds)
    (flag : t.cryptoInProgress = s.cryptoInProgress) (pcs : t.pc = (s.goto hart pc).pc) :
    CryptoHeld t := by
  refine held.of_same flag fun h => ?_
  rw [pcs, Crypto.goto_pc]
  split
  · next own => rw [own, same]
  · rfl

theorem take (held : CryptoHeld s) {pc : CryptoPc} (clear : s.cryptoInProgress = false)
    (holds : pc.holds = true) : CryptoHeld { s.goto hart pc with cryptoInProgress := true } := by
  have none (h : U54) : (s.pc h).holds = false := by
    by_contra holder
    rw [held.flag (Bool.eq_true_of_not_eq_false holder)] at clear
    cases clear
  have own {h : U54} (holder : ((s.goto hart pc).pc h).holds = true) : h = hart := by
    rw [Crypto.goto_pc] at holder
    split at holder
    · next own => exact own
    · rw [none] at holder
      cases holder
  refine ⟨fun _ => rfl, fun _ => ⟨hart, ?_⟩, fun holder holder' => (own holder).trans (own holder').symm⟩
  show ((s.goto hart pc).pc hart).holds = true
  rw [Crypto.goto_pc, if_pos rfl, holds]

theorem release (held : CryptoHeld s) (hart : U54) (pc : CryptoPc) (holder : (s.pc hart).holds = true)
    (out : pc.holds = false) (clear : t.cryptoInProgress = false) (pcs : t.pc = (s.goto hart pc).pc) :
    CryptoHeld t := by
  have none (h : U54) : (t.pc h).holds = false := by
    rw [pcs, Crypto.goto_pc]
    split
    · exact out
    · next other =>
      by_contra holds
      exact other (held.one (Bool.eq_true_of_not_eq_false holds) holder)
  refine ⟨fun {h} holds => ?_, fun set => ?_, fun {h} _ holds _ => ?_⟩
  · rw [none h] at holds
    cases holds
  · rw [clear] at set
    cases set
  · rw [none h] at holds
    cases holds

theorem step (held : CryptoHeld s) {event : CryptoEvent} (next : cryptoNext s event = .ok t) :
    CryptoHeld t := by
  cases event with
  | call hart func =>
    simp only [cryptoNext] at next
    split at next
    · next outside =>
      cases next
      have out : (s.pc hart).holds = false := by
        rw [outside]
        rfl
      rcases s.call_cases hart func with ⟨result, after⟩ | ⟨a0, -, -, -, after⟩ |
        ⟨a0, -, -, -, after⟩ | ⟨a0, -, -, after⟩ <;> rw [after]
      · exact held.goto hart .outside out.symm rfl rfl
      · exact held.goto hart (.enable enableAccesses) out.symm rfl rfl
      · exact held.goto hart (.disable disableAccesses) out.symm rfl rfl
      · exact held.goto hart (.xchg _) out.symm rfl rfl
    · cases next
  | access hart success =>
    simp only [cryptoNext] at next
    split at next
    · cases next
    · cases next
      unfold Crypto.access
      split
      · exact held
      · next here => exact held.goto hart .outside (by rw [here]; rfl) rfl rfl
      · next here => exact held.goto hart .outside (by rw [here]; rfl) rfl rfl
      · next access rest here =>
        dsimp only
        split
        · exact held.goto hart .outside (by rw [here]; rfl) rfl rfl
        · exact held.goto hart (.enable rest) (by rw [here]; rfl) rfl rfl
      · next access rest here =>
        dsimp only
        split
        · exact held.goto hart .outside (by rw [here]; rfl) rfl rfl
        · exact held.goto hart (.disable rest) (by rw [here]; rfl) rfl rfl
      · next service here =>
        split
        · exact held.goto hart .outside (by rw [here]; rfl) rfl rfl
        · next clear =>
          refine held.take (Bool.eq_false_of_not_eq_true clear) ?_
          split <;> rfl
      · next here =>
        refine held.goto hart _ (by rw [here]; split <;> rfl) rfl rfl
      · next here => exact held.goto hart (.write _) (by rw [here]; rfl) rfl rfl
      · next result here =>
        exact held.release hart .outside (by rw [here]; rfl) rfl rfl rfl

end CryptoHeld

/-! ### The engine while an operation runs -/

/-- The engine after the first `k` accesses of an initialisation. -/
def Athena.afterEnable (athena : Athena) (k : ℕ) : Athena :=
  (enableAccesses.take k).foldl (fun athena access => athena.perform true access) athena

theorem Athena.afterEnable_live (athena : Athena) : (athena.afterEnable 7).Live := by
  obtain ⟨clock, softReset, calReady⟩ := athena
  exact ⟨rfl, rfl, rfl⟩

theorem Athena.afterEnable_succ (athena : Athena) {k : ℕ} (less : k < enableAccesses.length) :
    athena.afterEnable (k + 1) = (athena.afterEnable k).perform true enableAccesses[k] := by
  rw [afterEnable, List.take_succ_eq_append_getElem less, List.foldl_append]
  rfl

theorem enableAccesses_last {k : ℕ} (less : k < enableAccesses.length) {value : Bool}
    (sets : enableAccesses[k] = .cryptoInitialized value) : k = 7 ∧ value = true := by
  have eight : k < 8 := less
  interval_cases k <;> cases sets
  exact ⟨rfl, rfl⟩

theorem Athena.perform_success (athena : Athena) {success : Bool} {access : AthenaAccess}
    (succeeds : access = .calIni → success = true) :
    athena.perform success access = athena.perform true access := by
  cases access with
  | calIni => rw [succeeds rfl]
  | clock | softReset | athenaCr | cryptoInitialized => rfl

theorem Crypto.perform_initialized {success : Bool} {access : AthenaAccess}
    (other : ∀ value, access ≠ .cryptoInitialized value) :
    (s.perform success access).cryptoInitialized = s.cryptoInitialized := by
  cases access with
  | cryptoInitialized value => exact absurd rfl (other value)
  | clock | softReset | athenaCr | calIni => rfl

/-- Only one hart at a time switches the engine, and none while another relies on it; the engine is
live when it is said to be initialised and no hart switches it. -/
structure CryptoInv (s : Crypto) : Prop where
  single : ∀ {hart hart'}, (s.pc hart).switches = true → (s.pc hart').switches = true → hart = hart'
  apart : ∀ {hart hart'}, (s.pc hart).relies = true → (s.pc hart').switches = false
  initialized : ∀ {hart}, (s.pc hart).relies = true → s.cryptoInitialized = true
  live : s.cryptoInitialized = true → (∀ hart, (s.pc hart).switches = false) → s.athena.Live
  enabling : ∀ {hart rest}, s.pc hart = .enable rest → s.cryptoInitialized = false ∧
    ∃ k < enableAccesses.length, ∃ athena : Athena, rest = enableAccesses.drop k ∧
      s.athena = athena.afterEnable k
  disabling : ∀ {hart rest}, s.pc hart = .disable rest →
    ∃ k < disableAccesses.length, rest = disableAccesses.drop k

theorem CryptoStart.held (start : CryptoStart s) : CryptoHeld s where
  flag {hart} holds := by
    rw [start.pc] at holds
    cases holds
  holder set := by
    rw [start.cryptoInProgress] at set
    cases set
  one {hart hart'} holds := by
    rw [start.pc] at holds
    cases holds

theorem CryptoStart.inv (start : CryptoStart s) : CryptoInv s where
  single {hart hart'} switches := by
    rw [start.pc] at switches
    cases switches
  apart {hart hart'} relies := by
    rw [start.pc] at relies
    cases relies
  initialized {hart} relies := by
    rw [start.pc] at relies
    cases relies
  live set := by
    rw [start.cryptoInitialized] at set
    cases set
  enabling {hart rest} here := by
    rw [start.pc] at here
    cases here
  disabling {hart rest} here := by
    rw [start.pc] at here
    cases here

theorem relies_of_operates {pc : CryptoPc} (operates : pc.operates = true) : pc.relies = true := by
  cases pc <;> first | rfl | cases operates

theorem holds_of_operates {pc : CryptoPc} (operates : pc.operates = true) : pc.holds = true := by
  cases pc <;> first | rfl | cases operates

theorem switches_of_initialises {pc : CryptoPc} (initialises : pc.initialises = true) :
    pc.switches = true := by
  cases pc <;> first | rfl | cases initialises

namespace CryptoInv

/-- A hart that does not switch the engine goes on, to where it relies on it only if it did or it may. -/
theorem goto (inv : CryptoInv s) (hart : U54) (pc : CryptoPc) (before : (s.pc hart).switches = false)
    (after : pc.switches = false) (relies : pc.relies = true →
      s.cryptoInitialized = true ∧ ∀ h, (s.pc h).switches = false)
    (initialized : t.cryptoInitialized = s.cryptoInitialized) (athena : t.athena = s.athena)
    (pcs : t.pc = (s.goto hart pc).pc) : CryptoInv t := by
  have switches (h : U54) : (t.pc h).switches = (s.pc h).switches := by
    rw [pcs, Crypto.goto_pc]
    split
    · next own => rw [own, before, after]
    · rfl
  have elsewhere {h : U54} {at' : CryptoPc} (here : t.pc h = at') (switching : at'.switches = true) :
      s.pc h = at' := by
    rw [pcs, Crypto.goto_pc] at here
    split at here
    · rw [← here, after] at switching
      cases switching
    · exact here
  refine ⟨?_, ?_, ?_, ?_, ?_, ?_⟩
  · intro h h' first second
    rw [switches] at first second
    exact inv.single first second
  · intro h h' needs
    rw [switches]
    rw [pcs, Crypto.goto_pc] at needs
    split at needs
    · exact (relies needs).2 h'
    · exact inv.apart needs
  · intro h needs
    rw [initialized]
    rw [pcs, Crypto.goto_pc] at needs
    split at needs
    · exact (relies needs).1
    · exact inv.initialized needs
  · intro set none
    rw [initialized] at set
    rw [athena]
    exact inv.live set fun h => (switches h).symm.trans (none h)
  · intro h rest here
    rw [initialized, athena]
    exact inv.enabling (elsewhere here rfl)
  · intro h rest here
    exact inv.disabling (elsewhere here rfl)

/-- One hart alone switches the engine, or none does, and no other relies on it. -/
theorem of_alone (s : Crypto) (hart : U54) (pc : CryptoPc) (pcs : t.pc = (s.goto hart pc).pc) (relies : pc.relies = false)
    (others : ∀ h ≠ hart, (s.pc h).switches = false ∧ (s.pc h).relies = false)
    (live : t.cryptoInitialized = true → pc.switches = false → t.athena.Live)
    (enabling : ∀ rest, pc = .enable rest → t.cryptoInitialized = false ∧
      ∃ k < enableAccesses.length, ∃ athena : Athena, rest = enableAccesses.drop k ∧
        t.athena = athena.afterEnable k)
    (disabling : ∀ rest, pc = .disable rest →
      ∃ k < disableAccesses.length, rest = disableAccesses.drop k) : CryptoInv t := by
  have own : t.pc hart = pc := by rw [pcs, Crypto.goto_pc, if_pos rfl]
  have other {h : U54} (ne : h ≠ hart) : t.pc h = s.pc h := by rw [pcs, Crypto.goto_pc, if_neg ne]
  have switching {h : U54} (switches : (t.pc h).switches = true) : h = hart := by
    by_contra ne
    rw [other ne, (others h ne).1] at switches
    cases switches
  have none (h : U54) : (t.pc h).relies = false := by
    by_cases same : h = hart
    · rw [same, own, relies]
    · rw [other same]
      exact (others h same).2
  have never {P : Prop} {h : U54} (needs : (t.pc h).relies = true) : P := by
    rw [none] at needs
    cases needs
  refine ⟨fun first second => (switching first).trans (switching second).symm, never, never,
    fun set calm => live set ?_, ?_, ?_⟩
  · rw [← own]
    exact calm hart
  · intro h rest here
    have same := switching (h := h) (by rw [here]; rfl)
    rw [same, own] at here
    exact enabling rest here
  · intro h rest here
    have same := switching (h := h) (by rw [here]; rfl)
    rw [same, own] at here
    exact disabling rest here

theorem others_of_switches (inv : CryptoInv s) (switches : (s.pc hart).switches = true) (h : U54)
    (ne : h ≠ hart) : (s.pc h).switches = false ∧ (s.pc h).relies = false := by
  constructor
  · by_contra both
    exact ne (inv.single (Bool.eq_true_of_not_eq_false both) switches)
  · by_contra needs
    rw [inv.apart (Bool.eq_true_of_not_eq_false needs)] at switches
    cases switches

theorem enable (inv : CryptoInv s) {success : Bool} {access : AthenaAccess} {rest : List AthenaAccess}
    (here : s.pc hart = .enable (access :: rest)) (succeeds : access = .calIni → success = true) :
    CryptoInv (s.access hart success) := by
  obtain ⟨clear, k, less, athena, accesses, engine⟩ := inv.enabling here
  rw [List.drop_eq_getElem_cons less] at accesses
  obtain ⟨rfl, rfl⟩ := List.cons.inj accesses
  have others := inv.others_of_switches (by rw [here]; rfl)
  have performed : (s.perform success enableAccesses[k]).athena = athena.afterEnable (k + 1) := by
    rw [athena.afterEnable_succ less, ← engine]
    exact s.athena.perform_success succeeds
  rw [Crypto.access, here]
  dsimp only
  split
  · next last =>
    have seven : k = 7 := by
      have short := List.drop_eq_nil_iff.mp last
      have eight : enableAccesses.length = 8 := rfl
      omega
    refine of_alone s hart .outside rfl rfl others (fun _ _ => ?_) ?_ ?_
    · show (s.perform success enableAccesses[k]).athena.Live
      rw [performed, seven]
      exact athena.afterEnable_live
    · exact fun rest out => by cases out
    · exact fun rest out => by cases out
  · next more =>
    have next : k + 1 < enableAccesses.length := by
      by_contra past
      exact more (List.drop_eq_nil_iff.mpr (not_lt.mp past))
    have other (value : Bool) : enableAccesses[k] ≠ .cryptoInitialized value := by
      intro sets
      have seven := (enableAccesses_last less sets).1
      have eight : enableAccesses.length = 8 := rfl
      omega
    have flag : (s.perform success enableAccesses[k]).cryptoInitialized = false :=
      (Crypto.perform_initialized other).trans clear
    refine of_alone s hart (.enable (enableAccesses.drop (k + 1))) rfl rfl others
      (fun _ calm => by cases calm) ?_ ?_
    · intro rest same
      cases same
      exact ⟨flag, k + 1, next, athena, rfl, performed⟩
    · exact fun rest out => by cases out

theorem disable (inv : CryptoInv s) {success : Bool} {access : AthenaAccess}
    {rest : List AthenaAccess} (here : s.pc hart = .disable (access :: rest)) :
    CryptoInv (s.access hart success) := by
  obtain ⟨k, less, accesses⟩ := inv.disabling here
  rw [List.drop_eq_getElem_cons less] at accesses
  obtain ⟨rfl, rfl⟩ := List.cons.inj accesses
  have others := inv.others_of_switches (by rw [here]; rfl)
  rw [Crypto.access, here]
  dsimp only
  split
  · next last =>
    have four : k = 4 := by
      have short := List.drop_eq_nil_iff.mp last
      have five : disableAccesses.length = 5 := rfl
      omega
    subst four
    refine of_alone s hart .outside rfl rfl others (fun set _ => ?_) ?_ ?_
    · cases set
    · exact fun rest out => by cases out
    · exact fun rest out => by cases out
  · next more =>
    have next : k + 1 < disableAccesses.length := by
      by_contra past
      exact more (List.drop_eq_nil_iff.mpr (not_lt.mp past))
    refine of_alone s hart (.disable (disableAccesses.drop (k + 1))) rfl rfl others
      (fun _ calm => by cases calm) ?_ ?_
    · exact fun rest out => by cases out
    · intro rest same
      cases same
      exact ⟨k + 1, next, rfl⟩

theorem step (inv : CryptoInv s) {event : CryptoEvent} (separate : s.Separate event)
    (next : cryptoNext s event = .ok t) : CryptoInv t := by
  cases event with
  | call hart func =>
    simp only [cryptoNext] at next
    split at next
    · next outside =>
      cases next
      have out : (s.pc hart).switches = false := by
        rw [outside]
        rfl
      rcases s.call_cases hart func with ⟨result, after⟩ | ⟨a0, rfl, enabled, clear, after⟩ |
        ⟨a0, rfl, disabled, set, after⟩ | ⟨a0, rfl, set, after⟩ <;> rw [after]
      · exact inv.goto hart .outside out rfl (fun relies => by cases relies) rfl rfl rfl
      · have calm := separate.1 enabled clear
        refine of_alone s hart (.enable enableAccesses) rfl rfl
          (fun h _ => ⟨calm h, ?_⟩) (fun set => ?_) ?_ ?_
        · by_contra needs
          rw [inv.initialized (Bool.eq_true_of_not_eq_false needs)] at clear
          cases clear
        · exact absurd (clear.symm.trans set) Bool.false_ne_true
        · intro rest same
          cases same
          exact ⟨clear, 0, Nat.succ_pos _, s.athena, rfl, rfl⟩
        · exact fun rest other => by cases other
      · have calm := separate.2 disabled set
        refine of_alone s hart (.disable disableAccesses) rfl rfl
          (fun h _ => calm h) (fun _ off => by cases off) ?_ ?_
        · exact fun rest other => by cases other
        · intro rest same
          cases same
          exact ⟨0, Nat.succ_pos _, rfl⟩
      · exact inv.goto hart (.xchg _) out rfl (fun _ => ⟨set, separate set⟩) rfl rfl rfl
    · cases next
  | access hart success =>
    simp only [cryptoNext] at next
    split at next
    · cases next
    · next busy =>
      cases next
      have relied (relies : (s.pc hart).relies = true) :
          s.cryptoInitialized = true ∧ ∀ h, (s.pc h).switches = false :=
        ⟨inv.initialized relies, fun h => inv.apart relies⟩
      cases here : s.pc hart with
      | outside => exact absurd here busy
      | enable rest =>
        obtain ⟨-, k, less, -, accesses, -⟩ := inv.enabling here
        rw [List.drop_eq_getElem_cons less] at accesses
        subst accesses
        refine inv.enable here fun calIni => separate ?_
        rw [here, calIni]
        rfl
      | disable rest =>
        obtain ⟨k, less, accesses⟩ := inv.disabling here
        rw [List.drop_eq_getElem_cons less] at accesses
        subst accesses
        exact inv.disable here
      | xchg service =>
        rw [Crypto.access, here]
        dsimp only
        have may := relied (by rw [here]; rfl)
        have before : (s.pc hart).switches = false := may.2 hart
        split
        · exact inv.goto hart .outside before rfl (fun _ => may) rfl rfl rfl
        · split
          · exact inv.goto hart .sym before rfl (fun _ => may) rfl rfl rfl
          · exact inv.goto hart (.write _) before rfl (fun _ => may) rfl rfl rfl
      | sym =>
        rw [Crypto.access, here]
        dsimp only
        have may := relied (by rw [here]; rfl)
        split
        · exact inv.goto hart .trfRes (may.2 hart) rfl (fun _ => may) rfl rfl rfl
        · exact inv.goto hart (.write _) (may.2 hart) rfl (fun _ => may) rfl rfl rfl
      | trfRes =>
        rw [Crypto.access, here]
        have may := relied (by rw [here]; rfl)
        exact inv.goto hart (.write _) (may.2 hart) rfl (fun _ => may) rfl rfl rfl
      | write result =>
        rw [Crypto.access, here]
        have before : (s.pc hart).switches = false := by
          rw [here]
          rfl
        exact inv.goto hart .outside before rfl (fun relies => by cases relies)
          rfl rfl rfl

end CryptoInv

theorem CryptoHeld.accepts (held : CryptoHeld s) (set : s.cryptoInitialized = true)
    (free : ∀ h, (s.pc h).holds = false) (outside : s.pc hart = .outside) : s.Accepts hart := by
  have clear : s.cryptoInProgress = false := by
    by_contra taken
    obtain ⟨h, holds⟩ := held.holder (Bool.eq_true_of_not_eq_false taken)
    rw [free h] at holds
    cases holds
  have called : s.call hart (.services 1) = s.goto hart (.xchg cryptoServiceAes) := if_pos set
  have asking : (s.goto hart (.xchg cryptoServiceAes)).pc hart = .xchg cryptoServiceAes := by
    rw [Crypto.goto_pc, if_pos rfl]
  have clear' : (s.goto hart (.xchg cryptoServiceAes)).cryptoInProgress = false := clear
  refine ⟨s.goto hart (.xchg cryptoServiceAes),
    { (s.goto hart (.xchg cryptoServiceAes)).goto hart .sym with cryptoInProgress := true }, ?_, ?_, ?_⟩
  · rw [cryptoNext, if_pos outside, called]
  · rw [cryptoNext, asking, if_neg (by decide), Crypto.access, asking]
    simp only [clear', Bool.false_eq_true, if_false, if_true]
  · show (((s.goto hart (.xchg cryptoServiceAes)).goto hart .sym).pc hart).operates = true
    rw [Crypto.goto_pc, if_pos rfl]
    rfl

/-- In every run in which the harts that switch the engine keep apart from the others, operations
exclude each other, run on a live engine, and let the next request be accepted. -/
theorem crypto_exclusive (start : CryptoStart s) {events : List CryptoEvent}
    (run : Run (Under Crypto.Separate fun s event t => cryptoNext s event = .ok t) s events t) :
    t.Exclusive := by
  have held : CryptoHeld t :=
    run.forget.invariant start.held fun _ _ _ held next => held.step next
  have inv : CryptoInv t :=
    run.invariant start.inv fun _ _ _ inv last => inv.step last.1 last.2
  refine ⟨fun first second => ?_, fun operates => ?_, fun {h h'} operates => ?_,
    fun set free h outside => held.accepts set free outside⟩
  · exact held.one (holds_of_operates first) (holds_of_operates second)
  · have relies := relies_of_operates operates
    exact inv.live (inv.initialized relies) fun h => inv.apart relies
  · have calm : (t.pc h').switches = false := inv.apart (relies_of_operates operates)
    by_contra initialises
    rw [switches_of_initialises (Bool.eq_true_of_not_eq_false initialises)] at calm
    cases calm

/-- The engine is off. -/
def cryptoOff : Crypto := ⟨false, false, ⟨false, true, false⟩, fun _ => .outside, fun _ => none⟩

theorem cryptoOff_start : CryptoStart cryptoOff := ⟨fun _ => rfl, rfl, rfl⟩

/-- The first hart initialises the engine and starts an operation. -/
def operationEvents : List CryptoEvent :=
  .call .u54_1 (.init 1) :: List.replicate 8 (.access .u54_1 true) ++
    [.call .u54_1 (.services 1), .access .u54_1 true]

theorem crypto_exclusive_operation :
    ∃ t, Run (Under Crypto.Separate fun s event t => cryptoNext s event = .ok t) cryptoOff
        operationEvents t ∧ t.pc .u54_1 = .sym ∧ t.Exclusive := by
  obtain ⟨t, run, sym⟩ := exists_run
    (fun s event => if s.Separate event then cryptoNext s event else .error ()) cryptoOff
    operationEvents (P := fun t => t.pc .u54_1 = .sym) (by decide +kernel)
  have run := under_of_guard run
  exact ⟨t, run, sym, crypto_exclusive cryptoOff_start run⟩

/-- A second hart turns the engine off while the operation runs, and a third initialises it again. -/
theorem crypto_not_exclusive :
    ∃ t, Run (fun s event t => cryptoNext s event = .ok t) cryptoOff
        (operationEvents ++ .call .u54_2 (.init 0) :: List.replicate 5 (.access .u54_2 true) ++
          [.call .u54_3 (.init 1)]) t ∧
      t.pc .u54_1 = .sym ∧ t.athena.clock = false ∧ (t.pc .u54_3).initialises = true ∧
        ¬ t.Exclusive := by
  obtain ⟨t, run, sym, off, initialises⟩ := exists_run cryptoNext cryptoOff
    (operationEvents ++ .call .u54_2 (.init 0) :: List.replicate 5 (.access .u54_2 true) ++
      [.call .u54_3 (.init 1)])
    (P := fun t => t.pc .u54_1 = .sym ∧ t.athena.clock = false ∧ (t.pc .u54_3).initialises = true)
    (by decide +kernel)
  refine ⟨t, run, sym, off, initialises, fun exclusive => ?_⟩
  have operates : (t.pc .u54_1).operates = true := by
    rw [sym]
    rfl
  have on := (exclusive.live operates).1
  rw [off] at on
  cases on

end Hss
