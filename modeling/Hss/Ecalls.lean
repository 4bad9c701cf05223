import Hss.Lib.ByteLayout
import Hss.Telemetry.Mailbox

/-! The ecalls of the vendor extension that store to memory which the caller names: where they store,
and what of the stacks of machine mode is in what they store. -/

namespace Hss

open ByteMemory SlotTable

/-! ### What a caller may write -/

/-- The entry is active and holds the byte at `a`. -/
def PmpEntry.Covers (entry : PmpEntry) (a : Word) : Bool :=
  entry.A ≠ .nullRegion && (a - entry.baseAddr).toNat < entry.size.toNat

/-- The hart may write the byte below machine mode: the first entry that holds it decides. -/
def mayWrite (pmpEntry : ℕ → PmpEntry) (a : Word) : Bool :=
  match firstBelow maxNumPmps fun i => (pmpEntry i).Covers a with
  | none => false
  | some i => (pmpEntry i).W

/-- Bytes that are stored from an address on. -/
structure Store where
  dest : Word
  bytes : Bytes
  deriving DecidableEq, Repr

/-- All bytes of the store are ones that the hart may write. -/
def Store.Within (store : Store) (pmpEntry : ℕ → PmpEntry) : Prop :=
  ∀ i < store.bytes.length, mayWrite pmpEntry (store.dest + BitVec.ofNat 64 i) = true

/-- The results `SBI_OK`, `SBI_EINVAL` and `SBI_EFAIL`. -/
inductive SbiRet
  | ok | einval | efail
  deriving DecidableEq, Repr

/-- What stops a handler: no handler was registered for the channel, or a message is longer than the
variable that it is copied to. -/
inductive EcallFault
  | nullHandler | stackOverrun
  deriving DecidableEq, Repr

/-- What is left on the stacks of machine mode: the bytes where `message_present_handler` has `msg`,
and on the stack of the monitor the word where `tm_monitoring_print` has `adc[14]`. -/
structure StackContent where
  msg : ℕ → BitVec 8
  adc14 : BitVec 32

/-! ### Messages between harts -/

/-- What a hart has of the channels: the record `IHC[my_hart_id]` and the registers it points to. -/
structure Ihc where
  connectedHarts : BitVec 32
  connectedHartInts : BitVec 32
  msgAvail : BitVec 32
  /-- Whether `msg_in_handler` is `message_present_handler`. -/
  msgInHandler : U54 → Bool
  ctlReg : U54 → BitVec 32
  sizeMsg : U54 → BitVec 32
  /-- The words from `mesg_in` on. -/
  mesgIn : U54 → ℕ → BitVec 32

/-- `IHC_context_to_context_hart_id`: harts 1 to 3 are context A, and hart 4 is context B. -/
def ihcContextToContextHartId (hart : U54) : U54 := if hart = .u54_4 then .u54_4 else .u54_1

/-- `IHC_partner_context_hart_id` -/
def ihcPartnerContextHartId (hart : U54) : U54 := if hart = .u54_4 then .u54_1 else .u54_4

/-- `parse_incoming_context_msg`, not polling: whether what has come in is an acknowledgement. -/
def parseIncomingContextMsg (ihc : Ihc) (remote : U54) : Option Bool :=
  let ack : BitVec 32 := 1 <<< (remote.num * 2 + 1)
  let mp : BitVec 32 := 1 <<< (remote.num * 2)
  if ihc.connectedHarts &&& 1 <<< remote.num ≠ 0 then
    if ihc.msgAvail &&& ack ≠ 0 ∧ ihc.connectedHartInts &&& ack ≠ 0 then some true
    else if ihc.msgAvail &&& mp ≠ 0 ∧ ihc.connectedHartInts &&& mp = mp then some false
    else none
  else none

/-- `MP_MASK`, which is `MP_MESSAGE_PRESENT` too -/
def mpMask : BitVec 32 := 0x2

/-- `rx_message`: whether the handler is called, and with what for `is_ack`. -/
def ihcIncoming (ihc : Ihc) (remote : U54) : Option Bool :=
  match parseIncomingContextMsg ihc remote with
  | none => none
  | some true => some true
  | some false => if ihc.ctlReg remote &&& mpMask = mpMask then some false else none

/-- `sizeof(struct ihc_sbi_rx_msg)`, and where `irq_type` is in it. -/
def sizeOfRxMsg : ℕ := 20
def irqTypeOffset : ℕ := 16

/-- `msg`, which is on the stack, once only `irq_type` is set. -/
def rxMsg (stack : ℕ → BitVec 8) (irqType : BitVec 8) : Bytes :=
  ((List.range sizeOfRxMsg).map stack).set irqTypeOffset irqType

/-- The words of a message. -/
def messageBytes (message : ℕ → BitVec 32) (messageSize : ℕ) : Bytes :=
  (List.range messageSize).flatMap fun i => bytesLE 4 (message i).toNat

/-- `message_present_handler`: the bytes of `msg` that it copies to the caller. -/
def messagePresentHandler (stack : ℕ → BitVec 8) (message : ℕ → BitVec 32) (messageSize : ℕ)
    (isAck : Bool) : Except EcallFault Bytes :=
  if isAck then .ok (rxMsg stack 1)
  else
    let bytes := messageBytes message messageSize
    if bytes.length ≤ sizeOfRxMsg then .ok (bytes ++ (rxMsg stack 0).drop bytes.length)
    else .error .stackOverrun

/-- `IHC_CHANNEL_TO_CONTEXTA` and `IHC_CHANNEL_TO_CONTEXTB` -/
def ihcChannelToContextA : BitVec 32 := 5
def ihcChannelToContextB : BitVec 32 := 6

/-- `sbi_ecall_ihc_handler` for `SBI_EXT_IHC_RECEIVE` -/
def sbiEcallIhcReceive (ihc : U54 → Ihc) (hart : U54) (stack : StackContent) (a0 a1 : Word) :
    Except EcallFault (SbiRet × List Store) :=
  let remoteChannel := a0.setWidth 32
  if remoteChannel < ihcChannelToContextA ∨ remoteChannel > ihcChannelToContextB then
    .ok (.einval, [])
  else
    let my := ihcContextToContextHartId hart
    let remote := ihcPartnerContextHartId my
    match ihcIncoming (ihc my) remote with
    | none => .ok (.ok, [])
    | some isAck =>
      if (ihc my).msgInHandler remote then do
        let msg ← messagePresentHandler stack.msg ((ihc my).mesgIn remote)
          ((ihc my).sizeMsg remote).toNat isAck
        return (.ok, [⟨a1, msg⟩])
      else .error .nullHandler

/-! ### The crypto probe -/

/-- `sbi_ecall_crypto_handler` for `SBI_EXT_CRYPTO_SERVICES_PROBE`: the fields of
`struct mchp_crypto_info` are stored one by one. -/
def sbiEcallCryptoProbe (cryptoInitialized : Bool) (a0 : Word) : SbiRet × List Store :=
  if cryptoInitialized then
    (.ok,
      [⟨a0, bytesLE 4 1⟩, ⟨a0 + 8, bytesLE 8 0x1F⟩, ⟨a0 + 16, bytesLE 4 0⟩, ⟨a0 + 20, bytesLE 4 0⟩,
        ⟨a0 + 24, bytesLE 8 0⟩, ⟨a0 + 32, bytesLE 8 0⟩, ⟨a0 + 40, bytesLE 4 0⟩])
  else (.efail, [])

/-! ### Telemetry -/

/-- The characters of a format, as bytes. -/
def ascii (s : String) : Bytes := s.toList.map fun c => BitVec.ofNat 8 c.toNat

/-- `%d` -/
def decimal (n : ℕ) : Bytes := (Nat.toDigits 10 n).map fun c => BitVec.ofNat 8 c.toNat

/-- `%03d` -/
def decimal3 (n : ℕ) : Bytes := List.replicate (3 - (decimal n).length) 0x30 ++ decimal n

/-- `format_telemetry`: the size that it gives for the buffer is that of a pointer. -/
def formatTelemetry (data : BitVec 32) : Bytes :=
  let i := data / 1000000
  let j := (data - i * 1000000) / 1000
  (decimal i.toNat ++ [0x2E] ++ decimal3 j.toNat).take 7

/-- The line for the input that `format_tel_line` adds to the text. -/
def inputLine (d1 d2 : BitVec 32) : Bytes :=
  let power := d1 / 100 * (d2 / 100) / 100
  ascii "Input voltage     => Voltage : " ++ formatTelemetry d1 ++ ascii "V  - Current: " ++
    formatTelemetry d2 ++ ascii "A - Power: " ++ formatTelemetry power ++ ascii "\r\n"

/-- What the monitor finds when it prints: the text and the fields around those for the input, the
voltage `adc[6]`, and the current that the second converter gives, where there is one that is used. -/
structure TmSensors where
  textBefore : Bytes
  textAfter : Bytes
  text_noNul : 0 ∉ textBefore ∧ 0 ∉ textAfter
  adc6 : BitVec 32
  current : BitVec 32
  dataBefore : Bytes
  dataAfter : Bytes
  length_data : dataBefore.length = 8 ∧ dataAfter.length = 152

/-- `tm_monitoring_print` -/
def tmMonitoringPrint (sensors : TmSensors) (adc14 : BitVec 32) : TmPrint where
  text := sensors.textBefore ++ inputLine sensors.adc6 adc14 ++ sensors.textAfter ++ [0]
  data := sensors.dataBefore ++ bytesLE 4 (sensors.adc6 / 1000).toNat ++
    bytesLE 4 (adc14 / 1000).toNat ++ sensors.dataAfter

/-- How the monitor hart comes to serve a request: what its sensors give, and whether it has done so
before the ecall gives up. -/
structure TmService where
  sensors : TmSensors
  inTime : Bool

/-- `__get_tm_data`, with what the monitor hart stores for it: nothing when it never serves it. -/
def getTmData (dpuBoard : Bool) (service : Option TmService) (stack : StackContent)
    (extArgs : TmExtCmd) (mem : Word) : SbiRet × List Store :=
  match service with
  | none => (.efail, [])
  | some ⟨sensors, inTime⟩ =>
    -- `get_adc1_telemetry` sets `adc[14]` where `DPU_BOARD` is defined
    let adc14 := if dpuBoard then sensors.current else stack.adc14
    (if inTime then .ok else .efail, [⟨mem, (tmMonitoringPrint sensors adc14).bytes extArgs⟩])

/-- What the monitor serves a request with is one such store. -/
theorem serveRequest_mem (print : TmPrint) (ecall : TmEcall) (s : Telemetry) :
    (serveRequest print (setRequestFromSbiEcall ecall s)).mem =
      writeBytes s.mem ecall.mem (print.bytes ecall.extArgs) := by
  obtain ⟨_, extArgs, mem, _, _⟩ := ecall
  cases extArgs with
  | concise => rfl
  | verbose => rfl

/-! ### The calls -/

/-- The ecalls, with the registers that they read. -/
inductive VendorEcall
  | ihcReceive (a0 a1 : Word)
  | cryptoProbe (a0 : Word)
  | telemetry (extArgs : TmExtCmd) (a1 : Word)

/-- What the handlers find: the message channels of the harts, the drivers, the board, and what the
monitor hart does. -/
structure EcallEnv where
  ihc : U54 → Ihc
  cryptoInitialized : Bool
  dpuBoard : Bool
  tmService : Option TmService

/-- An ecall of a hart: its result, and what is stored for it. -/
def VendorEcall.run (env : EcallEnv) (hart : U54) (stack : StackContent) :
    VendorEcall → Except EcallFault (SbiRet × List Store)
  | .ihcReceive a0 a1 => sbiEcallIhcReceive env.ihc hart stack a0 a1
  | .cryptoProbe a0 => .ok (sbiEcallCryptoProbe env.cryptoInitialized a0)
  | .telemetry extArgs a1 => .ok (getTmData env.dpuBoard env.tmService stack extArgs a1)

/-- The ecall respects its caller: all that is stored for it is in memory that the caller may write,
and what is stored does not depend on what was on the stacks. -/
structure VendorEcall.Respects (call : VendorEcall) (env : EcallEnv) (hart : U54)
    (pmpEntry : ℕ → PmpEntry) : Prop where
  within : ∀ stack, ∃ ret stores, call.run env hart stack = .ok (ret, stores) ∧
    ∀ store ∈ stores, store.Within pmpEntry
  same : ∀ stack stack', (call.run env hart stack).map Prod.snd = (call.run env hart stack').map Prod.snd

/-- The bytes of `struct mchp_crypto_info` that are in a field. -/
def InCryptoInfo (i : ℕ) : Prop := i < 4 ∨ 8 ≤ i ∧ i < 44

/-- What has come in for the hart, if the channel that it names is one of the two. -/
def EcallEnv.incoming (env : EcallEnv) (hart : U54) (a0 : Word) : Option Bool :=
  let remoteChannel := a0.setWidth 32
  if remoteChannel < ihcChannelToContextA ∨ remoteChannel > ihcChannelToContextB then none
  else
    ihcIncoming (env.ihc (ihcContextToContextHartId hart))
      (ihcPartnerContextHartId (ihcContextToContextHartId hart))

/-- The conditions under which an ecall is harmless: what it stores has a place that the caller may
write, a message fills all of the variable that it goes through, and the board has both converters. -/
def VendorEcall.Harmless (env : EcallEnv) (hart : U54) (pmpEntry : ℕ → PmpEntry) : VendorEcall → Prop
  | .ihcReceive a0 a1 =>
    let my := env.ihc (ihcContextToContextHartId hart)
    let remote := ihcPartnerContextHartId (ihcContextToContextHartId hart)
    ∀ isAck, env.incoming hart a0 = some isAck →
      isAck = false ∧ my.msgInHandler remote = true ∧ (my.sizeMsg remote).toNat = 5 ∧
        ∀ i < sizeOfRxMsg, mayWrite pmpEntry (a1 + BitVec.ofNat 64 i) = true
  | .cryptoProbe a0 =>
    env.cryptoInitialized = true →
      ∀ i, InCryptoInfo i → mayWrite pmpEntry (a0 + BitVec.ofNat 64 i) = true
  | .telemetry extArgs a1 =>
    ∀ service, env.tmService = some service →
      env.dpuBoard = true ∧
        Store.Within ⟨a1, (tmMonitoringPrint service.sensors service.sensors.current).bytes extArgs⟩ pmpEntry

/-! ### Messages go through the stack -/

section
variable {stack : ℕ → BitVec 8} {message : ℕ → BitVec 32} {messageSize : ℕ} {isAck : Bool} {msg : Bytes}

@[simp] theorem length_rxMsg (irqType : BitVec 8) : (rxMsg stack irqType).length = sizeOfRxMsg := by
  simp [rxMsg]

@[simp] theorem length_messageBytes : (messageBytes message messageSize).length = 4 * messageSize := by
  rw [messageBytes, List.length_flatMap]
  simp [Nat.mul_comm]

theorem getLast?_rxMsg (irqType : BitVec 8) : (rxMsg stack irqType).getLast? = some (stack 19) := rfl

theorem messagePresentHandler_five :
    messagePresentHandler stack message 5 false = .ok (messageBytes message 5) := by
  have fits : (messageBytes message 5).length ≤ sizeOfRxMsg := Nat.le_of_eq length_messageBytes
  have past : (rxMsg stack 0).drop (messageBytes message 5).length = [] := by
    rw [length_messageBytes]
    exact List.drop_eq_nil_of_le (Nat.le_of_eq (length_rxMsg 0))
  rw [messagePresentHandler, if_neg Bool.false_ne_true]
  dsimp only
  rw [if_pos fits, past, List.append_nil]

theorem messagePresentHandler_last (done : messagePresentHandler stack message messageSize isAck = .ok msg)
    (other : isAck = true ∨ messageSize ≠ 5) : msg.getLast? = some (stack 19) := by
  rw [messagePresentHandler] at done
  cases isAck with
  | true =>
    cases done
    exact getLast?_rxMsg 1
  | false =>
    have short : messageSize ≠ 5 := other.resolve_left Bool.false_ne_true
    rw [if_neg Bool.false_ne_true] at done
    dsimp only at done
    by_cases fits : (messageBytes message messageSize).length ≤ sizeOfRxMsg
    · rw [if_pos fits] at done
      cases done
      have inside : ¬ (rxMsg stack 0).length ≤ (messageBytes message messageSize).length := by
        rw [length_rxMsg, length_messageBytes, sizeOfRxMsg]
        rw [length_messageBytes, sizeOfRxMsg] at fits
        omega
      rw [List.getLast?_append, List.getLast?_drop, if_neg inside, getLast?_rxMsg]
      rfl
    · rw [if_neg fits] at done
      cases done

/-- The same is copied on two stacks only when a message fills the variable. -/
theorem messagePresentHandler_same
    (done : messagePresentHandler (fun _ => 0) message messageSize isAck = .ok msg)
    (done' : messagePresentHandler (fun _ => 1) message messageSize isAck = .ok msg) :
    isAck = false ∧ messageSize = 5 := by
  by_contra short
  have other := (Decidable.not_and_iff_or_not.mp short).imp_left Bool.eq_true_of_not_eq_false
  have last := messagePresentHandler_last done other
  have last' := messagePresentHandler_last done' other
  exact absurd (Option.some.inj (last.symm.trans last')) (by decide)

end

/-! ### Telemetry goes through the stack -/

theorem inputLine_ne (d1 : BitVec 32) (before after : Bytes) :
    before ++ inputLine d1 0 ++ after ≠ before ++ inputLine d1 1000000 ++ after := by
  intro same
  rw [inputLine, inputLine] at same
  simp only [List.append_assoc] at same
  have tail := List.append_cancel_left (List.append_cancel_left (List.append_cancel_left
    (List.append_cancel_left same)))
  have zero : formatTelemetry 0 = 0x30 :: [0x2E, 0x30, 0x30, 0x30] := by decide
  have one : formatTelemetry 1000000 = 0x31 :: [0x2E, 0x30, 0x30, 0x30] := by decide
  rw [zero, one] at tail
  exact absurd (List.cons.inj tail).1 (by decide)

theorem tmMonitoringPrint_ne (sensors : TmSensors) (extArgs : TmExtCmd) :
    (tmMonitoringPrint sensors 0).bytes extArgs ≠ (tmMonitoringPrint sensors 1000000).bytes extArgs := by
  cases extArgs with
  | verbose =>
    intro same
    have text := List.append_cancel_right same
    exact inputLine_ne sensors.adc6 sensors.textBefore sensors.textAfter text
  | concise =>
    intro same
    have fields := List.append_cancel_left (List.append_cancel_right same)
    exact absurd fields (by decide)

/-! ### When the ecalls respect their callers -/

section
variable {env : EcallEnv} {hart : U54} {pmpEntry : ℕ → PmpEntry} {a0 a1 : Word}

theorem sbiEcallIhcReceive_eq_none (stack : StackContent) (a1 : Word)
    (none : env.incoming hart a0 = none) :
    ∃ ret, sbiEcallIhcReceive env.ihc hart stack a0 a1 = .ok (ret, []) := by
  rw [EcallEnv.incoming] at none
  rw [sbiEcallIhcReceive]
  split at none
  · rename_i outside
    exact ⟨.einval, if_pos outside⟩
  · rename_i inside
    refine ⟨.ok, ?_⟩
    rw [if_neg inside]
    dsimp only
    rw [none]

theorem sbiEcallIhcReceive_eq_some (stack : StackContent) (a1 : Word) {isAck : Bool}
    (some : env.incoming hart a0 = some isAck) :
    let my := env.ihc (ihcContextToContextHartId hart)
    let remote := ihcPartnerContextHartId (ihcContextToContextHartId hart)
    sbiEcallIhcReceive env.ihc hart stack a0 a1 =
      if my.msgInHandler remote then
        (messagePresentHandler stack.msg (my.mesgIn remote) (my.sizeMsg remote).toNat isAck).map
          fun msg => (.ok, [⟨a1, msg⟩])
      else .error .nullHandler := by
  rw [EcallEnv.incoming] at some
  rw [sbiEcallIhcReceive]
  split at some
  · cases some
  · rename_i inside
    rw [if_neg inside]
    dsimp only
    rw [some]
    rfl

/-- A receive that ends has called the handler, and stored what it copied. -/
theorem sbiEcallIhcReceive_ok {stack : StackContent} {isAck : Bool} {result : SbiRet × List Store}
    (some : env.incoming hart a0 = some isAck)
    (done : sbiEcallIhcReceive env.ihc hart stack a0 a1 = .ok result) :
    let my := env.ihc (ihcContextToContextHartId hart)
    let remote := ihcPartnerContextHartId (ihcContextToContextHartId hart)
    my.msgInHandler remote = true ∧ ∃ msg, result = (.ok, [⟨a1, msg⟩]) ∧
      messagePresentHandler stack.msg (my.mesgIn remote) (my.sizeMsg remote).toNat isAck = .ok msg := by
  rw [sbiEcallIhcReceive_eq_some _ _ some] at done
  split at done
  · rename_i handler
    refine ⟨handler, ?_⟩
    cases copied : messagePresentHandler stack.msg _ _ isAck with
    | error fault =>
      rw [copied] at done
      cases done
    | ok msg =>
      rw [copied] at done
      cases done
      exact ⟨msg, rfl, rfl⟩
  · cases done

theorem respects_ihcReceive_iff : (VendorEcall.ihcReceive a0 a1).Respects env hart pmpEntry ↔
    (VendorEcall.ihcReceive a0 a1).Harmless env hart pmpEntry := by
  constructor
  · rintro ⟨within, same⟩ isAck some
    obtain ⟨_, _, done, inside⟩ := within ⟨fun _ => 0, 0⟩
    obtain ⟨_, _, done', -⟩ := within ⟨fun _ => 1, 0⟩
    have stores := same ⟨fun _ => 0, 0⟩ ⟨fun _ => 1, 0⟩
    rw [done, done'] at stores
    obtain ⟨handler, msg, result, copied⟩ := sbiEcallIhcReceive_ok some done
    obtain ⟨-, msg', result', copied'⟩ := sbiEcallIhcReceive_ok some done'
    cases result
    cases result'
    cases stores
    obtain ⟨rfl, five⟩ := messagePresentHandler_same copied copied'
    refine ⟨rfl, handler, five, fun i less => ?_⟩
    rw [five, messagePresentHandler_five] at copied
    cases copied
    have within := inside _ (List.mem_singleton.mpr rfl) i
    rw [length_messageBytes] at within
    exact within less
  · intro harmless
    cases incoming : env.incoming hart a0 with
    | none =>
      refine ⟨fun stack => ?_, fun stack stack' => ?_⟩
      · obtain ⟨ret, done⟩ := sbiEcallIhcReceive_eq_none stack a1 incoming
        exact ⟨ret, [], done, fun _ absent => absurd absent List.not_mem_nil⟩
      · obtain ⟨_, done⟩ := sbiEcallIhcReceive_eq_none stack a1 incoming
        obtain ⟨_, done'⟩ := sbiEcallIhcReceive_eq_none stack' a1 incoming
        rw [VendorEcall.run, VendorEcall.run, done, done']
        rfl
    | some isAck =>
      obtain ⟨rfl, handler, five, within⟩ := harmless isAck incoming
      have done (stack : StackContent) := sbiEcallIhcReceive_eq_some stack a1 incoming
      dsimp only at done
      simp only [if_pos handler, five, messagePresentHandler_five] at done
      refine ⟨fun stack => ⟨_, _, done stack, ?_⟩, fun stack stack' => ?_⟩
      · intro store present
        cases List.mem_singleton.mp present
        intro i less
        rw [length_messageBytes] at less
        exact within i less
      · rw [VendorEcall.run, VendorEcall.run, done, done]

theorem within_field {k n value : ℕ} :
    Store.Within ⟨a0 + BitVec.ofNat 64 k, bytesLE n value⟩ pmpEntry ↔
      ∀ i, k ≤ i → i < k + n → mayWrite pmpEntry (a0 + BitVec.ofNat 64 i) = true := by
  unfold Store.Within
  simp only [length_bytesLE, offset_offset]
  constructor
  · intro within i from_k less
    have inside := within (i - k) (by omega)
    rwa [Nat.add_sub_cancel' from_k] at inside
  · intro within i less
    exact within (k + i) (Nat.le_add_right k i) (by omega)

theorem within_cryptoInfo : (∀ store ∈ (sbiEcallCryptoProbe true a0).2, store.Within pmpEntry) ↔
    ∀ i, InCryptoInfo i → mayWrite pmpEntry (a0 + BitVec.ofNat 64 i) = true := by
  have fields : (sbiEcallCryptoProbe true a0).2 =
      [⟨a0 + BitVec.ofNat 64 0, bytesLE 4 1⟩, ⟨a0 + BitVec.ofNat 64 8, bytesLE 8 0x1F⟩,
        ⟨a0 + BitVec.ofNat 64 16, bytesLE 4 0⟩, ⟨a0 + BitVec.ofNat 64 20, bytesLE 4 0⟩,
        ⟨a0 + BitVec.ofNat 64 24, bytesLE 8 0⟩, ⟨a0 + BitVec.ofNat 64 32, bytesLE 8 0⟩,
        ⟨a0 + BitVec.ofNat 64 40, bytesLE 4 0⟩] := by
    rw [BitVec.add_zero]
    rfl
  rw [fields]
  simp only [List.forall_mem_cons, within_field]
  unfold InCryptoInfo
  constructor
  · rintro ⟨services, cipher, aead, hash, mac, akcipher, nrbg, -⟩ i inside
    have field : i < 0 + 4 ∨ 8 ≤ i ∧ i < 8 + 8 ∨ 16 ≤ i ∧ i < 16 + 4 ∨ 20 ≤ i ∧ i < 20 + 4 ∨
        24 ≤ i ∧ i < 24 + 8 ∨ 32 ≤ i ∧ i < 32 + 8 ∨ 40 ≤ i ∧ i < 40 + 4 := by omega
    rcases field with h | ⟨h, h'⟩ | ⟨h, h'⟩ | ⟨h, h'⟩ | ⟨h, h'⟩ | ⟨h, h'⟩ | ⟨h, h'⟩
    · exact services i (Nat.zero_le i) h
    · exact cipher i h h'
    · exact aead i h h'
    · exact hash i h h'
    · exact mac i h h'
    · exact akcipher i h h'
    · exact nrbg i h h'
  · intro within
    refine ⟨?_, ?_, ?_, ?_, ?_, ?_, ?_, fun _ absent => absurd absent List.not_mem_nil⟩ <;>
    · intro i h h'
      exact within i (by omega)

theorem respects_cryptoProbe_iff : (VendorEcall.cryptoProbe a0).Respects env hart pmpEntry ↔
    (VendorEcall.cryptoProbe a0).Harmless env hart pmpEntry := by
  rw [VendorEcall.Harmless]
  cases initialized : env.cryptoInitialized with
  | false =>
    refine ⟨fun _ off => absurd off Bool.false_ne_true, fun _ => ⟨fun stack => ?_, fun _ _ => rfl⟩⟩
    refine ⟨.efail, [], ?_, fun _ absent => absurd absent List.not_mem_nil⟩
    rw [VendorEcall.run, initialized]
    rfl
  | true =>
    rw [← within_cryptoInfo]
    constructor
    · rintro ⟨within, -⟩ -
      obtain ⟨_, _, done, inside⟩ := within ⟨fun _ => 0, 0⟩
      rw [VendorEcall.run, initialized] at done
      cases done
      exact inside
    · intro inside
      refine ⟨fun stack => ⟨.ok, (sbiEcallCryptoProbe true a0).2, ?_, inside rfl⟩, fun _ _ => rfl⟩
      rw [VendorEcall.run, initialized]
      rfl

theorem respects_telemetry_iff {extArgs : TmExtCmd} :
    (VendorEcall.telemetry extArgs a1).Respects env hart pmpEntry ↔
      (VendorEcall.telemetry extArgs a1).Harmless env hart pmpEntry := by
  rw [VendorEcall.Harmless]
  cases served : env.tmService with
  | none =>
    refine ⟨fun _ service absent => ?_, fun _ => ⟨fun stack => ?_, fun _ _ => ?_⟩⟩
    · cases absent
    · refine ⟨.efail, [], ?_, fun _ absent => absurd absent List.not_mem_nil⟩
      rw [VendorEcall.run, served]
      rfl
    · rw [VendorEcall.run, VendorEcall.run, served]
      rfl
  | some service =>
    obtain ⟨sensors, inTime⟩ := service
    have run (stack : StackContent) : (VendorEcall.telemetry extArgs a1).run env hart stack =
        .ok (if inTime then .ok else .efail, [⟨a1, (tmMonitoringPrint sensors
          (if env.dpuBoard then sensors.current else stack.adc14)).bytes extArgs⟩]) := by
      rw [VendorEcall.run, served]
      rfl
    constructor
    · rintro ⟨within, same⟩ service found
      cases found
      have board : env.dpuBoard = true := by
        by_contra other
        have stores := same ⟨fun _ => 0, 0⟩ ⟨fun _ => 0, 1000000⟩
        rw [run, run, if_neg other, if_neg other] at stores
        have store := (List.cons.inj (Except.ok.inj stores)).1
        exact tmMonitoringPrint_ne sensors extArgs (Store.mk.inj store).2
      obtain ⟨_, _, done, inside⟩ := within ⟨fun _ => 0, 0⟩
      rw [run, if_pos board] at done
      cases done
      exact ⟨board, inside _ (List.mem_singleton.mpr rfl)⟩
    · intro harmless
      obtain ⟨board, within⟩ := harmless _ rfl
      refine ⟨fun stack => ⟨_, _, run stack, ?_⟩, fun stack stack' => ?_⟩
      · intro store present
        cases List.mem_singleton.mp present
        rw [if_pos board]
        exact within
      · rw [run, run, if_pos board, if_pos board]

end

/-- An ecall respects its caller just when it is harmless. -/
theorem vendorEcall_respects_iff (call : VendorEcall) (env : EcallEnv) (hart : U54)
    (pmpEntry : ℕ → PmpEntry) :
    call.Respects env hart pmpEntry ↔ call.Harmless env hart pmpEntry := by
  cases call with
  | ihcReceive a0 a1 => exact respects_ihcReceive_iff
  | cryptoProbe a0 => exact respects_cryptoProbe_iff
  | telemetry extArgs a1 => exact respects_telemetry_iff

/-- A hart whose first entry permits all of the DDR, and that has an acknowledgement from the other
context. -/
def ddrOnly : ℕ → PmpEntry
  | 0 => ⟨0x80000000, 0x40000000, .napot, true, true, true, false⟩
  | _ => ⟨0, 0, .nullRegion, false, false, false, false⟩

def ackArrived : EcallEnv where
  ihc := fun _ => ⟨0x11, 0x303, 0x200, fun _ => true, fun _ => 0, fun _ => 4, fun _ _ => 0⟩
  cryptoInitialized := true
  dpuBoard := true
  tmService := none

/-- The receive of the acknowledgement copies what was on the stack, and to where the caller may not
write. -/
theorem ackArrived_leaks :
    ¬ (VendorEcall.ihcReceive 6 0x0A000000).Respects ackArrived .u54_1 ddrOnly := by
  rintro ⟨-, same⟩
  have stores := same ⟨fun _ => 0, 0⟩ ⟨fun _ => 1, 0⟩
  exact absurd stores (by decide)

end Hss
