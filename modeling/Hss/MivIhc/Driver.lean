import Hss.Lib.Runs
import Hss.MivIhc.Block

/-! The driver of the inter-hart communication subsystem: the calls that send and poll, one access to a
register at a time, on all harts at once. -/

namespace Hss

open Runs

/-! ### A call -/

/-- Where a hart is in a call of the driver: what it does next, with what it holds. -/
inductive IhcPc
  | idle
  /-- `IHC_tx_message_from_hart`, and `IHC_tx_message_from_context` with the harts of the contexts -/
  | checkRmp (remote : HartId) (message : ℕ → BitVec 32)
  | checkAck (remote : HartId) (message : ℕ → BitVec 32)
  | fill (remote : HartId) (message : ℕ → BitVec 32) (i : ℕ)
  | readToSend (remote : HartId) (message : ℕ → BitVec 32)
  | send (remote : HartId) (message : ℕ → BitVec 32) (ctl : BitVec 32)
  /-- `parse_incoming_hartid`: the harts that are left to its loop -/
  | scanAck (polling : Bool) (left : List HartId)
  | scanMp (polling : Bool) (remote : HartId) (left : List HartId)
  /-- `rx_message` -/
  | checkMp (remote : HartId)
  | copy (remote : HartId) (words : List (BitVec 32))
  | readToTake (remote : HartId)
  | take (remote : HartId) (ctl : BitVec 32)
  /-- The acknowledgement is cleared. -/
  | readToClear (remote : HartId)
  | clear (remote : HartId) (ctl : BitVec 32)

/-- `IHCIA_remote_harts` and `IHCIA_remote_hart_ints`, of each hart. -/
structure IhcSetup where
  connectedHarts : HartId → BitVec 32
  connectedHartInts : HartId → BitVec 32

/-- The subsystem, where each hart is, and for each two harts the messages that the first has sent to the
second and those that the handler of the second was given, oldest first. -/
structure IhcSystem (ip : MivIhc) where
  block : ip.State
  pc : HartId → IhcPc
  sent : HartId → HartId → List (List (BitVec 32))
  delivered : HartId → HartId → List (List (BitVec 32))

/-- An entry is added to the log of two harts. -/
def logMessage (log : HartId → HartId → List (List (BitVec 32))) (source target : HartId)
    (words : List (BitVec 32)) : HartId → HartId → List (List (BitVec 32)) :=
  fun a b => if a = source ∧ b = target then log a b ++ [words] else log a b

/-- What `rx_message` writes to `CTL_REG`: an acknowledgement, if the side is to give one. -/
def takeValue (ctl : BitVec 32) : BitVec 32 :=
  let temp := ctl &&& ~~~mpMessagePresent
  if temp &&& ackieEn ≠ 0 then temp ||| ackInt else temp

namespace IhcSystem

variable {ip : MivIhc} (setup : IhcSetup)

def goto (s : IhcSystem ip) (hart : HartId) (pc : IhcPc) : IhcSystem ip :=
  { s with pc := Function.update s.pc hart pc }

/-- The words of `message` that a channel carries. -/
def carried (ip : MivIhc) (source target : HartId) (message : ℕ → BitVec 32) : List (BitVec 32) :=
  (List.range (ip.sizeMsg source target)).map message

/-- A hart takes its next step in the call that it is in. -/
def turn (s : IhcSystem ip) (hart : HartId) : IhcSystem ip :=
  match s.pc hart with
  | .idle => s
  | .checkRmp remote message =>
    -- `MP_BUSY`
    if ip.ctlReg s.block hart remote &&& rmpMessagePresent = rmpMessagePresent then s.goto hart .idle
    else s.goto hart (.checkAck remote message)
  | .checkAck remote message =>
    if ip.ctlReg s.block hart remote &&& ackInt = ackInt then s.goto hart .idle
    else s.goto hart (.fill remote message 0)
  | .fill remote message i =>
    if i < ip.sizeMsg hart remote then
      { s.goto hart (.fill remote message (i + 1)) with
        block := ip.writeMesgOut hart remote i (message i) s.block }
    else s.goto hart (.readToSend remote message)
  | .readToSend remote message => s.goto hart (.send remote message (ip.ctlReg s.block hart remote))
  | .send remote message ctl =>
    -- `MESSAGE_SENT`
    { s.goto hart .idle with
      block := ip.writeCtlReg hart remote (ctl ||| rmpMessagePresent) s.block
      sent := logMessage s.sent hart remote (carried ip hart remote message) }
  | .scanAck _ [] => s.goto hart .idle
  | .scanAck polling (remote :: left) =>
    let testInt : BitVec 32 := 1 <<< (2 * remote.num + 1)
    if setup.connectedHarts hart &&& 1 <<< remote.num ≠ 0 then
      if ip.msgAvail s.block hart &&& testInt ≠ 0 ∧
          (polling = true ∨ setup.connectedHartInts hart &&& testInt ≠ 0) then
        -- the handler is called with `is_ack`, and with no message to take
        s.goto hart (.readToClear remote)
      else s.goto hart (.scanMp polling remote left)
    else s.goto hart (.scanAck polling left)
  | .scanMp polling remote left =>
    let testInt : BitVec 32 := 1 <<< (2 * remote.num)
    if ip.msgAvail s.block hart &&& testInt ≠ 0 ∧
        (polling = true ∨ setup.connectedHartInts hart &&& testInt = testInt) then
      s.goto hart (.checkMp remote)
    else s.goto hart (.scanAck polling left)
  | .checkMp remote =>
    if ip.ctlReg s.block hart remote &&& mpMessagePresent = mpMessagePresent then
      s.goto hart (.copy remote [])
    else s.goto hart .idle
  | .copy remote words =>
    if words.length < ip.sizeMsg hart remote then
      s.goto hart (.copy remote (words ++ [ip.mesgIn s.block hart remote words.length]))
    else
      { s.goto hart (.readToTake remote) with delivered := logMessage s.delivered remote hart words }
  | .readToTake remote => s.goto hart (.take remote (ip.ctlReg s.block hart remote))
  | .take remote ctl =>
    { s.goto hart .idle with block := ip.writeCtlReg hart remote (takeValue ctl) s.block }
  | .readToClear remote => s.goto hart (.clear remote (ip.ctlReg s.block hart remote))
  | .clear remote ctl =>
    { s.goto hart .idle with block := ip.writeCtlReg hart remote (ctl &&& ~~~ackClr) s.block }

end IhcSystem

/-! ### Runs -/

/-- What happens next: a hart that is in no call starts one, or a hart takes a step in its call. -/
inductive IhcAction
  | tx (hart remote : HartId) (message : ℕ → BitVec 32)
  /-- `IHC_message_present_poll`, or else `message_present_isr` -/
  | messagePresent (hart : HartId) (polling : Bool)
  | turn (hart : HartId)

/-- The steps in which a message is sent only as `sends` has it. -/
def ihcStep {ip : MivIhc} (setup : IhcSetup) (sends : HartId → HartId → Prop) (s : IhcSystem ip) :
    IhcAction → IhcSystem ip → Prop
  | .tx hart remote message, t =>
    s.pc hart = .idle ∧ hart ≠ remote ∧ sends hart remote ∧ t = s.goto hart (.checkRmp remote message)
  | .messagePresent hart polling, t => s.pc hart = .idle ∧ t = s.goto hart (.scanAck polling harts)
  | .turn hart, t => t = s.turn setup hart

/-- The subsystem after `HSS_IHCInit`, and no hart in a call. -/
def ihcStart (ip : MivIhc) (cfg : Config) (s : ip.State) : IhcSystem ip :=
  ⟨ip.hssIhcInit cfg s, fun _ => .idle, fun _ _ => [], fun _ _ => []⟩

/-! ### What is in flight -/

/-- The hart has given the message of `remote` to the handler, and not yet taken it from the channel. -/
def IhcPc.handled (remote : HartId) : IhcPc → Bool
  | .readToTake r | .take r _ => r = remote
  | _ => false

namespace IhcSystem

variable {ip : MivIhc}

def announced (s : IhcSystem ip) (a b : HartId) : Bool := (ip.ctlReg s.block a b).getLsbD 0

/-- The message that is in the channel from `a` to `b`, and that the handler of `b` was not given. -/
def inFlight (s : IhcSystem ip) (a b : HartId) : List (List (BitVec 32)) :=
  if s.announced a b = true ∧ (s.pc b).handled a = false then [carried ip a b (ip.mesgIn s.block b a)]
  else []

/-- No message is lost, doubled, torn or overtaken: what was sent is what was delivered and then what is
in flight. -/
def Conserves (s : IhcSystem ip) : Prop :=
  ∀ a b, a ≠ b → s.sent a b = s.delivered a b ++ s.inFlight a b

end IhcSystem

/-- The hart is to write back what it has read of `CTL_REG` of its channel to `remote`. -/
def IhcPc.writesBack (remote : HartId) : IhcPc → Bool
  | .send r _ _ | .take r _ | .clear r _ => r = remote
  | _ => false

/-- No hart writes to a channel while the other side is to write back what it has read of it. -/
def Undisturbed {ip : MivIhc} (s : IhcSystem ip) : IhcAction → Prop
  | .turn hart => ∀ remote, hart ≠ remote → (s.pc hart).writesBack remote = true →
      (s.pc remote).writesBack hart = false
  | _ => True

end Hss
