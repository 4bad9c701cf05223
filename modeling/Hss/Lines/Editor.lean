import Hss.StateMachine
import Hss.Tinycli

/-! The line editor of the command line: its two buffers, the keys that change them, and the machine that
reads a line and has it parsed. -/

namespace Hss

/-! ### The state -/

/-- `bufferLen` of the line editor -/
def bufferLen : ℤ := hssUartHelperMaxGetline - 1

/-- `enum UartStatesEnum` of the command line -/
inductive TinycliState
  | initialization | preboot | doboot | readline | parseline | usbdmsc | uartSurrender
  deriving DecidableEq, Repr

/-- The machine of the command line and what its handlers keep: the two lines, the length, whether an
escape sequence is read, and where `strtok_r` goes on. -/
structure LineEditor where
  tinycliService : StateMachine TinycliState
  myPrevBuffer : LineBuffer
  myBuffer : LineBuffer
  readStringLen : ℤ
  escapeActive : Bool
  strtokString : Option ℕ

/-- What a command does to the machine: `HSS_TinyCLI_WaitForUSBMSCDDone` or `HSS_TinyCLI_SurrenderUART`. -/
inductive StateChange
  | waitForUsbmscdDone | surrenderUart
  deriving DecidableEq, Repr

/-- What the handlers find: the time, whether the events that the start waits for are notified, whether
a key was pressed in time, whether the boot could be tried, the byte that was received, what the command
of the line does to the machine, and whether the USB device is done. -/
structure TinycliInput where
  now : Word
  started : Bool
  keyPressed : Bool
  bootTried : Bool
  received : Option (BitVec 8)
  command : Option StateChange
  usbdmscDone : Bool

namespace LineEditor

def goto (s : LineEditor) (state : TinycliState) : LineEditor :=
  { s with tinycliService := { s.tinycliService with state } }

def change (s : LineEditor) : StateChange → LineEditor
  | .waitForUsbmscdDone => s.goto .usbdmsc
  | .surrenderUart => s.goto .uartSurrender

/-- `readStringLen < bufferLen`, a comparison of unsigned numbers. -/
def hasRoom (s : LineEditor) : Prop := s.readStringLen % 2 ^ 64 < bufferLen

instance (s : LineEditor) : Decidable s.hasRoom := inferInstanceAs (Decidable (_ < _))

/-! ### Keys -/

/-- The up arrow: as much of the previous line as this one is long.  The line is then shown. -/
def upArrow (s : LineEditor) : Except Halt LineEditor := do
  let length ← s.myBuffer.strlen
  let s := { s with readStringLen := length, escapeActive := false }
  if length ≠ 0 then
    let myBuffer ← s.myBuffer.memcpy s.myPrevBuffer length
    let _ ← myBuffer.strlen
    return { s with myBuffer }
  else
    let myBuffer ← s.myBuffer.store 0 0
    return { s with myBuffer }

/-- The right arrow, which makes blanks of NUL bytes. -/
def rightArrow (s : LineEditor) : Except Halt LineEditor :=
  let s := { s with escapeActive := false }
  if s.hasRoom then do
    let s := { s with readStringLen := s.readStringLen + 1 }
    let byte ← s.myBuffer.load s.readStringLen
    if byte = 0 then
      let myBuffer ← s.myBuffer.store s.readStringLen 0x20
      return { s with myBuffer }
    else return s
  else .ok s

def leftArrow (s : LineEditor) : LineEditor :=
  { s with
    escapeActive := false
    readStringLen := if s.readStringLen ≠ 0 then s.readStringLen - 1 else s.readStringLen }

/-- The NUL byte at the end of a line, if there is room for it. -/
def terminate (s : LineEditor) : Except Halt LineEditor :=
  if s.hasRoom then do
    let myBuffer ← s.myBuffer.store s.readStringLen 0
    return { s with myBuffer }
  else .ok s

/-- `\r` and `\n`: the line is kept, or the one before is taken again. -/
def enter (s : LineEditor) : Except Halt LineEditor := do
  let s ← s.terminate
  if s.readStringLen ≠ 0 then
    let myPrevBuffer ← s.myPrevBuffer.memcpy s.myBuffer (s.readStringLen + 1)
    return { s with myPrevBuffer }.goto .parseline
  else
    let length ← s.myPrevBuffer.strlen
    let myBuffer ← s.myBuffer.memcpy s.myPrevBuffer (length + 1)
    return { s with readStringLen := length, myBuffer }.goto .parseline

/-- Delete and backspace, which differ in what is shown. -/
def delete (s : LineEditor) : Except Halt LineEditor :=
  if s.readStringLen ≠ 0 then do
    let s := { s with readStringLen := s.readStringLen - 1 }
    let myBuffer ← s.myBuffer.store s.readStringLen 0
    return { s with myBuffer }
  else .ok s

/-- `^E`.  The line is then shown. -/
def toEnd (s : LineEditor) : Except Halt LineEditor := do
  let length ← s.myBuffer.strlen
  return { s with readStringLen := length }

/-- `^C` -/
def interrupt (s : LineEditor) : Except Halt LineEditor := do
  let myBuffer ← s.myBuffer.store 0 0
  return { s with readStringLen := -1, myBuffer }.goto .parseline

/-- A byte of the line. -/
def insert (s : LineEditor) (byte : BitVec 8) : Except Halt LineEditor :=
  if s.hasRoom then do
    let myBuffer ← s.myBuffer.store s.readStringLen byte
    return { s with myBuffer, readStringLen := s.readStringLen + 1 }
  else .ok s

/-- The keys that are no part of an escape sequence. -/
def plainKey (s : LineEditor) (byte : BitVec 8) : Except Halt LineEditor :=
  if byte = 0x0D ∨ byte = 0x0A then s.enter
  else if byte = 0x7F ∨ byte = 0x08 then s.delete
  else if byte = 0x01 then .ok { s with readStringLen := 0 }
  else if byte = 0x05 then s.toEnd
  else if byte = 0x04 ∧ s.readStringLen ≠ 0 then .ok s
  else if byte = 0x04 ∨ byte = 0x03 then s.interrupt
  else if byte = 0x1B then .ok { s with escapeActive := true }
  else s.insert byte

/-- A byte that was received.  What is no known escape sequence is a key after all. -/
def key (s : LineEditor) (byte : BitVec 8) : Except Halt LineEditor :=
  if s.escapeActive then
    if byte = 0x5B then .ok s
    else if byte = 0x41 then s.upArrow
    else if byte = 0x42 then .ok { s with escapeActive := false }
    else if byte = 0x43 then s.rightArrow
    else if byte = 0x44 then .ok s.leftArrow
    else { s with escapeActive := false }.plainKey byte
  else s.plainKey byte

/-- `HSS_TinyCLI_ParseIntoTokens` on the line. -/
def parseIntoTokens (s : LineEditor) : Except Halt (ℕ × LineEditor) := do
  let (tokens, myBuffer, strtokString) ← hssTinyCliParseIntoTokens s.myBuffer s.strtokString
  return (tokens.length, { s with myBuffer, strtokString })

/-! ### The machine -/

/-- `tinycli_init_handler` -/
def tinycliInitHandler (cfg : CliConfig) (input : TinycliInput) (s : LineEditor) : Except Halt LineEditor :=
  .ok (if input.started then s.goto (if cfg.serviceBoot then .preboot else .readline) else s)

/-- `tinycli_preboot_handler` -/
def tinycliPrebootHandler (input : TinycliInput) (s : LineEditor) : Except Halt LineEditor :=
  .ok (s.goto (if input.keyPressed then .readline else .doboot))

/-- `tinycli_doboot_handler` -/
def tinycliDobootHandler (cfg : CliConfig) (input : TinycliInput) (s : LineEditor) :
    Except Halt LineEditor :=
  .ok (if cfg.serviceBoot && !input.bootTried then s else s.goto .readline)

/-- `tinycli_readline_onEntry`, less the time-out, after which the board is reset. -/
def tinycliReadlineOnEntry (s : LineEditor) : Except Halt LineEditor := .ok { s with readStringLen := 0 }

/-- `tinycli_readline_handler` -/
def tinycliReadlineHandler (input : TinycliInput) (s : LineEditor) : Except Halt LineEditor :=
  match input.received with
  | some byte => s.key byte
  | none => .ok s

/-- `tinycli_readline_onExit` -/
def tinycliReadlineOnExit (s : LineEditor) : Except Halt LineEditor :=
  if s.readStringLen > 0 then .ok s
  else do
    let myBuffer ← s.myBuffer.store 0 0
    return { s with readStringLen := 0, myBuffer }

/-- The tokens of a line that is not empty. -/
def tokens (s : LineEditor) : Except Halt (ℕ × LineEditor) :=
  if s.readStringLen > 0 then s.parseIntoTokens else .ok (0, s)

/-- `tinycli_parseline_handler` -/
def tinycliParselineHandler (input : TinycliInput) (s : LineEditor) : Except Halt LineEditor := do
  let (count, s) ← s.tokens
  let s := if count ≠ 0 then input.command.elim s s.change else s
  return if s.tinycliService.state = .parseline then s.goto .readline else s

/-- `tinycli_usbdmsc_handler` -/
def tinycliUsbdmscHandler (cfg : CliConfig) (input : TinycliInput) (s : LineEditor) :
    Except Halt LineEditor :=
  .ok (if cfg.serviceUsbdmsc && !input.usbdmscDone then s else s.goto .readline)

/-- `tinycli_state_descs` -/
def tinycliStateDescs (cfg : CliConfig) (input : TinycliInput) : TinycliState → StateDesc LineEditor
  | .initialization => ⟨none, none, tinycliInitHandler cfg input⟩
  | .preboot => ⟨none, none, tinycliPrebootHandler input⟩
  | .doboot => ⟨none, none, tinycliDobootHandler cfg input⟩
  | .readline =>
    ⟨some tinycliReadlineOnEntry, some tinycliReadlineOnExit, tinycliReadlineHandler input⟩
  | .parseline => ⟨none, none, tinycliParselineHandler input⟩
  | .usbdmsc => ⟨none, none, tinycliUsbdmscHandler cfg input⟩
  | .uartSurrender => ⟨none, none, .ok⟩

end LineEditor

/-- `tinycli_service` -/
def tinycliService : MachineOf TinycliState LineEditor where
  get := LineEditor.tinycliService
  put s machine := { s with tinycliService := machine }

/-- What happens: the machine runs, or other software surrenders the UART. -/
inductive TinycliEvent
  | run (input : TinycliInput)
  | surrenderUart

namespace LineEditor

def next (cfg : CliConfig) (s : LineEditor) : TinycliEvent → Except Halt LineEditor
  | .run input => Hss.tinycliService.run (tinycliStateDescs cfg input) input.now s
  | .surrenderUart => .ok (s.change .surrenderUart)

/-- The line editor after power-on. -/
def powerOn : LineEditor where
  tinycliService := ⟨.initialization, none, 0, 0⟩
  myPrevBuffer := fun _ => 0
  myBuffer := fun _ => 0
  readStringLen := 0
  escapeActive := false
  strtokString := none

/-- The state after some events. -/
def after (cfg : CliConfig) (events : List TinycliEvent) : Except Halt LineEditor :=
  events.foldlM (next cfg) powerOn

/-- The state in which a run of the machine calls the handler. -/
def entered (cfg : CliConfig) (input : TinycliInput) (s : LineEditor) : Except Halt LineEditor :=
  let service := s.tinycliService
  let s := Hss.tinycliService.start input.now s
  if service.prevState = some service.state then .ok s
  else Hss.tinycliService.changeState (tinycliStateDescs cfg input) service.prevState service.state s

end LineEditor

end Hss
