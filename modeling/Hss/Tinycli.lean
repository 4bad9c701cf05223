import Hss.Lib.Runs
import Hss.Lib.Outcome
import Hss.Lines.Tokens
import Mathlib.Data.List.Basic

/-! The command line: the tables of commands, the dispatcher that the handlers of commands with
sub-commands call again, and the warning before a command that may disturb a booted system. -/

namespace Hss

open Runs

/-- `enum CmdId`, less `CMD_INVALID`. -/
inductive CmdId
  | ymodem | ymodemPayload | boot | reset | help | version | uptime | debug | memtest | qspi
  | fpgaQspi | emmc | sdcard | mmc | payload | spi | usbdmsc | scrub | ecc
  | dbgBeu | dbgHealthmon | dbgSm | dbgIpi | dbgCrc32 | dbgHexdump | dbgMonitor | dbgOpensbi
  | dbgSeg | dbgL2cache | dbgPerfctr | dbgWdog | dbgTm
  | dbgMonitorCreate | dbgMonitorDestroy | dbgMonitorEnable | dbgMonitorDisable | dbgMonitorList
  | bootInfo | bootList | bootSelect
  | qspiErase | qspiScan
  | fpgaQspiErase | fpgaQspiScan | fpgaQspiBad | fpgaQspiRead | fpgaQspiDump | fpgaQspiWrite
  | scaiFlashTest | scaiJedec | scaiDebug | scaiWriteReg | scaiReadReg | scaiPageErase
  | scaiPageRead | scaiPageWrite | scaiRst
  deriving DecidableEq, Repr

/-- The build options that the tables of commands depend on. -/
structure CliConfig where
  serviceYmodem : Bool
  serviceBoot : Bool
  memtest : Bool
  /-- `CONFIG_SERVICE_USBDMSC`, with a device to export -/
  serviceUsbdmsc : Bool
  serviceScrub : Bool
  serviceBeu : Bool
  serviceHealthmon : Bool
  serviceTinycliMonitor : Bool
  debugPerfCtrs : Bool
  debugProfilingSupport : Bool
  serviceWdog : Bool
  serviceTelemetry : Bool
  serviceMmc : Bool
  serviceQspi : Bool
  serviceScaiFpga : Bool
  serviceFpgaQspi : Bool

/-- `struct tinycli_toplevel_cmd_safe` -/
structure TinycliToplevelCmdSafe where
  tokenId : CmdId
  warnIfPostInit : Bool
  deriving DecidableEq, Repr

/-- A top-level command that the dispatcher found: whether `EVENT_POST_BOOT` had occurred, whether
the warning was shown, and whether the handler was called. -/
structure Dispatched where
  tokenId : CmdId
  postBoot : Bool
  warned : Bool
  ran : Bool
  deriving DecidableEq, Repr

/-- The state of the command line: the tokens of a line and where `strtok_r` goes on among it.  `world`
is what the handlers work on otherwise; no code reads `history`, which has the newest entry first. -/
structure CliState (W : Type) where
  argv : List Token
  strtokString : Option ℕ
  tokenId : Option CmdId
  toplevelCmdsSafeAfterBootFlags : List TinycliToplevelCmdSafe
  postBoot : Bool
  world : W
  history : List Dispatched

/-- `struct tinycli_cmd`, less its help text. -/
structure TinycliCmd (W : Type) where
  tokenId : CmdId
  name : String
  handler : Option (CliState W → CliState W)

/-- `strncasecmp(a, b, n) == 0` -/
def strncasecmp (a b : Token) (n : ℕ) : Bool :=
  (a.take n).map Char.toLower = (b.take n).map Char.toLower

section
variable {W : Type}

/-- `tinyCLI_NameToCmdIndex_`: the first command whose name the token starts with, else the one
command whose name starts with the token. -/
def tinyCliNameToCmdIndex (pCmds : List (TinycliCmd W)) (pToken : Token) : Option ℕ :=
  match pCmds.findIdx? fun cmd => strncasecmp cmd.name.toList pToken cmd.name.length with
  | some index => some index
  | none =>
    let partialMatch : TinycliCmd W → Bool := fun cmd =>
      strncasecmp cmd.name.toList pToken pToken.length
    if pCmds.countP partialMatch = 1 then pCmds.findIdx? partialMatch else none

/-- The command that a token names, and its place in the table. -/
def namedCmd (pCmds : List (TinycliCmd W)) (token : Token) : Option (ℕ × TinycliCmd W) :=
  tinyCliNameToCmdIndex pCmds token >>= fun cmdIndex =>
    (pCmds[cmdIndex]?).map fun cmd => (cmdIndex, cmd)

/-- `dispatch_command_`.  The handler is called after the warning as well. -/
def dispatchCommand (pCmds : List (TinycliCmd W)) (level : ℕ) (s : CliState W) :
    CliState W × Bool :=
  match s.argv[level]? with
  | none => (s, false)
  | some token =>
    match namedCmd pCmds token with
    | none => (s, false)
    | some (cmdIndex, cmd) =>
      let s :=
        if level = 0 then
          let warns := (s.toplevelCmdsSafeAfterBootFlags[cmdIndex]?).any
            TinycliToplevelCmdSafe.warnIfPostInit && s.postBoot
          let s := { s with
            history := ⟨cmd.tokenId, s.postBoot, warns, cmd.handler.isSome⟩ :: s.history }
          if warns then
            { s with toplevelCmdsSafeAfterBootFlags :=
                s.toplevelCmdsSafeAfterBootFlags.modify cmdIndex fun flag =>
                  { flag with warnIfPostInit := false } }
          else { s with tokenId := some cmd.tokenId }
        else s
      match cmd.handler with
      | some handler => (handler s, true)
      | none => (s, false)

end

/-! ### The tables of commands -/

/-- The handlers that do not dispatch: what they do to the world, and whether they notify
`EVENT_POST_BOOT`. -/
abbrev LeafHandlers (W : Type) := CmdId → String → List Token → W → W × Bool

section
variable {W : Type} (cfg : CliConfig) (leaf : LeafHandlers W)

def callLeaf (tokenId : CmdId) (name : String) (s : CliState W) : CliState W :=
  let (world, postBoot) := leaf tokenId name s.argv s.world
  { s with world, postBoot := s.postBoot || postBoot }

/-- A command whose handler does not dispatch. -/
def leafCmd (tokenId : CmdId) (name : String) : TinycliCmd W :=
  ⟨tokenId, name, some (callLeaf leaf tokenId name)⟩

/-- `IS_ENABLED` around entries of a table. -/
def whenEnabled {α : Type} (enabled : Bool) (entries : List α) : List α :=
  if enabled then entries else []

def monitorCmds : List (TinycliCmd W) :=
  [leafCmd leaf .dbgMonitorCreate "CREATE", leafCmd leaf .dbgMonitorDestroy "DESTROY",
    leafCmd leaf .dbgMonitorEnable "ENABLE", leafCmd leaf .dbgMonitorDisable "DISABLE",
    leafCmd leaf .dbgMonitorList "LIST"]

/-- `tinyCLI_Monitor_` -/
def tinyCliMonitor (s : CliState W) : CliState W := (dispatchCommand (monitorCmds leaf) 2 s).1

def debugCmds : List (TinycliCmd W) :=
  whenEnabled cfg.serviceBeu [leafCmd leaf .dbgBeu "BEU"] ++
  whenEnabled cfg.serviceHealthmon [leafCmd leaf .dbgHealthmon "HEALTHMON"] ++
  [leafCmd leaf .dbgSm "SM", leafCmd leaf .dbgIpi "IPI", leafCmd leaf .dbgCrc32 "CRC32",
    leafCmd leaf .dbgHexdump "HEXDUMP"] ++
  whenEnabled cfg.serviceTinycliMonitor [⟨.dbgMonitor, "MONITOR", some (tinyCliMonitor leaf)⟩] ++
  [leafCmd leaf .dbgOpensbi "OPENSBI", leafCmd leaf .dbgSeg "SEG",
    leafCmd leaf .dbgL2cache "L2CACHE"] ++
  whenEnabled cfg.debugPerfCtrs [leafCmd leaf .dbgPerfctr "PERFCTR"] ++
  whenEnabled cfg.debugProfilingSupport [leafCmd leaf .dbgPerfctr "PROFILE"] ++
  whenEnabled cfg.serviceWdog [leafCmd leaf .dbgWdog "WDOG"] ++
  whenEnabled cfg.serviceTelemetry [leafCmd leaf .dbgTm "TM"]

/-- `tinyCLI_Debug_` -/
def tinyCliDebug (s : CliState W) : CliState W := (dispatchCommand (debugCmds cfg leaf) 1 s).1

def bootCmds : List (TinycliCmd W) :=
  [leafCmd leaf .bootInfo "INFO"] ++
  whenEnabled cfg.serviceMmc [leafCmd leaf .bootList "LIST", leafCmd leaf .bootSelect "SELECT"]

/-- `tinyCLI_Boot_`: without a sub-command it boots. -/
def tinyCliBoot (s : CliState W) : CliState W :=
  match dispatchCommand (bootCmds cfg leaf) 1 s with
  | (s, true) => s
  | (s, false) => callLeaf leaf .boot "BOOT" s

def qspiCmds : List (TinycliCmd W) :=
  [leafCmd leaf .qspiErase "ERASE", leafCmd leaf .qspiScan "SCAN"] ++
  whenEnabled cfg.serviceScaiFpga
    [leafCmd leaf .scaiFlashTest "TEST", leafCmd leaf .scaiJedec "ID",
      leafCmd leaf .scaiDebug "DEBUG", leafCmd leaf .scaiWriteReg "WRITEREG",
      leafCmd leaf .scaiReadReg "READREG", leafCmd leaf .scaiPageErase "PER",
      leafCmd leaf .scaiPageRead "READ", leafCmd leaf .scaiPageWrite "WRITE",
      leafCmd leaf .scaiRst "RST"]

/-- `tinyCLI_QSPI_`: on its own it selects the boot source, or reports that there is none. -/
def tinyCliQspi (s : CliState W) : CliState W :=
  if cfg.serviceQspi && 1 < s.argv.length then (dispatchCommand (qspiCmds cfg leaf) 1 s).1
  else callLeaf leaf .qspi "QSPI" s

def fpgaQspiCmds : List (TinycliCmd W) :=
  [leafCmd leaf .fpgaQspiScan "SCAN", leafCmd leaf .fpgaQspiBad "BAD",
    leafCmd leaf .fpgaQspiErase "ERASE", leafCmd leaf .fpgaQspiRead "READ",
    leafCmd leaf .fpgaQspiDump "DUMP", leafCmd leaf .fpgaQspiWrite "WRITE"]

/-- `tinyCLI_FPGA_QSPI_` -/
def tinyCliFpgaQspi (s : CliState W) : CliState W :=
  if cfg.serviceFpgaQspi && 1 < s.argv.length then (dispatchCommand (fpgaQspiCmds leaf) 1 s).1
  else callLeaf leaf .fpgaQspi "FPGA_QSPI" s

def toplevelCmds : List (TinycliCmd W) :=
  whenEnabled cfg.serviceYmodem
    [leafCmd leaf .ymodem "YMODEM", leafCmd leaf .ymodemPayload "CUSTOM_PAYLOAD"] ++
  whenEnabled cfg.serviceBoot [⟨.boot, "BOOT", some (tinyCliBoot cfg leaf)⟩] ++
  [leafCmd leaf .reset "RESET", leafCmd leaf .help "HELP", leafCmd leaf .version "VERSION",
    leafCmd leaf .uptime "UPTIME", ⟨.debug, "DEBUG", some (tinyCliDebug cfg leaf)⟩] ++
  whenEnabled cfg.memtest [leafCmd leaf .memtest "MEMTEST"] ++
  [⟨.qspi, "QSPI", some (tinyCliQspi cfg leaf)⟩,
    ⟨.fpgaQspi, "FPGA_QSPI", some (tinyCliFpgaQspi cfg leaf)⟩,
    leafCmd leaf .emmc "EMMC", leafCmd leaf .mmc "MMC", leafCmd leaf .sdcard "SDCARD",
    leafCmd leaf .payload "PAYLOAD", leafCmd leaf .spi "SPI"] ++
  whenEnabled cfg.serviceUsbdmsc [leafCmd leaf .usbdmsc "USBDMSC"] ++
  whenEnabled cfg.serviceScrub [leafCmd leaf .scrub "SCRUB"] ++
  whenEnabled cfg.serviceBeu [leafCmd leaf .ecc "ECC"]

end

/-- The flags before the first command. -/
def toplevelCmdsSafeAfterBootFlags (cfg : CliConfig) : List TinycliToplevelCmdSafe :=
  whenEnabled cfg.serviceYmodem [⟨.ymodem, true⟩, ⟨.ymodemPayload, true⟩] ++
  whenEnabled cfg.serviceBoot [⟨.boot, false⟩] ++
  [⟨.reset, true⟩, ⟨.help, false⟩, ⟨.version, false⟩, ⟨.uptime, false⟩, ⟨.debug, false⟩] ++
  whenEnabled cfg.memtest [⟨.memtest, true⟩] ++
  [⟨.qspi, true⟩, ⟨.fpgaQspi, true⟩, ⟨.emmc, true⟩, ⟨.mmc, true⟩, ⟨.sdcard, true⟩,
    ⟨.payload, true⟩, ⟨.spi, true⟩] ++
  whenEnabled cfg.serviceUsbdmsc [⟨.usbdmsc, true⟩] ++
  whenEnabled cfg.serviceScrub [⟨.scrub, false⟩] ++
  whenEnabled cfg.serviceBeu [⟨.ecc, false⟩]

/-! ### Lines -/

/-- What happens: a line that is not empty is entered and left in the buffer of the line editor,
`EVENT_POST_BOOT` is notified, or other software changes the world. -/
inductive CliEvent (W : Type)
  | line (myBuffer : LineBuffer)
  | postBoot
  | other (change : W → W)

section
variable {W : Type} (cfg : CliConfig) (leaf : LeafHandlers W)

/-- `HSS_TinyCLI_Execute` -/
def hssTinyCliExecute (s : CliState W) : CliState W := (dispatchCommand (toplevelCmds cfg leaf) 0 s).1

/-- `tinycli_parseline_handler` on a line that is not empty. -/
def parseLine (myBuffer : LineBuffer) (s : CliState W) : Except Halt (CliState W) := do
  let (tokens, myBuffer, strtokString) ← hssTinyCliParseIntoTokens myBuffer s.strtokString
  let s := { s with argv := tokens.map myBuffer.string, strtokString }
  return if s.argv = [] then s else hssTinyCliExecute cfg leaf s

def cliNext (s : CliState W) : CliEvent W → Except Halt (CliState W)
  | .line myBuffer => parseLine cfg leaf myBuffer s
  | .postBoot => .ok { s with postBoot := true }
  | .other change => .ok { s with world := change s.world }

def cliStep (s : CliState W) (event : CliEvent W) (t : CliState W) : Prop :=
  cliNext cfg leaf s event = .ok t

def cliInit (world : W) : CliState W :=
  ⟨[], none, none, toplevelCmdsSafeAfterBootFlags cfg, false, world, []⟩

end

/-! ### The guard -/

/-- The command is flagged in the table of flags, by its own id. -/
def flagged (cfg : CliConfig) (tokenId : CmdId) : Bool :=
  (toplevelCmdsSafeAfterBootFlags cfg).any fun flag => flag.tokenId = tokenId && flag.warnIfPostInit

/-- The handler of a flagged command is called after the boot only if an earlier dispatch of the
command after the boot has shown its warning and has not called it. -/
def Guarded (cfg : CliConfig) : List Dispatched → Prop
  | [] => True
  | d :: before => (d.postBoot = true → flagged cfg d.tokenId = true → d.ran = true →
      ∃ e ∈ before, e.tokenId = d.tokenId ∧ e.postBoot = true ∧ e.warned = true ∧ e.ran = false) ∧
    Guarded cfg before

section
variable {W : Type} {cfg : CliConfig} {leaf : LeafHandlers W} {pCmds : List (TinycliCmd W)}
  {s t : CliState W} {event : CliEvent W}

/-- The command has a handler, which leaves the record of the top-level dispatches alone. -/
def Calm (cmd : TinycliCmd W) : Prop :=
  ∃ handler, cmd.handler = some handler ∧ ∀ s, (handler s).history = s.history

theorem calm_leafCmd (tokenId : CmdId) (name : String) : Calm (leafCmd leaf tokenId name) :=
  ⟨_, rfl, fun _ => rfl⟩

theorem mem_namedCmd {token : Token} {cmdIndex : ℕ} {cmd : TinycliCmd W}
    (named : namedCmd pCmds token = some (cmdIndex, cmd)) : cmd ∈ pCmds := by
  unfold namedCmd at named
  cases found : tinyCliNameToCmdIndex pCmds token with
  | none => simp [found] at named
  | some index =>
    simp only [found, Option.bind_eq_bind, Option.bind_some, Option.map_eq_some_iff,
      Prod.mk.injEq] at named
    obtain ⟨_, at_index, -, rfl⟩ := named
    exact List.mem_of_getElem? at_index

theorem dispatchCommand_history (calm : ∀ cmd ∈ pCmds, Calm cmd) {level : ℕ} (below : level ≠ 0)
    (s : CliState W) : (dispatchCommand pCmds level s).1.history = s.history := by
  unfold dispatchCommand
  cases s.argv[level]? with
  | none => rfl
  | some token =>
    cases named : namedCmd pCmds token with
    | none => simp only [named]
    | some found =>
      obtain ⟨handler, same, quiet⟩ := calm found.2 (mem_namedCmd named)
      simp only [named, same, if_neg below, quiet]

/-- At the top level, the dispatcher records the command that it found. -/
theorem dispatchCommand_top (calm : ∀ cmd ∈ pCmds, Calm cmd) {token : Token} {rest : List Token}
    (argv : s.argv = token :: rest) :
    (dispatchCommand pCmds 0 s).1.history = match namedCmd pCmds token with
      | none => s.history
      | some (cmdIndex, cmd) =>
        ⟨cmd.tokenId, s.postBoot, (s.toplevelCmdsSafeAfterBootFlags[cmdIndex]?).any
          TinycliToplevelCmdSafe.warnIfPostInit && s.postBoot, true⟩ :: s.history := by
  unfold dispatchCommand
  rw [argv]
  cases named : namedCmd pCmds token with
  | none => simp only [List.getElem?_cons_zero, named]
  | some found =>
    obtain ⟨handler, same, quiet⟩ := calm found.2 (mem_namedCmd named)
    simp only [List.getElem?_cons_zero, named, same, quiet, if_true, Option.isSome_some]
    split <;> rfl

@[simp] theorem forall_mem_whenEnabled {α : Type} {P : α → Prop} {enabled : Bool}
    {entries : List α} : (∀ a ∈ whenEnabled enabled entries, P a) ↔
      (enabled = true → ∀ a ∈ entries, P a) := by
  cases enabled <;> simp [whenEnabled]

theorem monitorCmds_calm : ∀ cmd ∈ monitorCmds leaf, Calm cmd := by
  simp [monitorCmds, calm_leafCmd]

theorem debugCmds_calm : ∀ cmd ∈ debugCmds cfg leaf, Calm cmd := by
  have monitor : Calm ⟨.dbgMonitor, "MONITOR", some (tinyCliMonitor leaf)⟩ :=
    ⟨_, rfl, dispatchCommand_history monitorCmds_calm (by decide)⟩
  simp only [debugCmds, List.forall_mem_append, List.forall_mem_cons, forall_mem_whenEnabled,
    calm_leafCmd, monitor]
  simp

theorem toplevelCmds_calm : ∀ cmd ∈ toplevelCmds cfg leaf, Calm cmd := by
  have boot : Calm ⟨.boot, "BOOT", some (tinyCliBoot cfg leaf)⟩ := by
    refine ⟨_, rfl, fun s => ?_⟩
    have bootCmds_calm : ∀ cmd ∈ bootCmds cfg leaf, Calm cmd := by simp [bootCmds, calm_leafCmd]
    have same := dispatchCommand_history bootCmds_calm Nat.one_ne_zero s
    unfold tinyCliBoot
    split
    · next found => rwa [found] at same
    · next found => rwa [found] at same
  have debug : Calm ⟨.debug, "DEBUG", some (tinyCliDebug cfg leaf)⟩ :=
    ⟨_, rfl, dispatchCommand_history debugCmds_calm (by decide)⟩
  have qspi : Calm ⟨.qspi, "QSPI", some (tinyCliQspi cfg leaf)⟩ := by
    refine ⟨_, rfl, fun s => ?_⟩
    unfold tinyCliQspi
    split
    · exact dispatchCommand_history (by simp [qspiCmds, calm_leafCmd]) (by decide) s
    · rfl
  have fpgaQspi : Calm ⟨.fpgaQspi, "FPGA_QSPI", some (tinyCliFpgaQspi cfg leaf)⟩ := by
    refine ⟨_, rfl, fun s => ?_⟩
    unfold tinyCliFpgaQspi
    split
    · exact dispatchCommand_history (by simp [fpgaQspiCmds, calm_leafCmd]) (by decide) s
    · rfl
  simp only [toplevelCmds, List.forall_mem_append, List.forall_mem_cons, forall_mem_whenEnabled,
    calm_leafCmd, boot, debug, qspi, fpgaQspi]
  simp

/-- The first token that is found when a line is parsed in this state, which need not be on the
line. -/
def firstToken (s : CliState W) (myBuffer : LineBuffer) : Option Token :=
  match hssTinyCliParseIntoTokens myBuffer s.strtokString with
  | .ok (start :: _, myBuffer, _) => some (myBuffer.string start)
  | _ => none

/-- The command of a line that is entered after the boot is a flagged one. -/
def Destructive (cfg : CliConfig) (leaf : LeafHandlers W) (s : CliState W) : CliEvent W → Prop
  | .line myBuffer => s.postBoot = true ∧ ∃ token ∈ firstToken s myBuffer,
    ∃ found ∈ namedCmd (toplevelCmds cfg leaf) token, flagged cfg found.2.tokenId = true
  | _ => False

instance (cfg : CliConfig) (leaf : LeafHandlers W) (s : CliState W) :
    ∀ event, Decidable (Destructive cfg leaf s event)
  | .line myBuffer => inferInstanceAs (Decidable (_ ∧ ∃ token ∈ firstToken s myBuffer,
      ∃ found ∈ namedCmd (toplevelCmds cfg leaf) token, flagged cfg found.2.tokenId = true))
  | .postBoot => .isFalse id
  | .other _ => .isFalse id

/-- A step adds no record, or the record of the command that it found, whose handler it called. -/
theorem cliStep_history (step : cliStep cfg leaf s event t) :
    (t.history = s.history ∧ ¬ Destructive cfg leaf s event) ∨
      ∃ d, t.history = d :: s.history ∧ d.ran = true ∧
        (Destructive cfg leaf s event ↔ d.postBoot = true ∧ flagged cfg d.tokenId = true) := by
  cases event with
  | postBoot =>
    cases step
    exact .inl ⟨rfl, id⟩
  | other change =>
    cases step
    exact .inl ⟨rfl, id⟩
  | line myBuffer =>
    obtain ⟨⟨tokens, parsed, strtokString⟩, parse, after⟩ := Outcome.bind_eq_ok.mp step
    cases tokens with
    | nil =>
      cases after
      exact .inl ⟨rfl, by simp [Destructive, firstToken, parse]⟩
    | cons start rest =>
      have calm : ∀ cmd ∈ toplevelCmds cfg leaf, Calm cmd := toplevelCmds_calm
      have top := dispatchCommand_top calm (s := { s with
        argv := parsed.string start :: rest.map parsed.string, strtokString }) rfl
      cases after
      rw [List.map_cons, if_neg (List.cons_ne_nil _ _), hssTinyCliExecute, top]
      cases named : namedCmd (toplevelCmds cfg leaf) (parsed.string start) with
      | none => exact .inl ⟨rfl, by simp [Destructive, firstToken, parse, named]⟩
      | some found =>
        refine .inr ⟨_, rfl, rfl, ?_⟩
        simp only [Destructive, firstToken, parse, named, Option.mem_def, Option.some.injEq,
          exists_eq_left']

theorem cliStep_ran (step : cliStep cfg leaf s event t) (ran : ∀ d ∈ s.history, d.ran = true) :
    ∀ d ∈ t.history, d.ran = true := by
  rcases cliStep_history step with ⟨same, -⟩ | ⟨d, more, called, -⟩
  · rwa [same]
  · rw [more]
    exact List.forall_mem_cons.mpr ⟨called, ran⟩

theorem Guarded.of_harmless {history : List Dispatched}
    (harmless : ∀ d ∈ history, ¬ (d.postBoot = true ∧ flagged cfg d.tokenId = true)) :
    Guarded cfg history := by
  induction history with
  | nil => trivial
  | cons d before ih =>
    obtain ⟨first, rest⟩ := List.forall_mem_cons.mp harmless
    exact ⟨fun boot flag => absurd ⟨boot, flag⟩ first, ih rest⟩

/-- The guard holds in a run, if and only if the run enters no flagged command after the boot. -/
theorem tinycli_guarded_iff {world : W} {events : List (CliEvent W)}
    (run : Run (cliStep cfg leaf) (cliInit cfg world) events s) :
    Guarded cfg s.history ↔
      Run (Under (fun s event => ¬ Destructive cfg leaf s event) (cliStep cfg leaf))
        (cliInit cfg world) events s := by
  constructor
  · intro guarded
    induction run with
    | nil => exact .nil
    | @snoc events s t event before last ih =>
      have ran : ∀ d ∈ s.history, d.ran = true :=
        before.invariant (I := fun s => ∀ d ∈ s.history, d.ran = true) (List.forall_mem_nil _)
          fun _ _ _ ran step => cliStep_ran step ran
      rcases cliStep_history last with ⟨same, harmless⟩ | ⟨d, more, called, destructive⟩
      · rw [same] at guarded
        exact (ih guarded).snoc ⟨harmless, last⟩
      · rw [more] at guarded
        refine (ih guarded.2).snoc ⟨fun harmful => ?_, last⟩
        obtain ⟨boot, flag⟩ := destructive.mp harmful
        obtain ⟨e, earlier, -, -, -, held⟩ := guarded.1 boot flag called
        rw [ran e earlier] at held
        cases held
  · intro quiet
    refine .of_harmless (quiet.invariant (I := fun s => ∀ d ∈ s.history,
      ¬ (d.postBoot = true ∧ flagged cfg d.tokenId = true)) (List.forall_mem_nil _) ?_)
    intro s event t harmless ⟨meets, step⟩
    rcases cliStep_history step with ⟨same, -⟩ | ⟨d, more, -, destructive⟩
    · rwa [same]
    · rw [more]
      exact List.forall_mem_cons.mpr ⟨fun harmful => meets (destructive.mpr harmful), harmless⟩

end

/-- A system with the commands that every build has, whose handlers do nothing. -/
def bareCli : CliConfig :=
  ⟨false, false, false, false, false, false, false, false, false, false, false, false, false, false,
    false, false⟩

def idleLeaf : LeafHandlers Unit := fun _ _ _ w => (w, false)

/-- The buffer of the line editor after a line is typed. -/
def withLine (line : String) (rest : LineBuffer) : LineBuffer := fun i =>
  if i.val < line.length then BitVec.ofNat 8 (line.toList[i.val]?.elim 0 Char.toNat)
  else if i.val = line.length then 0 else rest i

/-- A line of more than 40 tokens, the last of which is left for the next line. -/
def blanks : LineBuffer :=
  withLine (String.ofList (List.replicate 41 ' ') ++ "help") fun _ => 0

/-- The lines after the boot, of which the first is not parsed: `strtok_r` goes on with what the line of
blanks left in the buffer. -/
def helpEvents : List (CliEvent Unit) :=
  [.line blanks, .postBoot, .line (withLine "reset" blanks), .line (withLine "help" blanks)]

theorem tinycli_guarded_help :
    ∃ s, Run (cliStep bareCli idleLeaf) (cliInit bareCli ()) helpEvents s ∧
      s.history = [⟨.help, true, false, true⟩, ⟨.help, true, false, true⟩] ∧
      Guarded bareCli s.history := by
  obtain ⟨s, run, history⟩ := exists_run
    (fun s event => if ¬ Destructive bareCli idleLeaf s event then cliNext bareCli idleLeaf s event
      else .error .lineBufferBound)
    (cliInit bareCli ()) helpEvents
    (P := fun s => s.history = [⟨.help, true, false, true⟩, ⟨.help, true, false, true⟩])
    (by decide +kernel)
  have quiet : Run (Under (fun s event => ¬ Destructive bareCli idleLeaf s event)
    (cliStep bareCli idleLeaf)) (cliInit bareCli ()) helpEvents s := under_of_guard run
  exact ⟨s, quiet.forget, history, (tinycli_guarded_iff quiet.forget).mpr quiet⟩

/-- After the boot, the first `RESET` shows the warning and resets. -/
theorem tinycli_runs_with_warning :
    ∃ s, Run (cliStep bareCli idleLeaf) (cliInit bareCli ())
        [.postBoot, .line (withLine "reset" fun _ => 0)] s ∧
      s.history = [⟨.reset, true, true, true⟩] ∧ ¬ Guarded bareCli s.history := by
  obtain ⟨s, run, history⟩ := exists_run (cliNext bareCli idleLeaf) (cliInit bareCli ())
    [.postBoot, .line (withLine "reset" fun _ => 0)]
    (P := fun s => s.history = [⟨.reset, true, true, true⟩]) (by decide +kernel)
  refine ⟨s, run, history, fun guarded => ?_⟩
  rw [history] at guarded
  obtain ⟨e, earlier, -⟩ := guarded.1 rfl (by decide) rfl
  exact absurd earlier List.not_mem_nil

end Hss
