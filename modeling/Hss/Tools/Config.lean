import Hss.Tools.Generator

/-! The configuration parser of the generator: a machine that the events of the YAML library drive, with
the harts and the payload that it collects. -/

namespace Hss

/-! ### Events and tokens -/

/-- `yaml_event_type_t`.  A scalar has its value up to the first zero byte. -/
inductive YamlEvent
  | noEvent | streamStart | streamEnd | documentStart | documentEnd | alias
  | scalar (value : Bytes)
  | sequenceStart | sequenceEnd | mappingStart | mappingEnd

/-- `enum token` -/
inductive ConfigToken
  | unknown | setName | hartEntryPoints | payloads | payloadExecAddr | payloadOwnerHart
  | payloadSecondaryHart | payloadPayloadName | payloadPrivMode | payloadSkipOpensbi
  | payloadAllowReboot | payloadSkipAutoboot | payloadAncilliaryData | privModeM | privModeS | privModeU
  | hart (u : U54)
  | rebootCold | rebootWarm
  deriving DecidableEq

/-- The characters of a string. -/
def chars (s : String) : Bytes := s.toList.map fun c => BitVec.ofNat 8 c.toNat

def tokens : List (ConfigToken × String) :=
  [(.setName, "set-name"), (.hartEntryPoints, "hart-entry-points"), (.payloads, "payloads"),
    (.payloadExecAddr, "exec-addr"), (.payloadOwnerHart, "owner-hart"),
    (.payloadPayloadName, "payload-name"), (.payloadPrivMode, "priv-mode"),
    (.payloadSecondaryHart, "secondary-hart"), (.payloadSkipOpensbi, "skip-opensbi"),
    (.payloadAllowReboot, "allow-reboot"), (.payloadSkipAutoboot, "skip-autoboot"),
    (.payloadAncilliaryData, "ancilliary-data"), (.privModeM, "prv_m"), (.privModeS, "prv_s"),
    (.privModeU, "prv_u"), (.hart .u54_1, "u54_1"), (.hart .u54_2, "u54_2"), (.hart .u54_3, "u54_3"),
    (.hart .u54_4, "u54_4"), (.rebootCold, "cold"), (.rebootWarm, "warm")]

/-- `string_to_scalar`: the first token that the value begins with. -/
def stringToScalar (value : Bytes) : ConfigToken :=
  ((tokens.find? fun token => (chars token.2).isPrefixOf value).map Prod.fst).getD .unknown

/-- `isspace` -/
def isSpace (c : BitVec 8) : Bool := c = 0x20 || (0x09 ≤ c && c ≤ 0x0D)

/-- The value of a digit. -/
def digitOf (base : ℕ) (c : BitVec 8) : Option ℕ :=
  let digit :=
    if 0x30 ≤ c && c ≤ 0x39 then c.toNat - 0x30
    else if 0x41 ≤ c && c ≤ 0x5A then c.toNat - 0x41 + 10
    else if 0x61 ≤ c && c ≤ 0x7A then c.toNat - 0x61 + 10
    else base
  if digit < base then some digit else none

/-- The number that the digits at the beginning spell. -/
def digitsValue (base : ℕ) : ℕ → Bytes → ℕ
  | value, [] => value
  | value, c :: s =>
    match digitOf base c with
    | some digit => digitsValue base (value * base + digit) s
    | none => value

/-- `strtoul(s, NULL, 0)` -/
def strtoul (s : Bytes) : Word :=
  let s := s.dropWhile isSpace
  let negative := s.head? = some 0x2D
  let s := if negative ∨ s.head? = some 0x2B then s.drop 1 else s
  let hex := (s.take 2 = chars "0x" ∨ s.take 2 = chars "0X") ∧ (s.drop 2).head?.any fun c =>
    (digitOf 16 c).isSome
  let value :=
    if hex then digitsValue 16 0 (s.drop 2)
    else digitsValue (if s.head? = some 0x30 then 8 else 10) 0 s
  if value ≥ 2 ^ 64 then BitVec.allOnes 64
  else if negative then -BitVec.ofNat 64 value
  else BitVec.ofNat 64 value

/-- Whether a flag is set by its value. -/
def isTrue (value : Bytes) : Bool :=
  let lower (c : BitVec 8) : BitVec 8 := if 0x41 ≤ c && c ≤ 0x5A then c + 0x20 else c
  (value.take 4).map lower = chars "true" || (strtoul value).setWidth 8 ≠ 0

/-! ### The state of the parser -/

/-- `enum ParserState` -/
inductive ParserState
  | idle | stream | doc | mapping | setName | hartEntryPoints
  | hartEntryPointsOf (u : U54)
  | payloadMappings | newPayload | newPayloadExecAddr | newPayloadOwnerHart | newPayloadPayloadName
  | newPayloadPrivMode | newPayloadSecondaryHart | newPayloadSkipOpensbi | newPayloadAllowReboot
  | newPayloadSkipAutoboot | newPayloadAncilliaryData
  deriving DecidableEq

/-- What the parser took from the events, the newest first: the key of a payload, the start of a mapping
in it, and the harts in it. -/
inductive ConfigRecord
  | payload | mapping
  | owner (u : U54)
  | secondary (u : U54)

/-- How the parser ends early: as another tool does, or by the access to an entry that a table does not
have. -/
inductive ConfigHalt
  | fails (reason : ToolError)
  | outOfRange
  deriving DecidableEq

/-- The static data of the parser, what it sets in `bootImage`, and the tables of the generator.  No code
reads `history`. -/
structure ConfigParser where
  state : ParserState
  overrideSetNameFlag : Bool
  setName : Bytes
  entryPoint : U54 → Word
  privMode : U54 → BitVec 8
  flags : U54 → BitVec 8
  name : U54 → Bytes
  baseName : Bytes
  payloadName : Bytes
  baseExecAddr : Word
  baseOwner : ℕ
  baseSecondary : Fin 3 → ℕ
  basePrivMode : BitVec 8
  secondaryIdx : ℕ
  ancilliaryDataPresent : Bool
  skipOpensbi : Bool
  skipAutobootFlag : Bool
  allowColdreboot : Bool
  allowWarmreboot : Bool
  ancilliaryName : Bytes
  generator : Generator
  history : List ConfigRecord

/-- The files of the payloads, as `elf_parser` and `blob_handler` find them by their names, and those of
ancilliary data. -/
structure ConfigFiles where
  payload : Bytes → PayloadFile
  ancilliary : Bytes → Option Bytes

/-- The modes -/
def privU : BitVec 8 := 0
def privS : BitVec 8 := 1
def privM : BitVec 8 := 3
def privIllegal : BitVec 8 := 0xFF

/-- `strncpy` into a name that has room for 256 characters. -/
def nameOf (value : Bytes) : Bytes := value.take (bootImageMaxNameLen - 2)

/-- `concatenate`, for such a name. -/
def concatenate (existing new : Bytes) : Bytes := (existing ++ new).take (bootImageMaxNameLen - 2)

/-- `bootImage.hart[index-1]` -/
def hartAt (index : ℕ) : Except ConfigHalt U54 :=
  match index with
  | 1 => .ok .u54_1
  | 2 => .ok .u54_2
  | 3 => .ok .u54_3
  | 4 => .ok .u54_4
  | _ => .error .outOfRange

namespace ConfigParser

/-- The parser at the start of `yaml_parser`. -/
def start : ConfigParser where
  state := .idle
  overrideSetNameFlag := false
  setName := chars "PolarFireSOC-HSS::"
  entryPoint := fun _ => 0
  privMode := fun _ => privIllegal
  flags := fun _ => 0
  name := fun _ => []
  baseName := []
  payloadName := []
  baseExecAddr := 0
  baseOwner := 0
  baseSecondary := fun _ => 0
  basePrivMode := privIllegal
  secondaryIdx := 0
  ancilliaryDataPresent := false
  skipOpensbi := false
  skipAutobootFlag := false
  allowColdreboot := false
  allowWarmreboot := false
  ancilliaryName := []
  generator := .start
  history := []

variable (p : ConfigParser)

/-- `Do_State_Transition` -/
def goto (state : ParserState) : ConfigParser := { p with state }

def record (r : ConfigRecord) : ConfigParser := { p with history := r :: p.history }

/-- `report_illegal_event` and `report_illegal_token` before the exit. -/
def illegal : Except ConfigHalt ConfigParser := .error (.fails .exits)

/-- `assert(0==1)` -/
def never : Except ConfigHalt ConfigParser := .error (.fails .assertion)

/-! ### The top level -/

def handleIdle : YamlEvent → Except ConfigHalt ConfigParser
  | .streamStart => .ok (p.goto .stream)
  | _ => illegal

def handleStream : YamlEvent → Except ConfigHalt ConfigParser
  | .documentStart => .ok (p.goto .doc)
  | .documentEnd => .ok (p.goto .idle)
  | _ => illegal

def handleDoc : YamlEvent → Except ConfigHalt ConfigParser
  | .mappingStart => .ok (p.goto .mapping)
  | .documentEnd => .ok (p.goto .stream)
  | _ => illegal

def handleMapping : YamlEvent → Except ConfigHalt ConfigParser
  | .mappingEnd => .ok (p.goto .doc)
  | .scalar value =>
    match stringToScalar value with
    | .setName => .ok (p.goto .setName)
    | .hartEntryPoints => .ok (p.goto .hartEntryPoints)
    | .payloads => .ok (p.goto .payloadMappings)
    | _ => illegal
  | _ => illegal

def handleSetName : YamlEvent → Except ConfigHalt ConfigParser
  | .mappingStart | .mappingEnd => never
  | .scalar value =>
    .ok { p with overrideSetNameFlag := true, setName := nameOf value, state := .mapping }
  | _ => illegal

/-- A state in which a value is taken: the start of a mapping changes nothing, and its end leads to the
top level, whatever the parser was in. -/
def onValue (take : Bytes → Except ConfigHalt ConfigParser) : YamlEvent → Except ConfigHalt ConfigParser
  | .mappingStart => .ok p
  | .mappingEnd => .ok (p.goto .mapping)
  | .scalar value => take value
  | _ => illegal

def handleHartEntryPoints : YamlEvent → Except ConfigHalt ConfigParser :=
  p.onValue fun value =>
    match stringToScalar value with
    | .hart u => .ok (p.goto (.hartEntryPointsOf u))
    | _ => illegal

/-- `Handle_STATE_HART_ENTRY_POINTS_U54_1` to `Handle_STATE_HART_ENTRY_POINTS_U54_4` -/
def handleHartEntryPointsOf (u : U54) : YamlEvent → Except ConfigHalt ConfigParser :=
  p.onValue fun value => .ok { p with
    entryPoint := Function.update p.entryPoint u (strtoul value)
    state := .hartEntryPoints }

/-! ### The payloads -/

def handlePayloadMappings : YamlEvent → Except ConfigHalt ConfigParser :=
  p.onValue fun value => .ok ({ p with
    baseName := nameOf value
    payloadName := []
    baseExecAddr := 0
    baseOwner := 0
    secondaryIdx := 0
    baseSecondary := fun _ => 0
    basePrivMode := privM
    ancilliaryDataPresent := false
    skipOpensbi := false
    skipAutobootFlag := false
    allowColdreboot := false
    allowWarmreboot := false
    state := .newPayload }.record .payload)

/-- The name that is shown for the payload. -/
def shownName : Bytes := if p.payloadName ≠ [] then p.payloadName else p.baseName

/-- A turn of the loop that sets the mode of the secondary harts: none of them may have one. -/
def setSecondaryMode (privMode : U54 → BitVec 8) (secondary : ℕ) : Except ConfigHalt (U54 → BitVec 8) :=
  if secondary ≠ 0 then do
    let u ← hartAt secondary
    if privMode u = privIllegal then return Function.update privMode u p.basePrivMode
    else throw (.fails .exits)
  else return privMode

/-- The flags of `populate_boot_flags` -/
def bootFlags : BitVec 8 :=
  (if p.ancilliaryDataPresent then bootFlagAncilliaryData.setWidth 8 else 0) |||
    (if p.skipOpensbi then bootFlagSkipOpensbi else 0) |||
    (if p.allowColdreboot then bootFlagAllowColdReboot ||| bootFlagAllowWarmReboot
      else if p.allowWarmreboot then bootFlagAllowWarmReboot else 0) |||
    (if p.skipAutobootFlag then bootFlagSkipAutoboot else 0)

/-- A turn of the loop of `populate_boot_flags` -/
def setSecondaryFlags (flags : U54 → BitVec 8) (secondary : ℕ) : Except ConfigHalt (U54 → BitVec 8) :=
  if secondary ≠ 0 then do
    let u ← hartAt secondary
    return Function.update flags u p.bootFlags
  else return flags

/-- `base_secondary`, in order -/
def secondaries : List ℕ := List.ofFn p.baseSecondary

/-- `assert(base_owner)` -/
def assertOwner : Except ConfigHalt Unit := if p.baseOwner ≠ 0 then .ok () else .error (.fails .assertion)

/-- The name of a hart, with that of a further payload. -/
def addName (name : Bytes) : Bytes :=
  concatenate (if name ≠ [] then concatenate name (chars "+") else name) p.shownName

/-- The end of a payload: its mode, its name, its chunks and its flags. -/
def endPayload (files : ConfigFiles) : Except ConfigHalt ConfigParser := do
  let setName := if p.overrideSetNameFlag then p.setName else concatenate p.setName p.shownName
  let owner ← hartAt p.baseOwner
  let privMode ← p.secondaries.foldlM p.setSecondaryMode
    (Function.update p.privMode owner p.basePrivMode)
  p.assertOwner
  let payload : Payload :=
    { owner, file := files.payload p.baseName, execAddr := p.baseExecAddr
      ancilliary :=
        if p.ancilliaryDataPresent then some (files.ancilliary p.ancilliaryName) else none }
  let generator ← (p.generator.addPayload payload).mapError .fails
  let flags ← p.secondaries.foldlM p.setSecondaryFlags (Function.update p.flags owner p.bootFlags)
  return { p with
    setName, privMode, generator, flags
    name := Function.update p.name owner (p.addName (p.name owner))
    state := .payloadMappings }

def handleNewPayload (files : ConfigFiles) : YamlEvent → Except ConfigHalt ConfigParser
  | .mappingStart => .ok ({ p with baseOwner := 0 }.record .mapping)
  | .mappingEnd => p.endPayload files
  | .scalar value =>
    match stringToScalar value with
    | .payloadExecAddr => .ok (p.goto .newPayloadExecAddr)
    | .payloadOwnerHart => .ok (p.goto .newPayloadOwnerHart)
    | .payloadSecondaryHart => .ok (p.goto .newPayloadSecondaryHart)
    | .payloadPayloadName => .ok (p.goto .newPayloadPayloadName)
    | .payloadPrivMode => .ok (p.goto .newPayloadPrivMode)
    | .payloadSkipOpensbi => .ok (p.goto .newPayloadSkipOpensbi)
    | .payloadSkipAutoboot => .ok (p.goto .newPayloadSkipAutoboot)
    | .payloadAllowReboot => .ok (p.goto .newPayloadAllowReboot)
    | .payloadAncilliaryData =>
      .ok { p with ancilliaryDataPresent := true, state := .newPayloadAncilliaryData }
    | _ => illegal
  | _ => illegal

/-! ### The items of a payload -/

def handleNewPayloadExecAddr : YamlEvent → Except ConfigHalt ConfigParser :=
  p.onValue fun value => .ok { p with baseExecAddr := strtoul value, state := .newPayload }

def handleNewPayloadOwnerHart : YamlEvent → Except ConfigHalt ConfigParser :=
  p.onValue fun value =>
    match stringToScalar value with
    | .hart u => .ok ({ p with baseOwner := u.num, state := .newPayload }.record (.owner u))
    | _ => illegal

/-- `base_secondary[secondary_idx] = …` -/
def storeSecondary (u : U54) : Except ConfigHalt ConfigParser :=
  if inside : p.secondaryIdx < 3 then
    .ok { p with
      baseSecondary := Function.update p.baseSecondary ⟨p.secondaryIdx, inside⟩ u.num
      secondaryIdx := p.secondaryIdx + 1 }
  else .error .outOfRange

def handleNewPayloadSecondaryHart : YamlEvent → Except ConfigHalt ConfigParser :=
  p.onValue fun value =>
    match stringToScalar value with
    | .hart u => do
      let p ← p.storeSecondary u
      return (p.goto .newPayload).record (.secondary u)
    | _ => illegal

def handleNewPayloadPayloadName : YamlEvent → Except ConfigHalt ConfigParser
  | .mappingStart | .mappingEnd => never
  | .scalar value =>
    .ok { p with payloadName := nameOf value, overrideSetNameFlag := true, state := .newPayload }
  | _ => illegal

def handleNewPayloadPrivMode : YamlEvent → Except ConfigHalt ConfigParser :=
  p.onValue fun value =>
    match stringToScalar value with
    | .privModeM => .ok { p with basePrivMode := privM, state := .newPayload }
    | .privModeS => .ok { p with basePrivMode := privS, state := .newPayload }
    | .privModeU => .ok { p with basePrivMode := privU, state := .newPayload }
    | _ => illegal

def handleNewPayloadSkipOpensbi : YamlEvent → Except ConfigHalt ConfigParser
  | .mappingStart => .ok p
  | .mappingEnd => never
  | .scalar value => .ok { p with skipOpensbi := p.skipOpensbi || isTrue value, state := .newPayload }
  | _ => illegal

def handleNewPayloadAllowReboot : YamlEvent → Except ConfigHalt ConfigParser :=
  p.onValue fun value =>
    match stringToScalar value with
    | .rebootWarm => .ok { p with allowWarmreboot := true, state := .newPayload }
    | .rebootCold => .ok { p with allowColdreboot := true, state := .newPayload }
    | _ => illegal

def handleNewPayloadSkipAutoboot : YamlEvent → Except ConfigHalt ConfigParser :=
  p.onValue fun value =>
    .ok { p with skipAutobootFlag := p.skipAutobootFlag || isTrue value, state := .newPayload }

def handleNewPayloadAncilliaryData : YamlEvent → Except ConfigHalt ConfigParser :=
  p.onValue fun value => .ok { p with ancilliaryName := nameOf value, state := .newPayload }

/-! ### The machine -/

/-- `stateHandler[parser_state].handler` -/
def handle (files : ConfigFiles) : YamlEvent → Except ConfigHalt ConfigParser :=
  match p.state with
  | .idle => p.handleIdle
  | .stream => p.handleStream
  | .doc => p.handleDoc
  | .mapping => p.handleMapping
  | .setName => p.handleSetName
  | .hartEntryPoints => p.handleHartEntryPoints
  | .hartEntryPointsOf u => p.handleHartEntryPointsOf u
  | .payloadMappings => p.handlePayloadMappings
  | .newPayload => p.handleNewPayload files
  | .newPayloadExecAddr => p.handleNewPayloadExecAddr
  | .newPayloadOwnerHart => p.handleNewPayloadOwnerHart
  | .newPayloadPayloadName => p.handleNewPayloadPayloadName
  | .newPayloadPrivMode => p.handleNewPayloadPrivMode
  | .newPayloadSecondaryHart => p.handleNewPayloadSecondaryHart
  | .newPayloadSkipOpensbi => p.handleNewPayloadSkipOpensbi
  | .newPayloadAllowReboot => p.handleNewPayloadAllowReboot
  | .newPayloadSkipAutoboot => p.handleNewPayloadSkipAutoboot
  | .newPayloadAncilliaryData => p.handleNewPayloadAncilliaryData

/-- The loop of `yaml_parser`; `yaml_parser_parse` fails where the events end early. -/
def yamlParser (files : ConfigFiles) : List YamlEvent → ConfigParser → Except ConfigHalt ConfigParser
  | [], _ => illegal
  | .streamEnd :: _, p => .ok p
  | .noEvent :: events, p => yamlParser files events p
  | event :: events, p => p.handle files event >>= yamlParser files events

end ConfigParser

end Hss
