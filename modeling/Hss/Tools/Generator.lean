import Hss.Tools.Payload

/-! The payloads of the generator: the sections of an ELF file and the bytes of any other one, the tables
that they are added to, and what the header says of the chunks of each hart. -/

namespace Hss

open Outcome

/-! ### Payloads -/

/-- `GElf_Shdr`, with whether the name is found and the data that there is of it. -/
structure ElfSection where
  addr : Word
  size : Word
  nobits : Bool
  named : Bool
  data : Option Bytes

/-- `GElf_Phdr`, with whether its type is `PT_LOAD`. -/
structure ElfSegment where
  ptLoad : Bool
  vaddr : Word
  memsz : Word

/-- An ELF file: whether its headers can be read, its machine is RISC-V and its type `ET_EXEC`, and its
segments and sections. -/
structure ElfFile where
  readable : Bool
  riscv : Bool
  executable : Bool
  segments : List ElfSegment
  sections : List ElfSection

/-- A file by its name: what cannot be opened, an ELF file, or another one.  The contents of the latter
are there if it can be opened for writing, too. -/
inductive PayloadFile
  | missing
  | elf (file : ElfFile)
  | blob (contents : Option Bytes)

/-- A payload of the configuration.  Ancilliary data that are present are in a file of their own. -/
structure Payload where
  owner : U54
  file : PayloadFile
  execAddr : Word
  ancilliary : Option (Option Bytes)

/-! ### Tables -/

/-- What the header says of the chunks of a hart. -/
structure HartChunks where
  numChunks : Word
  firstChunk : Word
  lastChunk : Word
  deriving DecidableEq

/-- The state of the generator: the two tables, the static counters of `elf_parser.c` and of
`blob_handler.c`, and the part of the header that is about chunks. -/
structure Generator where
  chunkTable : List PayloadChunk
  ziChunkTable : List ZiChunkDesc
  elfNumChunks : Word
  blobNumChunks : Word
  hart : U54 → HartChunks

namespace Generator

/-- The generator before the first payload. -/
def start : Generator := ⟨[], [], 0, 0, fun _ => ⟨0, 0, 0⟩⟩

/-- Whether `realloc` can make a table of so many bytes. -/
def canHold (bytes : ℕ) : Prop := bytes < offLimit

instance (bytes : ℕ) : Decidable (canHold bytes) := inferInstanceAs (Decidable (_ < _))

/-- `numChunks` of the generator, which both adders return. -/
def numChunks (g : Generator) : Word := BitVec.ofNat 64 g.chunkTable.length

/-- The sizes of `struct chunkTableEntry` and of `struct ziChunkTableEntry`. -/
def chunkTableEntrySize : ℕ := 48
def ziChunkTableEntrySize : ℕ := 24

/-- `generate_add_chunk`, which leaves out chunks without bytes. -/
def addChunk (g : Generator) (owner : BitVec 32) (execAddr : Word) (data : Bytes) :
    Except ToolError Generator :=
  if some : data ≠ [] then
    if fits : data.length < 2 ^ 64 ∧ canHold ((g.chunkTable.length + 1) * chunkTableEntrySize) then
      .ok { g with chunkTable :=
        g.chunkTable ++ [⟨owner, execAddr, crc32Calculate data, data, some, fits.1⟩] }
    else .error .exits
  else .ok g

/-- `generate_add_ziChunk` -/
def addZiChunk (g : Generator) (ziChunk : ZiChunkDesc) : Except ToolError Generator :=
  if canHold ((g.ziChunkTable.length + 1) * ziChunkTableEntrySize) then
    .ok { g with ziChunkTable := g.ziChunkTable ++ [ziChunk] }
  else .error .exits

def setHart (g : Generator) (owner : U54) (chunks : HartChunks) : Generator :=
  { g with hart := Function.update g.hart owner chunks }

/-! ### ELF files -/

end Generator

/-- `is_section_in_segment` -/
def isSectionInSegment (s : ElfSection) (segment : ElfSegment) : Bool :=
  s.addr ≥ segment.vaddr && s.addr + s.size ≤ segment.vaddr + segment.memsz

namespace Generator

/-- A turn of the loop of `process_sections_in_segment`. -/
def processSection (owner : U54) (segment : ElfSegment) (g : Generator) (s : ElfSection) :
    Except ToolError Generator :=
  if s.named then
    if isSectionInSegment s segment && segment.ptLoad then
      if s.nobits then g.addZiChunk ⟨BitVec.ofNat 32 owner.num, s.addr, s.size⟩
      else
        match s.data with
        | none => .ok g
        | some data =>
          if s.size = BitVec.ofNat 64 data.length then do
            let g ← g.addChunk (BitVec.ofNat 32 owner.num) s.addr data
            return { g with elfNumChunks := g.numChunks }
          else .error .assertion
    else .ok g
  else .error .exits

/-- `parse_elf_program_headers` -/
def parseElfProgramHeaders (owner : U54) (file : ElfFile) (g : Generator) : Except ToolError Generator :=
  if file.readable && file.riscv && file.executable then
    file.segments.foldlM (fun g segment => file.sections.foldlM (processSection owner segment) g) g
  else .error .exits

/-- `if (!bootImage.hart[owner-1].firstChunk)` -/
def setFirstChunk (g : Generator) (owner : U54) (numChunks : Word) : Generator :=
  if (g.hart owner).firstChunk = 0 then
    g.setHart owner { g.hart owner with firstChunk := numChunks }
  else g

/-- `elf_parser`: whether the file is an ELF file. -/
def elfParser (payload : Payload) (g : Generator) : Except ToolError (Bool × Generator) :=
  let owner := payload.owner
  let g := g.setFirstChunk owner g.elfNumChunks
  match payload.file with
  | .missing => .error .exits
  | .blob _ => .ok (false, g)
  | .elf file => do
    let g ← parseElfProgramHeaders owner file g
    let lastChunk := g.elfNumChunks - 1
    return (true, g.setHart owner { g.hart owner with
      lastChunk := lastChunk
      numChunks := lastChunk - (g.hart owner).firstChunk + 1 })

/-! ### Other files -/

/-- A part of `blob_handler`: the file's bytes as one chunk, and the header. -/
def blobPart (owner : U54) (flag : BitVec 32) (execAddr : Word) (contents : Option Bytes)
    (g : Generator) : Except ToolError Generator :=
  match contents with
  | none => .error .exits
  | some data => do
    let g ← g.addChunk (BitVec.ofNat 32 owner.num ||| flag) execAddr data
    let g := { g with blobNumChunks := g.numChunks }
    return g.setHart owner { g.hart owner with
      lastChunk := g.blobNumChunks - 1
      numChunks := (g.hart owner).numChunks + 1 }

/-- `blob_handler`: the ancilliary data stand after the bytes of the file. -/
def blobHandler (payload : Payload) (contents : Option Bytes) (g : Generator) :
    Except ToolError Generator := do
  let owner := payload.owner
  let g := g.setFirstChunk owner g.blobNumChunks
  let g ← blobPart owner 0 payload.execAddr contents g
  match payload.ancilliary with
  | none => return g
  | some data =>
    let size := BitVec.ofNat 64 ((contents.getD []).length)
    blobPart owner bootFlagAncilliaryData (payload.execAddr + size) data g

/-- A payload: what is no ELF file is taken as it is. -/
def addPayload (g : Generator) (payload : Payload) : Except ToolError Generator := do
  let (isElf, g) ← elfParser payload g
  if isElf then return g
  else
    match payload.file with
    | .blob contents => blobHandler payload contents g
    | _ => return g

/-- The payloads of a configuration. -/
def addPayloads (payloads : List Payload) : Except ToolError Generator :=
  payloads.foldlM addPayload start

end Generator

/-! ### The sections of a file -/

/-- The section has data, and some that are not empty. -/
def ElfSection.hasData (s : ElfSection) : Bool := !s.nobits && s.data.isSome
def ElfSection.isChunk (s : ElfSection) : Bool := !s.nobits && s.data.any (· ≠ [])

/-- The zero-init chunk of a section -/
def ElfSection.ziChunk (owner : U54) (s : ElfSection) : ZiChunkDesc :=
  ⟨BitVec.ofNat 32 owner.num, s.addr, s.size⟩

/-- The sections in a segment that is loaded. -/
def loadedIn (segment : ElfSegment) (sections : List ElfSection) : List ElfSection :=
  sections.filter fun s => isSectionInSegment s segment && segment.ptLoad

/-- The sections in the segments that are loaded, in the order in which they are processed. -/
def ElfFile.loaded (file : ElfFile) : List ElfSection :=
  file.segments.flatMap fun segment => loadedIn segment file.sections

/-- The zero-init chunks of a payload: one for each section without bits, whatever its size. -/
def Payload.ziChunks (payload : Payload) : List ZiChunkDesc :=
  match payload.file with
  | .elf file => (file.loaded.filter ElfSection.nobits).map (ElfSection.ziChunk payload.owner)
  | _ => []

/-! ### What a payload adds -/

namespace Generator

variable {g g' g'' : Generator} {owner : U54}

/-- What the sections of a file add: chunks of the owner, and zero-init chunks. -/
structure Added (owner : U54) (sections : List ElfSection) (g g' : Generator) : Prop where
  chunks : ∃ new, g'.chunkTable = g.chunkTable ++ new ∧
    (∀ c ∈ new, c.owner = BitVec.ofNat 32 owner.num) ∧
    new.length = (sections.filter ElfSection.isChunk).length
  ziChunks : g'.ziChunkTable = g.ziChunkTable ++
    (sections.filter ElfSection.nobits).map (ElfSection.ziChunk owner)
  elfNumChunks : g'.elfNumChunks =
    if sections.any ElfSection.hasData then g'.numChunks else g.elfNumChunks
  blobNumChunks : g'.blobNumChunks = g.blobNumChunks
  hart : g'.hart = g.hart

theorem Added.nil (owner : U54) (g : Generator) : Added owner [] g g :=
  ⟨⟨[], (List.append_nil _).symm, fun _ mem => absurd mem List.not_mem_nil, rfl⟩,
    (List.append_nil _).symm, rfl, rfl, rfl⟩

theorem hasData_of_isChunk {s : ElfSection} (chunk : s.isChunk = true) : s.hasData = true := by
  rw [ElfSection.isChunk, Bool.and_eq_true] at chunk
  rw [ElfSection.hasData, chunk.1, Bool.true_and]
  cases data : s.data with
  | none => simp [data] at chunk
  | some bytes => rfl

theorem Added.trans {first second : List ElfSection} (before : Added owner first g g')
    (after : Added owner second g' g'') : Added owner (first ++ second) g g'' := by
  obtain ⟨new, table, owned, length⟩ := before.chunks
  obtain ⟨new', table', owned', length'⟩ := after.chunks
  refine ⟨⟨new ++ new', ?_, ?_, ?_⟩, ?_, ?_, ?_, ?_⟩
  · rw [table', table, List.append_assoc]
  · exact fun c mem => (List.mem_append.mp mem).elim (owned c) (owned' c)
  · rw [List.filter_append, List.length_append, List.length_append, length, length']
  · rw [after.ziChunks, before.ziChunks, List.filter_append, List.map_append, List.append_assoc]
  · rw [after.elfNumChunks, before.elfNumChunks, List.any_append]
    by_cases more : second.any ElfSection.hasData = true
    · rw [more, Bool.or_true]
      rfl
    · -- without data, the second sections add no chunk
      have none : new' = [] := by
        rw [← List.length_eq_zero_iff, length', List.length_eq_zero_iff, List.filter_eq_nil_iff]
        exact fun s mem chunk => more (List.any_eq_true.mpr ⟨s, mem, hasData_of_isChunk chunk⟩)
      have same : g''.numChunks = g'.numChunks := by
        rw [numChunks, table', none, List.append_nil, numChunks]
      rw [Bool.eq_false_of_not_eq_true more, Bool.or_false, same]
      rfl
  · rw [after.blobNumChunks, before.blobNumChunks]
  · rw [after.hart, before.hart]

/-- A chunk that is added, if it has bytes. -/
theorem addChunk_ok {flags : BitVec 32} {execAddr : Word} {data : Bytes}
    (added : g.addChunk flags execAddr data = .ok g') : ∃ new, g' = { g with
      chunkTable := g.chunkTable ++ new } ∧ (∀ c ∈ new, c.owner = flags) ∧
      new.length = if data = [] then 0 else 1 := by
  rw [addChunk] at added
  by_cases some : data ≠ []
  · rw [dif_pos some] at added
    split at added
    · cases added
      refine ⟨_, rfl, fun c mem => ?_, by rw [if_neg some]; rfl⟩
      rw [List.mem_singleton.mp mem]
    · cases added
  · rw [dif_neg some] at added
    cases added
    refine ⟨[], ?_, fun c mem => absurd mem List.not_mem_nil, by rw [if_pos (not_not.mp some)]; rfl⟩
    rw [List.append_nil]

/-- A section of a segment that is loaded adds what it is. -/
theorem processSection_added {segment : ElfSegment} {s : ElfSection}
    (processed : processSection owner segment g s = .ok g') :
    Added owner (loadedIn segment [s]) g g' := by
  rw [processSection] at processed
  split at processed
  · rw [loadedIn, List.filter_cons, List.filter_nil]
    by_cases loaded : (isSectionInSegment s segment && segment.ptLoad) = true
    · rw [if_pos loaded] at processed ⊢
      by_cases nobits : s.nobits = true
      · rw [if_pos nobits, addZiChunk] at processed
        split at processed
        · cases processed
          refine ⟨⟨[], (List.append_nil _).symm, fun _ mem => absurd mem List.not_mem_nil, ?_⟩, ?_, ?_,
            rfl, rfl⟩
          · simp [ElfSection.isChunk, nobits]
          · simp [nobits, ElfSection.ziChunk]
          · simp [ElfSection.hasData, nobits]
        · cases processed
      · rw [if_neg nobits] at processed
        cases data : s.data with
        | none =>
          rw [data] at processed
          cases processed
          refine ⟨⟨[], (List.append_nil _).symm, fun _ mem => absurd mem List.not_mem_nil, ?_⟩, ?_, ?_,
            rfl, rfl⟩
          · simp [ElfSection.isChunk, data]
          · simp [nobits]
          · simp [ElfSection.hasData, data]
        | some bytes =>
          rw [data] at processed
          dsimp only at processed
          split at processed
          · obtain ⟨u, added, processed⟩ := bind_eq_ok.mp processed
            cases processed
            obtain ⟨new, rfl, owned, length⟩ := addChunk_ok added
            refine ⟨⟨new, rfl, owned, ?_⟩, ?_, ?_, rfl, rfl⟩
            · rw [length]
              by_cases empty : bytes = []
              · simp [ElfSection.isChunk, data, empty]
              · simp [ElfSection.isChunk, data, empty, nobits]
            · simp [nobits]
            · simp [ElfSection.hasData, data, nobits, numChunks]
          · cases processed
    · rw [if_neg loaded] at processed ⊢
      cases processed
      exact .nil owner _
  · cases processed

theorem processSections_added {segment : ElfSegment} {sections : List ElfSection}
    (processed : sections.foldlM (processSection owner segment) g = .ok g') :
    Added owner (loadedIn segment sections) g g' := by
  induction sections generalizing g with
  | nil =>
    cases processed
    exact .nil owner _
  | cons s sections ih =>
    rw [List.foldlM_cons] at processed
    obtain ⟨u, first, processed⟩ := bind_eq_ok.mp processed
    have split : loadedIn segment (s :: sections) = loadedIn segment [s] ++ loadedIn segment sections := by
      rw [loadedIn, loadedIn, loadedIn, ← List.filter_append]
      rfl
    rw [split]
    exact (processSection_added first).trans (ih processed)

theorem parseElfProgramHeaders_added {file : ElfFile}
    (parsed : parseElfProgramHeaders owner file g = .ok g') : Added owner file.loaded g g' := by
  rw [parseElfProgramHeaders] at parsed
  split at parsed
  · rw [ElfFile.loaded]
    generalize file.segments = segments at parsed ⊢
    induction segments generalizing g with
    | nil =>
      cases parsed
      exact .nil owner _
    | cons segment segments ih =>
      rw [List.foldlM_cons] at parsed
      obtain ⟨u, first, parsed⟩ := bind_eq_ok.mp parsed
      rw [List.flatMap_cons]
      exact (processSections_added first).trans (ih parsed)
  · cases parsed

variable {payload : Payload}

theorem addPayload_missing (isMissing : payload.file = .missing) :
    addPayload g payload = .error .exits := by
  simp only [addPayload, elfParser, isMissing, error_bind]

/-- An ELF file: its sections, and then the header. -/
theorem addPayload_elf {file : ElfFile} (isElf : payload.file = .elf file)
    (added : addPayload g payload = .ok g') :
    ∃ u, Added payload.owner file.loaded (g.setFirstChunk payload.owner g.elfNumChunks) u ∧
      g' = u.setHart payload.owner { u.hart payload.owner with
        lastChunk := u.elfNumChunks - 1
        numChunks := u.elfNumChunks - 1 - (u.hart payload.owner).firstChunk + 1 } := by
  rw [addPayload, elfParser] at added
  simp only [isElf] at added
  obtain ⟨⟨isElf', v⟩, parsed, added⟩ := bind_eq_ok.mp added
  obtain ⟨u, sections, done⟩ := bind_eq_ok.mp parsed
  cases done
  cases added
  exact ⟨u, parseElfProgramHeaders_added sections, rfl⟩

/-- Another file: its bytes, and then the ancilliary data, if there are any. -/
theorem addPayload_blob {contents : Option Bytes} (isBlob : payload.file = .blob contents)
    (added : addPayload g payload = .ok g') :
    ∃ u, blobPart payload.owner 0 payload.execAddr contents
        ((g.setFirstChunk payload.owner g.elfNumChunks).setFirstChunk payload.owner g.blobNumChunks) =
          .ok u ∧
      (payload.ancilliary = none ∧ g' = u ∨ ∃ data execAddr, payload.ancilliary = some data ∧
        blobPart payload.owner bootFlagAncilliaryData execAddr data u = .ok g') := by
  have counter : (g.setFirstChunk payload.owner g.elfNumChunks).blobNumChunks = g.blobNumChunks := by
    rw [setFirstChunk]
    split <;> rfl
  rw [addPayload, elfParser] at added
  simp only [isBlob, ok_bind, Bool.false_eq_true, if_false, blobHandler, counter] at added
  obtain ⟨u, first, added⟩ := bind_eq_ok.mp added
  refine ⟨u, first, ?_⟩
  cases present : payload.ancilliary with
  | none =>
    rw [present] at added
    cases added
    exact .inl ⟨rfl, rfl⟩
  | some data =>
    rw [present] at added
    exact .inr ⟨data, _, rfl, added⟩

/-- A part of a payload that is no ELF file: one chunk more, if it has bytes. -/
theorem blobPart_ok {flag : BitVec 32} {execAddr : Word} {contents : Option Bytes}
    (done : blobPart owner flag execAddr contents g = .ok g') : ∃ data new, contents = some data ∧
      g'.chunkTable = g.chunkTable ++ new ∧
      (∀ c ∈ new, c.owner = BitVec.ofNat 32 owner.num ||| flag) ∧
      new.length = (if data = [] then 0 else 1) ∧
      g'.ziChunkTable = g.ziChunkTable ∧
      g'.hart = Function.update g.hart owner
        ⟨(g.hart owner).numChunks + 1, (g.hart owner).firstChunk, g'.numChunks - 1⟩ := by
  cases contents with
  | none => cases done
  | some data =>
    rw [blobPart] at done
    obtain ⟨u, added, done⟩ := bind_eq_ok.mp done
    cases done
    obtain ⟨new, rfl, owned, length⟩ := addChunk_ok added
    exact ⟨data, new, rfl, rfl, owned, length, rfl, rfl⟩

theorem setFirstChunk_ziChunkTable (g : Generator) (owner : U54) (count : Word) :
    (g.setFirstChunk owner count).ziChunkTable = g.ziChunkTable := by
  rw [setFirstChunk]
  split <;> rfl

/-- The zero-init table has a chunk for each section without bits. -/
theorem addPayload_ziChunkTable (added : addPayload g payload = .ok g') :
    g'.ziChunkTable = g.ziChunkTable ++ payload.ziChunks := by
  cases kind : payload.file with
  | missing =>
    rw [addPayload_missing kind] at added
    cases added
  | elf file =>
    obtain ⟨u, sections, rfl⟩ := addPayload_elf kind added
    rw [Payload.ziChunks, kind]
    show u.ziChunkTable = _
    rw [sections.ziChunks, setFirstChunk_ziChunkTable]
  | blob contents =>
    rw [Payload.ziChunks, kind, List.append_nil]
    obtain ⟨u, first, rest⟩ := addPayload_blob kind added
    obtain ⟨-, -, -, -, -, -, table, -⟩ := blobPart_ok first
    rw [setFirstChunk_ziChunkTable, setFirstChunk_ziChunkTable] at table
    rcases rest with ⟨-, rfl⟩ | ⟨data, execAddr, -, second⟩
    · exact table
    · obtain ⟨-, -, -, -, -, -, table', -⟩ := blobPart_ok second
      rw [table', table]

theorem foldlM_ziChunkTable {payloads : List Payload} (added : payloads.foldlM addPayload g = .ok g') :
    g'.ziChunkTable = g.ziChunkTable ++ payloads.flatMap Payload.ziChunks := by
  induction payloads generalizing g with
  | nil =>
    cases added
    exact (List.append_nil _).symm
  | cons payload payloads ih =>
    rw [List.foldlM_cons] at added
    obtain ⟨u, first, added⟩ := bind_eq_ok.mp added
    rw [ih added, addPayload_ziChunkTable first, List.flatMap_cons, List.append_assoc]

/-- The zero-init table of a configuration. -/
theorem addPayloads_ziChunkTable {payloads : List Payload} (added : addPayloads payloads = .ok g) :
    g.ziChunkTable = payloads.flatMap Payload.ziChunks := by
  rw [foldlM_ziChunkTable added]
  exact List.nil_append _

end Generator

end Hss
