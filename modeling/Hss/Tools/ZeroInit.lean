import Hss.Boot.System
import Hss.Tools.Generator

/-! The zero-init table of a generated image, and the walk of the boot service through it. -/

namespace Hss

open ByteMemory Outcome

/-! ### The image that is booted -/

/-- What the payloads leave to `generate_payload`; the rest of it is from the configuration. -/
def Generator.input (g : Generator) (config : PayloadInput) : PayloadInput :=
  { config with
    hart := fun u => { config.hart u with
      numChunks := (g.hart u).numChunks
      firstChunk := (g.hart u).firstChunk
      lastChunk := (g.hart u).lastChunk }
    chunkTable := g.chunkTable
    ziChunkTable := g.ziChunkTable }

/-- The payloads give the zero-init table and the file. -/
def Generates (payloads : List Payload) (config : PayloadInput) (table : List ZiChunkDesc)
    (file : Bytes) : Prop :=
  ∃ g, Generator.addPayloads payloads = .ok g ∧ g.ziChunkTable = table ∧
    generatePayload (g.input config) = .ok file

/-- The file is in memory from `p` on, away from what is set to zero for the hart. -/
structure PlacedAt (file : Bytes) (table : List ZiChunkDesc) (target : U54) (p : Word) : Prop where
  notNull : p ≠ 0
  fits : p.toNat + file.length ≤ 2 ^ 64
  apart : ∀ z ∈ table, z.OwnedBy target →
    Disjoint (span z.execAddr z.size.toNat) (span p file.length)

/-- The machine of the hart starts to clear, with the image in memory and DDR memory trained. -/
structure Booting (file : Bytes) (table : List ZiChunkDesc) (target : U54) (s : State) : Prop where
  placed : PlacedAt file table target s.pBootImage
  loaded : HoldsAt s.mem s.pBootImage 0 file
  state : (s.machine target).state = .zeroInitChunks
  ddrTrained : s.triggers .ddrTrained = true

/-! ### The walk -/

section
variable (cfg : Config) (target : U54)

/-- `n` calls of the handler, which is called while the machine stays in its state. -/
def zeroInitCalls : ℕ → State → Except Halt State
  | 0, s => .ok s
  | n + 1, s => do
    let s ← zeroInitCalls n s
    if (s.machine target).state = .zeroInitChunks then bootZeroInitChunksHandler cfg target s
    else .ok s

/-- The address of entry `i` of the zero-init table. -/
def ziChunkAddr (s : State) (i : ℕ) : Word :=
  s.pBootImage + BootImage.ziChunkTableOffset s.mem s.pBootImage + BitVec.ofNat 64 (ziChunkDescSize * i)

/-- The walk gets to entry `i`, and there it clears the chunk `z`. -/
def Visits (s : State) (i : ℕ) (z : ZiChunkDesc) : Prop :=
  ∃ n t u, (bootZeroInitChunksOnEntry target s >>= zeroInitCalls cfg target n) = .ok t ∧
    (t.machine target).state = .zeroInitChunks ∧ (t.localData target).pZiChunk = ziChunkAddr s i ∧
    bootZeroInitChunksHandler cfg target t = .ok u ∧
    u.accesses.head? = some (.zeroInit target z) ∧ u.mem = fill t.mem z.execAddr z.size.toNat 0

end

/-- Whatever the payloads, the walk for the hart visits its chunks that are not empty. -/
def ZeroInitAgrees (payloads : List Payload) (config : PayloadInput) (target : U54) : Prop :=
  ∀ table file, Generates payloads config table file → ∀ cfg s, Booting file table target s →
    ∀ i z, table[i]? = some z → z.size ≠ 0 → z.OwnedBy target → Visits cfg target s i z

/-! ### The table in the image -/

/-- Wherever the file is in memory, its header leads to the table, which an entry of size zero ends. -/
structure TableAt (file : Bytes) (table : List ZiChunkDesc) (off : ℕ) : Prop where
  positive : 0 < off
  inside : off + ziChunkDescSize * (table.length + 1) ≤ file.length
  offset : ∀ mem p, HoldsAt mem p 0 file → BootImage.ziChunkTableOffset mem p = BitVec.ofNat 64 off
  entries : ∀ mem p, HoldsAt mem p 0 file → ∀ i, ∀ less : i < table.length,
    ziChunkDesc mem (p + BitVec.ofNat 64 off + BitVec.ofNat 64 (ziChunkDescSize * i)) = table[i]
  sentinel : ∀ mem p, HoldsAt mem p 0 file →
    (ziChunkDesc mem (p + BitVec.ofNat 64 off +
      BitVec.ofNat 64 (ziChunkDescSize * table.length))).size = 0

variable {cfg : Config} {target : U54} {file : Bytes} {table : List ZiChunkDesc} {s t u : State}
  {payloads : List Payload} {config input : PayloadInput} {off i n : ℕ}

theorem tableAt_of_generatePayload (generated : generatePayload input = .ok file) :
    TableAt file input.ziChunkTable (BootImage.sizeOf + (chunkTableBytes input).length) := by
  obtain ⟨some, fits, signs⟩ := needs_of_generatePayload generated
  obtain ⟨signature, length_signature, same⟩ := generatePayload_ok some fits signs
  cases generated.symm.trans same
  have parts {mem : Mem} {p : Word} (holds : HoldsAt mem p 0
      (((unsignedHeader input).sign signature length_signature).bytes ++ payloadBody input)) :
      BootImage.ziChunkTableOffset mem p =
          BitVec.ofNat 64 (BootImage.sizeOf + (chunkTableBytes input).length) ∧
        HoldsAt mem p (BootImage.sizeOf + (chunkTableBytes input).length) (ziChunkTableBytes input) := by
    rw [holdsAt_append, BootImageHeader.length_bytes, payloadBody, holdsAt_append,
      holdsAt_append, Nat.zero_add] at holds
    obtain ⟨header, ⟨-, ziChunks⟩, -⟩ := holds
    exact ⟨BootImageHeader.InMem.ziChunkTableOffset header, ziChunks⟩
  refine ⟨?_, ?_, fun _ _ holds => (parts holds).1, fun _ _ holds => ?_, fun _ _ holds => ?_⟩
  · exact Nat.lt_of_lt_of_le (by decide) (Nat.le_add_right _ _)
  · rw [List.length_append, BootImageHeader.length_bytes, payloadBody, List.length_append,
      List.length_append, length_ziChunkTableBytes]
    omega
  · exact (ziChunkTable_reads (parts holds).2).1
  · exact (ziChunkTable_reads (parts holds).2).2

/-! ### The calls -/

/-- The walk stands at entry `i`, and nothing has changed the image. -/
structure AtEntry (file : Bytes) (target : U54) (s : State) (i : ℕ) (t : State) : Prop where
  pBootImage : t.pBootImage = s.pBootImage
  loaded : HoldsAt t.mem s.pBootImage 0 file
  ddrTrained : t.triggers .ddrTrained = true
  state : (t.machine target).state = .zeroInitChunks
  pZiChunk : (t.localData target).pZiChunk = ziChunkAddr s i

theorem Booting.onEntry (booting : Booting file table target s) :
    ∃ t, bootZeroInitChunksOnEntry target s = .ok t ∧ AtEntry file target s 0 t := by
  refine ⟨s.setWalk target { (s.localData target).toChunkWalk with
    pZiChunk := s.pBootImage + BootImage.ziChunkTableOffset s.mem s.pBootImage }, ?_, rfl,
    booting.loaded, booting.ddrTrained, booting.state, ?_⟩
  · rw [bootZeroInitChunksOnEntry, assert, if_pos booting.placed.notNull]
    rfl
  · have first : ziChunkAddr s 0 = s.pBootImage + BootImage.ziChunkTableOffset s.mem s.pBootImage :=
      BitVec.add_zero _
    rw [first]
    simp [State.setWalk]

/-- The address of an entry, without wrapping. -/
theorem Booting.toNat_ziChunkAddr (booting : Booting file table target s) (inFile : TableAt file table off)
    (le : i ≤ table.length) :
    (ziChunkAddr s i).toNat = s.pBootImage.toNat + off + ziChunkDescSize * i := by
  have fits := booting.placed.fits
  have inside := inFile.inside
  have before := Nat.mul_le_mul_left ziChunkDescSize le
  rw [Nat.mul_succ, ziChunkDescSize] at inside
  rw [ziChunkDescSize] at before
  rw [ziChunkAddr, inFile.offset _ _ booting.loaded, offset_offset, BitVec.toNat_add, BitVec.toNat_ofNat,
    ziChunkDescSize]
  omega

/-- Two entries are at two addresses. -/
theorem Booting.ziChunkAddr_inj (booting : Booting file table target s) (inFile : TableAt file table off)
    {j : ℕ} (le : i ≤ table.length) (le' : j ≤ table.length) (same : ziChunkAddr s i = ziChunkAddr s j) :
    i = j := by
  have addrs := congrArg BitVec.toNat same
  rw [booting.toNat_ziChunkAddr inFile le, booting.toNat_ziChunkAddr inFile le', ziChunkDescSize] at addrs
  omega

theorem ziChunkAddr_succ (s : State) (i : ℕ) :
    ziChunkAddr s i + sizeOfZiChunkDesc = ziChunkAddr s (i + 1) := by
  have size : sizeOfZiChunkDesc = BitVec.ofNat 64 ziChunkDescSize := rfl
  rw [ziChunkAddr, ziChunkAddr, size, offset_offset, Nat.mul_succ]

/-- What the handler reads at an entry. -/
theorem AtEntry.handler (here : AtEntry file target s i t) (notNull : s.pBootImage ≠ 0) :
    bootZeroInitChunksHandler cfg target t =
      let ziChunk := ziChunkDesc t.mem (ziChunkAddr s i)
      let u := t.access (.readZiChunk target (ziChunkAddr s i))
      if ziChunk.size ≠ 0 then
        if ziChunk.OwnedBy target then do
          let u ← bootDoZeroInitChunk target (ziChunkAddr s i) u
          return nextZiChunk target u
        else .ok (nextZiChunk target u)
      else .ok (u.goto target .downloadChunks) := by
  rw [bootZeroInitChunksHandler, assert, if_pos (here.pBootImage ▸ notNull), here.pZiChunk]
  have trained : (t.access (.readZiChunk target (ziChunkAddr s i))).triggers .ddrTrained = true :=
    here.ddrTrained
  simp only [ok_bind, trained, Bool.not_true, Bool.and_false, Bool.false_eq_true, if_false]
  rfl

theorem AtEntry.next (here : AtEntry file target s i t) {u : State}
    (pBootImage : u.pBootImage = t.pBootImage) (loaded : HoldsAt u.mem s.pBootImage 0 file)
    (triggers : u.triggers = t.triggers) (machine : u.machine = t.machine)
    (localData : u.localData = t.localData) : AtEntry file target s (i + 1) (nextZiChunk target u) := by
  refine ⟨pBootImage.trans here.pBootImage, loaded, ?_, ?_, ?_⟩
  · exact (congrFun triggers _).trans here.ddrTrained
  · exact (congrArg (fun m => (m target).state) machine).trans here.state
  · rw [← ziChunkAddr_succ, ← here.pZiChunk, ← localData]
    simp [nextZiChunk, State.setWalk]

/-- What the walk reads at an entry of the table, and at its end. -/
theorem AtEntry.entry (booting : Booting file table target s) (inFile : TableAt file table off)
    (here : AtEntry file target s i t) (less : i < table.length) :
    ziChunkDesc t.mem (ziChunkAddr s i) = table[i] := by
  rw [ziChunkAddr, inFile.offset _ _ booting.loaded]
  exact inFile.entries _ _ here.loaded i less

theorem AtEntry.sentinel (booting : Booting file table target s) (inFile : TableAt file table off)
    (here : AtEntry file target s table.length t) :
    (ziChunkDesc t.mem (ziChunkAddr s table.length)).size = 0 := by
  rw [ziChunkAddr, inFile.offset _ _ booting.loaded]
  exact inFile.sentinel _ _ here.loaded

/-- An entry that is not empty is left behind, and cleared if it is of the hart. -/
theorem AtEntry.advance (cfg : Config) (booting : Booting file table target s)
    (inFile : TableAt file table off) (here : AtEntry file target s i t) (less : i < table.length)
    (size : table[i].size ≠ 0) :
    ∃ u, bootZeroInitChunksHandler cfg target t = .ok u ∧ AtEntry file target s (i + 1) u ∧
      (table[i].OwnedBy target → u.accesses.head? = some (.zeroInit target table[i]) ∧
        u.mem = fill t.mem table[i].execAddr table[i].size.toNat 0) := by
  have entry := here.entry booting inFile less
  rw [here.handler booting.placed.notNull, entry]
  dsimp only
  rw [if_pos size]
  by_cases owned : table[i].OwnedBy target
  · have notNull : ziChunkAddr s i ≠ 0 := by
      intro null
      have addr := booting.toNat_ziChunkAddr inFile (Nat.le_of_lt less)
      have positive := inFile.positive
      have zero : (0 : Word).toNat = 0 := rfl
      rw [null, zero] at addr
      omega
    have kept : HoldsAt (fill t.mem table[i].execAddr table[i].size.toNat 0) s.pBootImage 0 file := by
      refine here.loaded.congr fun a inImage => (fill_of_notMem fun cleared => ?_).symm
      exact Set.disjoint_left.mp (booting.placed.apart _ (List.getElem_mem less) owned) cleared inImage
    rw [if_pos owned, bootDoZeroInitChunk, assert, if_pos notNull]
    simp only [ok_bind, State.access_mem, entry]
    refine ⟨_, rfl, here.next rfl kept rfl rfl rfl, fun _ => ⟨rfl, rfl⟩⟩
  · rw [if_neg owned]
    exact ⟨_, rfl, here.next rfl here.loaded rfl rfl rfl, fun owned' => absurd owned' owned⟩

/-- What ends the table stops the walk. -/
theorem AtEntry.stop (booting : Booting file table target s) (here : AtEntry file target s i t)
    (zero : (ziChunkDesc t.mem (ziChunkAddr s i)).size = 0)
    (called : bootZeroInitChunksHandler cfg target t = .ok u) :
    (u.machine target).state = .downloadChunks := by
  rw [here.handler booting.placed.notNull] at called
  dsimp only at called
  rw [if_neg (not_not.mpr zero)] at called
  cases called
  simp [State.goto]

/-! ### The walk and the table -/

/-- Over entries that are not empty the walk gets to each. -/
theorem zeroInitCalls_reaches (cfg : Config) (booting : Booting file table target s)
    (inFile : TableAt file table off) (begin : AtEntry file target s 0 t) (le : n ≤ table.length)
    (some : ∀ j, ∀ less : j < table.length, j < n → table[j].size ≠ 0) :
    ∃ u, zeroInitCalls cfg target n t = .ok u ∧ AtEntry file target s n u := by
  induction n with
  | zero => exact ⟨t, rfl, begin⟩
  | succ n ih =>
    obtain ⟨u, calls, here⟩ := ih (Nat.le_of_succ_le le) fun j less before =>
      some j less (Nat.lt_succ_of_lt before)
    obtain ⟨v, called, there, -⟩ :=
      here.advance cfg booting inFile le (some n le (Nat.lt_succ_self n))
    refine ⟨v, ?_, there⟩
    rw [zeroInitCalls, calls, ok_bind, if_pos here.state, called]

/-- While the machine stays in its state, the walk has left behind entries that are not empty. -/
theorem zeroInitCalls_passed (booting : Booting file table target s) (inFile : TableAt file table off)
    (begin : AtEntry file target s 0 t) (calls : zeroInitCalls cfg target n t = .ok u)
    (stays : (u.machine target).state = .zeroInitChunks) :
    AtEntry file target s n u ∧ n ≤ table.length ∧
      ∀ j, ∀ less : j < table.length, j < n → table[j].size ≠ 0 := by
  induction n generalizing u with
  | zero =>
    cases calls
    exact ⟨begin, Nat.zero_le _, fun j _ before => absurd before (Nat.not_lt_zero j)⟩
  | succ n ih =>
    rw [zeroInitCalls] at calls
    obtain ⟨v, calls, last⟩ := bind_eq_ok.mp calls
    split at last
    · next state =>
      obtain ⟨here, le, passed⟩ := ih calls state
      have stops (zero : (ziChunkDesc v.mem (ziChunkAddr s n)).size = 0) : False := by
        have stopped := here.stop booting zero last
        rw [stays] at stopped
        cases stopped
      have less : n < table.length := by
        refine lt_of_le_of_ne le fun atEnd => stops ?_
        subst atEnd
        exact here.sentinel booting inFile
      have entry := here.entry booting inFile less
      have size : table[n].size ≠ 0 := fun zero => stops (entry ▸ zero)
      obtain ⟨w, called, there, -⟩ := here.advance cfg booting inFile less size
      cases called.symm.trans last
      refine ⟨there, less, fun j less' before => ?_⟩
      rcases Nat.lt_succ_iff_lt_or_eq.mp before with before | rfl
      · exact passed j less' before
      · exact size
    · next state =>
      cases last
      exact absurd stays state

theorem visits_of_passed (booting : Booting file table target s) (inFile : TableAt file table off)
    (less : i < table.length) (size : table[i].size ≠ 0) (owned : table[i].OwnedBy target)
    (some : ∀ j, ∀ less : j < table.length, j < i → table[j].size ≠ 0) :
    Visits cfg target s i table[i] := by
  obtain ⟨t, entered, begin⟩ := booting.onEntry
  obtain ⟨u, calls, here⟩ :=
    zeroInitCalls_reaches cfg booting inFile begin (Nat.le_of_lt less) some
  obtain ⟨v, called, -, cleared⟩ := here.advance cfg booting inFile less size
  obtain ⟨access, mem⟩ := cleared owned
  refine ⟨i, u, v, ?_, here.state, here.pZiChunk, called, access, mem⟩
  rw [entered, ok_bind, calls]

theorem passed_of_visits {z : ZiChunkDesc} (booting : Booting file table target s)
    (inFile : TableAt file table off) (less : i < table.length) (visits : Visits cfg target s i z) :
    ∀ j, ∀ less : j < table.length, j < i → table[j].size ≠ 0 := by
  obtain ⟨n, u, v, walked, stays, pointer, -⟩ := visits
  obtain ⟨t, entered, begin⟩ := booting.onEntry
  rw [entered, ok_bind] at walked
  obtain ⟨here, le, passed⟩ := zeroInitCalls_passed booting inFile begin walked stays
  -- the machine is at one entry only
  have same : n = i :=
    booting.ziChunkAddr_inj inFile le (Nat.le_of_lt less) (here.pZiChunk.symm.trans pointer)
  exact same ▸ passed

/-! ### Agreement -/

/-- No empty chunk, of whatever hart, stands before one that the walk is to visit. -/
def NoneHidden (table : List ZiChunkDesc) (target : U54) : Prop :=
  ∀ (i j : ℕ) (a z : ZiChunkDesc), table[i]? = some a → table[j]? = some z → i < j → z.size ≠ 0 →
    z.OwnedBy target → a.size ≠ 0

theorem exists_booting {p : Word} (placed : PlacedAt file table target p) :
    ∃ s, Booting file table target s := by
  obtain ⟨mem, holds⟩ := exists_holdsAt (Nat.le_of_add_left_le placed.fits) p
  exact ⟨{ powerOn .icicleKitEs mem (fun _ _ => ⟨0, 0, .nullRegion, false, false, false, false⟩) 0 with
    pBootImage := p
    machine := fun _ => ⟨.zeroInitChunks, none, 0, 0⟩
    triggers := fun _ => true }, placed, holds, rfl, rfl⟩

theorem Generates.tableAt (generates : Generates payloads config table file) :
    ∃ off, TableAt file table off := by
  obtain ⟨g, -, rfl, generated⟩ := generates
  exact ⟨_, tableAt_of_generatePayload generated⟩

theorem noneHidden_of_agrees {p : Word} (agrees : ZeroInitAgrees payloads config target)
    (generates : Generates payloads config table file) (placed : PlacedAt file table target p) :
    NoneHidden table target := by
  obtain ⟨off, inFile⟩ := generates.tableAt
  obtain ⟨s, booting⟩ := exists_booting placed
  intro i j a z first second before size owned
  obtain ⟨less, rfl⟩ := List.getElem?_eq_some_iff.mp second
  obtain ⟨less', rfl⟩ := List.getElem?_eq_some_iff.mp first
  have visits := agrees table file generates .icicleKitEs s booting j _ second size owned
  exact passed_of_visits booting inFile less visits i less' before

/-- The walk agrees with the generator just when, in an image that can be generated and placed, no empty
section stands before one that is to be cleared. -/
theorem zeroInitAgrees_iff (payloads : List Payload) (config : PayloadInput) (target : U54) :
    ZeroInitAgrees payloads config target ↔
      ((∃ table file p, Generates payloads config table file ∧ PlacedAt file table target p) →
        NoneHidden (payloads.flatMap Payload.ziChunks) target) := by
  constructor
  · rintro agrees ⟨table, file, p, generates, placed⟩
    obtain ⟨g, added, rfl, -⟩ := id generates
    rw [← Generator.addPayloads_ziChunkTable added]
    exact noneHidden_of_agrees agrees generates placed
  · intro hidden table file generates cfg s booting i z present size owned
    obtain ⟨off, inFile⟩ := generates.tableAt
    have apart := hidden ⟨table, file, _, generates, booting.placed⟩
    obtain ⟨g, added, rfl, -⟩ := generates
    rw [← Generator.addPayloads_ziChunkTable added] at apart
    obtain ⟨less, rfl⟩ := List.getElem?_eq_some_iff.mp present
    refine visits_of_passed booting inFile less size owned fun j less' before => ?_
    exact apart j i _ _ (List.getElem?_eq_getElem less') present before size owned

/-- An ELF file for the first hart, with an empty section without bits before another one. -/
def emptyTbss : List Payload :=
  [⟨.u54_1, .elf ⟨true, true, true, [⟨true, 0x80000000, 0x10000⟩],
    [⟨0x80000000, 1, false, true, some [0x13]⟩, ⟨0x80001000, 0, true, true, none⟩,
      ⟨0x80001000, 16, true, true, none⟩]⟩, 0x80000000, none⟩]

def unsignedConfig : PayloadInput := { shortSignature with signer := none }

theorem emptyTbss_generates : ∃ file, file.length ≤ 0x1000 ∧
    Generates emptyTbss unsignedConfig [⟨1, 0x80001000, 0⟩, ⟨1, 0x80001000, 16⟩] file := by
  have final : (Generator.addPayloads emptyTbss).toOption.any (fun g => g.chunkTable.length = 1 ∧
      payloadLength (g.input unsignedConfig) ≤ 0x1000 ∧
      g.ziChunkTable = [⟨1, 0x80001000, 0⟩, ⟨1, 0x80001000, 16⟩]) = true := by decide +kernel
  cases reached : Generator.addPayloads emptyTbss with
  | error e =>
    rw [reached] at final
    cases final
  | ok g =>
    rw [reached] at final
    obtain ⟨one, short, table⟩ := of_decide_eq_true final
    have some : (g.input unsignedConfig).chunkTable ≠ [] := List.ne_nil_of_length_pos (one ▸ Nat.one_pos)
    have fits : payloadLength (g.input unsignedConfig) < offLimit := Nat.lt_of_le_of_lt short (by decide)
    obtain ⟨signature, length_signature, generated⟩ :=
      generatePayload_ok some fits fun signer key => by cases key
    refine ⟨_, ?_, g, reached, table, generated⟩
    rw [List.length_append, BootImageHeader.length_bytes]
    exact short

/-- The walk ends at the empty section. -/
theorem emptyTbss_missed : ¬ZeroInitAgrees emptyTbss unsignedConfig .u54_1 := by
  intro agrees
  obtain ⟨file, short, generates⟩ := emptyTbss_generates
  have apart := noneHidden_of_agrees (p := 0xA0000000) agrees generates ⟨by decide, ?_, ?_⟩
  · exact apart 0 1 _ _ rfl rfl (by decide) (by decide) rfl rfl
  · have addr : (0xA0000000 : Word).toNat = 0xA0000000 := rfl
    rw [addr]
    omega
  · intro z present _
    rw [span_disjoint_iff]
    rcases List.mem_cons.mp present with rfl | present
    · exact .inl rfl
    · cases List.mem_singleton.mp present
      refine .inr (.inr ⟨by decide, ?_⟩)
      have behind : ((0x80001000 : Word) - 0xA0000000).toNat = 0xFFFFFFFFE0001000 := by decide
      exact Nat.le_trans short (by rw [behind]; decide)

end Hss
