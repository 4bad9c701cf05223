import Hss.Tools.Generator

/-! What the header says of the chunks of each hart, after every payload, and the payloads for which it
is right. -/

namespace Hss

open Outcome

/-- The chunk is for the hart, as program or as ancilliary data. -/
def PayloadChunk.OwnedBy (c : PayloadChunk) (u : U54) : Prop :=
  c.owner &&& ~~~bootFlagAncilliaryData = BitVec.ofNat 32 u.num

instance (c : PayloadChunk) (u : U54) : Decidable (c.OwnedBy u) := inferInstanceAs (Decidable (_ = _))

/-- The places of the chunk table with a chunk of the hart. -/
def ownedPlaces (table : List PayloadChunk) (u : U54) : List ℕ :=
  (List.range table.length).filter fun i => (table[i]?).any fun c => c.OwnedBy u

/-- The header says which of the places is the first and which the last one, and how many there are. -/
structure HartChunks.Describes (header : HartChunks) (places : List ℕ) : Prop where
  firstChunk : ∀ i ∈ places.head?, header.firstChunk = BitVec.ofNat 64 i
  lastChunk : ∀ i ∈ places.getLast?, header.lastChunk = BitVec.ofNat 64 i
  numChunks : header.numChunks = BitVec.ofNat 64 places.length

namespace Generator

/-- The header is right about every hart. -/
def Right (g : Generator) : Prop := ∀ u, (g.hart u).Describes (ownedPlaces g.chunkTable u)

/-- The header is right after each of the payloads. -/
def RightThroughout (payloads : List Payload) : Prop :=
  ∀ before rest, payloads = before ++ rest → ∀ g, addPayloads before = .ok g → g.Right

/-- The first one of these numbers that is not zero. -/
def firstNonzero : List Word → Word
  | [] => 0
  | number :: numbers => if number = 0 then firstNonzero numbers else number

/-- The parts of a payload that is no ELF file. -/
def blobParts (contents : Option Bytes) (payload : Payload) : List (Option Bytes) :=
  contents :: payload.ancilliary.toList

/-- The condition on a payload, in the state before it.

An ELF file: where the hart's chunks start (its `firstChunk`, or the counter of the ELF parser for one of
zero) and the counter of the ELF parser (the length of the table, if there is a section with data) have
the hart's chunks between them, and nothing else; a `firstChunk` of zero is not lost, and without a new
chunk the counter stands right behind the hart's last one.

Another file: neither it nor its ancilliary data are empty, and where the hart's chunks start (its
`firstChunk`, or the counter of a parser for one of zero) is the length of the table for a hart without
chunks, and its `firstChunk` for one with chunks. -/
def Meets (g : Generator) (payload : Payload) : Prop :=
  let owned := ownedPlaces g.chunkTable payload.owner
  let header := g.hart payload.owner
  match payload.file with
  | .missing => True
  | .elf file =>
    let start := firstNonzero [header.firstChunk, g.elfNumChunks]
    let counter := if file.loaded.any ElfSection.hasData then g.numChunks else g.elfNumChunks
    start + BitVec.ofNat 64 owned.length = counter ∧
      (owned ≠ [] → start = header.firstChunk ∧
        (file.loaded.filter ElfSection.isChunk = [] → counter = header.lastChunk + 1))
  | .blob contents =>
    let start := firstNonzero [header.firstChunk, g.elfNumChunks, g.blobNumChunks]
    (∀ part ∈ blobParts contents payload, part ≠ some []) ∧
      start = if owned = [] then g.numChunks else header.firstChunk

/-- Each payload that is added meets its condition in the state before it. -/
def MeetsThroughout (payloads : List Payload) : Prop :=
  ∀ before payload rest, payloads = before ++ payload :: rest → ∀ g, addPayloads before = .ok g →
    (∃ g', addPayload g payload = .ok g') → g.Meets payload

/-! ### Places -/

theorem ownedPlaces_append (table new : List PayloadChunk) (u : U54) :
    ownedPlaces (table ++ new) u =
      ownedPlaces table u ++ (ownedPlaces new u).map (table.length + ·) := by
  rw [ownedPlaces, List.length_append, List.range_add, List.filter_append, ownedPlaces, ownedPlaces,
    List.filter_map]
  congr 1
  · refine List.filter_congr fun i mem => ?_
    rw [List.getElem?_append_left (List.mem_range.mp mem)]
  · congr 1
    refine List.filter_congr fun i mem => ?_
    show ((table ++ new)[table.length + i]?).any _ = _
    rw [List.getElem?_append_right (by omega), Nat.add_sub_cancel_left]

/-- A hart owns all of its own chunks, and none of those of another one. -/
theorem ownedPlaces_all {new : List PayloadChunk} {u : U54} (all : ∀ c ∈ new, c.OwnedBy u) :
    ownedPlaces new u = List.range new.length := by
  rw [ownedPlaces, List.filter_eq_self]
  intro i mem
  have inside := List.mem_range.mp mem
  rw [List.getElem?_eq_getElem inside]
  simpa using all _ (List.getElem_mem inside)

theorem ownedPlaces_none {new : List PayloadChunk} {u : U54} (none : ∀ c ∈ new, ¬c.OwnedBy u) :
    ownedPlaces new u = [] := by
  rw [ownedPlaces, List.filter_eq_nil_iff]
  intro i mem
  have inside := List.mem_range.mp mem
  rw [List.getElem?_eq_getElem inside]
  simpa using none _ (List.getElem_mem inside)

/-- The owner of a chunk, with or without the flag of ancilliary data. -/
theorem ownedBy_iff {c : PayloadChunk} {owner u : U54}
    (owned : c.owner = BitVec.ofNat 32 owner.num ∨
      c.owner = BitVec.ofNat 32 owner.num ||| bootFlagAncilliaryData) : c.OwnedBy u ↔ owner = u := by
  rw [PayloadChunk.OwnedBy]
  rcases owned with same | same
  · rw [same]
    cases owner <;> cases u <;> decide
  · rw [same]
    cases owner <;> cases u <;> decide

/-- The places of `n` new chunks at the end of the table. -/
def newPlaces (table : List PayloadChunk) (n : ℕ) : List ℕ := (List.range n).map (table.length + ·)

theorem ownedPlaces_new {table new : List PayloadChunk} {owner : U54}
    (owned : ∀ c ∈ new, c.owner = BitVec.ofNat 32 owner.num ∨
      c.owner = BitVec.ofNat 32 owner.num ||| bootFlagAncilliaryData) (u : U54) :
    ownedPlaces (table ++ new) u =
      if owner = u then ownedPlaces table u ++ newPlaces table new.length else ownedPlaces table u := by
  rw [ownedPlaces_append]
  by_cases same : owner = u
  · rw [if_pos same, ownedPlaces_all fun c mem => (ownedBy_iff (owned c mem)).mpr same]
    rfl
  · rw [if_neg same, ownedPlaces_none fun c mem other => same ((ownedBy_iff (owned c mem)).mp other)]
    exact List.append_nil _

theorem newPlaces_zero (table : List PayloadChunk) : newPlaces table 0 = [] := rfl

theorem head?_newPlaces (table : List PayloadChunk) (n : ℕ) :
    (newPlaces table (n + 1)).head? = some table.length := by
  rw [newPlaces, List.range_succ_eq_map]
  rfl

theorem getLast?_newPlaces (table : List PayloadChunk) (n : ℕ) :
    (newPlaces table (n + 1)).getLast? = some (table.length + n) := by
  rw [newPlaces, List.range_succ, List.map_append, List.getLast?_append]
  rfl

theorem length_newPlaces (table : List PayloadChunk) (n : ℕ) : (newPlaces table n).length = n := by
  rw [newPlaces, List.length_map, List.length_range]

/-! ### Headers -/

/-- What a header says of places and of new ones after them. -/
theorem describes_append_succ {header : HartChunks} {places : List ℕ} {table : List PayloadChunk}
    {n : ℕ} : header.Describes (places ++ newPlaces table (n + 1)) ↔
      header.firstChunk = BitVec.ofNat 64 (places.head?.getD table.length) ∧
        header.lastChunk = BitVec.ofNat 64 (table.length + n) ∧
        header.numChunks = BitVec.ofNat 64 (places.length + (n + 1)) := by
  have first : (places ++ newPlaces table (n + 1)).head? = some (places.head?.getD table.length) := by
    rw [List.head?_append, head?_newPlaces]
    cases places.head? <;> rfl
  have last : (places ++ newPlaces table (n + 1)).getLast? = some (table.length + n) := by
    rw [List.getLast?_append, getLast?_newPlaces]
    rfl
  have length : (places ++ newPlaces table (n + 1)).length = places.length + (n + 1) := by
    rw [List.length_append, length_newPlaces]
  constructor
  · rintro ⟨firstChunk, lastChunk, numChunks⟩
    exact ⟨firstChunk _ first, lastChunk _ last, length ▸ numChunks⟩
  · rintro ⟨firstChunk, lastChunk, numChunks⟩
    refine ⟨fun i mem => ?_, fun i mem => ?_, length ▸ numChunks⟩
    · cases first.symm.trans mem
      exact firstChunk
    · cases last.symm.trans mem
      exact lastChunk

theorem describes_nil_iff {header : HartChunks} : header.Describes [] ↔ header.numChunks = 0 := by
  constructor
  · exact fun describes => describes.numChunks
  · intro none
    refine ⟨fun i mem => ?_, fun i mem => ?_, none⟩
    · cases mem
    · cases mem

theorem describes_cons_iff {header : HartChunks} {i : ℕ} {places : List ℕ} :
    header.Describes (i :: places) ↔ header.firstChunk = BitVec.ofNat 64 i ∧
      header.lastChunk = BitVec.ofNat 64 (places.getLast?.getD i) ∧
      header.numChunks = BitVec.ofNat 64 (i :: places).length := by
  have last : (i :: places).getLast? = some (places.getLast?.getD i) := List.getLast?_cons
  constructor
  · rintro ⟨firstChunk, lastChunk, numChunks⟩
    exact ⟨firstChunk i rfl, lastChunk _ last, numChunks⟩
  · rintro ⟨firstChunk, lastChunk, numChunks⟩
    refine ⟨fun j mem => ?_, fun j mem => ?_, numChunks⟩
    · cases mem
      exact firstChunk
    · cases last.symm.trans mem
      exact lastChunk

/-- The count of an ELF file, where the chunks before it and the new ones are counted. -/
theorem count_eq_iff (counter start : Word) (owned n : ℕ) :
    counter + BitVec.ofNat 64 n - 1 - start + 1 = BitVec.ofNat 64 (owned + n) ↔
      start + BitVec.ofNat 64 owned = counter := by
  rw [BitVec.ofNat_add]
  constructor
  · intro same
    grind
  · intro same
    grind

/-- The header after an ELF file with `n` new chunks. -/
theorem describes_elf_iff {header : HartChunks} {places : List ℕ} (right : header.Describes places)
    (table : List PayloadChunk) (n : ℕ) (start counter : Word)
    (counts : n ≠ 0 → counter = BitVec.ofNat 64 table.length) :
    HartChunks.Describes ⟨counter + BitVec.ofNat 64 n - 1 - start + 1, start,
        counter + BitVec.ofNat 64 n - 1⟩ (places ++ newPlaces table n) ↔
      start + BitVec.ofNat 64 places.length = counter ∧
        (places ≠ [] → start = header.firstChunk ∧ (n = 0 → counter = header.lastChunk + 1)) := by
  cases n with
  | zero =>
    have count := count_eq_iff counter start places.length 0
    rw [newPlaces_zero, List.append_nil]
    cases places with
    | nil =>
      rw [describes_nil_iff]
      exact count.trans (and_iff_left fun some => absurd rfl some).symm
    | cons i places =>
      obtain ⟨first, last, -⟩ := describes_cons_iff.mp right
      rw [describes_cons_iff, ← first, ← last]
      constructor
      · rintro ⟨starts, ends, counted⟩
        exact ⟨count.mp counted, fun _ => ⟨starts, fun _ => by grind⟩⟩
      · rintro ⟨counted, stays⟩
        obtain ⟨starts, ends⟩ := stays (List.cons_ne_nil _ _)
        have behind := ends rfl
        exact ⟨starts, by grind, count.mpr counted⟩
  | succ n =>
    have count := count_eq_iff counter start places.length (n + 1)
    have table_end := counts (Nat.succ_ne_zero n)
    have ends : counter + BitVec.ofNat 64 (n + 1) - 1 = BitVec.ofNat 64 (table.length + n) := by
      rw [table_end, BitVec.ofNat_add, BitVec.ofNat_add]
      grind
    rw [describes_append_succ]
    constructor
    · rintro ⟨starts, -, counted⟩
      refine ⟨count.mp counted, fun some => ⟨?_, fun none => absurd none (Nat.succ_ne_zero n)⟩⟩
      cases places with
      | nil => exact absurd rfl some
      | cons i places => exact starts.trans (describes_cons_iff.mp right).1.symm
    · rintro ⟨counted, stays⟩
      refine ⟨?_, ends, count.mpr counted⟩
      cases places with
      | nil =>
        rw [List.length_nil, BitVec.add_zero, table_end] at counted
        exact counted
      | cons i places =>
        exact (stays (List.cons_ne_nil _ _)).1.trans (describes_cons_iff.mp right).1

/-- The header after `parts` parts of which `n` have bytes. -/
theorem describes_blob_iff {header : HartChunks} {places : List ℕ} (right : header.Describes places)
    (table : List PayloadChunk) {n parts : ℕ} (start : Word) (le : n ≤ parts) (positive : 0 < parts)
    (few : parts ≤ 2) :
    HartChunks.Describes ⟨header.numChunks + BitVec.ofNat 64 parts, start,
        BitVec.ofNat 64 (table.length + n) - 1⟩ (places ++ newPlaces table n) ↔
      n = parts ∧ start = if places = [] then BitVec.ofNat 64 table.length else header.firstChunk := by
  -- a part without bytes is counted, though it is no chunk
  have count : header.numChunks + BitVec.ofNat 64 parts = BitVec.ofNat 64 (places.length + n) ↔
      n = parts := by
    rw [right.numChunks, BitVec.ofNat_add]
    constructor
    · intro same
      have parts_eq : BitVec.ofNat 64 parts = BitVec.ofNat 64 n := by grind
      have numbers := congrArg BitVec.toNat parts_eq
      rw [BitVec.toNat_ofNat, BitVec.toNat_ofNat] at numbers
      omega
    · rintro rfl
      rfl
  cases n with
  | zero =>
    refine iff_of_false (fun describes => ?_) fun both => by omega
    have counted := describes.numChunks
    rw [newPlaces_zero, List.append_nil] at counted
    have none := count.mp counted
    omega
  | succ n =>
    have ends : BitVec.ofNat 64 (table.length + (n + 1)) - 1 = BitVec.ofNat 64 (table.length + n) := by
      rw [BitVec.ofNat_add, BitVec.ofNat_add, BitVec.ofNat_add]
      grind
    have starts : BitVec.ofNat 64 (places.head?.getD table.length) =
        if places = [] then BitVec.ofNat 64 table.length else header.firstChunk := by
      cases places with
      | nil => rfl
      | cons i places =>
        rw [if_neg (List.cons_ne_nil _ _), (describes_cons_iff.mp right).1]
        rfl
    rw [describes_append_succ, starts]
    constructor
    · exact fun ⟨first, _, counted⟩ => ⟨count.mp counted, first⟩
    · exact fun ⟨counted, first⟩ => ⟨first, ends, count.mpr counted⟩

/-! ### Steps -/

variable {g g' : Generator} {owner : U54}

theorem firstNonzero_singleton (a : Word) : firstNonzero [a] = a := by
  rw [firstNonzero]
  split
  · next zero => exact zero.symm
  · rfl

theorem firstNonzero_two (a b : Word) : firstNonzero [a, b] = if a = 0 then b else a := by
  rw [firstNonzero, firstNonzero_singleton]

theorem firstNonzero_three (a b c : Word) :
    firstNonzero [firstNonzero [a, b], c] = firstNonzero [a, b, c] := by
  rw [firstNonzero_two, firstNonzero_two, firstNonzero, firstNonzero_two]
  by_cases zero : a = 0
  · rw [if_pos zero, if_pos zero]
  · rw [if_neg zero, if_neg zero, if_neg zero]

theorem setFirstChunk_eq (g : Generator) (owner : U54) (count : Word) :
    g.setFirstChunk owner count = g.setHart owner { g.hart owner with
      firstChunk := firstNonzero [(g.hart owner).firstChunk, count] } := by
  rw [setFirstChunk, firstNonzero_two]
  by_cases unset : (g.hart owner).firstChunk = 0
  · rw [if_pos unset, if_pos unset]
  · rw [if_neg unset, if_neg unset, setHart]
    show g = { g with hart := Function.update g.hart owner (g.hart owner) }
    rw [Function.update_eq_self]

/-- A payload changes what the header says of its owner, and the table for its owner. -/
theorem right_iff_owner (right : g.Right) (g' : Generator) {new : List PayloadChunk} {header : HartChunks}
    (table : g'.chunkTable = g.chunkTable ++ new)
    (owned : ∀ c ∈ new, c.owner = BitVec.ofNat 32 owner.num ∨
      c.owner = BitVec.ofNat 32 owner.num ||| bootFlagAncilliaryData)
    (hart : g'.hart = Function.update g.hart owner header) :
    g'.Right ↔ header.Describes
      (ownedPlaces g.chunkTable owner ++ newPlaces g.chunkTable new.length) := by
  rw [Right, table, hart]
  constructor
  · intro all
    have one := all owner
    rwa [Function.update_self, ownedPlaces_new owned, if_pos rfl] at one
  · intro describes u
    rw [ownedPlaces_new owned]
    by_cases same : owner = u
    · subst same
      rwa [Function.update_self, if_pos rfl]
    · rw [Function.update_of_ne (Ne.symm same), if_neg same]
      exact right u

/-- An ELF file leaves the header right just under its condition. -/
theorem right_elf_iff {payload : Payload} {file : ElfFile} (right : g.Right)
    (isElf : payload.file = .elf file) (added : addPayload g payload = .ok g') :
    g'.Right ↔ g.Meets payload := by
  obtain ⟨u, sections, done⟩ := addPayload_elf isElf added
  rw [setFirstChunk_eq] at sections
  obtain ⟨new, table, owned, length⟩ := sections.chunks
  -- without data there is no chunk
  have no_chunk : ¬file.loaded.any ElfSection.hasData = true → new.length = 0 := by
    intro data
    rw [length, List.length_eq_zero_iff, List.filter_eq_nil_iff]
    exact fun s mem chunk => data (List.any_eq_true.mpr ⟨s, mem, hasData_of_isChunk chunk⟩)
  have counter : u.elfNumChunks = (if file.loaded.any ElfSection.hasData then g.numChunks
      else g.elfNumChunks) + BitVec.ofNat 64 new.length := by
    rw [sections.elfNumChunks]
    by_cases data : file.loaded.any ElfSection.hasData = true
    · rw [if_pos data, if_pos data, numChunks, table, List.length_append, BitVec.ofNat_add]
      rfl
    · rw [if_neg data, if_neg data, no_chunk data, BitVec.add_zero]
      rfl
  have started : u.hart = Function.update g.hart payload.owner { g.hart payload.owner with
      firstChunk := firstNonzero [(g.hart payload.owner).firstChunk, g.elfNumChunks] } := sections.hart
  have self := congrFun started payload.owner
  rw [Function.update_self] at self
  have table' : g'.chunkTable = g.chunkTable ++ new := by
    rw [done]
    exact table
  have hart : g'.hart = Function.update g.hart payload.owner
      ⟨u.elfNumChunks - 1 - firstNonzero [(g.hart payload.owner).firstChunk, g.elfNumChunks] + 1,
        firstNonzero [(g.hart payload.owner).firstChunk, g.elfNumChunks], u.elfNumChunks - 1⟩ := by
    rw [done]
    show Function.update u.hart payload.owner _ = _
    rw [self, started, Function.update_idem]
  have counted : new.length ≠ 0 → (if file.loaded.any ElfSection.hasData then g.numChunks
      else g.elfNumChunks) = BitVec.ofNat 64 g.chunkTable.length := by
    intro some
    have data : file.loaded.any ElfSection.hasData = true := by
      by_contra data
      exact some (no_chunk data)
    rw [if_pos data]
    rfl
  have none_iff : new.length = 0 ↔ file.loaded.filter ElfSection.isChunk = [] := by
    rw [length, List.length_eq_zero_iff]
  rw [right_iff_owner right g' table' (fun c mem => .inl (owned c mem)) hart, counter,
    describes_elf_iff (right payload.owner) g.chunkTable new.length _ _ counted, Meets, isElf, none_iff]

/-- What the parts of a payload that is no ELF file add. -/
theorem addPayload_blob_ok {payload : Payload} {contents : Option Bytes}
    (isBlob : payload.file = .blob contents) (added : addPayload g payload = .ok g') :
    ∃ new parts, g'.chunkTable = g.chunkTable ++ new ∧
      (∀ c ∈ new, c.owner = BitVec.ofNat 32 payload.owner.num ∨
        c.owner = BitVec.ofNat 32 payload.owner.num ||| bootFlagAncilliaryData) ∧
      new.length ≤ parts ∧ 0 < parts ∧ parts ≤ 2 ∧
      (new.length = parts ↔ ∀ part ∈ blobParts contents payload, part ≠ some []) ∧
      g'.hart = Function.update g.hart payload.owner
        ⟨(g.hart payload.owner).numChunks + BitVec.ofNat 64 parts,
          firstNonzero [(g.hart payload.owner).firstChunk, g.elfNumChunks, g.blobNumChunks],
          BitVec.ofNat 64 (g.chunkTable.length + new.length) - 1⟩ := by
  obtain ⟨u, first, rest⟩ := addPayload_blob isBlob added
  rw [setFirstChunk_eq, setFirstChunk_eq] at first
  obtain ⟨data, new, rfl, table, owned, length, -, hart⟩ := blobPart_ok first
  simp only [setHart, Function.update_self, Function.update_idem, firstNonzero_three] at table hart
  have size : (if data = [] then 0 else 1) ≤ 1 := by split <;> omega
  rcases rest with ⟨absent, rfl⟩ | ⟨part, execAddr, present, second⟩
  · refine ⟨new, 1, table, fun c mem => .inl ?_, by omega, by decide, by decide, ?_, ?_⟩
    · rw [owned c mem]
      simp
    · rw [length, blobParts, absent]
      by_cases empty : data = []
      · simp [empty]
      · simp [empty]
    · rw [hart, numChunks, table, List.length_append]
      rfl
  · obtain ⟨data', new', rfl, table', owned', length', -, hart'⟩ := blobPart_ok second
    have size' : (if data' = [] then 0 else 1) ≤ 1 := by split <;> omega
    have total : (new ++ new').length = new.length + new'.length := List.length_append
    refine ⟨new ++ new', 2, ?_, fun c mem => ?_, by omega, by decide, by decide, ?_, ?_⟩
    · rw [table', table, List.append_assoc]
    · rcases List.mem_append.mp mem with mem | mem
      · left
        rw [owned c mem]
        simp
      · exact .inr (owned' c mem)
    · rw [total, length, length', blobParts, present]
      by_cases empty : data = []
      · by_cases empty' : data' = [] <;> simp [empty, empty']
      · by_cases empty' : data' = [] <;> simp [empty, empty']
    · have count : g'.numChunks = BitVec.ofNat 64 (g.chunkTable.length + (new ++ new').length) := by
        rw [numChunks, table', table, List.append_assoc, List.length_append]
      have parts : (g.hart payload.owner).numChunks + 1 + 1 =
          (g.hart payload.owner).numChunks + BitVec.ofNat 64 2 := by grind
      rw [hart', hart, Function.update_self, Function.update_idem, count, parts]

/-- A payload leaves the header right just under its condition. -/
theorem right_addPayload_iff {payload : Payload} (right : g.Right)
    (added : addPayload g payload = .ok g') : g'.Right ↔ g.Meets payload := by
  cases kind : payload.file with
  | missing =>
    rw [addPayload_missing kind] at added
    cases added
  | elf file => exact right_elf_iff right kind added
  | blob contents =>
    obtain ⟨new, parts, table, owned, le, positive, few, full, hart⟩ := addPayload_blob_ok kind added
    rw [right_iff_owner right g' table owned hart,
      describes_blob_iff (right payload.owner) g.chunkTable _ le positive few, full, Meets, kind]
    rfl

/-! ### Configurations -/

theorem right_start : start.Right := fun _ => describes_nil_iff.mpr rfl

theorem addPayloads_snoc (before : List Payload) (payload : Payload) :
    addPayloads (before ++ [payload]) = addPayloads before >>= fun g => addPayload g payload := by
  rw [addPayloads, List.foldlM_append]
  simp only [List.foldlM_cons, List.foldlM_nil, bind_pure]
  rfl

/-- The header stays right just under the conditions of the payloads. -/
theorem rightThroughout_iff (payloads : List Payload) :
    RightThroughout payloads ↔ MeetsThroughout payloads := by
  constructor
  · rintro right before payload rest split g reached ⟨g', added⟩
    have reached' : addPayloads (before ++ [payload]) = .ok g' := by
      rw [addPayloads_snoc, reached, ok_bind, added]
    have later : payloads = (before ++ [payload]) ++ rest := by rw [split, List.append_assoc]; rfl
    exact (right_addPayload_iff (right before _ split g reached) added).mp (right _ rest later g' reached')
  · intro meets before
    induction before using List.reverseRecOn with
    | nil =>
      intro rest split g reached
      cases reached
      exact right_start
    | append_singleton before payload ih =>
      intro rest split g' reached
      rw [List.append_assoc, List.singleton_append] at split
      rw [addPayloads_snoc] at reached
      obtain ⟨g, reached, added⟩ := bind_eq_ok.mp reached
      have condition := meets before payload rest split g reached ⟨g', added⟩
      exact (right_addPayload_iff (ih _ split g reached) added).mpr condition

/-- A binary file twice, for the first hart. -/
def blobTwice : List Payload := List.replicate 2 ⟨.u54_1, .blob (some [0x13]), 0x80000000, none⟩

/-- The second one takes the first chunk from the hart. -/
theorem blobTwice_wrong : ¬RightThroughout blobTwice := by
  intro right
  have final : (addPayloads blobTwice).toOption.any (fun g => (g.hart .u54_1).firstChunk = 1 ∧
      (ownedPlaces g.chunkTable .u54_1).head? = some 0) = true := by decide +kernel
  cases reached : addPayloads blobTwice with
  | error e =>
    rw [reached] at final
    cases final
  | ok g =>
    rw [reached] at final
    obtain ⟨stored, place⟩ := of_decide_eq_true final
    have firstChunk := (right blobTwice [] (List.append_nil _).symm g reached .u54_1).firstChunk 0 place
    rw [stored] at firstChunk
    exact absurd firstChunk (by decide)

end Generator

end Hss
