import Hss.Lib.Runs
import Hss.Sgdma.Service
import Mathlib.Data.List.Pairwise

/-! Transfers of the scatter-gather DMA service: what a run of the machine from a request to its
return to the idle state leaves in memory. -/

namespace Hss

open ByteMemory Runs SlotTable

/-! ### Requests -/

namespace SgdmaBlockDesc

variable (b : SgdmaBlockDesc)

def source : Set Word := span b.srcPhysAddr b.size.toNat

def destination : Set Word := span b.destPhysAddr b.size.toNat

/-- The size of the first piece that is copied. -/
def headSize : ℕ := min b.size.toNat maxSgdmaSizePerLoopIter.toNat

/-- The block has a piece, or its pointers are pointers. -/
def Copyable : Prop := b.size = 0 → b.srcPhysAddr ≠ 0 ∧ b.destPhysAddr ≠ 0

instance : Decidable b.Copyable := inferInstanceAs (Decidable (_ → _))

end SgdmaBlockDesc

/-- The descriptors from `p` on: those of `blocks`, and one whose `ext` is clear. -/
def SgdmaListAt (mem : Mem) : Word → List SgdmaBlockDesc → Prop
  | p, [] => p ≠ 0 ∧ (sgdmaBlockDesc mem p).ext = false
  | p, b :: blocks => p ≠ 0 ∧ sgdmaBlockDesc mem p = b ∧ b.ext = true ∧
      SgdmaListAt mem (p + BitVec.ofNat 64 sizeOfSgdmaBlockDesc) blocks

/-- Every part of the block may be written and read by the hart of the transfer. -/
def Sgdma.Permits (s : Sgdma) (b : SgdmaBlockDesc) : Prop :=
  ∀ offset size : Word, offset.toNat + size.toNat ≤ b.size.toNat →
    hssPmpCheckWrite (s.pmpEntry s.activeHart) (b.destPhysAddr + offset) size = true ∧
      hssPmpCheckRead (s.pmpEntry s.activeHart) (b.srcPhysAddr + offset) size = true

/-- The machine was asked to transfer `blocks`: its handler of requests left it at their list, between
two blocks.  The regions of the transfer, which are those of the blocks and the list itself, do not
overlap. -/
structure SgdmaRequest (s : Sgdma) (blocks : List SgdmaBlockDesc) : Prop where
  transferring : s.sgdmaService.state = .transferring
  betweenBlocks : s.remainingInCurrentBlock = 0
  list : SgdmaListAt s.mem s.pBlockDesc blocks
  permitted : ∀ b ∈ blocks, s.Permits b
  disjoint : (blocks.flatMap fun b => [b.source, b.destination]).Pairwise Disjoint
  listDisjoint : ∀ b ∈ blocks,
    Disjoint (span s.pBlockDesc (sizeOfSgdmaBlockDesc * (blocks.length + 1))) b.destination

/-- Every block was copied, and nothing else changed. -/
structure SgdmaCopied (blocks : List SgdmaBlockDesc) (mem mem' : Mem) : Prop where
  copied : ∀ b ∈ blocks, ∀ i < b.size.toNat,
    mem' (b.destPhysAddr + BitVec.ofNat 64 i) = mem (b.srcPhysAddr + BitVec.ofNat 64 i)
  unchanged : ∀ a, (∀ b ∈ blocks, a ∉ b.destination) → mem' a = mem a

/-- A run of the machine while it is transferring. -/
def SgdmaRun (cfg : Config) : Sgdma → List (Word × Bool) → Sgdma → Prop :=
  Run (Under (fun s _ => s.sgdmaService.state = .transferring)
    fun s inputs t => runSgdmaService cfg s inputs = .ok t)

/-! ### Memory after the first pieces -/

/-- The memory after the first piece of each block was copied. -/
def copyHeads (mem : Mem) (blocks : List SgdmaBlockDesc) : Mem :=
  blocks.foldl (fun mem b => copy mem b.destPhysAddr b.srcPhysAddr b.headSize) mem

/-- The blocks do not overlap, as far as the copies are concerned. -/
structure SgdmaDisjoint (blocks : List SgdmaBlockDesc) : Prop where
  own : ∀ b ∈ blocks, Disjoint b.source b.destination
  others : blocks.Pairwise fun b c => Disjoint b.destination c.source ∧
    Disjoint c.destination b.source ∧ Disjoint b.destination c.destination

theorem SgdmaRequest.blocks_disjoint {s : Sgdma} {blocks : List SgdmaBlockDesc}
    (request : SgdmaRequest s blocks) : SgdmaDisjoint blocks := by
  obtain ⟨own, others⟩ := List.pairwise_flatMap.mp request.disjoint
  refine ⟨fun b hb => by simpa using own b hb, others.imp fun {b c} apart => ?_⟩
  exact ⟨apart _ (by simp) _ (by simp), (apart _ (by simp) _ (by simp)).symm,
    apart _ (by simp) _ (by simp)⟩

section
variable {mem : Mem} {blocks done : List SgdmaBlockDesc} {b : SgdmaBlockDesc} {a : Word}

theorem SgdmaBlockDesc.headSize_le : b.headSize ≤ b.size.toNat := Nat.min_le_left ..

theorem SgdmaBlockDesc.head_subset : span b.destPhysAddr b.headSize ⊆ b.destination :=
  span_mono b.headSize_le

@[simp] theorem copyHeads_snoc :
    copyHeads mem (done ++ [b]) =
      copy (copyHeads mem done) b.destPhysAddr b.srcPhysAddr b.headSize := by
  simp [copyHeads]

theorem copyHeads_of_notMem (outside : ∀ b ∈ blocks, a ∉ span b.destPhysAddr b.headSize) :
    copyHeads mem blocks a = mem a := by
  induction blocks generalizing mem with
  | nil => rfl
  | cons b blocks ih =>
    have rest := @ih (copy mem b.destPhysAddr b.srcPhysAddr b.headSize) fun c hc =>
      outside c (List.mem_cons_of_mem _ hc)
    exact rest.trans (copy_of_notMem (outside b (List.mem_cons_self ..)))

/-- A first piece that was copied has the bytes that its source had. -/
theorem copyHeads_of_mem (disjoint : SgdmaDisjoint blocks) (hb : b ∈ blocks)
    (ha : a ∈ span b.destPhysAddr b.headSize) :
    copyHeads mem blocks a = mem (b.srcPhysAddr + (a - b.destPhysAddr)) := by
  induction blocks generalizing mem with
  | nil => cases hb
  | cons c blocks ih =>
    obtain ⟨apart, others⟩ := List.pairwise_cons.mp disjoint.others
    change copyHeads (copy mem c.destPhysAddr c.srcPhysAddr c.headSize) blocks a = _
    rcases List.mem_cons.mp hb with rfl | later
    · rw [copyHeads_of_notMem fun c hc inside => ?_, copy_of_mem ha]
      exact Set.disjoint_left.mp (apart c hc).2.2 (b.head_subset ha) (c.head_subset inside)
    · rw [ih ⟨fun b hb => disjoint.own b (List.mem_cons_of_mem _ hb), others⟩ later]
      refine copy_of_notMem fun inside => ?_
      refine Set.disjoint_left.mp (apart b later).1 (c.head_subset inside) ?_
      have place : (b.srcPhysAddr + (a - b.destPhysAddr) - b.srcPhysAddr).toNat =
          (a - b.destPhysAddr).toNat := by
        congr 1
        abel
      rw [SgdmaBlockDesc.source, mem_span, place]
      exact Nat.lt_of_lt_of_le ha b.headSize_le

theorem SgdmaDisjoint.eq_of_mem (disjoint : SgdmaDisjoint blocks) {c : SgdmaBlockDesc}
    (hb : b ∈ blocks) (hc : c ∈ blocks) (inb : a ∈ b.destination) (inc : a ∈ c.destination) :
    b = c := by
  by_contra different
  have symmetric : Std.Symm fun b c : SgdmaBlockDesc => Disjoint b.destination c.destination :=
    ⟨fun _ _ apart => apart.symm⟩
  have apart := (disjoint.others.imp fun h => h.2.2).forall hb hc different
  exact Set.disjoint_left.mp apart inb inc

theorem sub_add_ofNat {base : Word} {i : ℕ} (small : i < 2 ^ 64) :
    (base + BitVec.ofNat 64 i - base).toNat = i := by
  rw [show base + BitVec.ofNat 64 i - base = BitVec.ofNat 64 i by abel, BitVec.toNat_ofNat]
  exact Nat.mod_eq_of_lt small

/-- The first pieces are the blocks exactly when what is left of each block was in place before. -/
theorem sgdmaCopied_copyHeads_iff (disjoint : SgdmaDisjoint blocks) :
    SgdmaCopied blocks mem (copyHeads mem blocks) ↔
      ∀ b ∈ blocks, ∀ i, maxSgdmaSizePerLoopIter.toNat ≤ i → i < b.size.toNat →
        mem (b.destPhysAddr + BitVec.ofNat 64 i) = mem (b.srcPhysAddr + BitVec.ofNat 64 i) := by
  have place : ∀ b : SgdmaBlockDesc, ∀ i < b.size.toNat, ∀ base : Word,
      (base + BitVec.ofNat 64 i - base).toNat = i := fun b i hi base =>
    sub_add_ofNat (Nat.lt_trans hi b.size.isLt)
  have tail : ∀ b ∈ blocks, ∀ i, maxSgdmaSizePerLoopIter.toNat ≤ i → i < b.size.toNat →
      copyHeads mem blocks (b.destPhysAddr + BitVec.ofNat 64 i) =
        mem (b.destPhysAddr + BitVec.ofNat 64 i) := by
    intro b hb i past hi
    refine copyHeads_of_notMem fun c hc inside => ?_
    have inb : b.destPhysAddr + BitVec.ofNat 64 i ∈ b.destination := add_mem_span hi
    rw [← disjoint.eq_of_mem hb hc inb (c.head_subset inside), mem_span, place b i hi] at inside
    exact absurd (Nat.lt_of_lt_of_le inside (Nat.min_le_right ..)) (Nat.not_lt.mpr past)
  constructor
  · intro done b hb i past hi
    rw [← tail b hb i past hi]
    exact done.copied b hb i hi
  · intro inPlace
    refine ⟨fun b hb i hi => ?_, fun a outside => ?_⟩
    · by_cases past : maxSgdmaSizePerLoopIter.toNat ≤ i
      · rw [tail b hb i past hi]
        exact inPlace b hb i past hi
      · have head : b.destPhysAddr + BitVec.ofNat 64 i ∈ span b.destPhysAddr b.headSize :=
          add_mem_span (Nat.lt_min.mpr ⟨hi, Nat.not_le.mp past⟩)
        rw [copyHeads_of_mem disjoint hb head]
        congr 1
        abel
    · exact copyHeads_of_notMem fun b hb inside => outside b hb (b.head_subset inside)

/-- A copy that was made is not undone by a copy of a part of it. -/
theorem copy_head_again (disjoint : Disjoint b.source b.destination) {n : ℕ}
    (part : n ≤ b.headSize) :
    copy (copy mem b.destPhysAddr b.srcPhysAddr b.headSize) b.destPhysAddr b.srcPhysAddr n =
      copy mem b.destPhysAddr b.srcPhysAddr b.headSize := by
  funext a
  by_cases inside : a ∈ span b.destPhysAddr n
  · have head := span_mono part inside
    have fromSource : b.srcPhysAddr + (a - b.destPhysAddr) ∈ b.source := by
      have place : b.srcPhysAddr + (a - b.destPhysAddr) - b.srcPhysAddr = a - b.destPhysAddr := by
        abel
      rw [SgdmaBlockDesc.source, mem_span, place]
      exact b.head_subset head
    rw [copy_of_mem inside, copy_of_mem head, copy_of_notMem fun h =>
      Set.disjoint_left.mp disjoint fromSource (b.head_subset h)]
  · exact copy_of_notMem inside

end

/-! ### One run of the machine -/

section
variable {s₀ s : Sgdma} {blocks done rest : List SgdmaBlockDesc} {b : SgdmaBlockDesc} {mem : Mem}
  {n : ℕ}

/-- The assertion against overlaps holds for parts of blocks that do not overlap. -/
theorem memcpyViaPdma_block (disjoint : Disjoint b.source b.destination) (positive : 0 < n)
    (part : n ≤ b.size.toNat) :
    memcpyViaPdma b.destPhysAddr b.srcPhysAddr n mem =
      .ok (copy mem b.destPhysAddr b.srcPhysAddr n) := by
  have inSource : ∀ {base a : Word}, a = base → a ∈ span base b.size.toNat := by
    rintro base a rfl
    rw [mem_span, BitVec.sub_self]
    exact Nat.lt_of_lt_of_le positive part
  have dest : ¬ (b.destPhysAddr - b.srcPhysAddr).toNat < b.size.toNat := fun inside =>
    Set.disjoint_left.mp disjoint (mem_span.mpr inside) (inSource rfl)
  have src : ¬ (b.srcPhysAddr - b.destPhysAddr).toNat < b.size.toNat := fun inside =>
    Set.disjoint_left.mp disjoint (inSource rfl) (mem_span.mpr inside)
  have apart : if b.srcPhysAddr < b.destPhysAddr
      then b.srcPhysAddr + BitVec.ofNat 64 n - 1 < b.destPhysAddr
      else b.destPhysAddr + BitVec.ofNat 64 n - 1 < b.srcPhysAddr := by
    rw [BitVec.toNat_sub] at dest src
    have bound := b.size.isLt
    have one : (1 : Word).toNat = 1 := rfl
    split <;> rename_i order <;>
      simp only [BitVec.lt_def, BitVec.toNat_sub, BitVec.toNat_add, BitVec.toNat_ofNat, one]
        at order ⊢ <;> omega
  rw [memcpyViaPdma, assert, if_pos apart]
  rfl

theorem memcpyViaPdma_empty : memcpyViaPdma b.destPhysAddr b.srcPhysAddr 0 mem =
    if b.srcPhysAddr ≠ 0 ∧ b.destPhysAddr ≠ 0 then .ok mem else .error .copyDisjoint := by
  have nothing : copy mem b.destPhysAddr b.srcPhysAddr 0 = mem :=
    funext fun a => copy_of_notMem (Nat.not_lt_zero _)
  have apart : (if b.srcPhysAddr < b.destPhysAddr
      then b.srcPhysAddr + BitVec.ofNat 64 0 - 1 < b.destPhysAddr
      else b.destPhysAddr + BitVec.ofNat 64 0 - 1 < b.srcPhysAddr) ↔
      b.srcPhysAddr ≠ 0 ∧ b.destPhysAddr ≠ 0 := by
    have one : (1 : Word).toNat = 1 := rfl
    have zero : (0 : Word).toNat = 0 := rfl
    rw [ne_eq, ne_eq, ← BitVec.toNat_inj, ← BitVec.toNat_inj]
    split <;> rename_i order <;>
      simp only [BitVec.lt_def, BitVec.toNat_sub, BitVec.toNat_add, BitVec.toNat_ofNat, one, zero]
        at order ⊢ <;> omega
  rw [memcpyViaPdma, assert]
  by_cases pointers : b.srcPhysAddr ≠ 0 ∧ b.destPhysAddr ≠ 0
  · rw [if_pos (apart.mpr pointers), if_pos pointers, nothing]
    rfl
  · rw [if_neg (mt apart.mp pointers), if_neg pointers]
    rfl

/-- What the handler does with a block. -/
def Sgdma.afterChunk (s : Sgdma) (b : SgdmaBlockDesc) : Sgdma :=
  let remaining := if s.remainingInCurrentBlock = 0 then b.size else s.remainingInCurrentBlock
  let chunkSize := s.chunkSize b.size
  { s with
    mem := copy s.mem b.destPhysAddr b.srcPhysAddr chunkSize.toNat
    remainingInCurrentBlock := remaining - chunkSize
    pBlockDesc := if remaining - chunkSize = 0 then
      s.pBlockDesc + BitVec.ofNat 64 sizeOfSgdmaBlockDesc else s.pBlockDesc }

theorem Sgdma.chunkSize_toNat (s : Sgdma) (size : Word) : (s.chunkSize size).toNat =
    min (if s.remainingInCurrentBlock = 0 then size else s.remainingInCurrentBlock).toNat
      maxSgdmaSizePerLoopIter.toNat := by
  rw [chunkSize]
  generalize (if s.remainingInCurrentBlock = 0 then size else s.remainingInCurrentBlock) = left
  split <;> rename_i order <;> rw [BitVec.lt_def] at order <;> omega

/-- The handler in front of a block. -/
theorem sgdmaTransferringHandler_block (pointer : s.pBlockDesc ≠ 0)
    (desc : sgdmaBlockDesc s.mem s.pBlockDesc = b) (ext : b.ext = true) (permitted : s.Permits b)
    (disjoint : Disjoint b.source b.destination) (inside : s.remainingInCurrentBlock ≤ b.size) :
    sgdmaTransferringHandler s =
      if b.Copyable then .ok (s.afterChunk b) else .error .copyDisjoint := by
  have size := s.chunkSize_toNat b.size
  have most : (if s.remainingInCurrentBlock = 0 then b.size
      else s.remainingInCurrentBlock).toNat ≤ b.size.toNat := by
    split
    · exact Nat.le_refl _
    · exact inside
  have part : (s.chunkSize b.size).toNat ≤ b.size.toNat := by omega
  have within : s.chunkSize b.size ≤
      (if s.remainingInCurrentBlock = 0 then b.size else s.remainingInCurrentBlock) := by
    rw [BitVec.le_def]
    omega
  have allowed := permitted 0 (s.chunkSize b.size) (by simpa using part)
  rw [show (0 : Word) = 0#64 from rfl, BitVec.add_zero, BitVec.add_zero] at allowed
  have copied : memcpyViaPdma b.destPhysAddr b.srcPhysAddr (s.chunkSize b.size).toNat s.mem =
      if b.Copyable then .ok (copy s.mem b.destPhysAddr b.srcPhysAddr (s.chunkSize b.size).toNat)
      else .error .copyDisjoint := by
    by_cases empty : b.size = 0
    · have none : (s.chunkSize b.size).toNat = 0 := by
        have zero : b.size.toNat = 0 := congrArg BitVec.toNat empty
        omega
      have nothing : copy s.mem b.destPhysAddr b.srcPhysAddr 0 = s.mem :=
        funext fun a => copy_of_notMem (Nat.not_lt_zero _)
      rw [none, memcpyViaPdma_empty, nothing]
      simp only [SgdmaBlockDesc.Copyable, empty, forall_const]
    · have some : 0 < (s.chunkSize b.size).toNat := by
        have positive : ∀ x : Word, x ≠ 0 → 0 < x.toNat := fun x hx =>
          Nat.pos_of_ne_zero fun h => hx (BitVec.eq_of_toNat_eq h)
        have most' : 0 < (if s.remainingInCurrentBlock = 0 then b.size
            else s.remainingInCurrentBlock).toNat := by
          split
          · exact positive _ empty
          · next left => exact positive _ left
        rw [size]
        exact Nat.lt_min.mpr ⟨most', by decide⟩
      have copyable : b.Copyable := fun h => absurd h empty
      rw [memcpyViaPdma_block disjoint some part, if_pos copyable]
  rw [sgdmaTransferringHandler, assert, if_pos pointer, ok_bind]
  simp only [desc, ext, allowed.1, allowed.2, Bool.and_self, if_true, copied, assert, within]
  split <;> rfl

/-! ### The list during a transfer -/

/-- A descriptor is read from its bytes. -/
theorem sgdmaBlockDesc_congr {mem mem' : Mem} {p : Word}
    (same : ∀ i < sizeOfSgdmaBlockDesc,
      mem (p + BitVec.ofNat 64 i) = mem' (p + BitVec.ofNat 64 i)) :
    sgdmaBlockDesc mem p = sgdmaBlockDesc mem' p := by
  have field : ∀ offset n, offset + n ≤ sizeOfSgdmaBlockDesc →
      loadLE mem (p + BitVec.ofNat 64 offset) n = loadLE mem' (p + BitVec.ofNat 64 offset) n := by
    intro offset n fits
    refine loadLE_congr fun i hi => ?_
    rw [BitVec.add_assoc, ← BitVec.ofNat_add]
    exact same _ (by omega)
  have source := field 0 8 (by decide)
  rw [show p + BitVec.ofNat 64 0 = p from BitVec.add_zero p] at source
  have destination := field 8 8 (by decide)
  have size := field 16 8 (by decide)
  have flags := field 24 4 (by decide)
  simp only [sgdmaBlockDesc, load64, load32, SgdmaBlockDesc.mk.injEq]
  exact ⟨congrArg _ source, congrArg _ destination, congrArg _ size,
    congrArg (fun x => (BitVec.ofNat 32 x).getLsbD 31) flags⟩

/-- The address of a descriptor of the list. -/
def descAddr (p : Word) (k : ℕ) : Word := p + BitVec.ofNat 64 (sizeOfSgdmaBlockDesc * k)

theorem descAddr_succ (p : Word) (k : ℕ) :
    descAddr p (k + 1) = descAddr p k + BitVec.ofNat 64 sizeOfSgdmaBlockDesc := by
  rw [descAddr, descAddr, Nat.mul_succ, BitVec.ofNat_add, BitVec.add_assoc]

theorem SgdmaListAt.drop {p : Word} (list : SgdmaListAt mem p (done ++ rest)) :
    SgdmaListAt mem (descAddr p done.length) rest := by
  induction done generalizing p with
  | nil => simpa [descAddr] using list
  | cons c done ih =>
    have next := ih list.2.2.2
    have shift : descAddr (p + BitVec.ofNat 64 sizeOfSgdmaBlockDesc) done.length =
        descAddr p (c :: done).length := by
      rw [List.length_cons, descAddr_succ, descAddr, descAddr]
      abel
    rwa [shift] at next

/-- The pieces that are copied are not in the list. -/
theorem SgdmaRequest.desc_kept (request : SgdmaRequest s₀ blocks) {copied : List SgdmaBlockDesc}
    (some : ∀ c ∈ copied, c ∈ blocks) {k : ℕ} (inList : k ≤ blocks.length) :
    sgdmaBlockDesc (copyHeads s₀.mem copied) (descAddr s₀.pBlockDesc k) =
      sgdmaBlockDesc s₀.mem (descAddr s₀.pBlockDesc k) := by
  refine sgdmaBlockDesc_congr fun i hi => ?_
  refine copyHeads_of_notMem fun c hc inside => ?_
  have within : descAddr s₀.pBlockDesc k + BitVec.ofNat 64 i ∈
      span s₀.pBlockDesc (sizeOfSgdmaBlockDesc * (blocks.length + 1)) := by
    rw [descAddr, BitVec.add_assoc, ← BitVec.ofNat_add]
    refine add_mem_span ?_
    rw [Nat.mul_succ]
    exact Nat.add_lt_add_of_le_of_lt (Nat.mul_le_mul_left _ inList) hi
  exact Set.disjoint_left.mp (request.listDisjoint c (some c hc)) within (c.head_subset inside)

/-! ### Progress -/

/-- The bytes of the blocks, and one run for each. -/
def sgdmaWork (blocks : List SgdmaBlockDesc) : ℕ := (blocks.map fun b => b.size.toNat + 1).sum

/-- The machine is at block number `k` of the request that `s₀` started. -/
structure SgdmaAt (s₀ : Sgdma) (k : ℕ) (s : Sgdma) : Prop where
  transferring : s.sgdmaService.state = .transferring
  pmpEntry : s.pmpEntry = s₀.pmpEntry
  activeHart : s.activeHart = s₀.activeHart
  pBlockDesc : s.pBlockDesc = descAddr s₀.pBlockDesc k

/-- How far a transfer is: between two blocks, or in a block whose first piece was copied.  `n` bounds
the runs that are left. -/
def SgdmaProgress (s₀ : Sgdma) (blocks : List SgdmaBlockDesc) (n : ℕ) (s : Sgdma) : Prop :=
  ∃ done rest, blocks = done ++ rest ∧ (∀ b ∈ done, b.Copyable) ∧ SgdmaAt s₀ done.length s ∧
    ((s.remainingInCurrentBlock = 0 ∧ s.mem = copyHeads s₀.mem done ∧ n = sgdmaWork rest + 1) ∨
      ∃ b later, rest = b :: later ∧ s.remainingInCurrentBlock ≠ 0 ∧
        s.remainingInCurrentBlock ≤ b.size ∧ s.mem = copyHeads s₀.mem (done ++ [b]) ∧
        n = s.remainingInCurrentBlock.toNat + sgdmaWork later + 1)

/-- The transfer that `s₀` started is over. -/
structure SgdmaFinished (s₀ : Sgdma) (blocks : List SgdmaBlockDesc) (s : Sgdma) : Prop where
  idle : s.sgdmaService.state = .idle
  betweenBlocks : s.remainingInCurrentBlock = 0
  copyable : ∀ b ∈ blocks, b.Copyable
  mem : s.mem = copyHeads s₀.mem blocks

/-- A piece of the block that the machine is at. -/
theorem SgdmaAt.chunk (place : SgdmaAt s₀ done.length s)
    (copyable : ∀ c ∈ done ++ [b], c.Copyable) (inside : s.remainingInCurrentBlock ≤ b.size)
    (copied : (s.afterChunk b).mem = copyHeads s₀.mem (done ++ [b])) :
    ∃ m < (if s.remainingInCurrentBlock = 0 then b.size.toNat + 1
        else s.remainingInCurrentBlock.toNat) + sgdmaWork rest + 1,
      SgdmaProgress s₀ (done ++ b :: rest) m (s.afterChunk b) := by
  have size := s.chunkSize_toNat b.size
  have left : (s.afterChunk b).remainingInCurrentBlock =
      (if s.remainingInCurrentBlock = 0 then b.size else s.remainingInCurrentBlock) -
        s.chunkSize b.size := rfl
  have most : (if s.remainingInCurrentBlock = 0 then b.size
      else s.remainingInCurrentBlock).toNat ≤ b.size.toNat := by
    split
    · exact Nat.le_refl _
    · exact inside
  have next : (s.afterChunk b).pBlockDesc = if (s.afterChunk b).remainingInCurrentBlock = 0 then
      s.pBlockDesc + BitVec.ofNat 64 sizeOfSgdmaBlockDesc else s.pBlockDesc := rfl
  have limit : maxSgdmaSizePerLoopIter.toNat = 4096 := rfl
  have less : (s.afterChunk b).remainingInCurrentBlock.toNat <
      if s.remainingInCurrentBlock = 0 then b.size.toNat + 1
        else s.remainingInCurrentBlock.toNat := by
    rw [left, BitVec.toNat_sub_of_le (by rw [BitVec.le_def]; omega), size, limit]
    split
    · omega
    · next positive =>
      have := Nat.pos_of_ne_zero fun h => positive (BitVec.eq_of_toNat_eq h)
      omega
  by_cases last : (s.afterChunk b).remainingInCurrentBlock = 0
  · refine ⟨sgdmaWork rest + 1, by omega, done ++ [b], rest, by simp, copyable,
      ⟨place.transferring, place.pmpEntry, place.activeHart, ?_⟩, .inl ⟨last, copied, rfl⟩⟩
    rw [next, if_pos last, place.pBlockDesc, List.length_append, List.length_singleton,
      descAddr_succ]
  · refine ⟨_, Nat.add_lt_add_right (Nat.add_lt_add_right less _) _, done, b :: rest, rfl,
      fun c hc => copyable c (List.mem_append_left _ hc),
      ⟨place.transferring, place.pmpEntry, place.activeHart, ?_⟩,
      .inr ⟨b, rest, rfl, last, ?_, copied, rfl⟩⟩
    · rw [next, if_neg last, place.pBlockDesc]
    · rw [left, BitVec.le_def, BitVec.toNat_sub_of_le (by rw [BitVec.le_def]; omega)]
      exact Nat.le_trans (Nat.sub_le _ _) most

/-- The handler at a block: it gets on with the transfer, or stops if the block cannot be copied. -/
theorem SgdmaAt.handler_block (request : SgdmaRequest s₀ (done ++ b :: rest))
    (copyable : ∀ c ∈ done, c.Copyable) (place : SgdmaAt s₀ done.length s)
    {copied : List SgdmaBlockDesc} (some : ∀ c ∈ copied, c ∈ done ++ b :: rest)
    (mem : s.mem = copyHeads s₀.mem copied) (inside : s.remainingInCurrentBlock ≤ b.size)
    (after : (s.afterChunk b).mem = copyHeads s₀.mem (done ++ [b])) :
    (∃ t, sgdmaTransferringHandler s = .ok t ∧
      ∃ m < (if s.remainingInCurrentBlock = 0 then b.size.toNat + 1
        else s.remainingInCurrentBlock.toNat) + sgdmaWork rest + 1,
      SgdmaProgress s₀ (done ++ b :: rest) m t) ∨
      ¬b.Copyable ∧ sgdmaTransferringHandler s = .error .copyDisjoint := by
  obtain ⟨pointer, desc, ext, -⟩ := request.list.drop
  have member : b ∈ done ++ b :: rest := List.mem_append_right _ (List.mem_cons_self ..)
  have inList : done.length ≤ (done ++ b :: rest).length := by
    rw [List.length_append]
    exact Nat.le_add_right ..
  have read : sgdmaBlockDesc s.mem s.pBlockDesc = b := by
    rw [mem, place.pBlockDesc, request.desc_kept some inList, desc]
  have permits : s.Permits b := by
    rw [Sgdma.Permits, place.pmpEntry, place.activeHart]
    exact request.permitted b member
  rw [sgdmaTransferringHandler_block (place.pBlockDesc ▸ pointer) read ext permits
    (request.blocks_disjoint.own b member) inside]
  by_cases holds : b.Copyable
  · rw [if_pos holds]
    refine .inl ⟨_, rfl, place.chunk (fun c hc => ?_) inside after⟩
    rcases List.mem_append.mp hc with before | last
    · exact copyable c before
    · rwa [List.mem_singleton.mp last]
  · rw [if_neg holds]
    exact .inr ⟨holds, rfl⟩

/-- The handler at the end of the list. -/
theorem SgdmaAt.handler_end (request : SgdmaRequest s₀ blocks)
    (copyable : ∀ b ∈ blocks, b.Copyable) (place : SgdmaAt s₀ blocks.length s)
    (between : s.remainingInCurrentBlock = 0) (mem : s.mem = copyHeads s₀.mem blocks) :
    ∃ t, sgdmaTransferringHandler s = .ok t ∧ SgdmaFinished s₀ blocks t := by
  have list := request.list
  rw [← List.append_nil blocks] at list
  obtain ⟨pointer, ext⟩ := list.drop
  have read : (sgdmaBlockDesc s.mem s.pBlockDesc).ext = false := by
    rw [mem, place.pBlockDesc, request.desc_kept (fun _ h => h) (Nat.le_refl _), ext]
  refine ⟨{ s with pBlockDesc := 0, activeHart := .e51 }.goto .idle, ?_,
    ⟨rfl, between, copyable, mem⟩⟩
  rw [sgdmaTransferringHandler, assert, if_pos (place.pBlockDesc ▸ pointer), ok_bind]
  simp only [read]
  rfl

/-- The handler during a transfer: it gets on with it, ends it, or stops at a block that cannot be
copied. -/
theorem SgdmaProgress.handler (request : SgdmaRequest s₀ blocks) (h : SgdmaProgress s₀ blocks n s) :
    (∃ t, sgdmaTransferringHandler s = .ok t ∧ ∃ m < n, SgdmaProgress s₀ blocks m t) ∨
      (∃ t, sgdmaTransferringHandler s = .ok t ∧ SgdmaFinished s₀ blocks t) ∨
      (∃ b ∈ blocks, ¬b.Copyable) ∧ sgdmaTransferringHandler s = .error .copyDisjoint := by
  obtain ⟨done, rest, rfl, copyable, place, state⟩ := h
  rcases state with ⟨between, mem, rfl⟩ | ⟨b, later, rfl, begun, inside, mem, rfl⟩
  · cases rest with
    | nil =>
      rw [List.append_nil] at request ⊢
      exact .inr (.inl (place.handler_end request copyable between mem))
    | cons b later =>
      have head : (s.chunkSize b.size).toNat = b.headSize := by
        rw [Sgdma.chunkSize_toNat, if_pos between]
        rfl
      have after : (s.afterChunk b).mem = copyHeads s₀.mem (done ++ [b]) := by
        rw [copyHeads_snoc, ← mem, Sgdma.afterChunk, head]
      rcases place.handler_block request copyable (fun c hc => List.mem_append_left _ hc) mem
        (by rw [between, BitVec.le_def]; exact Nat.zero_le _) after with goes | ⟨bad, stops⟩
      · rw [if_pos between] at goes
        obtain ⟨t, done, m, less, progress⟩ := goes
        refine .inl ⟨t, done, m, ?_, progress⟩
        simpa [sgdmaWork] using less
      · exact .inr (.inr ⟨⟨b, by simp, bad⟩, stops⟩)
  · have part : (s.chunkSize b.size).toNat ≤ b.headSize := by
      rw [Sgdma.chunkSize_toNat, if_neg begun, SgdmaBlockDesc.headSize]
      rw [BitVec.le_def] at inside
      omega
    have own := request.blocks_disjoint.own b (by simp)
    have after : (s.afterChunk b).mem = copyHeads s₀.mem (done ++ [b]) := by
      rw [Sgdma.afterChunk, mem, copyHeads_snoc]
      exact copy_head_again own part
    have some : ∀ c ∈ done ++ [b], c ∈ done ++ b :: later := fun c hc => by
      rcases List.mem_append.mp hc with before | last
      · exact List.mem_append_left _ before
      · rw [List.mem_singleton.mp last]
        simp
    rcases place.handler_block request copyable some mem inside after with goes | ⟨bad, stops⟩
    · rw [if_neg begun] at goes
      exact .inl goes
    · exact .inr (.inr ⟨⟨b, by simp, bad⟩, stops⟩)

theorem SgdmaProgress.setMachine (h : SgdmaProgress s₀ blocks n s)
    {machine : StateMachine SgdmaState} (same : machine.state = .transferring) :
    SgdmaProgress s₀ blocks n (s.setMachine machine) := by
  obtain ⟨done, rest, split, copyable, place, state⟩ := h
  exact ⟨done, rest, split, copyable,
    ⟨same, place.pmpEntry, place.activeHart, place.pBlockDesc⟩, state⟩

theorem SgdmaProgress.transferring (h : SgdmaProgress s₀ blocks n s) :
    s.sgdmaService.state = .transferring := by
  obtain ⟨_, _, _, _, place, _⟩ := h
  exact place.transferring

/-- A run of the machine during a transfer. -/
theorem SgdmaProgress.run {cfg : Config} {inputs : Word × Bool} (request : SgdmaRequest s₀ blocks)
    (h : SgdmaProgress s₀ blocks n s) :
    (∃ t, runSgdmaService cfg s inputs = .ok t ∧
      (SgdmaFinished s₀ blocks t ∨ ∃ m < n, SgdmaProgress s₀ blocks m t)) ∨
      (∃ b ∈ blocks, ¬b.Copyable) ∧ ∀ t, runSgdmaService cfg s inputs ≠ .ok t := by
  obtain ⟨machine, same, run⟩ := runSgdmaService_eq cfg s inputs
  rw [h.transferring] at same run
  change runSgdmaService cfg s inputs =
    (sgdmaTransferringHandler (s.setMachine machine)).map _ at run
  rw [run]
  rcases (h.setMachine same).handler request with ⟨t, done, m, less, progress⟩ |
    ⟨t, done, finished⟩ | ⟨bad, stops⟩
  · rw [done]
    exact .inl ⟨_, rfl, .inr ⟨m, less, progress.setMachine progress.transferring⟩⟩
  · rw [done]
    exact .inl ⟨_, rfl, .inl ⟨finished.idle, finished.betweenBlocks, finished.copyable,
      finished.mem⟩⟩
  · rw [stops]
    exact .inr ⟨bad, nofun⟩

end

/-! ### Whole transfers -/

section
variable {cfg : Config} {s t : Sgdma} {blocks : List SgdmaBlockDesc}

/-- The handler of requests starts the transfer between two blocks if the last one ended so, as every
transfer does (`SgdmaFinished.betweenBlocks`). -/
theorem hssSgdmaIpiHandler_starts {source : HartId} {transactionId : TxId}
    {immediateArg : BitVec 32} {extendedBuffer ancilliaryBuffer : Word} {result : StatusCode}
    (between : s.remainingInCurrentBlock = 0)
    (done : hssSgdmaIpiHandler transactionId source immediateArg extendedBuffer ancilliaryBuffer s =
      .ok (t, result)) :
    t.sgdmaService.state = .transferring ∧ t.remainingInCurrentBlock = 0 ∧
      t.pBlockDesc = extendedBuffer ∧ t.activeHart = source ∧ t.mem = s.mem := by
  simp only [hssSgdmaIpiHandler, bind_eq_ok] at done
  obtain ⟨-, -, -, -, done⟩ := done
  cases done
  exact ⟨rfl, between, rfl, rfl, rfl⟩

theorem SgdmaRequest.progress (request : SgdmaRequest s blocks) :
    SgdmaProgress s blocks (sgdmaWork blocks + 1) s :=
  ⟨[], blocks, rfl, nofun,
    ⟨request.transferring, rfl, rfl, by simp [descAddr]⟩, .inl ⟨request.betweenBlocks, rfl, rfl⟩⟩

/-- A run that leaves the transferring state ended the transfer. -/
theorem SgdmaRequest.finished (request : SgdmaRequest s blocks) {inputs : List (Word × Bool)}
    (run : SgdmaRun cfg s inputs t) (idle : t.sgdmaService.state = .idle) :
    SgdmaFinished s blocks t := by
  have along : SgdmaFinished s blocks t ∨ ∃ n, SgdmaProgress s blocks n t := by
    refine run.invariant (I := fun t => SgdmaFinished s blocks t ∨ ∃ n, SgdmaProgress s blocks n t)
      (.inr ⟨_, request.progress⟩) ?_
    rintro u inputs v (finished | ⟨n, progress⟩) ⟨transferring, step⟩
    · rw [finished.idle] at transferring
      cases transferring
    · rcases progress.run request with ⟨w, done, outcome⟩ | ⟨-, stops⟩
      · cases step.symm.trans done
        exact outcome.imp id fun ⟨m, _, progress⟩ => ⟨m, progress⟩
      · exact absurd step (stops v)
  rcases along with finished | ⟨n, progress⟩
  · exact finished
  · rw [progress.transferring] at idle
    cases idle

theorem SgdmaRequest.ends (request : SgdmaRequest s blocks) (copyable : ∀ b ∈ blocks, b.Copyable)
    (inputs : ℕ → Word × Bool) :
    ∃ n t, SgdmaRun cfg s ((List.range n).map inputs) t ∧ t.sgdmaService.state = .idle := by
  have reached : ∃ n t, SgdmaRun cfg s ((List.range n).map inputs) t ∧ SgdmaFinished s blocks t := by
    refine Run.reaches (I := SgdmaProgress s blocks) ?_ inputs request.progress
    intro n u inputs progress
    rcases progress.run request with ⟨v, done, outcome⟩ | ⟨⟨b, hb, bad⟩, -⟩
    · exact ⟨v, ⟨progress.transferring, done⟩, outcome⟩
    · exact absurd (copyable b hb) bad
  obtain ⟨n, t, run, finished⟩ := reached
  exact ⟨n, t, run, finished.idle⟩

/-- A transfer ends with every block copied, and nothing else changed, exactly when no block without
bytes has a null pointer and the bytes of each block past its first piece were in place before. -/
theorem sgdma_copies_iff (request : SgdmaRequest s blocks) :
    (∀ inputs : ℕ → Word × Bool, ∃ n t, SgdmaRun cfg s ((List.range n).map inputs) t ∧
      t.sgdmaService.state = .idle ∧ SgdmaCopied blocks s.mem t.mem) ↔
    ∀ b ∈ blocks, (b.size = 0 → b.srcPhysAddr ≠ 0 ∧ b.destPhysAddr ≠ 0) ∧
      ∀ i, maxSgdmaSizePerLoopIter.toNat ≤ i → i < b.size.toNat →
        s.mem (b.destPhysAddr + BitVec.ofNat 64 i) = s.mem (b.srcPhysAddr + BitVec.ofNat 64 i) := by
  have heads := @sgdmaCopied_copyHeads_iff s.mem _ request.blocks_disjoint
  constructor
  · intro copies b hb
    obtain ⟨n, t, run, idle, copied⟩ := copies fun _ => (0, false)
    have finished := request.finished run idle
    rw [finished.mem] at copied
    exact ⟨finished.copyable b hb, heads.mp copied b hb⟩
  · intro holds inputs
    obtain ⟨n, t, run, idle⟩ := request.ends (fun b hb => (holds b hb).1) inputs
    refine ⟨n, t, run, idle, ?_⟩
    rw [(request.finished run idle).mem]
    exact heads.mpr fun b hb => (holds b hb).2

end

/-! ### A block of more than one piece -/

/-- A list with one block of 5000 bytes, which are 1 at its source and 0 at its destination. -/
def longBlockMem : Mem := fun a =>
  if 0x10000 ≤ a ∧ a < 0x20000 then 1
  else if a = 0x1002 then 1
  else if a = 0x100A then 2
  else if a = 0x1010 then 0x88
  else if a = 0x1011 then 0x13
  else if a = 0x101B then 0x80
  else 0

def longBlock : SgdmaBlockDesc := ⟨0x10000, 0x20000, 5000, true⟩

/-- An entry that permits to read and write the low half of the positive addresses. -/
def openEntry : PmpEntry := ⟨0, 0x4000000000000000, .napot, true, true, false, false⟩

/-- The transfer of the block for a hart that may read and write it. -/
def longTransfer : Sgdma :=
  { Sgdma.powerOn longBlockMem fun _ _ => openEntry with
    sgdmaService := ⟨.transferring, some .idle, 1, 0⟩
    pBlockDesc := 0x1000
    activeHart := .u54 .u54_1 }

theorem disjoint_span {base base' : Word} {len len' : ℕ} (before : base.toNat + len ≤ base'.toNat)
    (fits : base'.toNat + len' ≤ 2 ^ 64) : Disjoint (span base len) (span base' len') := by
  refine Set.disjoint_left.mpr fun a inside inside' => ?_
  rw [mem_span, BitVec.toNat_sub] at inside inside'
  have := a.isLt
  omega

theorem openEntry_matches {start size : Word}
    (low : start.toNat + size.toNat < 0x4000000000000000) : openEntry.Matches start size = true := by
  have stop : (start + size).toNat = start.toNat + size.toNat := by
    rw [BitVec.toNat_add]
    exact Nat.mod_eq_of_lt (by omega)
  have zero : (0 : Word).toNat = 0 := rfl
  have top : ((0 : Word) + 0x4000000000000000).toNat = 0x4000000000000000 := rfl
  simp only [PmpEntry.Matches, openEntry, BitVec.sle, BitVec.slt, BitVec.toInt_eq_toNat_cond, stop,
    zero, top, Bool.and_eq_true, decide_eq_true_eq]
  refine ⟨⟨by decide, ?_⟩, ?_⟩ <;> omega

theorem longTransfer_permits : longTransfer.Permits longBlock := by
  intro offset size fits
  have bound : offset.toNat + size.toNat ≤ 5000 := fits
  have found : ∀ base : Word, base.toNat ≤ 0x20000 →
      firstBelow maxNumPmps (fun i => (longTransfer.pmpEntry longTransfer.activeHart i).Matches
        (base + offset) size) = some 0 := by
    intro base low
    refine firstBelow_eq_some.mpr ⟨by decide, ?_, nofun⟩
    have start : (base + offset).toNat = base.toNat + offset.toNat := by
      rw [BitVec.toNat_add]
      exact Nat.mod_eq_of_lt (by omega)
    exact openEntry_matches (by omega)
  have write := found longBlock.destPhysAddr (by decide)
  have read := found longBlock.srcPhysAddr (by decide)
  rw [hssPmpCheckWrite, hssPmpCheckRead, write, read]
  exact ⟨rfl, rfl⟩

theorem longTransfer_request : SgdmaRequest longTransfer [longBlock] where
  transferring := rfl
  betweenBlocks := rfl
  list := ⟨by decide, by decide +kernel, rfl, by decide, by decide +kernel⟩
  permitted := fun b hb => List.mem_singleton.mp hb ▸ longTransfer_permits
  disjoint := by
    simp only [List.flatMap_cons, List.flatMap_nil, List.append_nil, List.pairwise_cons,
      List.mem_singleton, forall_eq, List.Pairwise.nil, and_true, List.not_mem_nil, IsEmpty.forall_iff,
      implies_true]
    exact disjoint_span (by decide) (by decide)
  listDisjoint := fun b hb => by
    rw [List.mem_singleton.mp hb]
    exact disjoint_span (by decide) (by decide)

theorem sgdma_copies_iff_longBlock :
    (∀ inputs : ℕ → Word × Bool, ∃ n t,
      SgdmaRun .icicleKitEs longTransfer ((List.range n).map inputs) t ∧
      t.sgdmaService.state = .idle ∧ SgdmaCopied [longBlock] longTransfer.mem t.mem) ↔
    ∀ b ∈ [longBlock], (b.size = 0 → b.srcPhysAddr ≠ 0 ∧ b.destPhysAddr ≠ 0) ∧
      ∀ i, maxSgdmaSizePerLoopIter.toNat ≤ i → i < b.size.toNat →
        longTransfer.mem (b.destPhysAddr + BitVec.ofNat 64 i) =
          longTransfer.mem (b.srcPhysAddr + BitVec.ofNat 64 i) :=
  sgdma_copies_iff longTransfer_request

/-- The second piece of the block is a copy of the first one again: byte 4096 is not copied. -/
theorem sgdma_longBlock_not_copied :
    SgdmaRequest longTransfer [longBlock] ∧
      ∀ cfg inputs, ∃ n t, SgdmaRun cfg longTransfer ((List.range n).map inputs) t ∧
        t.sgdmaService.state = .idle ∧
        t.mem (0x20000 + 4096) ≠ longTransfer.mem (0x10000 + 4096) := by
  refine ⟨longTransfer_request, fun cfg inputs => ?_⟩
  have copyable : ∀ b ∈ [longBlock], b.Copyable := fun b hb => by
    rw [List.mem_singleton.mp hb]
    decide
  obtain ⟨n, t, run, idle⟩ := longTransfer_request.ends copyable inputs
  refine ⟨n, t, run, idle, ?_⟩
  rw [(longTransfer_request.finished run idle).mem]
  decide +kernel

end Hss
