import Hss.Lib.Tour
import Hss.Types

/-! The scrubbing service: its handler reads the memories piece by piece, and goes round them without
leaving a word out.  In a build that scrubs the caches too, it also flushes them now and then. -/

namespace Hss

open Tour

/-! ### The handler -/

/-- An entry of `rams`: the linker aligns the ends of a region, which are in order. -/
structure Ram where
  baseAddr : Word
  endAddr : Word
  useAtomicOr : Bool
  base_aligned : 8 ∣ baseAddr.toNat
  end_aligned : 8 ∣ endAddr.toNat
  base_le : baseAddr.toNat ≤ endAddr.toNat

/-- The options of a build that scrubs the caches, with those of its design. -/
structure ScrubCaches where
  /-- `CONFIG_SERVICE_SCRUB_CACHES_TRIGGER_SETPOINT` -/
  triggerSetpoint : ℕ
  /-- `LIBERO_SETTING_WAY_ENABLE` -/
  wayEnable : Word
  /-- `LIBERO_SETTING_NUM_SCRATCH_PAD_WAYS` -/
  numScratchPadWays : Word

/-- The options of the service: a call scrubs a number of cache lines, which are of 64 bytes. -/
structure ScrubConfig where
  /-- `CONFIG_SERVICE_SCRUB_MAX_SIZE_PER_LOOP_ITER` -/
  maxSizePerLoopIter : Word
  budget_aligned : 64 ∣ maxSizePerLoopIter.toNat
  budget_pos : 0 < maxSizePerLoopIter.toNat
  /-- `CONFIG_SERVICE_SCRUB_RUN_EVERY_X_SUPERLOOPS`, which is 1 when it is not defined. -/
  runEveryXSuperloops : ℕ
  runEvery_pos : 0 < runEveryXSuperloops
  /-- The options that go with `CONFIG_SERVICE_SCRUB_CACHES`, if it is set. -/
  caches : Option ScrubCaches

/-- The variables of the handler for the memories. -/
structure Scrub where
  idx : ℕ
  offset : Word
  entryCount : ℕ

def Scrub.init : Scrub := ⟨0, 0, 0⟩

/-- A read of a word, as an atomic operation or not. -/
structure ScrubRead where
  addr : Word
  atomicOr : Bool
  deriving DecidableEq

/-- The reads of the loop over `pMem` from `start` on: one for each word that starts in the chunk. -/
def readWords (useAtomicOr : Bool) (start chunkSize : Word) : List ScrubRead :=
  (List.range ((chunkSize.toNat + 7) / 8)).map fun i => ⟨start + BitVec.ofNat 64 (8 * i), useAtomicOr⟩

section
variable (cfg : ScrubConfig) (rams : List Ram)

/-- The region to go on with: at the end of one it is the next, and after the last one the first. -/
def Scrub.settle (s : Scrub) : Scrub :=
  match rams[s.idx]? with
  | none => s
  | some ram =>
    if ram.baseAddr + s.offset ≥ ram.endAddr then
      { s with idx := (s.idx + 1) % rams.length, offset := 0 }
    else s

/-- The next chunk of the region. -/
def Scrub.chunk (s : Scrub) : List ScrubRead × Scrub :=
  match rams[s.idx]? with
  | none => ([], s)
  | some ram =>
    let length := ram.endAddr - ram.baseAddr
    if length ≠ 0 then
      let chunkSize :=
        if cfg.maxSizePerLoopIter < length - s.offset then cfg.maxSizePerLoopIter
        else length - s.offset
      (readWords ram.useAtomicOr (ram.baseAddr + s.offset) chunkSize,
        { s with offset := s.offset + chunkSize })
    else ([], s)

/-- The part of `scrub_scrubbing_handler` that scrubs memory, in a build that scrubs some, with what it
reads of the regions. -/
def scrubMemory (s : Scrub) : List ScrubRead × Scrub :=
  let (reads, s) := if s.entryCount = 0 then (s.settle rams).chunk cfg rams else ([], s)
  (reads, { s with entryCount := (s.entryCount + 1) % cfg.runEveryXSuperloops })

/-- The words of a region, in order. -/
def Ram.words (ram : Ram) : List ScrubRead :=
  readWords ram.useAtomicOr ram.baseAddr (ram.endAddr - ram.baseAddr)

/-- The words of all regions, in order. -/
def ramWords : List ScrubRead := rams.flatMap Ram.words

/-! ### What is left of a round -/

/-- The words after the offset, and those of the regions after the current one. -/
def Scrub.rest (s : Scrub) : List ScrubRead :=
  ((rams[s.idx]?).toList.flatMap Ram.words).drop (s.offset.toNat / 8) ++
    (rams.drop (s.idx + 1)).flatMap Ram.words

/-- The calls that do nothing before the next one that scrubs. -/
def Scrub.wait (s : Scrub) : ℕ := (cfg.runEveryXSuperloops - s.entryCount) % cfg.runEveryXSuperloops

/-- A bound on the calls until the round is done. -/
def Scrub.left (s : Scrub) : ℕ :=
  cfg.runEveryXSuperloops * ((s.rest rams).length + (rams.length - s.idx)) + s.wait cfg

/-- The variables point into a region of the table. -/
structure Scrub.At (s : Scrub) (ram : Ram) : Prop where
  current : rams[s.idx]? = some ram
  aligned : 8 ∣ s.offset.toNat
  offset_le : s.offset.toNat ≤ ram.endAddr.toNat - ram.baseAddr.toNat

/-- What holds between the calls. -/
structure Scrub.Good (s : Scrub) : Prop where
  inside : ∃ ram, s.At rams ram
  entryCount_lt : s.entryCount < cfg.runEveryXSuperloops

end

/-! ### Chunks of a region -/

theorem length_readWords (useAtomicOr : Bool) (start chunkSize : Word) :
    (readWords useAtomicOr start chunkSize).length = (chunkSize.toNat + 7) / 8 := by
  simp [readWords]

section
variable {cfg : ScrubConfig} {rams : List Ram} {ram : Ram} {s : Scrub}

theorem Ram.toNat_length (ram : Ram) :
    (ram.endAddr - ram.baseAddr).toNat = ram.endAddr.toNat - ram.baseAddr.toNat :=
  BitVec.toNat_sub_of_le (BitVec.le_def.mpr ram.base_le)

theorem Ram.length_words (ram : Ram) :
    ram.words.length = (ram.endAddr.toNat - ram.baseAddr.toNat) / 8 := by
  have base := ram.base_aligned
  have top := ram.end_aligned
  rw [words, length_readWords, ram.toNat_length]
  omega

/-- A chunk is the part of the region's words from the offset on. -/
theorem Ram.readWords_eq (ram : Ram) {offset chunkSize : Word} (aligned : 8 ∣ offset.toNat)
    (whole : 8 ∣ chunkSize.toNat)
    (inside : offset.toNat + chunkSize.toNat ≤ ram.endAddr.toNat - ram.baseAddr.toNat) :
    readWords ram.useAtomicOr (ram.baseAddr + offset) chunkSize =
      (ram.words.drop (offset.toNat / 8)).take (chunkSize.toNat / 8) := by
  have length := ram.length_words
  apply List.ext_getElem
  · rw [length_readWords, List.length_take, List.length_drop, length]
    omega
  · intro i less _
    rw [List.getElem_take, List.getElem_drop]
    simp only [words, readWords, List.getElem_map, List.getElem_range, ScrubRead.mk.injEq, and_true]
    rw [BitVec.add_assoc]
    congr 1
    apply BitVec.eq_of_toNat_eq
    rw [BitVec.toNat_add, BitVec.toNat_ofNat, BitVec.toNat_ofNat]
    omega

/-! ### Regions, one after another -/

theorem Scrub.At.idx_lt (inside : s.At rams ram) : s.idx < rams.length :=
  (List.getElem?_eq_some_iff.mp inside.current).1

theorem Scrub.At.rest_eq (inside : s.At rams ram) :
    s.rest rams = ram.words.drop (s.offset.toNat / 8) ++ (rams.drop (s.idx + 1)).flatMap Ram.words := by
  rw [rest, inside.current]
  simp

/-- At the start of a region, it and the regions after it are left. -/
theorem Scrub.At.rest_start (inside : s.At rams ram) (start : s.offset = 0) :
    s.rest rams = (rams.drop s.idx).flatMap Ram.words := by
  obtain ⟨less, same⟩ := List.getElem?_eq_some_iff.mp inside.current
  rw [inside.rest_eq, start, List.drop_eq_getElem_cons less, same, List.flatMap_cons]
  rfl

/-- At the end of a region, the regions after it are left. -/
theorem Scrub.At.rest_end (inside : s.At rams ram)
    (ended : s.offset.toNat = ram.endAddr.toNat - ram.baseAddr.toNat) :
    s.rest rams = (rams.drop (s.idx + 1)).flatMap Ram.words := by
  have all : ram.words.length ≤ s.offset.toNat / 8 := by
    rw [Ram.length_words, ended]
  rw [inside.rest_eq, List.drop_eq_nil_of_le all, List.nil_append]

theorem Scrub.At.toNat_addr (inside : s.At rams ram) :
    (ram.baseAddr + s.offset).toNat = ram.baseAddr.toNat + s.offset.toNat := by
  have bound := inside.offset_le
  have order := ram.base_le
  have top := ram.endAddr.isLt
  rw [BitVec.toNat_add]
  omega

theorem Scrub.At.settle_within (inside : s.At rams ram)
    (within : s.offset.toNat < ram.endAddr.toNat - ram.baseAddr.toNat) : s.settle rams = s := by
  have before : ¬ram.baseAddr + s.offset ≥ ram.endAddr := by
    rw [ge_iff_le, BitVec.le_def, inside.toNat_addr]
    omega
  rw [settle, inside.current]
  simp only [if_neg before]

theorem Scrub.At.settle_end (inside : s.At rams ram)
    (ended : s.offset.toNat = ram.endAddr.toNat - ram.baseAddr.toNat) :
    s.settle rams = { s with idx := (s.idx + 1) % rams.length, offset := 0 } := by
  have order := ram.base_le
  have after : ram.baseAddr + s.offset ≥ ram.endAddr := by
    rw [ge_iff_le, BitVec.le_def, inside.toNat_addr]
    omega
  rw [settle, inside.current]
  simp only [if_pos after]

/-- The start of a region. -/
theorem Scrub.at_start {rams : List Ram} {idx : ℕ} (less : idx < rams.length) (entryCount : ℕ) :
    ∃ ram, Scrub.At rams ⟨idx, 0, entryCount⟩ ram :=
  ⟨rams[idx], List.getElem?_eq_getElem less, by simp, by simp⟩

/-- What a chunk does: what is read comes first in what is left, and it is something unless the region is
done. -/
structure Scrub.ChunkRead (cfg : ScrubConfig) (rams : List Ram) (s : Scrub) (ram : Ram) : Prop where
  inside : (s.chunk cfg rams).2.At rams ram
  idx : (s.chunk cfg rams).2.idx = s.idx
  entryCount : (s.chunk cfg rams).2.entryCount = s.entryCount
  rest : s.rest rams = (s.chunk cfg rams).1 ++ (s.chunk cfg rams).2.rest rams
  reads : s.offset.toNat < ram.endAddr.toNat - ram.baseAddr.toNat → (s.chunk cfg rams).1 ≠ []

/-- The size of a chunk: all of the region that is left, or the budget, which is not zero. -/
theorem Scrub.At.exists_chunkSize (inside : s.At rams ram) (cfg : ScrubConfig)
    (some : ram.endAddr - ram.baseAddr ≠ 0) : ∃ chunkSize : Word,
    s.chunk cfg rams = (readWords ram.useAtomicOr (ram.baseAddr + s.offset) chunkSize,
      { s with offset := s.offset + chunkSize }) ∧
    (s.offset.toNat < ram.endAddr.toNat - ram.baseAddr.toNat → 0 < chunkSize.toNat) ∧
    8 ∣ chunkSize.toNat ∧
    s.offset.toNat + chunkSize.toNat ≤ ram.endAddr.toNat - ram.baseAddr.toNat := by
  have length := ram.toNat_length
  have bound := inside.offset_le
  have aligned := inside.aligned
  have base := ram.base_aligned
  have top := ram.end_aligned
  have part : (ram.endAddr - ram.baseAddr - s.offset).toNat =
      ram.endAddr.toNat - ram.baseAddr.toNat - s.offset.toNat := by
    rw [BitVec.toNat_sub_of_le (BitVec.le_def.mpr (by omega)), length]
  rw [chunk, inside.current]
  simp only [if_pos some]
  by_cases more : cfg.maxSizePerLoopIter < ram.endAddr - ram.baseAddr - s.offset
  · have budget := cfg.budget_aligned
    have positive := cfg.budget_pos
    rw [if_pos more]
    rw [BitVec.lt_def, part] at more
    exact ⟨_, rfl, fun _ => positive, by omega, by omega⟩
  · rw [if_neg more]
    exact ⟨_, rfl, by omega, by omega, by omega⟩

theorem Scrub.At.chunkRead (inside : s.At rams ram) (cfg : ScrubConfig) : s.ChunkRead cfg rams ram := by
  have length := ram.toNat_length
  by_cases empty : ram.endAddr - ram.baseAddr = 0
  · have none : ram.endAddr.toNat - ram.baseAddr.toNat = 0 := by
      rw [← length, empty]
      rfl
    have same : s.chunk cfg rams = ([], s) := by
      rw [chunk, inside.current]
      simp [empty]
    refine ⟨?_, ?_, ?_, ?_, fun less => absurd less (by omega)⟩ <;> rw [same]
    · exact inside
    · rfl
  · obtain ⟨chunkSize, same, positive, whole, fits⟩ := inside.exists_chunkSize cfg empty
    have offset : (s.offset + chunkSize).toNat = s.offset.toNat + chunkSize.toNat := by
      have top := ram.endAddr.isLt
      rw [BitVec.toNat_add]
      omega
    have at_next : Scrub.At rams { s with offset := s.offset + chunkSize } ram :=
      ⟨inside.current, offset ▸ Nat.dvd_add inside.aligned whole, offset ▸ fits⟩
    have split : (s.offset.toNat + chunkSize.toNat) / 8 = s.offset.toNat / 8 + chunkSize.toNat / 8 := by
      omega
    refine ⟨?_, ?_, ?_, ?_, fun less => ?_⟩ <;> rw [same]
    · exact at_next
    · rw [inside.rest_eq, at_next.rest_eq, ram.readWords_eq inside.aligned whole fits, offset, split,
        ← List.append_assoc, Nat.add_comm (_ / 8)]
      congr 1
      rw [Nat.add_comm, ← List.drop_drop]
      exact (List.take_append_drop ..).symm
    · apply List.ne_nil_of_length_pos
      have some := positive less
      rw [length_readWords]
      omega

/-- A step of the measure: something that weighs as much as all the waiting is gone. -/
theorem weigh_lt {weight a b wait wait' : ℕ} (less : b < a) (bound : wait' < weight) :
    weight * b + wait' < weight * a + wait := by
  have next : weight * (b + 1) ≤ weight * a := Nat.mul_le_mul_left weight less
  rw [Nat.mul_add] at next
  omega

theorem Scrub.wait_lt (cfg : ScrubConfig) (s : Scrub) : s.wait cfg < cfg.runEveryXSuperloops :=
  Nat.mod_lt _ cfg.runEvery_pos

/-- A call that only counts. -/
theorem Scrub.Good.counted (good : s.Good cfg rams) (waits : s.entryCount ≠ 0) :
    (scrubMemory cfg rams s).1 = [] ∧
      (scrubMemory cfg rams s).2.Good cfg rams ∧
      (scrubMemory cfg rams s).2.rest rams = s.rest rams ∧
      (scrubMemory cfg rams s).2.left cfg rams < s.left cfg rams := by
  have same : scrubMemory cfg rams s =
      ([], { s with entryCount := (s.entryCount + 1) % cfg.runEveryXSuperloops }) := by
    rw [scrubMemory, if_neg waits]
  have positive := cfg.runEvery_pos
  have bound := good.entryCount_lt
  have wait : Scrub.wait cfg { s with entryCount := (s.entryCount + 1) % cfg.runEveryXSuperloops } <
      s.wait cfg := by
    have now : s.wait cfg = cfg.runEveryXSuperloops - s.entryCount := Nat.mod_eq_of_lt (by omega)
    rw [now, Scrub.wait]
    by_cases last : s.entryCount + 1 = cfg.runEveryXSuperloops
    · simp only [last, Nat.mod_self, Nat.sub_zero]
      omega
    · have more : (s.entryCount + 1) % cfg.runEveryXSuperloops = s.entryCount + 1 :=
        Nat.mod_eq_of_lt (by omega)
      simp only [more]
      rw [Nat.mod_eq_of_lt (by omega)]
      omega
  rw [same]
  refine ⟨rfl, ⟨?_, Nat.mod_lt _ positive⟩, rfl, Nat.add_lt_add_left wait _⟩
  obtain ⟨ram, inside⟩ := good.inside
  exact ⟨ram, inside.current, inside.aligned, inside.offset_le⟩

/-- A call that scrubs, once it is known which region it goes on with. -/
theorem Scrub.At.scrubbed {t : Scrub} (inside : t.At rams ram) (cfg : ScrubConfig)
    (scrubs : s.entryCount = 0) (settled : s.settle rams = t) :
    (scrubMemory cfg rams s).2.Good cfg rams ∧
      t.rest rams =
        (scrubMemory cfg rams s).1 ++ (scrubMemory cfg rams s).2.rest rams ∧
      (scrubMemory cfg rams s).2.idx = t.idx ∧
      (t.offset.toNat < ram.endAddr.toNat - ram.baseAddr.toNat →
        (scrubMemory cfg rams s).1 ≠ []) := by
  have read := inside.chunkRead cfg
  have same : scrubMemory cfg rams s = ((t.chunk cfg rams).1,
      { (t.chunk cfg rams).2 with
        entryCount := ((t.chunk cfg rams).2.entryCount + 1) % cfg.runEveryXSuperloops }) := by
    rw [scrubMemory, if_pos scrubs, settled]
  rw [same]
  refine ⟨⟨⟨ram, read.inside.current, read.inside.aligned, read.inside.offset_le⟩,
    Nat.mod_lt _ cfg.runEvery_pos⟩, ?_, read.idx, read.reads⟩
  exact read.rest

/-- A call that scrubs. -/
theorem Scrub.Good.scrubs (good : s.Good cfg rams) (scrubs : s.entryCount = 0) :
    (scrubMemory cfg rams s).2.Good cfg rams ∧
      (s.rest rams = (scrubMemory cfg rams s).1 ++
          (scrubMemory cfg rams s).2.rest rams ∧
          (scrubMemory cfg rams s).2.left cfg rams < s.left cfg rams ∨
        s.rest rams = [] ∧ ramWords rams = (scrubMemory cfg rams s).1 ++
          (scrubMemory cfg rams s).2.rest rams) := by
  obtain ⟨ram, inside⟩ := good.inside
  have less := inside.idx_lt
  have wait := Scrub.wait_lt cfg (scrubMemory cfg rams s).2
  rcases Nat.lt_or_eq_of_le inside.offset_le with within | ended
  · obtain ⟨good', rest, idx, reads⟩ :=
      inside.scrubbed cfg scrubs (inside.settle_within within)
    refine ⟨good', .inl ⟨rest, weigh_lt ?_ wait⟩⟩
    -- words of the region were read
    have some := List.length_pos_of_ne_nil (reads within)
    rw [rest, List.length_append, idx]
    omega
  · have settled := inside.settle_end ended
    by_cases last : s.idx + 1 = rams.length
    · -- the round starts again
      have less_first : 0 < rams.length := by omega
      rw [last, Nat.mod_self] at settled
      obtain ⟨first, inside'⟩ := Scrub.at_start less_first s.entryCount
      obtain ⟨good', rest, -, -⟩ := inside'.scrubbed cfg scrubs settled
      refine ⟨good', .inr ⟨?_, ?_⟩⟩
      · rw [inside.rest_end ended, last, List.drop_length]
        rfl
      · rw [← rest, inside'.rest_start rfl]
        rfl
    · -- the next region is gone on with
      have less_next : s.idx + 1 < rams.length := by omega
      rw [Nat.mod_eq_of_lt less_next] at settled
      obtain ⟨next, inside'⟩ := Scrub.at_start less_next s.entryCount
      obtain ⟨good', rest, idx, -⟩ := inside'.scrubbed cfg scrubs settled
      have same : s.rest rams = (scrubMemory cfg rams s).1 ++
          (scrubMemory cfg rams s).2.rest rams := by
        rw [← rest, inside.rest_end ended, inside'.rest_start rfl]
      refine ⟨good', .inl ⟨same, weigh_lt ?_ wait⟩⟩
      rw [same, List.length_append, idx]
      dsimp only
      omega

/-- The handler goes round the words of the regions. -/
theorem scrub_tours (cfg : ScrubConfig) (rams : List Ram) :
    Tours (ramWords rams) (scrubMemory cfg rams) (Scrub.Good cfg rams) (Scrub.rest rams)
      (Scrub.left cfg rams) where
  good_step s good := by
    by_cases scrubs : s.entryCount = 0
    · exact (good.scrubs scrubs).1
    · exact (good.counted scrubs).2.1
  next s good := by
    by_cases scrubs : s.entryCount = 0
    · exact (good.scrubs scrubs).2
    · obtain ⟨nothing, -, rest, less⟩ := good.counted scrubs
      exact .inl ⟨by rw [nothing, rest, List.nil_append], less⟩

end

/-! ### The caches -/

/-- The variables of the handler for the caches, and the register `WAY_MASK_E51_DCACHE`. -/
structure CacheScrub where
  triggerCacheFlush : ℕ
  lastPeer : U54
  wayMaskE51Dcache : Word

/-- What the handler does: it reads a word of a region or anything else, runs `fence.i`, sends
`IPI_MSG_SCRUB`, or sets the mask of ways. -/
inductive ScrubEvent
  | ram (read : ScrubRead)
  | device (addr : Word)
  | fenceI
  | ipiSend (peer : U54)
  | setWayMask (mask : Word)

namespace ScrubEvent

def ram? : ScrubEvent → Option ScrubRead
  | .ram read => some read
  | _ => none

def device? : ScrubEvent → Option Word
  | .device addr => some addr
  | _ => none

/-- The address of a read. -/
def addr? : ScrubEvent → Option Word
  | .ram read => some read.addr
  | .device addr => some addr
  | _ => none

end ScrubEvent

/-- `last_peer++`, which is none from `HSS_HART_NUM_PEERS` on. -/
def U54.nextPeer : U54 → Option U54
  | .u54_1 => some .u54_2
  | .u54_2 => some .u54_3
  | .u54_3 => some .u54_4
  | .u54_4 => none

/-- `&CACHE_CTRL->WAY_MASK_E51_DCACHE` -/
def wayMaskE51DcacheAddr : Word := 0x02010828

/-- `ZERO_DEVICE_BOTTOM` -/
def zeroDeviceBottom : Word := 0x0A000000

/-- The words of the zero device that are read for a way: 128 KiB. -/
def zeroDeviceWords : List Word :=
  (List.range (128 * 1024 / 8)).map fun i => zeroDeviceBottom + BitVec.ofNat 64 (8 * i)

/-- One turn of the loop over the ways. -/
def flushWay (wayMaskN : ℕ) : List ScrubEvent :=
  .setWayMask (1 <<< wayMaskN) :: zeroDeviceWords.map .device

namespace ScrubCaches

variable (opts : ScrubCaches)

/-- `l2_cache_ways`, an `unsigned int` -/
def l2CacheWays : ℕ := ((opts.wayEnable - opts.numScratchPadWays + 1).setWidth 32).toNat

/-- `e51_dcache_config`, an `unsigned char`: what the register is restored from -/
def e51DcacheConfig (mask : Word) : Word := (mask.setWidth 8).setWidth 64

/-- The flush of the L2 cache, way by way. -/
def flushL2 (mask : Word) : List ScrubEvent :=
  .device wayMaskE51DcacheAddr :: (List.range opts.l2CacheWays).flatMap flushWay ++
    [.setWayMask (e51DcacheConfig mask)]

/-- The part of `scrub_scrubbing_handler` that scrubs the caches. -/
def scrub (c : CacheScrub) : List ScrubEvent × CacheScrub :=
  if c.triggerCacheFlush > opts.triggerSetpoint then
    let sent : List ScrubEvent := [.fenceI, .ipiSend c.lastPeer]
    match c.lastPeer.nextPeer with
    | some peer => (sent, { c with triggerCacheFlush := 0, lastPeer := peer })
    | none =>
        (sent ++ opts.flushL2 c.wayMaskE51Dcache,
          ⟨0, .u54_1, e51DcacheConfig c.wayMaskE51Dcache⟩)
  else ([], { c with triggerCacheFlush := c.triggerCacheFlush + 1 })

/-- What a flush reads: the register and, for each way, the words of the zero device. -/
def flushReads : List Word := wayMaskE51DcacheAddr :: rounds zeroDeviceWords opts.l2CacheWays

/-- The calls from one flush to the next: the set point is passed once for each of the peers. -/
def flushPeriod : ℕ := 4 * (opts.triggerSetpoint + 2)

/-- The calls since the last flush. -/
def phase (c : CacheScrub) : ℕ :=
  (c.lastPeer.num - 1) * (opts.triggerSetpoint + 2) + c.triggerCacheFlush

/-- What the caches' half reads, with the state after it. -/
def reads (c : CacheScrub) : List Word × CacheScrub :=
  ((opts.scrub c).1.filterMap ScrubEvent.device?, (opts.scrub c).2)

variable {opts}

theorem device_flushWays (n : ℕ) :
    ((List.range n).flatMap flushWay).filterMap ScrubEvent.device? = rounds zeroDeviceWords n := by
  induction n with
  | zero => rfl
  | succ n ih =>
    have all : (zeroDeviceWords.map ScrubEvent.device).filterMap ScrubEvent.device? = zeroDeviceWords := by
      rw [List.filterMap_map]
      exact List.filterMap_some
    rw [List.range_succ, List.flatMap_append, List.filterMap_append, ih, rounds_succ',
      List.flatMap_singleton, flushWay, List.filterMap_cons_none rfl, all]

theorem device_flushL2 (mask : Word) :
    (opts.flushL2 mask).filterMap ScrubEvent.device? = opts.flushReads := by
  simp [flushL2, flushReads, ScrubEvent.device?, ← device_flushWays]

/-- A flush ends each period, and nothing else is read. -/
theorem ticks (opts : ScrubCaches) : Ticks opts.flushReads opts.reads
    (fun c => c.triggerCacheFlush ≤ opts.triggerSetpoint + 1) opts.phase opts.flushPeriod where
  good_step c good := by
    by_cases due : c.triggerCacheFlush > opts.triggerSetpoint
    · cases peer : c.lastPeer.nextPeer <;> simp [reads, scrub, due, peer]
    · simp only [reads, scrub, if_neg due]
      omega
  next c good := by
    obtain ⟨trigger, peer, mask⟩ := c
    by_cases due : trigger > opts.triggerSetpoint
    · obtain rfl : trigger = opts.triggerSetpoint + 1 := Nat.le_antisymm good due
      cases peer with
      | u54_4 =>
        refine .inr ⟨?_, ?_, ?_⟩
        · simp only [phase, flushPeriod, U54.num]
          omega
        · simp only [reads, scrub, if_pos due, U54.nextPeer, List.filterMap_append, device_flushL2]
          rfl
        · simp [reads, scrub, U54.nextPeer, phase, U54.num]
      | _ =>
        refine .inl ⟨?_, ?_, ?_⟩
        · simp only [phase, flushPeriod, U54.num]
          omega
        · simp only [reads, scrub, if_pos due, U54.nextPeer]
          rfl
        · simp only [reads, scrub, if_pos due, U54.nextPeer, phase, U54.num]
          omega
    · refine .inl ⟨?_, ?_, ?_⟩
      · have three : (peer.num - 1) * (opts.triggerSetpoint + 2) ≤ 3 * (opts.triggerSetpoint + 2) :=
          Nat.mul_le_mul_right _ (by have := peer.num_le; omega)
        simp only [phase, flushPeriod]
        omega
      · simp only [reads, scrub, if_neg due]
        rfl
      · simp only [reads, scrub, if_neg due, phase]
        omega

end ScrubCaches

/-! ### The whole handler -/

/-- The variables of the handler. -/
structure ScrubState where
  memory : Scrub
  caches : CacheScrub

/-- The caches' part, in a build that has it. -/
def scrubCaches (cfg : ScrubConfig) (c : CacheScrub) : List ScrubEvent × CacheScrub :=
  match cfg.caches with
  | none => ([], c)
  | some opts => opts.scrub c

/-- `scrub_scrubbing_handler` -/
def scrubScrubbingHandler (cfg : ScrubConfig) (rams : List Ram) (s : ScrubState) :
    List ScrubEvent × ScrubState :=
  let (reads, memory) := scrubMemory cfg rams s.memory
  let (events, caches) := scrubCaches cfg s.caches
  (reads.map .ram ++ events, ⟨memory, caches⟩)

/-- What so many calls of the handler do. -/
def scrubEvents (cfg : ScrubConfig) (rams : List Ram) (mask : Word) (calls : ℕ) : List ScrubEvent :=
  (outputs (scrubScrubbingHandler cfg rams) calls ⟨.init, 0, .u54_1, mask⟩).1

/-- What they read of the regions. -/
def scrubReads (cfg : ScrubConfig) (rams : List Ram) (mask : Word) (calls : ℕ) : List ScrubRead :=
  (scrubEvents cfg rams mask calls).filterMap ScrubEvent.ram?

/-- What they read besides. -/
def scrubDeviceReads (cfg : ScrubConfig) (rams : List Ram) (mask : Word) (calls : ℕ) : List Word :=
  (scrubEvents cfg rams mask calls).filterMap ScrubEvent.device?

section
variable {cfg : ScrubConfig} {rams : List Ram} {mask : Word}

theorem ScrubCaches.ram_scrub (opts : ScrubCaches) (c : CacheScrub) :
    (opts.scrub c).1.filterMap ScrubEvent.ram? = [] := by
  have way : ∀ n, ∀ event ∈ flushWay n, event.ram? = none := by
    intro n event member
    rcases List.mem_cons.mp member with rfl | word
    · rfl
    · obtain ⟨addr, -, rfl⟩ := List.mem_map.mp word
      rfl
  unfold scrub
  split
  · cases c.lastPeer.nextPeer with
    | some peer => rfl
    | none =>
      rw [List.filterMap_eq_nil_iff]
      intro event member
      simp only [flushL2, List.mem_append, List.mem_cons, List.mem_flatMap, List.not_mem_nil,
        or_false] at member
      rcases member with (rfl | rfl) | (rfl | ⟨n, -, member⟩) | rfl
      · rfl
      · rfl
      · rfl
      · exact way n event member
      · rfl
  · rfl

theorem scrubCaches_ram (c : CacheScrub) : (scrubCaches cfg c).1.filterMap ScrubEvent.ram? = [] := by
  unfold scrubCaches
  cases cfg.caches with
  | none => rfl
  | some opts => exact opts.ram_scrub c

/-- The reads of the regions are those of the memories' part. -/
theorem scrubReads_eq (calls : ℕ) :
    scrubReads cfg rams mask calls = (outputs (scrubMemory cfg rams) calls .init).1 := by
  refine outputs_part ScrubState.memory (fun s => ?_) (fun s => rfl) calls _
  rw [scrubScrubbingHandler, List.filterMap_append, scrubCaches_ram, List.append_nil, List.filterMap_map]
  exact List.filterMap_some

/-- The reads besides are those of the caches' part. -/
theorem scrubDeviceReads_eq (calls : ℕ) : scrubDeviceReads cfg rams mask calls =
    (outputs (fun c => ((scrubCaches cfg c).1.filterMap ScrubEvent.device?, (scrubCaches cfg c).2)) calls
      ⟨0, .u54_1, mask⟩).1 := by
  refine outputs_part ScrubState.caches (fun s => ?_) (fun s => rfl) calls _
  have memory : ((scrubMemory cfg rams s.memory).1.map ScrubEvent.ram).filterMap ScrubEvent.device? =
      [] := by
    rw [List.filterMap_map]
    exact List.filterMap_none _
  rw [scrubScrubbingHandler, List.filterMap_append, memory, List.nil_append]

theorem scrubDeviceReads_none (unset : cfg.caches = none) (calls : ℕ) :
    scrubDeviceReads cfg rams mask calls = [] := by
  rw [scrubDeviceReads_eq]
  simp only [scrubCaches, unset]
  generalize (⟨0, .u54_1, mask⟩ : CacheScrub) = c
  induction calls with
  | zero => rfl
  | succ n ih => exact ih

/-- One flush for each period that is over. -/
theorem scrubDeviceReads_some {opts : ScrubCaches} (set : cfg.caches = some opts) (calls : ℕ) :
    scrubDeviceReads cfg rams mask calls = rounds opts.flushReads (calls / opts.flushPeriod) := by
  rw [scrubDeviceReads_eq]
  simp only [scrubCaches, set]
  have start : opts.phase ⟨0, .u54_1, mask⟩ = 0 := by simp [ScrubCaches.phase, U54.num]
  have periods := opts.ticks.outputs_eq (s := ⟨0, .u54_1, mask⟩) (Nat.zero_le _) calls
    (by rw [start]; exact Nat.mul_pos (by decide) (Nat.succ_pos _))
  rw [start, Nat.zero_add] at periods
  exact periods

end

/-! ### Coverage -/

/-- A word of a region. -/
theorem Ram.mem_words {ram : Ram} {read : ScrubRead} (mem : read ∈ ram.words) :
    ram.baseAddr.toNat ≤ read.addr.toNat ∧ read.addr.toNat + 8 ≤ ram.endAddr.toNat ∧
      8 ∣ read.addr.toNat := by
  have base := ram.base_aligned
  have top := ram.end_aligned
  have order := ram.base_le
  have bound := ram.endAddr.isLt
  simp only [words, readWords, List.mem_map, List.mem_range, ram.toNat_length] at mem
  obtain ⟨i, less, rfl⟩ := mem
  rw [BitVec.toNat_add, BitVec.toNat_ofNat]
  omega

/-- An empty region and one of 24 words, of which a call scrubs 8. -/
def smallRams : List Ram :=
  [{ baseAddr := 0x08000000, endAddr := 0x08000000, useAtomicOr := true, base_aligned := by decide,
     end_aligned := by decide, base_le := by decide },
    { baseAddr := 0x01000000, endAddr := 0x010000C0, useAtomicOr := false, base_aligned := by decide,
      end_aligned := by decide, base_le := by decide }]

/-- One line in every second call, and the caches with 8 ways. -/
def oneLine : ScrubConfig where
  maxSizePerLoopIter := 64
  budget_aligned := by decide
  budget_pos := by decide
  runEveryXSuperloops := 2
  runEvery_pos := by decide
  caches := some ⟨1000000, 7, 0⟩

theorem two_flushes : 9000000 / ScrubCaches.flushPeriod ⟨1000000, 7, 0⟩ = 2 := by
  simp [ScrubCaches.flushPeriod]

theorem mem_zeroDevice {n : ℕ} (some : 0 < n) : zeroDeviceBottom ∈ rounds zeroDeviceWords n := by
  obtain ⟨m, rfl⟩ := Nat.exists_eq_succ_of_ne_zero some.ne'
  rw [rounds_succ]
  exact List.mem_append_left _ (List.mem_map.mpr ⟨0, List.mem_range.mpr (by decide), rfl⟩)

end Hss
