import Hss.Lib.BlockStore
import Hss.Types

/-! The cached QSPI flash: blocks of the flash are read into a cache in memory when they are first
used, writes go to the cache, and a flush writes the dirty blocks back. -/

namespace Hss

open BlockStore

/-! ### The flash -/

/-- `struct FlashDescriptor`, an entry of `qspiFlashes` -/
structure FlashDescriptor where
  jedecId : BitVec 32
  pageSize : ℕ
  pagesPerBlock : ℕ
  blocksPerDie : ℕ
  pageSize_pos : 0 < pageSize
  pagesPerBlock_pos : 0 < pagesPerBlock

/-- The entry "Winbond W25N01GV". -/
def winbondW25n01gv : FlashDescriptor := ⟨0xEFAA21, 2048, 64, 1024, by decide, by decide⟩

/-- The entry "Micron N25Q256A", a flash without bad blocks. -/
def micronN25q256a : FlashDescriptor := ⟨0x20BA19, 256, 256, 512, by decide, by decide⟩

/-- `struct HSS_QSPI_Cache_Descriptor` -/
structure QspiCacheDescriptor where
  dirtyCache : Bool
  inCache : Bool
  deriving DecidableEq, Repr

/-- The flash and the data of the service.  `flash` is its main array and `badBlock` the markers of its
blocks. -/
structure Qspi where
  flash : ℕ → BitVec 8
  badBlock : ℕ → Bool
  desc : FlashDescriptor
  blockSize : ℕ
  blockCount : ℕ
  dieSize : ℕ
  numBadBlocks : ℕ
  pLogicalToPhysicalMap : ℕ → ℕ
  pLogicalBlockDesc : ℕ → QspiCacheDescriptor
  pCacheDataBuffer : ℕ → BitVec 8
  cacheDirtyFlag : Bool

namespace Qspi

def setDesc (s : Qspi) (p : ℕ) (desc : QspiCacheDescriptor) : Qspi :=
  { s with pLogicalBlockDesc := Function.update s.pLogicalBlockDesc p desc }

/-- The block `p` is in the cache, and its block in the cache is dirty. -/
def inCache (s : Qspi) (p : ℕ) : Bool := (s.pLogicalBlockDesc p).inCache
def dirty (s : Qspi) (p : ℕ) : Bool := (s.pLogicalBlockDesc p).dirtyCache

end Qspi

/-- `Flash_read`, without errors, into a buffer at `offset` -/
def flashRead (s : Qspi) (buf : ℕ → BitVec 8) (offset srcAddr len : ℕ) : ℕ → BitVec 8 :=
  copyRange buf s.flash offset srcAddr len

/-- `Flash_erase_block`, which refuses a bad block: whether it did.  Erased bytes are FFh. -/
def flashEraseBlock (blockIndex : ℕ) (s : Qspi) : Qspi × Bool :=
  if s.badBlock blockIndex then (s, true)
  else
    ({ s with flash := copyRange s.flash (fun _ => 0xFF) (blockIndex * s.blockSize) 0 s.blockSize },
      false)

/-- `Flash_program`, without errors: programming clears bits. -/
def flashProgram (buf : ℕ → BitVec 8) (addr len : ℕ) (s : Qspi) : Qspi :=
  { s with flash := copyRange s.flash (fun a => s.flash a &&& buf a) addr addr len }

/-- `Flash_scan_for_bad_blocks` -/
def flashScanForBadBlocks (s : Qspi) : List ℕ := (List.range s.desc.blocksPerDie).filter s.badBlock

/-! ### Logical and physical blocks -/

/-- One turn of the loop of `build_bad_block_map_`: the map, the rest of the bad blocks, and the next
logical block. -/
def mapBlock (state : (ℕ → ℕ) × List ℕ × ℕ) (physicalBlockIndex : ℕ) : (ℕ → ℕ) × List ℕ × ℕ :=
  let (map, badBlocks, logicalBlockIndex) := state
  if badBlocks.head? = some physicalBlockIndex then (map, badBlocks.tail, logicalBlockIndex)
  else (Function.update map logicalBlockIndex physicalBlockIndex, badBlocks, logicalBlockIndex + 1)

/-- `build_bad_block_map_` -/
def buildBadBlockMap (s : Qspi) : Qspi :=
  let badBlocks := flashScanForBadBlocks s
  { s with
    numBadBlocks := badBlocks.length
    pLogicalToPhysicalMap :=
      ((List.range s.blockCount).foldl mapBlock (s.pLogicalToPhysicalMap, badBlocks, 0)).1 }

/-- `column_to_block_` -/
def columnToBlock (s : Qspi) (columnAddr : ℕ) : ℕ := columnAddr / s.blockSize

/-- `logical_to_physical_block_`, which builds the map again if the entry is past the end. -/
def logicalToPhysicalBlock (logicalBlock : ℕ) (s : Qspi) : Qspi × ℕ :=
  if s.blockCount < s.pLogicalToPhysicalMap logicalBlock then
    let s := buildBadBlockMap s
    (s, s.pLogicalToPhysicalMap logicalBlock)
  else (s, s.pLogicalToPhysicalMap logicalBlock)

/-- `HSS_QSPIInit`, on a flash with this descriptor and a cache with any content. -/
def hssQspiInit (desc : FlashDescriptor) (flash : ℕ → BitVec 8) (badBlock : ℕ → Bool)
    (cache : ℕ → BitVec 8) : Qspi :=
  let pageSize := if 512 ≤ desc.pageSize then desc.pageSize else 512
  let s := buildBadBlockMap
    { flash := flash
      badBlock := badBlock
      desc := desc
      blockSize := pageSize * desc.pagesPerBlock
      blockCount := desc.blocksPerDie
      dieSize := pageSize * desc.pagesPerBlock * desc.blocksPerDie
      numBadBlocks := 0
      pLogicalToPhysicalMap := fun _ => 0
      pLogicalBlockDesc := fun _ => ⟨false, false⟩
      pCacheDataBuffer := cache
      cacheDirtyFlag := false }
  { s with
    blockCount := s.blockCount - s.numBadBlocks
    dieSize := s.blockSize * (s.blockCount - s.numBadBlocks) }

/-! ### The cache -/

/-- A block is read into the cache, unless it is there. -/
def fetchBlock (p : ℕ) (s : Qspi) : Qspi :=
  if s.inCache p then s
  else
    let cache := flashRead s s.pCacheDataBuffer (p * s.blockSize) (p * s.blockSize) s.blockSize
    { s with pCacheDataBuffer := cache }.setDesc p { s.pLogicalBlockDesc p with inCache := true }

/-- `pLogicalBlockDesc[p].dirtyCache = dirtyCache` -/
def Qspi.setDirty (p : ℕ) (dirtyCache : Bool) (s : Qspi) : Qspi :=
  s.setDesc p { s.pLogicalBlockDesc p with dirtyCache }

/-- One turn of the loop of `demandCopyFlashBlocksToCache_`. -/
def demandCopyBlock (markDirty : Bool) (s : Qspi) (offset : ℕ) : Qspi :=
  let (s, physicalBlockOffset) := logicalToPhysicalBlock (columnToBlock s offset) s
  let s := fetchBlock physicalBlockOffset s
  if markDirty then s.setDirty physicalBlockOffset true else s

/-- `demandCopyFlashBlocksToCache_` -/
def demandCopyFlashBlocksToCache (byteOffset byteCount : ℕ) (markDirty : Bool) (s : Qspi) : Qspi :=
  (strides s.blockSize byteOffset byteCount).foldl (demandCopyBlock markDirty) s

/-- One turn of the loop of `copyCacheToFlashBlocks_`: the state, the number of dirty blocks that are
left, and whether the loop was left. -/
def copyBlockToFlash (state : Qspi × ℕ × Bool) (offset : ℕ) : Qspi × ℕ × Bool :=
  let (s, dirtyBlockCount, left) := state
  if left || dirtyBlockCount = 0 then (s, dirtyBlockCount, left)
  else
    let (s, physicalBlockOffset) := logicalToPhysicalBlock (columnToBlock s offset) s
    if s.inCache physicalBlockOffset && s.dirty physicalBlockOffset then
      let (s, status) := flashEraseBlock physicalBlockOffset s
      if status then (s, dirtyBlockCount, true)
      else
        let s := flashProgram s.pCacheDataBuffer (physicalBlockOffset * s.blockSize) s.blockSize s
        (s.setDirty physicalBlockOffset false, dirtyBlockCount - 1, false)
    else (s, dirtyBlockCount, false)

/-- The dirty blocks that `copyCacheToFlashBlocks_` counts. -/
def Qspi.dirtyBlockCount (s : Qspi) : ℕ := ((List.range s.blockCount).filter s.dirty).length

/-- `copyCacheToFlashBlocks_` -/
def copyCacheToFlashBlocks (byteOffset byteCount : ℕ) (s : Qspi) : Qspi :=
  ((strides s.blockSize byteOffset byteCount).foldl copyBlockToFlash
    (s, s.dirtyBlockCount, false)).1

/-- `HSS_CachedQSPI_ReadBlock`: the bytes at the destination. -/
def hssCachedQspiReadBlock (srcOffset byteCount : ℕ) (s : Qspi) :
    Except Halt (Qspi × List (BitVec 8)) := do
  assert (srcOffset + byteCount ≤ s.dieSize) .qspiRangeInDie
  let s := demandCopyFlashBlocksToCache srcOffset byteCount false s
  return (s, (List.range byteCount).map fun i => s.pCacheDataBuffer (srcOffset + i))

/-- `HSS_CachedQSPI_WriteBlock`, of the bytes at the source. -/
def hssCachedQspiWriteBlock (dstOffset : ℕ) (src : List (BitVec 8)) (s : Qspi) :
    Except Halt Qspi := do
  assert (dstOffset + src.length ≤ s.dieSize) .qspiRangeInDie
  let s := demandCopyFlashBlocksToCache dstOffset src.length true { s with cacheDirtyFlag := true }
  return { s with
    pCacheDataBuffer := copyRange s.pCacheDataBuffer (fun i => src.getD i 0) dstOffset 0 src.length }

/-- `HSS_CachedQSPI_FlushWriteBuffer` -/
def hssCachedQspiFlushWriteBuffer (s : Qspi) : Qspi :=
  if s.cacheDirtyFlag then { copyCacheToFlashBlocks 0 s.dieSize s with cacheDirtyFlag := false }
  else s

end Hss
