import Hss.Qspi.Blocks
import Hss.Scai.Selection
import Hss.W25n.Driver

/-! The bad blocks that the QSPI service is told of when it is initialised, in a build for each of the
flash drivers, and what the scan of the drivers behind the FPGA would return. -/

namespace Hss

/-- `qspiFlashes` -/
def qspiFlashes : List FlashDescriptor := [winbondW25n01gv, micronN25q256a]

/-- `flash_id_to_descriptor_` -/
def flashIdToDescriptor (jedecId : BitVec 32) : Option FlashDescriptor :=
  qspiFlashes.find? fun desc => desc.jedecId = jedecId

/-- A scan for bad blocks: the buffer, what is returned, and the entries that were written. -/
structure BadBlockScan where
  buf : ℕ → ℕ
  result : ℕ
  written : List ℕ

/-- One turn of the loop of a scan. -/
def scanBlock (badBlock : ℕ → Bool) (scan : BadBlockScan) (blockNum : ℕ) : BadBlockScan :=
  if badBlock blockNum then
    { buf := Function.update scan.buf scan.result blockNum
      result := scan.result + 1
      written := scan.written ++ [blockNum] }
  else scan

/-- The scan of a die, where `badBlock` is what `is_bad_block` answers for each block. -/
def scanDie (badBlock : ℕ → Bool) (buf : ℕ → ℕ) : BadBlockScan :=
  (List.range numBlocksPerDie).foldl (scanBlock badBlock) ⟨buf, 0, []⟩

/-- `Flash_scan_for_bad_blocks` of `winbond_w25n01gv.c` -/
def w25FlashScanForBadBlocks : (ℕ → Bool) → (ℕ → ℕ) → BadBlockScan := scanDie

/-- `Scai_W25_Flash_scan_for_bad_blocks` of `winbond_w25n01gv_direct.c` -/
def scaiW25FlashScanForBadBlocks : (ℕ → Bool) → (ℕ → ℕ) → BadBlockScan := scanDie

/-- The entry `scan_for_bad_blocks` of a driver. -/
def ScaiFlashDriver.scanForBadBlocks :
    ScaiFlashDriver → Option ((ℕ → Bool) → (ℕ → ℕ) → BadBlockScan)
  | .winbondW25n01Fpga => none
  | .w25n01Direct => some scaiW25FlashScanForBadBlocks
  | .micronMt29f => none

/-- `SCAI_FLASH_ERROR` as a number -/
def scaiFlashError : ℕ := 1

namespace FlashSelection

variable (s : FlashSelection)

/-- `is_driver_ready` -/
def isDriverReady : Bool :=
  if s.activeFlashType = .winbondW25n01Direct then true
  else (s.channels s.activeChannel).isInitialized

/-- `Flash_scan_for_bad_blocks` -/
def flashScanForBadBlocks (badBlock : ℕ → Bool) (buf : ℕ → ℕ) : BadBlockScan :=
  if !s.isDriverReady then ⟨buf, scaiFlashError, []⟩
  else
    match s.activeDriver.scanForBadBlocks with
    | none => ⟨buf, scaiFlashError, []⟩
    | some scan => scan badBlock buf

end FlashSelection

/-! ### The map of the blocks -/

/-- The choice "QSPI Driver" of the configuration: a build has just one of them. -/
inductive QspiDriver
  | winbondW25n01gv
  | micronMq25t
  | scaiFpga
  deriving DecidableEq, Repr

/-- The number of bad blocks, their buffer, the map, and the scan that the number was taken from, if
there was one. -/
structure QspiBlockMap where
  numBadBlocks : ℕ
  pBadBlocksMap : ℕ → ℕ
  pLogicalToPhysicalMap : ℕ → ℕ
  scan : Option BadBlockScan

namespace QspiBlockMap

/-- `build_bad_block_map_`: only a build for the W25N01GV calls `Flash_scan_for_bad_blocks`, and links
the one of its driver. -/
def buildBadBlockMap (driver : QspiDriver) (blockCount : ℕ) (badBlock : ℕ → Bool) (m : QspiBlockMap) :
    QspiBlockMap :=
  match driver with
  | .winbondW25n01gv =>
      let scan := w25FlashScanForBadBlocks badBlock m.pBadBlocksMap
      let badBlocks := (List.range scan.result).map scan.buf
      { numBadBlocks := scan.result
        pBadBlocksMap := scan.buf
        pLogicalToPhysicalMap :=
          ((List.range blockCount).foldl mapBlock (m.pLogicalToPhysicalMap, badBlocks, 0)).1
        scan := some scan }
  | .micronMq25t | .scaiFpga =>
      { m with
        pLogicalToPhysicalMap := (List.range blockCount).foldl
          (fun map p => Function.update map p p) m.pLogicalToPhysicalMap }

/-- `memset` of an array of `n` entries -/
def clearEntries (n : ℕ) (entries : ℕ → ℕ) (i : ℕ) : ℕ := if i < n then 0 else entries i

/-- `HSS_QSPIInit`, with the identification that was read, and any content where the buffer and the map
are placed.  A build for the FPGA has its selection of a flash. -/
def hssQspiInit (driver : QspiDriver) (s : FlashSelection) (jedecId : BitVec 32) (badBlock : ℕ → Bool)
    (m : QspiBlockMap) : FlashSelection × QspiBlockMap :=
  let s := if driver = .scaiFpga then s.flashInit FlashSelection.mssQspiQuadFull else s
  match flashIdToDescriptor jedecId with
  | none => (s, m)
  | some desc =>
      (s, buildBadBlockMap driver desc.blocksPerDie badBlock
        { m with
          pBadBlocksMap := clearEntries desc.blocksPerDie m.pBadBlocksMap
          pLogicalToPhysicalMap := clearEntries desc.blocksPerDie m.pLogicalToPhysicalMap })

/-- The blocks that were reported bad: the entries that the scan wrote. -/
def reported (m : QspiBlockMap) : List ℕ := m.scan.elim [] BadBlockScan.written

/-- The number is that of the entries that were written, and the map of a die of `blockCount` blocks
leaves out just those blocks. -/
structure CountsBadBlocks (m : QspiBlockMap) (blockCount : ℕ) : Prop where
  taken : ∀ scan, m.scan = some scan → m.numBadBlocks = scan.result
  count : m.numBadBlocks = m.reported.length
  map : let good := goodBlocks m.reported.contains blockCount
    (List.range good.length).map m.pLogicalToPhysicalMap = good

end QspiBlockMap

/-- The driver that is chosen by a call, over the one before. -/
def SelectionCall.chosenDriver (driver : ScaiFlashDriver) : SelectionCall → ScaiFlashDriver
  | .scaiSetFlashChip flashType _ =>
      ((ScaiFlashType.ofNat? flashType).bind ScaiFlashType.driver?).getD driver
  | .flashInit _ => driver

/-- The driver of the last type with a driver that is selected; at first it is the direct one. -/
def chosenDriver (calls : List SelectionCall) : ScaiFlashDriver :=
  calls.foldl SelectionCall.chosenDriver .w25n01Direct

/-! ### The selected driver -/

namespace FlashSelection

variable {s : FlashSelection} {flashType : ScaiFlashType} {ioFormat : ℕ}

/-- What holds after any calls: the driver is that of the type, if it has one, and it is ready. -/
structure Selected (s : FlashSelection) : Prop where
  driver : ∀ driver, s.activeFlashType.driver? = some driver → s.activeDriver = driver
  ready : s.isDriverReady = true

theorem driverInit_activeDriver {channel : Option ScaiFlashType} :
    (s.driverInit channel ioFormat).activeDriver = s.activeDriver := by
  unfold driverInit
  dsimp only
  split <;> rfl

theorem driverInit_activeChannel {channel : Option ScaiFlashType} :
    (s.driverInit channel ioFormat).activeChannel = s.activeChannel := by
  unfold driverInit
  dsimp only
  split <;> rfl

theorem selected_start : start.Selected := ⟨fun _ same => Option.some.inj same, rfl⟩

theorem setChannel_isDriverReady_of_set {channel : ScaiChannelRecord}
    (active : s.activeChannel = flashType) (set : channel.isInitialized = true) :
    (s.setChannel flashType channel).isDriverReady = true := by
  subst active
  unfold isDriverReady
  split
  · rfl
  · simpa using set

theorem isDriverReady_of_set (set : (s.channels s.activeChannel).isInitialized = true) :
    s.isDriverReady = true := by
  unfold isDriverReady
  split
  · rfl
  · exact set

/-- A selection of a type: the driver, if the type has one, is the one that is chosen. -/
theorem Selected.scaiSetFlashChip (selected : s.Selected) {number : ℕ} :
    (s.scaiSetFlashChip number ioFormat).1.Selected ∧
      (s.scaiSetFlashChip number ioFormat).1.activeDriver =
        ((ScaiFlashType.ofNat? number).bind ScaiFlashType.driver?).getD s.activeDriver := by
  unfold FlashSelection.scaiSetFlashChip
  cases ScaiFlashType.ofNat? number with
  | none => exact ⟨selected, rfl⟩
  | some flashType =>
    have chosen := selectDriver_activeDriver s flashType
    have owned : ∀ driver, flashType.driver? = some driver →
        (s.selectDriver flashType).activeDriver = driver := fun driver same => by
      rw [chosen, same]
      rfl
    dsimp only
    split
    · dsimp only
      split
      · next set => exact ⟨⟨owned, isDriverReady_of_set set⟩, chosen⟩
      · refine ⟨⟨fun driver same => ?_, ?_⟩, ?_⟩
        · rw [setInitialized, setChannel_activeFlashType, driverInit_activeFlashType] at same
          rw [setInitialized, setChannel_activeDriver, driverInit_activeDriver]
          exact owned driver same
        · exact setChannel_isDriverReady_of_set driverInit_activeChannel rfl
        · rw [setInitialized, setChannel_activeDriver, driverInit_activeDriver]
          exact chosen
    · next same =>
      refine ⟨selected, ?_⟩
      cases driver : flashType.driver? with
      | none => simp [driver]
      | some driver' => simpa [driver] using selected.driver driver' (not_not.mp same ▸ driver)

theorem Selected.flashInit (selected : s.Selected) (ioFormat : ℕ) :
    (s.flashInit ioFormat).Selected ∧ (s.flashInit ioFormat).activeDriver = s.activeDriver := by
  unfold FlashSelection.flashInit
  split
  · exact ⟨selected, rfl⟩
  · split
    · next direct =>
      refine ⟨⟨fun driver same => ?_, ?_⟩, driverInit_activeDriver⟩
      · rw [driverInit_activeFlashType] at same
        rw [driverInit_activeDriver]
        exact selected.driver driver same
      · rw [isDriverReady, driverInit_activeFlashType, if_pos direct]
    · next channel =>
      -- Any other type has its channel initialised, as it was selected before.
      have set : (s.channels s.activeChannel).isInitialized = true := by
        have ready := selected.ready
        rwa [isDriverReady, if_neg channel] at ready
      obtain ⟨enabled, same⟩ := s.enableActiveMt29f_eq
      rw [same]
      dsimp only
      rw [if_pos set]
      exact ⟨⟨selected.driver, selected.ready⟩, rfl⟩

theorem Selected.step (selected : s.Selected) (call : SelectionCall) :
    (call.step s).1.Selected ∧ (call.step s).1.activeDriver = call.chosenDriver s.activeDriver := by
  cases call with
  | scaiSetFlashChip number ioFormat => exact selected.scaiSetFlashChip
  | flashInit ioFormat => exact selected.flashInit ioFormat

theorem Selected.after (selected : s.Selected) (calls : List SelectionCall) :
    (s.after calls).Selected ∧
      (s.after calls).activeDriver = calls.foldl SelectionCall.chosenDriver s.activeDriver := by
  induction calls generalizing s with
  | nil => exact ⟨selected, rfl⟩
  | cons call calls ih =>
    obtain ⟨next, driver⟩ := selected.step call
    have rest := ih next
    rw [driver] at rest
    exact rest

/-! ### The scan -/

theorem scanDie_eq (badBlock : ℕ → Bool) (buf : ℕ → ℕ) :
    let scan := scanDie badBlock buf
    scan.written = (List.range numBlocksPerDie).filter badBlock ∧
      scan.result = scan.written.length ∧ (List.range scan.result).map scan.buf = scan.written := by
  unfold scanDie
  induction numBlocksPerDie with
  | zero => exact ⟨rfl, rfl, rfl⟩
  | succ n ih =>
    obtain ⟨written, result, entries⟩ := ih
    rw [List.range_succ, List.foldl_append, List.filter_append, List.foldl_cons, List.foldl_nil]
    generalize (List.range n).foldl (scanBlock badBlock) ⟨buf, 0, []⟩ = scan at written result entries ⊢
    unfold scanBlock
    cases bad : badBlock n with
    | false => simpa [bad] using ⟨written, result, entries⟩
    | true =>
      simp only [if_true, List.length_append, List.length_singleton]
      refine ⟨by rw [written]; simp [bad], by rw [result], ?_⟩
      rw [List.range_succ, List.map_append, List.map_singleton, Function.update_self]
      refine congrArg (· ++ [n]) (Eq.trans (List.map_congr_left fun i inside => ?_) entries)
      exact Function.update_of_ne (List.mem_range.mp inside).ne ..

/-- The scan is that of the direct driver, if it is the active one, and an error otherwise. -/
theorem Selected.flashScanForBadBlocks (selected : s.Selected) (badBlock : ℕ → Bool) (buf : ℕ → ℕ) :
    s.flashScanForBadBlocks badBlock buf =
      if s.activeDriver = .w25n01Direct then scaiW25FlashScanForBadBlocks badBlock buf
      else ⟨buf, scaiFlashError, []⟩ := by
  unfold FlashSelection.flashScanForBadBlocks
  rw [selected.ready]
  cases s.activeDriver <;> rfl

end FlashSelection

/-- After any calls, `Flash_scan_for_bad_blocks` of `scai_fpga.c` returns a count if and only if the last
type with a driver that was selected is the direct one.  With another its error is no count. -/
theorem scaiScan_counts_iff (calls : List SelectionCall) (badBlock : ℕ → Bool) (buf : ℕ → ℕ) :
    let scan := (FlashSelection.start.after calls).flashScanForBadBlocks badBlock buf
    scan.result = scan.written.length ↔ chosenDriver calls = .w25n01Direct := by
  obtain ⟨selected, driver⟩ := FlashSelection.selected_start.after calls
  dsimp only
  rw [selected.flashScanForBadBlocks, driver]
  change _ ↔ calls.foldl SelectionCall.chosenDriver .w25n01Direct = .w25n01Direct
  split
  · next direct => exact iff_of_true (FlashSelection.scanDie_eq badBlock buf).2.1 direct
  · next other => exact iff_of_false one_ne_zero other

/-! ### The service -/

namespace QspiBlockMap

variable {m : QspiBlockMap} {blockCount : ℕ} {badBlock : ℕ → Bool}

theorem goodBlocks_none (n : ℕ) : goodBlocks ([] : List ℕ).contains n = List.range n := by
  simp [goodBlocks]

/-- The entries of a map that has the good blocks first. -/
theorem map_range_getD (good : List ℕ) (map : ℕ → ℕ) :
    (List.range good.length).map (fun l => good.getD l (map l)) = good := by
  refine List.ext_getElem (by simp) fun l _ inside => ?_
  rw [List.getElem_map, List.getElem_range, List.getD_eq_getElem _ _ inside]

theorem foldl_update_self (map : ℕ → ℕ) (n : ℕ) :
    (List.range n).foldl (fun map p => Function.update map p p) map =
      fun l => if l < n then l else map l := by
  induction n with
  | zero => rfl
  | succ n ih =>
    rw [List.range_succ, List.foldl_append, ih, List.foldl_cons, List.foldl_nil]
    funext l
    rcases Nat.lt_trichotomy l n with less | rfl | more
    · rw [Function.update_of_ne less.ne, if_pos less, if_pos (by omega)]
    · rw [Function.update_self, if_pos (by omega)]
    · rw [Function.update_of_ne more.ne', if_neg (by omega), if_neg (by omega)]

/-- With a scan: whatever the buffer and the map held, on a die that the scan covers. -/
theorem buildBadBlockMap_winbond (covered : blockCount ≤ numBlocksPerDie) :
    (m.buildBadBlockMap .winbondW25n01gv blockCount badBlock).CountsBadBlocks blockCount := by
  obtain ⟨written, result, entries⟩ := FlashSelection.scanDie_eq badBlock m.pBadBlocksMap
  have same : goodBlocks ((List.range numBlocksPerDie).filter badBlock).contains blockCount =
      goodBlocks badBlock blockCount := by
    refine List.filter_congr fun p inside => ?_
    have less := (List.mem_range.mp inside).trans_le covered
    simp [less]
  unfold buildBadBlockMap w25FlashScanForBadBlocks
  generalize scanDie badBlock m.pBadBlocksMap = scan at written result entries
  refine ⟨?_, result, ?_⟩
  · rintro _ ⟨⟩
    rfl
  · dsimp only [reported, Option.elim_some]
    rw [entries, written, same, foldl_mapBlock badBlock _ covered]
    exact map_range_getD ..

/-- Without a scan no number is taken, and every block is mapped. -/
theorem buildBadBlockMap_unscanned {driver : QspiDriver} (other : driver ≠ .winbondW25n01gv)
    (zero : m.numBadBlocks = 0) (unscanned : m.scan = none) :
    (m.buildBadBlockMap driver blockCount badBlock).CountsBadBlocks blockCount := by
  have built : m.buildBadBlockMap driver blockCount badBlock =
      { m with
        pLogicalToPhysicalMap := fun l => if l < blockCount then l
          else m.pLogicalToPhysicalMap l } := by
    rw [← foldl_update_self]
    cases driver with
    | winbondW25n01gv => exact absurd rfl other
    | micronMq25t => rfl
    | scaiFpga => rfl
  rw [built]
  refine ⟨?_, ?_, ?_⟩
  · simp [unscanned]
  · simp [reported, unscanned, zero]
  · simp only [reported, unscanned, Option.elim_none, goodBlocks_none, List.length_range]
    refine (List.map_congr_left fun l inside => if_pos (List.mem_range.mp inside)).trans ?_
    exact List.map_id' _

/-- Every flash that is known has a die that the scan covers. -/
theorem blocksPerDie_le {jedecId : BitVec 32} {desc : FlashDescriptor}
    (known : flashIdToDescriptor jedecId = some desc) : desc.blocksPerDie ≤ numBlocksPerDie := by
  have member := List.mem_of_find?_eq_some known
  simp only [qspiFlashes, List.mem_cons, List.not_mem_nil, or_false] at member
  rcases member with rfl | rfl <;> decide

end QspiBlockMap

/-- In every build, after any calls, for a flash that is known: the number that `HSS_QSPIInit` takes is
that of the entries that were written, and the map leaves out just the blocks that were reported. -/
theorem hssQspiInit_countsBadBlocks (driver : QspiDriver) (calls : List SelectionCall)
    (jedecId : BitVec 32) (badBlock : ℕ → Bool) (pBadBlocksMap pLogicalToPhysicalMap : ℕ → ℕ) :
    ∀ desc ∈ flashIdToDescriptor jedecId,
      (QspiBlockMap.hssQspiInit driver (FlashSelection.start.after calls) jedecId badBlock
        ⟨0, pBadBlocksMap, pLogicalToPhysicalMap, none⟩).2.CountsBadBlocks desc.blocksPerDie := by
  intro desc known
  rw [Option.mem_def] at known
  simp only [QspiBlockMap.hssQspiInit, known]
  by_cases winbond : driver = .winbondW25n01gv
  · subst winbond
    exact QspiBlockMap.buildBadBlockMap_winbond (QspiBlockMap.blocksPerDie_le known)
  · exact QspiBlockMap.buildBadBlockMap_unscanned winbond rfl rfl

/-- The blocks 3 and 700 are bad, and the buffer and the map held something else before. -/
theorem hssQspiInit_countsBadBlocks_twoBad :
    let m := (QspiBlockMap.hssQspiInit .winbondW25n01gv (FlashSelection.start.after [.flashInit 7])
      0xEFAA21 (fun p => p == 3 || p == 700) ⟨0, fun _ => 5, fun _ => 9, none⟩).2
    m.CountsBadBlocks 1024 ∧ m.reported = [3, 700] :=
  ⟨hssQspiInit_countsBadBlocks .winbondW25n01gv [.flashInit 7] 0xEFAA21 (fun p => p == 3 || p == 700)
    (fun _ => 5) (fun _ => 9) winbondW25n01gv rfl, by decide +kernel⟩

end Hss
