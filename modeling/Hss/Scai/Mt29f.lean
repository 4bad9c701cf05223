import Hss.Scai.Fpga

/-! The driver of the Micron MT29F flash behind the QSPI controller in the FPGA fabric. -/

namespace Hss

def mt29fPageSizeBytes : ℕ := 4096
def mt29fPagesPerBlock : ℕ := 64
def mt29fTotalBlocks : ℕ := 4096
def mt29fBlockSizeBytes : ℕ := mt29fPagesPerBlock * mt29fPageSizeBytes
def mt29fTimeoutIter : ℕ := 1000

def mt29fCmdWriteEnable : BitVec 8 := 0x06
def mt29fCmdGetFeatures : BitVec 8 := 0x0F
def mt29fCmdSetFeatures : BitVec 8 := 0x1F
def mt29fCmdPageReadToCache : BitVec 8 := 0x13
def mt29fCmdReadFromCacheX1 : BitVec 8 := 0x03
def mt29fCmdReadFromCacheX4 : BitVec 8 := 0x6B
def mt29fCmdProgramLoadX1 : BitVec 8 := 0x02
def mt29fCmdProgramLoadX4 : BitVec 8 := 0x32
def mt29fCmdProgramExecute : BitVec 8 := 0x10
def mt29fCmdBlockErase : BitVec 8 := 0xD8

def mt29fRegStatus : BitVec 8 := 0xC0
def mt29fRegDieSelect : BitVec 8 := 0xD0

def mt29fDie0 : BitVec 8 := 0x00
def mt29fDie1 : BitVec 8 := 0x40
def mt29fDieQuantity : BitVec 8 := 0x41

/-! ### Addresses -/

/-- `logical_to_physical`: bit 12 of the physical address is free, for the columns of the spare area. -/
def mt29fLogicalToPhysical (logicalAddr : ℕ) : ℕ :=
  ((logicalAddr &&& 0xFFFFF000) <<< 1 ||| logicalAddr &&& 0x00000FFF) % 2 ^ 32

def mt29fRowAddr (physicalAddr : ℕ) : ℕ := physicalAddr >>> 13 &&& 0x1FFFF
def mt29fColAddr (physicalAddr : ℕ) : ℕ := physicalAddr &&& 0x1FFF
def mt29fTargetDie (physicalAddr : ℕ) : ℕ := physicalAddr >>> 30 &&& 1

/-- An opcode with the three bytes of a row. -/
def rowCommand (opcode : BitVec 8) (rowAddr : ℕ) : Bytes :=
  [opcode, BitVec.ofNat 8 (rowAddr >>> 16), BitVec.ofNat 8 (rowAddr >>> 8), BitVec.ofNat 8 rowAddr]

/-- The result of `wait_flash_ready` for the status that is read last.  The bits of the ECC code have
each been moved to bit 0 before they are shifted right by four. -/
def readyResult (status : BitVec 8) : BitVec 8 :=
  if status.getLsbD 0 = false then 0
  else
    let isFailed : BitVec 8 := 1
    let isFailed := if status.getLsbD 2 then isFailed + 1 else isFailed
    let isFailed := if status.getLsbD 3 then isFailed + 1 else isFailed
    let anyEcc := status.getLsbD 4 || status.getLsbD 5 || status.getLsbD 6
    if anyEcc then
      let eccStatus := anyEcc.toNat >>> 4
      if eccStatus = 2 then isFailed + 1 else isFailed
    else isFailed

variable {σ : Type}

namespace ScaiFpgaChannel

variable (qspi : ScaiQspi σ)

/-- A command of `bytes`, without data. -/
def sendCommand (bytes : Bytes) (keepCeActive : Bool) (channel : ScaiFpgaChannel σ) :
    ScaiFpgaChannel σ :=
  (transaction qspi
    { txBuffer := ofBytes bytes, txLen := bytes.length, keepCeActive := keepCeActive }
    (fun _ => 0) channel).1

/-- `write_enable` -/
def writeEnable (channel : ScaiFpgaChannel σ) : ScaiFpgaChannel σ :=
  sendCommand qspi [mt29fCmdWriteEnable] false (setByteMode (setSpiMode channel))

/-- What the access to a feature does in bytes over one lane, and the modes of the channel as they were
before. -/
def inByteMode {α : Type} (access : ScaiFpgaChannel σ → ScaiFpgaChannel σ × α)
    (channel : ScaiFpgaChannel σ) : ScaiFpgaChannel σ × α :=
  let isWordMode := channel.ctrl1State.dataMode
  let isQspiMode := channel.ctrl1State.laneWidth
  let channel := if isWordMode then setByteMode channel else channel
  let channel := if isQspiMode then setSpiMode channel else channel
  let (channel, result) := access channel
  let channel := if isWordMode then setWordMode channel else channel
  (if isQspiMode then setQspiMode channel else channel, result)

/-- `get_feature` -/
def getFeature (featureAddr : BitVec 8) : ScaiFpgaChannel σ → ScaiFpgaChannel σ × BitVec 8 :=
  inByteMode fun channel =>
    let (channel, result) :=
      transaction qspi
        { txBuffer := ofBytes [mt29fCmdGetFeatures, featureAddr], txLen := 2, rxLen := 1 }
        (fun _ => 0) channel
    (channel, result 0)

/-- `set_feature` -/
def setFeature (featureAddr value : BitVec 8) (channel : ScaiFpgaChannel σ) : ScaiFpgaChannel σ :=
  (inByteMode (fun channel =>
    (sendCommand qspi [mt29fCmdSetFeatures, featureAddr, value] false channel, ())) channel).1

/-- The polls of `wait_flash_ready`: the status that is read last. -/
def pollReady : ℕ → ScaiFpgaChannel σ → ScaiFpgaChannel σ × BitVec 8
  | 0, channel => (channel, 0)
  | polls + 1, channel =>
      let (channel, status) := getFeature qspi mt29fRegStatus channel
      if status.getLsbD 0 = false || polls = 0 then (channel, status) else pollReady polls channel

/-- `wait_flash_ready` -/
def waitFlashReady (channel : ScaiFpgaChannel σ) : ScaiFpgaChannel σ × BitVec 8 :=
  let (channel, status) := pollReady qspi mt29fTimeoutIter channel
  (channel, readyResult status)

/-- `get_die` -/
def getDie (channel : ScaiFpgaChannel σ) : ScaiFpgaChannel σ × BitVec 8 :=
  let (channel, die) := getFeature qspi mt29fRegDieSelect channel
  (channel, if die = mt29fDie0 ∨ die = mt29fDie1 then die else 255)

/-- `set_die` -/
def setDie (newDie : BitVec 8) (channel : ScaiFpgaChannel σ) : ScaiFpgaChannel σ × BitVec 8 :=
  let (channel, die) := getDie qspi channel
  if mt29fDieQuantity ≤ newDie then (channel, 255)
  else if ¬ (die = mt29fDie0 ∨ die = mt29fDie1) then (channel, 255)
  else
    let channel :=
      if die ≠ newDie then setFeature qspi mt29fRegDieSelect newDie channel else channel
    let (channel, die) := getDie qspi channel
    if die ≠ newDie then (channel, 255) else (channel, die)

/-- The die of an address selected. -/
def selectDie (physicalAddr : ℕ) (channel : ScaiFpgaChannel σ) : ScaiFpgaChannel σ × BitVec 8 :=
  setDie qspi (if mt29fTargetDie physicalAddr = 0 then mt29fDie0 else mt29fDie1) channel

/-! ### Reads -/

/-- Transaction 0 of a page that is read: the page is moved to the cache of the flash. -/
def pageReadToCache (rowAddr : ℕ) (channel : ScaiFpgaChannel σ) : ScaiFpgaChannel σ :=
  sendCommand qspi (rowCommand mt29fCmdPageReadToCache rowAddr) false
    (setSpiMode (setByteMode channel))

/-- Transactions 1 and 2: `readLen` bytes of the cache are read to `currentBuf`. -/
def readFromCache (useQuadMode : Bool) (colAddr readLen currentBuf : ℕ) (memory : ℕ → BitVec 8)
    (channel : ScaiFpgaChannel σ) : ScaiFpgaChannel σ × (ℕ → BitVec 8) :=
  let opcode := if useQuadMode then mt29fCmdReadFromCacheX4 else mt29fCmdReadFromCacheX1
  let colAddr1 := BitVec.ofNat 8 ((colAddr &&& 0x1F00) >>> 8)
  let channel := sendCommand qspi [opcode, colAddr1, BitVec.ofNat 8 colAddr, 0] true
    (setSpiMode (setByteMode channel))
  let rxElements := if useQuadMode then (readLen + 3) / 4 else readLen
  let channel := if useQuadMode then setWordMode (setQspiMode channel) else channel
  transaction qspi { rxBuffer := currentBuf, rxLen := rxElements, dataSizeIsWord := true } memory
    channel

/-- The loop of `SCAI_MT29_Flash_read`: the memory, and the result. -/
def readLoop (useQuadMode : Bool) :
    ℕ → ℕ → ℕ → ℕ → (ℕ → BitVec 8) → ScaiFpgaChannel σ →
      ScaiFpgaChannel σ × (ℕ → BitVec 8) × BitVec 8
  | 0, _, _, _, memory, channel => (channel, memory, 0)
  | rounds + 1, currentAddr, currentBuf, remainingLen, memory, channel =>
      if remainingLen = 0 then (channel, memory, 0)
      else
        let physicalAddr := mt29fLogicalToPhysical currentAddr
        let rowAddr := mt29fRowAddr physicalAddr
        let colAddr := mt29fColAddr physicalAddr
        let (channel, result) := selectDie qspi physicalAddr channel
        if result = 255 then (channel, memory, 1)
        else
          let (channel, status) := waitFlashReady qspi (pageReadToCache qspi rowAddr channel)
          if status ≠ 0 then (channel, memory, 1)
          else
            let readLen :=
              if remainingLen > mt29fPageSizeBytes - colAddr then mt29fPageSizeBytes - colAddr
              else remainingLen
            let (channel, memory) :=
              readFromCache qspi useQuadMode colAddr readLen currentBuf memory channel
            readLoop useQuadMode rounds (currentAddr + readLen) (currentBuf + readLen)
              (remainingLen - readLen) memory channel

/-- `SCAI_MT29_Flash_read` to the buffer at `buf`.  Each round reads at least one byte. -/
def mt29FlashRead (buf addr len : ℕ) (memory : ℕ → BitVec 8) (channel : ScaiFpgaChannel σ) :
    ScaiFpgaChannel σ × (ℕ → BitVec 8) × BitVec 8 :=
  readLoop qspi (channel.format = .quadFull) len addr buf len memory channel

/-! ### Erasures and programs -/

/-- `SCAI_MT29_Flash_erase_block` up to the wait. -/
def blockErase (rowAddr : ℕ) (channel : ScaiFpgaChannel σ) : ScaiFpgaChannel σ :=
  sendCommand qspi (rowCommand mt29fCmdBlockErase rowAddr) false
    (setSpiMode (setByteMode (writeEnable qspi channel)))

/-- `SCAI_MT29_Flash_erase_block` -/
def mt29FlashEraseBlock (blockNb : ℕ) (channel : ScaiFpgaChannel σ) :
    ScaiFpgaChannel σ × BitVec 8 :=
  let physicalAddr := mt29fLogicalToPhysical (mt29fBlockSizeBytes * blockNb)
  let (channel, result) := selectDie qspi physicalAddr channel
  if result = 255 then (channel, 1)
  else
    let (channel, status) :=
      waitFlashReady qspi (blockErase qspi (mt29fRowAddr physicalAddr) channel)
    (channel, if status ≠ 0 then 1 else 0)

/-- Step 1 of a page that is programmed: `writeLenBytes` bytes are loaded to the cache of the flash. -/
def programLoad (useQuadMode : Bool) (currentBuf : ℕ → BitVec 8) (colAddr writeLenBytes : ℕ)
    (channel : ScaiFpgaChannel σ) : ScaiFpgaChannel σ :=
  let channel := writeEnable qspi channel
  let opcode := if useQuadMode then mt29fCmdProgramLoadX4 else mt29fCmdProgramLoadX1
  let channel := sendCommand qspi [opcode, BitVec.ofNat 8 (colAddr >>> 8), BitVec.ofNat 8 colAddr]
    true (setByteMode (setSpiMode channel))
  let txElements := if useQuadMode then (writeLenBytes + 3) / 4 else writeLenBytes
  let channel := if useQuadMode then setWordMode (setQspiMode channel) else channel
  (transaction qspi { txBuffer := currentBuf, txLen := txElements, dataSizeIsWord := useQuadMode }
    (fun _ => 0) channel).1

/-- Phase 2: the cache is programmed to the page. -/
def programExecute (rowAddr : ℕ) (channel : ScaiFpgaChannel σ) : ScaiFpgaChannel σ :=
  sendCommand qspi (rowCommand mt29fCmdProgramExecute rowAddr) false
    (setByteMode (setSpiMode (writeEnable qspi channel)))

/-- A page of the loop of `SCAI_MT29_Flash_program`, up to the wait. -/
def programPage (useQuadMode : Bool) (currentBuf : ℕ → BitVec 8) (physicalAddr writeLenBytes : ℕ)
    (channel : ScaiFpgaChannel σ) : ScaiFpgaChannel σ :=
  programExecute qspi (mt29fRowAddr physicalAddr)
    (programLoad qspi useQuadMode currentBuf (mt29fColAddr physicalAddr) writeLenBytes
      (disableWriteProtect qspi channel))

/-- The loop of `SCAI_MT29_Flash_program`. -/
def programLoop (useQuadMode : Bool) :
    ℕ → ℕ → (ℕ → BitVec 8) → ℕ → ScaiFpgaChannel σ → ScaiFpgaChannel σ × BitVec 8
  | 0, _, _, _, channel => (channel, 0)
  | rounds + 1, currentAddr, currentBuf, remainingLen, channel =>
      if remainingLen = 0 then (channel, 0)
      else
        let physicalAddr := mt29fLogicalToPhysical currentAddr
        let colAddr := mt29fColAddr physicalAddr
        let (channel, result) := selectDie qspi physicalAddr channel
        if result = 255 then (channel, 1)
        else
          let writeLenBytes :=
            if remainingLen > mt29fPageSizeBytes - colAddr then mt29fPageSizeBytes - colAddr
            else remainingLen
          let (channel, status) :=
            waitFlashReady qspi
              (programPage qspi useQuadMode currentBuf physicalAddr writeLenBytes channel)
          let channel := enableWriteProtect qspi channel
          if status ≠ 0 then (channel, 1)
          else
            programLoop useQuadMode rounds (currentAddr + writeLenBytes)
              (fun i => currentBuf (writeLenBytes + i)) (remainingLen - writeLenBytes) channel

/-- `SCAI_MT29_Flash_program`, from no buffer or from one. -/
def mt29FlashProgram (buf : Option (ℕ → BitVec 8)) (addr len : ℕ) (channel : ScaiFpgaChannel σ) :
    ScaiFpgaChannel σ × BitVec 8 :=
  match buf with
  | none => (channel, 1)
  | some buf =>
      if len > mt29fTotalBlocks * mt29fBlockSizeBytes then (channel, 1)
      else programLoop qspi (channel.format = .quadFull) len addr buf len channel

end ScaiFpgaChannel

end Hss
