import Hss.W25n.Device

/-! The look-up table of bad blocks of the W25N01GV flash: how the driver adds a pair of blocks to it and
reads it back. -/

namespace Hss

def numLuts : ℕ := 20

def statusReg3Lutf : BitVec 8 := 1 <<< 6

def readBbmLutOpcode : BitVec 8 := 0xA5
def badBlockManagementOpcode : BitVec 8 := 0xA1

/-- `w25_bb_lut_entry_t` -/
structure W25BbLutEntry where
  enable : ℕ
  invalid : ℕ
  lba : ℕ
  pba : ℕ
  deriving DecidableEq, Repr

variable {σ : Type}

namespace QspiBus

variable (bus : QspiBus σ)

/-- `Flash_add_entry_to_bb_lut`.  The last of the address bytes is the low byte of `lba` again. -/
def flashAddEntryToBbLut (lba pba : ℕ) (s : σ) : σ × ℕ :=
  let (s, status) := bus.readStatusreg statusReg3 s
  if status &&& statusReg3Lutf = 0 then
    let commandBuf := ofBytes [badBlockManagementOpcode, highByte lba, lowByte lba, highByte pba,
      lowByte lba]
    let s := bus.sendWriteEnableCommand s
    let s := (bus.polledTransferBlock 0 commandBuf 4 0 0 s).1
    ((bus.waitIfBusyOrWel s).1, 1)
  else (s, 0)

theorem flashAddEntryToBbLut_eq (lba pba : ℕ) (s : σ) : bus.flashAddEntryToBbLut lba pba s =
    if (bus.readStatusreg statusReg3 s).2 &&& statusReg3Lutf = 0 then
      ((bus.waitIfBusyOrWel (bus.transfer
        (bus.sendWriteEnableCommand (bus.readStatusreg statusReg3 s).1)
        [badBlockManagementOpcode, highByte lba, lowByte lba, highByte pba, lowByte lba] 0).1).1, 1)
    else ((bus.readStatusreg statusReg3 s).1, 0) :=
  rfl

/-- The entry of the table that begins at `bufIdx` of the bytes read. -/
def bbLutEntry (buf : Bytes) (bufIdx : ℕ) : W25BbLutEntry where
  enable := if buf.getD bufIdx 0 &&& 0x80 ≠ 0 then 1 else 0
  invalid := if buf.getD bufIdx 0 &&& 0x40 ≠ 0 then 1 else 0
  lba := (buf.getD bufIdx 0 &&& 0x3).toNat <<< 8 ||| (buf.getD (bufIdx + 1) 0).toNat
  pba := (buf.getD (bufIdx + 2) 0).toNat <<< 8 ||| (buf.getD (bufIdx + 3) 0).toNat

/-- `Flash_read_bb_lut`: the entries, and how many of them are enabled and not invalid. -/
def flashReadBbLut (s : σ) : σ × List W25BbLutEntry × ℕ :=
  let (s, buf) := bus.polledTransferBlock 0 (ofBytes [readBbmLutOpcode, 0]) 0 (4 * numLuts) 8 s
  let lut := (List.range numLuts).map fun lutIdx => bbLutEntry buf (lutIdx * 4)
  (s, lut, lut.countP fun entry => entry.enable = 1 && entry.invalid = 0)

theorem flashReadBbLut_eq (s : σ) : bus.flashReadBbLut s =
    let answer := bus.transfer s [readBbmLutOpcode] 8
    let lut := (List.range numLuts).map fun lutIdx =>
      bbLutEntry (firstBytes answer.2 (4 * numLuts)) (lutIdx * 4)
    (answer.1, lut, lut.countP fun entry => entry.enable = 1 && entry.invalid = 0) :=
  rfl

/-- `Scai_W25_Flash_add_entry_to_bb_lut` -/
def scaiW25FlashAddEntryToBbLut (lba pba : ℕ) (s : σ) : σ × ℕ :=
  bus.flashAddEntryToBbLut lba pba s

/-- `Scai_W25_Flash_read_bb_lut` -/
def scaiW25FlashReadBbLut (s : σ) : σ × List W25BbLutEntry × ℕ :=
  bus.flashReadBbLut s

end QspiBus

/-- Pairs of blocks added one after the other until the table is reported full, and the pairs that were
added. -/
def addPairs (add : ℕ → ℕ → σ → σ × ℕ) : List (ℕ × ℕ) → σ → σ × List (ℕ × ℕ)
  | [], s => (s, [])
  | (lba, pba) :: rest, s =>
      let (s, result) := add lba pba s
      if result = 0 then (s, [])
      else
        let (s, added) := addPairs add rest s
        (s, (lba, pba) :: added)

/-- The pairs that were added are, in order, those of the valid entries that are read back, and their
number is returned. -/
def BbLutRoundTrip (add : ℕ → ℕ → σ → σ × ℕ) (read : σ → σ × List W25BbLutEntry × ℕ)
    (pairs : List (ℕ × ℕ)) (s : σ) : Prop :=
  let (s, added) := addPairs add pairs s
  let (_, lut, numBb) := read s
  (lut.filter fun entry => entry.enable = 1 && entry.invalid = 0).map
    (fun entry => (entry.lba, entry.pba)) = added ∧ numBb = added.length

/-! ### The flash with its table -/

/-- The four address bytes of a pair of blocks. -/
structure BlockPair where
  lbaHigh : BitVec 8
  lbaLow : BitVec 8
  pbaHigh : BitVec 8
  pbaLow : BitVec 8

/-- What the flash shows of a pair: it is enabled and valid. -/
def BlockPair.bytes (pair : BlockPair) : Bytes :=
  [0x80 ||| 0x3F &&& pair.lbaHigh, pair.lbaLow, pair.pbaHigh, pair.pbaLow]

/-- A flash and its table of bad blocks. -/
structure W25nTable where
  flash : W25n
  lut : List BlockPair

namespace W25nTable

/-- A frame on the bus: the commands of the table, the status that tells whether it is full, and the
other commands of the flash. -/
def transfer (delay : W25nDelay) (s : W25nTable) (frame : Bytes) (numIdleCycles : ℕ) :
    W25nTable × (ℕ → BitVec 8) :=
  let opcode := frame.headD 0
  let byte := fun i => frame.getD i 0
  let (flash, answer) := s.flash.transfer delay frame numIdleCycles
  if opcode = badBlockManagementOpcode then
    if s.flash.busy = 0 ∧ s.flash.wel ∧ s.lut.length < numLuts then
      ({ flash := { s.flash with wel := false, busy := delay.polls }
         lut := s.lut ++ [⟨byte 1, byte 2, byte 3, byte 4⟩] }, answer)
    else (s, answer)
  else if opcode = readBbmLutOpcode ∧ numIdleCycles = 8 ∧ s.flash.busy = 0 then
    (s, writeBuffer (fun _ => 0) 0 (s.lut.flatMap BlockPair.bytes))
  else if opcode = readStatusRegOpcode ∧ byte 1 = statusReg3 then
    ({ s with flash }, fun i =>
      answer i ||| if s.lut.length = numLuts then statusReg3Lutf else 0)
  else ({ s with flash }, answer)

/-- The bus with the flash on it. -/
def bus (delay : W25nDelay) : QspiBus W25nTable := ⟨transfer delay⟩

variable {d : W25nDelay} {s : W25nTable} {lba pba : ℕ}

/-! ### Waits -/

/-- Status register 3. -/
def status (s : W25nTable) : BitVec 8 :=
  s.flash.statusRegister statusReg3 ||| if s.lut.length = numLuts then statusReg3Lutf else 0

/-- The flash busy for `busy` more readings. -/
def withBusy (s : W25nTable) (busy : ℕ) : W25nTable := { s with flash.busy := busy }

/-- The flash with its write enable latch set. -/
def enabled (s : W25nTable) : W25nTable := { s with flash.wel := true }

theorem withBusy_pred (ready : s.flash.busy = 0) : s.withBusy (s.flash.busy - 1) = s := by
  have same : s.flash.busy - 1 = s.flash.busy := by omega
  rw [same]
  rfl

theorem readStatusreg_eq :
    (bus d).readStatusreg statusReg3 s = (s.withBusy (s.flash.busy - 1), s.status) := rfl

theorem status_eq : s.status = (if s.flash.wel then statusReg3Wel else 0) |||
    (if s.flash.busy ≠ 0 then statusReg3Busy else 0) |||
    (if s.lut.length = numLuts then statusReg3Lutf else 0) := by
  rw [status, W25n.statusRegister_three]

theorem status_lutf : s.status &&& statusReg3Lutf = 0 ↔ s.lut.length ≠ numLuts := by
  rw [status_eq]
  split <;> split <;> split <;> simp_all <;> decide

theorem waitIfBusyOrWel_eq (less : s.flash.busy < maxSpinCount) (off : s.flash.wel = false) :
    (bus d).waitIfBusyOrWel s = (s.withBusy 0, (s.withBusy 0).status) := by
  refine QspiBus.spin_counted s.withBusy (fun _ => readStatusreg_eq) (fun busy => ?_) less
  rw [status_eq]
  by_cases none : busy = 0 <;> by_cases full : s.lut.length = numLuts <;>
    simp [withBusy, off, none, full] <;> decide

theorem sendWriteEnableCommand_eq (ready : s.flash.busy = 0) :
    (bus d).sendWriteEnableCommand s = s.enabled := by
  have enable : (transfer d s [writeEnableOpcode] 0).1 = s.enabled := by
    simp [transfer, W25n.transfer, ready, writeEnableOpcode, readStatusRegOpcode,
      badBlockManagementOpcode, readBbmLutOpcode, enabled]
  have set : statusReg3Wel &&& s.enabled.status ≠ 0 := by
    rw [status_eq]
    by_cases full : s.lut.length = numLuts <;> simp [enabled, ready, full] <;> decide
  show (bus d).waitForWel (transfer d s [writeEnableOpcode] 0).1 = _
  rw [enable, QspiBus.waitForWel, show maxSpinCount = 0xFFFFFF + 1 from rfl, QspiBus.spin_once,
    readStatusreg_eq]
  · simp [withBusy, enabled, ready]
  · exact decide_eq_false set

/-! ### The table -/

/-- What the driver sends of a pair. -/
def sentPair (lba pba : ℕ) : BlockPair := ⟨highByte lba, lowByte lba, highByte pba, lowByte lba⟩

theorem transfer_badBlockManagement (ready : s.flash.busy = 0) (set : s.flash.wel = true)
    (room : s.lut.length < numLuts) (pair : BlockPair) :
    (transfer d s [badBlockManagementOpcode, pair.lbaHigh, pair.lbaLow, pair.pbaHigh, pair.pbaLow]
        0).1 =
      { flash := { s.flash with wel := false, busy := d.polls }, lut := s.lut ++ [pair] } := by
  simp [transfer, ready, set, room]

theorem flashAddEntryToBbLut_room (ready : s.flash.busy = 0) (room : s.lut.length < numLuts) :
    (bus d).flashAddEntryToBbLut lba pba s =
      ({ flash := { s.flash with wel := false, busy := 0 }, lut := s.lut ++ [sentPair lba pba] },
        1) := by
  have notFull : s.status &&& statusReg3Lutf = 0 := status_lutf.mpr room.ne
  have sent := transfer_badBlockManagement (d := d) (s := s.enabled) ready rfl room (sentPair lba pba)
  rw [sentPair] at sent
  rw [QspiBus.flashAddEntryToBbLut_eq, readStatusreg_eq, if_pos notFull, withBusy_pred ready,
    sendWriteEnableCommand_eq ready, bus, sent, ← bus, waitIfBusyOrWel_eq d.polls_lt rfl]
  rfl

theorem flashAddEntryToBbLut_full (ready : s.flash.busy = 0) (full : s.lut.length = numLuts) :
    (bus d).flashAddEntryToBbLut lba pba s = (s, 0) := by
  have isFull : ¬ s.status &&& statusReg3Lutf = 0 := fun clear => status_lutf.mp clear full
  rw [QspiBus.flashAddEntryToBbLut_eq, readStatusreg_eq, if_neg isFull, withBusy_pred ready]

/-- The pairs that are added fill the table, and no more are. -/
theorem addPairs_eq (pairs : List (ℕ × ℕ)) (ready : s.flash.busy = 0)
    (fits : s.lut.length ≤ numLuts) :
    let (s', added) := addPairs (bus d).flashAddEntryToBbLut pairs s
    added = pairs.take (numLuts - s.lut.length) ∧ s'.flash.busy = 0 ∧
      s'.lut = s.lut ++ added.map fun pair => sentPair pair.1 pair.2 := by
  induction pairs generalizing s with
  | nil => simp [addPairs, ready]
  | cons pair rest ih =>
    obtain ⟨lba, pba⟩ := pair
    rcases fits.lt_or_eq with room | full
    · have space : numLuts - s.lut.length = numLuts - (s.lut.length + 1) + 1 := by omega
      have more := ih (s := { flash := { s.flash with wel := false, busy := 0 }
                              lut := s.lut ++ [sentPair lba pba] }) rfl (by simpa using Nat.succ_le_of_lt room)
      rw [addPairs, flashAddEntryToBbLut_room ready room]
      dsimp only at more ⊢
      obtain ⟨added, still, lut⟩ := more
      refine ⟨?_, still, ?_⟩
      · rw [if_neg one_ne_zero, space, List.take_succ_cons]
        simpa using added
      · rw [if_neg one_ne_zero, lut]
        simp
    · rw [addPairs, flashAddEntryToBbLut_full ready full]
      simp [full, ready]

/-! ### Reading the table -/

/-- The entry that the driver makes of a pair in the table. -/
def entryOf (pair : BlockPair) : W25BbLutEntry where
  enable := 1
  invalid := 0
  lba := (pair.lbaHigh &&& 0x3).toNat <<< 8 ||| pair.lbaLow.toNat
  pba := pair.pbaHigh.toNat <<< 8 ||| pair.pbaLow.toNat

theorem getD_flatMap_bytes (lut : List BlockPair) {i k : ℕ} (inEntry : k < 4) :
    (lut.flatMap BlockPair.bytes).getD (i * 4 + k) 0 =
      ((lut[i]?).map fun pair => pair.bytes.getD k 0).getD 0 := by
  induction lut generalizing i with
  | nil => simp
  | cons pair rest ih =>
    rw [List.flatMap_cons]
    cases i with
    | zero =>
      rw [List.getD_append _ _ _ _ (by simpa [BlockPair.bytes] using inEntry), Nat.zero_mul,
        Nat.zero_add]
      rfl
    | succ i =>
      rw [List.getD_append_right _ _ _ _ (by simp [BlockPair.bytes]; omega),
        show (i + 1) * 4 + k - pair.bytes.length = i * 4 + k by simp [BlockPair.bytes]; omega, ih]
      rfl

theorem flagBits (b : BitVec 8) : (0x80 ||| 0x3F &&& b) &&& 0x80 ≠ 0 ∧
    (0x80 ||| 0x3F &&& b) &&& 0x40 = 0 ∧ (0x80 ||| 0x3F &&& b) &&& 0x3 = b &&& 0x3 := by
  revert b
  decide

theorem bbLutEntry_eq {buf : Bytes} {bufIdx : ℕ} {pair : BlockPair}
    (bytes : ∀ k < 4, buf.getD (bufIdx + k) 0 = pair.bytes.getD k 0) :
    QspiBus.bbLutEntry buf bufIdx = entryOf pair := by
  obtain ⟨enable, invalid, lba⟩ := flagBits pair.lbaHigh
  have b0 : buf.getD bufIdx 0 = 0x80 ||| 0x3F &&& pair.lbaHigh := bytes 0 (by decide)
  have b1 : buf.getD (bufIdx + 1) 0 = pair.lbaLow := bytes 1 (by decide)
  have b2 : buf.getD (bufIdx + 2) 0 = pair.pbaHigh := bytes 2 (by decide)
  have b3 : buf.getD (bufIdx + 3) 0 = pair.pbaLow := bytes 3 (by decide)
  rw [QspiBus.bbLutEntry, b0, b1, b2, b3, if_pos enable, invalid, lba]
  rfl

theorem bbLutEntry_none {buf : Bytes} {bufIdx : ℕ}
    (bytes : ∀ k < 4, buf.getD (bufIdx + k) 0 = 0) :
    QspiBus.bbLutEntry buf bufIdx = ⟨0, 0, 0, 0⟩ := by
  rw [QspiBus.bbLutEntry, bytes 1 (by decide), bytes 2 (by decide), bytes 3 (by decide),
    show buf.getD bufIdx 0 = 0 from bytes 0 (by decide)]
  rfl

/-- The entries that are read: those of the table, and empty ones after them. -/
theorem flashReadBbLut_entries (ready : s.flash.busy = 0) (fits : s.lut.length ≤ numLuts) :
    ((bus d).flashReadBbLut s).2.1 =
      s.lut.map entryOf ++ List.replicate (numLuts - s.lut.length) ⟨0, 0, 0, 0⟩ := by
  have answer : (transfer d s [readBbmLutOpcode] 8).2 =
      writeBuffer (fun _ => 0) 0 (s.lut.flatMap BlockPair.bytes) := by
    simp [transfer, ready, readBbmLutOpcode, badBlockManagementOpcode]
  have byte : ∀ i < 4 * numLuts, (firstBytes (transfer d s [readBbmLutOpcode] 8).2
      (4 * numLuts)).getD i 0 = (s.lut.flatMap BlockPair.bytes).getD i 0 := by
    intro i inside
    rw [answer, firstBytes, List.getD_eq_getElem _ _ (by simpa using inside)]
    simp [writeBuffer]
  rw [QspiBus.flashReadBbLut_eq]
  refine List.ext_getElem (by simp; omega) fun i inside _ => ?_
  have less : i < numLuts := by simpa using inside
  have entry : ∀ k < 4, (firstBytes (transfer d s [readBbmLutOpcode] 8).2
      (4 * numLuts)).getD (i * 4 + k) 0 =
        ((s.lut[i]?).map fun pair => pair.bytes.getD k 0).getD 0 := fun k inEntry => by
    rw [byte _ (by omega), getD_flatMap_bytes _ inEntry]
  rw [List.getElem_map, List.getElem_range]
  by_cases stored : i < s.lut.length
  · rw [List.getElem_append_left (by simpa using stored), List.getElem_map]
    refine bbLutEntry_eq fun k inEntry => (entry k inEntry).trans ?_
    rw [List.getElem?_eq_getElem stored]
    rfl
  · rw [List.getElem_append_right (by simpa using stored), List.getElem_replicate]
    refine bbLutEntry_none fun k inEntry => (entry k inEntry).trans ?_
    rw [List.getElem?_eq_none (by omega)]
    rfl

/-! ### The round trip -/

theorem sentPair_lba (inside : lba < numBlocksPerDie) : (entryOf (sentPair lba pba)).lba = lba := by
  have low : (lowByte lba).toNat < 2 ^ 8 := (lowByte lba).isLt
  rw [numBlocksPerDie] at inside
  rw [entryOf, sentPair]
  dsimp only
  rw [← Nat.shiftLeft_add_eq_or_of_lt low, BitVec.toNat_and, show (0x3 : BitVec 8).toNat = 2 ^ 2 - 1
    from rfl, Nat.and_two_pow_sub_one_eq_mod]
  simp only [highByte, lowByte, BitVec.toNat_ofNat, Nat.shiftRight_eq_div_pow, Nat.shiftLeft_eq]
  omega

theorem sentPair_pba (inside : pba < numBlocksPerDie) :
    (entryOf (sentPair lba pba)).pba = pba ↔ lba % 256 = pba % 256 := by
  have low : (lowByte lba).toNat < 2 ^ 8 := (lowByte lba).isLt
  rw [numBlocksPerDie] at inside
  rw [entryOf, sentPair]
  dsimp only
  rw [← Nat.shiftLeft_add_eq_or_of_lt low]
  simp only [highByte, lowByte, BitVec.toNat_ofNat, Nat.shiftRight_eq_div_pow, Nat.shiftLeft_eq]
  omega

/-- The valid entries that are read are those of the table. -/
theorem flashReadBbLut_valid (ready : s.flash.busy = 0) (fits : s.lut.length ≤ numLuts) :
    (((bus d).flashReadBbLut s).2.1.filter fun entry => entry.enable = 1 && entry.invalid = 0) =
        s.lut.map entryOf ∧ ((bus d).flashReadBbLut s).2.2 = s.lut.length := by
  have valid : ((bus d).flashReadBbLut s).2.1.filter
      (fun entry => entry.enable = 1 && entry.invalid = 0) = s.lut.map entryOf := by
    rw [flashReadBbLut_entries ready fits, List.filter_append, List.filter_eq_self.mpr,
      List.filter_eq_nil_iff.mpr, List.append_nil]
    · intro entry member
      rw [List.eq_of_mem_replicate member]
      decide
    · intro entry member
      obtain ⟨pair, _, rfl⟩ := List.mem_map.mp member
      rfl
  have number : ((bus d).flashReadBbLut s).2.2 = ((bus d).flashReadBbLut s).2.1.countP
      fun entry => entry.enable = 1 && entry.invalid = 0 := rfl
  refine ⟨valid, ?_⟩
  rw [number, List.countP_eq_length_filter, valid, List.length_map]

theorem addPairs_roundTrip_iff (d : W25nDelay) {pairs : List (ℕ × ℕ)} (ready : s.flash.busy = 0)
    (empty : s.lut = []) (inside : ∀ pair ∈ pairs, pair.1 < numBlocksPerDie ∧
      pair.2 < numBlocksPerDie) :
    BbLutRoundTrip (bus d).flashAddEntryToBbLut (bus d).flashReadBbLut pairs s ↔
      ∀ pair ∈ pairs.take numLuts, pair.1 % 256 = pair.2 % 256 := by
  have filled := addPairs_eq (d := d) (s := s) pairs ready (by simp [empty])
  unfold BbLutRoundTrip
  cases run : addPairs (bus d).flashAddEntryToBbLut pairs s with
  | mk s' added =>
    rw [run, empty] at filled
    obtain ⟨rfl, ready', lut⟩ := filled
    have fits : s'.lut.length ≤ numLuts := by
      rw [lut]
      simp
    obtain ⟨valid, number⟩ := flashReadBbLut_valid (d := d) ready' fits
    dsimp only
    rw [valid, number, lut]
    simp only [List.nil_append, List.length_nil, Nat.sub_zero, List.length_map, and_true,
      List.map_map]
    rw [← List.map_id (pairs.take numLuts), List.map_map, List.map_inj_left, List.map_id]
    refine forall₂_congr fun pair member => ?_
    obtain ⟨lba, pba⟩ := inside pair (List.mem_of_mem_take member)
    simp only [Function.comp_apply, id_eq]
    rw [← sentPair_pba pba, Prod.ext_iff]
    exact and_iff_right (sentPair_lba lba)

end W25nTable

/-- For each of the two drivers: from an empty table, the pairs of blocks that are added come back as
they were if and only if each of them, up to the twentieth, agrees in its low bytes. -/
theorem bbLut_roundTrip_iff (d : W25nDelay) (s : W25nTable) (pairs : List (ℕ × ℕ))
    (ready : s.flash.busy = 0) (empty : s.lut = [])
    (inside : ∀ pair ∈ pairs, pair.1 < numBlocksPerDie ∧ pair.2 < numBlocksPerDie) :
    let bus := W25nTable.bus d
    (BbLutRoundTrip bus.flashAddEntryToBbLut bus.flashReadBbLut pairs s ↔
        ∀ pair ∈ pairs.take numLuts, pair.1 % 256 = pair.2 % 256) ∧
      (BbLutRoundTrip bus.scaiW25FlashAddEntryToBbLut bus.scaiW25FlashReadBbLut pairs s ↔
        ∀ pair ∈ pairs.take numLuts, pair.1 % 256 = pair.2 % 256) :=
  have both := W25nTable.addPairs_roundTrip_iff d ready empty inside
  ⟨both, both⟩

/-- A flash whose table is empty. -/
def freshTable : W25nTable where
  flash := ⟨fun _ _ => 0xFF, fun _ => 0xFF, false, 0, 0⟩
  lut := []

theorem zero_lt_maxSpinCount : 0 < maxSpinCount := by decide

/-- A flash that is never busy. -/
def promptDelay : W25nDelay := ⟨0, zero_lt_maxSpinCount⟩

/-- Pairs of blocks come back when their low bytes agree, and not when those of one of them differ. -/
theorem bbLut_roundTrip_lowBytes :
    let bus := W25nTable.bus promptDelay
    BbLutRoundTrip bus.flashAddEntryToBbLut bus.flashReadBbLut
        [(0x101, 0x201), (0x3A, 0x13A), (0x2FF, 0x3FF)] freshTable ∧
      BbLutRoundTrip bus.scaiW25FlashAddEntryToBbLut bus.scaiW25FlashReadBbLut
        [(0x101, 0x201), (0x3A, 0x13A), (0x2FF, 0x3FF)] freshTable ∧
      ¬ BbLutRoundTrip bus.scaiW25FlashAddEntryToBbLut bus.scaiW25FlashReadBbLut
        [(0x101, 0x201), (0x3A, 0x13B)] freshTable := by
  intro bus
  have three := bbLut_roundTrip_iff promptDelay freshTable
    [(0x101, 0x201), (0x3A, 0x13A), (0x2FF, 0x3FF)] rfl rfl (by decide)
  have other := bbLut_roundTrip_iff promptDelay freshTable [(0x101, 0x201), (0x3A, 0x13B)] rfl rfl
    (by decide)
  refine ⟨three.1.mpr (by decide), three.2.mpr (by decide), fun holds => ?_⟩
  exact absurd (other.2.mp holds (0x3A, 0x13B) (by decide)) (by decide)

/-- Block 1 mapped to block 2 is read back as mapped to itself. -/
theorem bbLut_not_roundTrip :
    let bus := W25nTable.bus promptDelay
    ¬ BbLutRoundTrip bus.flashAddEntryToBbLut bus.flashReadBbLut [(1, 2)] freshTable := by
  intro bus holds
  have lowBytes := (W25nTable.addPairs_roundTrip_iff promptDelay rfl rfl (by decide)).mp holds
  exact absurd (lowBytes (1, 2) (by decide)) (by decide)

end Hss
