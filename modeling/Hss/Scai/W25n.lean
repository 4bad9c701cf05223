import Hss.Scai.Fpga
import Mathlib.Tactic.IntervalCases

/-! The driver of the backup flash, a W25N01GV behind the QSPI controller in the FPGA fabric, with a
record of the commands that it sends, in which a byte that was never set has no value. -/

namespace Hss

def w25nCmdWriteEnable : BitVec 8 := 0x06
def w25nCmdGetFeatures : BitVec 8 := 0x0F
def w25nCmdPageDataRead : BitVec 8 := 0x13
def w25nCmdReadData : BitVec 8 := 0x03
def w25nCmdQuadReadData : BitVec 8 := 0xEB
def w25nCmdProgramDataLoad : BitVec 8 := 0x02
def w25nCmdQuadProgDataLoad : BitVec 8 := 0x32
def w25nCmdProgramExecute : BitVec 8 := 0x10
def w25nCmdBlockErase : BitVec 8 := 0xD8

def w25nRegStatus : BitVec 8 := 0xC0

/-- `PAGE_SIZE_BYTES` -/
def w25nPageSizeBytes : BitVec 32 := 2048

/-- `logical_to_physical` -/
def w25nLogicalToPhysical (logicalAddr : BitVec 32) : BitVec 32 :=
  (logicalAddr &&& 0xFFFFF800) <<< 1 ||| logicalAddr &&& 0x000007FF

/-- A command buffer on the stack, whose bytes have no value before they are set. -/
abbrev CommandBuffer := List (Option (BitVec 8))

/-- The first bytes of a command buffer are set. -/
def CommandBuffer.set (cmd : CommandBuffer) (bytes : Bytes) : CommandBuffer :=
  bytes.map some ++ cmd.drop bytes.length

/-- `uint8_t cmd[n];` -/
def CommandBuffer.unset (n : ℕ) : CommandBuffer := List.replicate n none

structure SentCommand where
  bytes : CommandBuffer
  keepCeActive : Bool

/-- A channel, with what was sent over it. -/
structure W25nChannel (σ : Type) where
  channel : ScaiFpgaChannel σ
  sent : List SentCommand

variable {σ : Type}

namespace W25nChannel

/-! ### The driver -/

section
variable (qspi : ScaiQspi σ) (stack : ℕ → BitVec 8)

/-- `scai_fpga_transaction` with a command buffer: for a byte without a value, what the stack has. -/
def transaction (cmd : CommandBuffer) (keepCeActive : Bool) (rxBuffer rxLen : ℕ)
    (memory : ℕ → BitVec 8) (c : W25nChannel σ) : W25nChannel σ × (ℕ → BitVec 8) :=
  let done := c.channel.transaction qspi
    { txBuffer := fun i => (cmd.getD i none).getD (stack i), txLen := cmd.length
      rxBuffer := rxBuffer, rxLen := rxLen, keepCeActive := keepCeActive } memory
  (⟨done.1, c.sent ++ [⟨cmd, keepCeActive⟩]⟩, done.2)

/-- A command without an answer. -/
def sendCommand (cmd : CommandBuffer) (keepCeActive : Bool) (c : W25nChannel σ) : W25nChannel σ :=
  (transaction qspi stack cmd keepCeActive 0 0 (fun _ => 0) c).1

/-- `get_feature` -/
def getFeature (featureAddr : BitVec 8) (c : W25nChannel σ) : W25nChannel σ × BitVec 8 :=
  let done := transaction qspi stack [some w25nCmdGetFeatures, some featureAddr] false 0 1 (fun _ => 0) c
  (done.1, done.2 0)

/-- The loop of `wait_flash_ready`. -/
def pollReady : ℕ → W25nChannel σ → W25nChannel σ × BitVec 8
  | 0, c => (c, 1)
  | polls + 1, c =>
      let status := getFeature qspi stack w25nRegStatus c
      if status.2.getLsbD 0 = false then (status.1, 0) else pollReady polls status.1

/-- `wait_flash_ready` -/
def waitFlashReady : W25nChannel σ → W25nChannel σ × BitVec 8 := pollReady qspi stack 20000

/-- `write_enable` -/
def writeEnable : W25nChannel σ → W25nChannel σ :=
  sendCommand qspi stack [some w25nCmdWriteEnable] false

/-- `Scai_W25_Fpga_Flash_erase_block`.  The number of the block is not used. -/
def eraseBlock (_blockNb : BitVec 16) (c : W25nChannel σ) : W25nChannel σ × BitVec 8 :=
  let c := writeEnable qspi stack c
  let c := sendCommand qspi stack (.unset 4) false c
  waitFlashReady qspi stack c

/-- What is left of a page from a column on, or of the request if that is less. -/
def chunkLen (remainingLen colAddr : BitVec 32) : BitVec 32 :=
  if remainingLen > w25nPageSizeBytes - colAddr then w25nPageSizeBytes - colAddr else remainingLen

/-- The command that loads data, for the format of the channel. -/
def loadCommand (c : W25nChannel σ) (colAddr : BitVec 32) : Bytes :=
  [if c.channel.format = .quadFull then w25nCmdQuadProgDataLoad else w25nCmdProgramDataLoad,
    highByte colAddr.toNat, lowByte colAddr.toNat]

/-- The loop of `Scai_W25_Fpga_Flash_program`, with as many turns as bytes at the most. -/
def programLoop : ℕ → (ℕ → BitVec 8) → CommandBuffer → BitVec 32 → BitVec 32 → W25nChannel σ →
    W25nChannel σ × BitVec 8
  | 0, _, _, _, _, c => (c, 0)
  | turns + 1, currentBuf, cmd, currentAddr, remainingLen, c =>
      if remainingLen = 0 then (c, 0)
      else
        let colAddr := w25nLogicalToPhysical currentAddr &&& 0xFFF
        let c := writeEnable qspi stack c
        let writeLen := chunkLen remainingLen colAddr
        let cmd := cmd.set (loadCommand c colAddr)
        let loaded := waitFlashReady qspi stack (sendCommand qspi stack cmd true c)
        if loaded.2 ≠ 0 then (loaded.1, 1)
        else
          let c := writeEnable qspi stack loaded.1
          let executed := waitFlashReady qspi stack (sendCommand qspi stack cmd false c)
          if executed.2 ≠ 0 then (executed.1, 1)
          else
            programLoop turns (fun i => currentBuf (writeLen.toNat + i)) cmd (currentAddr + writeLen)
              (remainingLen - writeLen) executed.1

/-- `Scai_W25_Fpga_Flash_program`.  There may be no buffer. -/
def program (buf : Option (ℕ → BitVec 8)) (addr len : BitVec 32) (c : W25nChannel σ) :
    W25nChannel σ × BitVec 8 :=
  match buf with
  | none => (c, 1)
  | some buf => if len = 0 then (c, 1) else programLoop qspi stack len.toNat buf (.unset 4) addr len c

/-- The loop of `Scai_W25_Fpga_Flash_read`, with as many turns as bytes at the most. -/
def readLoop : ℕ → CommandBuffer → ℕ → BitVec 32 → BitVec 32 → (ℕ → BitVec 8) → W25nChannel σ →
    W25nChannel σ × BitVec 8 × (ℕ → BitVec 8)
  | 0, _, _, _, _, memory, c => (c, 0, memory)
  | turns + 1, cmd, currentBuf, currentAddr, remainingLen, memory, c =>
      if remainingLen = 0 then (c, 0, memory)
      else
        let physicalAddr := w25nLogicalToPhysical currentAddr
        let pageAddr := physicalAddr >>> 12
        let colAddr := physicalAddr &&& 0xFFF
        let cmd := cmd.set [w25nCmdPageDataRead, highByte pageAddr.toNat, lowByte pageAddr.toNat]
        let ready := waitFlashReady qspi stack (sendCommand qspi stack cmd false c)
        if ready.2 ≠ 0 then (ready.1, 1, memory)
        else
          let readLen := chunkLen remainingLen colAddr
          let cmd := cmd.set
            [if ready.1.channel.format = .quadFull then w25nCmdQuadReadData else w25nCmdReadData,
              highByte colAddr.toNat, lowByte colAddr.toNat, 0]
          let done := transaction qspi stack cmd false currentBuf readLen.toNat memory ready.1
          readLoop turns cmd (currentBuf + readLen.toNat) (currentAddr + readLen)
            (remainingLen - readLen) done.2 done.1

/-- `Scai_W25_Fpga_Flash_read` to a buffer in memory, if there is one. -/
def read (buf : Option ℕ) (addr len : BitVec 32) (memory : ℕ → BitVec 8) (c : W25nChannel σ) :
    W25nChannel σ × BitVec 8 × (ℕ → BitVec 8) :=
  match buf with
  | none => (c, 1, memory)
  | some buf =>
      if len = 0 then (c, 1, memory)
      else readLoop qspi stack len.toNat (.unset 5) buf addr len memory c

end

/-! ### What is to be sent -/

/-- The commands as the flash gets them: one that keeps the chip enable is continued by the next. -/
def frames : List SentCommand → List CommandBuffer
  | [] => []
  | t :: rest =>
      match t.keepCeActive, frames rest with
      | true, frame :: later => (t.bytes ++ frame) :: later
      | _, later => t.bytes :: later

/-- Every byte of the buffer is loaded at its column. -/
def Loads (sent : List SentCommand) (buf : ℕ → BitVec 8) (addr len : BitVec 32) : Prop :=
  ∀ i < len.toNat, ∃ frame ∈ frames sent, ∃ opcode high low data,
    frame = some opcode :: some high :: some low :: data ∧
      (opcode = w25nCmdProgramDataLoad ∨ opcode = w25nCmdQuadProgDataLoad) ∧
      ∃ k, high.toNat * 256 + low.toNat + k = (addr.toNat + i) % 2048 ∧ data[k]? = some (some (buf i))

/-- The page of every byte is committed. -/
def Commits (sent : List SentCommand) (addr len : BitVec 32) : Prop :=
  ∀ i < len.toNat, ∃ dummy, [some w25nCmdProgramExecute, some dummy,
    some (highByte ((addr.toNat + i) / 2048)), some (lowByte ((addr.toNat + i) / 2048))] ∈ frames sent

/-- The block is erased, by the address of its first page. -/
def Erases (sent : List SentCommand) (blockNb : BitVec 16) : Prop :=
  ∃ dummy, [some w25nCmdBlockErase, some dummy, some (highByte (blockNb.toNat * 64)),
    some (lowByte (blockNb.toNat * 64))] ∈ frames sent

/-- Every byte that was sent had a value. -/
def Initialised (sent : List SentCommand) : Prop := ∀ t ∈ sent, none ∉ t.bytes

/-- A channel over which nothing was sent yet. -/
def fresh (channel : ScaiFpgaChannel σ) : W25nChannel σ := ⟨channel, []⟩

end W25nChannel

open W25nChannel in
/-- The driver transfers the data: with whatever flash behind the controller, from any channel. -/
structure W25nTransfers (qspi : ScaiQspi σ) (stack : ℕ → BitVec 8) (channel : ScaiFpgaChannel σ)
    (buf : ℕ → BitVec 8) (addr len : BitVec 32) (blockNb : BitVec 16) (rxBuffer : ℕ)
    (memory : ℕ → BitVec 8) : Prop where
  loads : (program qspi stack (some buf) addr len (fresh channel)).2 = 0 →
    Loads (program qspi stack (some buf) addr len (fresh channel)).1.sent buf addr len
  commits : (program qspi stack (some buf) addr len (fresh channel)).2 = 0 →
    Commits (program qspi stack (some buf) addr len (fresh channel)).1.sent addr len
  erases : Erases (eraseBlock qspi stack blockNb (fresh channel)).1.sent blockNb
  programInitialised : Initialised (program qspi stack (some buf) addr len (fresh channel)).1.sent
  eraseInitialised : Initialised (eraseBlock qspi stack blockNb (fresh channel)).1.sent
  readInitialised : Initialised (read qspi stack (some rxBuffer) addr len memory (fresh channel)).1.sent
  readsBack : (program qspi stack (some buf) addr len (fresh channel)).2 = 0 →
    (read qspi stack (some rxBuffer) addr len memory
      (program qspi stack (some buf) addr len (fresh channel)).1).2.1 = 0 ∧
    ∀ i < len.toNat, (read qspi stack (some rxBuffer) addr len memory
      (program qspi stack (some buf) addr len (fresh channel)).1).2.2 (rxBuffer + i) = buf i

/-- The column is the place in the page. -/
theorem w25nColumn_eq (addr : BitVec 32) : w25nLogicalToPhysical addr &&& 0xFFF = addr &&& 0x7FF := by
  apply BitVec.eq_of_getLsbD_eq
  intro i less
  rw [w25nLogicalToPhysical]
  simp only [BitVec.getLsbD_and, BitVec.getLsbD_or, BitVec.getLsbD_shiftLeft]
  interval_cases i <;> simp

theorem w25nColumn_toNat (addr : BitVec 32) :
    (w25nLogicalToPhysical addr &&& 0xFFF).toNat = addr.toNat % 2048 := by
  rw [w25nColumn_eq, BitVec.toNat_and]
  exact Nat.and_two_pow_sub_one_eq_mod addr.toNat 11

namespace W25nChannel

/-! ### The loops end -/

/-- Each turn takes at least one byte, and no more than are left. -/
theorem chunkLen_bounds {len : BitVec 32} (present : len ≠ 0) (addr : BitVec 32) :
    (len - chunkLen len (w25nLogicalToPhysical addr &&& 0xFFF)).toNat < len.toNat := by
  have column := w25nColumn_toNat addr
  have small : (w25nLogicalToPhysical addr &&& 0xFFF).toNat < 2048 := by omega
  generalize w25nLogicalToPhysical addr &&& 0xFFF = colAddr at small
  have positive : 0 < len.toNat := Nat.pos_of_ne_zero fun zero => present (BitVec.eq_of_toNat_eq zero)
  have page : (w25nPageSizeBytes - colAddr).toNat = 2048 - colAddr.toNat := by
    have below : colAddr ≤ w25nPageSizeBytes := by
      rw [BitVec.le_def]
      exact small.le
    rw [BitVec.toNat_sub_of_le below]
    rfl
  rw [chunkLen]
  split
  · next more =>
    rw [BitVec.toNat_sub_of_le (BitVec.le_of_lt more), page]
    omega
  · rw [BitVec.sub_self]
    exact positive

section
variable (qspi : ScaiQspi σ) (stack : ℕ → BitVec 8)

/-- More turns than bytes change nothing. -/
theorem programLoop_turns {turns : ℕ} (buf : ℕ → BitVec 8) (cmd : CommandBuffer) (addr : BitVec 32)
    {len : BitVec 32} (c : W25nChannel σ) (enough : len.toNat ≤ turns) :
    programLoop qspi stack (turns + 1) buf cmd addr len c =
      programLoop qspi stack turns buf cmd addr len c := by
  induction turns generalizing buf cmd addr len c with
  | zero =>
    have zero : len = 0 := BitVec.eq_of_toNat_eq (Nat.le_zero.mp enough)
    unfold programLoop
    exact if_pos zero
  | succ turns ih =>
    unfold programLoop
    by_cases zero : len = 0
    · rw [if_pos zero, if_pos zero]
    · have less := chunkLen_bounds zero addr
      rw [if_neg zero, if_neg zero]
      dsimp only
      rw [ih _ _ _ _ (by omega)]

theorem readLoop_turns {turns : ℕ} (cmd : CommandBuffer) (buf : ℕ) (addr : BitVec 32)
    {len : BitVec 32} (memory : ℕ → BitVec 8) (c : W25nChannel σ) (enough : len.toNat ≤ turns) :
    readLoop qspi stack (turns + 1) cmd buf addr len memory c =
      readLoop qspi stack turns cmd buf addr len memory c := by
  induction turns generalizing cmd buf addr len memory c with
  | zero =>
    have zero : len = 0 := BitVec.eq_of_toNat_eq (Nat.le_zero.mp enough)
    unfold readLoop
    exact if_pos zero
  | succ turns ih =>
    unfold readLoop
    by_cases zero : len = 0
    · rw [if_pos zero, if_pos zero]
    · have less := chunkLen_bounds zero addr
      rw [if_neg zero, if_neg zero]
      dsimp only
      rw [ih _ _ _ _ _ (by omega)]

end

/-! ### What is sent -/

/-- One channel comes from another by commands with the property. -/
def Sends (p : SentCommand → Prop) (c c' : W25nChannel σ) : Prop :=
  ∃ more, c'.sent = c.sent ++ more ∧ ∀ t ∈ more, p t

variable {p : SentCommand → Prop} {c c' c'' : W25nChannel σ}

theorem Sends.refl : Sends p c c := ⟨[], (List.append_nil _).symm, List.forall_mem_nil _⟩

theorem Sends.trans (first : Sends p c c') (second : Sends p c' c'') : Sends p c c'' := by
  obtain ⟨more, sent, all⟩ := first
  obtain ⟨more', sent', all'⟩ := second
  refine ⟨more ++ more', by rw [sent', sent, List.append_assoc], fun t mem => ?_⟩
  exact (List.mem_append.mp mem).elim (all t) (all' t)

theorem Sends.mem (sends : Sends p c c') {t : SentCommand} (mem : t ∈ c.sent) : t ∈ c'.sent := by
  obtain ⟨more, sent, -⟩ := sends
  rw [sent]
  exact List.mem_append_left _ mem

theorem Sends.forall_sent (sends : Sends p c c') (none : c.sent = []) : ∀ t ∈ c'.sent, p t := by
  obtain ⟨more, sent, all⟩ := sends
  rw [sent, none]
  exact all

section
variable {qspi : ScaiQspi σ} {stack : ℕ → BitVec 8}

theorem transaction_sends {cmd : CommandBuffer} {keepCeActive : Bool} (ok : p ⟨cmd, keepCeActive⟩)
    (rxBuffer rxLen : ℕ) (memory : ℕ → BitVec 8) :
    Sends p c (transaction qspi stack cmd keepCeActive rxBuffer rxLen memory c).1 :=
  ⟨[⟨cmd, keepCeActive⟩], rfl, fun _ mem => List.mem_singleton.mp mem ▸ ok⟩

theorem sendCommand_sends {cmd : CommandBuffer} {keepCeActive : Bool} (ok : p ⟨cmd, keepCeActive⟩) :
    Sends p c (sendCommand qspi stack cmd keepCeActive c) :=
  transaction_sends ok 0 0 _

/-- The commands that the driver sends by itself, about which nothing depends on a request. -/
structure Own (p : SentCommand → Prop) : Prop where
  getFeature : p ⟨[some w25nCmdGetFeatures, some w25nRegStatus], false⟩
  writeEnable : p ⟨[some w25nCmdWriteEnable], false⟩

theorem waitFlashReady_sends (own : Own p) : Sends p c (waitFlashReady qspi stack c).1 := by
  have polls (n : ℕ) : Sends p c (pollReady qspi stack n c).1 := by
    induction n generalizing c with
    | zero => exact .refl
    | succ n ih =>
      have poll : Sends p c (getFeature qspi stack w25nRegStatus c).1 :=
        transaction_sends own.getFeature 0 1 _
      rw [pollReady]
      split
      · exact poll
      · exact poll.trans ih
  exact polls 20000

theorem writeEnable_sends (own : Own p) : Sends p c (writeEnable qspi stack c) :=
  sendCommand_sends own.writeEnable

theorem eraseBlock_sends (qspi : ScaiQspi σ) (stack : ℕ → BitVec 8) (c : W25nChannel σ) (own : Own p)
    (unset : p ⟨.unset 4, false⟩) (blockNb : BitVec 16) :
    Sends p c (eraseBlock qspi stack blockNb c).1 :=
  ((writeEnable_sends own).trans (sendCommand_sends unset)).trans (waitFlashReady_sends own)

/-- A command that is enabled, and the wait for its end. -/
theorem enabledCommand_sends (qspi : ScaiQspi σ) (stack : ℕ → BitVec 8) (c : W25nChannel σ)
    (own : Own p) {cmd : CommandBuffer} {keep : Bool} (ok : p ⟨cmd, keep⟩) :
    Sends p c (waitFlashReady qspi stack
      (sendCommand qspi stack cmd keep (writeEnable qspi stack c))).1 :=
  ((writeEnable_sends own).trans (sendCommand_sends ok)).trans (waitFlashReady_sends own)

theorem programLoop_sends (own : Own p)
    (load : ∀ cmd (c : W25nChannel σ) colAddr keep, p ⟨CommandBuffer.set cmd (loadCommand c colAddr), keep⟩)
    (turns : ℕ) (buf : ℕ → BitVec 8) (cmd : CommandBuffer) (addr len : BitVec 32) :
    Sends p c (programLoop qspi stack turns buf cmd addr len c).1 := by
  induction turns generalizing buf cmd addr len c with
  | zero => exact .refl
  | succ turns ih =>
    have loaded := enabledCommand_sends qspi stack c own
      (load cmd (writeEnable qspi stack c) (w25nLogicalToPhysical addr &&& 0xFFF) true)
    rw [programLoop]
    split
    · exact .refl
    · dsimp only
      split
      · exact loaded
      · have executed := loaded.trans (enabledCommand_sends qspi stack _ own
          (load cmd (writeEnable qspi stack c) (w25nLogicalToPhysical addr &&& 0xFFF) false))
        split
        · exact executed
        · exact executed.trans (ih _ _ _ _)

/-- The first load is sent, whatever comes after it. -/
theorem load_mem_programLoop {len : BitVec 32} (present : len ≠ 0) (turns : ℕ) (buf : ℕ → BitVec 8)
    (cmd : CommandBuffer) (addr : BitVec 32) :
    ⟨cmd.set (loadCommand (writeEnable qspi stack c) (w25nLogicalToPhysical addr &&& 0xFFF)), true⟩ ∈
      (programLoop qspi stack (turns + 1) buf cmd addr len c).1.sent := by
  have own : Own fun _ => True := ⟨trivial, trivial⟩
  have anything (cmd : CommandBuffer) (c : W25nChannel σ) (colAddr : BitVec 32) (keep : Bool) :
      (fun _ : SentCommand => True) ⟨cmd.set (loadCommand c colAddr), keep⟩ := trivial
  have loaded (cmd : CommandBuffer) (c : W25nChannel σ) :
      ⟨cmd, true⟩ ∈ (waitFlashReady qspi stack (sendCommand qspi stack cmd true c)).1.sent :=
    (waitFlashReady_sends own).mem (List.mem_append_right _ (List.mem_singleton.mpr rfl))
  rw [programLoop, if_neg present]
  dsimp only
  split
  · exact loaded _ _
  · split
    · exact (enabledCommand_sends _ _ _ own trivial).mem (loaded _ _)
    · exact (programLoop_sends own anything _ _ _ _ _).mem
        ((enabledCommand_sends _ _ _ own trivial).mem (loaded _ _))

theorem readLoop_sends (own : Own fun _ => True) (turns : ℕ) (cmd : CommandBuffer) (buf : ℕ)
    (addr len : BitVec 32) (memory : ℕ → BitVec 8) :
    Sends (fun _ => True) c (readLoop qspi stack turns cmd buf addr len memory c).1 := by
  induction turns generalizing cmd buf addr len memory c with
  | zero => exact .refl
  | succ turns ih =>
    have ready (cmd : CommandBuffer) : Sends (fun _ => True) c
        (waitFlashReady qspi stack (sendCommand qspi stack cmd false c)).1 :=
      (sendCommand_sends trivial).trans (waitFlashReady_sends own)
    rw [readLoop]
    split
    · exact .refl
    · dsimp only
      split
      · exact ready _
      · exact ((ready _).trans (transaction_sends trivial _ _ _)).trans (ih _ _ _ _ _)

/-- The first page is asked for, whatever comes after it. -/
theorem pageDataRead_mem_readLoop {len : BitVec 32} (present : len ≠ 0) (turns : ℕ)
    (cmd : CommandBuffer) (buf : ℕ) (addr : BitVec 32) (memory : ℕ → BitVec 8) :
    ⟨cmd.set [w25nCmdPageDataRead, highByte (w25nLogicalToPhysical addr >>> 12).toNat,
        lowByte (w25nLogicalToPhysical addr >>> 12).toNat], false⟩ ∈
      (readLoop qspi stack (turns + 1) cmd buf addr len memory c).1.sent := by
  have own : Own fun _ => True := ⟨trivial, trivial⟩
  have asked (cmd : CommandBuffer) :
      ⟨cmd, false⟩ ∈ (waitFlashReady qspi stack (sendCommand qspi stack cmd false c)).1.sent :=
    (waitFlashReady_sends own).mem (List.mem_append_right _ (List.mem_singleton.mpr rfl))
  rw [readLoop, if_neg present]
  dsimp only
  split
  · exact asked _
  · exact (readLoop_sends own _ _ _ _ _ _).mem
      ((transaction_sends (p := fun _ => True) trivial _ _ _).mem (asked _))

end

/-! ### What is not sent -/

/-- A frame begins as one of the commands does. -/
theorem exists_prefix_of_mem_frames {sent : List SentCommand} {frame : CommandBuffer}
    (mem : frame ∈ frames sent) : ∃ t ∈ sent, t.bytes <+: frame := by
  induction sent generalizing frame with
  | nil => exact absurd mem List.not_mem_nil
  | cons t rest ih =>
    have later (mem : frame ∈ frames rest) : ∃ t' ∈ t :: rest, t'.bytes <+: frame := by
      obtain ⟨t', mem', begins⟩ := ih mem
      exact ⟨t', List.mem_cons_of_mem _ mem', begins⟩
    rw [frames] at mem
    split at mem
    · next first more _ same =>
      rcases List.mem_cons.mp mem with rfl | mem
      · exact ⟨t, List.mem_cons_self, List.prefix_append ..⟩
      · exact later (same ▸ List.mem_cons_of_mem _ mem)
    · rcases List.mem_cons.mp mem with rfl | mem
      · exact ⟨t, List.mem_cons_self, List.prefix_rfl⟩
      · exact later mem

/-- The command begins with one of the opcodes, or with a byte that has no value. -/
def Opens (opcodes : List (Option (BitVec 8))) (t : SentCommand) : Prop :=
  ∃ opcode ∈ opcodes, ∃ rest, t.bytes = opcode :: rest

theorem opcode_mem_of_frames {opcodes : List (Option (BitVec 8))} {sent : List SentCommand}
    (opens : ∀ t ∈ sent, Opens opcodes t) {opcode : Option (BitVec 8)} {rest : CommandBuffer}
    (mem : opcode :: rest ∈ frames sent) : opcode ∈ opcodes := by
  obtain ⟨t, sent, begins⟩ := exists_prefix_of_mem_frames mem
  obtain ⟨first, listed, tail, bytes⟩ := opens t sent
  rw [bytes] at begins
  rwa [← (List.cons_prefix_cons.mp begins).1]

section
variable (qspi : ScaiQspi σ) (stack : ℕ → BitVec 8) (channel : ScaiFpgaChannel σ)

/-- No block is erased: the command that is to do it was never set. -/
theorem eraseBlock_erases_none (blockNb : BitVec 16) :
    ¬Erases (eraseBlock qspi stack blockNb (fresh channel)).1.sent blockNb := by
  have own : Own (Opens [none, some w25nCmdGetFeatures, some w25nCmdWriteEnable]) :=
    ⟨⟨_, by decide, _, rfl⟩, ⟨_, by decide, _, rfl⟩⟩
  have sends := eraseBlock_sends qspi stack (fresh channel) own ⟨none, by decide, _, rfl⟩ blockNb
  rintro ⟨dummy, mem⟩
  have listed := opcode_mem_of_frames (sends.forall_sent rfl) mem
  exact absurd listed (by decide)

theorem program_sends (buf : ℕ → BitVec 8) (addr len : BitVec 32) :
    ∀ t ∈ (program qspi stack (some buf) addr len (fresh channel)).1.sent,
      Opens [some w25nCmdGetFeatures, some w25nCmdWriteEnable, some w25nCmdProgramDataLoad,
        some w25nCmdQuadProgDataLoad] t := by
  have own : Own (Opens [some w25nCmdGetFeatures, some w25nCmdWriteEnable, some w25nCmdProgramDataLoad,
      some w25nCmdQuadProgDataLoad]) := ⟨⟨_, by decide, _, rfl⟩, ⟨_, by decide, _, rfl⟩⟩
  rw [program]
  split
  · exact List.forall_mem_nil _
  · refine (programLoop_sends own (fun cmd c colAddr keep => ?_) _ _ _ _ _).forall_sent rfl
    rw [loadCommand]
    split
    · exact ⟨some w25nCmdQuadProgDataLoad, by decide, _, rfl⟩
    · exact ⟨some w25nCmdProgramDataLoad, by decide, _, rfl⟩

theorem program_eq_programLoop {len : BitVec 32} (present : len ≠ 0) (buf : ℕ → BitVec 8)
    (addr : BitVec 32) : program qspi stack (some buf) addr len (fresh channel) =
      programLoop qspi stack len.toNat buf (.unset 4) addr len (fresh channel) := by
  rw [program, if_neg present]

/-- A program that succeeds has commited no page. -/
theorem program_commits_none {buf : ℕ → BitVec 8} {addr len : BitVec 32}
    (success : (program qspi stack (some buf) addr len (fresh channel)).2 = 0) :
    ¬Commits (program qspi stack (some buf) addr len (fresh channel)).1.sent addr len := by
  intro commits
  have present : 0 < len.toNat := by
    by_contra none
    have zero : len = 0 := BitVec.eq_of_toNat_eq (Nat.eq_zero_of_not_pos none)
    rw [program, if_pos zero] at success
    exact absurd (show (1 : BitVec 8) = 0 from success) (by decide)
  obtain ⟨dummy, mem⟩ := commits 0 present
  have listed := opcode_mem_of_frames (program_sends qspi stack channel buf addr len) mem
  exact absurd listed (by decide)

/-- The first load ends with a byte that has no value. -/
theorem program_not_initialised (buf : ℕ → BitVec 8) (addr : BitVec 32) {len : BitVec 32}
    (present : len ≠ 0) :
    ¬Initialised (program qspi stack (some buf) addr len (fresh channel)).1.sent := by
  intro initialised
  have positive : len.toNat ≠ 0 := fun zero => present (BitVec.eq_of_toNat_eq zero)
  obtain ⟨turns, length⟩ := Nat.exists_eq_succ_of_ne_zero positive
  rw [program_eq_programLoop qspi stack channel present, length] at initialised
  have load := initialised _ (load_mem_programLoop present turns buf (.unset 4) addr)
  exact load (by simp [CommandBuffer.set, CommandBuffer.unset, loadCommand])

/-- The first command of a read has two bytes without a value. -/
theorem read_not_initialised (buf : ℕ) (addr : BitVec 32) {len : BitVec 32} (present : len ≠ 0)
    (memory : ℕ → BitVec 8) :
    ¬Initialised (read qspi stack (some buf) addr len memory (fresh channel)).1.sent := by
  intro initialised
  have positive : len.toNat ≠ 0 := fun zero => present (BitVec.eq_of_toNat_eq zero)
  obtain ⟨turns, length⟩ := Nat.exists_eq_succ_of_ne_zero positive
  rw [read, if_neg present, length] at initialised
  have asked := initialised _ (pageDataRead_mem_readLoop present turns (.unset 5) buf addr memory)
  exact asked (by simp [CommandBuffer.set, CommandBuffer.unset])

theorem eraseBlock_not_initialised (blockNb : BitVec 16) :
    ¬Initialised (eraseBlock qspi stack blockNb (fresh channel)).1.sent := by
  intro initialised
  have own : Own fun _ => True := ⟨trivial, trivial⟩
  have mem : ⟨.unset 4, false⟩ ∈ (eraseBlock qspi stack blockNb (fresh channel)).1.sent :=
    (waitFlashReady_sends own).mem (List.mem_append_right _ (List.mem_singleton.mpr rfl))
  exact initialised _ mem (by decide)

/-- The data play no part in what a program does. -/
theorem program_ignores_buffer (buf buf' : ℕ → BitVec 8) (addr len : BitVec 32) (c : W25nChannel σ) :
    program qspi stack (some buf) addr len c = program qspi stack (some buf') addr len c := by
  have loop (turns : ℕ) (buf buf' : ℕ → BitVec 8) (cmd : CommandBuffer) (addr len : BitVec 32)
      (c : W25nChannel σ) : programLoop qspi stack turns buf cmd addr len c =
        programLoop qspi stack turns buf' cmd addr len c := by
    induction turns generalizing buf buf' cmd addr len c with
    | zero => rfl
    | succ turns ih =>
      rw [programLoop, programLoop]
      dsimp only
      rw [ih]
  rw [program, program, loop]

end

end W25nChannel

open W25nChannel

/-- Of no request, over no channel and with no flash behind it, does the driver transfer the data: it
erases no block, commits no page and sends bytes that were never set; nor are two buffers that differ
both read back. -/
theorem w25n_transfers_never {σ : Type} (qspi : ScaiQspi σ) (stack : ℕ → BitVec 8)
    (channel : ScaiFpgaChannel σ) (buf : ℕ → BitVec 8) (addr len : BitVec 32) (blockNb : BitVec 16)
    (rxBuffer : ℕ) (memory : ℕ → BitVec 8) :
    ¬W25nTransfers qspi stack channel buf addr len blockNb rxBuffer memory ∧
      ¬Erases (eraseBlock qspi stack blockNb (fresh channel)).1.sent blockNb ∧
      ((program qspi stack (some buf) addr len (fresh channel)).2 = 0 →
        ¬Commits (program qspi stack (some buf) addr len (fresh channel)).1.sent addr len) ∧
      ¬Initialised (eraseBlock qspi stack blockNb (fresh channel)).1.sent ∧
      (len ≠ 0 → ¬Initialised (program qspi stack (some buf) addr len (fresh channel)).1.sent ∧
        ¬Initialised (read qspi stack (some rxBuffer) addr len memory (fresh channel)).1.sent) ∧
      ∀ buf', program qspi stack (some buf') addr len (fresh channel) =
        program qspi stack (some buf) addr len (fresh channel) :=
  ⟨fun transfers => eraseBlock_erases_none qspi stack channel blockNb transfers.erases,
    eraseBlock_erases_none qspi stack channel blockNb,
    program_commits_none qspi stack channel,
    eraseBlock_not_initialised qspi stack channel blockNb,
    fun present => ⟨program_not_initialised qspi stack channel buf addr present,
      read_not_initialised qspi stack channel rxBuffer addr present memory⟩,
    fun buf' => program_ignores_buffer qspi stack buf' buf addr len (fresh channel)⟩

/-- A controller that is always idle, takes all that is sent and gives zeros. -/
def quietQspi : ScaiQspi Unit where
  setCtrl1 _ s := s
  setData _ s := s
  getData s := (s, 0)
  getIdle s := (s, true)
  getStatus2 s := (s, ⟨0, 1, by decide⟩)

/-- One byte at the start of the flash. -/
theorem w25n_not_transfers : ¬∀ {σ : Type} (qspi : ScaiQspi σ) (stack : ℕ → BitVec 8)
    (channel : ScaiFpgaChannel σ) (buf : ℕ → BitVec 8) (addr len : BitVec 32) (blockNb : BitVec 16)
    (rxBuffer : ℕ) (memory : ℕ → BitVec 8),
    W25nTransfers qspi stack channel buf addr len blockNb rxBuffer memory := by
  intro all
  have transfers := all quietQspi (fun _ => 0xAA) ⟨idleCtrl1, .normal, ()⟩ (fun _ => 0x55) 0 1 0 0
    fun _ => 0
  exact program_not_initialised quietQspi (fun _ => 0xAA) ⟨idleCtrl1, .normal, ()⟩ (fun _ => 0x55) 0
    (by decide) transfers.programInitialised

end Hss
