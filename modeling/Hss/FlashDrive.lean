import Hss.Types
import Hss.Lib.ByteMemory

/-! The USB drive: the call-backs through which the mass storage class driver reads and writes the
storage, against every answer of the storage. -/

namespace Hss

open ByteMemory

/-- `SD_RD_WR_SIZE` -/
def sdRdWrSize : BitVec 32 := 32768

/-- `flash_lun_data_t` -/
structure LunData where
  numberOfBlocks : BitVec 32
  eraseBlockSize : BitVec 32
  lbaBlockSize : BitVec 32

/-- How the storage answers: it does what it is asked for, or it fails and leaves some bytes of the
request in whatever way. -/
inductive StorageAnswer
  | succeeds
  | fails (left : ℕ → Option (BitVec 8))

/-- What `HSS_Storage_ReadBlock` and `HSS_Storage_WriteBlock` return. -/
def StorageAnswer.result : StorageAnswer → Bool
  | .succeeds => true
  | .fails _ => false

/-- Byte `k` of the target once the source was transferred over it. -/
def StorageAnswer.transfer (answer : StorageAnswer) (source target : ℕ → BitVec 8) (k : ℕ) :
    BitVec 8 :=
  match answer with
  | .succeeds => source k
  | .fails left => (left k).getD (target k)

/-- The drive: `lun_data[0]`, `lun0_data_buffer`, what the storage holds, and the counts of bytes. -/
structure FlashDrive where
  lunData : LunData
  buffer : ℕ → BitVec 8
  storage : Memory 64 (BitVec 8)
  readCount : Word
  writeCount : Word

/-- What the storage was asked for, and what it returned. -/
structure StorageAccess where
  byteAddress : Word
  sizeInBytes : ℕ
  result : Bool
  deriving DecidableEq, Repr

/-! ### The call-backs -/

namespace FlashDrive

variable (d : FlashDrive)

/-- Byte `k` from `byteAddress` on. -/
def held (byteAddress : Word) (k : ℕ) : BitVec 8 := d.storage (byteAddress + BitVec.ofNat 64 k)

/-- `HSS_Storage_ReadBlock`, to `lun0_data_buffer` -/
def readBlock (answer : StorageAnswer) (byteAddress : Word) (sizeInBytes : ℕ) : FlashDrive :=
  { d with buffer := fun k =>
      if k < sizeInBytes then answer.transfer (d.held byteAddress) d.buffer k else d.buffer k }

/-- `HSS_Storage_WriteBlock`, from `lun0_data_buffer` -/
def writeBlock (answer : StorageAnswer) (byteAddress : Word) (sizeInBytes : ℕ) : FlashDrive :=
  { d with
    storage := put d.storage byteAddress sizeInBytes (answer.transfer d.buffer (d.held byteAddress)) }

/-- `physical_device_read` -/
def physicalDeviceRead (answer : StorageAnswer) (byteAddress : Word) (sizeInBytes : BitVec 32) :
    StorageAccess × FlashDrive :=
  let d := { d with readCount := d.readCount + sizeInBytes.setWidth 64 }
  (⟨byteAddress, sizeInBytes.toNat, answer.result⟩, d.readBlock answer byteAddress sizeInBytes.toNat)

/-- `physical_device_program` -/
def physicalDeviceProgram (answer : StorageAnswer) (byteAddress : Word) (sizeInBytes : BitVec 32) :
    StorageAccess × FlashDrive :=
  let d := { d with writeCount := d.writeCount + sizeInBytes.setWidth 64 }
  (⟨byteAddress, sizeInBytes.toNat, answer.result⟩, d.writeBlock answer byteAddress sizeInBytes.toNat)

end FlashDrive

/-- `if (len > SD_RD_WR_SIZE) { len = SD_RD_WR_SIZE; }` -/
def clampLen (len : BitVec 32) : BitVec 32 := if sdRdWrSize < len then sdRdWrSize else len

/-- What a call-back returns: of a read, whether `*buf` is set to the buffer and the length; of a
buffer to write, whether there is one and its length; of a write, the result. -/
inductive MediaReply
  | read (buf : Bool) (len : BitVec 32)
  | acquire (buf : Bool) (len : BitVec 32)
  | writeReady (result : BitVec 32)
  deriving DecidableEq, Repr

/-- A call-back that was served, with what it asked the storage for and how many bytes of the buffer
it or the host's data touch. -/
structure Served where
  reply : MediaReply
  access : Option StorageAccess
  touched : ℕ
  drive : FlashDrive

namespace FlashDrive

variable (answer : StorageAnswer) (d : FlashDrive)

/-- `usb_flash_media_read` -/
def usbFlashMediaRead (lun : BitVec 8) (lbaAddr : Word) (len : BitVec 32) : Served :=
  if lun = 0 then
    let len := clampLen len
    let (access, d) := d.physicalDeviceRead answer lbaAddr len
    ⟨.read true len, some access, len.toNat, d⟩
  else ⟨.read false len, none, 0, d⟩

/-- `usb_flash_media_acquire_write_buf`, and the data that the host then sends to the buffer -/
def usbFlashMediaAcquireWriteBuf (lun : BitVec 8) (blkAddr : Word) (sent : List (BitVec 8)) : Served :=
  if blkAddr ≤ d.lunData.numberOfBlocks.setWidth 64 * d.lunData.lbaBlockSize.setWidth 64 ∧
      lun = 0 then
    let received := sent.take sdRdWrSize.toNat
    ⟨.acquire true sdRdWrSize, none, received.length,
      { d with buffer := fun k => received.getD k (d.buffer k) }⟩
  else ⟨.acquire false 0, none, 0, d⟩

/-- `usb_flash_media_write_ready` -/
def usbFlashMediaWriteReady (lun : BitVec 8) (blkAddr : Word) (len : BitVec 32) : Served :=
  if lun = 0 then
    let len := clampLen len
    let (access, d) := d.physicalDeviceProgram answer blkAddr len
    ⟨.writeReady 1, some access, len.toNat, d⟩
  else ⟨.writeReady 0, none, 0, d⟩

end FlashDrive

/-- A call of the class driver. -/
inductive MediaRequest
  | read (lun : BitVec 8) (lbaAddr : Word) (len : BitVec 32)
  | acquire (lun : BitVec 8) (blkAddr : Word) (sent : List (BitVec 8))
  | writeReady (lun : BitVec 8) (blkAddr : Word) (len : BitVec 32)

/-- A call, and how the storage answers while it is served. -/
structure MediaCall where
  request : MediaRequest
  answer : StorageAnswer

def FlashDrive.serve (d : FlashDrive) (call : MediaCall) : Served :=
  match call.request with
  | .read lun lbaAddr len => d.usbFlashMediaRead call.answer lun lbaAddr len
  | .acquire lun blkAddr sent => d.usbFlashMediaAcquireWriteBuf lun blkAddr sent
  | .writeReady lun blkAddr len => d.usbFlashMediaWriteReady call.answer lun blkAddr len

/-- The calls of a session, each with the drive before it and how it was served. -/
def FlashDrive.session : FlashDrive → List MediaCall → List (FlashDrive × MediaCall × Served)
  | _, [] => []
  | d, call :: calls => (d, call, d.serve call) :: session (d.serve call).drive calls

/-! ### What the call-backs should do -/

/-- The capacity that the drive advertises. -/
def LunData.capacity (lunData : LunData) : ℕ :=
  lunData.numberOfBlocks.toNat * lunData.lbaBlockSize.toNat

def StorageAccess.Inside (access : StorageAccess) (capacity : ℕ) : Prop :=
  ∀ k < access.sizeInBytes, access.byteAddress.toNat + k < capacity

/-- The class driver takes the reply for a failure. -/
def MediaReply.Failed : MediaReply → Prop
  | .read buf _ => buf = false
  | .acquire buf _ => buf = false
  | .writeReady result => result = 0

/-- The call stays inside the drive and the buffer, hands out what the storage holds, and reports a
failure of the storage. -/
structure Truthful (d : FlashDrive) (call : MediaCall) (served : Served) : Prop where
  inside : ∀ access ∈ served.access, access.Inside d.lunData.capacity
  touched : served.touched ≤ sdRdWrSize.toNat
  data : ∀ lun lbaAddr len n, call.request = .read lun lbaAddr len → served.reply = .read true n →
    ∀ k < n.toNat, served.drive.buffer k = served.drive.held lbaAddr k
  reported : ∀ access ∈ served.access, access.result = false → served.reply.Failed

/-- Where a call transfers data, and how much it asks for. -/
def MediaRequest.transfer : MediaRequest → Option (Word × BitVec 32)
  | .read lun lbaAddr len => if lun = 0 then some (lbaAddr, len) else none
  | .acquire _ _ _ => none
  | .writeReady lun blkAddr len => if lun = 0 then some (blkAddr, len) else none

/-- What the call transfers lies inside the drive, and the storage succeeds. -/
def MediaCall.Harmless (call : MediaCall) (capacity : ℕ) : Prop :=
  ∀ transfer ∈ call.request.transfer, call.answer.result = true ∧
    (transfer.2 = 0 ∨ transfer.1.toNat + min transfer.2.toNat sdRdWrSize.toNat ≤ capacity)

/-! ### One call -/

section
variable {d : FlashDrive} {call : MediaCall} {answer : StorageAnswer} {lun : BitVec 8} {addr : Word}
  {len : BitVec 32} {capacity : ℕ}

theorem clampLen_toNat (len : BitVec 32) : (clampLen len).toNat = min len.toNat sdRdWrSize.toNat := by
  rw [clampLen]
  split <;> (rename_i longer; rw [BitVec.lt_def] at longer; omega)

theorem inside_clampLen (result : Bool) :
    (⟨addr, (clampLen len).toNat, result⟩ : StorageAccess).Inside capacity ↔
      len = 0 ∨ addr.toNat + min len.toNat sdRdWrSize.toNat ≤ capacity := by
  show (∀ k < (clampLen len).toNat, addr.toNat + k < capacity) ↔ _
  rw [clampLen_toNat, ← BitVec.toNat_inj]
  have size : sdRdWrSize.toNat = 32768 := rfl
  have zero : (0 : BitVec 32).toNat = 0 := rfl
  constructor
  · intro inside
    have last := inside (min len.toNat sdRdWrSize.toNat - 1)
    omega
  · intro fits k below
    omega

theorem readBlock_buffer (succeeds : answer.result = true) {n k : ℕ} (below : k < n) :
    (d.readBlock answer addr n).buffer k = d.held addr k := by
  cases answer with
  | succeeds => exact if_pos below
  | fails left => exact absurd succeeds Bool.false_ne_true

theorem serve_lunData (d : FlashDrive) (call : MediaCall) :
    (d.serve call).drive.lunData = d.lunData := by
  obtain ⟨request, answer⟩ := call
  cases request with
  | read lun lbaAddr len =>
    simp only [FlashDrive.serve, FlashDrive.usbFlashMediaRead]
    split <;> rfl
  | acquire lun blkAddr sent =>
    simp only [FlashDrive.serve, FlashDrive.usbFlashMediaAcquireWriteBuf]
    split <;> rfl
  | writeReady lun blkAddr len =>
    simp only [FlashDrive.serve, FlashDrive.usbFlashMediaWriteReady]
    split <;> rfl

/-- A call that transfers data, and does not report failures. -/
theorem transferred_truthful_iff {served : Served} (transfer : call.request.transfer = some (addr, len))
    (access : served.access = some ⟨addr, (clampLen len).toNat, call.answer.result⟩)
    (touched : served.touched = (clampLen len).toNat) (silent : ¬served.reply.Failed)
    (data : call.answer.result = true → ∀ lun lbaAddr len n, call.request = .read lun lbaAddr len →
      served.reply = .read true n → ∀ k < n.toNat, served.drive.buffer k = served.drive.held lbaAddr k) :
    Truthful d call served ↔ call.Harmless d.lunData.capacity := by
  rw [MediaCall.Harmless, transfer]
  simp only [Option.mem_some, forall_eq', ← inside_clampLen call.answer.result]
  constructor
  · rintro ⟨inside, -, -, reported⟩
    refine ⟨?_, inside _ access⟩
    by_contra failed
    exact silent (reported _ access (Bool.eq_false_iff.mpr failed))
  · rintro ⟨succeeds, inside⟩
    refine ⟨?_, ?_, data succeeds, ?_⟩
    · intro asked present
      obtain rfl := Option.some.inj (present.symm.trans access)
      exact inside
    · rw [touched, clampLen_toNat]
      exact min_le_right _ _
    · intro asked present failed
      obtain rfl := Option.some.inj (present.symm.trans access)
      exact absurd (failed.symm.trans succeeds) Bool.false_ne_true

theorem read_truthful_iff :
    Truthful d ⟨.read lun addr len, answer⟩ (d.usbFlashMediaRead answer lun addr len) ↔
      MediaCall.Harmless ⟨.read lun addr len, answer⟩ d.lunData.capacity := by
  by_cases drive : lun = 0
  · rw [FlashDrive.usbFlashMediaRead, if_pos drive]
    refine transferred_truthful_iff (if_pos drive) rfl rfl (by simp [MediaReply.Failed]) ?_
    rintro succeeds _ _ _ _ ⟨⟩ ⟨⟩ k below
    exact readBlock_buffer succeeds below
  · rw [FlashDrive.usbFlashMediaRead, if_neg drive, MediaCall.Harmless]
    simp only [MediaRequest.transfer, if_neg drive]
    refine iff_of_true ⟨?_, ?_, ?_, ?_⟩ ?_ <;> simp

theorem acquire_truthful (sent : List (BitVec 8)) :
    Truthful d ⟨.acquire lun addr sent, answer⟩ (d.usbFlashMediaAcquireWriteBuf lun addr sent) := by
  rw [FlashDrive.usbFlashMediaAcquireWriteBuf]
  split
  · refine ⟨by simp, ?_, by simp, by simp⟩
    exact List.length_take_le _ _
  · exact ⟨by simp, Nat.zero_le _, by simp, by simp⟩

theorem writeReady_truthful_iff :
    Truthful d ⟨.writeReady lun addr len, answer⟩ (d.usbFlashMediaWriteReady answer lun addr len) ↔
      MediaCall.Harmless ⟨.writeReady lun addr len, answer⟩ d.lunData.capacity := by
  by_cases drive : lun = 0
  · rw [FlashDrive.usbFlashMediaWriteReady, if_pos drive]
    refine transferred_truthful_iff (if_pos drive) rfl rfl (by simp [MediaReply.Failed]) ?_
    rintro - _ _ _ _ ⟨⟩
  · rw [FlashDrive.usbFlashMediaWriteReady, if_neg drive, MediaCall.Harmless]
    simp only [MediaRequest.transfer, if_neg drive]
    refine iff_of_true ⟨?_, ?_, ?_, ?_⟩ ?_ <;> simp

theorem serve_truthful_iff : Truthful d call (d.serve call) ↔ call.Harmless d.lunData.capacity := by
  obtain ⟨request, answer⟩ := call
  cases request with
  | read lun lbaAddr len => exact read_truthful_iff
  | acquire lun blkAddr sent =>
    exact iff_of_true (acquire_truthful sent) (by simp [MediaCall.Harmless, MediaRequest.transfer])
  | writeReady lun blkAddr len => exact writeReady_truthful_iff

end

/-- A session is truthful when every read and write stays inside the drive and the storage never
fails: no call-back compares a transfer with the capacity, or looks at what the storage returns. -/
theorem session_truthful_iff (d : FlashDrive) (calls : List MediaCall) :
    (∀ step ∈ d.session calls, Truthful step.1 step.2.1 step.2.2) ↔
      ∀ call ∈ calls, call.Harmless d.lunData.capacity := by
  induction calls generalizing d with
  | nil => simp [FlashDrive.session]
  | cons call calls ih =>
    rw [FlashDrive.session, List.forall_mem_cons, List.forall_mem_cons, ih, serve_lunData,
      serve_truthful_iff]

/-- A drive of two blocks that hold 1 and 2. -/
def twoBlockDrive : FlashDrive where
  lunData := ⟨2, 512, 512⟩
  buffer _ := 0
  storage a := if a < 512 then 1 else 2
  readCount := 0
  writeCount := 0

/-- A read of the second block fails, and the host gets the first block that an earlier call read.
Then a buffer is acquired at the end of the drive and written behind it. -/
theorem stale_data_and_write_behind_end :
    ((twoBlockDrive.session [⟨.read 0 0 512, .succeeds⟩, ⟨.read 0 512 512, .fails fun _ => none⟩]).map
      fun step => (step.2.2.reply, step.2.2.access.map StorageAccess.result, step.2.2.drive.buffer 0)) =
        [(.read true 512, some true, 1), (.read true 512, some false, 1)] ∧
    ((twoBlockDrive.session [⟨.acquire 0 1024 [7], .succeeds⟩,
      ⟨.writeReady 0 1024 1, .succeeds⟩]).map fun step => (step.2.2.reply, step.2.2.access)) =
        [(.acquire true sdRdWrSize, none), (.writeReady 1, some ⟨1024, 1, true⟩)] ∧
    (¬∀ step ∈ twoBlockDrive.session
      [⟨.read 0 0 512, .succeeds⟩, ⟨.read 0 512 512, .fails fun _ => none⟩],
      Truthful step.1 step.2.1 step.2.2) ∧
    ¬∀ step ∈ twoBlockDrive.session [⟨.acquire 0 1024 [7], .succeeds⟩, ⟨.writeReady 0 1024 1, .succeeds⟩],
      Truthful step.1 step.2.1 step.2.2 := by
  refine ⟨rfl, rfl, ?_, ?_⟩
  · intro truthful
    have second := truthful _ (List.mem_cons_of_mem _ List.mem_cons_self)
    have reported : true = false := second.reported _ rfl rfl
    cases reported
  · intro truthful
    have second := truthful _ (List.mem_cons_of_mem _ List.mem_cons_self)
    exact absurd (second.inside _ rfl 0 (by decide)) (by decide)

end Hss
