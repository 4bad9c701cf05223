import Hss.Lib.Outcome
import Hss.Tools.Header
import Mathlib.Data.List.TakeWhile
import Mathlib.Data.Nat.Size

/-! The payload generator, which writes chunks and tables to a file in several passes, and the walks of
the tables that read them back. -/

namespace Hss

open ByteMemory Outcome

/-! ### The file -/

/-- The output file, with the position in it. -/
structure OutFile where
  bytes : Bytes
  posn : ℕ

/-- The first position that `off_t` does not hold. -/
def offLimit : ℕ := 0x8000000000000000

/-- `fwrite` and the check after it: a file does not grow past what `off_t` holds. -/
def OutFile.fwrite (f : OutFile) (data : Bytes) : Except ToolError OutFile :=
  if f.posn + data.length < offLimit then
    .ok ⟨f.bytes.take f.posn ++ data ++ f.bytes.drop (f.posn + data.length), f.posn + data.length⟩
  else
    .error .exits

/-- Writes one after another. -/
def OutFile.fwriteAll (f : OutFile) (blocks : List Bytes) : Except ToolError OutFile :=
  blocks.foldlM OutFile.fwrite f

/-- `PAD_SIZE` -/
def padSize : ℕ := 8

/-- `calculate_padding` -/
def calculatePadding (size pad : ℕ) : ℕ := (size + (pad - 1)) / pad * pad - size

/-- The zero bytes of `write_pad` -/
def padding (size : ℕ) : Bytes := List.replicate (calculatePadding size padSize) 0

/-! ### Chunks -/

/-- A chunk as `generate_add_chunk` takes it: its data is not empty. -/
structure PayloadChunk where
  owner : BitVec 32
  execAddr : Word
  crc32 : BitVec 32
  data : Bytes
  data_ne : data ≠ []
  length_data : data.length < 2 ^ 64

/-- `struct HSS_BootChunkDesc` in the file -/
def PayloadChunk.descBytes (c : PayloadChunk) (loadAddr : ℕ) : Bytes :=
  bytesLE 4 c.owner.toNat ++ List.replicate 4 0 ++ bytesLE 8 (BitVec.ofNat 64 loadAddr).toNat ++
    bytesLE 8 c.execAddr.toNat ++ bytesLE 8 (BitVec.ofNat 64 c.data.length).toNat ++
    bytesLE 4 c.crc32.toNat ++ List.replicate 4 0

/-- `struct HSS_BootZIChunkDesc` in the file -/
def ZiChunkDesc.bytes (z : ZiChunkDesc) : Bytes :=
  bytesLE 4 z.owner.toNat ++ List.replicate 4 0 ++ bytesLE 8 z.execAddr.toNat ++
    bytesLE 8 z.size.toNat

/-- The sizes of the descriptors and of the header. -/
def chunkDescSize : ℕ := 40
def ziChunkDescSize : ℕ := 24

/-! ### Signing -/

/-- The digest, and the two numbers of the signature, that the key gives for a file. -/
structure PayloadSigner where
  digest : Bytes → Bytes
  length_digest : ∀ file, (digest file).length = 48
  ecdsaSig : Bytes → ℕ × ℕ

/-- `BN_num_bytes` -/
def bnNumBytes (n : ℕ) : ℕ := (Nat.size n + 7) / 8

/-- `BN_bn2bin` of a number of `n` bytes. -/
def bnBn2bin (n value : ℕ) : Bytes := (bytesLE n value).reverse

/-- What is added to the generator: the data of the harts and the name of the set in the header, the
chunks, and the key that signs, if any. -/
structure PayloadInput where
  hart : U54 → HartHeader
  setName : Bytes
  length_setName : setName.length = bootImageMaxNameLen
  chunkTable : List PayloadChunk
  ziChunkTable : List ZiChunkDesc
  signer : Option PayloadSigner

/-! ### The passes -/

section
variable (input : PayloadInput)

/-- `bootImage` after `generate_init`, with what the parsers set. -/
def generateInit : BootImageHeader where
  magic := bootMagic
  version := 1
  headerLength := 0
  headerCrc := 0
  chunkTableOffset := 0
  ziChunkTableOffset := 0
  hart := input.hart
  setName := input.setName
  length_setName := input.length_setName
  bootImageLength := 0
  signature := List.replicate 144 0
  length_signature := BootImageHeader.length_noSignature

/-- `generate_header`, from the start of the file -/
def generateHeader (f : OutFile) (bootImage : BootImageHeader) : Except ToolError OutFile :=
  OutFile.fwriteAll { f with posn := 0 } [bootImage.bytes, padding BootImage.sizeOf]

/-- What `generate_chunks` sets `loadAddr` to, for each chunk: `start` is where the blobs are. -/
def loadAddrs (start : ℕ) : ℕ → List PayloadChunk → List ℕ
  | _, [] => []
  | cumulativeBlobSize, c :: chunks =>
    (start + cumulativeBlobSize + calculatePadding cumulativeBlobSize padSize) ::
      loadAddrs start (cumulativeBlobSize + (c.data.length + calculatePadding c.data.length padSize))
        chunks

/-- Where `generate_chunks` expects the blobs when the chunk table is at `chunkTableOffset`. -/
def blobStart (chunkTableOffset : ℕ) : ℕ :=
  let numChunks := input.chunkTable.length
  let numZiChunks := input.ziChunkTable.length
  chunkTableOffset + numChunks * chunkDescSize + chunkDescSize +
    calculatePadding (chunkDescSize * (numChunks + 1)) padSize + numZiChunks * ziChunkDescSize +
    ziChunkDescSize + calculatePadding (ziChunkDescSize * (numZiChunks + 1)) padSize

/-- `generate_chunks`, with the load addresses that it sets. -/
def generateChunks (f : OutFile) : Except ToolError (OutFile × List ℕ) := do
  if f.posn ≠ BootImage.sizeOf + calculatePadding BootImage.sizeOf padSize then
    throw .assertion
  let addrs := loadAddrs (blobStart input f.posn) 0 input.chunkTable
  let descs := input.chunkTable.zipWith PayloadChunk.descBytes addrs
  let numChunks := input.chunkTable.length
  let f ← f.fwriteAll (descs ++ [List.replicate chunkDescSize 0, padding (chunkDescSize * (numChunks + 1))])
  return (f, addrs)

/-- `generate_ziChunks` -/
def generateZiChunks (chunkTableOffset : ℕ) (f : OutFile) : Except ToolError OutFile := do
  let numChunks := input.chunkTable.length
  if f.posn ≠ chunkTableOffset + numChunks * chunkDescSize + chunkDescSize +
      calculatePadding (chunkDescSize * (numChunks + 1)) padSize then
    throw .assertion
  f.fwriteAll (input.ziChunkTable.map ZiChunkDesc.bytes ++
    [List.replicate ziChunkDescSize 0, padding (ziChunkDescSize * (input.ziChunkTable.length + 1))])

/-- `generate_blobs`: its assertion reads the first entry of the chunk table, which is null when there
are no chunks. -/
def generateBlobs (ziChunkTableOffset : ℕ) (addrs : List ℕ) (f : OutFile) :
    Except ToolError OutFile := do
  let numZiChunks := input.ziChunkTable.length
  match addrs with
  | [] => throw .undefined
  | first :: _ =>
    if first ≠ ziChunkTableOffset + numZiChunks * ziChunkDescSize + ziChunkDescSize +
        calculatePadding (ziChunkDescSize * (numZiChunks + 1)) padSize then
      throw .assertion
    f.fwriteAll (input.chunkTable.flatMap fun c => [c.data, padding c.data.length])

/-- The header with a signature. -/
def BootImageHeader.sign (bootImage : BootImageHeader) (signature : Bytes)
    (length_signature : signature.length = 144) : BootImageHeader :=
  { bootImage with signature, length_signature }

/-- `sign_payload`, which rewrites the header with the signature. -/
def signPayload (bootImage : BootImageHeader) (f : OutFile) : Except ToolError OutFile :=
  match input.signer with
  | none => return f
  | some signer =>
    let (r, s) := signer.ecdsaSig f.bytes
    if bnNumBytes r ≠ bnNumBytes s ∨ bnNumBytes r ≠ 48 then
      throw .assertion
    else
      generateHeader f (bootImage.sign (signer.digest f.bytes ++ bnBn2bin 48 r ++ bnBn2bin 48 s)
        (by simp [signer.length_digest, bnBn2bin]))

/-- The header with the offsets and the lengths that the passes find. -/
def BootImageHeader.place (bootImage : BootImageHeader)
    (chunkTableOffset ziChunkTableOffset headerLength bootImageLength : ℕ) : BootImageHeader :=
  { bootImage with
    chunkTableOffset := BitVec.ofNat 64 chunkTableOffset
    ziChunkTableOffset := BitVec.ofNat 64 ziChunkTableOffset
    headerLength := BitVec.ofNat 64 headerLength
    bootImageLength := BitVec.ofNat 64 bootImageLength }

/-- The header with its checksum. -/
def BootImageHeader.seal (bootImage : BootImageHeader) : BootImageHeader :=
  { bootImage with headerCrc := crc32Calculate bootImage.bytes }

/-- `generate_payload`: the file. -/
def generatePayload : Except ToolError Bytes := do
  let bootImage := generateInit input
  let f ← generateHeader ⟨[], 0⟩ bootImage
  let chunkTableOffset := f.posn
  let (f, addrs) ← generateChunks input f
  let ziChunkTableOffset := f.posn
  let f ← generateZiChunks input chunkTableOffset f
  let headerLength := f.posn
  let f ← generateBlobs input ziChunkTableOffset addrs f
  let bootImageLength := f.posn
  let bootImage :=
    (bootImage.place chunkTableOffset ziChunkTableOffset headerLength bootImageLength).seal
  let f ← generateHeader f bootImage
  let f ← signPayload input bootImage f
  return f.bytes

end

/-! ### What the passes write -/

variable {f : OutFile} {blocks : List Bytes} {input : PayloadInput} {h : BootImageHeader}

/-- The file is written at its end. -/
structure OutFile.AtEnd (f : OutFile) : Prop where
  posn : f.posn = f.bytes.length
  small : f.bytes.length < offLimit

/-- The file with more at its end. -/
def OutFile.append (f : OutFile) (data : Bytes) : OutFile :=
  ⟨f.bytes ++ data, (f.bytes ++ data).length⟩

@[simp] theorem OutFile.append_bytes (f : OutFile) (data : Bytes) :
    (f.append data).bytes = f.bytes ++ data := rfl

theorem OutFile.append_posn (f : OutFile) (data : Bytes) :
    (f.append data).posn = f.bytes.length + data.length := List.length_append

theorem OutFile.fwriteAll_cons {data : Bytes} {g : OutFile} (first : f.fwrite data = .ok g) :
    f.fwriteAll (data :: blocks) = g.fwriteAll blocks := by
  rw [fwriteAll, List.foldlM_cons, first]
  rfl

/-- Writes at the end append, unless the file gets too long. -/
theorem OutFile.AtEnd.fwriteAll_eq (atEnd : f.AtEnd) :
    f.fwriteAll blocks =
      if (f.bytes ++ blocks.flatten).length < offLimit then .ok (f.append blocks.flatten)
      else .error .exits := by
  induction blocks generalizing f with
  | nil =>
    have same : f.append [] = f := by
      rw [OutFile.append, List.append_nil, ← atEnd.posn]
    rw [List.flatten_nil, List.append_nil, if_pos atEnd.small, same]
    rfl
  | cons data blocks ih =>
    have first : f.fwrite data =
        if (f.bytes ++ data).length < offLimit then .ok (f.append data) else .error .exits := by
      rw [OutFile.fwrite, atEnd.posn, List.take_length, List.drop_eq_nil_of_le (Nat.le_add_right _ _),
        List.append_nil, OutFile.append, List.length_append]
    rw [OutFile.fwriteAll, List.foldlM_cons, first, List.flatten_cons, ← List.append_assoc]
    by_cases fits : (f.bytes ++ data).length < offLimit
    · have rest := ih (f := f.append data) ⟨rfl, fits⟩
      rw [if_pos fits]
      exact rest.trans (by simp only [OutFile.append, List.append_assoc])
    · have total : ¬ (f.bytes ++ data ++ blocks.flatten).length < offLimit := by
        rw [List.length_append]
        omega
      rw [if_neg fits, if_neg total]
      rfl

theorem generateHeader_eq :
    generateHeader f h = .ok ⟨h.bytes ++ f.bytes.drop BootImage.sizeOf, BootImage.sizeOf⟩ := by
  have first : OutFile.fwrite { f with posn := 0 } h.bytes =
      .ok ⟨h.bytes ++ f.bytes.drop BootImage.sizeOf, BootImage.sizeOf⟩ := by
    rw [OutFile.fwrite, BootImageHeader.length_bytes,
      if_pos (show 0 + BootImage.sizeOf < offLimit by decide)]
    simp
  have second : OutFile.fwrite ⟨h.bytes ++ f.bytes.drop BootImage.sizeOf, BootImage.sizeOf⟩
      (padding BootImage.sizeOf) =
      .ok ⟨h.bytes ++ f.bytes.drop BootImage.sizeOf, BootImage.sizeOf⟩ := by
    have none : padding BootImage.sizeOf = [] := by decide
    rw [OutFile.fwrite, none, List.length_nil, Nat.add_zero,
      if_pos (show BootImage.sizeOf < offLimit by decide), List.append_nil, List.take_append_drop]
  rw [generateHeader, OutFile.fwriteAll_cons first, OutFile.fwriteAll_cons second]
  rfl

theorem calculatePadding_of_dvd {size : ℕ} (whole : 8 ∣ size) : calculatePadding size padSize = 0 := by
  obtain ⟨k, rfl⟩ := whole
  rw [calculatePadding, padSize]
  omega

theorem padding_of_dvd {size : ℕ} (whole : 8 ∣ size) : padding size = [] := by
  rw [padding, calculatePadding_of_dvd whole, List.replicate_zero]

theorem dvd_add_calculatePadding (size : ℕ) : 8 ∣ size + calculatePadding size padSize := by
  rw [calculatePadding, padSize]
  omega

/-- The chunk table in the file, with its sentinel. -/
def chunkTableBytes (input : PayloadInput) : Bytes :=
  (input.chunkTable.zipWith PayloadChunk.descBytes
    (loadAddrs (blobStart input BootImage.sizeOf) 0 input.chunkTable)).flatten ++
      List.replicate chunkDescSize 0

def ziChunkTableBytes (input : PayloadInput) : Bytes :=
  input.ziChunkTable.flatMap ZiChunkDesc.bytes ++ List.replicate ziChunkDescSize 0

/-- The data of the chunks in the file, each padded. -/
def blobBytes (chunks : List PayloadChunk) : Bytes :=
  chunks.flatMap fun c => c.data ++ padding c.data.length

theorem length_loadAddrs (start cumulative : ℕ) (chunks : List PayloadChunk) :
    (loadAddrs start cumulative chunks).length = chunks.length := by
  induction chunks generalizing cumulative with
  | nil => rfl
  | cons c chunks ih => rw [loadAddrs, List.length_cons, List.length_cons, ih]

@[simp] theorem PayloadChunk.length_descBytes (c : PayloadChunk) (loadAddr : ℕ) :
    (c.descBytes loadAddr).length = chunkDescSize := by
  simp [descBytes, chunkDescSize]

@[simp] theorem ZiChunkDesc.length_bytes (z : ZiChunkDesc) : z.bytes.length = ziChunkDescSize := by
  simp [bytes, ziChunkDescSize]

theorem length_descs (chunks : List PayloadChunk) (start cumulative : ℕ) :
    (chunks.zipWith PayloadChunk.descBytes (loadAddrs start cumulative chunks)).flatten.length =
      chunkDescSize * chunks.length := by
  induction chunks generalizing cumulative with
  | nil => rfl
  | cons c chunks ih =>
    rw [loadAddrs, List.zipWith_cons_cons, List.flatten_cons, List.length_append, ih,
      PayloadChunk.length_descBytes, List.length_cons, Nat.mul_succ, Nat.add_comm]

theorem length_of_mem_descs {chunks : List PayloadChunk} {start cumulative : ℕ} {b : Bytes}
    (present : b ∈ chunks.zipWith PayloadChunk.descBytes (loadAddrs start cumulative chunks)) :
    b.length = chunkDescSize := by
  obtain ⟨i, less, rfl⟩ := List.getElem_of_mem present
  rw [List.getElem_zipWith, PayloadChunk.length_descBytes]

theorem length_ziDescs (ziChunks : List ZiChunkDesc) :
    (ziChunks.flatMap ZiChunkDesc.bytes).length = ziChunkDescSize * ziChunks.length := by
  induction ziChunks with
  | nil => rfl
  | cons z ziChunks ih =>
    rw [List.flatMap_cons, List.length_append, ih, ZiChunkDesc.length_bytes, List.length_cons,
      Nat.mul_succ, Nat.add_comm]

theorem length_chunkTableBytes :
    (chunkTableBytes input).length = chunkDescSize * (input.chunkTable.length + 1) := by
  rw [chunkTableBytes, List.length_append, length_descs, List.length_replicate, Nat.mul_succ]

theorem length_ziChunkTableBytes :
    (ziChunkTableBytes input).length = ziChunkDescSize * (input.ziChunkTable.length + 1) := by
  rw [ziChunkTableBytes, List.length_append, length_ziDescs, List.length_replicate, Nat.mul_succ]

theorem chunkTable_whole (n : ℕ) : 8 ∣ chunkDescSize * (n + 1) := ⟨5 * (n + 1), by
  rw [chunkDescSize]
  omega⟩

theorem ziChunkTable_whole (n : ℕ) : 8 ∣ ziChunkDescSize * (n + 1) := ⟨3 * (n + 1), by
  rw [ziChunkDescSize]
  omega⟩

theorem blobStart_eq : blobStart input BootImage.sizeOf =
    BootImage.sizeOf + (chunkTableBytes input).length + (ziChunkTableBytes input).length := by
  rw [blobStart, calculatePadding_of_dvd (chunkTable_whole _),
    calculatePadding_of_dvd (ziChunkTable_whole _), length_chunkTableBytes, length_ziChunkTableBytes,
    chunkDescSize, ziChunkDescSize]
  omega

theorem generateChunks_eq (atEnd : f.AtEnd) (start : f.posn = BootImage.sizeOf) :
    generateChunks input f =
      if (f.bytes ++ chunkTableBytes input).length < offLimit then
        .ok (f.append (chunkTableBytes input),
          loadAddrs (blobStart input BootImage.sizeOf) 0 input.chunkTable)
      else .error .exits := by
  have flat : (input.chunkTable.zipWith PayloadChunk.descBytes
      (loadAddrs (blobStart input BootImage.sizeOf) 0 input.chunkTable) ++
        [List.replicate chunkDescSize 0, padding (chunkDescSize * (input.chunkTable.length + 1))]).flatten =
      chunkTableBytes input := by
    rw [padding_of_dvd (chunkTable_whole _), chunkTableBytes]
    simp
  have expected : ¬ BootImage.sizeOf ≠ BootImage.sizeOf + calculatePadding BootImage.sizeOf padSize := by
    decide
  rw [generateChunks, start, if_neg expected]
  dsimp only
  rw [atEnd.fwriteAll_eq, flat]
  split
  · rfl
  · rfl

theorem generateZiChunks_eq (atEnd : f.AtEnd)
    (start : f.posn = BootImage.sizeOf + (chunkTableBytes input).length) :
    generateZiChunks input BootImage.sizeOf f =
      if (f.bytes ++ ziChunkTableBytes input).length < offLimit then
        .ok (f.append (ziChunkTableBytes input))
      else .error .exits := by
  have flat : (input.ziChunkTable.map ZiChunkDesc.bytes ++ [List.replicate ziChunkDescSize 0,
      padding (ziChunkDescSize * (input.ziChunkTable.length + 1))]).flatten =
      ziChunkTableBytes input := by
    rw [padding_of_dvd (ziChunkTable_whole _), ziChunkTableBytes, List.flatMap_def]
    simp
  have expected : f.posn = BootImage.sizeOf + input.chunkTable.length * chunkDescSize + chunkDescSize +
      calculatePadding (chunkDescSize * (input.chunkTable.length + 1)) padSize := by
    rw [start, length_chunkTableBytes, calculatePadding_of_dvd (chunkTable_whole _), chunkDescSize]
    omega
  rw [generateZiChunks, if_neg (not_not_intro expected), atEnd.fwriteAll_eq, flat]

theorem generateBlobs_eq (atEnd : f.AtEnd) :
    generateBlobs input (BootImage.sizeOf + (chunkTableBytes input).length)
        (loadAddrs (blobStart input BootImage.sizeOf) 0 input.chunkTable) f =
      if input.chunkTable = [] then .error .undefined
      else if (f.bytes ++ blobBytes input.chunkTable).length < offLimit then
        .ok (f.append (blobBytes input.chunkTable))
      else .error .exits := by
  have flat : (input.chunkTable.flatMap fun c => [c.data, padding c.data.length]).flatten =
      blobBytes input.chunkTable := by
    rw [blobBytes]
    induction input.chunkTable with
    | nil => rfl
    | cons c chunks ih =>
      rw [List.flatMap_cons, List.flatMap_cons, List.flatten_append, ih]
      simp
  cases table : input.chunkTable with
  | nil =>
    rw [if_pos rfl, loadAddrs, generateBlobs]
    rfl
  | cons c chunks =>
    have expected : blobStart input BootImage.sizeOf + 0 + calculatePadding 0 padSize =
        BootImage.sizeOf + (chunkTableBytes input).length +
          input.ziChunkTable.length * ziChunkDescSize + ziChunkDescSize +
          calculatePadding (ziChunkDescSize * (input.ziChunkTable.length + 1)) padSize := by
      rw [blobStart_eq, calculatePadding_of_dvd (ziChunkTable_whole _),
        calculatePadding_of_dvd (Nat.dvd_zero 8), length_ziChunkTableBytes, ziChunkDescSize]
      omega
    rw [if_neg (List.cons_ne_nil _ _), loadAddrs, generateBlobs, if_neg (not_not_intro expected)]
    dsimp only
    rw [atEnd.fwriteAll_eq, flat, table]

/-! ### The file -/

/-- What follows the header. -/
def payloadBody (input : PayloadInput) : Bytes :=
  chunkTableBytes input ++ ziChunkTableBytes input ++ blobBytes input.chunkTable

def payloadLength (input : PayloadInput) : ℕ := BootImage.sizeOf + (payloadBody input).length

/-- The header without checksum and signature. -/
def blankHeader (input : PayloadInput) : BootImageHeader :=
  (generateInit input).place BootImage.sizeOf (BootImage.sizeOf + (chunkTableBytes input).length)
    (BootImage.sizeOf + (chunkTableBytes input).length + (ziChunkTableBytes input).length)
    (payloadLength input)

def unsignedHeader (input : PayloadInput) : BootImageHeader := (blankHeader input).seal

/-- The file that is signed. -/
def unsignedFile (input : PayloadInput) : Bytes := (unsignedHeader input).bytes ++ payloadBody input

/-- The key signs a file with two numbers of the full length. -/
def PayloadSigner.Signs (signer : PayloadSigner) (file : Bytes) : Prop :=
  bnNumBytes (signer.ecdsaSig file).1 = 48 ∧ bnNumBytes (signer.ecdsaSig file).2 = 48

theorem OutFile.AtEnd.append {data : Bytes} (fits : (f.bytes ++ data).length < offLimit) :
    (f.append data).AtEnd := ⟨rfl, fits⟩

/-- The passes before the signing. -/
theorem generatePayload_eq :
    generatePayload input =
      if (BootImage.sizeOf + (chunkTableBytes input).length +
          (ziChunkTableBytes input).length) < offLimit then
        if input.chunkTable = [] then .error .undefined
        else if payloadLength input < offLimit then
          (signPayload input (unsignedHeader input) ⟨unsignedFile input, BootImage.sizeOf⟩).map
            OutFile.bytes
        else .error .exits
      else .error .exits := by
  have header : generateHeader ⟨[], 0⟩ (generateInit input) =
      .ok ⟨(generateInit input).bytes, BootImage.sizeOf⟩ := by
    rw [generateHeader_eq, List.drop_nil, List.append_nil]
  have length := (generateInit input).length_bytes
  have start : OutFile.AtEnd ⟨(generateInit input).bytes, BootImage.sizeOf⟩ := by
    refine ⟨length.symm, ?_⟩
    rw [length]
    decide
  have body : ((generateInit input).bytes ++ chunkTableBytes input ++ ziChunkTableBytes input ++
      blobBytes input.chunkTable).drop BootImage.sizeOf = payloadBody input := by
    rw [List.append_assoc, List.append_assoc, ← length, List.drop_left, payloadBody,
      List.append_assoc]
  rw [generatePayload, header, Outcome.ok_bind]
  dsimp only
  rw [generateChunks_eq start rfl]
  by_cases first : ((generateInit input).bytes ++ chunkTableBytes input).length < offLimit
  · rw [if_pos first, Outcome.ok_bind]
    dsimp only
    rw [generateZiChunks_eq (.append first) (by rw [OutFile.append_posn, length]),
      OutFile.append_bytes, List.length_append, List.length_append, length]
    by_cases tables : BootImage.sizeOf + (chunkTableBytes input).length +
        (ziChunkTableBytes input).length < offLimit
    · have second : ((generateInit input).bytes ++ chunkTableBytes input ++
          ziChunkTableBytes input).length < offLimit := by
        rw [List.length_append, List.length_append, length]
        exact tables
      rw [if_pos tables, if_pos tables, Outcome.ok_bind]
      simp only [OutFile.append_posn, OutFile.append_bytes, List.length_append, length]
      rw [generateBlobs_eq (.append second)]
      by_cases none : input.chunkTable = []
      · rw [if_pos none, if_pos none, Outcome.error_bind]
      · have total : BootImage.sizeOf + (chunkTableBytes input).length +
            (ziChunkTableBytes input).length + (blobBytes input.chunkTable).length =
              payloadLength input := by
          simp only [payloadLength, payloadBody, List.length_append, Nat.add_assoc]
        rw [if_neg none, if_neg none]
        simp only [OutFile.append_bytes, List.length_append, length, total]
        by_cases fits : payloadLength input < offLimit
        · rw [if_pos fits, if_pos fits, Outcome.ok_bind, generateHeader_eq, Outcome.ok_bind,
            OutFile.append_posn]
          simp only [OutFile.append_bytes, List.length_append, length, total]
          rw [body]
          show (signPayload input (unsignedHeader input) ⟨unsignedFile input, _⟩ >>= _) = _
          cases signPayload input (unsignedHeader input) ⟨unsignedFile input, BootImage.sizeOf⟩ with
          | error e => rfl
          | ok f => rfl
        · rw [if_neg fits, if_neg fits, Outcome.error_bind]
    · rw [if_neg tables, if_neg tables, Outcome.error_bind]
  · have tables : ¬ BootImage.sizeOf + (chunkTableBytes input).length +
        (ziChunkTableBytes input).length < offLimit := by
      rw [List.length_append, length] at first
      omega
    rw [if_neg first, if_neg tables, Outcome.error_bind]

/-- The signing puts a signature in the header and leaves the rest. -/
theorem signPayload_eq (signs : ∀ signer ∈ input.signer, signer.Signs f.bytes)
    (start : f.posn = BootImage.sizeOf) (bytes : f.bytes = h.bytes ++ payloadBody input) :
    ∃ signature length_signature, signPayload input h f =
      .ok ⟨(h.sign signature length_signature).bytes ++ payloadBody input, BootImage.sizeOf⟩ := by
  rw [signPayload]
  cases key : input.signer with
  | none =>
    refine ⟨h.signature, h.length_signature, ?_⟩
    obtain ⟨_, _⟩ := f
    cases start
    cases bytes
    rfl
  | some signer =>
    obtain ⟨r, s⟩ := signs signer key
    have full : ¬ (bnNumBytes (signer.ecdsaSig f.bytes).1 ≠ bnNumBytes (signer.ecdsaSig f.bytes).2 ∨
        bnNumBytes (signer.ecdsaSig f.bytes).1 ≠ 48) := by
      rw [r, s]
      decide
    have drop : f.bytes.drop BootImage.sizeOf = payloadBody input := by
      rw [bytes, ← h.length_bytes, List.drop_left]
    dsimp only
    rw [if_neg full, generateHeader_eq, drop]
    exact ⟨_, _, rfl⟩

theorem signPayload_short {signer : PayloadSigner} (key : input.signer = some signer)
    (short : ¬ signer.Signs f.bytes) : signPayload input h f = .error .assertion := by
  have differ : bnNumBytes (signer.ecdsaSig f.bytes).1 ≠ bnNumBytes (signer.ecdsaSig f.bytes).2 ∨
      bnNumBytes (signer.ecdsaSig f.bytes).1 ≠ 48 := by
    by_contra same
    rw [not_or, not_not, not_not] at same
    exact short ⟨same.2, same.1 ▸ same.2⟩
  rw [signPayload, key]
  dsimp only
  rw [if_pos differ]
  rfl

/-! ### What the HSS reads back -/

section
variable {mem : Mem} {p : Word} {off : ℕ}

/-- The entry that the table has for a chunk. -/
def PayloadChunk.desc (c : PayloadChunk) (loadAddr : ℕ) : ChunkDesc :=
  ⟨c.owner, BitVec.ofNat 64 loadAddr, c.execAddr, BitVec.ofNat 64 c.data.length⟩

theorem load64_at {k : ℕ} {value : Word} (holds : HoldsAt mem p (off + k) (bytesLE 8 value.toNat)) :
    load64 mem (p + BitVec.ofNat 64 off + BitVec.ofNat 64 k) = value := by
  rw [offset_offset]
  exact load64_of_holds holds

theorem chunkDesc_of_holds {c : PayloadChunk} {loadAddr : ℕ}
    (holds : HoldsAt mem p off (c.descBytes loadAddr)) :
    chunkDesc mem (p + BitVec.ofNat 64 off) = c.desc loadAddr := by
  simp only [PayloadChunk.descBytes, holdsAt_append, List.length_append, length_bytesLE,
    List.length_replicate, and_assoc] at holds
  obtain ⟨owner, -, load, exec, size, -⟩ := holds
  rw [chunkDesc, PayloadChunk.desc, load32_of_holds owner]
  congr 1
  · exact load64_at load
  · exact load64_at exec
  · exact load64_at size

theorem ziChunkDesc_of_holds {z : ZiChunkDesc} (holds : HoldsAt mem p off z.bytes) :
    ziChunkDesc mem (p + BitVec.ofNat 64 off) = z := by
  simp only [ZiChunkDesc.bytes, holdsAt_append, List.length_append, length_bytesLE,
    List.length_replicate, and_assoc] at holds
  obtain ⟨owner, -, exec, size⟩ := holds
  rw [ziChunkDesc, load32_of_holds owner]
  congr 1
  · exact load64_at exec
  · exact load64_at size

theorem chunkDesc_sentinel (holds : HoldsAt mem p off (List.replicate chunkDescSize 0)) :
    (chunkDesc mem (p + BitVec.ofNat 64 off)).size = 0 := by
  have split : (List.replicate chunkDescSize 0 : Bytes) =
      List.replicate 24 0 ++ (bytesLE 8 (0 : Word).toNat ++ List.replicate 8 0) := by decide
  rw [split, holdsAt_append, holdsAt_append] at holds
  exact load64_at holds.2.1

theorem ziChunkDesc_sentinel (holds : HoldsAt mem p off (List.replicate ziChunkDescSize 0)) :
    (ziChunkDesc mem (p + BitVec.ofNat 64 off)).size = 0 := by
  have split : (List.replicate ziChunkDescSize 0 : Bytes) =
      List.replicate 16 0 ++ bytesLE 8 (0 : Word).toNat := by decide
  rw [split, holdsAt_append] at holds
  exact load64_at holds.2

/-- The entries of the chunk table -/
def chunkDescs (start cumulative : ℕ) (chunks : List PayloadChunk) : List ChunkDesc :=
  chunks.zipWith PayloadChunk.desc (loadAddrs start cumulative chunks)

theorem length_chunkDescs (start cumulative : ℕ) (chunks : List PayloadChunk) :
    (chunkDescs start cumulative chunks).length = chunks.length := by
  rw [chunkDescs, List.length_zipWith, length_loadAddrs, Nat.min_self]

theorem PayloadChunk.size_desc_ne (c : PayloadChunk) (loadAddr : ℕ) : (c.desc loadAddr).size ≠ 0 := by
  have positive := List.length_pos_of_ne_nil c.data_ne
  intro zero
  have length := congrArg BitVec.toNat zero
  rw [desc, BitVec.toNat_ofNat, Nat.mod_eq_of_lt c.length_data] at length
  exact absurd length (Nat.ne_of_gt positive)

theorem size_ne_of_mem_chunkDescs {start cumulative : ℕ} {chunks : List PayloadChunk}
    {d : ChunkDesc} (present : d ∈ chunkDescs start cumulative chunks) : d.size ≠ 0 := by
  obtain ⟨i, less, rfl⟩ := List.getElem_of_mem present
  simp only [chunkDescs, List.getElem_zipWith]
  exact PayloadChunk.size_desc_ne _ _

/-- The walk of the chunk table finds an entry for each chunk. -/
theorem walkTable_chunks {fuel : ℕ} (holds : HoldsAt mem p off (chunkTableBytes input))
    (enough : input.chunkTable.length < fuel) :
    walkTable (chunkDesc mem) (fun d => d.size = 0) sizeOfChunkDesc fuel (p + BitVec.ofNat 64 off) =
      some (chunkDescs (blobStart input BootImage.sizeOf) 0 input.chunkTable) := by
  rw [chunkTableBytes, holdsAt_append] at holds
  obtain ⟨entries, sentinel⟩ := holds
  have length := length_chunkDescs (blobStart input BootImage.sizeOf) 0 input.chunkTable
  refine walkTable_whole (k := chunkDescSize)
    (fun d present => decide_eq_false (size_ne_of_mem_chunkDescs present)) (fun i less => ?_) ?_ ?_
  · have entry := entries.entry (k := chunkDescSize) (fun b => length_of_mem_descs) (i := i)
      (by rwa [List.length_zipWith, length_loadAddrs, Nat.min_self, ← length])
    rw [List.getElem_zipWith] at entry
    rw [offset_offset, chunkDesc_of_holds entry]
    simp only [chunkDescs, List.getElem_zipWith]
  · rw [length, offset_offset, decide_eq_true_iff]
    rw [length_descs] at sentinel
    exact chunkDesc_sentinel sentinel
  · rwa [length]

/-- What is read at the places of the other table: the entries, and then one of size zero. -/
theorem ziChunkTable_reads (holds : HoldsAt mem p off (ziChunkTableBytes input)) :
    (∀ i, ∀ less : i < input.ziChunkTable.length,
        ziChunkDesc mem (p + BitVec.ofNat 64 off + BitVec.ofNat 64 (ziChunkDescSize * i)) =
          input.ziChunkTable[i]) ∧
      (ziChunkDesc mem (p + BitVec.ofNat 64 off +
        BitVec.ofNat 64 (ziChunkDescSize * input.ziChunkTable.length))).size = 0 := by
  rw [ziChunkTableBytes, holdsAt_append, List.flatMap_def] at holds
  obtain ⟨entries, sentinel⟩ := holds
  constructor
  · intro i less
    have entry := entries.entry (k := ziChunkDescSize) (by simp) (i := i) (by simpa using less)
    rw [List.getElem_map] at entry
    rw [offset_offset, ziChunkDesc_of_holds entry]
  · rw [offset_offset]
    rw [← List.flatMap_def, length_ziDescs] at sentinel
    exact ziChunkDesc_sentinel sentinel

/-- The walk of the other table stops early at an entry of size zero. -/
theorem walkTable_ziChunks {fuel : ℕ} (holds : HoldsAt mem p off (ziChunkTableBytes input))
    (enough : input.ziChunkTable.length < fuel) :
    walkTable (ziChunkDesc mem) (fun d => d.size = 0) sizeOfZiChunkDesc fuel (p + BitVec.ofNat 64 off) =
      some (input.ziChunkTable.takeWhile fun z => !decide (z.size = 0)) := by
  obtain ⟨entries, sentinel⟩ := ziChunkTable_reads holds
  exact walkTable_eq (k := ziChunkDescSize) entries (decide_eq_true sentinel) enough

/-- The data of the chunks is where the entries say. -/
structure PayloadChunk.FoundBy (c : PayloadChunk) (mem : Mem) (p : Word) (d : ChunkDesc) : Prop where
  owner : d.owner = c.owner
  execAddr : d.execAddr = c.execAddr
  size : d.size.toNat = c.data.length
  data : HoldsAt mem p d.loadAddr.toNat c.data

theorem foundBy_chunkDescs {chunks : List PayloadChunk} {start cumulative : ℕ}
    (holds : HoldsAt mem p (start + cumulative) (blobBytes chunks)) (whole : 8 ∣ cumulative)
    (small : start + cumulative + (blobBytes chunks).length < offLimit) :
    List.Forall₂ (fun c d => c.FoundBy mem p d) chunks (chunkDescs start cumulative chunks) := by
  induction chunks generalizing cumulative with
  | nil => exact .nil
  | cons c chunks ih =>
    have blobs : blobBytes (c :: chunks) = c.data ++ padding c.data.length ++ blobBytes chunks := by
      rw [blobBytes, List.flatMap_cons]
      rfl
    rw [blobs] at holds small
    rw [holdsAt_append, holdsAt_append] at holds
    have length : (c.data ++ padding c.data.length).length =
        c.data.length + calculatePadding c.data.length padSize := by
      rw [List.length_append, padding, List.length_replicate]
    rw [List.length_append, length] at small
    rw [length] at holds
    rw [offLimit] at small
    have first : start + cumulative < 2 ^ 64 := by omega
    rw [chunkDescs, loadAddrs, List.zipWith_cons_cons]
    refine .cons ⟨rfl, rfl, ?_, ?_⟩ (ih ?_ ?_ ?_)
    · exact Nat.mod_eq_of_lt c.length_data
    · rw [PayloadChunk.desc, calculatePadding_of_dvd whole, Nat.add_zero, BitVec.toNat_ofNat,
        Nat.mod_eq_of_lt first]
      exact holds.1.1
    · rw [← Nat.add_assoc]
      exact holds.2
    · exact Nat.dvd_add whole (dvd_add_calculatePadding _)
    · rw [offLimit]
      omega

/-- What was added is found where the file is loaded. -/
structure PayloadInput.RecoveredFrom (input : PayloadInput) (file : Bytes) (mem : Mem) (p : Word) :
    Prop where
  magic : BootImage.magic mem p = bootMagic
  crc : validateCrc mem p = true
  length : (BootImage.bootImageLength mem p).toNat = file.length
  chunkTable : ∀ fuel, input.chunkTable.length < fuel → ∃ descs,
    walkTable (chunkDesc mem) (fun d => d.size = 0) sizeOfChunkDesc fuel
      (p + BootImage.chunkTableOffset mem p) = some descs ∧
        List.Forall₂ (fun c d => c.FoundBy mem p d) input.chunkTable descs
  ziChunkTable : ∀ fuel, input.ziChunkTable.length < fuel →
    walkTable (ziChunkDesc mem) (fun d => d.size = 0) sizeOfZiChunkDesc fuel
      (p + BootImage.ziChunkTableOffset mem p) = some input.ziChunkTable

/-- The walks of a file with a good header, signed or not. -/
theorem recoveredFrom_of_holds {signature : Bytes} {length_signature : signature.length = 144}
    (holds : HoldsAt mem p 0
      (((unsignedHeader input).sign signature length_signature).bytes ++ payloadBody input))
    (fits : payloadLength input < offLimit) {file : Bytes} (length : file.length = payloadLength input)
    (nonzero : ∀ z ∈ input.ziChunkTable, z.size ≠ 0) : input.RecoveredFrom file mem p := by
  have small : payloadLength input < 2 ^ 64 := by
    rw [offLimit] at fits
    omega
  rw [holdsAt_append, BootImageHeader.length_bytes] at holds
  obtain ⟨header, body⟩ := holds
  rw [Nat.zero_add, payloadBody, holdsAt_append, holdsAt_append, List.length_append] at body
  obtain ⟨⟨chunks, ziChunks⟩, blobs⟩ := body
  refine ⟨BootImageHeader.InMem.magic header, ?_, ?_, fun fuel enough => ?_, fun fuel enough => ?_⟩
  · rw [BootImageHeader.InMem.validateCrc_iff header]
    show crc32Calculate ((blankHeader input).bytes.take BootImage.sizeOf) =
      crc32Calculate (blankHeader input).bytes
    rw [List.take_of_length_le (Nat.le_of_eq (blankHeader input).length_bytes)]
  · rw [BootImageHeader.InMem.bootImageLength header, length]
    exact Nat.mod_eq_of_lt small
  · rw [BootImageHeader.InMem.chunkTableOffset header]
    refine ⟨_, walkTable_chunks chunks enough, foundBy_chunkDescs ?_ (Nat.dvd_zero 8) ?_⟩
    · rw [Nat.add_zero, blobStart_eq, Nat.add_assoc]
      exact blobs
    · rw [payloadLength, payloadBody, List.length_append, List.length_append] at fits
      rwa [Nat.add_zero, blobStart_eq, Nat.add_assoc, Nat.add_assoc, ← Nat.add_assoc (List.length _)]
  · rw [BootImageHeader.InMem.ziChunkTableOffset header]
    have walk := walkTable_ziChunks ziChunks enough
    rw [List.takeWhile_eq_self_iff.mpr] at walk
    · exact walk
    · intro z present
      show (!decide (z.size = 0)) = true
      rw [decide_eq_false (nonzero z present)]
      rfl

end

/-- The file that is generated, when one is. -/
theorem generatePayload_ok (some : input.chunkTable ≠ []) (fits : payloadLength input < offLimit)
    (signs : ∀ signer ∈ input.signer, signer.Signs (unsignedFile input)) :
    ∃ signature length_signature, generatePayload input =
      .ok (((unsignedHeader input).sign signature length_signature).bytes ++ payloadBody input) := by
  obtain ⟨signature, length_signature, signed⟩ :=
    signPayload_eq (f := ⟨unsignedFile input, BootImage.sizeOf⟩) signs rfl rfl
  have tables : BootImage.sizeOf + (chunkTableBytes input).length +
      (ziChunkTableBytes input).length < offLimit := by
    rw [payloadLength, payloadBody, List.length_append, List.length_append] at fits
    omega
  refine ⟨signature, length_signature, ?_⟩
  rw [generatePayload_eq, if_pos tables, if_neg some, if_pos fits, signed]
  rfl

theorem needs_of_generatePayload {file : Bytes} (generated : generatePayload input = .ok file) :
    input.chunkTable ≠ [] ∧ payloadLength input < offLimit ∧
      ∀ signer ∈ input.signer, signer.Signs (unsignedFile input) := by
  rw [generatePayload_eq] at generated
  by_cases tables : BootImage.sizeOf + (chunkTableBytes input).length +
      (ziChunkTableBytes input).length < offLimit
  · rw [if_pos tables] at generated
    by_cases none : input.chunkTable = []
    · rw [if_pos none] at generated
      cases generated
    · rw [if_neg none] at generated
      by_cases fits : payloadLength input < offLimit
      · refine ⟨none, fits, fun signer key => ?_⟩
        by_contra short
        rw [if_pos fits, signPayload_short (f := ⟨unsignedFile input, BootImage.sizeOf⟩) key short]
          at generated
        cases generated
      · rw [if_neg fits] at generated
        cases generated
  · rw [if_neg tables] at generated
    cases generated

/-- What is generated is recovered just when there are chunks, no other chunk is of size zero, the file
is not too long, and the key, if any, signs with two numbers of the full length. -/
theorem generatePayload_recovered_iff (input : PayloadInput) :
    (∃ file, generatePayload input = .ok file ∧
      ∀ mem p, HoldsAt mem p 0 file → input.RecoveredFrom file mem p) ↔
    input.chunkTable ≠ [] ∧ (∀ z ∈ input.ziChunkTable, z.size ≠ 0) ∧
      payloadLength input < offLimit ∧
      ∀ signer ∈ input.signer, signer.Signs (unsignedFile input) := by
  constructor
  · rintro ⟨file, generated, recovered⟩
    obtain ⟨some, fits, signs⟩ := needs_of_generatePayload generated
    refine ⟨some, ?_, fits, signs⟩
    obtain ⟨signature, length_signature, same⟩ := generatePayload_ok some fits signs
    cases generated.symm.trans same
    have length : (((unsignedHeader input).sign signature length_signature).bytes ++
        payloadBody input).length = payloadLength input := by
      rw [List.length_append, BootImageHeader.length_bytes, payloadLength]
    rw [offLimit] at fits
    obtain ⟨mem, holds⟩ := exists_holdsAt (w := 64) (by rw [length]; omega) 0
    have walk := (recovered mem 0 holds).ziChunkTable _ (Nat.lt_succ_self _)
    rw [holdsAt_append, BootImageHeader.length_bytes, payloadBody, holdsAt_append,
      holdsAt_append] at holds
    obtain ⟨header, ⟨-, ziChunks⟩, -⟩ := holds
    rw [Nat.zero_add] at ziChunks
    rw [BootImageHeader.InMem.ziChunkTableOffset header] at walk
    have stops := Option.some.inj
      ((walkTable_ziChunks ziChunks (Nat.lt_succ_self _)).symm.trans walk)
    intro z present zero
    have kept := List.takeWhile_eq_self_iff.mp stops z present
    rw [decide_eq_true zero] at kept
    cases kept
  · rintro ⟨some, nonzero, fits, signs⟩
    obtain ⟨signature, length_signature, generated⟩ := generatePayload_ok some fits signs
    refine ⟨_, generated, fun mem p holds => recoveredFrom_of_holds holds fits ?_ nonzero⟩
    rw [List.length_append, BootImageHeader.length_bytes, payloadLength]

theorem bnNumBytes_pred_le (bytes : ℕ) : bnNumBytes (2 ^ (8 * bytes) - 1) ≤ bytes := by
  have size := Nat.size_le.mpr (Nat.sub_lt (Nat.two_pow_pos (8 * bytes)) Nat.one_pos)
  rw [bnNumBytes]
  omega

/-- One chunk of one byte, and a key whose signature starts with a byte that is zero. -/
def shortSignature : PayloadInput where
  hart := fun _ =>
    { entryPoint := 0x80000000, privMode := 1, flags := 0, numChunks := 1, firstChunk := 0,
      lastChunk := 0, name := List.replicate bootImageMaxNameLen 0,
      length_name := List.length_replicate }
  setName := List.replicate bootImageMaxNameLen 0
  length_setName := List.length_replicate
  chunkTable :=
    [{ owner := 1, execAddr := 0x80000000, crc32 := 0, data := [0x13],
       data_ne := List.cons_ne_nil _ _, length_data := by decide }]
  ziChunkTable := []
  signer := some
    { digest := fun _ => List.replicate 48 0, length_digest := fun _ => List.length_replicate,
      ecdsaSig := fun _ => (2 ^ (8 * 47) - 1, 2 ^ (8 * 47 + 7)) }

/-- The generator gives up on it, though the fields of the header are there to pad the numbers to. -/
theorem shortSignature_givesUp : ¬ ∃ file, generatePayload shortSignature = .ok file ∧
    ∀ mem p, HoldsAt mem p 0 file → shortSignature.RecoveredFrom file mem p := by
  rintro ⟨file, generated, -⟩
  have full := ((needs_of_generatePayload generated).2.2 _ rfl).1
  exact Nat.ne_of_lt (Nat.lt_succ_of_le (bnNumBytes_pred_le 47)) full

end Hss
