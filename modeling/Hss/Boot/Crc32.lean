import Hss.Boot.Gpt
import Hss.Lib.Crc
import Mathlib.Logic.Function.Basic

/-! The checksum CRC-32: its table, given in the source or computed at the first call, against the
check bit by bit. -/

namespace Hss

/-! ### With `CONFIG_CRC32_USE_PRECALC_TABLE` -/

/-- `precalcTable_` -/
def precalcTable256 : List (BitVec 32) :=
  [0x00000000, 0x77073096, 0xEE0E612C, 0x990951BA, 0x076DC419, 0x706AF48F, 0xE963A535, 0x9E6495A3,
    0x0EDB8832, 0x79DCB8A4, 0xE0D5E91E, 0x97D2D988, 0x09B64C2B, 0x7EB17CBD, 0xE7B82D07,
    0x90BF1D91, 0x1DB71064, 0x6AB020F2, 0xF3B97148, 0x84BE41DE, 0x1ADAD47D, 0x6DDDE4EB,
    0xF4D4B551, 0x83D385C7, 0x136C9856, 0x646BA8C0, 0xFD62F97A, 0x8A65C9EC, 0x14015C4F,
    0x63066CD9, 0xFA0F3D63, 0x8D080DF5, 0x3B6E20C8, 0x4C69105E, 0xD56041E4, 0xA2677172,
    0x3C03E4D1, 0x4B04D447, 0xD20D85FD, 0xA50AB56B, 0x35B5A8FA, 0x42B2986C, 0xDBBBC9D6,
    0xACBCF940, 0x32D86CE3, 0x45DF5C75, 0xDCD60DCF, 0xABD13D59, 0x26D930AC, 0x51DE003A,
    0xC8D75180, 0xBFD06116, 0x21B4F4B5, 0x56B3C423, 0xCFBA9599, 0xB8BDA50F, 0x2802B89E,
    0x5F058808, 0xC60CD9B2, 0xB10BE924, 0x2F6F7C87, 0x58684C11, 0xC1611DAB, 0xB6662D3D,
    0x76DC4190, 0x01DB7106, 0x98D220BC, 0xEFD5102A, 0x71B18589, 0x06B6B51F, 0x9FBFE4A5,
    0xE8B8D433, 0x7807C9A2, 0x0F00F934, 0x9609A88E, 0xE10E9818, 0x7F6A0DBB, 0x086D3D2D,
    0x91646C97, 0xE6635C01, 0x6B6B51F4, 0x1C6C6162, 0x856530D8, 0xF262004E, 0x6C0695ED,
    0x1B01A57B, 0x8208F4C1, 0xF50FC457, 0x65B0D9C6, 0x12B7E950, 0x8BBEB8EA, 0xFCB9887C,
    0x62DD1DDF, 0x15DA2D49, 0x8CD37CF3, 0xFBD44C65, 0x4DB26158, 0x3AB551CE, 0xA3BC0074,
    0xD4BB30E2, 0x4ADFA541, 0x3DD895D7, 0xA4D1C46D, 0xD3D6F4FB, 0x4369E96A, 0x346ED9FC,
    0xAD678846, 0xDA60B8D0, 0x44042D73, 0x33031DE5, 0xAA0A4C5F, 0xDD0D7CC9, 0x5005713C,
    0x270241AA, 0xBE0B1010, 0xC90C2086, 0x5768B525, 0x206F85B3, 0xB966D409, 0xCE61E49F,
    0x5EDEF90E, 0x29D9C998, 0xB0D09822, 0xC7D7A8B4, 0x59B33D17, 0x2EB40D81, 0xB7BD5C3B,
    0xC0BA6CAD, 0xEDB88320, 0x9ABFB3B6, 0x03B6E20C, 0x74B1D29A, 0xEAD54739, 0x9DD277AF,
    0x04DB2615, 0x73DC1683, 0xE3630B12, 0x94643B84, 0x0D6D6A3E, 0x7A6A5AA8, 0xE40ECF0B,
    0x9309FF9D, 0x0A00AE27, 0x7D079EB1, 0xF00F9344, 0x8708A3D2, 0x1E01F268, 0x6906C2FE,
    0xF762575D, 0x806567CB, 0x196C3671, 0x6E6B06E7, 0xFED41B76, 0x89D32BE0, 0x10DA7A5A,
    0x67DD4ACC, 0xF9B9DF6F, 0x8EBEEFF9, 0x17B7BE43, 0x60B08ED5, 0xD6D6A3E8, 0xA1D1937E,
    0x38D8C2C4, 0x4FDFF252, 0xD1BB67F1, 0xA6BC5767, 0x3FB506DD, 0x48B2364B, 0xD80D2BDA,
    0xAF0A1B4C, 0x36034AF6, 0x41047A60, 0xDF60EFC3, 0xA867DF55, 0x316E8EEF, 0x4669BE79,
    0xCB61B38C, 0xBC66831A, 0x256FD2A0, 0x5268E236, 0xCC0C7795, 0xBB0B4703, 0x220216B9,
    0x5505262F, 0xC5BA3BBE, 0xB2BD0B28, 0x2BB45A92, 0x5CB36A04, 0xC2D7FFA7, 0xB5D0CF31,
    0x2CD99E8B, 0x5BDEAE1D, 0x9B64C2B0, 0xEC63F226, 0x756AA39C, 0x026D930A, 0x9C0906A9,
    0xEB0E363F, 0x72076785, 0x05005713, 0x95BF4A82, 0xE2B87A14, 0x7BB12BAE, 0x0CB61B38,
    0x92D28E9B, 0xE5D5BE0D, 0x7CDCEFB7, 0x0BDBDF21, 0x86D3D2D4, 0xF1D4E242, 0x68DDB3F8,
    0x1FDA836E, 0x81BE16CD, 0xF6B9265B, 0x6FB077E1, 0x18B74777, 0x88085AE6, 0xFF0F6A70,
    0x66063BCA, 0x11010B5C, 0x8F659EFF, 0xF862AE69, 0x616BFFD3, 0x166CCF45, 0xA00AE278,
    0xD70DD2EE, 0x4E048354, 0x3903B3C2, 0xA7672661, 0xD06016F7, 0x4969474D, 0x3E6E77DB,
    0xAED16A4A, 0xD9D65ADC, 0x40DF0B66, 0x37D83BF0, 0xA9BCAE53, 0xDEBB9EC5, 0x47B2CF7F,
    0x30B5FFE9, 0xBDBDF21C, 0xCABAC28A, 0x53B39330, 0x24B4A3A6, 0xBAD03605, 0xCDD70693,
    0x54DE5729, 0x23D967BF, 0xB3667A2E, 0xC4614AB8, 0x5D681B02, 0x2A6F2B94, 0xB40BBE37,
    0xC30C8EA1, 0x5A05DF1B, 0x2D02EF8D]

section
variable (precalcTable : ℕ → BitVec 32)

/-- `CRC32_updateByte`, with the table that the build has -/
def tableUpdateByte (crc32 : BitVec 32) (byte : BitVec 8) : BitVec 32 :=
  let index := (crc32 ^^^ byte.setWidth 32) &&& 0xFF
  (crc32 >>> 8 ^^^ precalcTable index.toNat) &&& 0xFFFFFFFF

/-- The rest of `CRC32_calculate_ex` with this table.  The input is none where `pInput` is null. -/
def tableCalculateEx (seed : BitVec 32) (pInput : Option Bytes) : BitVec 32 :=
  let crc32 := ~~~seed
  ~~~match pInput with
    | none => crc32
    | some input => input.foldl (tableUpdateByte precalcTable) crc32

end

/-- `CRC32_calculate_ex` -/
def crc32PrecalcEx (seed : BitVec 32) (pInput : Option Bytes) : BitVec 32 :=
  tableCalculateEx (precalcTable256.getD · 0) seed pInput

/-! ### Without it -/

/-- The static data: `precalc_initialized_` and `precalcTable_`. -/
structure Crc32Statics where
  precalcInitialized : Bool
  precalcTable : ℕ → BitVec 32

def crc32Statics : Crc32Statics := ⟨false, fun _ => 0⟩

namespace Crc32Statics

/-- `CRC32_genTable_`.  The index is a byte, and the loop ends when it wraps. -/
def crc32GenTable (t : Crc32Statics) : Crc32Statics :=
  { t with
    precalcTable := (List.range' 1 255).foldl
      (fun table i => Function.update table i
        ((fun crc : BitVec 32 => if crc &&& 1 ≠ 0 then crc >>> 1 ^^^ 0xEDB88320 else crc >>> 1)^[8]
          (BitVec.ofNat 32 i)))
      t.precalcTable }

/-- `CRC32_calculate_ex` -/
def crc32CalculateEx (t : Crc32Statics) (seed : BitVec 32) (pInput : Option Bytes) :
    BitVec 32 × Crc32Statics :=
  let t := if !t.precalcInitialized then { t with precalcInitialized := true }.crc32GenTable else t
  (tableCalculateEx t.precalcTable seed pInput, t)

/-- The static data after calls with these arguments. -/
def after (calls : List (BitVec 32 × Option Bytes)) : Crc32Statics :=
  calls.foldl (fun t call => (t.crc32CalculateEx call.1 call.2).2) crc32Statics

end Crc32Statics

/-! ### Bit by bit -/

/-- The reflected check with the polynomial EDB88320h, inverted before and after. -/
def crc32Bitwise (seed : BitVec 32) (input : Bytes) : BitVec 32 :=
  ~~~Crc.down 0xEDB88320 (~~~seed) input

/-! ### The table -/

theorem and_one (crc : BitVec 32) : crc &&& 1 = BitVec.setWidth 32 (BitVec.ofBool (crc.getLsbD 0)) :=
  BitVec.and_one_eq_setWidth_ofBool_getLsbD

theorem step_downward (crc : BitVec 32) : Crc.downward.step 0xEDB88320 crc =
    if crc &&& 1 ≠ 0 then crc >>> 1 ^^^ 0xEDB88320 else crc >>> 1 := by
  rw [Crc.Register.step, Crc.Register.feed, and_one, Bool.xor_false]
  change (if crc.getLsbD 0 = true then _ else _) = _
  cases crc.getLsbD 0 with
  | true => rfl
  | false => rfl

/-- The tables hold the steps of eight bits. -/
def IsCrcTable (table : ℕ → BitVec 32) : Prop :=
  ∀ i : BitVec 8, table i.toNat = (Crc.downward.step 0xEDB88320)^[8] (i.setWidth 32)

theorem precalcTable256_isCrcTable : IsCrcTable (precalcTable256.getD · 0) := by
  rw [IsCrcTable]
  decide +kernel

theorem foldl_update {β : Type} (entry : ℕ → β) (l : List ℕ) (table : ℕ → β) (i : ℕ) :
    l.foldl (fun table j => Function.update table j (entry j)) table i =
      if i ∈ l then entry i else table i := by
  induction l generalizing table with
  | nil => rfl
  | cons j l ih =>
    rw [List.foldl_cons, ih]
    by_cases later : i ∈ l
    · simp [later]
    · by_cases here : i = j
      · subst here
        simp [later]
      · simp [later, here]

/-- The loop leaves out entry 0, which is zero from the start. -/
theorem crc32GenTable_isCrcTable (t : Crc32Statics) (zero : t.precalcTable 0 = 0) :
    IsCrcTable t.crc32GenTable.precalcTable := by
  intro i
  have inside := i.isLt
  have word : BitVec.ofNat 32 i.toNat = i.setWidth 32 := BitVec.ofNat_toNat 32 i
  rw [Crc32Statics.crc32GenTable]
  dsimp only
  rw [foldl_update, funext step_downward, word]
  by_cases first : i = 0
  · subst first
    exact zero.trans (by decide)
  · have positive : i.toNat ≠ 0 := fun none => first (BitVec.eq_of_toNat_eq none)
    rw [if_pos (List.mem_range'_1.mpr (by omega))]

theorem tableUpdateByte_eq {table : ℕ → BitVec 32} (good : IsCrcTable table) (crc : BitVec 32)
    (byte : BitVec 8) :
    (Crc.lowFirst byte).foldl (Crc.downward.feed 0xEDB88320) crc = tableUpdateByte table crc byte := by
  have index : ((crc ^^^ byte.setWidth 32) &&& 0xFF).toNat = (crc.setWidth 8 ^^^ byte).toNat := by
    have ones : (BitVec.allOnes 8).setWidth (24 + 8) = (0xFF : BitVec 32) := by decide
    rw [← ones]
    refine (Crc.toNat_and_byte (v := 24) (crc ^^^ byte.setWidth 32)).trans ?_
    rw [BitVec.setWidth_xor, BitVec.setWidth_setWidth_of_le byte (by decide), BitVec.setWidth_eq]
  have mask (x : BitVec 32) : x &&& 0xFFFFFFFF = x := BitVec.and_allOnes
  rw [Crc.foldl_lowFirst (by decide), Crc.downward_table, tableUpdateByte, index, good, mask]

theorem tableCalculateEx_eq {table : ℕ → BitVec 32} (good : IsCrcTable table) (seed : BitVec 32)
    (input : Bytes) : tableCalculateEx table seed (some input) = crc32Bitwise seed input := by
  rw [tableCalculateEx, crc32Bitwise, Crc.down, Crc.flatMap_foldl (tableUpdateByte_eq good)]

/-! ### The static data -/

namespace Crc32Statics

/-- The table is made if the flag says so, and has no entry before. -/
def Sound (t : Crc32Statics) : Prop :=
  if t.precalcInitialized then IsCrcTable t.precalcTable else t.precalcTable 0 = 0

theorem Sound.next {t : Crc32Statics} (sound : t.Sound) (seed : BitVec 32) (pInput : Option Bytes) :
    (t.crc32CalculateEx seed pInput).2.Sound ∧
      (t.crc32CalculateEx seed pInput).1 =
        tableCalculateEx (t.crc32CalculateEx seed pInput).2.precalcTable seed pInput ∧
      IsCrcTable (t.crc32CalculateEx seed pInput).2.precalcTable := by
  rw [Sound] at sound
  unfold crc32CalculateEx
  cases made : t.precalcInitialized with
  | true =>
    rw [made, if_pos rfl] at sound
    refine ⟨?_, rfl, sound⟩
    simp [Sound, made, sound]
  | false =>
    rw [made, if_neg Bool.false_ne_true] at sound
    have table := crc32GenTable_isCrcTable { t with precalcInitialized := true } sound
    refine ⟨?_, rfl, table⟩
    simpa [Sound, crc32GenTable] using table

theorem Sound.crc32CalculateEx {t : Crc32Statics} (sound : t.Sound) (seed : BitVec 32)
    (input : Bytes) : (t.crc32CalculateEx seed (some input)).1 = crc32Bitwise seed input := by
  obtain ⟨-, value, table⟩ := sound.next seed (some input)
  rw [value, tableCalculateEx_eq table]

theorem after_sound (calls : List (BitVec 32 × Option Bytes)) : (after calls).Sound := by
  induction calls using List.reverseRecOn with
  | nil => rfl
  | append_singleton calls call ih =>
    rw [after, List.foldl_append]
    exact (ih.next call.1 call.2).1

end Crc32Statics

theorem crc32Bitwise_append (seed : BitVec 32) (a b : Bytes) :
    crc32Bitwise (crc32Bitwise seed a) b = crc32Bitwise seed (a ++ b) := by
  rw [crc32Bitwise, crc32Bitwise, crc32Bitwise, BitVec.not_not, Crc.down_append]

/-- The form of the checksum that the other modules use. -/
theorem crc32CalculateEx_eq (seed : BitVec 32) (input : Bytes) :
    crc32CalculateEx seed input = crc32Bitwise seed input := by
  have bytewise (crc : BitVec 32) (byte : BitVec 8) :
      (Crc.lowFirst byte).foldl (Crc.downward.feed 0xEDB88320) crc = crc32UpdateByte crc byte := by
    have bit (crc : BitVec 32) : Crc.downward.step 0xEDB88320 crc =
        if crc &&& 1 = 1 then crc >>> 1 ^^^ 0xEDB88320 else crc >>> 1 := by
      rw [step_downward, and_one]
      cases crc.getLsbD 0 with
      | true => rfl
      | false => rfl
    rw [Crc.foldl_lowFirst (by decide), Crc.downward_table, funext bit]
    rfl
  rw [crc32CalculateEx, crc32Bitwise, Crc.down, Crc.flatMap_foldl bytewise]

/-- After any calls before, the table in the source, the table that is made and the check bit by bit
give the same value, and a value is the seed of what follows. -/
theorem crc32_paths_agree (calls : List (BitVec 32 × Option Bytes)) (seed : BitVec 32)
    (input rest : Bytes) :
    crc32PrecalcEx seed (some input) = crc32Bitwise seed input ∧
      ((Crc32Statics.after calls).crc32CalculateEx seed (some input)).1 = crc32Bitwise seed input ∧
      crc32PrecalcEx (crc32PrecalcEx seed (some input)) (some rest) =
        crc32PrecalcEx seed (some (input ++ rest)) ∧
      let (first, t) := (Crc32Statics.after calls).crc32CalculateEx seed (some input)
      (t.crc32CalculateEx first (some rest)).1 =
        ((Crc32Statics.after calls).crc32CalculateEx seed (some (input ++ rest))).1 := by
  have precalc (seed : BitVec 32) (input : Bytes) :
      crc32PrecalcEx seed (some input) = crc32Bitwise seed input :=
    tableCalculateEx_eq precalcTable256_isCrcTable seed input
  have sound := Crc32Statics.after_sound calls
  refine ⟨precalc seed input, sound.crc32CalculateEx seed input, ?_, ?_⟩
  · rw [precalc, precalc, precalc, crc32Bitwise_append]
  · dsimp only
    rw [(sound.next seed (some input)).1.crc32CalculateEx, sound.crc32CalculateEx,
      sound.crc32CalculateEx, crc32Bitwise_append]

end Hss
