import Hss.Types
import Mathlib.Data.Int.Notation
import Mathlib.Data.Fintype.Basic
import Mathlib.Logic.Function.Basic

/-! Lines of the command line: the buffer that holds one, and how it is parsed into tokens. -/

namespace Hss

/-- `HSS_UART_HELPER_MAX_GETLINE` -/
abbrev hssUartHelperMaxGetline : ℕ := 80

abbrev LineBuffer := Fin hssUartHelperMaxGetline → BitVec 8

namespace LineBuffer

/-- There is a NUL byte at this place or after it. -/
def Terminated (buffer : LineBuffer) (start : ℕ) : Prop := ∃ i, start ≤ i.val ∧ buffer i = 0

instance (buffer : LineBuffer) (start : ℕ) : Decidable (buffer.Terminated start) :=
  inferInstanceAs (Decidable (∃ _, _))

/-- `buffer[i]` -/
def load (buffer : LineBuffer) (i : ℤ) : Except Halt (BitVec 8) :=
  if inside : 0 ≤ i ∧ i.toNat < hssUartHelperMaxGetline then .ok (buffer ⟨i.toNat, inside.2⟩)
  else .error .lineBufferBound

/-- `buffer[i] = byte` -/
def store (buffer : LineBuffer) (i : ℤ) (byte : BitVec 8) : Except Halt LineBuffer :=
  if inside : 0 ≤ i ∧ i.toNat < hssUartHelperMaxGetline then
    .ok (Function.update buffer ⟨i.toNat, inside.2⟩ byte)
  else .error .lineBufferBound

/-- `strlen`, which runs over the end of a buffer without a NUL byte. -/
def strlen (buffer : LineBuffer) : Except Halt ℕ :=
  match (List.ofFn buffer).findIdx? (· = 0) with
  | some length => .ok length
  | none => .error .lineBufferBound

/-- `memcpy`, whose size is taken as unsigned. -/
def memcpy (dest source : LineBuffer) (size : ℤ) : Except Halt LineBuffer :=
  if size % 2 ^ 64 ≤ hssUartHelperMaxGetline then
    .ok fun i => if i.val < size % 2 ^ 64 then source i else dest i
  else .error .lineBufferBound

end LineBuffer

/-! ### Tokens -/

/-- `mMAX_NUM_TOKENS` -/
def mMaxNumTokens : ℕ := 40

/-- The rest of a token, from `i` on: `strtok_r` ends it with a NUL byte.  As many bytes as `left` says
are left in the buffer. -/
def strtokScan (buffer : LineBuffer) (i : ℕ) : ℕ → Except Halt (LineBuffer × ℕ)
  | 0 => .error .lineBufferBound
  | left + 1 => do
    let byte ← buffer.load i
    if byte = 0 then return (buffer, i)
    else if byte = 0x0A ∨ byte = 0x20 then
      let buffer ← buffer.store i 0
      return (buffer, i + 1)
    else strtokScan buffer (i + 1) left

/-- `strtok_r`, which goes on where it was unless it has come to the end of a string: the start of the
token, if there is one, the buffer, and where to go on. -/
def strtokR (buffer : LineBuffer) (str saveptr : Option ℕ) :
    Except Halt (Option ℕ × LineBuffer × Option ℕ) :=
  match saveptr.or str with
  | none => .error .lineBufferBound
  | some start => do
    let byte ← buffer.load start
    if byte = 0 then return (none, buffer, none)
    else
      let (buffer, i) ← strtokScan buffer start (hssUartHelperMaxGetline - start)
      return (some start, buffer, some i)

/-- The loop of `HSS_TinyCLI_ParseIntoTokens`, with room for so many tokens: where they start. -/
def parseLoop (pToken : Option ℕ) (buffer : LineBuffer) (saveptr : Option ℕ) :
    ℕ → Except Halt (List ℕ × LineBuffer × Option ℕ)
  | 0 => .ok ([], buffer, saveptr)
  | room + 1 =>
    match pToken with
    | some token => do
      let (pToken, buffer, saveptr) ← strtokR buffer none saveptr
      let (tokens, buffer, saveptr) ← parseLoop pToken buffer saveptr room
      return (token :: tokens, buffer, saveptr)
    | none => .ok ([], buffer, saveptr)

/-- `HSS_TinyCLI_ParseIntoTokens`, whose `strtok_string` keeps its value between the lines. -/
def hssTinyCliParseIntoTokens (pBuffer : LineBuffer) (strtokString : Option ℕ) :
    Except Halt (List ℕ × LineBuffer × Option ℕ) := do
  let (pToken, pBuffer, strtokString) ← strtokR pBuffer (some 0) strtokString
  parseLoop pToken pBuffer strtokString mMaxNumTokens

abbrev Token := List Char

/-- The string that starts at a place in a buffer. -/
def LineBuffer.string (buffer : LineBuffer) (start : ℕ) : Token :=
  (((List.ofFn buffer).drop start).takeWhile (· ≠ 0)).map fun byte => Char.ofNat byte.toNat

end Hss
