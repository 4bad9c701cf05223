import Hss.Lib.BlockStore
import Hss.Scai.Commands
import Mathlib.Data.Set.Function

/-! Where the MT29F driver finds the bytes of the flash. -/

namespace Hss

/-- A byte of the flash. -/
structure Mt29fPlace where
  die : Bool
  row : ℕ
  column : ℕ
  deriving DecidableEq

/-- The place of the byte at a logical address. -/
def mt29fPlace (logicalAddr : ℕ) : Mt29fPlace :=
  let physicalAddr := mt29fLogicalToPhysical logicalAddr
  ⟨mt29fTargetDie physicalAddr ≠ 0, mt29fRowAddr physicalAddr, mt29fColAddr physicalAddr⟩

/-- The bytes of the flash. -/
def mt29fCapacity : ℕ := mt29fTotalBlocks * mt29fBlockSizeBytes

theorem mt29fCapacity_eq : mt29fCapacity = 2 ^ 30 := by decide

theorem and_page (addr : ℕ) (less : addr < 2 ^ 32) : addr &&& 0xFFFFF000 = addr / 4096 * 4096 := by
  have mask : 0xFFFFF000 = (2 ^ 20 - 1) <<< 12 := by decide
  rw [mask, BlockStore.and_shiftLeft_mask]
  omega

theorem mt29fLogicalToPhysical_eq {addr : ℕ} (inside : addr < mt29fCapacity) :
    mt29fLogicalToPhysical addr = addr / 4096 * 8192 + addr % 4096 := by
  rw [mt29fCapacity_eq] at inside
  have low : addr &&& 0x00000FFF = addr % 4096 := Nat.and_two_pow_sub_one_eq_mod addr 12
  have apart : (addr / 4096 * 4096) <<< 1 = (addr / 4096) <<< 13 := by
    rw [Nat.shiftLeft_eq, Nat.shiftLeft_eq, Nat.mul_assoc]
  rw [mt29fLogicalToPhysical, and_page addr (by omega), low, apart,
    ← Nat.shiftLeft_add_eq_or_of_lt (show addr % 4096 < 2 ^ 13 by omega), Nat.shiftLeft_eq]
  omega

theorem mt29fTargetDie_eq (physicalAddr : ℕ) :
    mt29fTargetDie physicalAddr = physicalAddr / 1073741824 % 2 := by
  rw [mt29fTargetDie, Nat.and_one_is_mod, Nat.shiftRight_eq_div_pow]

theorem mt29fRowAddr_eq (physicalAddr : ℕ) :
    mt29fRowAddr physicalAddr = physicalAddr / 8192 % 131072 := by
  rw [mt29fRowAddr, show 0x1FFFF = 2 ^ 17 - 1 from rfl, Nat.and_two_pow_sub_one_eq_mod,
    Nat.shiftRight_eq_div_pow]

theorem mt29fColAddr_eq (physicalAddr : ℕ) : mt29fColAddr physicalAddr = physicalAddr % 8192 :=
  Nat.and_two_pow_sub_one_eq_mod physicalAddr 13

theorem mt29fPlace_eq {addr : ℕ} (inside : addr < mt29fCapacity) :
    mt29fPlace addr = ⟨536870912 ≤ addr, addr / 4096 % 131072, addr % 4096⟩ := by
  have die : (mt29fTargetDie (addr / 4096 * 8192 + addr % 4096) ≠ 0) = (536870912 ≤ addr) := by
    rw [mt29fCapacity_eq] at inside
    rw [mt29fTargetDie_eq]
    exact propext (by omega)
  rw [mt29fPlace, mt29fLogicalToPhysical_eq inside, mt29fRowAddr_eq, mt29fColAddr_eq,
    Mt29fPlace.mk.injEq]
  exact ⟨by simp only [die], by omega, by omega⟩

theorem mt29fPlace_injOn : Set.InjOn mt29fPlace (Set.Iio mt29fCapacity) := by
  intro addr inside addr' inside' same
  rw [mt29fPlace_eq inside, mt29fPlace_eq inside', Mt29fPlace.mk.injEq, decide_eq_decide] at same
  rw [Set.mem_Iio, mt29fCapacity_eq] at inside inside'
  omega

/-- The bytes of a page are next to one another. -/
theorem mt29fPlace_add {addr i : ℕ} (inside : addr + i < mt29fCapacity)
    (inPage : addr % 4096 + i < 4096) :
    mt29fPlace (addr + i) = { mt29fPlace addr with column := (mt29fPlace addr).column + i } := by
  rw [mt29fPlace_eq inside, mt29fPlace_eq (show addr < mt29fCapacity by omega), Mt29fPlace.mk.injEq,
    decide_eq_decide]
  dsimp only
  omega

/-- The cells of a flash. -/
abbrev Mt29fArray := Bool → ℕ → ℕ → BitVec 8

namespace Mt29fArray

variable (array : Mt29fArray)

def cell (place : Mt29fPlace) : BitVec 8 := array place.die place.row place.column

/-- The cells of a page from a place on. -/
def cellsFrom (place : Mt29fPlace) : ℕ → BitVec 8 := fun i =>
  array place.die place.row (place.column + i)

/-- The byte at a logical address. -/
def byte (logicalAddr : ℕ) : BitVec 8 := array.cell (mt29fPlace logicalAddr)

/-- A page programmed with `bytes` from a place on: bits are cleared. -/
def programmed (place : Mt29fPlace) (bytes : Bytes) : Mt29fArray :=
  Function.update array place.die (Function.update (array place.die) place.row fun column =>
    array place.die place.row column &&& writeBuffer (fun _ => 0xFF) place.column bytes column)

end Mt29fArray

end Hss
