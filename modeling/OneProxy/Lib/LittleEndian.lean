import Mathlib.Algebra.Group.Nat.Defs
import Mathlib.Data.List.Basic

/-! Natural numbers written as little-endian bytes of a fixed width. -/

namespace LittleEndian

/-- The low `width` base-256 digits of a number, lowest first. -/
def write : Nat → Nat → List UInt8
  | 0, _ => []
  | width + 1, value => UInt8.ofNat (value % 256) :: write width (value / 256)

/-- The number a list of digits stands for, lowest first. -/
def read : List UInt8 → Nat
  | [] => 0
  | byte :: rest => byte.toNat + 256 * read rest

/-- A number takes exactly the width it is written at. -/
@[simp] theorem length_write (width value : Nat) : (write width value).length = width := by
  induction width generalizing value with
  | zero => rfl
  | succ width ih => simp [write, ih]

/-- A number that fits its width is read back as it was written. -/
theorem read_write {width value : Nat} (fits : value < 256 ^ width) :
    read (write width value) = value := by
  -- One more digit is one more factor of 256 in the bound.
  induction width generalizing value with
  | zero =>
    have zero : value = 0 := by simpa using fits
    simp [write, read, zero]
  | succ width ih =>
    have rest : value / 256 < 256 ^ width := by
      rw [Nat.pow_succ] at fits
      omega
    have low : (UInt8.ofNat (value % 256)).toNat = value % 256 := by
      rw [UInt8.toNat_ofNat']
      omega
    simp only [write, read, low, ih rest]
    omega

end LittleEndian
