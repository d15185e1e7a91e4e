import Mathlib.Data.List.Basic
import OneProxy.Util.Tool

/-! Numbers in decimal digits, and texts of bytes. -/

namespace OneProxy.Tool

/-- A number is written in the characters `0` to `9`. -/
theorem mem_digits {n : Nat} {byte : UInt8} (member : byte ∈ digits n) :
    48 ≤ byte.toNat ∧ byte.toNat ≤ 57 := by
  obtain ⟨digit, written, rfl⟩ := List.mem_map.mp member
  have isDigit := Nat.isDigit_of_mem_toDigits (by decide) (by decide) written
  simp only [Char.isDigit, ge_iff_le, Bool.and_eq_true, decide_eq_true_eq] at isDigit
  obtain ⟨low, high⟩ := isDigit
  have low' : 48 ≤ digit.toNat := low
  have high' : digit.toNat ≤ 57 := high
  have small : (UInt8.ofNat digit.toNat).toNat = digit.toNat := by
    rw [UInt8.toNat_ofNat']
    omega
  rw [small]
  exact ⟨low', high'⟩

/-- No number is written without a digit. -/
theorem digits_ne_nil (n : Nat) : digits n ≠ [] := by
  simp [digits]

/-- Different numbers are written differently. -/
theorem digits_injective {m n : Nat} (same : digits m = digits n) : m = n := by
  -- The characters of both are digits, which their bytes stand for.
  have digitsOf : ∀ k, (digits k).map (fun byte => Char.ofNat byte.toNat) = Nat.toDigits 10 k := by
    intro k
    rw [digits, List.map_map]
    refine (List.map_congr_left ?_).trans (List.map_id _)
    intro digit written
    have isDigit := Nat.isDigit_of_mem_toDigits (by decide) (by decide) written
    simp only [Char.isDigit, ge_iff_le, Bool.and_eq_true, decide_eq_true_eq] at isDigit
    have high : digit.toNat ≤ 57 := isDigit.2
    have small : (UInt8.ofNat digit.toNat).toNat = digit.toNat := by
      rw [UInt8.toNat_ofNat']
      omega
    simp [small]
  have chars : Nat.toDigits 10 m = Nat.toDigits 10 n := by
    rw [← digitsOf m, ← digitsOf n, same]
  rw [← @Nat.ofDigitChars_ten_toDigits m, ← @Nat.ofDigitChars_ten_toDigits n, chars]

/-- A text as the characters of its bytes, and back. -/
def asString (text : Bytes) : String := String.ofList (text.map fun c => Char.ofNat c.toNat)

def asBytes (s : String) : Bytes := s.toList.map fun c => UInt8.ofNat c.toNat

end OneProxy.Tool
