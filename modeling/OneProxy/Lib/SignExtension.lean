import Mathlib.Data.Nat.Bitwise

/-! Words put together from bytes in half their width, and then widened by their sign. -/

namespace SignExtension

/-- The lower bits of a word, in half the width. -/
def lower (count : Nat) (x : BitVec 64) : BitVec 32 := (x.setWidth count).setWidth 32

/-- The upper half of a word. -/
def upper (x : BitVec 64) : BitVec 32 := (x >>> 32).setWidth 32

/-- A byte of a word, in half the width. -/
def byte (position : Nat) (x : BitVec 64) : BitVec 32 :=
  ((x >>> position).setWidth 8).setWidth 32

/-- The lowest byte. -/
theorem byte_zero (x : BitVec 64) : byte 0 x = lower 8 x := by
  simp [byte, lower]

/-- One more byte makes the lower bits eight bits longer. -/
theorem lower_or_byte {count : Nat} (fits : count + 8 ≤ 32) (x : BitVec 64) :
    lower count x ||| byte count x <<< count = lower (count + 8) x := by
  -- A bit comes from below the new byte, from the byte itself, or from neither.
  apply BitVec.eq_of_getLsbD_eq
  intro i bound
  simp only [byte, lower, BitVec.getLsbD_or, BitVec.getLsbD_shiftLeft, BitVec.getLsbD_setWidth,
    BitVec.getLsbD_ushiftRight, bound, decide_true, Bool.true_and]
  by_cases below : i < count
  · have inside : i < count + 8 := by omega
    simp [below, inside]
  · have same : count + (i - count) = i := by omega
    have half : i - count < 32 := by omega
    by_cases inside : i < count + 8
    · have last : i - count < 8 := by omega
      simp [below, inside, last, half, same]
    · have behind : ¬ i - count < 8 := by omega
      simp [below, inside, behind]

/-- The four lower bytes make the lower half. -/
theorem or_bytes (x : BitVec 64) :
    byte 0 x ||| byte 8 x <<< 8 ||| byte 16 x <<< 16 ||| byte 24 x <<< 24 = lower 32 x := by
  rw [byte_zero, lower_or_byte (by decide), lower_or_byte (by decide), lower_or_byte (by decide)]

/-- The four upper bytes make the upper half. -/
theorem or_upper_bytes (x : BitVec 64) :
    byte 32 x ||| byte 40 x <<< 8 ||| byte 48 x <<< 16 ||| byte 56 x <<< 24 = upper x := by
  have bytes := or_bytes (x >>> 32)
  simp only [byte, lower, ← BitVec.shiftRight_add] at bytes
  simpa [byte, upper] using bytes

/-- What a half is as a number. -/
theorem toNat_lower (x : BitVec 64) : (lower 32 x).toNat = x.toNat % 2 ^ 32 := by
  simp [lower]

theorem toNat_upper (x : BitVec 64) : (upper x).toNat = x.toNat / 2 ^ 32 := by
  have bound := x.isLt
  simp only [upper, BitVec.toNat_setWidth, BitVec.toNat_ushiftRight, Nat.shiftRight_eq_div_pow]
  omega

/-- Widening by the sign keeps the number, or adds the upper half of all ones. -/
theorem toNat_widen (w : BitVec 32) :
    (w.signExtend 64).toNat = if w.toNat < 2 ^ 31 then w.toNat else w.toNat +
      (2 ^ 64 - 2 ^ 32) := by
  rw [BitVec.toNat_signExtend]
  have bound := w.isLt
  have sign : w.msb = decide (2 ^ 31 ≤ w.toNat) := by
    rw [BitVec.msb_eq_decide]
  by_cases small : w.toNat < 2 ^ 31
  · have clear : w.msb = false := by
      rw [sign]
      exact decide_eq_false (by omega)
    rw [clear, if_pos small]
    simp only [BitVec.toNat_setWidth, Bool.false_eq_true, if_false]
    omega
  · have set : w.msb = true := by
      rw [sign]
      exact decide_eq_true (by omega)
    rw [set, if_neg small]
    simp only [BitVec.toNat_setWidth, if_true]
    omega

/-- A number of the lower half survives being widened when its sign bit is not set. -/
theorem widen_lower_iff {x : BitVec 64} (fits : x.toNat < 2 ^ 32) :
    (lower 32 x).signExtend 64 = x ↔ x.toNat < 2 ^ 31 := by
  rw [← BitVec.toNat_inj, toNat_widen, toNat_lower, Nat.mod_eq_of_lt fits]
  split <;> omega

/--
Both halves laid over one another and widened are the word again only when it is a positive number
of the lower half, or has all bits set.
-/
theorem widen_halves_iff (x : BitVec 64) :
    (lower 32 x ||| upper x).signExtend 64 = x ↔ x.toNat < 2 ^ 31 ∨ x.toNat = 2 ^ 64 - 1 := by
  have bound := x.isLt
  have whole := (lower 32 x ||| upper x).isLt
  have left : (lower 32 x).toNat ≤ (lower 32 x ||| upper x).toNat := by
    rw [BitVec.toNat_or]
    exact Nat.left_le_or
  have right : (upper x).toNat ≤ (lower 32 x ||| upper x).toNat := by
    rw [BitVec.toNat_or]
    exact Nat.right_le_or
  rw [← BitVec.toNat_inj, toNat_widen]
  rw [toNat_lower] at left
  rw [toNat_upper] at right
  constructor
  · intro same
    split at same <;> omega
  · intro either
    obtain small | ones := either
    · -- Nothing is laid over the lower half.
      have none : (upper x).toNat = 0 := by
        rw [toNat_upper]
        omega
      have laid : (lower 32 x ||| upper x).toNat = x.toNat := by
        rw [BitVec.toNat_or, none, Nat.or_zero, toNat_lower]
        omega
      rw [laid, if_pos small]
    · split <;> omega

end SignExtension
