import OneProxy.Protocol.IntegerCodec

/-! Writing integers at a position of a packet, which is a signed number. -/

namespace OneProxy.ProtocolPacket

open Memory

/-- A position and a size that lie within the allocated length. -/
def Within (sb : StringBuf) (size : UInt32) (position : Int32) : Prop :=
  0 ≤ position.toInt ∧ position.toInt + size.toNat ≤ sb.allocateLen.toNat

instance (sb : StringBuf) (size : UInt32) (position : Int32) :
    Decidable (Within sb size position) :=
  inferInstanceAs (Decidable (_ ∧ _))

/-- What a write of some bytes at a position is to do: change the bytes there, or nothing. -/
def Positional (sb : StringBuf) (size : UInt32) (position : Int32) (digits : Bytes)
    (set : Option (Int × StringBuf)) : Prop :=
  if Within sb size position then
    ∃ written, set = some (0, { sb with buf := written }) ∧ written.size = sb.buf.size ∧
      written.getD [] = (sb.buf.getD []).take position.toInt.toNat ++ digits ++
        (sb.buf.getD []).drop (position.toInt.toNat + size.toNat)
  else set = some (-1, sb)

/-- The sum of a position and a size, as the unsigned number that is compared. -/
def wrappedEnd (size : UInt32) (position : Int32) : Int :=
  (position.toInt + size.toNat) % 0x100000000

/-- The bytes within the allocated length are there. -/
def Present (sb : StringBuf) (size : UInt32) (position : Int32) : Prop :=
  Within sb size position → position.toInt + size.toNat ≤ sb.buf.size

variable {sb : StringBuf} {size : UInt32} {position : Int32}

/-- A position as an unsigned number. -/
theorem toNat_position (position : Int32) :
    (position.toUInt32.toNat : Int) = position.toInt % 0x100000000 ∧
      -0x80000000 ≤ position.toInt ∧ position.toInt < 0x80000000 := by
  have small := position.toBitVec.isLt
  have signed : position.toInt = position.toBitVec.toInt := rfl
  have unsigned : position.toUInt32.toNat = position.toBitVec.toNat := rfl
  rw [signed, unsigned, BitVec.toInt_eq_toNat_cond]
  split <;> omega

/-- What the writers compare with the allocated length. -/
theorem toNat_wrappedEnd (size : UInt32) (position : Int32) :
    ((position.toUInt32 + size).toNat : Int) = wrappedEnd size position := by
  have same := (toNat_position position).1
  rw [UInt32.toNat_add, wrappedEnd]
  omega

/--
Behind a check that answers with an error where it fails, bytes are written as they are to be
exactly if the check fails where it is to and the bytes are there.
-/
theorem positional_checked_iff (known : Size size) {digits : Bytes}
    (count : digits.length = size.toNat)
    {refused : Prop} [Decidable refused] :
    Positional sb size position digits
        (if refused then some (-1, sb) else writeAt sb position.toUInt32 digits) ↔
      (refused ↔ ¬ Within sb size position) ∧ Present sb size position := by
  obtain ⟨same, low, high⟩ := toNat_position position
  obtain ⟨positive, small⟩ := known.le_eight
  have some_ : digits ≠ [] := by
    intro none_
    rw [none_, List.length_nil] at count
    omega
  by_cases within : Within sb size position
  · have start := within.1
    have place : position.toUInt32.toNat = position.toInt.toNat := by omega
    rw [Positional, if_pos within]
    by_cases no : refused
    · rw [if_pos no]
      refine iff_of_false ?_ fun both => both.1.mp no within
      rintro ⟨_, done, _⟩
      simp at done
    · rw [if_neg no]
      by_cases there : position.toInt + size.toNat ≤ sb.buf.size
      · -- The bytes lie in the block.
        refine iff_of_true ?_ ⟨iff_of_false no (not_not.mpr within), fun _ => there⟩
        obtain ⟨written, done, length, cells⟩ :=
          @Block.write_spec _ sb.buf position.toUInt32.toNat digits (by omega)
        refine ⟨written, ?_, length, ?_⟩
        · have inFront : ¬ position.toUInt32.toNat ≥ 0x80000000 := by omega
          simp only [writeAt, if_neg inFront, done]
          rfl
        · rw [cells, place, count]
      · refine iff_of_false ?_ fun both => there (both.2 within)
        rw [writeAt_outside some_ (by omega)]
        rintro ⟨_, done, _⟩
        simp at done
  · rw [Positional, if_neg within]
    have absent : Present sb size position := fun inside => absurd inside within
    by_cases no : refused
    · rw [if_pos no]
      exact iff_of_true rfl ⟨iff_of_true no within, absent⟩
    · rw [if_neg no]
      refine iff_of_false ?_ fun both => no (both.1.mpr within)
      -- A write that is not refused has another answer.
      intro done
      rw [writeAt] at done
      split at done
      · simp at done
      · simp only [Option.bind_eq_bind, Option.bind_eq_some_iff, Option.some.injEq,
          Prod.mk.injEq] at done
        obtain ⟨_, _, answer, _⟩ := done
        omega

/-- `set_integerDataByLen` at a position goes wrong where a negative position passes the check. -/
theorem positional_highFirst_iff (known : Size size) (value : UInt64) :
    Positional sb size position (highFirstBytes size.toNat value)
        (setIntegerDataByLenAt sb size value position.toUInt32) ↔
      (position.toInt < 0 → sb.allocateLen.toNat < wrappedEnd size position) ∧
        Present sb size position := by
  rw [setIntegerDataByLenAt, positional_checked_iff known (by simp [highFirstBytes])]
  refine and_congr_left fun _ => ?_
  obtain ⟨_, low, high⟩ := toNat_position position
  have := known.le_eight
  have compared := toNat_wrappedEnd size position
  rw [gt_iff_lt, UInt32.lt_iff_toNat_lt, Within]
  rw [wrappedEnd] at compared ⊢
  omega

/-- `set_integerDataByLen_LT` at a position goes wrong at the last position as well. -/
theorem positional_lowFirst_iff (known : Size size) (value : UInt64) :
    Positional sb size position (lowFirstBytes size.toNat value)
        (setIntegerDataByLenLTAt sb size value position.toUInt32) ↔
      (position.toInt < 0 → sb.allocateLen.toNat ≤ wrappedEnd size position) ∧
        (0 ≤ position.toInt → position.toInt + size.toNat ≠ sb.allocateLen.toNat) ∧
          Present sb size position := by
  rw [setIntegerDataByLenLTAt, positional_checked_iff known (by simp [lowFirstBytes]), ← and_assoc]
  refine and_congr_left fun _ => ?_
  obtain ⟨_, low, high⟩ := toNat_position position
  have := known.le_eight
  have compared := toNat_wrappedEnd size position
  rw [ge_iff_le, UInt32.le_iff_toNat_le, Within]
  rw [wrappedEnd] at compared ⊢
  omega

/-- Where both writers do what they are to do. -/
def Admitted (sb : StringBuf) (size : UInt32) (position : Int32) : Prop :=
  (position.toInt < 0 → sb.allocateLen.toNat < wrappedEnd size position) ∧
    (0 ≤ position.toInt → position.toInt + size.toNat ≠ sb.allocateLen.toNat) ∧
      Present sb size position

/--
Both writers do what they are to do unless a negative position passes the check, the integer ends
with the allocated length, or the allocated length is not there.
-/
theorem positionalWrites_iff (sb : StringBuf) {size : UInt32} (known : Size size) (value : UInt64)
    (position : Int32) :
    (Positional sb size position (highFirstBytes size.toNat value)
        (setIntegerDataByLenAt sb size value position.toUInt32) ∧
      Positional sb size position (lowFirstBytes size.toNat value)
        (setIntegerDataByLenLTAt sb size value position.toUInt32)) ↔
      Admitted sb size position := by
  rw [positional_highFirst_iff known, positional_lowFirst_iff known, Admitted]
  constructor
  · intro both
    exact ⟨both.1.1, both.2.2.1, both.1.2⟩
  · intro admitted
    refine ⟨⟨admitted.1, admitted.2.2⟩, fun negative => ?_, admitted.2⟩
    exact Int.le_of_lt (admitted.1 negative)

/-- A buffer of eight bytes. -/
def eightBytes : StringBuf := ⟨some (List.replicate 8 0), 8, 0, 8⟩

/-- An integer of two bytes in the middle of eight. -/
theorem positionalWrites_middle :
    Positional eightBytes 2 3 (highFirstBytes 2 258) (setIntegerDataByLenAt eightBytes 2 258 3) ∧
      Positional eightBytes 2 3 (lowFirstBytes 2 258)
        (setIntegerDataByLenLTAt eightBytes 2 258 3) :=
  (positionalWrites_iff eightBytes (Or.inr (Or.inl rfl)) 258 3).mpr
    ⟨by decide, by decide, fun _ => by decide⟩

/-- An integer of four bytes at the end of eight is refused by one of the writers. -/
theorem lastPosition_refused : ¬ ∀ (sb : StringBuf) (size : UInt32), Size size →
    ∀ (value : UInt64) (position : Int32),
      Positional sb size position (highFirstBytes size.toNat value)
          (setIntegerDataByLenAt sb size value position.toUInt32) ∧
        Positional sb size position (lowFirstBytes size.toNat value)
          (setIntegerDataByLenLTAt sb size value position.toUInt32) := by
  intro always
  have low := (always eightBytes 4 (Or.inr (Or.inr (Or.inl rfl))) 1 4).2
  rw [Positional, if_pos (by decide)] at low
  obtain ⟨_, done, _⟩ := low
  have refused : setIntegerDataByLenLTAt eightBytes 4 1 (4 : Int32).toUInt32 =
      some (-1, eightBytes) := rfl
  rw [refused] at done
  simp at done

end OneProxy.ProtocolPacket
