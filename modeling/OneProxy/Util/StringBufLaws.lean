import OneProxy.Util.StringBuf

/-! What the buffer operations do to the bytes a buffer holds, and where they are defined. -/

namespace OneProxy.StringBuf

open Memory

/-- The largest size that can be rounded up without wrapping in 32 bits. -/
def maxSize : Nat := 0xfffffff8

/-- Clearing the low three bits rounds a 32-bit word down to a multiple of eight. -/
private theorem clearLowBits (x : BitVec 32) : x &&& ~~~(7#32) = (x >>> 3) <<< 3 := by
  ext i bound
  simp only [BitVec.getElem_and, BitVec.getElem_not, BitVec.getElem_shiftLeft]
  rcases Nat.lt_or_ge i 3 with low | high
  · -- Each of the three low bits is set in seven.
    have cases : i = 0 ∨ i = 1 ∨ i = 2 := by omega
    rcases cases with rfl | rfl | rfl <;> simp
  · -- No other bit is.
    have small : (7#32).toNat < 2 ^ i :=
      Nat.lt_of_lt_of_le (by decide : (7#32).toNat < 2 ^ 3) (Nat.pow_le_pow_right (by decide) high)
    have clear : (7#32)[i] = false := by
      rw [BitVec.getElem_eq_testBit_toNat]
      exact Nat.testBit_lt_two_pow small
    have same : 3 + (i - 3) = i := by omega
    simp [clear, Nat.not_lt.mpr high, same, BitVec.getLsbD_eq_getElem bound]

/-- Rounding up to the default alignment, with its wrap-around. -/
theorem alignment_toNat (size : UInt32) :
    (alignment size).toNat = (size.toNat + 7) % 0x100000000 / 8 * 8 := by
  have mask : ~~~((8 : UInt32) - 1) = ~~~7 := by decide
  have added : size + 8 - 1 = size + 7 := by
    apply UInt32.toNat_inj.mp
    simp [UInt32.toNat_sub]
    omega
  have rounded := congrArg BitVec.toNat (clearLowBits (size + 7).toBitVec)
  unfold alignment
  rw [mask, added]
  simp only [BitVec.toNat_shiftLeft, BitVec.toNat_ushiftRight, Nat.shiftLeft_eq,
    Nat.shiftRight_eq_div_pow] at rounded
  have lhs : ((size + 7) &&& ~~~7).toNat = ((size + 7).toBitVec &&& ~~~(7#32)).toNat := rfl
  have word : (size + 7).toBitVec.toNat = (size.toNat + 7) % 2 ^ 32 := by
    simp
  rw [lhs, rounded, word]
  omega

/-- A size that can be rounded up is covered by its rounding. -/
theorem le_alignment {size : UInt32} (fits : size.toNat ≤ maxSize) :
    size.toNat ≤ (alignment size).toNat := by
  rw [alignment_toNat]
  simp only [maxSize] at fits
  omega

/-- A new buffer is well formed. -/
@[simp] theorem new_wellFormed : new.WellFormed := by decide

/-- A new buffer holds nothing. -/
@[simp] theorem remaining_new : new.remaining = [] := rfl

/-- The remaining length counts the remaining bytes. -/
theorem remailLength_toNat {sb : StringBuf} (wf : sb.WellFormed) :
    sb.remailLength.toNat = sb.remaining.length := by
  -- The bytes below the length are all in the block, so nothing is cut off.
  have offsetLe := wf.offset_le
  have lengthLe := wf.length_le
  have allocated := wf.allocate_eq
  have ordered : sb.offset ≤ sb.length := UInt32.le_iff_toNat_le.mpr offsetLe
  simp only [Block.size] at allocated
  simp only [remailLength, ge_iff_le, if_pos ordered, UInt32.toNat_sub_of_le _ _ ordered,
    remaining, bytes, List.length_drop, List.length_take]
  omega

/-- A buffer holds as many bytes as its length says. -/
theorem length_bytes {sb : StringBuf} (wf : sb.WellFormed) :
    sb.bytes.length = sb.length.toNat := by
  have lengthLe := wf.length_le
  have allocated := wf.allocate_eq
  simp only [Block.size] at allocated
  simp only [bytes, List.length_take]
  omega

/-- Reading the held bytes out of a well-formed buffer is defined. -/
theorem read_bytes {sb : StringBuf} (wf : sb.WellFormed) :
    sb.buf.read 0 sb.length.toNat = some sb.bytes := by
  have fits : 0 + sb.length.toNat ≤ sb.buf.size := by
    have := wf.length_le
    have := wf.allocate_eq
    omega
  simpa [bytes] using Block.read_eq fits

/-- Skipping held bytes keeps a buffer well formed and drops them from what remains. -/
theorem setOffset_spec {sb : StringBuf} (wf : sb.WellFormed) {count : Nat}
    (inside : count ≤ sb.remaining.length) :
    (sb.setOffset (sb.offset + UInt32.ofNat count)).WellFormed ∧
      (sb.setOffset (sb.offset + UInt32.ofNat count)).remaining = sb.remaining.drop count := by
  -- The new offset is at most the length, so adding does not wrap.
  have counted := remailLength_toNat wf
  have offsetLe := wf.offset_le
  have remains : sb.remaining.length = sb.length.toNat - sb.offset.toNat := by
    rw [remaining, List.length_drop, length_bytes wf]
  have small : sb.length.toNat < 2 ^ 32 := sb.length.toNat_lt
  have moved : (sb.offset + UInt32.ofNat count).toNat = sb.offset.toNat + count := by
    rw [UInt32.toNat_add, UInt32.toNat_ofNat']
    omega
  refine ⟨⟨?_, wf.length_le, wf.allocate_eq⟩, ?_⟩
  · show (sb.offset + UInt32.ofNat count).toNat ≤ sb.length.toNat
    omega
  · show sb.bytes.drop (sb.offset + UInt32.ofNat count).toNat =
      (sb.bytes.drop sb.offset.toNat).drop count
    rw [moved, List.drop_drop]

/-- A defined append puts the bytes at the end and leaves the read position where it was. -/
theorem append_inv {m : Allocator UInt8} {sb grown : StringBuf} {data : Bytes}
    (wf : sb.WellFormed) (small : data.length < 0x100000000)
    (done : sb.append m data = some grown) :
    grown.WellFormed ∧ grown.bytes = sb.bytes ++ data ∧ grown.offset = sb.offset := by
  -- Both branches end with the same write at the old length, into blocks of different sizes.
  have offsetLe := wf.offset_le
  have lengthLe := wf.length_le
  have allocated := wf.allocate_eq
  have held := length_bytes wf
  have below := sb.allocateLen.toNat_lt
  have count : (UInt32.ofNat data.length).toNat = data.length := by
    rw [UInt32.toNat_ofNat']
    omega
  unfold append at done
  simp only at done
  split at done
  · next tooSmall =>
    simp only [Option.bind_eq_bind, Option.bind_eq_some_iff, Option.some.injEq] at done
    obtain ⟨kept, keptRead, moved, movedWrite, written, lastWrite, rfl⟩ := done
    rw [read_bytes wf, Option.some.injEq] at keptRead
    subst keptRead
    generalize newLen : alignment (sb.length + UInt32.ofNat data.length) = allocateLen at *
    obtain ⟨movedFits, movedSize, movedCells⟩ := Block.write_inv (Nat.zero_le _) movedWrite
    have atEnd : sb.length.toNat ≤ moved.size := by omega
    obtain ⟨fits, size, cells⟩ := Block.write_inv atEnd lastWrite
    -- There is something to append, so the allocator cannot have answered null.
    have something : 0 < data.length := by
      rcases Nat.eq_zero_or_pos data.length with none | some
      · have same : sb.length + UInt32.ofNat data.length = sb.length := by rw [none]; simp
        rw [same, UInt32.lt_iff_toNat_lt] at tooSmall
        omega
      · exact some
    have exact : allocateLen.toNat = written.size := by
      cases found : m.alloc allocateLen.toNat with
      | none =>
        rw [found] at movedSize
        simp only [Block.size, Option.getD_none, List.length_nil] at movedSize fits
        omega
      | some cells =>
        rw [size, movedSize, found, Allocator.size_alloc found]
    have limit := allocateLen.toNat_lt
    have total : (sb.length + UInt32.ofNat data.length).toNat = sb.length.toNat + data.length := by
      rw [UInt32.toNat_add, count]
      omega
    refine ⟨⟨?_, ?_, exact⟩, ?_, rfl⟩
    · show sb.offset.toNat ≤ (sb.length + UInt32.ofNat data.length).toNat
      omega
    · show (sb.length + UInt32.ofNat data.length).toNat ≤ allocateLen.toNat
      omega
    · -- The block starts with the old bytes, which fill it up to the old length.
      have front : (moved.getD []).take sb.length.toNat = sb.bytes := by
        rw [movedCells]
        simp only [List.take_zero, List.nil_append]
        exact List.take_left' held
      show (written.getD []).take (sb.length + UInt32.ofNat data.length).toNat = _
      rw [total, cells, front]
      exact List.take_left' (by simp [held])
  · simp only [Option.bind_eq_bind, Option.bind_eq_some_iff, Option.some.injEq] at done
    obtain ⟨written, lastWrite, rfl⟩ := done
    obtain ⟨fits, size, cells⟩ := Block.write_inv (by omega) lastWrite
    have total : (sb.length + UInt32.ofNat data.length).toNat = sb.length.toNat + data.length := by
      rw [UInt32.toNat_add, count]
      omega
    refine ⟨⟨?_, ?_, ?_⟩, ?_, rfl⟩
    · show sb.offset.toNat ≤ (sb.length + UInt32.ofNat data.length).toNat
      omega
    · show (sb.length + UInt32.ofNat data.length).toNat ≤ sb.allocateLen.toNat
      omega
    · show sb.allocateLen.toNat = written.size
      omega
    · show (written.getD []).take (sb.length + UInt32.ofNat data.length).toNat = _
      rw [total, cells]
      have front : (sb.bytes ++ data).length = sb.length.toNat + data.length := by
        rw [List.length_append, held]
      exact List.take_left' front

/-- An append is defined where the allocator answers and the total can be rounded up. -/
theorem append_defined {m : Allocator UInt8} (succeeds : m.Succeeds) {sb : StringBuf}
    {data : Bytes} (wf : sb.WellFormed) (fits : sb.length.toNat + data.length ≤ maxSize) :
    ∃ grown, sb.append m data = some grown := by
  -- The block written to holds the total, whether it is the old one or a new one.
  have lengthLe := wf.length_le
  have allocated := wf.allocate_eq
  have held := length_bytes wf
  simp only [maxSize] at fits
  have total : (sb.length + UInt32.ofNat data.length).toNat = sb.length.toNat + data.length := by
    rw [UInt32.toNat_add, UInt32.toNat_ofNat']
    omega
  unfold append
  simp only
  split
  · have room := @le_alignment (sb.length + UInt32.ofNat data.length)
      (by simp only [maxSize]; omega)
    obtain ⟨cells, found⟩ := Option.isSome_iff_exists.mp
      (succeeds (alignment (sb.length + UInt32.ofNat data.length)).toNat)
    have size := Allocator.size_alloc found
    obtain ⟨moved, movedWrite⟩ : ∃ moved, Block.write (some cells) 0 sb.bytes = some moved :=
      Block.write_eq (by omega)
    obtain ⟨-, movedSize, -⟩ := Block.write_inv (Nat.zero_le _) movedWrite
    obtain ⟨written, lastWrite⟩ : ∃ written, moved.write sb.length.toNat data = some written :=
      Block.write_eq (by omega)
    exact ⟨_, by simp only [found, read_bytes wf, movedWrite, lastWrite, Option.bind_eq_bind,
      Option.bind_some]; rfl⟩
  · next enough =>
    rw [UInt32.lt_iff_toNat_lt] at enough
    obtain ⟨written, lastWrite⟩ : ∃ written, sb.buf.write sb.length.toNat data = some written :=
      Block.write_eq (by omega)
    exact ⟨_, by simp only [lastWrite, Option.bind_eq_bind, Option.bind_some]; rfl⟩

/-- Emptying a buffer leaves it well formed and without bytes, whatever the allocator answers. -/
theorem clear_spec (m : Allocator UInt8) {sb : StringBuf} (wf : sb.WellFormed) :
    (sb.clear m).WellFormed ∧ (sb.clear m).bytes = [] := by
  have allocated := wf.allocate_eq
  unfold clear
  simp only
  split
  · -- The small block replaces the large one only where there is a small one.
    split
    · exact ⟨⟨Nat.le_refl _, Nat.zero_le _, allocated⟩, rfl⟩
    · next cells found =>
      exact ⟨⟨Nat.le_refl _, Nat.zero_le _, (Allocator.size_alloc found).symm⟩, rfl⟩
  · exact ⟨⟨Nat.le_refl _, Nat.zero_le _, allocated⟩, rfl⟩

/-- An emptied buffer has nothing remaining. -/
theorem remaining_clear (m : Allocator UInt8) {sb : StringBuf} (wf : sb.WellFormed) :
    (sb.clear m).remaining = [] := by
  simp [remaining, (clear_spec m wf).2]

/--
Erasing the bytes before the offset and rewinding keeps exactly the remaining bytes.

This is the compaction made before unsent bytes are appended.
-/
theorem erase_spec {sb : StringBuf} (wf : sb.WellFormed) :
    ∃ erased, sb.erase 0 sb.offset = some erased ∧ (erased.setOffset 0).WellFormed ∧
      (erased.setOffset 0).bytes = sb.remaining := by
  -- The offset is inside the buffer, so the moved bytes are the ones that remain.
  have offsetLe := wf.offset_le
  have lengthLe := wf.length_le
  have allocated := wf.allocate_eq
  have held := length_bytes wf
  have ordered : sb.offset ≤ sb.length := UInt32.le_iff_toNat_le.mpr offsetLe
  have notAbove : ¬ sb.offset > sb.length := UInt32.not_lt.mpr ordered
  unfold erase
  simp only [if_neg notAbove]
  split
  · next atStart =>
    -- Nothing lies before the offset, so nothing moves.
    have zero : sb.offset.toNat = 0 := by
      have := UInt32.le_iff_toNat_le.mp atStart
      simpa using this
    refine ⟨sb, rfl, ⟨Nat.zero_le _, lengthLe, allocated⟩, ?_⟩
    show sb.bytes = sb.bytes.drop sb.offset.toNat
    rw [zero, List.drop_zero]
  · have moves : (sb.length - sb.offset).toNat = sb.length.toNat - sb.offset.toNat :=
      UInt32.toNat_sub_of_le _ _ ordered
    have source : sb.buf.read sb.offset.toNat (sb.length - sb.offset).toNat =
        some sb.remaining := by
      rw [Block.read_eq (by omega), moves, remaining, bytes, List.drop_take]
    have remains : sb.remaining.length = sb.length.toNat - sb.offset.toNat := by
      rw [remaining, List.length_drop, held]
    obtain ⟨written, done⟩ : ∃ written, sb.buf.write 0 sb.remaining = some written :=
      Block.write_eq (by omega)
    obtain ⟨-, size, cells⟩ := Block.write_inv (Nat.zero_le _) done
    refine ⟨{ sb with buf := written, length := 0 + (sb.length - sb.offset) }, ?_, ?_, ?_⟩
    · simp only [source, Option.bind_eq_bind, Option.bind_some, UInt32.toNat_zero, done]
    · refine ⟨Nat.zero_le _, ?_, ?_⟩
      · show (0 + (sb.length - sb.offset)).toNat ≤ sb.allocateLen.toNat
        rw [UInt32.zero_add]
        omega
      · show sb.allocateLen.toNat = written.size
        omega
    · show (written.getD []).take (0 + (sb.length - sb.offset)).toNat = sb.remaining
      rw [UInt32.zero_add, cells, moves, List.take_zero, List.nil_append]
      exact List.take_left' remains

/-- Growing a buffer is defined where the allocator answers, and changes no byte of it. -/
theorem reallocMem_spec {m : Allocator UInt8} {sb : StringBuf} {size : UInt32}
    (wf : sb.WellFormed) (answers : (m.alloc (alignment size).toNat).isSome)
    (fits : size.toNat ≤ maxSize) :
    ∃ grown, sb.reallocMem m size = some (0, grown) ∧ grown.WellFormed ∧
      grown.bytes = sb.bytes ∧ grown.length = sb.length ∧ grown.offset = sb.offset ∧
      size.toNat ≤ grown.allocateLen.toNat := by
  have offsetLe := wf.offset_le
  have lengthLe := wf.length_le
  have allocated := wf.allocate_eq
  have held := length_bytes wf
  have covers := le_alignment fits
  unfold reallocMem
  split
  · next enough =>
    exact ⟨sb, rfl, wf, rfl, rfl, rfl, UInt32.le_iff_toNat_le.mp enough⟩
  · next tooSmall =>
    rw [ge_iff_le, UInt32.le_iff_toNat_le] at tooSmall
    obtain ⟨cells, found⟩ := Option.isSome_iff_exists.mp answers
    have newSize := Allocator.size_alloc found
    have notAbove : ¬ sb.length > alignment size := by
      rw [gt_iff_lt, UInt32.lt_iff_toNat_lt]
      omega
    -- The old bytes fit the new block, since they fitted the smaller one.
    obtain ⟨moved, done⟩ : ∃ moved, Block.write (some cells) 0 sb.bytes = some moved :=
      Block.write_eq (by omega)
    obtain ⟨-, movedSize, movedCells⟩ := Block.write_inv (Nat.zero_le _) done
    refine ⟨{ sb with allocateLen := alignment size, buf := moved }, ?_, ?_, ?_, rfl, rfl, covers⟩
    · simp only [found, if_neg notAbove, read_bytes wf, done, Option.bind_eq_bind,
        Option.bind_some]
    · exact ⟨offsetLe, by show sb.length.toNat ≤ (alignment size).toNat; omega,
        by show (alignment size).toNat = moved.size; omega⟩
    · show (moved.getD []).take sb.length.toNat = sb.bytes
      rw [movedCells, List.take_zero, List.nil_append]
      exact List.take_left' held

/-- Received bytes that fit the capacity are added at the end. -/
theorem recvInto_spec {sb : StringBuf} {data : Bytes} (wf : sb.WellFormed)
    (fits : sb.length.toNat + data.length ≤ sb.allocateLen.toNat) :
    ∃ filled, sb.recvInto data = some filled ∧ filled.WellFormed ∧
      filled.bytes = sb.bytes ++ data ∧ filled.offset = sb.offset := by
  have offsetLe := wf.offset_le
  have allocated := wf.allocate_eq
  have held := length_bytes wf
  have below := sb.allocateLen.toNat_lt
  obtain ⟨written, done⟩ : ∃ written, sb.buf.write sb.length.toNat data = some written :=
    Block.write_eq (by omega)
  obtain ⟨-, size, cells⟩ := Block.write_inv (by have := wf.length_le; omega) done
  -- The capacity has 32 bits, so that the sum does not wrap.
  have total : (sb.length + UInt32.ofNat data.length).toNat = sb.length.toNat + data.length := by
    rw [UInt32.toNat_add, UInt32.toNat_ofNat']
    omega
  refine ⟨{ sb with buf := written, length :=
    sb.length + UInt32.ofNat data.length }, ?_, ?_, ?_, rfl⟩
  · simp only [recvInto, done, Option.bind_eq_bind, Option.bind_some]
  · refine ⟨?_, ?_, ?_⟩
    · show sb.offset.toNat ≤ (sb.length + UInt32.ofNat data.length).toNat
      omega
    · show (sb.length + UInt32.ofNat data.length).toNat ≤ sb.allocateLen.toNat
      omega
    · show sb.allocateLen.toNat = written.size
      omega
  · show (written.getD []).take (sb.length + UInt32.ofNat data.length).toNat = _
    have front : (sb.bytes ++ data).length = sb.length.toNat + data.length := by
      rw [List.length_append, held]
    rw [total, cells]
    exact List.take_left' front

end OneProxy.StringBuf
