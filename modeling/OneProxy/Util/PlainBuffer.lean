import Mathlib.Data.List.Induction
import OneProxy.Util.StringBufLaws

/-!
The buffer as a plain list of bytes with a read position, and where its mutators keep to that.
-/

namespace OneProxy

open Memory

/-- Bytes and a read position, without a capacity. -/
structure PlainBuffer where
  bytes : Bytes
  offset : Nat
  deriving DecidableEq

namespace StringBuf

variable {m : Allocator UInt8} {sb : StringBuf}

/-- What can be seen of a buffer: its bytes and its read position. -/
def observe (sb : StringBuf) : PlainBuffer := ⟨sb.bytes, sb.offset.toNat⟩

/-- A buffer whose block is as large as it says, wherever its read position is. -/
structure Backed (sb : StringBuf) : Prop where
  length_le : sb.length.toNat ≤ sb.allocateLen.toNat
  allocate_eq : sb.allocateLen.toNat = sb.buf.size

/-- Read from its start, such a buffer is well formed. -/
theorem Backed.wellFormed (backed : sb.Backed) : (sb.setOffset 0).WellFormed :=
  ⟨Nat.zero_le _, backed.length_le, backed.allocate_eq⟩

theorem WellFormed.backed (wf : sb.WellFormed) : sb.Backed := ⟨wf.length_le, wf.allocate_eq⟩

/-- The read position does not matter for the block. -/
theorem Backed.setOffset (backed : sb.Backed) (offset : UInt32) : (sb.setOffset offset).Backed :=
  ⟨backed.length_le, backed.allocate_eq⟩

@[simp] theorem bytes_setOffset (offset : UInt32) : (sb.setOffset offset).bytes = sb.bytes := rfl

@[simp] theorem offset_setOffset (offset : UInt32) : (sb.setOffset offset).offset = offset := rfl

/-- As many bytes are held as the length says. -/
theorem Backed.length_bytes (backed : sb.Backed) : sb.bytes.length = sb.length.toNat :=
  @StringBuf.length_bytes (sb.setOffset 0) backed.wellFormed

/-- The held bytes are there to be read. -/
theorem Backed.read_bytes (backed : sb.Backed) :
    sb.buf.read 0 sb.length.toNat = some sb.bytes :=
  @StringBuf.read_bytes (sb.setOffset 0) backed.wellFormed

/-- A stretch of the held bytes is there to be read. -/
theorem Backed.read_stretch (backed : sb.Backed) {pos count : Nat}
    (inside : pos + count ≤ sb.length.toNat) :
    sb.buf.read pos count = some ((sb.bytes.drop pos).take count) := by
  have lengthLe := backed.length_le
  have allocated := backed.allocate_eq
  rw [Block.read_eq (by omega), bytes, List.drop_take, List.take_take]
  congr 2
  omega

/-! ## Appending -/

/-- Appending does not look at the read position. -/
theorem append_setOffset (offset : UInt32) (data : Bytes) :
    (sb.setOffset offset).append m data = (sb.append m data).map (·.setOffset offset) := by
  simp only [append]
  by_cases grows : sb.allocateLen < sb.length + UInt32.ofNat data.length
  · have rewound : (sb.setOffset offset).allocateLen <
        (sb.setOffset offset).length + UInt32.ofNat data.length := grows
    simp only [if_pos grows, if_pos rewound, Option.bind_eq_bind, Option.map_bind,
      Function.comp_def, Option.map_some]
    rfl
  · have rewound : ¬ (sb.setOffset offset).allocateLen <
        (sb.setOffset offset).length + UInt32.ofNat data.length := grows
    simp only [if_neg grows, if_neg rewound, Option.bind_eq_bind, Option.map_bind,
      Function.comp_def, Option.map_some]
    rfl

/-- Appending leaves the read position where it was. -/
theorem append_offset {grown : StringBuf} {data : Bytes} (done : sb.append m data = some grown) :
    grown.offset = sb.offset := by
  simp only [append] at done
  split at done
  · simp only [Option.bind_eq_bind, Option.bind_eq_some_iff, Option.some.injEq] at done
    obtain ⟨_, _, _, _, _, _, rfl⟩ := done
    rfl
  · simp only [Option.bind_eq_bind, Option.bind_eq_some_iff, Option.some.injEq] at done
    obtain ⟨_, _, rfl⟩ := done
    rfl

/-- What is appended comes behind the bytes. -/
theorem append_spec (backed : sb.Backed) (succeeds : m.Succeeds) {data : Bytes}
    (fits : sb.length.toNat + data.length ≤ maxSize) :
    ∃ grown, sb.append m data = some grown ∧ grown.Backed ∧ grown.bytes = sb.bytes ++ data ∧
      grown.offset = sb.offset := by
  have small : data.length < 0x100000000 := by
    simp only [maxSize] at fits
    omega
  -- Read from its start the buffer is well formed, and the same is appended.
  obtain ⟨rewound, done⟩ := append_defined succeeds backed.wellFormed fits
  have inv := append_inv backed.wellFormed small done
  rw [append_setOffset, Option.map_eq_some_iff] at done
  obtain ⟨grown, done, rfl⟩ := done
  exact ⟨grown, done, ⟨inv.1.length_le, inv.1.allocate_eq⟩, inv.2.1, append_offset done⟩

/-- A string is appended as its characters are, but for the read position of a buffer that grows. -/
theorem appendStr_eq {str : Bytes} (fits : sb.length.toNat + str.length ≤ maxSize) :
    sb.appendStr m str = (sb.append m str).map fun grown =>
      if sb.allocateLen.toNat < sb.length.toNat + str.length then grown.setOffset 0 else grown := by
  simp only [maxSize] at fits
  have total : UInt32.ofNat (sb.length.toNat + str.length) =
      sb.length + UInt32.ofNat str.length := by
    rw [UInt32.ofNat_add, UInt32.ofNat_toNat]
  have value : (sb.length + UInt32.ofNat str.length).toNat = sb.length.toNat + str.length := by
    rw [UInt32.toNat_add, UInt32.toNat_ofNat']
    omega
  simp only [appendStr, append, UInt32.lt_iff_toNat_lt, total, value]
  by_cases grows : sb.allocateLen.toNat < sb.length.toNat + str.length
  · simp only [if_pos grows, Option.bind_eq_bind, Option.map_bind, Function.comp_def,
      Option.map_some, setOffset]
  · simp only [if_neg grows, Option.map_id']

/-! ## Inserting -/

/-- What the allocator leaves between the bytes and data that is inserted behind them. -/
def gap (m : Allocator UInt8) (sb : StringBuf) (pos : UInt32) (data : Bytes) : Bytes :=
  let cells := m.alloc
    (alignment (sb.length + UInt32.ofNat data.length + (pos - sb.length))).toNat
  ((cells.getD []).drop sb.length.toNat).take (pos.toNat - sb.length.toNat)

/-- Inserting behind the end leaves the gap as it was allocated, and reads from the start. -/
theorem insert_behind (backed : sb.Backed) (succeeds : m.Succeeds) {pos : UInt32} {data : Bytes}
    (behind : sb.length.toNat < pos.toNat) (fits : pos.toNat + data.length ≤ maxSize) :
    ∃ grown, sb.insert m pos data = some grown ∧ grown.Backed ∧
      grown.bytes = sb.bytes ++ gap m sb pos data ++ data ∧ grown.offset = 0 := by
  have held := backed.length_bytes
  simp only [maxSize] at fits
  have above : pos > sb.length := UInt32.lt_iff_toNat_lt.mpr behind
  have zeroLen : (pos - sb.length).toNat = pos.toNat - sb.length.toNat :=
    UInt32.toNat_sub_of_le _ _ (UInt32.le_iff_toNat_le.mpr (by omega))
  have total : (sb.length + UInt32.ofNat data.length + (pos - sb.length)).toNat =
      pos.toNat + data.length := by
    rw [UInt32.toNat_add, UInt32.toNat_add, UInt32.toNat_ofNat', zeroLen]
    omega
  have room := @le_alignment (sb.length + UInt32.ofNat data.length + (pos - sb.length))
    (by simp only [maxSize]; omega)
  obtain ⟨cells, found⟩ := Option.isSome_iff_exists.mp (succeeds
    (alignment (sb.length + UInt32.ofNat data.length + (pos - sb.length))).toNat)
  have size := Allocator.size_alloc found
  have gapEq : gap m sb pos data =
      (cells.drop sb.length.toNat).take (pos.toNat - sb.length.toNat) := by
    simp only [gap, found, Option.getD_some]
  obtain ⟨moved, movedWrite, movedSize, movedCells⟩ :=
    @Block.write_spec _ (some cells) 0 sb.bytes (by omega)
  obtain ⟨written, lastWrite, lastSize, lastCells⟩ :=
    @Block.write_spec _ moved pos.toNat data (by omega)
  refine ⟨⟨written, sb.length + UInt32.ofNat data.length + (pos - sb.length), 0,
    alignment (sb.length + UInt32.ofNat data.length + (pos - sb.length))⟩, ?_, ?_, ?_, rfl⟩
  · simp only [insert, if_pos above, found, backed.read_bytes, movedWrite, lastWrite,
      Option.bind_eq_bind, Option.bind_some]
  · constructor
    · show (sb.length + UInt32.ofNat data.length + (pos - sb.length)).toNat ≤ _
      omega
    · show (alignment (sb.length + UInt32.ofNat data.length + (pos - sb.length))).toNat =
        written.size
      omega
  · show (written.getD []).take
      (sb.length + UInt32.ofNat data.length + (pos - sb.length)).toNat = _
    have cellsLength : cells.length = (Block.size (some cells)) := rfl
    -- Up to the position there are the bytes and the gap.
    have front : (moved.getD []).take pos.toNat = sb.bytes ++ gap m sb pos data := by
      rw [movedCells, gapEq, Option.getD_some, List.take_zero, List.nil_append, Nat.zero_add, held,
        List.take_append, held, List.take_of_length_le (by omega)]
    have frontLength : (sb.bytes ++ gap m sb pos data).length = pos.toNat := by
      rw [gapEq, List.length_append, held, List.length_take, List.length_drop]
      omega
    rw [total, lastCells, front]
    exact List.take_left' (by rw [List.length_append, frontLength])

/-- Inserting before the end moves the bytes behind, and reads a new block from its start. -/
theorem insert_within (backed : sb.Backed) (succeeds : m.Succeeds) {pos : UInt32} {data : Bytes}
    (within : pos.toNat ≤ sb.length.toNat) (fits : sb.length.toNat + data.length ≤ maxSize) :
    ∃ grown, sb.insert m pos data = some grown ∧ grown.Backed ∧
      grown.bytes = sb.bytes.take pos.toNat ++ data ++ sb.bytes.drop pos.toNat ∧
      grown.offset =
        if sb.allocateLen.toNat < sb.length.toNat + data.length then 0 else sb.offset := by
  have held := backed.length_bytes
  have lengthLe := backed.length_le
  have allocated := backed.allocate_eq
  simp only [maxSize] at fits
  have notAbove : ¬ pos > sb.length := UInt32.not_lt.mpr (UInt32.le_iff_toNat_le.mpr within)
  have rest : (sb.length - pos).toNat = sb.length.toNat - pos.toNat :=
    UInt32.toNat_sub_of_le _ _ (UInt32.le_iff_toNat_le.mpr within)
  have total : (sb.length + UInt32.ofNat data.length).toNat = sb.length.toNat + data.length := by
    rw [UInt32.toNat_add, UInt32.toNat_ofNat']
    omega
  have back : sb.buf.read pos.toNat (sb.length - pos).toNat = some (sb.bytes.drop pos.toNat) := by
    rw [backed.read_stretch (by omega), List.take_of_length_le (by rw [List.length_drop]; omega)]
  have backLength : (sb.bytes.drop pos.toNat).length = sb.length.toNat - pos.toNat := by
    rw [List.length_drop, held]
  have frontLength : (sb.bytes.take pos.toNat).length = pos.toNat := by
    rw [List.length_take]
    omega
  have whole : (sb.bytes.take pos.toNat ++ data ++ sb.bytes.drop pos.toNat).length =
      sb.length.toNat + data.length := by
    simp only [List.length_append, frontLength, backLength]
    omega
  by_cases grows : sb.allocateLen < sb.length + UInt32.ofNat data.length
  · have grows' : sb.allocateLen.toNat < sb.length.toNat + data.length := by
      rw [← total]
      exact UInt32.lt_iff_toNat_lt.mp grows
    have room := @le_alignment (sb.length + UInt32.ofNat data.length)
      (by simp only [maxSize]; omega)
    obtain ⟨cells, found⟩ := Option.isSome_iff_exists.mp
      (succeeds (alignment (sb.length + UInt32.ofNat data.length)).toNat)
    have size := Allocator.size_alloc found
    have front : sb.buf.read 0 pos.toNat = some (sb.bytes.take pos.toNat) := by
      rw [backed.read_stretch (by omega), List.drop_zero]
    obtain ⟨moved, movedWrite, movedSize, movedCells⟩ :=
      @Block.write_spec _ (some cells) 0 (sb.bytes.take pos.toNat) (by omega)
    obtain ⟨inserted, insertedWrite, insertedSize, insertedCells⟩ :=
      @Block.write_spec _ moved pos.toNat data (by omega)
    obtain ⟨written, lastWrite, lastSize, lastCells⟩ :=
      @Block.write_spec _ inserted (pos.toNat + data.length) (sb.bytes.drop pos.toNat) (by omega)
    refine ⟨⟨written, sb.length + UInt32.ofNat data.length, 0,
      alignment (sb.length + UInt32.ofNat data.length)⟩, ?_, ?_, ?_, ?_⟩
    · simp only [insert, if_neg notAbove, if_pos grows, found, front, movedWrite, insertedWrite,
        back, lastWrite, Option.bind_eq_bind, Option.bind_some]
    · constructor
      · show (sb.length + UInt32.ofNat data.length).toNat ≤ _
        omega
      · show (alignment (sb.length + UInt32.ofNat data.length)).toNat = written.size
        omega
    · show (written.getD []).take (sb.length + UInt32.ofNat data.length).toNat = _
      have first : (moved.getD []).take pos.toNat = sb.bytes.take pos.toNat := by
        rw [movedCells, List.take_zero, List.nil_append]
        exact List.take_left' frontLength
      have second : (inserted.getD []).take (pos.toNat + data.length) =
          sb.bytes.take pos.toNat ++ data := by
        rw [insertedCells, first]
        exact List.take_left' (by rw [List.length_append, frontLength])
      rw [total, lastCells, second]
      exact List.take_left' whole
    · rw [if_pos grows']
  · have stays : ¬ sb.allocateLen.toNat < sb.length.toNat + data.length := by
      rw [← total]
      exact fun less => grows (UInt32.lt_iff_toNat_lt.mpr less)
    obtain ⟨moved, movedWrite, movedSize, movedCells⟩ :=
      @Block.write_spec _ sb.buf (pos.toNat + data.length) (sb.bytes.drop pos.toNat) (by omega)
    obtain ⟨written, lastWrite, lastSize, lastCells⟩ :=
      @Block.write_spec _ moved pos.toNat data (by omega)
    refine ⟨⟨written, sb.length + UInt32.ofNat data.length, sb.offset, sb.allocateLen⟩,
      ?_, ?_, ?_, ?_⟩
    · simp only [insert, if_neg notAbove, if_neg grows, back, movedWrite, lastWrite,
        Option.bind_eq_bind, Option.bind_some]
    · constructor
      · show (sb.length + UInt32.ofNat data.length).toNat ≤ sb.allocateLen.toNat
        omega
      · show sb.allocateLen.toNat = written.size
        omega
    · show (written.getD []).take (sb.length + UInt32.ofNat data.length).toNat = _
      have blockLength : (sb.buf.getD []).length = sb.buf.size := rfl
      -- The bytes behind the position have been moved out of the way first.
      have first : (moved.getD []).take pos.toNat = sb.bytes.take pos.toNat := by
        rw [movedCells, List.append_assoc, List.take_append_of_le_length
          (by rw [List.length_take]; omega), List.take_take, bytes, List.take_take]
        congr 1
        omega
      have second : (moved.getD []).drop (pos.toNat + data.length) =
          sb.bytes.drop pos.toNat ++ (sb.buf.getD []).drop
            (pos.toNat + data.length + (sb.bytes.drop pos.toNat).length) := by
        rw [movedCells, List.append_assoc]
        exact List.drop_left' (by rw [List.length_take]; omega)
      rw [total, lastCells, first, second, ← List.append_assoc]
      exact List.take_left' whole
    · rw [if_neg stays]

/-! ## The other mutators -/

/-- What is erased is taken out of the bytes. -/
theorem erase_bytes (backed : sb.Backed) (startPos endPos : UInt32) :
    ∃ erased, sb.erase startPos endPos = some erased ∧ erased.Backed ∧
      erased.offset = sb.offset ∧ erased.bytes =
        if startPos.toNat < min endPos.toNat sb.bytes.length then
          sb.bytes.take startPos.toNat ++ sb.bytes.drop (min endPos.toNat sb.bytes.length)
        else sb.bytes := by
  have held := backed.length_bytes
  have lengthLe := backed.length_le
  have allocated := backed.allocate_eq
  -- The end is the length where it lies behind.
  obtain ⟨stop, isStop, stopEq⟩ : ∃ stop : UInt32,
      (if endPos > sb.length then sb.length else endPos) = stop ∧
        stop.toNat = min endPos.toNat sb.bytes.length := by
    refine ⟨_, rfl, ?_⟩
    rw [held]
    split
    · next above =>
      have less := UInt32.lt_iff_toNat_lt.mp above
      omega
    · next within =>
      have le := UInt32.le_iff_toNat_le.mp (UInt32.not_lt.mp within)
      omega
  rw [← stopEq]
  have stopLe : stop.toNat ≤ sb.length.toNat := by omega
  by_cases less : startPos.toNat < stop.toNat
  · have notEmpty : ¬ stop ≤ startPos :=
      UInt32.not_le.mpr (UInt32.lt_iff_toNat_lt.mpr less)
    have movLen : (sb.length - stop).toNat = sb.length.toNat - stop.toNat :=
      UInt32.toNat_sub_of_le _ _ (UInt32.le_iff_toNat_le.mpr stopLe)
    have newLen : (startPos + (sb.length - stop)).toNat =
        startPos.toNat + (sb.length.toNat - stop.toNat) := by
      have below := sb.length.toNat_lt
      rw [UInt32.toNat_add, movLen]
      omega
    have source : sb.buf.read stop.toNat (sb.length - stop).toNat =
        some (sb.bytes.drop stop.toNat) := by
      rw [backed.read_stretch (by omega), List.take_of_length_le (by rw [List.length_drop]; omega)]
    have sourceLength : (sb.bytes.drop stop.toNat).length = sb.length.toNat - stop.toNat := by
      rw [List.length_drop, held]
    obtain ⟨written, done, size, cells⟩ :=
      @Block.write_spec _ sb.buf startPos.toNat (sb.bytes.drop stop.toNat) (by omega)
    refine ⟨{ sb with buf := written, length := startPos + (sb.length - stop) }, ?_, ?_, rfl, ?_⟩
    · simp only [erase, isStop, if_neg notEmpty, source, done, Option.bind_eq_bind,
        Option.bind_some]
    · constructor
      · show (startPos + (sb.length - stop)).toNat ≤ sb.allocateLen.toNat
        omega
      · show sb.allocateLen.toNat = written.size
        omega
    · show (written.getD []).take (startPos + (sb.length - stop)).toNat = _
      have front : (sb.buf.getD []).take startPos.toNat = sb.bytes.take startPos.toNat := by
        rw [bytes, List.take_take]
        congr 1
        omega
      have frontLength : (sb.bytes.take startPos.toNat).length = startPos.toNat := by
        rw [List.length_take]
        omega
      rw [if_pos less, cells, front, newLen]
      exact List.take_left' (by rw [List.length_append, frontLength, sourceLength])
  · have empty : stop ≤ startPos := UInt32.le_iff_toNat_le.mpr (by omega)
    refine ⟨sb, ?_, backed, rfl, by rw [if_neg less]⟩
    simp only [erase, isStop, if_pos empty]

/-- Growing does not look at the read position. -/
theorem reallocMem_setOffset (offset size : UInt32) :
    (sb.setOffset offset).reallocMem m size =
      (sb.reallocMem m size).map fun result => (result.1, result.2.setOffset offset) := by
  -- Each of the ways out keeps the read position.
  unfold reallocMem
  by_cases enough : sb.allocateLen ≥ size
  · have rewound : (sb.setOffset offset).allocateLen ≥ size := enough
    rw [if_pos rewound, if_pos enough]
    rfl
  · have rewound : ¬ (sb.setOffset offset).allocateLen ≥ size := enough
    rw [if_neg rewound, if_neg enough]
    simp only
    cases m.alloc (alignment size).toNat with
    | none => rfl
    | some tmpbuf =>
      simp only
      by_cases above : sb.length > alignment size
      · have above' : (sb.setOffset offset).length > alignment size := above
        rw [if_pos above', if_pos above]
        rfl
      · have above' : ¬ (sb.setOffset offset).length > alignment size := above
        rw [if_neg above', if_neg above]
        simp only [Option.bind_eq_bind, Option.map_bind, Function.comp_def, Option.map_some]
        rfl

/-- Growing changes nothing that can be seen. -/
theorem reallocMem_observe (backed : sb.Backed) (succeeds : m.Succeeds) {size : UInt32}
    (fits : size.toNat ≤ maxSize) :
    ∃ grown, (sb.reallocMem m size).map Prod.snd = some grown ∧ grown.Backed ∧
      grown.observe = sb.observe := by
  obtain ⟨rewound, done, wf, same, -, -, -⟩ :=
    reallocMem_spec backed.wellFormed (succeeds (alignment size).toNat) fits
  rw [reallocMem_setOffset, Option.map_eq_some_iff] at done
  obtain ⟨⟨ret, grown⟩, done, pair⟩ := done
  obtain ⟨rfl, rfl⟩ := Prod.mk.inj pair
  -- No way out of the function writes the read position.
  have offset : grown.offset = sb.offset := by
    simp only [reallocMem] at done
    split at done
    · obtain ⟨_, rfl⟩ := Prod.mk.inj (Option.some.inj done)
      rfl
    · split at done
      · obtain ⟨_, rfl⟩ := Prod.mk.inj (Option.some.inj done)
        rfl
      · split at done
        · obtain ⟨_, rfl⟩ := Prod.mk.inj (Option.some.inj done)
          rfl
        · simp only [Option.bind_eq_bind, Option.bind_eq_some_iff, Option.some.injEq,
            Prod.mk.injEq] at done
          obtain ⟨_, _, _, _, _, rfl⟩ := done
          rfl
  refine ⟨grown, by rw [done]; rfl, ⟨wf.length_le, wf.allocate_eq⟩, ?_⟩
  rw [observe, observe, offset]
  exact congrArg (fun bytes => PlainBuffer.mk bytes sb.offset.toNat) same

/-- A cleared buffer is empty and read from its start. -/
theorem clear_observe (m : Allocator UInt8) (backed : sb.Backed) :
    (sb.clear m).Backed ∧ (sb.clear m).observe = ⟨[], 0⟩ := by
  have same : (sb.setOffset 0).clear m = sb.clear m := rfl
  obtain ⟨wf, empty⟩ := clear_spec m backed.wellFormed
  rw [same] at wf empty
  have offset : (sb.clear m).offset = 0 := by
    simp only [clear]
    split
    · split <;> rfl
    · rfl
  exact ⟨wf.backed, by rw [observe, empty, offset]; rfl⟩

end StringBuf

/-! ## Runs of mutators -/

/-- A call of a mutator. -/
inductive BufferCall
  | appendStr (str : Bytes)
  | append (data : Bytes)
  | insert (pos : UInt32) (data : Bytes)
  | erase (startPos endPos : UInt32)
  | setOffset (offset : UInt32)
  | reallocMem (size : UInt32)
  | clear

namespace BufferCall

open StringBuf

/-- What a call leaves, with the allocator that answers it. -/
def run (m : Allocator UInt8) (sb : StringBuf) : BufferCall → Option StringBuf
  | appendStr str => sb.appendStr m str
  | append data => sb.append m data
  | insert pos data => sb.insert m pos data
  | erase startPos endPos => sb.erase startPos endPos
  | setOffset offset => some (sb.setOffset offset)
  | reallocMem size => (sb.reallocMem m size).map Prod.snd
  | clear => some (sb.clear m)

/-- What a call does to bytes and a read position that have no capacity. -/
def plain (buffer : PlainBuffer) : BufferCall → PlainBuffer
  | appendStr data | append data => { buffer with bytes := buffer.bytes ++ data }
  | insert pos data =>
    let filled := buffer.bytes ++ List.replicate (pos.toNat - buffer.bytes.length) 0
    { buffer with bytes := filled.take pos.toNat ++ data ++ filled.drop pos.toNat }
  | erase startPos endPos =>
    let stop := min endPos.toNat buffer.bytes.length
    { buffer with bytes :=
        if startPos.toNat < stop then buffer.bytes.take startPos.toNat ++ buffer.bytes.drop stop
        else buffer.bytes }
  | setOffset offset => { buffer with offset := offset.toNat }
  | reallocMem _ => buffer
  | clear => ⟨[], 0⟩

/-- The sizes a call asks for are below 2^31. -/
def Fits (buffer : PlainBuffer) (call : BufferCall) : Prop :=
  (call.plain buffer).bytes.length < 0x80000000 ∧
    ∀ size, call = reallocMem size → size.toNat < 0x80000000

/--
A call that keeps to the plain buffer: a string, or an insertion, finds room or a buffer that is
read from its start, and the gap of an insertion is handed out as zeros.
-/
def KeepsPlain (m : Allocator UInt8) (sb : StringBuf) : BufferCall → Prop
  | appendStr str => sb.allocateLen.toNat < sb.length.toNat + str.length → sb.offset = 0
  | insert pos data =>
    if sb.length.toNat < pos.toNat then
      sb.offset = 0 ∧
        gap m sb pos data = List.replicate (pos.toNat - sb.length.toNat) 0
    else sb.allocateLen.toNat < sb.length.toNat + data.length → sb.offset = 0
  | _ => True

variable {m : Allocator UInt8} {sb : StringBuf}

/-- Two buffers look the same if their bytes and their read positions are equal. -/
theorem observe_eq_iff {buffer : PlainBuffer} :
    sb.observe = buffer ↔ sb.bytes = buffer.bytes ∧ sb.offset.toNat = buffer.offset := by
  cases buffer
  simp [observe]

/-- A read position that is lost is found again only if it was at the start. -/
theorem zero_eq_iff {offset : UInt32} : (0 : UInt32).toNat = offset.toNat ↔ offset = 0 := by
  rw [UInt32.toNat_inj]
  exact eq_comm

/-- A string keeps to the plain buffer exactly if no read position is lost. -/
theorem run_appendStr (backed : sb.Backed) (succeeds : m.Succeeds) {str : Bytes}
    (fits : (appendStr str).Fits sb.observe) :
    ∃ sb', (appendStr str).run m sb = some sb' ∧ sb'.Backed ∧
      (sb'.observe = (appendStr str).plain sb.observe ↔ (appendStr str).KeepsPlain m sb) := by
  have held := backed.length_bytes
  have small : sb.length.toNat + str.length ≤ maxSize := by
    have total := fits.1
    simp only [plain, observe, List.length_append] at total
    simp only [maxSize]
    omega
  obtain ⟨grown, done, grownBacked, bytes, offset⟩ := append_spec backed succeeds small
  refine ⟨_, by rw [run, appendStr_eq small, done]; rfl, ?_, ?_⟩
  · split
    · exact grownBacked.setOffset 0
    · exact grownBacked
  · rw [observe_eq_iff]
    -- The read position is lost where the buffer grows.
    by_cases grows : sb.allocateLen.toNat < sb.length.toNat + str.length
    · simp only [grows, if_true, bytes_setOffset, offset_setOffset, plain, observe, KeepsPlain,
        forall_const, zero_eq_iff, bytes, true_and]
    · simp only [grows, if_false, plain, observe, KeepsPlain, false_implies, bytes, offset,
        and_self]

/--
An insertion keeps to the plain buffer exactly if no read position is lost and the gap is zero.
-/
theorem run_insert (backed : sb.Backed) (succeeds : m.Succeeds) {pos : UInt32} {data : Bytes}
    (fits : (insert pos data).Fits sb.observe) :
    ∃ sb', (insert pos data).run m sb = some sb' ∧ sb'.Backed ∧
      (sb'.observe = (insert pos data).plain sb.observe ↔ (insert pos data).KeepsPlain m sb) := by
  have held := backed.length_bytes
  have total := fits.1
  simp only [plain, observe, List.length_append, List.length_take, List.length_drop,
    List.length_replicate] at total
  -- Behind the end there is a gap, which the plain buffer fills with zeros.
  by_cases behind : sb.length.toNat < pos.toNat
  · obtain ⟨grown, done, grownBacked, bytes, offset⟩ :=
      @insert_behind m sb backed succeeds pos data behind (by simp only [maxSize]; omega)
    refine ⟨grown, done, grownBacked, ?_⟩
    have filled : (sb.bytes ++ List.replicate (pos.toNat - sb.length.toNat) (0 : UInt8)).length =
        pos.toNat := by
      rw [List.length_append, List.length_replicate]
      omega
    have front : (sb.bytes ++ List.replicate (pos.toNat - sb.length.toNat) (0 : UInt8)).take
        pos.toNat = sb.bytes ++ List.replicate (pos.toNat - sb.length.toNat) 0 :=
      List.take_of_length_le (by omega)
    have back : (sb.bytes ++ List.replicate (pos.toNat - sb.length.toNat) (0 : UInt8)).drop
        pos.toNat = [] := List.drop_of_length_le (by omega)
    rw [observe_eq_iff]
    simp only [plain, observe, KeepsPlain, if_pos behind, held, front, back, bytes, offset,
      List.append_nil, List.append_cancel_left_eq, List.append_cancel_right_eq, zero_eq_iff]
    exact and_comm
  · obtain ⟨grown, done, grownBacked, bytes, offset⟩ :=
      @insert_within m sb backed succeeds pos data (by omega) (by simp only [maxSize]; omega)
    refine ⟨grown, done, grownBacked, ?_⟩
    have none : pos.toNat - sb.bytes.length = 0 := by omega
    rw [observe_eq_iff]
    simp only [plain, observe, KeepsPlain, if_neg behind, bytes, offset, none, List.replicate_zero,
      List.append_nil, true_and]
    split
    · next grows => simp only [grows, forall_const, zero_eq_iff]
    · next stays => simp only [stays, false_implies]

/-- A call leaves what it leaves of the plain buffer exactly if it keeps to that. -/
theorem run_spec (backed : sb.Backed) (succeeds : m.Succeeds) {call : BufferCall}
    (fits : call.Fits sb.observe) :
    ∃ sb', call.run m sb = some sb' ∧ sb'.Backed ∧
      (sb'.observe = call.plain sb.observe ↔ call.KeepsPlain m sb) := by
  have held := backed.length_bytes
  -- Only the calls that grow a buffer can be told from their plain ones.
  cases call with
  | appendStr str => exact run_appendStr backed succeeds fits
  | insert pos data => exact run_insert backed succeeds fits
  | append data =>
    have small : sb.length.toNat + data.length ≤ maxSize := by
      have total := fits.1
      simp only [plain, observe, List.length_append] at total
      simp only [maxSize]
      omega
    obtain ⟨grown, done, grownBacked, bytes, offset⟩ := append_spec backed succeeds small
    refine ⟨grown, done, grownBacked, ?_⟩
    rw [observe_eq_iff]
    simp only [plain, observe, KeepsPlain, bytes, offset, and_self]
  | erase startPos endPos =>
    obtain ⟨erased, done, erasedBacked, offset, bytes⟩ := erase_bytes backed startPos endPos
    refine ⟨erased, done, erasedBacked, ?_⟩
    rw [observe_eq_iff]
    exact iff_of_true ⟨bytes, congrArg UInt32.toNat offset⟩ trivial
  | setOffset offset =>
    refine ⟨_, rfl, backed.setOffset offset, ?_⟩
    rw [observe_eq_iff]
    simp only [plain, observe, KeepsPlain, bytes_setOffset, offset_setOffset, and_self]
  | reallocMem size =>
    have small : size.toNat ≤ maxSize := by
      have bound := fits.2 size rfl
      simp only [maxSize]
      omega
    obtain ⟨grown, done, grownBacked, same⟩ := reallocMem_observe backed succeeds small
    exact ⟨grown, done, grownBacked, by simp only [plain, KeepsPlain, same]⟩
  | clear =>
    obtain ⟨cleared, same⟩ := clear_observe m backed
    exact ⟨_, rfl, cleared, by simp only [plain, KeepsPlain, same]⟩

/-- The calls one after the other, each with the allocator that answers it. -/
def runAll (sb : StringBuf) (calls : List (Allocator UInt8 × BufferCall)) : Option StringBuf :=
  calls.foldlM (fun sb step => step.2.run step.1 sb) sb

/-- The same of a plain buffer. -/
def plainAll (buffer : PlainBuffer) (calls : List (Allocator UInt8 × BufferCall)) : PlainBuffer :=
  calls.foldl (fun buffer step => step.2.plain buffer) buffer

/-- Where the calls lead can be seen to be where they lead with a plain buffer. -/
def Follows (calls : List (Allocator UInt8 × BufferCall)) : Prop :=
  (runAll .new calls).map observe = some (plainAll ⟨[], 0⟩ calls)

variable {calls : List (Allocator UInt8 × BufferCall)} {call : BufferCall}

theorem runAll_concat : runAll .new (calls ++ [(m, call)]) =
      (runAll .new calls).bind (call.run m) := by
  simp [runAll, List.foldlM_append]

theorem plainAll_concat {buffer : PlainBuffer} :
    plainAll buffer (calls ++ [(m, call)]) = call.plain (plainAll buffer calls) := by
  simp [plainAll]

/-- Calls that have kept to the plain buffer so far have left a block as large as it says. -/
theorem backed_of_follows (succeeds : ∀ step ∈ calls, Allocator.Succeeds step.1)
    (fits : ∀ front m call, front ++ [(m, call)] <+: calls → call.Fits (plainAll ⟨[], 0⟩ front))
    (follows : ∀ front, front <+: calls → Follows front) :
    ∃ sb, runAll .new calls = some sb ∧ sb.Backed ∧ sb.observe = plainAll ⟨[], 0⟩ calls := by
  -- The induction takes the last call away.
  induction calls using List.reverseRecOn with
  | nil => exact ⟨.new, rfl, ⟨Nat.le_refl _, rfl⟩, rfl⟩
  | append_singleton calls step ih =>
    obtain ⟨m, call⟩ := step
    have inside : ∀ {front}, front <+: calls → front <+: calls ++ [(m, call)] :=
      fun early => early.trans (List.prefix_append calls [(m, call)])
    obtain ⟨sb, reached, backed, same⟩ := ih
      (fun step member => succeeds step (List.mem_append_left _ member))
      (fun front m call early => fits front m call (inside early))
      (fun front early => follows front (inside early))
    have last := fits calls m call (List.prefix_refl _)
    rw [← same] at last
    obtain ⟨sb', done, backed', _⟩ := run_spec backed (succeeds (m, call) (by simp)) last
    have now := follows _ (List.prefix_refl _)
    have reached' : runAll .new (calls ++ [(m, call)]) = some sb' := by
      rw [runAll_concat, reached, Option.bind_some, done]
    refine ⟨sb', reached', backed', ?_⟩
    rw [Follows, reached'] at now
    exact Option.some.inj now

/-- The calls can be seen to keep to the plain buffer all along exactly if each of them does. -/
theorem follows_iff (succeeds : ∀ step ∈ calls, Allocator.Succeeds step.1)
    (fits : ∀ front m call, front ++ [(m, call)] <+: calls → call.Fits (plainAll ⟨[], 0⟩ front)) :
    (∀ front, front <+: calls → Follows front) ↔
      ∀ front m call, front ++ [(m, call)] <+: calls →
        ∀ sb, runAll .new front = some sb → call.KeepsPlain m sb := by
  induction calls using List.reverseRecOn with
  | nil =>
    constructor
    · intro _ front m call early
      exact absurd (List.prefix_nil.mp early) (by simp)
    · intro _ front early
      rw [List.prefix_nil.mp early]
      rfl
  | append_singleton calls step ih =>
    obtain ⟨m, call⟩ := step
    have inside : ∀ {front}, front <+: calls → front <+: calls ++ [(m, call)] :=
      fun early => early.trans (List.prefix_append calls [(m, call)])
    have succeeds' : ∀ step ∈ calls, Allocator.Succeeds step.1 :=
      fun step member => succeeds step (List.mem_append_left _ member)
    have fits' : ∀ front m call, front ++ [(m, call)] <+: calls →
        call.Fits (plainAll ⟨[], 0⟩ front) :=
      fun front m call early => fits front m call (inside early)
    -- The last call is looked at where all the calls before it have kept to the plain buffer.
    have last : (∀ front, front <+: calls → Follows front) →
        (Follows (calls ++ [(m, call)]) ↔
          ∀ sb, runAll .new calls = some sb → call.KeepsPlain m sb) := by
      intro follows
      obtain ⟨sb, reached, backed, same⟩ := backed_of_follows succeeds' fits' follows
      have lastFits := fits calls m call (List.prefix_refl _)
      rw [← same] at lastFits
      obtain ⟨sb', done, _, kept⟩ := run_spec backed (succeeds (m, call) (by simp)) lastFits
      rw [Follows, runAll_concat, plainAll_concat, reached, Option.bind_some, done,
        Option.map_some, Option.some.injEq, ← same, kept]
      constructor
      · rintro keeps sb'' again
        rwa [← Option.some.inj again]
      · intro all
        exact all sb rfl
    constructor
    · intro follows front m' call' early
      have before := fun front early => follows front (inside early)
      rcases List.prefix_concat_iff.mp early with whole | early
      · obtain ⟨rfl, pair⟩ := List.append_inj' whole rfl
        obtain ⟨rfl, rfl⟩ := Prod.mk.inj (List.singleton_inj.mp pair)
        exact (last before).mp (follows _ (List.prefix_refl _))
      · exact (ih succeeds' fits').mp before front m' call' early
    · intro keeps front early
      have before := (ih succeeds' fits').mpr
        fun front m call early => keeps front m call (inside early)
      rcases List.prefix_concat_iff.mp early with rfl | early
      · exact (last before).mpr (keeps calls m call (List.prefix_refl _))
      · exact before front early

/-- All the sizes that a list of calls asks for are below 2^31. -/
def Sized (buffer : PlainBuffer) : List (Allocator UInt8 × BufferCall) → Prop
  | [] => True
  | (_, call) :: rest => call.Fits buffer ∧ Sized (call.plain buffer) rest

/-- Then each call's size is, after the calls before it. -/
theorem Sized.fits {buffer : PlainBuffer} (sized : Sized buffer calls) :
    ∀ front m call, front ++ [(m, call)] <+: calls → call.Fits (plainAll buffer front) := by
  -- The induction is on the calls; the front is taken off them one by one.
  induction calls generalizing buffer with
  | nil =>
    intro front m call early
    exact absurd (List.prefix_nil.mp early) (by simp)
  | cons step calls ih =>
    intro front m call early
    cases front with
    | nil =>
      obtain ⟨rfl, _⟩ := List.cons_prefix_cons.mp early
      exact sized.1
    | cons first front =>
      obtain ⟨rfl, later⟩ := List.cons_prefix_cons.mp early
      exact ih sized.2 front m call later

/--
With an allocator that always answers and sizes below 2^31, the calls can be seen to keep to the
plain buffer all along exactly if none of them loses a read position or leaves a gap that is not
zero.
-/
theorem plainBuffer_iff (succeeds : ∀ step ∈ calls, Allocator.Succeeds step.1)
    (sized : Sized ⟨[], 0⟩ calls) :
    (∀ front, front <+: calls → Follows front) ↔
      ∀ front m call, front ++ [(m, call)] <+: calls →
        ∀ sb, runAll .new front = some sb → call.KeepsPlain m sb :=
  follows_iff succeeds sized.fits

/-- Calls that get zeroed blocks. -/
def zeroed (calls : List BufferCall) : List (Allocator UInt8 × BufferCall) :=
  calls.map fun call => (Allocator.filled 0, call)

/-- Zeroed blocks are always had. -/
theorem succeeds_zeroed (calls : List BufferCall) :
    ∀ step ∈ zeroed calls, Allocator.Succeeds step.1 := by
  intro step member
  obtain ⟨call, _, rfl⟩ := List.mem_map.mp member
  exact Allocator.filled_succeeds 0

/-- Two bytes, of which the first is read, and a string that does not fit behind them. -/
def longString : List (Allocator UInt8 × BufferCall) :=
  zeroed [append [104, 105], setOffset 1, appendStr [32, 119, 111, 114, 108, 100, 33]]

theorem sized_longString : Sized ⟨[], 0⟩ longString := by
  simp [longString, zeroed, Sized, Fits, plain]

/-- The equivalence, for such a string. -/
theorem plainBuffer_longString :
    (∀ front, front <+: longString → Follows front) ↔
      ∀ front m call, front ++ [(m, call)] <+: longString →
        ∀ sb, runAll .new front = some sb → call.KeepsPlain m sb :=
  plainBuffer_iff (succeeds_zeroed _) sized_longString

/-- The read position is lost where the string makes the buffer grow. -/
theorem longString_not_plain :
    (∀ step ∈ longString, Allocator.Succeeds step.1) ∧ Sized ⟨[], 0⟩ longString ∧
      ¬ Follows longString := by
  refine ⟨succeeds_zeroed _, sized_longString, ?_⟩
  unfold Follows
  decide +kernel

end BufferCall

end OneProxy
