import OneProxy.Protocol.ProtocolPacket
import OneProxy.Lib.SignExtension
import OneProxy.Util.StringBufLaws

/-! Which integers are read from a packet as they were written. -/

namespace OneProxy.ProtocolPacket

open Memory SignExtension

/-- Words laid over one another by a loop. -/
def orLoop (f : Nat → UInt64) (size : Nat) : UInt64 :=
  (List.range size).foldl (fun value i => value ||| f i) 0

@[simp] theorem orLoop_zero (f : Nat → UInt64) : orLoop f 0 = 0 := rfl

@[simp] theorem orLoop_succ (f : Nat → UInt64) (size : Nat) :
    orLoop f (size + 1) = orLoop f size ||| f size := by
  simp [orLoop, List.range_succ]

/-- The first round of a loop can be taken out. -/
theorem orLoop_succ_first (f : Nat → UInt64) (size : Nat) :
    orLoop f (size + 1) = f 0 ||| orLoop (fun i => f (i + 1)) size := by
  induction size with
  | zero => simp
  | succ size ih => rw [orLoop_succ, ih, orLoop_succ, UInt64.or_assoc]

/-- The order of the rounds does not matter. -/
theorem orLoop_reverse (f : Nat → UInt64) (size : Nat) :
    orLoop (fun i => f (size - i - 1)) size = orLoop f size := by
  induction size with
  | zero => rfl
  | succ size ih =>
    -- The first round on the left is the last one on the right.
    have rest : (fun i => f (size + 1 - (i + 1) - 1)) = fun i => f (size - i - 1) := by
      funext i
      rw [Nat.add_sub_add_right]
    rw [orLoop_succ_first, rest, ih, orLoop_succ, UInt64.or_comm]
    simp

/-- Rounds that never take place may be anything. -/
theorem orLoop_congr {f g : Nat → UInt64} {size : Nat} (same : ∀ i, i < size → f i = g i) :
    orLoop f size = orLoop g size := by
  induction size with
  | zero => rfl
  | succ size ih =>
    rw [orLoop_succ, orLoop_succ, same size (Nat.lt_succ_self size),
      ih fun i less => same i (Nat.lt_succ_of_lt less)]

/-- One round: a byte is taken out of a value, and put back. -/
def putBack (value : UInt64) (i : Nat) : UInt64 :=
  shifted (value >>> UInt64.ofNat (i * 8)).toUInt8 (UInt32.ofNat (i * 8))

theorem orLowFirst_lowFirstBytes (size : Nat) (value : UInt64) :
    orLowFirst (lowFirstBytes size value) = orLoop (putBack value) size := by
  have length : (lowFirstBytes size value).length = size := by simp [lowFirstBytes]
  rw [orLowFirst, length]
  apply orLoop_congr
  intro i less
  simp [lowFirstBytes, less, putBack]

theorem orHighFirst_highFirstBytes (size : Nat) (value : UInt64) :
    orHighFirst (highFirstBytes size value) = orLoop (putBack value) size := by
  have length : (highFirstBytes size value).length = size := by simp [highFirstBytes]
  rw [orHighFirst, length, ← orLoop_reverse]
  apply orLoop_congr
  intro i less
  simp [highFirstBytes, less, putBack]

/-- A byte that is put back is shifted within the half that the sign extends. -/
theorem toBitVec_putBack (value : UInt64) {i : Nat} (inside : i < 8) :
    (putBack value i).toBitVec =
      (byte (i * 8) value.toBitVec <<< (i * 8 % 32)).signExtend 64 := by
  -- The position is one of eight, so both shifts are by a number that is known.
  match i, inside with
  | 0, _ | 1, _ | 2, _ | 3, _ | 4, _ | 5, _ | 6, _ | 7, _ => rfl

/-- Up to four bytes fill the lower half from below. -/
theorem toBitVec_orLoop {size : Nat} (half : size ≤ 4) (value : UInt64) :
    (orLoop (putBack value) size).toBitVec = (lower (size * 8) value.toBitVec).signExtend 64 := by
  induction size with
  | zero =>
    apply BitVec.eq_of_toNat_eq
    simp [lower, toNat_widen, Nat.mod_one]
  | succ size ih =>
    have count : size * 8 % 32 = size * 8 := by omega
    rw [orLoop_succ, UInt64.toBitVec_or, ih (by omega), toBitVec_putBack value (by omega), count,
      ← BitVec.signExtend_or, lower_or_byte (by omega), Nat.succ_mul]

/-- Eight bytes are laid over one another in the lower half. -/
theorem toBitVec_orLoop_eight (value : UInt64) :
    (orLoop (putBack value) 8).toBitVec =
      (lower 32 value.toBitVec ||| upper value.toBitVec).signExtend 64 := by
  have first := toBitVec_orLoop (Nat.le_refl 4) value
  have second := or_upper_bytes value.toBitVec
  rw [← second, BitVec.signExtend_or, ← first]
  simp only [orLoop_succ, UInt64.toBitVec_or, toBitVec_putBack, Nat.reduceLT, Nat.reduceMul,
    Nat.reduceMod, BitVec.signExtend_or, BitVec.shiftLeft_zero, BitVec.or_assoc]

/-- Values that are put together again from their bytes. -/
def Survives (size : UInt32) (value : UInt64) : Prop :=
  value.toNat < 0x80000000 ∨ size = 8 ∧ value.toNat = 0xffffffffffffffff

instance (size : UInt32) (value : UInt64) : Decidable (Survives size value) :=
  inferInstanceAs (Decidable (_ ∨ _ ∧ _))

/-- The sizes that the protocols use. -/
def Size (size : UInt32) : Prop := size = 1 ∨ size = 2 ∨ size = 4 ∨ size = 8

/-- A value that fits its size comes back from its bytes exactly when it survives them. -/
theorem orLoop_putBack_iff {size : UInt32} (known : Size size) {value : UInt64}
    (fits : value.toNat < 256 ^ size.toNat) :
    orLoop (putBack value) size.toNat = value ↔ Survives size value := by
  rw [← UInt64.toBitVec_inj]
  by_cases eight : size = 8
  · subst eight
    have widened := widen_halves_iff value.toBitVec
    rw [← toBitVec_orLoop_eight] at widened
    exact widened.trans (by simp [Survives])
  · -- The smaller sizes stay in the lower half, where the value has no other bits.
    have half : size.toNat ≤ 4 ∧ value.toNat < 2 ^ (size.toNat * 8) := by
      refine ⟨?_, by rwa [Nat.mul_comm, Nat.pow_mul]⟩
      obtain one | two | four | eight' := known
      · simp [one]
      · simp [two]
      · simp [four]
      · exact absurd eight' eight
    have power : 2 ^ (size.toNat * 8) ≤ 2 ^ 32 := Nat.pow_le_pow_right (by decide) (by omega)
    have small : value.toBitVec.toNat < 2 ^ 32 := Nat.lt_of_lt_of_le half.2 power
    have same : lower (size.toNat * 8) value.toBitVec = lower 32 value.toBitVec := by
      apply BitVec.eq_of_toNat_eq
      rw [toNat_lower]
      simp only [lower, BitVec.toNat_setWidth]
      have whole : value.toBitVec.toNat % 2 ^ (size.toNat * 8) = value.toBitVec.toNat :=
        Nat.mod_eq_of_lt half.2
      rw [whole]
    rw [toBitVec_orLoop half.1, same, widen_lower_iff small]
    simp [Survives, eight]

/-! The buffer that an integer is written to. -/

variable {m : Allocator UInt8} {sb : StringBuf}

/-- Growing a buffer moves neither its length nor its offset, whether it succeeds or not. -/
theorem reallocMem_keeps {room : UInt32} {ret : Int} {grown : StringBuf}
    (done : sb.reallocMem m room = some (ret, grown)) :
    grown.length = sb.length ∧ grown.offset = sb.offset := by
  unfold StringBuf.reallocMem at done
  split at done
  · simp only [Option.some.injEq, Prod.mk.injEq] at done
    simp [← done.2]
  · simp only at done
    split at done
    · simp only [Option.some.injEq, Prod.mk.injEq] at done
      simp [← done.2]
    · split at done
      · simp only [Option.some.injEq, Prod.mk.injEq] at done
        simp [← done.2]
      · simp only [Option.bind_eq_bind, Option.bind_eq_some_iff, Option.some.injEq,
          Prod.mk.injEq] at done
        obtain ⟨_, _, _, _, _, same⟩ := done
        simp [← same]

/-- The memory asked for is there already, or it is granted. -/
def Granted (m : Allocator UInt8) (sb : StringBuf) (room : UInt32) : Prop :=
  room ≤ sb.allocateLen ∨ (m.alloc (StringBuf.alignment room).toNat).isSome

instance (m : Allocator UInt8) (sb : StringBuf) (room : UInt32) : Decidable (Granted m sb room) :=
  inferInstanceAs (Decidable (_ ∨ _))

/-- Memory that is granted is there afterwards. -/
theorem reallocMem_granted (wf : sb.WellFormed) {room : UInt32} (granted : Granted m sb room)
    (fits : room.toNat ≤ StringBuf.maxSize) :
    ∃ ret grown, sb.reallocMem m room = some (ret, grown) ∧ room.toNat ≤ grown.allocateLen.toNat ∧
      room.toNat ≤ grown.buf.size := by
  by_cases enough : room ≤ sb.allocateLen
  · have bound := UInt32.le_iff_toNat_le.mp enough
    have allocated := wf.allocate_eq
    refine ⟨0, sb, by simp [StringBuf.reallocMem, enough], bound, ?_⟩
    omega
  · obtain ⟨grown, done, wf', _, _, _, covers⟩ :=
      StringBuf.reallocMem_spec wf (granted.resolve_left enough) fits
    have allocated := wf'.allocate_eq
    refine ⟨0, grown, done, covers, ?_⟩
    omega

/-- Memory that is refused is recorded nevertheless. -/
theorem reallocMem_refused {room : UInt32} (refused : ¬ Granted m sb room) :
    sb.reallocMem m room = some (-1, { sb with allocateLen := StringBuf.alignment room }) := by
  simp only [Granted, not_or, Option.not_isSome_iff_eq_none] at refused
  simp only [StringBuf.reallocMem, ge_iff_le, if_neg refused.1, refused.2]

/-- Bytes written at a position that is not negative are found there. -/
theorem writeAt_spec {position : UInt32} {digits : Bytes} (positive : position.toNat < 0x80000000)
    (fits : position.toNat + digits.length ≤ sb.buf.size) :
    ∃ written, writeAt sb position digits = some (0, { sb with buf := written }) ∧
      written.size = sb.buf.size ∧
        ((written.getD []).drop position.toNat).take digits.length = digits := by
  obtain ⟨written, done⟩ := Block.write_eq fits
  obtain ⟨_, size, cells⟩ := Block.write_inv (by omega) done
  refine ⟨written, ?_, size, ?_⟩
  · simp [writeAt, Nat.not_le.mpr positive, done]
  · have front : ((sb.buf.getD []).take position.toNat).length = position.toNat := by
      simp only [Block.size] at fits
      rw [List.length_take]
      omega
    rw [cells, List.append_assoc, List.drop_left' front, List.take_left]

/-- Bytes do not fit behind the end of a block. -/
theorem writeAt_outside {position : UInt32} {digits : Bytes} (some' : digits ≠ [])
    (outside : sb.buf.size < position.toNat + digits.length) :
    writeAt sb position digits = none := by
  have apart : ¬ position.toNat + digits.length ≤ sb.buf.size := by omega
  simp [writeAt, Block.write, some', apart]

/--
A written value is read back.

The writer and the reader succeed, each moves its own counter by the size, and the written bytes
stand for the value in their byte order.
-/
def RoundTrip (sb : StringBuf) (size : UInt32) (value : UInt64) (set : Option (Int × StringBuf))
    (get : StringBuf → UInt32 → Option (Int × StringBuf × UInt64)) (isLittleEndian : Bool) : Prop :=
  ∃ written read bytes, set = some (0, written) ∧
    written.length.toNat = sb.length.toNat + size.toNat ∧ written.offset = sb.offset ∧
    get (written.setOffset sb.length) size = some (0, read, value) ∧
    read.length = written.length ∧ read.offset.toNat = sb.length.toNat + size.toNat ∧
    written.buf.read sb.length.toNat size.toNat = some bytes ∧
    buffer2Integer bytes isLittleEndian = value

/-- Sizes are small. -/
theorem Size.le_eight {size : UInt32} (known : Size size) : 0 < size.toNat ∧ size.toNat ≤ 8 := by
  obtain one | two | four | eight := known
  · simp [one]
  · simp [two]
  · simp [four]
  · simp [eight]

/-- What is read back is what the written bytes are put together to. -/
theorem roundTrip_written_iff {size : UInt32} (known : Size size) {value : UInt64}
    {set : Option (Int × StringBuf)} {grown : StringBuf} {buf : Block UInt8} {digits : Bytes}
    (combine : Bytes → UInt64) {isLittleEndian : Bool}
    (order : buffer2Integer digits isLittleEndian = combine digits)
    (short : sb.length.toNat < 0x80000000) (sameOffset : grown.offset = sb.offset)
    (done : set = some (0, { grown with buf := buf, length := sb.length + size }))
    (count : digits.length = size.toNat) (fits : sb.length.toNat + size.toNat ≤ buf.size)
    (cells : ((buf.getD []).drop sb.length.toNat).take digits.length = digits) :
    RoundTrip sb size value set (getInteger combine) isLittleEndian ↔ combine digits = value := by
  obtain ⟨_, small⟩ := known.le_eight
  have total : (sb.length + size).toNat = sb.length.toNat + size.toNat := by
    rw [UInt32.toNat_add]
    omega
  have rest : sb.length + size - sb.length = size := by
    rw [UInt32.add_comm, UInt32.add_sub_cancel]
  have readBack : buf.read sb.length.toNat size.toNat = some digits := by
    rw [Block.read_eq fits, ← count, cells]
  -- The reader finds exactly the bytes that were written, so only their meaning is left.
  have got : getInteger combine
      (StringBuf.setOffset { grown with buf := buf, length := sb.length + size } sb.length) size =
      some (0, StringBuf.setOffset { grown with buf := buf, length := sb.length + size }
        (sb.length + size), combine digits) := by
    simp only [getInteger, StringBuf.setOffset, rest, UInt32.lt_irrefl, if_false, readBack,
      Option.bind_eq_bind, Option.bind_some]
  constructor
  · intro roundTrip
    obtain ⟨written, read, bytes, same, _, _, value', _⟩ := roundTrip
    rw [done, Option.some.injEq, Prod.mk.injEq] at same
    rw [← same.2, got] at value'
    simp only [Option.some.injEq, Prod.mk.injEq] at value'
    exact value'.2.2
  · intro same
    subst same
    exact ⟨_, _, _, done, total, sameOffset, got, rfl, total, readBack, order⟩

/-- A writer that finds its room hands on what `writeAt` leaves behind. -/
theorem setInteger_done {room size : UInt32} {ret : Int} {grown : StringBuf} {buf : Block UInt8}
    {writer : StringBuf → UInt32 → Option (Int × StringBuf)}
    (grew : sb.reallocMem m room = some (ret, grown))
    (writes : writer grown sb.length = some (0, { grown with buf := buf })) :
    setInteger m sb room size writer =
      some (0, { grown with buf := buf, length := sb.length + size }) := by
  have length := (reallocMem_keeps grew).1
  simp [setInteger, grew, length, writes]

/-- A writer whose write is undefined is undefined. -/
theorem setInteger_none {room size : UInt32} {ret : Int} {grown : StringBuf}
    {writer : StringBuf → UInt32 → Option (Int × StringBuf)}
    (grew : sb.reallocMem m room = some (ret, grown)) (writes : writer grown sb.length = none) :
    setInteger m sb room size writer = none := by
  have length := (reallocMem_keeps grew).1
  simp [setInteger, grew, length, writes]

/-- Without a pointer to write through, no value is read back. -/
theorem not_roundTrip_none {size : UInt32} {value : UInt64}
    {get : StringBuf → UInt32 → Option (Int × StringBuf × UInt64)} {isLittleEndian : Bool} :
    ¬ RoundTrip sb size value none get isLittleEndian := by
  intro roundTrip
  obtain ⟨_, _, _, impossible, _⟩ := roundTrip
  cases impossible

/-- The room both writers find in a buffer whose length is not negative as a signed integer. -/
theorem toNat_room {size : UInt32} (known : Size size) (short : sb.length.toNat < 0x80000000) :
    (sb.length + size).toNat = sb.length.toNat + size.toNat ∧
      (sb.length + size + 1).toNat = sb.length.toNat + size.toNat + 1 := by
  obtain ⟨_, small⟩ := known.le_eight
  have total : (sb.length + size).toNat = sb.length.toNat + size.toNat := by
    rw [UInt32.toNat_add]
    omega
  refine ⟨total, ?_⟩
  rw [UInt32.toNat_add, total]
  simp only [UInt32.toNat_one]
  omega

/-- A writer that only ever writes at a position does nothing at a negative one. -/
theorem not_roundTrip_long {room size : UInt32} {value : UInt64} {digits : Bytes}
    {full : StringBuf → UInt32 → Prop} [∀ sb position, Decidable (full sb position)]
    {get : StringBuf → UInt32 → Option (Int × StringBuf × UInt64)} {isLittleEndian : Bool}
    (long : ¬ sb.length.toNat < 0x80000000) :
    ¬ RoundTrip sb size value
      (setInteger m sb room size fun sb position =>
        if full sb position then some (-1, sb) else writeAt sb position digits)
      get isLittleEndian := by
  intro roundTrip
  obtain ⟨written, _, _, done, _⟩ := roundTrip
  simp only [setInteger, Option.bind_eq_bind, Option.bind_eq_some_iff] at done
  obtain ⟨⟨ret, grown⟩, grew, ⟨ret', grown'⟩, writes, answer⟩ := done
  have length := (reallocMem_keeps grew).1
  simp only at writes answer
  split at writes
  · -- The writer says that there is no room, and so does its caller.
    simp only [Option.some.injEq, Prod.mk.injEq] at writes
    rw [← writes.1] at answer
    simp at answer
  · rw [length, writeAt, if_pos (Nat.not_lt.mp long)] at writes
    cases writes

/--
What a writer needs for its value to be read back, given what `reallocMem` leaves it with.

The two writers differ in the check `full` that they make of the room.
-/
theorem roundTrip_grown_iff {room size : UInt32} (known : Size size) {value : UInt64}
    {ret : Int} {grown : StringBuf} {digits : Bytes} {full : StringBuf → UInt32 → Prop}
    [∀ sb position, Decidable (full sb position)] {combine : Bytes → UInt64} {isLittleEndian : Bool}
    (short : sb.length.toNat < 0x80000000) (count : digits.length = size.toNat)
    (grew : sb.reallocMem m room = some (ret, grown)) (notFull : ¬ full grown sb.length)
    (order : buffer2Integer digits isLittleEndian = combine digits) :
    RoundTrip sb size value
      (setInteger m sb room size fun sb position =>
        if full sb position then some (-1, sb) else writeAt sb position digits)
      (getInteger combine) isLittleEndian ↔
      sb.length.toNat + size.toNat ≤ grown.buf.size ∧ combine digits = value := by
  obtain ⟨positive, small⟩ := known.le_eight
  -- The check of the writer is passed, so that only the size of the block matters.
  by_cases fits : sb.length.toNat + size.toNat ≤ grown.buf.size
  · obtain ⟨buf, writes, sameSize, cells⟩ := @writeAt_spec grown sb.length digits short
      (by rw [count]; exact fits)
    have done := @setInteger_done m sb room size ret grown buf
      (fun sb position => if full sb position then some (-1, sb) else writeAt sb position digits)
      grew (by rw [if_neg notFull]; exact writes)
    refine (roundTrip_written_iff known combine order short (reallocMem_keeps grew).2 done count
      (by rw [sameSize]; exact fits) cells).trans ?_
    simp [fits]
  · have some' : digits ≠ [] := by
      apply List.ne_nil_of_length_pos
      omega
    have outside := @writeAt_outside grown sb.length digits some' (by omega)
    have nothing := @setInteger_none m sb room size ret grown
      (fun sb position => if full sb position then some (-1, sb) else writeAt sb position digits)
      grew (by rw [if_neg notFull]; exact outside)
    rw [nothing]
    exact iff_of_false not_roundTrip_none (by simp [fits])

/-- The highest byte first. -/
theorem roundTrip_highFirst_iff (wf : sb.WellFormed) {size : UInt32} (known : Size size)
    {value : UInt64} (fits : value.toNat < 256 ^ size.toNat) :
    RoundTrip sb size value (setIntegerDataByLen m sb size value) getIntegerDataByLen false ↔
      sb.length.toNat < 0x80000000 ∧ Granted m sb (sb.length + size) ∧ Survives size value := by
  obtain ⟨positive, small⟩ := known.le_eight
  have allocated := wf.allocate_eq
  have count : (highFirstBytes size.toNat value).length = size.toNat := by simp [highFirstBytes]
  have order : buffer2Integer (highFirstBytes size.toNat value) false =
      orHighFirst (highFirstBytes size.toNat value) := by
    simp [buffer2Integer, count, Nat.not_lt.mpr small]
  have survives := orLoop_putBack_iff known fits
  rw [← orHighFirst_highFirstBytes] at survives
  by_cases short : sb.length.toNat < 0x80000000
  · obtain ⟨total, _⟩ := toNat_room known short
    by_cases granted : Granted m sb (sb.length + size)
    · obtain ⟨ret, grown, grew, recorded, there⟩ := reallocMem_granted wf granted
        (by simp only [StringBuf.maxSize]; omega)
      have notFull : ¬ sb.length + size > grown.allocateLen := by
        rw [gt_iff_lt, UInt32.lt_iff_toNat_lt]
        omega
      refine (roundTrip_grown_iff known short count grew notFull order).trans ?_
      rw [survives]
      simp only [short, granted, true_and, and_iff_right_iff_imp]
      omega
    · -- The writer does not notice the refusal, and writes behind the old block.
      have grew := reallocMem_refused granted
      have covers := @StringBuf.le_alignment (sb.length + size)
        (by simp only [StringBuf.maxSize]; omega)
      have notFull : ¬ sb.length + size > StringBuf.alignment (sb.length + size) := by
        rw [gt_iff_lt, UInt32.lt_iff_toNat_lt]
        omega
      have apart : ¬ sb.length.toNat + size.toNat ≤ sb.buf.size := by
        simp only [Granted, not_or, UInt32.le_iff_toNat_le] at granted
        omega
      refine (roundTrip_grown_iff known short count grew notFull order).trans ?_
      simp [granted, apart]
  · exact iff_of_false (not_roundTrip_long short) (by simp [short])

/-- The lowest byte first: one more byte is asked for, and then left alone. -/
theorem roundTrip_lowFirst_iff (wf : sb.WellFormed) {size : UInt32} (known : Size size)
    {value : UInt64} (fits : value.toNat < 256 ^ size.toNat) :
    RoundTrip sb size value (setIntegerDataByLenLT m sb size value) getIntegerDataByLenLT true ↔
      sb.length.toNat < 0x80000000 ∧
        (sb.length + size ≤ sb.allocateLen ∨ Granted m sb (sb.length + size + 1)) ∧
        Survives size value := by
  obtain ⟨positive, small⟩ := known.le_eight
  have allocated := wf.allocate_eq
  have count : (lowFirstBytes size.toNat value).length = size.toNat := by simp [lowFirstBytes]
  have order : buffer2Integer (lowFirstBytes size.toNat value) true =
      orLowFirst (lowFirstBytes size.toNat value) := by
    simp [buffer2Integer, count, Nat.not_lt.mpr small]
  have survives := orLoop_putBack_iff known fits
  rw [← orLowFirst_lowFirstBytes] at survives
  by_cases short : sb.length.toNat < 0x80000000
  · obtain ⟨total, oneMore⟩ := toNat_room known short
    by_cases granted : Granted m sb (sb.length + size + 1)
    · obtain ⟨ret, grown, grew, recorded, there⟩ := reallocMem_granted wf granted
        (by simp only [StringBuf.maxSize]; omega)
      have notFull : ¬ sb.length + size ≥ grown.allocateLen := by
        rw [ge_iff_le, UInt32.le_iff_toNat_le]
        omega
      refine (roundTrip_grown_iff known short count grew notFull order).trans ?_
      rw [survives]
      simp only [short, granted, or_true, true_and, and_iff_right_iff_imp]
      omega
    · -- Where the byte that is left alone was the only one missing, the old block still suffices.
      have grew := reallocMem_refused granted
      have covers := @StringBuf.le_alignment (sb.length + size + 1)
        (by simp only [StringBuf.maxSize]; omega)
      have notFull : ¬ sb.length + size ≥ StringBuf.alignment (sb.length + size + 1) := by
        rw [ge_iff_le, UInt32.le_iff_toNat_le]
        omega
      refine (roundTrip_grown_iff known short count grew notFull order).trans ?_
      rw [survives]
      simp only [short, granted, or_false, true_and, UInt32.le_iff_toNat_le, total, allocated]
  · exact iff_of_false (not_roundTrip_long short) (by simp [short])

/--
Both pairs of writer and reader, and `buffer2Integer`, give a value back exactly when its sign bit
as a 32-bit integer is not reached, or all 64 bits are set, and the buffer has the room or gets it.
-/
theorem integer_roundTrips_iff (wf : sb.WellFormed) {size : UInt32} (known : Size size)
    {value : UInt64} (fits : value.toNat < 256 ^ size.toNat) :
    (RoundTrip sb size value (setIntegerDataByLen m sb size value) getIntegerDataByLen false ∧
      RoundTrip sb size value (setIntegerDataByLenLT m sb size value) getIntegerDataByLenLT true) ↔
      Survives size value ∧ sb.length.toNat < 0x80000000 ∧ Granted m sb (sb.length + size) ∧
        (sb.length + size ≤ sb.allocateLen ∨ Granted m sb (sb.length + size + 1)) := by
  rw [roundTrip_highFirst_iff wf known fits, roundTrip_lowFirst_iff wf known fits]
  constructor
  · intro both
    obtain ⟨⟨short, granted, survives⟩, _, oneMore, _⟩ := both
    exact ⟨survives, short, granted, oneMore⟩
  · intro conditions
    obtain ⟨survives, short, granted, oneMore⟩ := conditions
    exact ⟨⟨short, granted, survives⟩, short, oneMore, survives⟩

/-- In an empty buffer, a value of two bytes comes back. -/
theorem integer_roundTrips_new :
    (RoundTrip .new 2 0xabcd (setIntegerDataByLen (.filled 0) .new 2 0xabcd) getIntegerDataByLen
        false ∧
      RoundTrip .new 2 0xabcd (setIntegerDataByLenLT (.filled 0) .new 2 0xabcd)
        getIntegerDataByLenLT true) ↔
      Survives 2 0xabcd ∧ StringBuf.new.length.toNat < 0x80000000 ∧
        Granted (.filled 0) .new (StringBuf.new.length + 2) ∧
        (StringBuf.new.length + 2 ≤ StringBuf.new.allocateLen ∨
          Granted (.filled 0) .new (StringBuf.new.length + 2 + 1)) :=
  integer_roundTrips_iff StringBuf.new_wellFormed (Or.inr (Or.inl rfl)) (by decide)

/-- A value of four bytes with the highest bit set is read back as a much larger one. -/
theorem highBit_not_roundTrip :
    ¬ (RoundTrip .new 4 0x80000000 (setIntegerDataByLen (.filled 0) .new 4 0x80000000)
        getIntegerDataByLen false ∧
      RoundTrip .new 4 0x80000000 (setIntegerDataByLenLT (.filled 0) .new 4 0x80000000)
        getIntegerDataByLenLT true) := by
  intro both
  have survives := ((roundTrip_highFirst_iff StringBuf.new_wellFormed
    (Or.inr (Or.inr (Or.inl rfl))) (by decide)).mp both.1).2.2
  exact absurd survives (by decide)

end OneProxy.ProtocolPacket
