import OneProxy.Protocol.IntegerCodec
import OneProxy.Protocol.UnicodeString

/-! Which strings are read from a packet as they were written. -/

namespace OneProxy.ProtocolPacket

open Memory StringBuf

variable {m : Allocator UInt8} {sb : StringBuf}

/-! The characters. -/

@[simp] theorem length_charBytes (str : Bytes) :
    (str.flatMap Tool.charBytes).length = 2 * str.length := by
  induction str with
  | nil => rfl
  | cons ch rest ih =>
    simp only [List.flatMap_cons, List.length_append, ih, Tool.charBytes, List.length_cons,
      List.length_nil]
    omega

@[simp] theorem length_wcharBytes (wstr : List UInt32) :
    (wstr.flatMap Tool.wcharBytes).length = 2 * wstr.length := by
  induction wstr with
  | nil => rfl
  | cons ch rest ih =>
    simp only [List.flatMap_cons, List.length_append, ih, Tool.wcharBytes, List.length_cons,
      List.length_nil]
    omega

/-- The second of two bytes is shifted out of a `char`. -/
theorem char_of_pair (low high : UInt8) :
    (low.toUInt32 ||| high.toUInt32 <<< 8).toUInt8 = low := by
  apply UInt8.eq_of_toBitVec_eq
  apply BitVec.eq_of_getLsbD_eq
  intro i bound
  have below : i < 32 := by omega
  simp [bound]

/-- Two bytes are all there is of a narrow `wchar_t`. -/
theorem wchar_of_pair {ch : UInt32} (narrow : ch.toNat < 0x10000) :
    (ch &&& 0xff).toUInt8.toUInt32 ||| ((ch >>> 8) &&& 0xff).toUInt8.toUInt32 <<< 8 = ch := by
  apply UInt32.toNat_inj.mp
  have mask : (0xff : Nat) = 2 ^ 8 - 1 := rfl
  have joined := @Nat.two_pow_add_eq_or_of_lt 8 (ch.toNat % 256) (by omega) (ch.toNat / 256)
  simp only [UInt32.toNat_or, UInt32.toNat_shiftLeft, UInt8.toNat_toUInt32,
    UInt32.toNat_toUInt8, UInt32.toNat_and, UInt32.toNat_shiftRight, UInt32.reduceToNat, mask,
    Nat.and_two_pow_sub_one_eq_mod]
  have first : ch.toNat % 2 ^ 8 % 2 ^ 8 = ch.toNat % 256 := by omega
  have second : (ch.toNat >>> (8 % 32) % 2 ^ 8 % 2 ^ 8) <<< (8 % 32) % 2 ^ 32 =
      2 ^ 8 * (ch.toNat / 256) := by
    simp only [Nat.shiftRight_eq_div_pow, Nat.shiftLeft_eq, Nat.reduceMod, Nat.reducePow]
    omega
  rw [first, second, Nat.or_comm, ← joined]
  omega

/-- Characters come back from their bytes. -/
theorem ofCharBytes_charBytes (str : Bytes) :
    Tool.ofCharBytes (str.flatMap Tool.charBytes) = str := by
  induction str with
  | nil => rfl
  | cons ch rest ih =>
    simp only [List.flatMap_cons, Tool.charBytes, List.cons_append, List.nil_append,
      Tool.ofCharBytes, char_of_pair, ih]

theorem ofWcharBytes_wcharBytes {wstr : List UInt32} (narrow : ∀ ch ∈ wstr, ch.toNat < 0x10000) :
    Tool.ofWcharBytes (wstr.flatMap Tool.wcharBytes) = wstr := by
  induction wstr with
  | nil => rfl
  | cons ch rest ih =>
    have char := wchar_of_pair (narrow ch List.mem_cons_self)
    simp only [List.flatMap_cons, Tool.wcharBytes, List.cons_append, List.nil_append,
      Tool.ofWcharBytes, char, ih fun ch' member => narrow ch' (List.mem_cons_of_mem ch member)]

theorem length_ofCharBytes (bdata : Bytes) (even : bdata.length % 2 = 0) :
    2 * (Tool.ofCharBytes bdata).length = bdata.length := by
  induction bdata using Tool.ofCharBytes.induct with
  | case1 low high rest ih =>
    simp only [List.length_cons] at even
    simp only [Tool.ofCharBytes, List.length_cons]
    have := ih (by omega)
    omega
  | case2 bdata short =>
    cases bdata with
    | nil => rfl
    | cons low rest =>
      cases rest with
      | nil => simp at even
      | cons high rest => exact absurd rfl (short low high rest)

theorem length_ofWcharBytes (bdata : Bytes) (even : bdata.length % 2 = 0) :
    2 * (Tool.ofWcharBytes bdata).length = bdata.length := by
  induction bdata using Tool.ofWcharBytes.induct with
  | case1 low high rest ih =>
    simp only [List.length_cons] at even
    simp only [Tool.ofWcharBytes, List.length_cons]
    have := ih (by omega)
    omega
  | case2 bdata short =>
    cases bdata with
    | nil => rfl
    | cons low rest =>
      cases rest with
      | nil => simp at even
      | cons high rest => exact absurd rfl (short low high rest)

/-- A way to turn bytes into characters, two bytes each. -/
structure Converts {α : Type} (convert : Bytes → List α → Int × List α) (encode : List α → Bytes)
    (valid : List α → Prop) : Prop where
  length : ∀ desStr, (encode desStr).length = 2 * desStr.length
  back : ∀ desStr, valid desStr → convert (encode desStr) [] = (0, desStr)
  count : ∀ bdata desStr, convert bdata [] = (0, desStr) → 2 * desStr.length = bdata.length

theorem converts_byte2string :
    Converts Tool.byte2string (fun str => str.flatMap Tool.charBytes) fun _ => True := by
  -- An empty string is refused and left empty; any other has an even number of bytes.
  refine ⟨length_charBytes, ?_, ?_⟩
  · intro str _
    by_cases empty : str = []
    · simp [Tool.byte2string, empty]
    · have some' : ¬ (str.flatMap Tool.charBytes).length ≤ 0 := by
        have := List.length_pos_iff.mpr empty
        rw [length_charBytes]
        omega
      have even : ¬ (str.flatMap Tool.charBytes).length % 2 ≠ 0 := by
        rw [length_charBytes]
        omega
      simp only [Tool.byte2string, if_neg some', if_neg even, ofCharBytes_charBytes,
        List.append_nil]
  · intro bdata str converted
    unfold Tool.byte2string at converted
    split at converted
    · rename_i empty
      simp only [Prod.mk.injEq, true_and] at converted
      rw [← converted]
      simp only [List.length_nil]
      omega
    · split at converted
      · simp at converted
      · rename_i even
        simp only [List.append_nil, Prod.mk.injEq, true_and] at converted
        rw [← converted]
        exact length_ofCharBytes bdata (by omega)

theorem converts_byte2wstring :
    Converts Tool.byte2wstring (fun wstr => wstr.flatMap Tool.wcharBytes)
      fun wstr => ∀ ch ∈ wstr, ch.toNat < 0x10000 := by
  refine ⟨length_wcharBytes, ?_, ?_⟩
  · intro wstr narrow
    have even : ¬ (wstr.flatMap Tool.wcharBytes).length % 2 ≠ 0 := by
      rw [length_wcharBytes]
      omega
    simp only [Tool.byte2wstring, if_neg even, ofWcharBytes_wcharBytes narrow, List.append_nil]
  · intro bdata wstr converted
    unfold Tool.byte2wstring at converted
    split at converted
    · simp at converted
    · rename_i even
      simp only [List.append_nil, Prod.mk.injEq, true_and] at converted
      rw [← converted]
      exact length_ofWcharBytes bdata (by omega)

/-! The buffer the characters are collected in. -/

/-- Whether a new buffer can take the bytes of a string. -/
def Fits (m : Allocator UInt8) (count : Nat) : Prop :=
  count ≤ maxSize ∧ Granted m .new (UInt32.ofNat count)

/-- A size is never rounded up to more than the largest one. -/
theorem alignment_le (size : UInt32) : (alignment size).toNat ≤ maxSize := by
  rw [alignment_toNat]
  simp only [maxSize]
  omega

/-- Bytes that fit are what the writers find in the buffer. -/
theorem putBytes_fits {data : Bytes} (fits : Fits m data.length) :
    ∃ tbuf, Tool.putBytes m data .new = some tbuf ∧
      tbuf.buf.read tbuf.offset.toNat tbuf.remailLength.toNat = some data := by
  obtain ⟨small, granted⟩ := fits
  have count : (UInt32.ofNat data.length).toNat = data.length := by
    rw [UInt32.toNat_ofNat']
    simp only [maxSize] at small
    omega
  -- The buffer is new, so that the bytes are all that it holds.
  obtain ⟨ret, grown, grew, _, there⟩ := reallocMem_granted new_wellFormed granted
    (by rw [count]; exact small)
  obtain ⟨length, offset⟩ := reallocMem_keeps grew
  rw [count] at there
  obtain ⟨written, done⟩ : ∃ written, grown.buf.write 0 data = some written :=
    Block.write_eq (by omega)
  obtain ⟨_, size, cells⟩ := Block.write_inv (Nat.zero_le _) done
  have start : (StringBuf.new.length + UInt32.ofNat data.length) = UInt32.ofNat data.length := by
    simp [StringBuf.new]
  refine ⟨{ grown with buf := written, length := UInt32.ofNat data.length }, ?_, ?_⟩
  · simp only [Tool.putBytes, start, grew, Option.bind_eq_bind, Option.bind_some, length]
    simp [StringBuf.new, done]
  · have all : (StringBuf.remailLength
        { grown with buf := written, length := UInt32.ofNat data.length }).toNat = data.length := by
      simp [StringBuf.remailLength, offset, StringBuf.new, count]
    rw [all]
    show written.read grown.offset.toNat data.length = some data
    rw [offset]
    show written.read 0 data.length = some data
    rw [Block.read_eq (by omega), cells]
    simp

/-- Bytes that do not fit are written where there is no memory for them. -/
theorem putBytes_none {data : Bytes} (tooLarge : ¬ Fits m data.length) :
    Tool.putBytes m data .new = none := by
  have start : (StringBuf.new.length + UInt32.ofNat data.length) = UInt32.ofNat data.length := by
    simp [StringBuf.new]
  -- The block is null, or of a size below the number of bytes.
  have some' : data ≠ [] := by
    intro nothing
    apply tooLarge
    rw [nothing]
    exact ⟨Nat.zero_le _, Or.inl (by decide)⟩
  have positive := List.length_pos_iff.mpr some'
  have apart : ∀ ret grown, StringBuf.new.reallocMem m (UInt32.ofNat data.length) =
    some (ret, grown) →
      grown.buf.size < data.length := by
    intro ret grown grew
    by_cases granted : Granted m .new (UInt32.ofNat data.length)
    · have long : ¬ data.length ≤ maxSize := fun small => tooLarge ⟨small, granted⟩
      unfold StringBuf.reallocMem at grew
      split at grew
      · simp only [Option.some.injEq, Prod.mk.injEq] at grew
        rw [← grew.2]
        exact positive
      · simp only at grew
        split at grew
        · simp only [Option.some.injEq, Prod.mk.injEq] at grew
          rw [← grew.2]
          exact positive
        · rename_i tmpbuf found
          split at grew
          · simp only [Option.some.injEq, Prod.mk.injEq] at grew
            rw [← grew.2]
            exact positive
          · simp only [Option.bind_eq_bind, Option.bind_eq_some_iff, Option.some.injEq,
              Prod.mk.injEq] at grew
            obtain ⟨kept, _, moved, write, _, same⟩ := grew
            obtain ⟨_, size, _⟩ := Block.write_inv (Nat.zero_le _) write
            have bound := alignment_le (UInt32.ofNat data.length)
            rw [Allocator.size_alloc found] at size
            rw [← same]
            show moved.size < data.length
            omega
    · rw [reallocMem_refused granted, Option.some.injEq, Prod.mk.injEq] at grew
      rw [← grew.2]
      exact positive
  cases grew : StringBuf.new.reallocMem m (UInt32.ofNat data.length) with
  | none => simp [Tool.putBytes, start, grew]
  | some grown =>
    obtain ⟨ret, grown⟩ := grown
    have length := (reallocMem_keeps grew).1
    have outside := apart ret grown grew
    have undefined : grown.buf.write 0 data = none := by
      simp [Block.write, some', Nat.not_le.mpr outside]
    simp only [Tool.putBytes, start, grew, Option.bind_eq_bind, Option.bind_some, length]
    simp [StringBuf.new, undefined]

/-! The length in front of the characters. -/

/-- The capacity that is recorded once a length of `size` bytes has been written. -/
def recorded (sb : StringBuf) (size : UInt32) : UInt32 :=
  if sb.length + size + 1 ≤ sb.allocateLen then sb.allocateLen
  else alignment (sb.length + size + 1)

/-- The size the block really has then. -/
def blockSize (m : Allocator UInt8) (sb : StringBuf) (size : UInt32) : Nat :=
  if Granted m sb (sb.length + size + 1) then (recorded sb size).toNat else sb.allocateLen.toNat

/-- The capacity that is recorded leaves room for one byte more. -/
theorem lt_recorded {size : UInt32} (known : Size size) (short : sb.length.toNat < 0x80000000) :
    sb.length.toNat + size.toNat < (recorded sb size).toNat := by
  obtain ⟨_, oneMore⟩ := toNat_room known short
  obtain ⟨_, small⟩ := known.le_eight
  rw [recorded]
  split
  · rename_i enough
    rw [UInt32.le_iff_toNat_le] at enough
    omega
  · have covers := @le_alignment (sb.length + size + 1) (by simp only [maxSize]; omega)
    omega

/-- A buffer that has grown for a length is not taken for a full one. -/
theorem not_full {size : UInt32} (known : Size size) (short : sb.length.toNat < 0x80000000) :
    ¬ sb.length + size ≥ recorded sb size := by
  obtain ⟨total, _⟩ := toNat_room known short
  have below := lt_recorded known short
  rw [ge_iff_le, UInt32.le_iff_toNat_le]
  omega

/-- Growing a buffer records the size it was asked for. -/
theorem reallocMem_records {room : UInt32} {ret : Int} {grown : StringBuf}
    (done : sb.reallocMem m room = some (ret, grown)) :
    grown.allocateLen = if room ≤ sb.allocateLen then sb.allocateLen else alignment room := by
  -- The capacity is recorded before the memory is asked for.
  unfold StringBuf.reallocMem at done
  split at done
  · rename_i enough
    simp only [Option.some.injEq, Prod.mk.injEq] at done
    rw [if_pos enough, ← done.2]
  · rename_i tooSmall
    rw [if_neg tooSmall]
    simp only at done
    split at done
    · simp only [Option.some.injEq, Prod.mk.injEq] at done
      rw [← done.2]
    · split at done
      · simp only [Option.some.injEq, Prod.mk.injEq] at done
        rw [← done.2]
      · simp only [Option.bind_eq_bind, Option.bind_eq_some_iff, Option.some.injEq,
          Prod.mk.injEq] at done
        obtain ⟨_, _, _, _, _, same⟩ := done
        rw [← same]

/-- What the buffer is when the length is about to be written. -/
theorem grown_for_length (wf : sb.WellFormed) {size : UInt32} (known : Size size)
    (short : sb.length.toNat < 0x80000000) :
    ∃ ret grown, sb.reallocMem m (sb.length + size + 1) = some (ret, grown) ∧
      grown.length = sb.length ∧ grown.offset = sb.offset ∧
      grown.allocateLen = recorded sb size ∧ grown.buf.size = blockSize m sb size ∧
      (grown.buf.getD []).take sb.length.toNat = sb.bytes ∧
      sb.length.toNat ≤ grown.buf.size := by
  obtain ⟨_, oneMore⟩ := toNat_room known short
  obtain ⟨_, small⟩ := known.le_eight
  have allocated := wf.allocate_eq
  have lengthLe := wf.length_le
  by_cases granted : Granted m sb (sb.length + size + 1)
  · -- There is room, or there is a new block with the old bytes.
    have spec : ∃ ret grown, sb.reallocMem m (sb.length + size + 1) = some (ret, grown) ∧
        grown.WellFormed ∧ grown.bytes = sb.bytes := by
      by_cases enough : sb.length + size + 1 ≤ sb.allocateLen
      · exact ⟨0, sb, by simp [StringBuf.reallocMem, enough], wf, rfl⟩
      · obtain ⟨grown, done, wf', bytes, _⟩ := reallocMem_spec wf (granted.resolve_left enough)
          (by simp only [maxSize]; omega)
        exact ⟨0, grown, done, wf', bytes⟩
    obtain ⟨ret, grown, grew, wf', bytes⟩ := spec
    obtain ⟨length, offset⟩ := reallocMem_keeps grew
    have records : grown.allocateLen = recorded sb size := reallocMem_records grew
    have size' := wf'.allocate_eq
    have inside := wf'.length_le
    refine ⟨ret, grown, grew, length, offset, records, ?_, ?_, ?_⟩
    · rw [← size', records, blockSize, if_pos granted]
    · rw [← bytes, StringBuf.bytes, length]
    · rw [← length]
      omega
  · have grew := reallocMem_refused granted
    refine ⟨_, _, grew, rfl, rfl, reallocMem_records grew, ?_, rfl, ?_⟩
    · rw [blockSize, if_neg granted, allocated]
    · show sb.length.toNat ≤ sb.buf.size
      omega

/-- Where its bytes fit the block, the length is written behind the bytes that were there. -/
theorem length_written (wf : sb.WellFormed) {size : UInt32} (known : Size size)
    (short : sb.length.toNat < 0x80000000) (value : UInt64)
    (fits : sb.length.toNat + size.toNat ≤ blockSize m sb size) :
    ∃ buf : Block UInt8, setIntegerDataByLenLT m sb size value =
        some (0, ⟨buf, sb.length + size, sb.offset, recorded sb size⟩) ∧
      buf.size = blockSize m sb size ∧
      (buf.getD []).take (sb.length.toNat + size.toNat) =
        sb.bytes ++ lowFirstBytes size.toNat value := by
  obtain ⟨ret, grown, grew, length, offset, records, size', kept, inside⟩ :=
    @grown_for_length m sb wf size known short
  obtain ⟨total, oneMore⟩ := toNat_room known short
  have count : (lowFirstBytes size.toNat value).length = size.toNat := by simp [lowFirstBytes]
  -- The check against the capacity is passed, which the block need not have.
  have notFull : ¬ sb.length + size ≥ grown.allocateLen := by
    rw [records]
    exact not_full known short
  obtain ⟨written, done⟩ : ∃ written,
      grown.buf.write sb.length.toNat (lowFirstBytes size.toNat value) = some written :=
    Block.write_eq (by omega)
  obtain ⟨_, sameSize, cells⟩ := Block.write_inv inside done
  refine ⟨written, ?_, by omega, ?_⟩
  · have writes : setIntegerDataByLenLTAt grown size value sb.length =
        some (0, { grown with buf := written }) := by
      simp [setIntegerDataByLenLTAt, notFull, writeAt, Nat.not_le.mpr short, done]
    rw [setIntegerDataByLenLT, setInteger_done grew writes]
    simp [offset, records]
  · have front : (sb.bytes ++ lowFirstBytes size.toNat value).length =
        sb.length.toNat + size.toNat := by
      rw [List.length_append, length_bytes wf, count]
    rw [cells, kept]
    exact List.take_left' front

/-- Where its bytes do not fit the block, they are written behind it. -/
theorem length_not_written (wf : sb.WellFormed) {size : UInt32} (known : Size size)
    (short : sb.length.toNat < 0x80000000) (value : UInt64)
    (outside : ¬ sb.length.toNat + size.toNat ≤ blockSize m sb size) :
    setIntegerDataByLenLT m sb size value = none := by
  obtain ⟨ret, grown, grew, length, offset, records, size', kept, inside⟩ :=
    @grown_for_length m sb wf size known short
  obtain ⟨total, oneMore⟩ := toNat_room known short
  obtain ⟨positive, small⟩ := known.le_eight
  have count : (lowFirstBytes size.toNat value).length = size.toNat := by simp [lowFirstBytes]
  have some' : lowFirstBytes size.toNat value ≠ [] := by
    apply List.ne_nil_of_length_pos
    omega
  -- The check against the capacity is passed all the same.
  have notFull : ¬ sb.length + size ≥ grown.allocateLen := by
    rw [records]
    exact not_full known short
  apply setInteger_none grew
  show setIntegerDataByLenLTAt grown size value sb.length = none
  rw [setIntegerDataByLenLTAt, if_neg notFull]
  exact writeAt_outside some' (by omega)

/-- At the very end of the 32-bit range the length is refused, and nothing is touched. -/
theorem length_refused {size : UInt32} (value : UInt64)
    (last : sb.length.toNat + size.toNat + 1 = 0x100000000) :
    setIntegerDataByLenLT m sb size value = some (-1, sb) := by
  have total : (sb.length + size).toNat = 0xffffffff := by
    rw [UInt32.toNat_add]
    omega
  have room : sb.length + size + 1 = 0 := by
    apply UInt32.toNat_inj.mp
    rw [UInt32.toNat_add, total]
    rfl
  have grew : sb.reallocMem m (sb.length + size + 1) = some (0, sb) := by
    simp [StringBuf.reallocMem, room]
  have full : sb.length + size ≥ sb.allocateLen := by
    have bound := sb.allocateLen.toNat_lt
    rw [ge_iff_le, UInt32.le_iff_toNat_le]
    omega
  rw [setIntegerDataByLenLT, setInteger, grew]
  simp [setIntegerDataByLenLTAt, full]

/-- Elsewhere behind the signed range an error leaves the buffer with another capacity. -/
theorem length_long (wf : sb.WellFormed) {size : UInt32} (known : Size size)
    (long : ¬ sb.length.toNat < 0x80000000)
    (notLast : sb.length.toNat + size.toNat + 1 ≠ 0x100000000) {value : UInt64} {ret : Int}
    {after : StringBuf} (done : setIntegerDataByLenLT m sb size value = some (ret, after)) :
    ret ≠ 0 ∧ after ≠ sb := by
  obtain ⟨positive, small⟩ := known.le_eight
  have lengthLe := wf.length_le
  have bound := sb.allocateLen.toNat_lt
  simp only [setIntegerDataByLenLT, setInteger, Option.bind_eq_bind,
    Option.bind_eq_some_iff] at done
  obtain ⟨⟨ret', grown⟩, grew, ⟨ret'', grown'⟩, writes, answer⟩ := done
  have length := (reallocMem_keeps grew).1
  have records := reallocMem_records grew
  simp only [setIntegerDataByLenLTAt] at writes answer
  split at writes
  · rename_i full
    simp only [Option.some.injEq, Prod.mk.injEq] at writes
    rw [← writes.1, ← writes.2] at answer
    simp only [ne_eq, Int.reduceNeg, Int.reduceEq, not_false_eq_true, if_true,
      Option.some.injEq, Prod.mk.injEq] at answer
    refine ⟨by rw [← answer.1]; decide, ?_⟩
    intro same
    rw [← answer.2] at same
    -- The capacity did not change, so there was no room to ask for, and then none was missing.
    rw [same] at records
    rw [ge_iff_le, UInt32.le_iff_toNat_le, length, same, UInt32.toNat_add] at full
    split at records
    · rename_i enough
      rw [UInt32.le_iff_toNat_le, UInt32.toNat_add, UInt32.toNat_add, UInt32.toNat_one] at enough
      omega
    · rename_i tooSmall
      have rounded := congrArg UInt32.toNat records
      rw [alignment_toNat] at rounded
      rw [UInt32.le_iff_toNat_le] at tooSmall
      rw [UInt32.toNat_add, UInt32.toNat_add, UInt32.toNat_one] at rounded tooSmall
      omega
  · rw [length, writeAt, if_pos (Nat.not_lt.mp long)] at writes
    cases writes

/-! The characters behind the length. -/

/-- An append that is defined puts its bytes behind those that lie below the length. -/
theorem append_cells {data : Bytes} {after : StringBuf} (small : data.length ≤ maxSize)
    (inside : sb.length.toNat ≤ sb.buf.size) (block : sb.buf.size < 0x100000000)
    (done : sb.append m data = some after) :
    after.length.toNat = sb.length.toNat + data.length ∧ after.offset = sb.offset ∧
      after.length.toNat ≤ after.buf.size ∧
      (after.buf.getD []).take after.length.toNat =
        (sb.buf.getD []).take sb.length.toNat ++ data := by
  have count : (UInt32.ofNat data.length).toNat = data.length := by
    rw [UInt32.toNat_ofNat']
    simp only [maxSize] at small
    omega
  have held : ((sb.buf.getD []).take sb.length.toNat).length = sb.length.toNat := by
    simp only [Block.size] at inside
    rw [List.length_take]
    omega
  -- Both branches end with a write at the old length, into a block of less than 2^32 bytes.
  have finish : ∀ (moved written : Block UInt8) (allocateLen : UInt32),
      sb.length.toNat ≤ moved.size → moved.size < 0x100000000 →
      (moved.getD []).take sb.length.toNat = (sb.buf.getD []).take sb.length.toNat →
      moved.write sb.length.toNat data = some written →
      after = ⟨written, sb.length + UInt32.ofNat data.length, sb.offset, allocateLen⟩ →
      after.length.toNat = sb.length.toNat + data.length ∧ after.offset = sb.offset ∧
        after.length.toNat ≤ after.buf.size ∧
        (after.buf.getD []).take after.length.toNat =
          (sb.buf.getD []).take sb.length.toNat ++ data := by
    intro moved written allocateLen there limit kept write same
    obtain ⟨fits, size, cells⟩ := Block.write_inv there write
    have total : (sb.length + UInt32.ofNat data.length).toNat = sb.length.toNat + data.length := by
      rw [UInt32.toNat_add, count]
      omega
    subst same
    refine ⟨total, rfl, ?_, ?_⟩
    · show (sb.length + UInt32.ofNat data.length).toNat ≤ written.size
      omega
    · show (written.getD []).take (sb.length + UInt32.ofNat data.length).toNat = _
      rw [total, cells, kept]
      exact List.take_left' (by rw [List.length_append, held])
  unfold append at done
  simp only at done
  split at done
  · simp only [Option.bind_eq_bind, Option.bind_eq_some_iff, Option.some.injEq] at done
    obtain ⟨old, oldRead, moved, movedWrite, written, lastWrite, same⟩ := done
    have readOld : sb.buf.read 0 sb.length.toNat =
        some ((sb.buf.getD []).take sb.length.toNat) := by
      simpa using @Block.read_eq _ sb.buf 0 sb.length.toNat (by simpa using inside)
    rw [readOld, Option.some.injEq] at oldRead
    obtain ⟨fits, size, cells⟩ := Block.write_inv (Nat.zero_le _) movedWrite
    have limit : moved.size < 0x100000000 := by
      rw [size]
      have bound := (alignment (sb.length + UInt32.ofNat data.length)).toNat_lt
      cases found : m.alloc (alignment (sb.length + UInt32.ofNat data.length)).toNat with
      | none => simp [Block.size]
      | some cells =>
        rw [Allocator.size_alloc found]
        exact bound
    rw [← oldRead, held] at fits
    refine finish moved written _ (by omega) limit ?_ lastWrite same.symm
    rw [cells, ← oldRead, List.take_zero, List.nil_append]
    exact List.take_left' held
  · simp only [Option.bind_eq_bind, Option.bind_eq_some_iff, Option.some.injEq] at done
    obtain ⟨written, lastWrite, same⟩ := done
    exact finish sb.buf written _ inside block rfl lastWrite same.symm

/-- Nothing can be written through a null pointer. -/
theorem write_null {pos : Nat} {data : Bytes} (some' : data ≠ []) :
    Block.write (none : Block UInt8) pos data = none := by
  have positive := List.length_pos_iff.mpr some'
  have outside : ¬ pos + data.length ≤ Block.size (none : Block UInt8) := by
    simp only [Block.size, Option.getD_none, List.length_nil]
    omega
  simp only [Block.write, if_neg some', if_neg outside]

/-- Whether a total length is there to be written to, for a capacity and the size of a block. -/
def Appends (m : Allocator UInt8) (allocateLen : UInt32) (size : Nat) (total : UInt32) : Prop :=
  if allocateLen < total then (m.alloc (alignment total).toNat).isSome else total.toNat ≤ size

/-- An append is defined exactly where the total is granted, or fits the block there is. -/
theorem append_isSome_iff {data : Bytes} (small : sb.length.toNat + data.length ≤ maxSize)
    (inside : sb.length.toNat ≤ sb.buf.size) (spare : sb.length < sb.allocateLen) :
    (∃ after, sb.append m data = some after) ↔
      Appends m sb.allocateLen sb.buf.size (sb.length + UInt32.ofNat data.length) := by
  have total : (sb.length + UInt32.ofNat data.length).toNat = sb.length.toNat + data.length := by
    rw [UInt32.toNat_add, UInt32.toNat_ofNat']
    simp only [maxSize] at small
    omega
  have held : ((sb.buf.getD []).take sb.length.toNat).length = sb.length.toNat := by
    simp only [Block.size] at inside
    rw [List.length_take]
    omega
  have readOld : sb.buf.read 0 sb.length.toNat =
      some ((sb.buf.getD []).take sb.length.toNat) := by
    simpa using @Block.read_eq _ sb.buf 0 sb.length.toNat (by simpa using inside)
  rw [UInt32.lt_iff_toNat_lt] at spare
  unfold append Appends
  simp only
  split
  · rename_i grows
    -- There is something to append, so a null answer is written through.
    have positive : 0 < data.length := by
      rw [UInt32.lt_iff_toNat_lt] at grows
      omega
    have some' : data ≠ [] := List.ne_nil_of_length_pos positive
    simp only [readOld, Option.bind_eq_bind, Option.bind_some]
    cases found : m.alloc (alignment (sb.length + UInt32.ofNat data.length)).toNat with
    | none =>
      simp only [Option.isSome_none, Bool.false_eq_true, iff_false, not_exists]
      intro after
      by_cases empty : (sb.buf.getD []).take sb.length.toNat = []
      · have copied : Block.write (none : Block UInt8) 0 ((sb.buf.getD []).take sb.length.toNat) =
            some none := by simp [Block.write, empty]
        simp [copied, write_null some']
      · simp [write_null empty]
    | some cells =>
      simp only [Option.isSome_some, iff_true]
      have size := Allocator.size_alloc found
      have covers := @le_alignment (sb.length + UInt32.ofNat data.length) (by omega)
      obtain ⟨moved, movedWrite⟩ : ∃ moved,
          Block.write (some cells) 0 ((sb.buf.getD []).take sb.length.toNat) = some moved :=
        Block.write_eq (by rw [held]; omega)
      obtain ⟨_, movedSize, _⟩ := Block.write_inv (Nat.zero_le _) movedWrite
      obtain ⟨written, lastWrite⟩ : ∃ written, moved.write sb.length.toNat data = some written :=
        Block.write_eq (by omega)
      simp only [movedWrite, Option.bind_some, lastWrite]
      exact ⟨_, rfl⟩
  · rw [total]
    by_cases fits : sb.length.toNat + data.length ≤ sb.buf.size
    · obtain ⟨written, lastWrite⟩ : ∃ written, sb.buf.write sb.length.toNat data = some written :=
        Block.write_eq fits
      simp [lastWrite, fits]
    · have some' : data ≠ [] := by
        intro nothing
        rw [nothing] at fits
        exact fits (by simpa using inside)
      simp [Block.write, some', fits]

/-! The readers. -/

/-- Bytes of a buffer that the length and the characters were written to. -/
structure Encoded (sb after : StringBuf) (size : UInt32) (n : Nat) (data : Bytes) : Prop where
  length : after.length.toNat = sb.length.toNat + size.toNat + data.length
  offset : after.offset = sb.offset
  inside : after.length.toNat ≤ after.buf.size
  cells : (after.buf.getD []).take after.length.toNat =
    sb.bytes ++ lowFirstBytes size.toNat (ofLength n) ++ data

theorem narrow_bounds {size : UInt32} (narrow : size = 1 ∨ size = 2) :
    0 < size.toNat ∧ size.toNat ≤ 2 := by
  obtain one | two := narrow
  · simp [one]
  · simp [two]

/-- The length that is read is the one that was written, cut to its size. -/
theorem toNat_orLowFirst_ofLength {size : UInt32} (narrow : size = 1 ∨ size = 2) (n : Nat) :
    (orLowFirst (lowFirstBytes size.toNat (ofLength n))).toNat = n % 256 ^ size.toNat := by
  have half := (narrow_bounds narrow).2
  rw [orLowFirst_lowFirstBytes]
  have word := congrArg BitVec.toNat (toBitVec_orLoop (by omega : size.toNat ≤ 4) (ofLength n))
  have power : 2 ^ (size.toNat * 8) = 256 ^ size.toNat := by
    rw [Nat.mul_comm, Nat.pow_mul]
  -- The sign of a length of one or two bytes is beyond what is read.
  have cut : (SignExtension.lower (size.toNat * 8) (ofLength n).toBitVec).toNat =
      n % 256 ^ size.toNat := by
    simp only [SignExtension.lower, ofLength, BitVec.toNat_setWidth, SignExtension.toNat_widen,
      BitVec.toNat_ofNat, power]
    obtain one | two := narrow
    · subst one
      simp only [UInt32.reduceToNat, Nat.reducePow]
      split <;> omega
    · subst two
      simp only [UInt32.reduceToNat, Nat.reducePow]
      split <;> omega
  have small : n % 256 ^ size.toNat < 2 ^ 31 := by
    have bound : n % 256 ^ size.toNat < 256 ^ size.toNat :=
      Nat.mod_lt _ (Nat.pow_pos (by decide))
    have upper : 256 ^ size.toNat ≤ 256 ^ 2 := Nat.pow_le_pow_right (by decide) half
    omega
  rw [SignExtension.toNat_widen, cut, if_pos small] at word
  exact word

/-- A stretch of the bytes of a buffer. -/
theorem read_stretch {buf : Block UInt8} {front middle back : Bytes} {pos : Nat}
    (start : front.length = pos) (inside : pos + middle.length + back.length ≤ buf.size)
    (cells : (buf.getD []).take (pos + middle.length + back.length) = front ++ middle ++ back) :
    buf.read pos middle.length = some middle := by
  rw [Block.read_eq (by omega)]
  have cut : ((buf.getD []).take (pos + middle.length + back.length)).drop pos =
      middle ++ back := by
    rw [cells, List.append_assoc]
    exact List.drop_left' start
  have shorter : ((buf.getD []).drop pos).take middle.length =
      (((buf.getD []).take (pos + middle.length + back.length)).drop pos).take middle.length := by
    rw [List.drop_take, List.take_take]
    congr 1
    omega
  rw [shorter, cut, List.take_left]

/-- The reader of the length, on a buffer where it has been written. -/
theorem get_length (wf : sb.WellFormed) {size : UInt32} (narrow : size = 1 ∨ size = 2)
    {after : StringBuf} {n : Nat} {data : Bytes} (encoded : Encoded sb after size n data) :
    ∃ tmpvalue, getIntegerDataByLenLT (after.setOffset sb.length) size =
        some (0, after.setOffset (sb.length + size), tmpvalue) ∧
      tmpvalue.toNat = n % 256 ^ size.toNat := by
  have positive := narrow_bounds narrow
  have count : (lowFirstBytes size.toNat (ofLength n)).length = size.toNat := by
    simp [lowFirstBytes]
  have total := encoded.length
  -- The length itself is there to be read.
  have enough : ¬ (after.setOffset sb.length).length -
      (after.setOffset sb.length).offset < size := by
    have ordered : sb.length ≤ after.length := by
      rw [UInt32.le_iff_toNat_le]
      omega
    rw [UInt32.lt_iff_toNat_lt]
    show ¬ (after.length - sb.length).toNat < size.toNat
    rw [UInt32.toNat_sub_of_le _ _ ordered]
    omega
  have read := @read_stretch after.buf sb.bytes (lowFirstBytes size.toNat (ofLength n)) data
    sb.length.toNat (length_bytes wf) (by rw [count, ← total]; exact encoded.inside)
    (by rw [count, ← total]; exact encoded.cells)
  rw [count] at read
  refine ⟨_, ?_, toNat_orLowFirst_ofLength narrow n⟩
  simp only [getIntegerDataByLenLT, getInteger, if_neg enough]
  simp [StringBuf.setOffset, read]

variable {α : Type} {convert : Bytes → List α → Int × List α} {encode : List α → Bytes}
  {valid : List α → Prop}

/-- Characters that are read are as many as the length says, and there is at least one. -/
theorem getUnicode_count (converts : Converts convert encode valid) {tlen : UInt32}
    {read : StringBuf} {desStr : List α}
    (done : getUnicode m convert sb tlen [] = some (0, read, desStr)) :
    2 * desStr.length = tlen.toNat ∧ tlen ≠ 0 := by
  simp only [getUnicode, Option.bind_eq_bind, Option.bind_eq_some_iff] at done
  obtain ⟨⟨ret, tbuf⟩, grew, done⟩ := done
  split at done
  · simp at done
  obtain ⟨⟨ret', sb', buf⟩, taken, done⟩ := Option.bind_eq_some_iff.mp done
  split at done
  · simp at done
  rename_i ok
  obtain ⟨bdata, read', done⟩ := Option.bind_eq_some_iff.mp done
  have length := Block.length_read read'
  simp only at done
  split at done
  · simp at done
  rename_i converted
  simp only [Option.some.injEq, Prod.mk.injEq, true_and] at done
  refine ⟨?_, ?_⟩
  · rw [← length]
    apply converts.count bdata desStr
    rw [← done.2]
    exact Prod.ext (not_ne_iff.mp converted) rfl
  · -- Without a byte to read there is no buffer either, and that is refused.
    intro zero
    subst zero
    simp only [StringBuf.reallocMem, ge_iff_le, UInt32.zero_le, if_true, Option.some.injEq,
      Prod.mk.injEq] at grew
    rw [← grew.2] at taken
    simp only [getDataByLen, UInt32.not_lt_zero, if_false, StringBuf.new, Option.isNone_none,
      if_true, Option.some.injEq, Prod.mk.injEq] at taken
    simp [← taken.1] at ok

/-- Characters that are there are read, and the offset is moved behind them. -/
theorem getUnicode_done (converts : Converts convert encode valid) {desStr : List α}
    (usable : valid desStr) (some' : desStr ≠ []) (fits : Fits m (encode desStr).length)
    {tlen : UInt32} (count : tlen.toNat = (encode desStr).length)
    (enough : ¬ sb.length - sb.offset < tlen)
    (there : sb.buf.read sb.offset.toNat tlen.toNat = some (encode desStr)) :
    getUnicode m convert sb tlen [] = some (0, sb.setOffset (sb.offset + tlen), desStr) := by
  obtain ⟨small, granted⟩ := fits
  have same : UInt32.ofNat (encode desStr).length = tlen := by
    rw [← count, UInt32.ofNat_toNat]
  rw [same] at granted
  have positive : 0 < tlen.toNat := by
    have := List.length_pos_iff.mpr some'
    rw [count, converts.length]
    omega
  have asked : ¬ tlen ≤ StringBuf.new.allocateLen := by
    rw [UInt32.le_iff_toNat_le]
    simp only [StringBuf.new, UInt32.toNat_zero]
    omega
  -- The characters pass through a block of their own, which was granted when they were written.
  obtain ⟨grown, grew, wf', _, _, _, covers⟩ := reallocMem_spec new_wellFormed
    (granted.resolve_left asked) (by rw [count]; exact small)
  have size := wf'.allocate_eq
  obtain ⟨written, write⟩ : ∃ written, grown.buf.write 0 (encode desStr) = some written :=
    Block.write_eq (by omega)
  obtain ⟨_, sameSize, cells⟩ := Block.write_inv (Nat.zero_le _) write
  have block : grown.buf.isNone = false := by
    cases found : grown.buf with
    | none =>
      rw [found] at size
      simp only [Block.size, Option.getD_none, List.length_nil] at size
      omega
    | some cells => rfl
  have readBack : written.read 0 tlen.toNat = some (encode desStr) := by
    rw [Block.read_eq (by omega), cells, count]
    simp
  have taken : getDataByLen sb grown.buf tlen =
      some (0, sb.setOffset (sb.offset + tlen), written) := by
    simp only [getDataByLen, if_neg enough, block, Bool.false_eq_true, if_false, there,
      Option.bind_eq_bind, Option.bind_some, write]
  have back := converts.back desStr usable
  simp [getUnicode, grew, taken, readBack, back]

/-- A buffer whose next field begins where the string ends. -/
def ReadsBack (get : StringBuf → Option (Int × StringBuf × List α)) (sb after : StringBuf)
    (desStr : List α) : Prop :=
  ∃ read, get (after.setOffset sb.length) = some (0, read, desStr) ∧ read.offset = after.length

/-- Where the characters are found, once the length has been read. -/
theorem read_characters (wf : sb.WellFormed) {size : UInt32} (narrow : size = 1 ∨ size = 2)
    {after : StringBuf} {n : Nat} {data : Bytes} (encoded : Encoded sb after size n data)
    {tlen : UInt32} (count : tlen.toNat = data.length) :
    ¬ (after.setOffset (sb.length + size)).length -
        (after.setOffset (sb.length + size)).offset < tlen ∧
      after.length - (sb.length + size) = tlen ∧
      after.buf.read (sb.length + size).toNat tlen.toNat = some data ∧
      (sb.length + size) + tlen = after.length := by
  have positive := narrow_bounds narrow
  have bound := after.length.toNat_lt
  have total := encoded.length
  have start : (sb.length + size).toNat = sb.length.toNat + size.toNat := by
    rw [UInt32.toNat_add]
    omega
  -- Behind the length there are the characters and nothing else.
  have ends : (sb.length + size) + tlen = after.length := by
    apply UInt32.toNat_inj.mp
    rw [UInt32.toNat_add, start, count]
    omega
  have rest : after.length - (sb.length + size) = tlen := by
    rw [← ends, UInt32.add_comm, UInt32.add_sub_cancel]
  have front : (sb.bytes ++ lowFirstBytes size.toNat (ofLength n)).length =
      (sb.length + size).toNat := by
    rw [List.length_append, length_bytes wf, start]
    simp [lowFirstBytes]
  have whole : (sb.length + size).toNat + data.length + ([] : Bytes).length =
      after.length.toNat := by
    rw [start, total]
    simp
  refine ⟨?_, rest, ?_, ends⟩
  · show ¬ after.length - (sb.length + size) < tlen
    rw [rest]
    exact UInt32.lt_irrefl tlen
  · rw [count]
    apply @read_stretch after.buf _ data [] _ front
    · rw [whole]
      exact encoded.inside
    · rw [whole, List.append_nil]
      exact encoded.cells

/-- A length of one byte is doubled in one byte, so it must be below 128. -/
theorem reads_1BLen_iff (wf : sb.WellFormed) {after : StringBuf} {str : Bytes}
    (fits : Fits m (str.flatMap Tool.charBytes).length)
    (encoded : Encoded sb after 1 str.length (str.flatMap Tool.charBytes)) :
    ReadsBack (fun sb => getUnicodeString1BLen m sb []) sb after str ↔ str.length < 128 := by
  obtain ⟨tmpvalue, length, value⟩ := get_length wf (Or.inl rfl) encoded
  have doubled : (tmpvalue.toUInt8 * 2).toNat = 2 * str.length % 256 := by
    rw [UInt8.toNat_mul, UInt64.toNat_toUInt8, value]
    simp only [UInt32.reduceToNat, UInt8.reduceToNat, Nat.pow_one]
    omega
  have zero : tmpvalue.toUInt8 * 2 ≤ 0 ↔ 2 * str.length % 256 = 0 := by
    rw [UInt8.le_iff_toNat_le, doubled]
    simp
  constructor
  · intro reads
    obtain ⟨read, done, _⟩ := reads
    simp only [getUnicodeString1BLen, length, Option.bind_eq_bind, Option.bind_some, ne_eq,
      not_true_eq_false, if_false] at done
    split at done
    · -- Nothing is read, so there was nothing to read.
      simp only [Option.some.injEq, Prod.mk.injEq, true_and] at done
      simp [← done.2]
    · split at done
      · simp at done
      · have count := (getUnicode_count converts_byte2string done).1
        rw [UInt8.toNat_toUInt32, doubled] at count
        omega
  · intro short
    have exact' : 2 * str.length % 256 = 2 * str.length := Nat.mod_eq_of_lt (by omega)
    by_cases empty : str = []
    · subst empty
      have nothing : tmpvalue.toUInt8 * 2 ≤ 0 := zero.mpr rfl
      refine ⟨after.setOffset (sb.length + 1), ?_, ?_⟩
      · simp only [getUnicodeString1BLen, length, Option.bind_eq_bind, Option.bind_some, ne_eq,
          not_true_eq_false, if_false, if_pos nothing]
      · apply UInt32.toNat_inj.mp
        have total := encoded.length
        have bound := after.length.toNat_lt
        show (sb.length + 1).toNat = after.length.toNat
        rw [UInt32.toNat_add]
        simp only [List.flatMap_nil, List.length_nil, UInt32.toNat_one] at total ⊢
        omega
    · have some' := List.length_pos_iff.mpr empty
      have nonzero : ¬ tmpvalue.toUInt8 * 2 ≤ 0 := by
        rw [zero]
        omega
      have count : (tmpvalue.toUInt8 * 2).toUInt32.toNat =
          (str.flatMap Tool.charBytes).length := by
        rw [UInt8.toNat_toUInt32, doubled, exact', length_charBytes]
      obtain ⟨enough, rest, there, ends⟩ := read_characters wf (Or.inl rfl) encoded count
      have inside : ¬ (tmpvalue.toUInt8 * 2).toUInt32 >
          (after.setOffset (sb.length + 1)).remailLength := by
        have ordered : sb.length + 1 ≤ after.length := by
          rw [← ends, UInt32.le_iff_toNat_le, ends]
          have total := encoded.length
          have bound := after.length.toNat_lt
          rw [UInt32.toNat_add]
          simp only [UInt32.toNat_one] at total ⊢
          omega
        have remains : (after.setOffset (sb.length + 1)).remailLength =
            after.length - (sb.length + 1) := if_pos ordered
        rw [remains, rest]
        exact UInt32.lt_irrefl _
      have done := getUnicode_done converts_byte2string trivial empty fits count enough there
      refine ⟨(after.setOffset (sb.length + 1)).setOffset _, ?_, ends⟩
      simp only [getUnicodeString1BLen, length, Option.bind_eq_bind, Option.bind_some, ne_eq,
        not_true_eq_false, if_false, if_neg nonzero, if_neg inside]
      exact done

/-- A length of two bytes is doubled in two bytes, and an empty string is refused. -/
theorem reads_2BLen_iff (converts : Converts convert encode valid) (wf : sb.WellFormed)
    {after : StringBuf} {desStr : List α} (usable : valid desStr)
    (fits : Fits m (encode desStr).length)
    (encoded : Encoded sb after 2 desStr.length (encode desStr)) :
    ReadsBack (fun sb => getUnicode2BLen m convert sb []) sb after desStr ↔
      desStr ≠ [] ∧ desStr.length < 32768 := by
  obtain ⟨tmpvalue, length, value⟩ := get_length wf (Or.inr rfl) encoded
  -- The number of characters is doubled in 16 bits.
  have doubled : (tmpvalue.toUInt16 * 2).toNat = 2 * desStr.length % 65536 := by
    rw [UInt16.toNat_mul, UInt64.toNat_toUInt16, value]
    simp only [UInt32.reduceToNat, UInt16.reduceToNat, Nat.reducePow]
    omega
  constructor
  · intro reads
    obtain ⟨read, done, _⟩ := reads
    simp only [getUnicode2BLen, length, Option.bind_eq_bind, Option.bind_some, ne_eq,
      not_true_eq_false, if_false] at done
    split at done
    · simp at done
    · obtain ⟨count, nonzero⟩ := getUnicode_count converts done
      have positive : (tmpvalue.toUInt16 * 2).toUInt32.toNat ≠ 0 := by
        intro none
        exact nonzero (UInt32.toNat_inj.mp none)
      rw [UInt16.toNat_toUInt32, doubled] at count positive
      refine ⟨?_, by omega⟩
      intro empty
      rw [empty] at positive
      simp at positive
  · intro either
    obtain ⟨some', short⟩ := either
    have exact' : 2 * desStr.length % 65536 = 2 * desStr.length := Nat.mod_eq_of_lt (by omega)
    have count : (tmpvalue.toUInt16 * 2).toUInt32.toNat = (encode desStr).length := by
      rw [UInt16.toNat_toUInt32, doubled, exact', converts.length]
    obtain ⟨enough, rest, there, ends⟩ := read_characters wf (Or.inr rfl) encoded count
    have inside : ¬ (tmpvalue.toUInt16 * 2).toUInt32 >
        (after.setOffset (sb.length + 2)).length - (after.setOffset (sb.length + 2)).offset := by
      show ¬ (tmpvalue.toUInt16 * 2).toUInt32 > after.length - (sb.length + 2)
      rw [rest]
      exact UInt32.lt_irrefl _
    have done := getUnicode_done converts usable some' fits count enough there
    refine ⟨(after.setOffset (sb.length + 2)).setOffset _, ?_, ends⟩
    simp only [getUnicode2BLen, length, Option.bind_eq_bind, Option.bind_some, ne_eq,
      not_true_eq_false, if_false, if_neg inside]
    exact done

/-! The writers. -/

/-- The room that a string of so many bytes needs behind its length. -/
structure Room (m : Allocator UInt8) (sb : StringBuf) (size : UInt32) (count : Nat) : Prop where
  short : sb.length.toNat < 0x80000000
  length : sb.length.toNat + size.toNat ≤ blockSize m sb size
  characters : Appends m (recorded sb size) (blockSize m sb size)
    (sb.length + size + UInt32.ofNat count)

/--
A string is written faithfully.

The writer fails and leaves the buffer as it was, or it appends what the reader turns back into the
string.
-/
def Faithful (set : Option (Int × StringBuf)) (get : StringBuf → Option (Int × StringBuf × List α))
    (sb : StringBuf) (desStr : List α) : Prop :=
  ∃ ret after, set = some (ret, after) ∧
    (ret ≠ 0 ∧ after = sb ∨
      ret = 0 ∧ sb.bytes <+: after.bytes ∧ after.offset = sb.offset ∧ ReadsBack get sb after desStr)

/-- What is written once the length has been written. -/
theorem encoded_of_append {size : UInt32} (known : Size size)
    (short : sb.length.toNat < 0x80000000) {n : Nat} {data : Bytes} (small : data.length ≤ maxSize)
    {buf : Block UInt8} {after : StringBuf} {allocateLen : UInt32} (limit : buf.size < 0x100000000)
    (inside : sb.length.toNat + size.toNat ≤ buf.size)
    (cells : (buf.getD []).take (sb.length.toNat + size.toNat) =
      sb.bytes ++ lowFirstBytes size.toNat (ofLength n))
    (done : append m ⟨buf, sb.length + size, sb.offset, allocateLen⟩ data = some after) :
    Encoded sb after size n data ∧ sb.bytes <+: after.bytes := by
  obtain ⟨total, _⟩ := toNat_room known short
  obtain ⟨length, offset, fits, all⟩ := append_cells small
    (by show (sb.length + size).toNat ≤ buf.size; omega) limit done
  have front : (buf.getD []).take (sb.length + size).toNat =
      sb.bytes ++ lowFirstBytes size.toNat (ofLength n) := by rw [total, cells]
  -- The block holds what was there, the length, and the characters.
  have whole : (after.buf.getD []).take after.length.toNat =
      sb.bytes ++ lowFirstBytes size.toNat (ofLength n) ++ data := by rw [all, front]
  refine ⟨⟨?_, offset, fits, whole⟩, ?_⟩
  · rw [length]
    show (sb.length + size).toNat + data.length = _
    rw [total]
  · rw [StringBuf.bytes, StringBuf.bytes, whole, List.append_assoc]
    exact List.prefix_append _ _

section

variable {size : UInt32} {get : StringBuf → Option (Int × StringBuf × List α)} {desStr : List α}
  {data : Bytes} {ok : Prop}

/-- The exact condition where there is room for the length: the characters have to be appended. -/
theorem faithful_written_iff (wf : sb.WellFormed) (known : Size size)
    (length : data.length = 2 * desStr.length)
    (reads : ∀ after, Encoded sb after size desStr.length data →
      (ReadsBack get sb after desStr ↔ ok))
    (bounded : ok → desStr.length < 32768) (fits : Fits m data.length)
    (short : sb.length.toNat < 0x80000000)
    (written : sb.length.toNat + size.toNat ≤ blockSize m sb size) :
    Faithful (setUnicode m sb size desStr.length (Tool.putBytes m data .new)) get sb desStr ↔
      ok ∧ Room m sb size data.length := by
  obtain ⟨positive, eight⟩ := known.le_eight
  obtain ⟨tbuf, put, there⟩ := putBytes_fits fits
  obtain ⟨total, _⟩ := toNat_room known short
  obtain ⟨buf, done, size', cells⟩ := length_written wf known short (ofLength desStr.length) written
  have limit : buf.size < 0x100000000 := by
    rw [size', blockSize]
    split
    · exact (recorded sb size).toNat_lt
    · exact sb.allocateLen.toNat_lt
  have result : setUnicode m sb size desStr.length (Tool.putBytes m data .new) =
      (append m ⟨buf, sb.length + size, sb.offset, recorded sb size⟩ data).map
        fun after => (0, after) := by
    simp [setUnicode, put, done, there, Option.map_eq_bind]
  -- A string of that length does not come near the end of the range.
  have defined : desStr.length < 32768 →
      ((∃ after, append m ⟨buf, sb.length + size, sb.offset, recorded sb size⟩ data =
        some after) ↔ Appends m (recorded sb size) buf.size
          (sb.length + size + UInt32.ofNat data.length)) := by
    intro few
    apply append_isSome_iff
    · show (sb.length + size).toNat + data.length ≤ maxSize
      simp only [maxSize]
      omega
    · show (sb.length + size).toNat ≤ buf.size
      omega
    · show sb.length + size < recorded sb size
      rw [UInt32.lt_iff_toNat_lt, total]
      exact lt_recorded known short
  rw [result]
  constructor
  · intro faithful
    obtain ⟨ret, after, same, outcome⟩ := faithful
    obtain ⟨after', appended, same⟩ := Option.map_eq_some_iff.mp same
    simp only [Prod.mk.injEq] at same
    obtain ⟨zero, same⟩ := same
    subst same
    obtain ⟨encoded, _⟩ := encoded_of_append known short fits.1 limit (by omega) cells appended
    obtain ⟨failed, _⟩ | ⟨_, _, _, back⟩ := outcome
    · exact absurd zero.symm failed
    · have inRange := (reads after' encoded).mp back
      have few := bounded inRange
      have appends := (defined few).mp ⟨after', appended⟩
      refine ⟨inRange, short, written, ?_⟩
      rw [← size']
      exact appends
  · intro conditions
    obtain ⟨inRange, room⟩ := conditions
    have few := bounded inRange
    have appends := room.characters
    rw [← size'] at appends
    obtain ⟨after, appended⟩ := (defined few).mpr appends
    obtain ⟨encoded, kept⟩ := encoded_of_append known short fits.1 limit (by omega) cells appended
    refine ⟨0, after, by rw [appended]; rfl, Or.inr ⟨rfl, kept, encoded.offset, ?_⟩⟩
    exact (reads after encoded).mpr inRange

/--
A buffer that is too long for the length, but not at the end of the range, is changed by an error.
-/
theorem not_faithful_long (wf : sb.WellFormed) (known : Size size) (fits : Fits m data.length)
    (long : ¬ sb.length.toNat < 0x80000000)
    (last : ¬ sb.length.toNat + size.toNat + 1 = 0x100000000) :
    ¬ Faithful (setUnicode m sb size desStr.length (Tool.putBytes m data .new)) get sb desStr := by
  -- The error is handed on, while the buffer is not what it was.
  obtain ⟨tbuf, put, there⟩ := putBytes_fits fits
  intro faithful
  obtain ⟨ret, after, same, outcome⟩ := faithful
  simp only [setUnicode, put, Option.bind_eq_bind, Option.bind_some,
    Option.bind_eq_some_iff] at same
  obtain ⟨⟨ret', sb'⟩, wrote, same⟩ := same
  obtain ⟨failed, changed⟩ := length_long wf known long last wrote
  simp only [failed, ne_eq, not_false_eq_true, if_true, Option.some.injEq,
    Prod.mk.injEq] at same
  obtain ⟨code, same⟩ := same
  subst same
  obtain ⟨_, unchanged⟩ | ⟨zero, _⟩ := outcome
  · exact changed unchanged
  · rw [← code] at zero
    exact absurd zero (by decide)

end

/-- The exact condition of a faithful writer, for lengths that the reader can deal with. -/
theorem faithful_iff (wf : sb.WellFormed) {size : UInt32} (narrow : size = 1 ∨ size = 2)
    {get : StringBuf → Option (Int × StringBuf × List α)} {desStr : List α} {data : Bytes}
    {ok : Prop} (length : data.length = 2 * desStr.length)
    (reads : Fits m data.length → ∀ after, Encoded sb after size desStr.length data →
      (ReadsBack get sb after desStr ↔ ok))
    (bounded : ok → desStr.length < 32768) :
    Faithful (setUnicode m sb size desStr.length (Tool.putBytes m data .new)) get sb desStr ↔
      Fits m data.length ∧
        (sb.length.toNat + size.toNat + 1 = 0x100000000 ∨ ok ∧ Room m sb size data.length) := by
  have known : Size size := narrow.elim Or.inl fun two => Or.inr (Or.inl two)
  obtain ⟨positive, eight⟩ := known.le_eight
  by_cases fits : Fits m data.length
  · obtain ⟨tbuf, put, there⟩ := putBytes_fits fits
    simp only [fits, true_and]
    by_cases short : sb.length.toNat < 0x80000000
    · have notLast : sb.length.toNat + size.toNat + 1 ≠ 0x100000000 := by omega
      simp only [notLast, false_or]
      by_cases written : sb.length.toNat + size.toNat ≤ blockSize m sb size
      · exact faithful_written_iff wf known length (reads fits) bounded fits short written
      · -- The length is written behind the block.
        have nothing := length_not_written wf known short (ofLength desStr.length) written
        refine iff_of_false ?_ fun conditions => written conditions.2.length
        intro faithful
        obtain ⟨ret, after, same, _⟩ := faithful
        simp [setUnicode, put, nothing] at same
    · by_cases last : sb.length.toNat + size.toNat + 1 = 0x100000000
      · have refused := @length_refused m sb size (ofLength desStr.length) last
        refine iff_of_true ⟨-1, sb, ?_, Or.inl ⟨by decide, rfl⟩⟩ (Or.inl last)
        simp [setUnicode, put, refused]
      · -- An error has changed the capacity by then.
        refine iff_of_false (not_faithful_long wf known fits short last) ?_
        intro conditions
        exact conditions.elim last fun conditions => short conditions.2.short
  · -- The characters cannot even be put into a buffer of their own.
    have nothing := putBytes_none fits
    refine iff_of_false ?_ fun conditions => fits conditions.1
    intro faithful
    obtain ⟨ret, after, same, _⟩ := faithful
    simp [setUnicode, nothing] at same

/-- Strings with a length of one byte. -/
theorem faithful_1BLen_iff (wf : sb.WellFormed) (str : Bytes) :
    Faithful (setStringUnicode1BLen m sb str) (fun sb => getUnicodeString1BLen m sb []) sb str ↔
      Fits m (2 * str.length) ∧
        (sb.length.toNat + 2 = 0x100000000 ∨
          str.length < 128 ∧ Room m sb 1 (2 * str.length)) := by
  have iff := @faithful_iff m sb UInt8 wf 1 (Or.inl rfl)
    (fun sb => getUnicodeString1BLen m sb []) str _ (str.length < 128) (length_charBytes str)
    (fun fits after encoded => reads_1BLen_iff wf fits encoded) (fun short => by omega)
  rw [length_charBytes] at iff
  exact iff

/-- Strings with a length of two bytes. -/
theorem faithful_2BLen_iff (wf : sb.WellFormed) (str : Bytes) :
    Faithful (setStringUnicode2BLen m sb str) (fun sb => getUnicodeString2BLen m sb []) sb str ↔
      Fits m (2 * str.length) ∧
        (sb.length.toNat + 3 = 0x100000000 ∨
          (str ≠ [] ∧ str.length < 32768) ∧ Room m sb 2 (2 * str.length)) := by
  have iff := @faithful_iff m sb UInt8 wf 2 (Or.inr rfl)
    (fun sb => getUnicodeString2BLen m sb []) str _ (str ≠ [] ∧ str.length < 32768)
    (length_charBytes str)
    (fun fits after encoded => reads_2BLen_iff converts_byte2string wf trivial fits encoded)
    (fun both => both.2)
  rw [length_charBytes] at iff
  exact iff

/-- Wide strings with a length of two bytes. -/
theorem faithful_wide_iff (wf : sb.WellFormed) {wstr : List UInt32}
    (narrow : ∀ ch ∈ wstr, ch.toNat < 0x10000) :
    Faithful (setWstringUnicode2BLen m sb wstr) (fun sb => getUnicodeWString2BLen m sb []) sb wstr ↔
      Fits m (2 * wstr.length) ∧
        (sb.length.toNat + 3 = 0x100000000 ∨
          (wstr ≠ [] ∧ wstr.length < 32768) ∧ Room m sb 2 (2 * wstr.length)) := by
  -- The converter takes two bytes of each character, which loses nothing of a narrow one.
  have iff := @faithful_iff m sb UInt32 wf 2 (Or.inr rfl)
    (fun sb => getUnicodeWString2BLen m sb []) wstr _ (wstr ≠ [] ∧ wstr.length < 32768)
    (length_wcharBytes wstr)
    (fun fits after encoded => reads_2BLen_iff converts_byte2wstring wf narrow fits encoded)
    (fun both => both.2)
  rw [length_wcharBytes] at iff
  exact iff

/--
Strings come back as they were written exactly where their bytes fit a buffer of their own, and the
length is one the reader can double: below 128 for one byte, from 1 to 32767 for two.

The room for them must be there, or the buffer must end right at the 32-bit range.
-/
theorem strings_faithful_iff (wf : sb.WellFormed) :
    (∀ str : Bytes,
      Faithful (setStringUnicode1BLen m sb str) (fun sb => getUnicodeString1BLen m sb []) sb str ↔
        Fits m (2 * str.length) ∧
          (sb.length.toNat + 2 = 0x100000000 ∨
            str.length < 128 ∧ Room m sb 1 (2 * str.length))) ∧
    (∀ str : Bytes,
      Faithful (setStringUnicode2BLen m sb str) (fun sb => getUnicodeString2BLen m sb []) sb str ↔
        Fits m (2 * str.length) ∧
          (sb.length.toNat + 3 = 0x100000000 ∨
            (str ≠ [] ∧ str.length < 32768) ∧ Room m sb 2 (2 * str.length))) ∧
    (∀ wstr : List UInt32, (∀ ch ∈ wstr, ch.toNat < 0x10000) →
      (Faithful (setWstringUnicode2BLen m sb wstr) (fun sb => getUnicodeWString2BLen m sb []) sb
          wstr ↔
        Fits m (2 * wstr.length) ∧
          (sb.length.toNat + 3 = 0x100000000 ∨
            (wstr ≠ [] ∧ wstr.length < 32768) ∧ Room m sb 2 (2 * wstr.length)))) :=
  ⟨faithful_1BLen_iff wf, faithful_2BLen_iff wf, fun _ narrow => faithful_wide_iff wf narrow⟩

/-- The conditions of short strings in an empty buffer. -/
theorem strings_faithful_new :
    (Faithful (setStringUnicode1BLen (.filled 0) .new [97])
        (fun sb => getUnicodeString1BLen (.filled 0) sb []) .new [97] ↔
      Fits (.filled 0) 2 ∧
        (StringBuf.new.length.toNat + 2 = 0x100000000 ∨ 1 < 128 ∧ Room (.filled 0) .new 1 2)) ∧
    (Faithful (setWstringUnicode2BLen (.filled 0) .new [0x4e2d])
        (fun sb => getUnicodeWString2BLen (.filled 0) sb []) .new [0x4e2d] ↔
      Fits (.filled 0) 2 ∧
        (StringBuf.new.length.toNat + 3 = 0x100000000 ∨
          (([0x4e2d] : List UInt32) ≠ [] ∧ 1 < 32768) ∧ Room (.filled 0) .new 2 2)) :=
  ⟨(strings_faithful_iff new_wellFormed).1 [97],
    (strings_faithful_iff new_wellFormed).2.2 [0x4e2d] (by simp)⟩

/-- The length of 128 characters is doubled to zero, and none of them is read. -/
theorem long_string_not_faithful :
    ¬ Faithful (setStringUnicode1BLen (.filled 0) .new (List.replicate 128 97))
      (fun sb => getUnicodeString1BLen (.filled 0) sb []) .new (List.replicate 128 97) := by
  intro faithful
  obtain ⟨_, last | ⟨short, _⟩⟩ := (faithful_1BLen_iff new_wellFormed _).mp faithful
  · exact absurd last (by decide)
  · simp at short

end OneProxy.ProtocolPacket
