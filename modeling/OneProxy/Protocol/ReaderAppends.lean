import OneProxy.Protocol.PacketReaders
import OneProxy.Protocol.StringCodec
import OneProxy.Util.BufferBounds

/-! Where the readers of strings and bytes append to what their destination holds. -/

namespace OneProxy.ProtocolPacket

open Memory StringBuf

/-- The bytes that a reader has moved the offset of a packet past. -/
def consumed (sb read : StringBuf) : Bytes :=
  sb.remaining.take (read.offset.toNat - sb.offset.toNat)

/-- `get_string` appends the string it has read, or nothing. -/
def StringAppended (sb : StringBuf) (desStr : Bytes) (got : Option (Int × StringBuf × Bytes)) :
    Prop :=
  ∃ ret read des, got = some (ret, read, des) ∧
    (ret = 0 → ∃ str, consumed sb read = str ++ [0] ∧ des = desStr ++ str) ∧
    (ret ≠ 0 → des = desStr)

/-- `get_stringBuf1BLen` appends as many bytes as the first one says, or nothing. -/
def CountedAppended (sb desStr : StringBuf) (got : Option (Int × StringBuf × StringBuf)) : Prop :=
  ∃ ret read des, got = some (ret, read, des) ∧
    (ret = 0 → ∃ count str, consumed sb read = count :: str ∧ str.length = count.toNat ∧
      des.bytes = desStr.bytes ++ str) ∧
    (ret ≠ 0 → des.bytes = desStr.bytes)

/-- `get_byteDataByPosLen` appends a stretch of the packet, or nothing. -/
def StretchAppended (sb desStr : StringBuf) (pos len : UInt32) (got : Option (Int × StringBuf)) :
    Prop :=
  ∃ ret des, got = some (ret, des) ∧
    (ret = 0 → pos.toNat + len.toNat ≤ sb.length.toNat ∧
      des.bytes = desStr.bytes ++ (sb.bytes.drop pos.toNat).take len.toNat) ∧
    (ret ≠ 0 → des.bytes = desStr.bytes)

variable {m : Allocator UInt8} {sb des : StringBuf}

/-! ## A stretch of the packet -/

/-- A block after growing: the old one, or a new one that holds the old bytes. -/
theorem reallocMem_size {room : UInt32} {ret : Int} {grown : StringBuf}
    (done : des.reallocMem m room = some (ret, grown)) :
    grown.buf.size = des.buf.size ∨
      (m.alloc (alignment room).toNat).isSome ∧ grown.buf.size = (alignment room).toNat := by
  -- Only a buffer that has to grow, and is given memory, gets another block.
  unfold StringBuf.reallocMem at done
  split at done
  · obtain ⟨_, rfl⟩ := Prod.mk.inj (Option.some.inj done)
    exact Or.inl rfl
  · simp only at done
    split at done
    · obtain ⟨_, rfl⟩ := Prod.mk.inj (Option.some.inj done)
      exact Or.inl rfl
    · rename_i cells answer
      split at done
      · obtain ⟨_, rfl⟩ := Prod.mk.inj (Option.some.inj done)
        exact Or.inl rfl
      · simp only [Option.bind_eq_bind, Option.bind_eq_some_iff, Option.some.injEq,
          Prod.mk.injEq] at done
        obtain ⟨_, _, moved, movedDone, _, rfl⟩ := done
        refine Or.inr ⟨by rw [answer]; rfl, ?_⟩
        rw [Block.size_write movedDone, Allocator.size_alloc answer]

/-- Bytes written behind those that a buffer holds are held behind them. -/
theorem take_written {buf written : Block UInt8} {pos : Nat} {data : Bytes}
    (inside : pos ≤ buf.size) (done : buf.write pos data = some written) :
    (written.getD []).take (pos + data.length) = (buf.getD []).take pos ++ data := by
  obtain ⟨_, _, cells⟩ := Block.write_inv inside done
  rw [cells]
  refine List.take_left' ?_
  rw [Block.size] at inside
  rw [List.length_append, List.length_take, Nat.min_eq_left inside]

/-- There is room for more bytes in the buffer, or it can be had. -/
def RoomFor (m : Allocator UInt8) (des : StringBuf) (count : Nat) : Prop :=
  des.length.toNat + count ≤ des.allocateLen.toNat ∨
    des.length.toNat + count ≤ maxSize ∧
      (m.alloc (alignment (des.length + UInt32.ofNat count)).toNat).isSome

/-- Bytes are put behind those that a buffer holds exactly if there is room for them. -/
theorem putBytes_iff (wf : des.WellFormed) {data : Bytes} (small : data.length < 0x100000000) :
    (∃ after, Tool.putBytes m data des = some after ∧ after.bytes = des.bytes ++ data) ↔
      RoomFor m des data.length := by
  have lengthLe := wf.length_le
  have allocated := wf.allocate_eq
  have count : (UInt32.ofNat data.length).toNat = data.length := by
    rw [UInt32.toNat_ofNat', Nat.mod_eq_of_lt small]
  have total : (des.length + UInt32.ofNat data.length).toNat =
      (des.length.toNat + data.length) % 0x100000000 := by
    rw [UInt32.toNat_add, count]
  constructor
  · rintro ⟨after, done, _⟩
    simp only [Tool.putBytes, Option.bind_eq_bind, Option.bind_eq_some_iff] at done
    obtain ⟨⟨ret, grown⟩, grew, written, put, _⟩ := done
    obtain ⟨length, _⟩ := reallocMem_keeps grew
    dsimp only at put
    rw [length] at put
    rcases Block.write_isSome_iff.mp (Option.isSome_of_eq_some put) with rfl | fits
    · exact Or.inl lengthLe
    · rcases reallocMem_size grew with old | ⟨answers, new⟩
      · exact Or.inl (by omega)
      · -- The bytes lie in the new block, whose size has not wrapped around.
        by_cases some_ : 0 < des.length.toNat + data.length
        · exact Or.inr ⟨(le_alignment_iff some_ total).mp (by omega), answers⟩
        · exact Or.inl (by omega)
  · intro room
    -- Either way there is a buffer with the same bytes and enough room.
    obtain ⟨ret, grown, grew, wf', bytes, length, fits⟩ : ∃ ret grown,
        des.reallocMem m (des.length + UInt32.ofNat data.length) = some (ret, grown) ∧
          grown.WellFormed ∧ grown.bytes = des.bytes ∧ grown.length = des.length ∧
            des.length.toNat + data.length ≤ grown.allocateLen.toNat := by
      by_cases enough : des.length.toNat + data.length ≤ des.allocateLen.toNat
      · have bound := des.allocateLen.toNat_lt
        refine ⟨0, des, ?_, wf, rfl, rfl, enough⟩
        rw [StringBuf.reallocMem, if_pos]
        rw [ge_iff_le, UInt32.le_iff_toNat_le, total]
        omega
      · obtain ⟨within, answers⟩ := room.resolve_left enough
        have whole : (des.length + UInt32.ofNat data.length).toNat =
            des.length.toNat + data.length := by
          rw [total]
          rw [maxSize] at within
          omega
        obtain ⟨grown, grew, wf', bytes, length, _, covers⟩ :=
          reallocMem_spec wf answers (by omega)
        exact ⟨0, grown, grew, wf', bytes, length, by omega⟩
    have allocated' := wf'.allocate_eq
    obtain ⟨written, put, _, _⟩ :=
      @Block.write_spec _ grown.buf des.length.toNat data (by omega)
    refine ⟨{ grown with
      buf := written, length := grown.length + UInt32.ofNat data.length }, ?_, ?_⟩
    · simp only [Tool.putBytes, grew, Option.bind_eq_bind, Option.bind_some, length, put]
    · have bound := grown.allocateLen.toNat_lt
      have held := take_written (by omega) put
      rw [StringBuf.bytes, StringBuf.bytes] at *
      show (written.getD []).take (grown.length + UInt32.ofNat data.length).toNat = _
      rw [length, total, Nat.mod_eq_of_lt (by omega), held, ← bytes, length]

/-- A stretch that lies in the packet has room, or the check refuses the stretch. -/
def StretchFits (m : Allocator UInt8) (sb des : StringBuf) (pos len : UInt32) : Prop :=
  sb.length < pos + len ∨
    pos.toNat + len.toNat < 0x100000000 ∧ RoomFor m des len.toNat

/-- A stretch that lies in the packet is put behind what the destination holds. -/
theorem getByteDataByPosLen_eq (wf : sb.WellFormed) {pos len : UInt32}
    (passes : ¬ sb.length < pos + len) (inside : pos.toNat + len.toNat ≤ sb.length.toNat) :
    getByteDataByPosLen m sb des pos len =
      (Tool.putBytes m ((sb.bytes.drop pos.toNat).take len.toNat) des).map
        fun after => (0, after) := by
  have read := wf.backed.read_stretch inside
  have back : UInt32.ofNat ((sb.bytes.drop pos.toNat).take len.toNat).length = len := by
    rw [List.length_take, List.length_drop, length_bytes wf, Nat.min_eq_left (by omega),
      UInt32.ofNat_toNat]
  rw [getByteDataByPosLen, if_neg passes, Tool.putBytes, back]
  cases des.reallocMem m (des.length + len) with
  | none => rfl
  | some result =>
    simp only [Option.bind_eq_bind, Option.bind_some, read, Option.map_bind]
    rfl

/-- A stretch is appended exactly if its end does not wrap around and there is room for it. -/
theorem stretchAppended_iff (wf : sb.WellFormed) (wfDes : des.WellFormed) (pos len : UInt32) :
    StretchAppended sb des pos len (getByteDataByPosLen m sb des pos len) ↔
      StretchFits m sb des pos len := by
  have lengthLe := wf.length_le
  have allocated := wf.allocate_eq
  by_cases short : sb.length < pos + len
  · rw [getByteDataByPosLen, if_pos short]
    exact iff_of_true ⟨-1, des, rfl, fun done => by omega, fun _ => rfl⟩ (Or.inl short)
  · have passes := UInt32.le_iff_toNat_le.mp (UInt32.not_lt.mp short)
    rw [UInt32.toNat_add] at passes
    rw [StretchFits, or_iff_right short]
    by_cases wraps : pos.toNat + len.toNat < 0x100000000
    · have inside : pos.toNat + len.toNat ≤ sb.length.toNat := by omega
      have count : ((sb.bytes.drop pos.toNat).take len.toNat).length = len.toNat := by
        rw [List.length_take, List.length_drop, length_bytes wf]
        omega
      have put := @putBytes_iff m des wfDes ((sb.bytes.drop pos.toNat).take len.toNat)
        (by rw [count]; exact len.toNat_lt)
      rw [count] at put
      rw [and_iff_right wraps, ← put, getByteDataByPosLen_eq wf short inside]
      constructor
      · rintro ⟨ret, after, got, done, _⟩
        obtain ⟨after', put, same⟩ := Option.map_eq_some_iff.mp got
        obtain ⟨rfl, rfl⟩ := Prod.mk.inj same
        exact ⟨after', put, (done rfl).2⟩
      · rintro ⟨after, put, bytes⟩
        exact ⟨0, after, by rw [put]; rfl, fun _ => ⟨inside, bytes⟩, fun wrong => absurd rfl wrong⟩
    · -- The end has wrapped around: the stretch is not in the packet.
      refine iff_of_false ?_ fun both => wraps both.1
      rintro ⟨ret, after, got, _⟩
      rw [getByteDataByPosLen, if_neg short] at got
      simp only [Option.bind_eq_bind, Option.bind_eq_some_iff] at got
      obtain ⟨_, _, data, read, _⟩ := got
      have bound := pos.toNat_lt
      have size := sb.allocateLen.toNat_lt
      have some_ : len.toNat ≠ 0 := by omega
      rw [Block.read, if_neg some_, if_neg (by omega)] at read
      simp at read

/-! ## A string behind its length -/

/-- The distance between the offset and the length is the number of the remaining bytes. -/
theorem toNat_sub_offset (wf : sb.WellFormed) :
    (sb.length - sb.offset).toNat = sb.remaining.length := by
  rw [UInt32.toNat_sub_of_le _ _ (UInt32.le_iff_toNat_le.mpr wf.offset_le), remaining,
    List.length_drop, length_bytes wf]

/-- A single byte stands for itself. -/
theorem orLowFirst_single (c : UInt8) : (orLowFirst [c]).toUInt8 = c := by
  have small := c.toNat_lt
  apply UInt8.toNat_inj.mp
  -- A filled upper half does not reach the lowest byte.
  simp only [orLowFirst, shifted, List.length_singleton, List.range_one, List.foldl_cons,
    List.foldl_nil]
  simp [BitVec.toNat_signExtend, BitVec.toNat_setWidth]
  split
  · omega
  · omega

/-- Without a byte there is no length. -/
theorem getInteger_empty (wf : sb.WellFormed) (empty : sb.remaining = []) :
    getIntegerDataByLenLT sb 1 = some (-1, sb, 0) := by
  have none_ := toNat_sub_offset wf
  rw [empty, List.length_nil] at none_
  rw [getIntegerDataByLenLT, getInteger, if_pos]
  rw [UInt32.lt_iff_toNat_lt, none_]
  decide

/-- The length is the first of the remaining bytes. -/
theorem getInteger_cons (wf : sb.WellFormed) {c : UInt8} {rest : Bytes}
    (remains : sb.remaining = c :: rest) :
    getIntegerDataByLenLT sb 1 = some (0, sb.setOffset (sb.offset + 1), orLowFirst [c]) := by
  have some_ := toNat_sub_offset wf
  rw [remains, List.length_cons] at some_
  have enough : ¬ sb.length - sb.offset < 1 := by
    rw [UInt32.lt_iff_toNat_lt, some_]
    simp
  have read := read_remaining wf (show 1 ≤ sb.remaining.length by rw [remains]; simp)
  rw [remains] at read
  rw [getIntegerDataByLenLT, getInteger, if_neg enough]
  simp only [UInt32.toNat_one, read, Option.bind_eq_bind, Option.bind_some]
  rfl

section

variable {buf : Block UInt8} {pos : Nat} {len : UInt32}

/-- Too few bytes are left. -/
theorem getDataByLenTo_short (wf : sb.WellFormed) (short : sb.remaining.length < len.toNat) :
    getDataByLenTo sb buf pos len = some (-1, sb, buf) := by
  rw [getDataByLenTo, if_pos]
  rwa [UInt32.lt_iff_toNat_lt, toNat_sub_offset wf]

/-- The bytes are written to the block, if there is one. -/
theorem getDataByLenTo_eq (wf : sb.WellFormed) (enough : len.toNat ≤ sb.remaining.length)
    (there : ¬ (buf.isNone ∧ pos = 0)) :
    getDataByLenTo sb buf pos len =
      (buf.write pos (sb.remaining.take len.toNat)).map fun written =>
        (0, sb.setOffset (sb.offset + len), written) := by
  have passes : ¬ sb.length - sb.offset < len := by
    rw [UInt32.lt_iff_toNat_lt, toNat_sub_offset wf]
    omega
  rw [getDataByLenTo, if_neg passes, if_neg there, read_remaining wf enough]
  simp only [Option.bind_eq_bind, Option.bind_some]
  cases buf.write pos (sb.remaining.take len.toNat) <;> rfl

end

/-- There is room for as many bytes as the first one says, or nothing to lose. -/
def CountedFits (sb des : StringBuf) : Prop :=
  ∀ count rest, sb.remaining = count :: rest → count ≠ 0 →
    des.bytes = [] ∨ des.length.toNat + count.toNat ≤ des.allocateLen.toNat ∨
      0x100000000 ≤ des.length.toNat + count.toNat ∧ rest.length < count.toNat

/-- What `get_stringBuf1BLen` does behind a length that is not 0. -/
def readCounted (m : Allocator UInt8) (sb desStr : StringBuf) (dataLen : UInt32) :
    Option (Int × StringBuf × StringBuf) := do
  let desStr := desStr.mallocMem m (desStr.length + dataLen)
  let (ret, sb, buf) ← getDataByLenTo sb desStr.buf desStr.length.toNat dataLen
  let desStr := { desStr with buf := buf }
  if ret ≠ 0 then some (-1, sb, desStr)
  else some (0, sb, { desStr with length := desStr.length + dataLen })

section

variable {count : UInt8}

/-- What a destination that is made ready gets. -/
theorem readCounted_eq (wf : sb.WellFormed) {ready : StringBuf}
    (made : des.mallocMem m (des.length + count.toUInt32) = ready) :
    readCounted m sb des count.toUInt32 =
      if sb.remaining.length < count.toNat ∨ ready.buf.isNone ∧ ready.length.toNat = 0 then
        some (-1, sb, ready)
      else
        (ready.buf.write ready.length.toNat (sb.remaining.take count.toNat)).map fun written =>
          (0, sb.setOffset (sb.offset + count.toUInt32),
            { ready with buf := written, length := ready.length + count.toUInt32 }) := by
  -- By what the reader checks: whether the bytes are there, and whether they can be appended to a
  -- block at all.
  rw [readCounted, made]
  by_cases short : sb.remaining.length < count.toNat
  · rw [if_pos (Or.inl short), getDataByLenTo_short wf (by simpa using short)]
    rfl
  · by_cases null : ready.buf.isNone ∧ ready.length.toNat = 0
    · have passes : ¬ sb.length - sb.offset < count.toUInt32 := by
        rw [UInt32.lt_iff_toNat_lt, toNat_sub_offset wf]
        simpa using short
      rw [if_pos (Or.inr null), getDataByLenTo, if_neg passes, if_pos null]
      rfl
    · rw [if_neg (not_or.mpr ⟨short, null⟩),
        getDataByLenTo_eq wf (by simpa using Nat.not_lt.mp short) null, UInt8.toNat_toUInt32]
      cases ready.buf.write ready.length.toNat (sb.remaining.take count.toNat) <;> rfl

/-- A destination that is large enough stays as it is. -/
theorem mallocMem_stays {room : UInt32} (enough : room.toNat ≤ des.allocateLen.toNat) :
    des.mallocMem m room = des := by
  rw [mallocMem, if_pos]
  exact UInt32.le_iff_toNat_le.mpr enough

/-- A destination that is too small gets a new block, and nothing of what it holds. -/
theorem mallocMem_grows {room : UInt32} (short : des.allocateLen.toNat < room.toNat) :
    des.mallocMem m room =
      { buf := m.alloc (alignment room).toNat, length := 0, offset := 0,
        allocateLen := alignment room } := by
  rw [mallocMem, if_neg]
  exact UInt32.not_le.mpr (UInt32.lt_iff_toNat_lt.mpr short)

/-- Bytes that are read are appended, or the destination is left as it is. -/
def CountedRead (sb des : StringBuf) (count : UInt8)
    (got : Option (Int × StringBuf × StringBuf)) : Prop :=
  ∃ ret read after, got = some (ret, read, after) ∧
    (ret = 0 → count.toNat ≤ sb.remaining.length ∧
      read = sb.setOffset (sb.offset + count.toUInt32) ∧
        after.bytes = des.bytes ++ sb.remaining.take count.toNat) ∧
    (ret ≠ 0 → after.bytes = des.bytes)

/-- The size that is asked for, which may wrap around. -/
theorem toNat_asked (des : StringBuf) (count : UInt8) :
    (des.length + count.toUInt32).toNat = (des.length.toNat + count.toNat) % 0x100000000 := by
  rw [UInt32.toNat_add, UInt8.toNat_toUInt32]

/-- A destination that has the room keeps its bytes. -/
theorem countedRead_kept (wf : sb.WellFormed) (wfDes : des.WellFormed) (some_ : count ≠ 0)
    (fits : des.length.toNat + count.toNat ≤ des.allocateLen.toNat) :
    CountedRead sb des count (readCounted m sb des count.toUInt32) := by
  have asked := toNat_asked des count
  have bound := des.allocateLen.toNat_lt
  have allocated := wfDes.allocate_eq
  have positive : 0 < count.toNat := by
    rw [Nat.pos_iff_ne_zero]
    exact fun zero => some_ (UInt8.toNat_inj.mp zero)
  rw [readCounted_eq wf (mallocMem_stays (by omega))]
  by_cases short : sb.remaining.length < count.toNat
  · rw [if_pos (Or.inl short)]
    exact ⟨-1, sb, des, rfl, fun done => by omega, fun _ => rfl⟩
  · -- A destination with room has a block.
    have there : ¬ (des.buf.isNone ∧ des.length.toNat = 0) := by
      rintro ⟨null, _⟩
      rw [Block.size, Option.isNone_iff_eq_none.mp null, Option.getD_none, List.length_nil]
        at allocated
      omega
    have length : (sb.remaining.take count.toNat).length = count.toNat := by
      rw [List.length_take]
      omega
    obtain ⟨written, put, _, _⟩ := @Block.write_spec _ des.buf des.length.toNat
      (sb.remaining.take count.toNat) (by omega)
    have held := take_written (by omega) put
    rw [if_neg (not_or.mpr ⟨short, there⟩), put]
    refine ⟨0, _, _, rfl, fun _ => ⟨Nat.not_lt.mp short, rfl, ?_⟩, fun wrong => absurd rfl wrong⟩
    rw [length] at held
    show (written.getD []).take (des.length + count.toUInt32).toNat = _
    rw [asked, Nat.mod_eq_of_lt (by omega), held]
    rfl

/-- A destination whose size would wrap around is written to behind its block. -/
theorem countedRead_wrapped_iff (wf : sb.WellFormed) (wfDes : des.WellFormed)
    (wraps : 0x100000000 ≤ des.length.toNat + count.toNat) :
    CountedRead sb des count (readCounted m sb des count.toUInt32) ↔
      sb.remaining.length < count.toNat := by
  have asked := toNat_asked des count
  have small := count.toNat_lt
  have bound := des.allocateLen.toNat_lt
  have lengthLe := wfDes.length_le
  have allocated := wfDes.allocate_eq
  -- The size that is asked for has wrapped around to less than there is.
  rw [readCounted_eq wf (mallocMem_stays (by omega))]
  by_cases short : sb.remaining.length < count.toNat
  · rw [if_pos (Or.inl short)]
    exact iff_of_true ⟨-1, sb, des, rfl, fun done => by omega, fun _ => rfl⟩ short
  · refine iff_of_false ?_ short
    have length : (sb.remaining.take count.toNat).length = count.toNat := by
      rw [List.length_take]
      omega
    have some_ : sb.remaining.take count.toNat ≠ [] := by
      intro none_
      rw [none_, List.length_nil] at length
      omega
    have outside : ¬ des.length.toNat + (sb.remaining.take count.toNat).length ≤ des.buf.size := by
      omega
    rintro ⟨_, _, _, got, _⟩
    rw [if_neg (by omega), Block.write, if_neg some_, if_neg outside] at got
    simp at got

/-- A destination that gets a new block loses its bytes. -/
theorem countedRead_lost_iff (wf : sb.WellFormed) (wfDes : des.WellFormed)
    (small : des.length.toNat + count.toNat < 0x100000000)
    (grows : des.allocateLen.toNat < des.length.toNat + count.toNat) :
    CountedRead sb des count (readCounted m sb des count.toUInt32) ↔ des.bytes = [] := by
  have asked := toNat_asked des count
  rw [Nat.mod_eq_of_lt small] at asked
  have held := length_bytes wfDes
  have emptied : ∀ {buf : Block UInt8} {room : UInt32},
      (StringBuf.mk buf 0 0 room).bytes = [] := by
    intro buf room
    simp [StringBuf.bytes]
  rw [readCounted_eq wf (mallocMem_grows (by omega))]
  by_cases refused : sb.remaining.length < count.toNat ∨
      (m.alloc (alignment (des.length + count.toUInt32)).toNat).isNone ∧ (0 : UInt32).toNat = 0
  · rw [if_pos refused]
    -- A refusal leaves the emptied destination behind.
    constructor
    · rintro ⟨ret, read, after, got, _, kept⟩
      obtain ⟨rfl, same⟩ := Prod.mk.inj (Option.some.inj got)
      obtain ⟨_, rfl⟩ := Prod.mk.inj same
      rw [← kept (by decide), emptied]
    · intro none_
      exact ⟨-1, _, _, rfl, fun done => by omega, fun _ => by rw [emptied, none_]⟩
  · rw [if_neg refused]
    obtain ⟨enough, there⟩ := not_or.mp refused
    have length : (sb.remaining.take count.toNat).length = count.toNat := by
      rw [List.length_take]
      omega
    constructor
    · -- The new block holds no more than the bytes that are read.
      rintro ⟨ret, read, after, got, done, _⟩
      obtain ⟨written, _, same⟩ := Option.map_eq_some_iff.mp got
      simp only [Prod.mk.injEq] at same
      obtain ⟨rfl, rfl, rfl⟩ := same
      have most := congrArg List.length (done rfl).2.2
      rw [List.length_append, length, StringBuf.bytes, List.length_take] at most
      simp only [UInt32.zero_add, UInt8.toNat_toUInt32] at most
      exact List.length_eq_zero_iff.mp (by omega)
    · -- With nothing to lose, the bytes are all that the new block has to hold.
      intro none_
      rw [none_, List.length_nil] at held
      have byte := count.toNat_lt
      have covers := @le_alignment (des.length + count.toUInt32) (by rw [maxSize]; omega)
      have size := @size_alloc_eq m (alignment (des.length + count.toUInt32)).toNat
      have answers : (m.alloc (alignment (des.length + count.toUInt32)).toNat).isSome := by
        rw [Option.isSome_iff_ne_none]
        simpa using there
      rw [if_pos answers] at size
      obtain ⟨written, put, _, _⟩ := @Block.write_spec _
        (m.alloc (alignment (des.length + count.toUInt32)).toNat) (0 : UInt32).toNat
        (sb.remaining.take count.toNat) (by rw [UInt32.toNat_zero]; omega)
      have whole := take_written (Nat.zero_le _) put
      rw [put]
      refine ⟨0, _, _, rfl, fun _ => ⟨by omega, rfl, ?_⟩, fun wrong => absurd rfl wrong⟩
      rw [length, Nat.zero_add] at whole
      show (written.getD []).take (0 + count.toUInt32).toNat = _
      rw [UInt32.zero_add, UInt8.toNat_toUInt32, whole, none_]
      rfl

/-- A reader that is done has taken as many bytes as were asked for. -/
theorem readCounted_done (wf : sb.WellFormed) {read after : StringBuf}
    (done : readCounted m sb des count.toUInt32 = some (0, read, after)) :
    count.toNat ≤ sb.remaining.length ∧ read = sb.setOffset (sb.offset + count.toUInt32) := by
  rw [readCounted_eq wf rfl] at done
  split at done
  · simp at done
  · rename_i passes
    obtain ⟨written, _, same⟩ := Option.map_eq_some_iff.mp done
    simp only [Prod.mk.injEq] at same
    exact ⟨Nat.not_lt.mp (not_or.mp passes).1, same.2.1.symm⟩

variable {rest : Bytes}

/-- The length is read first. -/
theorem getStringBuf1BLen_cons (wf : sb.WellFormed) (remains : sb.remaining = count :: rest) :
    getStringBuf1BLen m sb des =
      if count = 0 then some (0, sb.setOffset (sb.offset + 1), des)
      else readCounted m (sb.setOffset (sb.offset + 1)) des count.toUInt32 := by
  rw [getStringBuf1BLen, getInteger_cons wf remains]
  simp only [Option.bind_eq_bind, Option.bind_some, orLowFirst_single, ne_eq, not_true_eq_false,
    if_false]
  rfl

/-- The bytes that are moved past are the length and the bytes behind it. -/
theorem consumed_counted (wf : sb.WellFormed) (remains : sb.remaining = count :: rest)
    (enough : count.toNat ≤ rest.length) :
    consumed sb ((sb.setOffset (sb.offset + 1)).setOffset
      ((sb.setOffset (sb.offset + 1)).offset + count.toUInt32)) =
        count :: rest.take count.toNat := by
  have ordered := wf.offset_le
  have bound := sb.length.toNat_lt
  have held := length_bytes wf
  have total := congrArg List.length remains
  rw [StringBuf.remaining, List.length_drop, held, List.length_cons] at total
  have offset : (sb.offset + 1 + count.toUInt32).toNat = sb.offset.toNat + (count.toNat + 1) := by
    simp only [UInt32.toNat_add, UInt8.toNat_toUInt32, UInt32.toNat_one]
    omega
  rw [consumed]
  show sb.remaining.take ((sb.offset + 1 + count.toUInt32).toNat - sb.offset.toNat) = _
  rw [offset, Nat.add_sub_cancel_left, remains, List.take_succ_cons]

/-- What is appended is what the reader behind the length takes. -/
theorem countedAppended_read_iff (wf : sb.WellFormed)
    (wf' : (sb.setOffset (sb.offset + 1)).WellFormed) (remains : sb.remaining = count :: rest)
    (behind : (sb.setOffset (sb.offset + 1)).remaining = rest) :
    CountedAppended sb des (readCounted m (sb.setOffset (sb.offset + 1)) des count.toUInt32) ↔
      CountedRead (sb.setOffset (sb.offset + 1)) des count
        (readCounted m (sb.setOffset (sb.offset + 1)) des count.toUInt32) := by
  -- A reader that is done fixes what has been moved past.
  generalize result : readCounted m (sb.setOffset (sb.offset + 1)) des count.toUInt32 = got
  have taken : ∀ read after, got = some (0, read, after) →
      count.toNat ≤ rest.length ∧
        read = (sb.setOffset (sb.offset + 1)).setOffset
          ((sb.setOffset (sb.offset + 1)).offset + count.toUInt32) ∧
        consumed sb read = count :: rest.take count.toNat := by
    intro read after ok
    obtain ⟨enough, rfl⟩ := readCounted_done wf' (result.trans ok)
    rw [behind] at enough
    exact ⟨enough, rfl, consumed_counted wf remains enough⟩
  constructor
  · rintro ⟨ret, read, after, rfl, done, kept⟩
    refine ⟨ret, read, after, rfl, fun ok => ?_, kept⟩
    obtain ⟨count', str, moved, _, bytes⟩ := done ok
    obtain ⟨enough, same, moved'⟩ := taken read after (by rw [ok])
    obtain ⟨_, text⟩ := List.cons.inj (moved'.symm.trans moved)
    rw [behind, text]
    exact ⟨enough, same, bytes⟩
  · rintro ⟨ret, read, after, rfl, done, kept⟩
    refine ⟨ret, read, after, rfl, fun ok => ?_, kept⟩
    obtain ⟨enough, same, moved⟩ := taken read after (by rw [ok])
    have bytes := (done ok).2.2
    rw [behind] at bytes
    exact ⟨count, _, moved, by rw [List.length_take, Nat.min_eq_left enough], bytes⟩

/--
Bytes that are counted by the first one are appended exactly if there is room for them, or nothing
to lose.
-/
theorem countedAppended_iff (wf : sb.WellFormed) (wfDes : des.WellFormed) :
    CountedAppended sb des (getStringBuf1BLen m sb des) ↔ CountedFits sb des := by
  cases remains : sb.remaining with
  | nil =>
    -- Without a length nothing is done.
    rw [getStringBuf1BLen, getInteger_empty wf remains]
    refine iff_of_true ⟨-1, sb, des, rfl, fun done => by omega, fun _ => rfl⟩ ?_
    intro count rest same
    simp [remains] at same
  | cons count rest =>
    have moved := setOffset_spec wf (show 1 ≤ sb.remaining.length by rw [remains]; simp)
    have wf' : (sb.setOffset (sb.offset + 1)).WellFormed := moved.1
    have behind : (sb.setOffset (sb.offset + 1)).remaining = rest := by
      rw [remains] at moved
      exact moved.2
    have fits : CountedFits sb des ↔ (count ≠ 0 →
        des.bytes = [] ∨ des.length.toNat + count.toNat ≤ des.allocateLen.toNat ∨
          0x100000000 ≤ des.length.toNat + count.toNat ∧ rest.length < count.toNat) := by
      constructor
      · intro fits
        exact fits count rest remains
      · intro fits count' rest' same
        obtain ⟨rfl, rfl⟩ := List.cons.inj (remains.symm.trans same)
        exact fits
    rw [fits, getStringBuf1BLen_cons wf remains]
    by_cases zero : count = 0
    · subst zero
      rw [if_pos rfl]
      refine iff_of_true ⟨0, _, des, rfl, fun _ => ⟨0, [], ?_, rfl, by simp⟩,
        fun wrong => absurd rfl wrong⟩ fun some_ => absurd rfl some_
      have moved := consumed_counted wf remains (Nat.zero_le _)
      simpa [StringBuf.setOffset] using moved
    · rw [if_neg zero]
      have same := @countedAppended_read_iff m sb des count rest wf wf' remains behind
      rw [same, Ne, eq_false zero, not_false_eq_true, forall_const]
      -- There is room already, or the size wraps around, or there is a new block.
      by_cases room : des.length.toNat + count.toNat ≤ des.allocateLen.toNat
      · exact iff_of_true (countedRead_kept wf' wfDes zero room) (Or.inr (Or.inl room))
      · by_cases wraps : 0x100000000 ≤ des.length.toNat + count.toNat
        · rw [countedRead_wrapped_iff wf' wfDes wraps, behind, or_iff_right room,
            and_iff_right wraps]
          have byte := count.toNat_lt
          have held := length_bytes wfDes
          refine (or_iff_right ?_).symm
          intro none_
          rw [none_, List.length_nil] at held
          omega
        · rw [countedRead_lost_iff wf' wfDes (by omega) (by omega), or_iff_right room]
          exact (or_iff_left fun both => wraps both.1).symm

end

/-! ## All three readers -/

/-- What is not read is refused. -/
theorem getString_answers {base : UInt64} {desStr des : Bytes} {ret : Int} {read : StringBuf}
    (got : getString base sb desStr = some (ret, read, des)) :
    getString base sb desStr = some (-1, sb, desStr) ∨ ret = 0 := by
  rw [getString] at got ⊢
  obtain ⟨region, there, got⟩ := Option.bind_eq_some_iff.mp got
  simp only [there, Option.bind_eq_bind, Option.bind_some] at got ⊢
  generalize (UInt64.toUInt32 _) = len at got ⊢
  by_cases refused : len = 0 ∨ len > sb.remailLength
  · exact Or.inl (if_pos refused)
  · rw [if_neg refused] at got
    obtain ⟨str, _, same⟩ := Option.bind_eq_some_iff.mp got
    exact Or.inr (Prod.mk.inj (Option.some.inj same)).1.symm

/-- A string is appended exactly if it has an end or the length of one that has none is refused. -/
theorem stringAppended_iff (wf : sb.WellFormed) (base : UInt64) (desStr : Bytes) :
    StringAppended sb desStr (getString base sb desStr) ↔
      0 ∈ sb.remaining ∨ nullLength base sb.offset = 0 ∨
        sb.remaining.length < nullLength base sb.offset := by
  by_cases ended : 0 ∈ sb.remaining
  · -- The string before the NUL is appended.
    refine iff_of_true ?_ (Or.inl ended)
    obtain ⟨str, rest, found, fresh⟩ := List.eq_append_cons_of_mem ended
    obtain ⟨offset, moved, got⟩ := @getString_found base sb desStr wf str rest found fresh
    refine ⟨0, _, _, got, fun _ => ⟨str, ?_, rfl⟩, fun wrong => absurd rfl wrong⟩
    have count : offset.toNat - sb.offset.toNat = (str ++ [0]).length := by
      rw [List.length_append, List.length_singleton]
      omega
    show sb.remaining.take (offset.toNat - sb.offset.toNat) = str ++ [0]
    rw [count, found, List.append_cons str 0 rest, List.take_left]
  · rw [← @getString_missing_iff base sb desStr wf ended, or_iff_right ended]
    constructor
    · -- What is moved past has no end, so the answer is not 0.
      rintro ⟨ret, read, after, got, done, _⟩
      rcases @getString_answers sb base desStr after ret read got with refused | ok
      · exact refused
      · obtain ⟨str, moved, _⟩ := done ok
        have inside : 0 ∈ consumed sb read := by
          rw [moved]
          simp
        exact absurd (List.mem_of_mem_take inside) ended
    · intro refused
      exact ⟨-1, sb, desStr, refused, fun done => by omega, fun _ => rfl⟩

/--
The three readers append what they read, or leave the destination as it is, exactly if the length of
a string without an end is refused, a counted string has room or nothing to lose, and a stretch that
passes the check does not wrap around and has room.
-/
theorem readersAppend_iff (wf : sb.WellFormed) (wfDes : des.WellFormed) (m : Allocator UInt8)
    (base : UInt64) (desStr : Bytes) (pos len : UInt32) :
    (StringAppended sb desStr (getString base sb desStr) ∧
      CountedAppended sb des (getStringBuf1BLen m sb des) ∧
        StretchAppended sb des pos len (getByteDataByPosLen m sb des pos len)) ↔
      (0 ∈ sb.remaining ∨ nullLength base sb.offset = 0 ∨
        sb.remaining.length < nullLength base sb.offset) ∧
      CountedFits sb des ∧ StretchFits m sb des pos len := by
  rw [stringAppended_iff wf, countedAppended_iff wf wfDes, stretchAppended_iff wf wfDes]

/-- A packet of a counted string that ends in a NUL. -/
def countedPacket : StringBuf := ⟨some [1, 65, 0], 3, 0, 3⟩

/-- A destination with a byte, and with room for another one. -/
theorem readersAppend_roomy :
    let des : StringBuf := ⟨some [66, 0], 1, 0, 2⟩
    let m : Allocator UInt8 := .filled 0
    StringAppended countedPacket [66] (getString 0x7f0000001000 countedPacket [66]) ∧
      CountedAppended countedPacket des (getStringBuf1BLen m countedPacket des) ∧
        StretchAppended countedPacket des 1 1 (getByteDataByPosLen m countedPacket des 1 1) := by
  intro des m
  refine (readersAppend_iff (by decide) (by decide) m 0x7f0000001000 [66] 1 1).mpr
    ⟨by decide, ?_, Or.inr ⟨by decide, Or.inl (by decide)⟩⟩
  intro count rest same _
  obtain ⟨rfl, rfl⟩ := List.cons.inj (same : [1, 65, 0] = count :: rest)
  exact Or.inr (Or.inl (by decide))

/-- A destination that is full loses its byte to the counted one. -/
theorem fullDestination_lost : ¬ ∀ (sb des : StringBuf), sb.WellFormed → des.WellFormed →
    ∀ (m : Allocator UInt8) (base : UInt64) (desStr : Bytes) (pos len : UInt32),
      StringAppended sb desStr (getString base sb desStr) ∧
        CountedAppended sb des (getStringBuf1BLen m sb des) ∧
          StretchAppended sb des pos len (getByteDataByPosLen m sb des pos len) := by
  intro always
  obtain ⟨ret, read, after, got, done, _⟩ := (always countedPacket ⟨some [66], 1, 0, 1⟩ (by decide)
    (by decide) (.filled 0) 0x7f0000001000 [] 0 0).2.1
  have answer : (getStringBuf1BLen (.filled 0) countedPacket ⟨some [66], 1, 0, 1⟩).map
      (fun got => (got.1, got.2.2.bytes)) = some (0, [65]) := by decide
  rw [got, Option.map_some, Option.some.injEq, Prod.mk.injEq] at answer
  obtain ⟨_, str, _, _, bytes⟩ := done answer.1
  have first : [65] = [66] ++ str := answer.2.symm.trans bytes
  simp at first

end OneProxy.ProtocolPacket
