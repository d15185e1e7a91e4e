import OneProxy.Protocol.UnicodeString
import OneProxy.Util.PlainBuffer

/-! `ProtocolPacket`: the readers of strings and bytes, and what the first of them takes for a
string. -/

namespace OneProxy

open Memory

namespace StringBuf

/-- `mallocMem`: room for `size` bytes, for which the bytes that the buffer holds are given up. -/
def mallocMem (m : Allocator UInt8) (sb : StringBuf) (size : UInt32) : StringBuf :=
  if sb.allocateLen ≥ size then sb
  else
    let allocateLen := alignment size
    { buf := m.alloc allocateLen.toNat, length := 0, offset := 0, allocateLen := allocateLen }

variable {sb : StringBuf}

/-- The first of the remaining bytes are there to be read. -/
theorem read_remaining (wf : sb.WellFormed) {count : Nat} (inside : count ≤ sb.remaining.length) :
    sb.buf.read sb.offset.toNat count = some (sb.remaining.take count) := by
  have held := length_bytes wf
  have ordered := wf.offset_le
  rw [remaining, List.length_drop] at inside
  exact wf.backed.read_stretch (by omega)

end StringBuf

namespace ProtocolPacket

/--
`get_string`, of a buffer that lies at an address.

Where `memchr` finds no end, the length is counted from the null pointer, in 32 bits.
-/
def getString (base : UInt64) (sb : StringBuf) (desStr : Bytes) :
    Option (Int × StringBuf × Bytes) := do
  let region ← sb.buf.read sb.offset.toNat sb.remailLength.toNat
  let p : UInt64 :=
    if 0 ∈ region then base + sb.offset.toUInt64 + UInt64.ofNat (region.idxOf 0) else 0
  let len : UInt32 := (p - base - sb.offset.toUInt64 + 1).toUInt32
  if len = 0 ∨ len > sb.remailLength then some (-1, sb, desStr)
  else do
    let str ← sb.buf.read sb.offset.toNat (len - 1).toNat
    some (0, sb.setOffset (sb.offset + len), desStr ++ str)

/--
`get_dataByLen`, to a position of a block: the pointer to its start is null where there is no block.
-/
def getDataByLenTo (sb : StringBuf) (buf : Block UInt8) (pos : Nat) (len : UInt32) :
    Option (Int × StringBuf × Block UInt8) :=
  if sb.length - sb.offset < len then some (-1, sb, buf)
  else if buf.isNone ∧ pos = 0 then some (-1, sb, buf)
  else do
    let data ← sb.buf.read sb.offset.toNat len.toNat
    let buf ← buf.write pos data
    some (0, sb.setOffset (sb.offset + len), buf)

/-- `get_stringBuf1BLen`. -/
def getStringBuf1BLen (m : Allocator UInt8) (sb desStr : StringBuf) :
    Option (Int × StringBuf × StringBuf) := do
  let (ret, sb, tmpvalue) ← getIntegerDataByLenLT sb 1
  if ret ≠ 0 then some (-1, sb, desStr)
  else
    let dataLen := tmpvalue.toUInt8
    if dataLen = 0 then some (0, sb, desStr)
    else
      let desStr := desStr.mallocMem m (desStr.length + dataLen.toUInt32)
      let (ret, sb, buf) ← getDataByLenTo sb desStr.buf desStr.length.toNat dataLen.toUInt32
      let desStr := { desStr with buf := buf }
      if ret ≠ 0 then some (-1, sb, desStr)
      else some (0, sb, { desStr with length := desStr.length + dataLen.toUInt32 })

/-- `get_byteDataByPosLen`, which looks at no answer of `reallocMem`. -/
def getByteDataByPosLen (m : Allocator UInt8) (sb desStr : StringBuf) (pos len : UInt32) :
    Option (Int × StringBuf) :=
  if sb.length < pos + len then some (-1, desStr)
  else do
    let (_, desStr) ← desStr.reallocMem m (desStr.length + len)
    let data ← sb.buf.read pos.toNat len.toNat
    let buf ← desStr.buf.write desStr.length.toNat data
    some (0, { desStr with buf := buf, length := desStr.length + len })

/-! ## Strings that end in a NUL -/

/-- What reading a string is to do: with an end in the remaining bytes, take what is before it. -/
def ReadsString (sb : StringBuf) (desStr : Bytes) (got : Option (Int × StringBuf × Bytes)) : Prop :=
  (∀ str rest, sb.remaining = str ++ 0 :: rest → 0 ∉ str →
    ∃ offset : UInt32, offset.toNat = sb.offset.toNat + str.length + 1 ∧
      got = some (0, sb.setOffset offset, desStr ++ str)) ∧
    (0 ∉ sb.remaining → got = some (-1, sb, desStr))

/-- The length that is counted from the null pointer. -/
def nullLength (base : UInt64) (offset : UInt32) : Int :=
  (1 - (base.toNat : Int) - offset.toNat) % 0x100000000

variable {base : UInt64} {sb : StringBuf} {desStr : Bytes}

/-- The first place of a character is behind what lacks it. -/
theorem idxOf_append_cons {str rest : Bytes} {c : UInt8} (fresh : c ∉ str) :
    (str ++ c :: rest).idxOf c = str.length := by
  rw [List.idxOf_append_of_notMem fresh, List.idxOf_cons_self, Nat.add_zero]

/-- The length of a string that has an end. -/
theorem found_length (base : UInt64) (offset : UInt32) {k : Nat} (small : k + 1 < 0x100000000) :
    ((base + offset.toUInt64 + UInt64.ofNat k - base - offset.toUInt64 + 1).toUInt32).toNat =
      k + 1 := by
  have cancel : base + offset.toUInt64 + UInt64.ofNat k - base - offset.toUInt64 + 1 =
      UInt64.ofNat k + 1 := by
    apply UInt64.toNat_inj.mp
    have := base.toNat_lt
    have := offset.toNat_lt
    simp only [UInt64.toNat_add, UInt64.toNat_sub, UInt64.toNat_ofNat', UInt32.toNat_toUInt64,
      UInt64.toNat_one]
    omega
  rw [cancel, UInt64.toNat_toUInt32, UInt64.toNat_add, UInt64.toNat_ofNat', UInt64.toNat_one]
  omega

/-- The length of a string that has no end. -/
theorem missing_length (base : UInt64) (offset : UInt32) :
    (((0 - base - offset.toUInt64 + 1 : UInt64).toUInt32).toNat : Int) =
      nullLength base offset := by
  have := base.toNat_lt
  have := offset.toNat_lt
  rw [nullLength, UInt64.toNat_toUInt32]
  simp only [UInt64.toNat_add, UInt64.toNat_sub, UInt32.toNat_toUInt64, UInt64.toNat_one,
    UInt64.toNat_zero]
  omega

/-- Reading a string that has an end. -/
theorem getString_found (wf : sb.WellFormed) {str rest : Bytes}
    (found : sb.remaining = str ++ 0 :: rest) (fresh : 0 ∉ str) :
    ∃ offset : UInt32, offset.toNat = sb.offset.toNat + str.length + 1 ∧
      getString base sb desStr = some (0, sb.setOffset offset, desStr ++ str) := by
  have remains := StringBuf.remailLength_toNat wf
  have count : sb.remaining.length = str.length + 1 + rest.length := by
    rw [found, List.length_append, List.length_cons]
    omega
  have bound := sb.remailLength.toNat_lt
  have region := StringBuf.read_remaining wf (Nat.le_of_eq remains)
  rw [remains, List.take_length] at region
  -- The length is the difference of two addresses, cut to 32 bits.
  have length := found_length base sb.offset (show str.length + 1 < 0x100000000 by omega)
  generalize within : (base + sb.offset.toUInt64 + UInt64.ofNat str.length - base -
    sb.offset.toUInt64 + 1).toUInt32 = len at length
  have accepted : ¬ (len = 0 ∨ len > sb.remailLength) := by
    rw [gt_iff_lt, UInt32.lt_iff_toNat_lt, ← UInt32.toNat_inj, length]
    simp
    omega
  have one : (1 : UInt32) ≤ len := by
    rw [UInt32.le_iff_toNat_le, length]
    simp
  have before : (len - 1).toNat = str.length := by
    rw [UInt32.toNat_sub_of_le _ _ one, length]
    simp
  have text := StringBuf.read_remaining wf (show str.length ≤ sb.remaining.length by omega)
  rw [found, List.take_left] at text
  have ordered := wf.offset_le
  have whole := StringBuf.length_bytes wf
  refine ⟨sb.offset + len, ?_, ?_⟩
  · -- The new offset is at most the length.
    have most := sb.length.toNat_lt
    rw [StringBuf.remaining, List.length_drop] at count
    rw [UInt32.toNat_add, length]
    omega
  · rw [getString, remains, region]
    simp only [found, List.mem_append, List.mem_cons, true_or, or_true, if_true,
      idxOf_append_cons fresh, Option.bind_eq_bind, Option.bind_some, within, if_neg accepted,
      before, text]

/-- Reading a string that has no end is refused exactly if the length does not pass the check. -/
theorem getString_missing_iff (wf : sb.WellFormed) (missing : 0 ∉ sb.remaining) :
    getString base sb desStr = some (-1, sb, desStr) ↔
      nullLength base sb.offset = 0 ∨ sb.remaining.length < nullLength base sb.offset := by
  have remains := StringBuf.remailLength_toNat wf
  have region := StringBuf.read_remaining wf (Nat.le_of_eq remains)
  rw [remains, List.take_length] at region
  have length := missing_length base sb.offset
  rw [getString, remains, region]
  simp only [Option.bind_eq_bind, Option.bind_some, if_neg missing]
  generalize (0 - base - sb.offset.toUInt64 + 1 : UInt64).toUInt32 = len at length
  -- The check sees the length that is counted from the null pointer.
  have same : len = 0 ∨ len > sb.remailLength ↔
      nullLength base sb.offset = 0 ∨ sb.remaining.length < nullLength base sb.offset := by
    rw [gt_iff_lt, UInt32.lt_iff_toNat_lt, ← UInt32.toNat_inj, ← length, remains]
    simp
  rw [← same]
  by_cases refused : len = 0 ∨ len > sb.remailLength
  · rw [if_pos refused]
    exact iff_of_true rfl refused
  · -- The bytes up to that length are taken for a string.
    rw [if_neg refused]
    refine iff_of_false (fun answer => ?_) refused
    obtain ⟨_, _, answer⟩ := Option.bind_eq_some_iff.mp answer
    simp at answer

/--
A string is read as it is to be exactly if it has an end or the length that is counted from the null
pointer does not pass for one.
-/
theorem getString_iff (wf : sb.WellFormed) (base : UInt64) (desStr : Bytes) :
    ReadsString sb desStr (getString base sb desStr) ↔
      0 ∈ sb.remaining ∨ nullLength base sb.offset = 0 ∨
        sb.remaining.length < nullLength base sb.offset := by
  by_cases ended : 0 ∈ sb.remaining
  · exact iff_of_true ⟨fun _ _ found fresh => getString_found wf found fresh,
      fun missing => absurd ended missing⟩ (Or.inl ended)
  · rw [← getString_missing_iff wf ended, or_iff_right ended]
    constructor
    · intro reads
      exact reads.2 ended
    · intro refused
      refine ⟨fun str rest found _ => ?_, fun _ => refused⟩
      exact absurd (found ▸ List.mem_append_right _ List.mem_cons_self) ended

/-- Three bytes without an end, at an address in the middle of a page. -/
theorem getString_shortText : ReadsString ⟨some [97, 98, 99], 3, 0, 3⟩ []
    (getString 0x7f0000001000 ⟨some [97, 98, 99], 3, 0, 3⟩ []) :=
  (getString_iff (by decide) 0x7f0000001000 []).mpr (by decide)

/-- Below a multiple of 4 GiB, the distance to the null pointer passes for a length. -/
theorem boundaryText_not_refused : ¬ ∀ (base : UInt64) (sb : StringBuf) (desStr : Bytes),
    sb.WellFormed → ReadsString sb desStr (getString base sb desStr) := by
  intro always
  have reads := always 0x7effffffffe0 ⟨some (List.replicate 40 65), 40, 0, 40⟩ [] (by decide)
  have answer : (getString 0x7effffffffe0 ⟨some (List.replicate 40 65), 40, 0, 40⟩ []).map
      (fun got => (got.1, got.2.2)) = some (0, List.replicate 32 65) := by decide
  rw [reads.2 (by decide)] at answer
  exact absurd answer (by decide)

end ProtocolPacket

end OneProxy
