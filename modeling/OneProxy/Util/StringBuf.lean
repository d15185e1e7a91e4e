import OneProxy.Lib.Memory

/-! The growable byte buffer every socket keeps its received and its unsent bytes in. -/

namespace OneProxy

open Memory

/-- A byte string. -/
abbrev Bytes := List UInt8

/-- The buffer's pointer and its three 32-bit counters. -/
structure StringBuf where
  /-- `m_buf`: null, or the block the bytes lie in. -/
  buf : Block UInt8
  length : UInt32
  offset : UInt32
  allocateLen : UInt32

namespace StringBuf

/-- A buffer as its constructor leaves it. -/
def new : StringBuf := ⟨none, 0, 0, 0⟩

/-- `default_cache_size`. -/
def defaultCacheSize : UInt32 := 1024

/-- `default_max_cache_size`. -/
def defaultMaxCacheSize : UInt32 := 10 * defaultCacheSize

/-- A size rounded up to the alignment, in 32-bit arithmetic. -/
def alignment (size : UInt32) (alignmentLength : UInt32 := 8) : UInt32 :=
  (size + alignmentLength - 1) &&& ~~~(alignmentLength - 1)

/-- The number of bytes between the offset and the length. -/
def remailLength (sb : StringBuf) : UInt32 :=
  if sb.length ≥ sb.offset then sb.length - sb.offset else 0

/-- The number of allocated bytes after the length. -/
def remailAllocLen (sb : StringBuf) : UInt32 :=
  if sb.length ≤ sb.allocateLen then sb.allocateLen - sb.length else 0

/--
Makes room for `size` bytes, keeping the bytes the buffer holds.

The new capacity is recorded before the allocator is asked, also where it then refuses.
-/
def reallocMem (m : Allocator UInt8) (sb : StringBuf) (size : UInt32) :
    Option (Int × StringBuf) :=
  if sb.allocateLen ≥ size then some (0, sb)
  else
    let sb := { sb with allocateLen := alignment size }
    match m.alloc sb.allocateLen.toNat with
    | none => some (-1, sb)
    | some tmpbuf =>
      if sb.length > sb.allocateLen then some (-1, sb)
      else do
        let kept ← sb.buf.read 0 sb.length.toNat
        let moved ← Block.write (some tmpbuf) 0 kept
        some (0, { sb with buf := moved })

/--
Appends `data`, growing the buffer where the capacity is too small.

The allocator's answer is not checked, so a null answer is written through.
-/
def append (m : Allocator UInt8) (sb : StringBuf) (data : Bytes) : Option StringBuf :=
  let dataLen := UInt32.ofNat data.length
  if sb.allocateLen < sb.length + dataLen then do
    let allocateLen := alignment (sb.length + dataLen)
    let tmpbuf := m.alloc allocateLen.toNat
    let kept ← sb.buf.read 0 sb.length.toNat
    let moved ← tmpbuf.write 0 kept
    let written ← moved.write sb.length.toNat data
    some { sb with buf := written, length := sb.length + dataLen, allocateLen := allocateLen }
  else do
    let written ← sb.buf.write sb.length.toNat data
    some { sb with buf := written, length := sb.length + dataLen }

/--
Appends the characters of a string, whose length is a 64-bit number.

A buffer that grows here is read from its start again.
-/
def appendStr (m : Allocator UInt8) (sb : StringBuf) (str : Bytes) : Option StringBuf :=
  let length := sb.length.toNat + str.length
  if sb.allocateLen.toNat < length then do
    let allocateLen := alignment (UInt32.ofNat length)
    let tmpbuf := m.alloc allocateLen.toNat
    let kept ← sb.buf.read 0 sb.length.toNat
    let moved ← tmpbuf.write 0 kept
    let written ← moved.write sb.length.toNat str
    some { buf := written, length := UInt32.ofNat length, offset := 0, allocateLen := allocateLen }
  else do
    let written ← sb.buf.write sb.length.toNat str
    some { sb with buf := written, length := UInt32.ofNat length }

/--
Inserts `data`, behind the end too.

A gap before the data keeps what the allocator left there, and a buffer that gets a new block is
read from its start again.
-/
def insert (m : Allocator UInt8) (sb : StringBuf) (pos : UInt32) (data : Bytes) :
    Option StringBuf :=
  let dataLen := UInt32.ofNat data.length
  if pos > sb.length then do
    let zeroLen := pos - sb.length
    let allocateLen := alignment (sb.length + dataLen + zeroLen)
    let tmpbuf := m.alloc allocateLen.toNat
    let kept ← sb.buf.read 0 sb.length.toNat
    let moved ← tmpbuf.write 0 kept
    let written ← moved.write pos.toNat data
    some { buf := written, length := sb.length + dataLen + zeroLen, offset := 0,
           allocateLen := allocateLen }
  else if sb.allocateLen < sb.length + dataLen then do
    let allocateLen := alignment (sb.length + dataLen)
    let tmpbuf := m.alloc allocateLen.toNat
    let front ← sb.buf.read 0 pos.toNat
    let moved ← tmpbuf.write 0 front
    let inserted ← moved.write pos.toNat data
    let back ← sb.buf.read pos.toNat (sb.length - pos).toNat
    let written ← inserted.write (pos.toNat + data.length) back
    some { buf := written, length := sb.length + dataLen, offset := 0, allocateLen := allocateLen }
  else do
    let back ← sb.buf.read pos.toNat (sb.length - pos).toNat
    let moved ← sb.buf.write (pos.toNat + data.length) back
    let written ← moved.write pos.toNat data
    some { sb with buf := written, length := sb.length + dataLen }

/-- Removes the bytes in `[startPos, endPos)`. -/
def erase (sb : StringBuf) (startPos endPos : UInt32) : Option StringBuf :=
  let endPos := if endPos > sb.length then sb.length else endPos
  if endPos ≤ startPos then some sb
  else do
    let movLen := sb.length - endPos
    let moved ← sb.buf.read endPos.toNat movLen.toNat
    let written ← sb.buf.write startPos.toNat moved
    some { sb with buf := written, length := startPos + movLen }

/-- Empties the buffer, and swaps a large block for a small one where one can be had. -/
def clear (m : Allocator UInt8) (sb : StringBuf) : StringBuf :=
  let sb := { sb with offset := 0, length := 0 }
  if sb.allocateLen > defaultMaxCacheSize ∧ sb.buf.isSome then
    let tsize := alignment defaultCacheSize
    match m.alloc tsize.toNat with
    | none => sb
    | some tbuf => { sb with buf := some tbuf, allocateLen := tsize }
  else sb

/-- Moves the read position. -/
def setOffset (sb : StringBuf) (offset : UInt32) : StringBuf := { sb with offset := offset }

/-- What `recv` does with the bytes it was given for `addr() + length()`, and the new length. -/
def recvInto (sb : StringBuf) (bytes : Bytes) : Option StringBuf := do
  let written ← sb.buf.write sb.length.toNat bytes
  some { sb with buf := written, length := sb.length + UInt32.ofNat bytes.length }

/-- The bytes below the length. -/
def bytes (sb : StringBuf) : Bytes := (sb.buf.getD []).take sb.length.toNat

/-- The bytes between the offset and the length. -/
def remaining (sb : StringBuf) : Bytes := sb.bytes.drop sb.offset.toNat

/-- A buffer whose counters describe its block: `offset ≤ length ≤ allocateLen =` block size. -/
structure WellFormed (sb : StringBuf) : Prop where
  offset_le : sb.offset.toNat ≤ sb.length.toNat
  length_le : sb.length.toNat ≤ sb.allocateLen.toNat
  allocate_eq : sb.allocateLen.toNat = sb.buf.size

instance (sb : StringBuf) : Decidable sb.WellFormed :=
  decidable_of_iff (sb.offset.toNat ≤ sb.length.toNat ∧ sb.length.toNat ≤ sb.allocateLen.toNat ∧
    sb.allocateLen.toNat = sb.buf.size)
    ⟨fun h => ⟨h.1, h.2.1, h.2.2⟩, fun h => ⟨h.offset_le, h.length_le, h.allocate_eq⟩⟩

end StringBuf

end OneProxy
