import OneProxy.Util.StringBuf

/-! `ProtocolPacket`: the integers of a packet, on a machine that stores the lowest byte first. -/

namespace OneProxy.ProtocolPacket

open Memory

/--
`(0xff & byte) << count`, as it is or-ed into a 64-bit value.

The shift is one of 32-bit integers, its count modulo 32, and its result is widened by its sign.
-/
def shifted (byte : UInt8) (count : UInt32) : UInt64 :=
  UInt64.ofBitVec ((byte.toUInt32 <<< count).toBitVec.signExtend 64)

/-- The loop that puts bytes together, the highest one first. -/
def orHighFirst (bytes : Bytes) : UInt64 :=
  (List.range bytes.length).foldl
    (fun value i => value ||| shifted (bytes.getD i 0) (UInt32.ofNat ((bytes.length - i - 1) * 8)))
      0

/-- The loop that puts bytes together, the lowest one first. -/
def orLowFirst (bytes : Bytes) : UInt64 :=
  (List.range bytes.length).foldl
    (fun value i => value ||| shifted (bytes.getD i 0) (UInt32.ofNat (i * 8))) 0

/-- The loop that takes a value apart, the highest byte first. -/
def highFirstBytes (size : Nat) (value : UInt64) : Bytes :=
  (List.range size).map fun i => (value >>> UInt64.ofNat ((size - i - 1) * 8)).toUInt8

/-- The loop that takes a value apart, the lowest byte first. -/
def lowFirstBytes (size : Nat) (value : UInt64) : Bytes :=
  (List.range size).map fun i => (value >>> UInt64.ofNat (i * 8)).toUInt8

/-- What both readers do: the offset is moved behind the bytes that are put together. -/
def getInteger (combine : Bytes → UInt64) (sb : StringBuf) (size : UInt32) :
    Option (Int × StringBuf × UInt64) :=
  if sb.length - sb.offset < size then some (-1, sb, 0)
  else do
    let bytes ← sb.buf.read sb.offset.toNat size.toNat
    some (0, sb.setOffset (sb.offset + size), combine bytes)

/-- `get_integerDataByLen`. -/
def getIntegerDataByLen (sb : StringBuf) (size : UInt32) : Option (Int × StringBuf × UInt64) :=
  getInteger orHighFirst sb size

/-- `get_integerDataByLen_LT`. -/
def getIntegerDataByLenLT (sb : StringBuf) (size : UInt32) : Option (Int × StringBuf × UInt64) :=
  getInteger orLowFirst sb size

/-- `buffer2Integer` with a byte order. -/
def buffer2Integer (buffer : Bytes) (isLittleEndian : Bool) : UInt64 :=
  if buffer.length > 8 then -1
  else if isLittleEndian = false then orHighFirst buffer
  else orLowFirst buffer

/-- Writing behind `addr() + position`, where the position is a signed integer. -/
def writeAt (sb : StringBuf) (position : UInt32) (bytes : Bytes) : Option (Int × StringBuf) :=
  -- A negative position leads in front of the block.
  if position.toNat ≥ 0x80000000 then none
  else do
    let written ← sb.buf.write position.toNat bytes
    some (0, { sb with buf := written })

/-- `set_integerDataByLen` at a position. -/
def setIntegerDataByLenAt (sb : StringBuf) (size : UInt32) (value : UInt64) (position : UInt32) :
    Option (Int × StringBuf) :=
  if position + size > sb.allocateLen then some (-1, sb)
  else writeAt sb position (highFirstBytes size.toNat value)

/-- `set_integerDataByLen_LT` at a position, which asks for one byte more. -/
def setIntegerDataByLenLTAt (sb : StringBuf) (size : UInt32) (value : UInt64) (position : UInt32) :
    Option (Int × StringBuf) :=
  if position + size ≥ sb.allocateLen then some (-1, sb)
  else writeAt sb position (lowFirstBytes size.toNat value)

/-- What both writers do: the answer of `reallocMem` is not looked at. -/
def setInteger (m : Allocator UInt8) (sb : StringBuf) (room size : UInt32)
    (writeInteger : StringBuf → UInt32 → Option (Int × StringBuf)) : Option (Int × StringBuf) := do
  let (_, sb) ← sb.reallocMem m room
  let (ret, sb) ← writeInteger sb sb.length
  if ret ≠ 0 then some (-1, sb) else some (0, { sb with length := sb.length + size })

/-- `set_integerDataByLen`. -/
def setIntegerDataByLen (m : Allocator UInt8) (sb : StringBuf) (size : UInt32) (value : UInt64) :
    Option (Int × StringBuf) :=
  setInteger m sb (sb.length + size) size fun sb position =>
    setIntegerDataByLenAt sb size value position

/-- `set_integerDataByLen_LT`. -/
def setIntegerDataByLenLT (m : Allocator UInt8) (sb : StringBuf) (size : UInt32) (value : UInt64) :
    Option (Int × StringBuf) :=
  setInteger m sb (sb.length + size + 1) size fun sb position =>
    setIntegerDataByLenLTAt sb size value position

end OneProxy.ProtocolPacket
