import OneProxy.Protocol.ProtocolPacket

/-! `ProtocolPacket`: the strings of a packet, two bytes a character, behind their length. -/

namespace OneProxy

open Memory

namespace Tool

/-- The two bytes `string2byte` makes of a `char`: the second is filled with its sign. -/
def charBytes (ch : UInt8) : Bytes := [ch, if ch < 128 then 0 else 0xff]

/-- The two bytes `wstring2byte` makes of a `wchar_t`. -/
def wcharBytes (ch : UInt32) : Bytes := [(ch &&& 0xff).toUInt8, ((ch >>> 8) &&& 0xff).toUInt8]

/-- What both do with the bytes: they are written behind those the buffer holds. -/
def putBytes (m : Allocator UInt8) (data : Bytes) (bdata : StringBuf) : Option StringBuf := do
  let (_, bdata) ← bdata.reallocMem m (bdata.length + UInt32.ofNat data.length)
  let written ← bdata.buf.write bdata.length.toNat data
  some { bdata with buf := written, length := bdata.length + UInt32.ofNat data.length }

/-- `string2byte`. -/
def string2byte (m : Allocator UInt8) (str : Bytes) (bdata : StringBuf) : Option StringBuf :=
  putBytes m (str.flatMap charBytes) bdata

/-- `wstring2byte`. -/
def wstring2byte (m : Allocator UInt8) (wstr : List UInt32) (bdata : StringBuf) :
    Option StringBuf :=
  putBytes m (wstr.flatMap wcharBytes) bdata

/-- The loop of `byte2string`: of every two bytes the first is the character. -/
def ofCharBytes : Bytes → Bytes
  | low :: high :: rest => (low.toUInt32 ||| high.toUInt32 <<< 8).toUInt8 :: ofCharBytes rest
  | _ => []

/-- The loop of `byte2wstring`. -/
def ofWcharBytes : Bytes → List UInt32
  | low :: high :: rest => (low.toUInt32 ||| high.toUInt32 <<< 8) :: ofWcharBytes rest
  | _ => []

/-- `byte2string`: the characters are put in front of those the string has. -/
def byte2string (bdata : Bytes) (str : Bytes) : Int × Bytes :=
  if bdata.length ≤ 0 then (0, str)
  else if bdata.length % 2 ≠ 0 then (-1, str)
  else (0, ofCharBytes bdata ++ str)

/-- `byte2wstring`. -/
def byte2wstring (bdata : Bytes) (wstr : List UInt32) : Int × List UInt32 :=
  if bdata.length % 2 ≠ 0 then (-1, wstr)
  else (0, ofWcharBytes bdata ++ wstr)

end Tool

namespace ProtocolPacket

/-- `get_dataByLen`, which also refuses a null buffer when no byte is asked for. -/
def getDataByLen (sb : StringBuf) (buf : Block UInt8) (len : UInt32) :
    Option (Int × StringBuf × Block UInt8) :=
  if sb.length - sb.offset < len then some (-1, sb, buf)
  else if buf.isNone then some (-1, sb, buf)
  else do
    let data ← sb.buf.read sb.offset.toNat len.toNat
    let buf ← buf.write 0 data
    some (0, sb.setOffset (sb.offset + len), buf)

/-- `length()`, an `int`, as the 64-bit value that is written. -/
def ofLength (n : Nat) : UInt64 := UInt64.ofBitVec ((BitVec.ofNat 32 n).signExtend 64)

/-- What all writers do: the length in front, and behind it the bytes. -/
def setUnicode (m : Allocator UInt8) (sb : StringBuf) (size : UInt32) (n : Nat)
    (tbuf : Option StringBuf) : Option (Int × StringBuf) := do
  let tbuf ← tbuf
  let (ret, sb) ← setIntegerDataByLenLT m sb size (ofLength n)
  if ret ≠ 0 then some (-1, sb)
  else do
    let data ← tbuf.buf.read tbuf.offset.toNat tbuf.remailLength.toNat
    let sb ← sb.append m data
    some (0, sb)

/-- `set_stringUnicode1BLen`. -/
def setStringUnicode1BLen (m : Allocator UInt8) (sb : StringBuf) (desStr : Bytes) :
    Option (Int × StringBuf) :=
  setUnicode m sb 1 desStr.length (Tool.string2byte m desStr .new)

/-- `set_stringUnicode2BLen`. -/
def setStringUnicode2BLen (m : Allocator UInt8) (sb : StringBuf) (desStr : Bytes) :
    Option (Int × StringBuf) :=
  setUnicode m sb 2 desStr.length (Tool.string2byte m desStr .new)

/-- `set_wstringUnicode2BLen`. -/
def setWstringUnicode2BLen (m : Allocator UInt8) (sb : StringBuf) (desStr : List UInt32) :
    Option (Int × StringBuf) :=
  setUnicode m sb 2 desStr.length (Tool.wstring2byte m desStr .new)

variable {α : Type}

/--
What all readers do once they have the number of bytes: these go through a buffer of their own.
-/
def getUnicode (m : Allocator UInt8) (convert : Bytes → List α → Int × List α) (sb : StringBuf)
    (tlen : UInt32) (desStr : List α) : Option (Int × StringBuf × List α) := do
  let (ret, tbuf) ← StringBuf.new.reallocMem m tlen
  if ret ≠ 0 then some (-1, sb, desStr)
  else do
    let (ret, sb, buf) ← getDataByLen sb tbuf.buf tlen
    if ret ≠ 0 then some (-1, sb, desStr)
    else do
      let bdata ← buf.read 0 tlen.toNat
      let (ret, desStr) := convert bdata desStr
      if ret ≠ 0 then some (-1, sb, desStr) else some (0, sb, desStr)

/-- `get_unicodeString1BLen`: the length is doubled in a byte. -/
def getUnicodeString1BLen (m : Allocator UInt8) (sb : StringBuf) (desStr : Bytes) :
    Option (Int × StringBuf × Bytes) := do
  let (ret, sb, tmpvalue) ← getIntegerDataByLenLT sb 1
  if ret ≠ 0 then some (-1, sb, desStr)
  else
    let tlen := tmpvalue.toUInt8 * 2
    if tlen ≤ 0 then some (0, sb, desStr)
    else if tlen.toUInt32 > sb.remailLength then some (-1, sb, desStr)
    else getUnicode m Tool.byte2string sb tlen.toUInt32 desStr

/-- What both readers of a two-byte length do, which is doubled in two bytes. -/
def getUnicode2BLen (m : Allocator UInt8) (convert : Bytes → List α → Int × List α)
    (sb : StringBuf) (desStr : List α) : Option (Int × StringBuf × List α) := do
  let (ret, sb, tmpvalue) ← getIntegerDataByLenLT sb 2
  if ret ≠ 0 then some (-1, sb, desStr)
  else
    let tlen := tmpvalue.toUInt16 * 2
    if tlen.toUInt32 > sb.length - sb.offset then some (-1, sb, desStr)
    else getUnicode m convert sb tlen.toUInt32 desStr

/-- `get_unicodeString2BLen`. -/
def getUnicodeString2BLen (m : Allocator UInt8) (sb : StringBuf) (desStr : Bytes) :
    Option (Int × StringBuf × Bytes) :=
  getUnicode2BLen m Tool.byte2string sb desStr

/-- `get_unicodeWString2BLen`. -/
def getUnicodeWString2BLen (m : Allocator UInt8) (sb : StringBuf) (desWStr : List UInt32) :
    Option (Int × StringBuf × List UInt32) :=
  getUnicode2BLen m Tool.byte2wstring sb desWStr

end ProtocolPacket

end OneProxy
