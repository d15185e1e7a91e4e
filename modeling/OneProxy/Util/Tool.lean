import OneProxy.Util.StringBuf

/-! The 32-bit string hash, and the formatting of strings and numbers. -/

namespace OneProxy.Tool

/-- A `char` in an integer expression: sign-extended. -/
def ofChar (c : UInt8) : UInt32 := if c < 128 then c.toUInt32 else c.toUInt32 + 0xffffff00

/-- The macro `tolower`: an upper-case letter in lower case. -/
def tolower (x : UInt32) : UInt32 := if 65 ≤ x ∧ x ≤ 90 then x - 65 + 97 else x

/-- The macro `get16bits` of the two numbers it is expanded to. -/
def get16bits (x y : UInt32) : UInt32 := 256 * tolower x + tolower y

/-- The main loop over groups of four, and the end cases for what is left. -/
def hashLoop (hash : UInt32) : Bytes → UInt32
  | a :: b :: _ :: d :: rest =>
    let hash := hash + get16bits (ofChar a) (ofChar b)
    -- `get16bits (data+2)` reads `*data+2`, which is not the third character but the first plus
    -- two.
    let tmp := (get16bits (ofChar a + 2) (ofChar d) <<< 11) ^^^ hash
    let hash := (hash <<< 16) ^^^ tmp
    hashLoop (hash + (hash >>> 11)) rest
  | [a, b, c] =>
    let hash := hash + get16bits (ofChar a) (ofChar b)
    let hash := hash ^^^ (hash <<< 16)
    let hash := hash ^^^ (tolower (ofChar c) <<< 18)
    hash + (hash >>> 11)
  | [a, b] =>
    let hash := hash + get16bits (ofChar a) (ofChar b)
    let hash := hash ^^^ (hash <<< 11)
    hash + (hash >>> 17)
  | [a] =>
    let hash := hash + tolower (ofChar a)
    let hash := hash ^^^ (hash <<< 10)
    hash + (hash >>> 1)
  | [] => hash

/-- The final mixing of the bits. -/
def avalanche (hash : UInt32) : UInt32 :=
  let hash := hash ^^^ (hash <<< 3)
  let hash := hash + (hash >>> 5)
  let hash := hash ^^^ (hash <<< 4)
  let hash := hash + (hash >>> 17)
  let hash := hash ^^^ (hash <<< 25)
  hash + (hash >>> 6)

/-- `quick_hash_code`, whose length is a signed 32-bit number. -/
def quickHashCode (data : Bytes) : UInt32 :=
  let tlen := data.length % 0x100000000
  if tlen = 0 ∨ 0x80000000 ≤ tlen then 0
  else avalanche (hashLoop (UInt32.ofNat tlen) (data.take tlen))

/-- What `%s` prints of a string: its characters before the first NUL. -/
def cStr (s : Bytes) : Bytes := s.takeWhile (· ≠ 0)

/-- The digits of a number. -/
def digits (n : Nat) : Bytes := (Nat.toDigits 10 n).map fun digit => UInt8.ofNat digit.toNat

/-- What `%d` prints of a 32-bit word. -/
def decimal (x : UInt32) : Bytes :=
  if x < 0x80000000 then digits x.toNat else 45 :: digits (0x100000000 - x.toNat)

/-- `quick_conn_hash_code`. -/
def quickConnHashCode (caddr : Bytes) (cport : UInt32) (saddr : Bytes) (sport : UInt32)
    (connTime : UInt64) : UInt32 :=
  quickHashCode (caddr ++ decimal cport ++ saddr ++ decimal sport ++ digits connTime.toNat)

end OneProxy.Tool
