/-
  Bytes as pairs of hexadecimal digits.

  Text is written in lower case and read in either case.

  Key definitions include:
    * `Hex.digit`
    * `Hex.nibble?`
    * `Hex.encode`
    * `Hex.decode?`
    * `Hex.decodeMarked?`
    * `Hex.word16`
-/

------------------------------------------------------------
-- Digits
------------------------------------------------------------

namespace DeviceSession

namespace Hex

/- The lower-case digit of a value below sixteen. -/
def digit (n : Nat) : Char :=
  if n < 10 then Char.ofNat (48 + n)
  else Char.ofNat (87 + n)

/- The value of a digit of either case. -/
def nibble? (c : Char) : Option Nat :=
  let n := c.toNat
  if 48 ≤ n ∧ n ≤ 57 then some (n - 48)
  else if 97 ≤ n ∧ n ≤ 102 then some (n - 87)
  else if 65 ≤ n ∧ n ≤ 70 then some (n - 55)
  else none

------------------------------------------------------------
-- Bytes
------------------------------------------------------------

/- The two digits of a byte. -/
def digits (b : UInt8) : List Char :=
  [digit (b.toNat / 16), digit (b.toNat % 16)]

/- The digits of a byte string. -/
def chars (bytes : List UInt8) : List Char :=
  bytes.flatMap digits

/- The text of a byte string: two digits for each byte. -/
def encode (bytes : List UInt8) : String :=
  String.ofList (chars bytes)

/-
  The bytes that a run of digits stands for.  Digits come
  in pairs: an odd one out, or a character that is no
  digit, refuses the whole run.
-/
def decode? : List Char → Option (List UInt8)
  | [] => some []
  | [_] => none
  | hi :: lo :: rest => do
      let h ← nibble? hi
      let l ← nibble? lo
      let bytes ← decode? rest
      return UInt8.ofNat (h * 16 + l) :: bytes

/- As `decode?`, after at most one leading `0x`. -/
def decodeMarked? : List Char → Option (List UInt8)
  | '0' :: 'x' :: rest => decode? rest
  | text => decode? text

------------------------------------------------------------
-- Words
------------------------------------------------------------

/- The two digits of a byte, as text. -/
def word8 (w : UInt8) : String :=
  encode [w]

/- The four digits of a 16-bit word, as text. -/
def word16 (w : UInt16) : String :=
  encode
    [UInt8.ofNat (w.toNat / 256), UInt8.ofNat w.toNat]

end Hex

end DeviceSession
