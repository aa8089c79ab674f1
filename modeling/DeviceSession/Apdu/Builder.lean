import DeviceSession.Apdu.Basic
import DeviceSession.Bytes.Counted
import DeviceSession.Bytes.Text

/-
  Commands put together field by field.

  A field that is invalid or does not fit is left out as a
  whole and its error is recorded, so later fields that fit
  are still taken.  Building reports the first error.

  Key definitions include:
    * `Field`
    * `Field.encode`
    * `Builder`
    * `Builder.ofHeader`
    * `Builder.available`
    * `Builder.add`
    * `Builder.build`
-/

------------------------------------------------------------
-- Fields
------------------------------------------------------------

namespace DeviceSession

/-
  One typed piece of a payload.  Words are big-endian, and
  the fields that start with `lv` are preceded by one byte
  that counts them.
-/
inductive Field where
  | u8 (value : UInt8)
  | u16 (value : UInt16)
  | u32 (value : UInt32)
  | bytes (value : List UInt8)
  | ascii (value : String)
  | hex (value : String)
  | lvBytes (value : List UInt8)
  | lvAscii (value : String)
  | lvHex (value : String)
deriving DecidableEq

namespace Field

/- The bytes of a text, if all of it is ASCII. -/
def asciiBytes (s : String) :
    Except BuildError (List UInt8) :=
  if Text.IsAscii s then
    .ok (Text.utf8 s)
  else
    .error .notAscii

/- The bytes that a text of hex digits stands for. -/
def hexBytes (s : String) :
    Except BuildError (List UInt8) :=
  match Hex.decodeMarked? s.toList with
  | some bs => .ok bs
  | none => .error .invalidHex

/-
  The bytes of a field, if its text is valid.  A counted
  field of more than 255 bytes has a length byte that is
  cut off, but then it is too long for every payload.
-/
def encode : Field → Except BuildError (List UInt8)
  | u8 v => .ok [v]
  | u16 v => .ok (Word.bytes16 v)
  | u32 v => .ok (Word.bytes32 v)
  | bytes bs => .ok bs
  | ascii s => asciiBytes s
  | hex s => hexBytes s
  | lvBytes bs => .ok (counted bs)
  | lvAscii s => (asciiBytes s).map counted
  | lvHex s => (hexBytes s).map counted

end Field

------------------------------------------------------------
-- Builders
------------------------------------------------------------

/- A command being put together, and what was refused. -/
structure Builder where
  apdu : Apdu
  errors : List BuildError := []

namespace Builder

/- Start with a command without a payload. -/
def ofHeader (cla ins p1 p2 : UInt8) : Builder :=
  { apdu := Apdu.ofHeader cla ins p1 p2 }

/- The bytes still free in the payload. -/
def available (b : Builder) : Nat :=
  maxPayload - b.apdu.data.length

/- Note an error; the payload stays as it is. -/
def refuse (b : Builder) (e : BuildError) : Builder :=
  { b with errors := b.errors ++ [e] }

/- Append bytes that fit, and refuse those that do not. -/
def push (b : Builder) (bytes : List UInt8) : Builder :=
  if h : bytes.length ≤ b.available then
    { b with
      apdu :=
        { b.apdu with
          data := b.apdu.data ++ bytes
          data_le := by
            have := b.apdu.data_le
            simp only [available, List.length_append] at *
            omega } }
  else
    b.refuse (.dataOverflow bytes.length b.available)

/- Append a field. -/
def add (b : Builder) (f : Field) : Builder :=
  match f.encode with
  | .ok bytes => b.push bytes
  | .error e => b.refuse e

/- Append fields in order. -/
def addAll (b : Builder) (fs : List Field) : Builder :=
  fs.foldl add b

/- The command, unless a field was refused. -/
def build (b : Builder) : Except BuildError Apdu :=
  match b.errors with
  | [] => .ok b.apdu
  | e :: _ => .error e

end Builder

end DeviceSession
