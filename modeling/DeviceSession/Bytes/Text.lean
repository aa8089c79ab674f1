/-
  Text on the wire.

  Names travel as the bytes of their text.  A reader of
  such bytes has two lenient views of them: one byte at a
  time, for fields that should be ASCII, and as UTF-8.
  Both put the replacement character where the bytes make
  no sense.

  Key definitions include:
    * `Text.IsAscii`
    * `Text.utf8`
    * `Text.ofAsciiLossy`
    * `Text.ofUtf8Lossy`
-/

------------------------------------------------------------
-- Writing Text
------------------------------------------------------------

namespace DeviceSession

namespace Text

/- Every character is one of the first 128. -/
def IsAscii (s : String) : Prop :=
  ∀ c ∈ s.toList, c.toNat < 128

instance (s : String) : Decidable (IsAscii s) :=
  List.decidableBAll (fun c : Char => c.toNat < 128) _

/- The bytes of a text. -/
def utf8 (s : String) : List UInt8 :=
  s.toList.flatMap String.utf8EncodeChar

------------------------------------------------------------
-- Reading ASCII
------------------------------------------------------------

/- What stands for bytes that are no text. -/
def replacement : Char :=
  '\uFFFD'

/- One character for each byte. -/
def ofAsciiLossy (bytes : List UInt8) : String :=
  String.ofList
    (bytes.map fun b =>
      if b.toNat < 128 then Char.ofNat b.toNat
      else replacement)

------------------------------------------------------------
-- Reading UTF-8
------------------------------------------------------------

/- A byte that continues a character. -/
def isContinuation (b : UInt8) : Bool :=
  128 ≤ b.toNat && b.toNat < 192

/-
  The bytes that may follow a lead byte: they rule out
  over-long forms, surrogates and values above the last
  code point.
-/
def followsLead (lead next : UInt8) : Bool :=
  let n := next.toNat
  match lead.toNat with
  | 224 => 160 ≤ n && n < 192
  | 237 => 128 ≤ n && n < 160
  | 240 => 144 ≤ n && n < 192
  | 244 => 128 ≤ n && n < 144
  | _ => isContinuation next

/- How many continuation bytes a lead byte asks for. -/
def continuations? (lead : UInt8) : Option Nat :=
  let n := lead.toNat
  if n < 128 then some 0
  else if 194 ≤ n ∧ n < 224 then some 1
  else if 224 ≤ n ∧ n < 240 then some 2
  else if 240 ≤ n ∧ n < 245 then some 3
  else none

/- The payload bits of a lead byte. -/
def leadBits (lead : UInt8) : Nat :=
  let n := lead.toNat
  if n < 128 then n
  else if n < 224 then n % 32
  else if n < 240 then n % 16
  else n % 8

/-
  Read the continuation bytes of a character: `need` more,
  on top of the bits read so far.  The first of them obeys
  `followsLead`.  Returns the character, or the replacement
  character when the bytes break off, with the number of
  continuation bytes used.
-/
def continueChar
    (lead : UInt8)
    (first : Bool)
    (bits : Nat)
    (used : Nat) :
    Nat → List UInt8 → Char × Nat
  | 0, _ => (Char.ofNat bits, used)
  | _ + 1, [] => (replacement, used)
  | need + 1, b :: rest =>
      let fits :=
        if first then followsLead lead b
        else isContinuation b
      if fits then
        continueChar lead false
          (bits * 64 + b.toNat % 64) (used + 1) need rest
      else
        (replacement, used)

/-
  The first character of a byte string, with the number of
  bytes after its lead byte that it takes.
-/
def nextChar (lead : UInt8) (rest : List UInt8) :
    Char × Nat :=
  match continuations? lead with
  | none => (replacement, 0)
  | some need =>
      continueChar lead true (leadBits lead) 0 need rest

/- The characters of a byte string, `skip` bytes on. -/
def lossyChars : Nat → List UInt8 → List Char
  | _, [] => []
  | skip + 1, _ :: rest => lossyChars skip rest
  | 0, b :: rest =>
      let (c, used) := nextChar b rest
      c :: lossyChars used rest

/-
  The text of a byte string.  Each longest beginning of a
  character that breaks off, and each byte that starts
  none, becomes one replacement character.
-/
def ofUtf8Lossy (bytes : List UInt8) : String :=
  String.ofList (lossyChars 0 bytes)

end Text

end DeviceSession
