/-
  The lexemes of a JSON text.

  A text is scanned character by character.  A string is
  kept with its content where that makes sense: an escaped
  half of a surrogate pair stands for no character.  Of
  numbers only the natural ones without sign, fraction and
  exponent are kept.

  Key definitions include:
    * `Json.Lexeme`
    * `Json.Mode`
    * `Json.Scan`
    * `Json.Scan.next`
    * `Json.lexemes?`
-/

------------------------------------------------------------
-- Lexemes
------------------------------------------------------------

namespace DeviceSession

namespace Json

inductive Lexeme where
  | openObject
  | closeObject
  | openArray
  | closeArray
  | colon
  | comma
  /- A string, with its content if it is text. -/
  | string (content : Option String)
  /- A number, with its value if it is a plain natural. -/
  | number (value : Option Nat)
  /- One of `true`, `false` and `null`. -/
  | word
deriving DecidableEq

------------------------------------------------------------
-- Scanner Modes
------------------------------------------------------------

/- Where in a number a scan is. -/
inductive NumberPart where
  /- After the minus sign. -/
  | sign
  /- After a leading zero. -/
  | zero
  /- Among the digits before any point. -/
  | digits
  /- After the point. -/
  | point
  /- Among the digits after the point. -/
  | fraction
  /- After the exponent mark. -/
  | mark
  /- After the sign of the exponent. -/
  | markSign
  /- Among the digits of the exponent. -/
  | exponent
deriving DecidableEq

/- The content of a string so far. -/
structure Content where
  /- The characters, last first; none if it is no text. -/
  chars : Option (List Char) := some []
  /- A first surrogate half that waits for its second. -/
  half : Option Nat := none
deriving DecidableEq

/- Where in a text a scan is. -/
inductive Mode where
  /- Between lexemes. -/
  | between
  /- In a string. -/
  | string (content : Content)
  /- After a backslash in a string. -/
  | escape (content : Content)
  /- In an escaped code: digits left, and value so far. -/
  | code (content : Content) (left value : Nat)
  /- In a number: its value so far, if it is natural. -/
  | number (part : NumberPart) (value : Option Nat)
  /- In a word of which these characters are to come. -/
  | word (left : List Char)
deriving DecidableEq

namespace Content

/- Add a character, which no surrogate half may precede. -/
def push (x : Content) (c : Char) : Content :=
  match x.half with
  | none => { x with chars := x.chars.map (c :: ·) }
  | some _ => { chars := none }

/- Add an escaped code, which may be a surrogate half. -/
def pushCode (x : Content) (n : Nat) : Content :=
  match x.half with
  | some high =>
      if 0xDC00 ≤ n ∧ n < 0xE000 then
        let c := Char.ofNat
          (0x10000 + (high - 0xD800) * 1024 + (n - 0xDC00))
        { chars := x.chars.map (c :: ·) }
      else
        { chars := none }
  | none =>
      if 0xD800 ≤ n ∧ n < 0xDC00 then
        { x with half := some n }
      else if 0xDC00 ≤ n ∧ n < 0xE000 then
        { chars := none }
      else
        x.push (Char.ofNat n)

/- The text of a finished string. -/
def finish (x : Content) : Option String :=
  match x.half with
  | none => x.chars.map fun cs => String.ofList cs.reverse
  | some _ => none

end Content

------------------------------------------------------------
-- Scanning
------------------------------------------------------------

/- A scan: the lexemes so far, and the mode. -/
structure Scan where
  lexemes : Array Lexeme := #[]
  mode : Mode := .between

/- The value of a decimal digit. -/
def digit? (c : Char) : Option Nat :=
  if '0' ≤ c ∧ c ≤ '9' then some (c.toNat - 48) else none

/- The value of a hexadecimal digit. -/
def hexDigit? (c : Char) : Option Nat :=
  if '0' ≤ c ∧ c ≤ '9' then some (c.toNat - 48)
  else if 'a' ≤ c ∧ c ≤ 'f' then some (c.toNat - 87)
  else if 'A' ≤ c ∧ c ≤ 'F' then some (c.toNat - 55)
  else none

namespace Scan

/- Add a lexeme, and go on between lexemes. -/
def emit (s : Scan) (t : Lexeme) : Scan :=
  { lexemes := s.lexemes.push t, mode := .between }

def goto (s : Scan) (m : Mode) : Scan :=
  { s with mode := m }

/- The first character of a lexeme, or white space. -/
def start (s : Scan) (c : Char) : Option Scan :=
  match c with
  | ' ' | '\t' | '\n' | '\r' => some (s.goto .between)
  | '\x7b' => some (s.emit .openObject)
  | '\x7d' => some (s.emit .closeObject)
  | '[' => some (s.emit .openArray)
  | ']' => some (s.emit .closeArray)
  | ':' => some (s.emit .colon)
  | ',' => some (s.emit .comma)
  | '"' => some (s.goto (.string {}))
  | 't' => some (s.goto (.word ['r', 'u', 'e']))
  | 'f' => some (s.goto (.word ['a', 'l', 's', 'e']))
  | 'n' => some (s.goto (.word ['u', 'l', 'l']))
  | '-' => some (s.goto (.number .sign none))
  | '0' => some (s.goto (.number .zero (some 0)))
  | _ => do
      let d ← digit? c
      return s.goto (.number .digits (some d))

/- Whether a number may end where it is. -/
def complete : NumberPart → Bool
  | .zero | .digits | .fraction | .exponent => true
  | _ => false

/-
  One more character of a number; none if the number does
  not go on with it.
-/
def numberNext
    (part : NumberPart)
    (value : Option Nat)
    (c : Char) : Option (NumberPart × Option Nat) :=
  match part, digit? c with
  | .sign, some 0 => some (.zero, none)
  | .sign, some _ => some (.digits, none)
  | .digits, some d =>
      some (.digits, value.map fun n => n * 10 + d)
  | .point, some _ => some (.fraction, none)
  | .fraction, some _ => some (.fraction, none)
  | .mark, some _ => some (.exponent, none)
  | .markSign, some _ => some (.exponent, none)
  | .exponent, some _ => some (.exponent, none)
  | _, _ =>
      let whole := part == .zero || part == .digits
      let marks := c == 'e' || c == 'E'
      let signs := c == '+' || c == '-'
      if whole && c == '.' then some (.point, none)
      else if (whole || part == .fraction) && marks then
        some (.mark, none)
      else if part == .mark && signs then
        some (.markSign, none)
      else none

/- The character that a one-letter escape stands for. -/
def escaped? : Char → Option Char
  | '"' => some '"'
  | '\\' => some '\\'
  | '/' => some '/'
  | 'b' => some '\x08'
  | 'f' => some '\x0c'
  | 'n' => some '\n'
  | 'r' => some '\r'
  | 't' => some '\t'
  | _ => none

/- Take in one character. -/
def next (s : Scan) (c : Char) : Option Scan :=
  match s.mode with
  | .between => s.start c
  | .string x =>
      if c = '"' then some (s.emit (.string x.finish))
      else if c = '\\' then some (s.goto (.escape x))
      else if c.toNat < 32 then none
      else some (s.goto (.string (x.push c)))
  | .escape x =>
      if c = 'u' then some (s.goto (.code x 4 0))
      else do
        let e ← escaped? c
        return s.goto (.string (x.push e))
  | .code x left value => do
      let d ← hexDigit? c
      let value := value * 16 + d
      if left ≤ 1 then
        return s.goto (.string (x.pushCode value))
      else
        return s.goto (.code x (left - 1) value)
  | .number part value =>
      match numberNext part value c with
      | some (part', value') =>
          some (s.goto (.number part' value'))
      | none =>
          if complete part && (digit? c).isNone then
            (s.emit (.number value)).start c
          else none
  | .word [] => none
  | .word [last] =>
      if c = last then some (s.emit .word) else none
  | .word (expected :: left) =>
      if c = expected then some (s.goto (.word left))
      else none

/- The lexemes, if the text may end here. -/
def finish (s : Scan) : Option (List Lexeme) :=
  match s.mode with
  | .between => some s.lexemes.toList
  | .number part value =>
      if complete part then
        some (s.emit (.number value)).lexemes.toList
      else none
  | _ => none

end Scan

/- The lexemes of a text; none if it breaks the grammar. -/
def lexemes? (text : String) : Option (List Lexeme) := do
  let s ← text.toList.foldlM Scan.next {}
  s.finish

end Json

end DeviceSession
