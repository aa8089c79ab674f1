/-
  What can go wrong when a command is put together and when
  the fields of a response are read.

  Key definitions include:
    * `BuildError`
    * `BuildError.kind`
    * `BuildError.message`
    * `ShortRead`
    * `ShortRead.message`
-/

------------------------------------------------------------
-- Building
------------------------------------------------------------

namespace DeviceSession

/- Why a command was refused. -/
inductive BuildError where
  /- The payload has room for `available` bytes only. -/
  | dataOverflow (needed available : Nat)
  /- A text is not an even number of hex digits. -/
  | invalidHex
  /- A text has a character outside ASCII. -/
  | notAscii
deriving DecidableEq

/- The name of the kind of an error. -/
def BuildError.kind : BuildError → String
  | .dataOverflow .. => "DataOverflow"
  | .invalidHex => "InvalidHex"
  | .notAscii => "NotAscii"

def BuildError.message : BuildError → String
  | .dataOverflow needed available =>
      s!"data overflow: {needed} bytes needed, {available} available"
  | .invalidHex => "invalid hex string"
  | .notAscii => "string is not ASCII"

------------------------------------------------------------
-- Reading
------------------------------------------------------------

/-
  A read that ran past the end of the data: `wanted` bytes
  were asked for at `offset`.
-/
structure ShortRead where
  offset : Nat
  wanted : Nat
deriving DecidableEq

def ShortRead.message (e : ShortRead) : String :=
  s!"missing field: {e.wanted} bytes wanted at offset {e.offset}"

end DeviceSession
