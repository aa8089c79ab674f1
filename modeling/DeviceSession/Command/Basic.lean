import DeviceSession.Apdu.Basic
import DeviceSession.Connection.Error

/-
  Typed commands.

  A command is sent as an APDU and reads its result out of
  the response.  Status words other than success are looked
  up in the command's own table.

  Key definitions include:
    * `RequestOptions`
    * `ErrorTable`
    * `CommandError`
    * `CommandError.kind`
    * `CommandError.message`
    * `expectSuccess`
    * `Answer`
    * `Command`
    * `Command.settle`
-/

------------------------------------------------------------
-- Options
------------------------------------------------------------

namespace DeviceSession

/- What may be set for one request. -/
structure RequestOptions where
  /- A bound on the exchange, instead of the default. -/
  timeout : Option Nat := none
  /- The device restarts its link after answering. -/
  restartsLink : Bool := false
deriving DecidableEq

------------------------------------------------------------
-- Command Errors
------------------------------------------------------------

/- The status words that a command has a name for. -/
abbrev ErrorTable (E : Type) :=
  StatusWord → Option E

/- The table that names no status word. -/
def ErrorTable.empty : ErrorTable Empty :=
  fun _ => none

/- Why a command failed, with named causes in `E`. -/
inductive CommandError (E : Type) where
  /- The device gave a cause that the table names. -/
  | device (e : E)
  /- The device gave a status word without a name. -/
  | unknownExchange (status : StatusWord)
  /- The response lacks a field. -/
  | invalidResponse (e : ShortRead)
  /- There was no response. -/
  | connection (e : ConnectionError)
deriving DecidableEq

/- The name of the kind of an error. -/
def CommandError.kind {E : Type} : CommandError E → String
  | .device _ => "Device"
  | .unknownExchange _ => "UnknownDeviceExchange"
  | .invalidResponse _ => "InvalidResponse"
  | .connection _ => "Connection"

/- The text of an error, given the texts of the causes. -/
def CommandError.message
    {E : Type}
    (text : E → String) :
    CommandError E → String
  | .device e => "device: " ++ text e
  | .unknownExchange status =>
      "unknown device exchange error " ++ status.text
  | .invalidResponse e => "invalid response: " ++ e.message
  | .connection e => e.message

/- Pass on success, and name any other status word. -/
def expectSuccess
    {E : Type}
    (table : ErrorTable E)
    (r : Response) :
    Except (CommandError E) Unit :=
  if r.isSuccess then .ok ()
  else
    match table r.status with
    | some e => .error (.device e)
    | none => .error (.unknownExchange r.status)

------------------------------------------------------------
-- Commands
------------------------------------------------------------

/- What becomes of an APDU that is handed in. -/
abbrev Answer :=
  Except ConnectionError Response

/- A command with results in `R` and causes in `E`. -/
structure Command (E R : Type) where
  apdu : Apdu
  restartsLink : Bool
  parse : Response → Except (CommandError E) R

namespace Command

variable {E R : Type}

/- The options that the command is sent with. -/
def options (c : Command E R) : RequestOptions :=
  { restartsLink := c.restartsLink }

/- The result of a command, given what became of it. -/
def settle (c : Command E R) :
    Answer → Except (CommandError E) R
  | .ok r => c.parse r
  | .error e => .error (.connection e)

end Command

end DeviceSession
