import DeviceSession.Command.Dashboard

/-
  Why an action on the dashboard failed.

  Key definitions include:
    * `OsError`
    * `OsError.kind`
    * `OsError.message`
    * `OsError.ofOpenApp`
    * `OsError.ofCommand`
-/

------------------------------------------------------------
-- Dashboard Errors
------------------------------------------------------------

namespace DeviceSession

inductive OsError where
  /- Opening an app failed for a named cause. -/
  | openApp (e : OpenAppError)
  /- The device gave a status word without a name. -/
  | unknownExchange (status : StatusWord)
  /- A response lacks a field. -/
  | invalidResponse (e : ShortRead)
  /- A command was not answered. -/
  | connection (e : ConnectionError)
  /- The named app keeps running, however often closed. -/
  | stillInApp (name : String)
  /- The device was not unlocked in time. -/
  | deviceLocked
deriving DecidableEq

namespace OsError

/- The name of the kind of an error. -/
def kind : OsError → String
  | openApp .. => "OpenApp"
  | unknownExchange .. => "UnknownDeviceExchange"
  | invalidResponse .. => "InvalidResponse"
  | connection .. => "Connection"
  | stillInApp .. => "StillInApp"
  | deviceLocked => "DeviceLocked"

def message : OsError → String
  | openApp e => "open app: " ++ e.message
  | unknownExchange status =>
      "unknown device exchange error " ++ status.text
  | invalidResponse e => "invalid response: " ++ e.message
  | connection e => e.message
  | stillInApp name => "device still running " ++ name
  | deviceLocked => "device still locked"

/- The failure of a command, given its named causes. -/
def ofFailure
    {E : Type}
    (named : E → OsError) :
    CommandError E → OsError
  | .device e => named e
  | .unknownExchange status => unknownExchange status
  | .invalidResponse e => invalidResponse e
  | .connection e => connection e

/- The failure of opening an app. -/
def ofOpenApp : CommandError OpenAppError → OsError :=
  ofFailure openApp

/- The failure of a command without named causes. -/
def ofCommand : CommandError Empty → OsError :=
  ofFailure fun e => nomatch e

end OsError

end DeviceSession
