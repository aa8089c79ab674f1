import DeviceSession.Apdu.Builder
import DeviceSession.Command.AppInfo
import DeviceSession.Command.Basic

/-
  The commands that the device's dashboard understands.

  Key definitions include:
    * `OpenAppError`
    * `OpenAppError.table`
    * `Apdu.restartsLink`
    * `Command.openApp`
    * `Command.closeApp`
    * `Command.getApp`
-/

------------------------------------------------------------
-- Restarting Commands
------------------------------------------------------------

namespace DeviceSession

/-
  The commands that switch apps.  The device restarts its
  link after it has answered one of them.
-/
def Apdu.restartsLink (a : Apdu) : Bool :=
  ((a.cla == 0xe0 && a.ins == 0xd8) ||
    (a.cla == 0xb0 && a.ins == 0xa7)) &&
    a.p1 == 0 && a.p2 == 0

------------------------------------------------------------
-- Open App
------------------------------------------------------------

/- The causes that opening an app fails for. -/
inductive OpenAppError where
  | unknownApplicationName
  | noAppName
  | refusedByUser
  | deviceLocked
deriving DecidableEq

namespace OpenAppError

/- The name of the kind of an error. -/
def kind : OpenAppError → String
  | unknownApplicationName => "UnknownApplicationName"
  | noAppName => "NoAppName"
  | refusedByUser => "RefusedByUser"
  | deviceLocked => "DeviceLocked"

def message : OpenAppError → String
  | unknownApplicationName => "unknown application name"
  | noAppName => "no app name provided"
  | refusedByUser => "action refused on device"
  | deviceLocked => "device locked"

/- The status words of opening an app. -/
def table : ErrorTable OpenAppError :=
  fun sw =>
    if sw.code = 0x6807 then some unknownApplicationName
    else if sw.code = 0x670a then some noAppName
    else if sw.code = 0x6985 then some refusedByUser
    else if sw.code = 0x5501 then some refusedByUser
    else if sw.code = 0x5515 then some deviceLocked
    else none

end OpenAppError

namespace Command

/- Start the named app. -/
def openApp (name : String) :
    Except BuildError (Command OpenAppError Unit) := do
  let b := Builder.ofHeader 0xe0 0xd8 0 0
  let apdu ← (b.add (.ascii name)).build
  return {
    apdu
    restartsLink := true
    parse := expectSuccess OpenAppError.table }

------------------------------------------------------------
-- Close App
------------------------------------------------------------

/- Leave the running app for the dashboard. -/
def closeApp : Command Empty Unit where
  apdu := .ofHeader 0xb0 0xa7 0 0
  restartsLink := true
  parse := expectSuccess ErrorTable.empty

------------------------------------------------------------
-- Get App
------------------------------------------------------------

/- Ask which app is running. -/
def getApp : Command Empty AppInfo where
  apdu := .ofHeader 0xb0 0x01 0 0
  restartsLink := false
  parse := fun r => do
    expectSuccess ErrorTable.empty r
    match AppInfo.parse r.data with
    | .ok info => return info
    | .error e => .error (.invalidResponse e)

end Command

end DeviceSession
