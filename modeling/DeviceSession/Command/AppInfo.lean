import DeviceSession.Apdu.Reader
import DeviceSession.Bytes.Counted
import DeviceSession.Bytes.Text

/-
  The description of the running app.

      format = 1, name, version, flags

  The last three are counted, and flags may be absent.

  Key definitions include:
    * `AppInfo`
    * `AppInfo.isDashboard`
    * `AppInfo.encode`
    * `AppInfo.parse`
-/

------------------------------------------------------------
-- App Descriptions
------------------------------------------------------------

namespace DeviceSession

structure AppInfo where
  name : String
  version : String
  /- Older devices do not report flags. -/
  flags : Option (List UInt8) := none
deriving DecidableEq

namespace AppInfo

/- The name that the device reports on its dashboard. -/
def dashboardName : String :=
  "BOLOS"

def isDashboard (x : AppInfo) : Bool :=
  x.name == dashboardName

/- The payload in which a device describes an app. -/
def encode (x : AppInfo) : List UInt8 :=
  0x01 :: counted (Text.utf8 x.name) ++
    counted (Text.utf8 x.version) ++
    x.flags.elim [] counted

/- Read a description; the format byte is not looked at. -/
def parse (payload : List UInt8) :
    Except ShortRead AppInfo := do
  let (_, r) ← (Reader.ofBytes payload).u8
  let (name, r) ← r.lvAscii
  let (version, r) ← r.lvAscii
  if r.remaining = 0 then
    return { name, version }
  else
    let (flags, _) ← r.lv
    return { name, version, flags := some flags }

end AppInfo

end DeviceSession
