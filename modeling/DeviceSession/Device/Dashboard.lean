import DeviceSession.Bytes.Text
import DeviceSession.Command.AppInfo
import DeviceSession.Device.Emulator

/-
  A device with apps.

  It tells which app is running, opens installed apps and
  leaves them, and installs apps chunk by chunk.  It
  restarts its link whenever it switches apps.

  Key definitions include:
    * `AppDevice`
    * `AppDevice.handler`
-/

------------------------------------------------------------
-- Devices with Apps
------------------------------------------------------------

namespace DeviceSession

structure AppDevice where
  running : String
  installed : List String := []
  /- The link breaks when this chunk of this app comes in,
     the first time it does. -/
  dropInstallAt : Option (String × Nat) := none
  /- The device stays out of reach after that. -/
  stayAway : Bool := false
  /- Opening an app takes this long and keeps the link. -/
  confirmDelay : Option Nat := none
deriving DecidableEq

namespace AppDevice

/- A response without payload. -/
def plain (code : UInt16) : Response :=
  { status := ⟨code⟩ }

/- The description of the running app. -/
def describe (d : AppDevice) : Response :=
  let info : AppInfo :=
    { name := d.running, version := "1.0.0" }
  { status := .success, data := info.encode }

/- Open an app that is installed. -/
def openApp (d : AppDevice) (name : String) :
    Reply × AppDevice :=
  if name ∈ d.installed then
    let d := { d with running := name }
    match d.confirmDelay with
    | some delay => (.respondAfter delay .success, d)
    | none => (.respondThenDrop .success, d)
  else
    (.respond (plain 0x6807), d)

/- Take in a chunk of an app; the last one installs it. -/
def install
    (d : AppDevice)
    (name : String)
    (chunk chunks : Nat)
    (hub : PipeHub) : Reply × AppDevice × PipeHub :=
  if d.dropInstallAt = some (name, chunk) then
    let hub :=
      if d.stayAway then hub.reachableIf false else hub
    (.drop, { d with dropInstallAt := none }, hub)
  else
    let last := chunk + 1 = chunks ∧ name ∉ d.installed
    let d :=
      if last then
        { d with installed := d.installed ++ [name] }
      else d
    (.respond .success, d, hub)

/- What the device does with a command. -/
def handle
    (a : Apdu)
    (d : AppDevice)
    (hub : PipeHub) : Reply × AppDevice × PipeHub :=
  let name := Text.ofUtf8Lossy a.data
  if a.cla = 0xb0 ∧ a.ins = 0x01 then
    (.respond d.describe, d, hub)
  else if a.cla = 0xb0 ∧ a.ins = 0xa7 then
    (.respondThenDrop .success,
      { d with running := AppInfo.dashboardName }, hub)
  else if a.cla = 0xe0 ∧ a.ins = 0xd8 then
    let (r, d) := d.openApp name
    (r, d, hub)
  else if a.cla = 0xe0 ∧ a.ins = 0x0b then
    d.install name a.p1.toNat a.p2.toNat hub
  else
    (.respond (plain 0x6d00), d, hub)

/- A device with apps, as a handler. -/
def handler : Handler AppDevice where
  handle := fun a _ d hub => handle a d hub

end AppDevice

end DeviceSession
