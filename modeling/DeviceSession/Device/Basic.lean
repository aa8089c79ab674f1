import DeviceSession.Device.Dashboard
import DeviceSession.Device.Rules
import DeviceSession.Device.Script

/-
  The devices that a simulation can run against.

  Key definitions include:
    * `Device`
    * `Device.step`
    * `Device.timers`
-/

------------------------------------------------------------
-- Devices
------------------------------------------------------------

namespace DeviceSession

inductive Device where
  | rules (x : Emulator (List Rule))
  | apps (x : Emulator AppDevice)
  | script (x : ScriptDevice)

namespace Device

/- The times that the device waits for. -/
def timers : Device → List Nat
  | rules x => x.timers
  | apps x => x.timers
  | script x => x.timers

/- Whether the device has moved, and the device then. -/
def settle
    {S : Type}
    (f : S → Device) : Turn S Empty → Bool × Device
  | .go s => (true, f s)
  | .wait s => (false, f s)
  | .done e => nomatch e

/- One step of a device; true if it has moved. -/
def step
    (now : Nat)
    (d : Device)
    (hub : PipeHub) : Bool × Device × PipeHub :=
  match d with
  | rules x =>
      let (t, hub) :=
        Emulator.step (Rule.handler x.profile) now x hub
      let (moved, d) := settle rules t
      (moved, d, hub)
  | apps x =>
      let (t, hub) :=
        Emulator.step AppDevice.handler now x hub
      let (moved, d) := settle apps t
      (moved, d, hub)
  | script x =>
      let (t, hub) := ScriptDevice.step now x hub
      let (moved, d) := settle script t
      (moved, d, hub)

end Device

end DeviceSession
