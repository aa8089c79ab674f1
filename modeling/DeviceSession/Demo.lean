import DeviceSession.Settings.Document
import DeviceSession.Simulation.Session

/-
  A session to look at.

  A device that runs another app is asked to open one.  What
  the connection and the action tell is put into lines, in
  the order of time.

  Key definitions include:
    * `Demo.settings`
    * `Demo.session`
    * `Demo.lines`
-/

------------------------------------------------------------
-- The Session
------------------------------------------------------------

namespace DeviceSession

namespace Demo

/- The app that is opened. -/
def target : String :=
  "Bitcoin"

/- The settings in a document, or the defaults without one. -/
def settings : Option String → Except Settings.Fault Settings
  | some text => Settings.ofJson text
  | none => .ok {}

/- A device that runs another app. -/
def device : Device :=
  .apps {
    profile := .ble
    mtu := 156
    handler := {
      running := "Ethereum"
      installed := [target] } }

/- What the client does. -/
def errand : ClientStep :=
  match Action.openApp target {} with
  | .ok a => .perform a.ofUnit none
  | .error e => .refused e

def session (s : Settings) : Session :=
  .start (PipeHub.connector .ble .negotiate) s {} device
    [[errand]]

------------------------------------------------------------
-- Lines
------------------------------------------------------------

/- What an event of the connection tells. -/
def eventText : ConnectionNotice → String
  | .connected g => s!"connected (generation {g.toNat})"
  | .disconnected g => s!"link lost (generation {g.toNat})"
  | .reconnected g => s!"reconnected (generation {g.toNat})"
  | .attemptFailed n e => s!"attempt {n} failed: " ++ e.message
  | .terminated => "connection ended"

/- What progress tells. -/
def progressText : AnyProgress → String
  | .interaction .none => "working"
  | .interaction i => "waiting for the user: " ++ i.text
  | .install (.preparing i) => "preparing: " ++ i.text
  | .install (.installing app percent) =>
      s!"app {app}: {percent} percent"
  | .table p => p.shown.text

/- Why an action failed. -/
def errorText : AnyError → String
  | .os e => e.message
  | .table e => e.message

/- What a state of the action tells. -/
def stateText : AnyKind.State → String
  | .notStarted => "not started"
  | .pending p => progressText p
  | .completed _ => "completed"
  | .error e => "failed: " ++ errorText e
  | .stopped => "stopped"

/- What a result of the client tells, with the times. -/
def resultTexts (now : Nat) :
    ClientResult → List (Nat × String)
  | .performed seen _ _ =>
      seen.toList.map fun (t, s) => (t, stateText s)
  | .refused e => [(now, "refused: " ++ e.message)]
  | _ => []

/- All that has happened, in the order of time. -/
def texts (c : Session.Course) : List (Nat × String) :=
  let events :=
    c.last.connection.events.toList.map fun (t, e) =>
      (t, eventText e)
  let results :=
    c.last.clients.toList.flatMap fun (x : Client) =>
      x.results.toList.flatMap fun (t, r) => resultTexts t r
  (events ++ results).mergeSort fun x y => x.1 ≤ y.1

/- The lines of a session with the given settings. -/
def lines (s : Settings) : List String :=
  (texts ((session s).run 600000)).map fun (t, text) =>
    s!"{t} ms  {text}"

end Demo

end DeviceSession
