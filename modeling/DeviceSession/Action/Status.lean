import DeviceSession.Action.ToDashboard

/-
  Finding out which app is running.

  A locked device is asked again and again, until it has been
  unlocked or has been given enough time for it.

  Key definitions include:
    * `Status.Patience`
    * `Status.State`
    * `Status.plan`
    * `Action.status`
-/

------------------------------------------------------------
-- Patience with Locked Devices
------------------------------------------------------------

namespace DeviceSession

namespace Status

/- The status word of a locked device. -/
def locked : StatusWord :=
  ⟨0x5515⟩

/- How long a locked device is waited for. -/
structure Patience where
  /- The time in which it has to be unlocked. -/
  timeout : Nat := 15000
  /- The pause between two questions. -/
  interval : Nat := 500
deriving DecidableEq

------------------------------------------------------------
-- States
------------------------------------------------------------

inductive State where
  /- Which app is running?  The device may have been found
     locked at a time. -/
  | asking (since : Option Nat)
  /- Waiting for the user since the device was found locked. -/
  | waiting (since : Nat)
  | done (app : AppInfo)
  | failed (e : OsError)
deriving DecidableEq

/- What a state shows. -/
def view : State → Interaction
  | .asking (some _) => .unlockDevice
  | .waiting _ => .unlockDevice
  | _ => .none

/- What comes of finding the device locked. -/
def foundLocked
    (p : Patience)
    (since : Option Nat)
    (now : Nat) : State :=
  let first := since.getD now
  if p.timeout ≤ now - first then .failed .deviceLocked
  else .waiting first

/- What comes of asking. -/
def asked
    (p : Patience)
    (since : Option Nat)
    (now : Nat) :
    Except (CommandError Empty) AppInfo → State
  | .ok app => .done app
  | .error (.unknownExchange status) =>
      if status = locked then foundLocked p since now
      else .failed (.unknownExchange status)
  | .error e => .failed (.ofCommand e)

/- The pause before the next question. -/
def pause (p : Patience) (since now : Nat) : Nat :=
  min p.interval (p.timeout - (now - since))

------------------------------------------------------------
-- The Plan
------------------------------------------------------------

def plan (p : Patience) : Plan (DashboardKind AppInfo) where
  State := State
  start := .asking none
  view := view
  act := fun now s =>
    match s with
    | .asking since =>
        .invoke s (.ofCommand .getApp (asked p since))
    | .waiting since =>
        .invoke s
          (.wait (pause p since now) fun _ => .asking since)
    | .done app => .finish (.completed app)
    | .failed e => .finish (.error e)
  work := fun _ t => nomatch t
  lift := fun i => nomatch i

end Status

/- Read the running app, from an unlocked device. -/
def Action.status (p : Status.Patience) :
    Action (DashboardKind AppInfo) :=
  .mk (Status.plan p) fun i => nomatch i

end DeviceSession
