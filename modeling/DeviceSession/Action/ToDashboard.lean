import DeviceSession.Action.Basic
import DeviceSession.Action.Error

/-
  Going back to the dashboard.

  The device is asked which app is running, and to close it,
  until it is on its dashboard or has been told too often.

  Key definitions include:
    * `ToDashboard.State`
    * `ToDashboard.plan`
    * `Action.toDashboard`
-/

------------------------------------------------------------
-- Kinds of Dashboard Actions
------------------------------------------------------------

namespace DeviceSession

/-
  An action on the dashboard shows what the user has to do.
-/
abbrev DashboardKind (O : Type) : ActionKind where
  Progress := Interaction
  Output := O
  Error := OsError

------------------------------------------------------------
-- States
------------------------------------------------------------

namespace ToDashboard

/- The number of times that an app is told to close. -/
def maxCloses : Nat :=
  2

inductive State where
  /- Which app is running?  Some have been closed. -/
  | asking (closes : Nat)
  /- The device is running this app. -/
  | running (app : AppInfo) (closes : Nat)
  | closing (closes : Nat)
  | done
  | failed (e : OsError)
deriving DecidableEq

/- What comes of asking. -/
def asked (closes : Nat) :
    Except (CommandError Empty) AppInfo → State
  | .ok app => .running app closes
  | .error e => .failed (.ofCommand e)

/- What comes of closing. -/
def closed (closes : Nat) :
    Except (CommandError Empty) Unit → State
  | .ok _ => .asking (closes + 1)
  | .error e => .failed (.ofCommand e)

/- Where to go from an app. -/
def route (app : AppInfo) (closes : Nat) : State :=
  if app.isDashboard then .done
  else if closes < maxCloses then .closing closes
  else .failed (.stillInApp app.name)

------------------------------------------------------------
-- The Plan
------------------------------------------------------------

def plan : Plan (DashboardKind Unit) where
  State := State
  start := .asking 0
  view := fun _ => .none
  act := fun _ s =>
    match s with
    | .asking n =>
        .invoke s (.ofCommand .getApp fun _ => asked n)
    | .running app n => .decide (route app n)
    | .closing n =>
        .invoke s (.ofCommand .closeApp fun _ => closed n)
    | .done => .finish (.completed ())
    | .failed e => .finish (.error e)
  work := fun _ t => nomatch t
  lift := fun i => nomatch i

end ToDashboard

/- Leave whatever app is running. -/
def Action.toDashboard : Action (DashboardKind Unit) :=
  .mk ToDashboard.plan fun i => nomatch i

end DeviceSession
