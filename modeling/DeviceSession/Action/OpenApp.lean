import DeviceSession.Action.Status

/-
  Opening an app.

  From another app the way leads over the dashboard.  If the
  link is lost while the app is being opened, the device may
  have opened it all the same, so it is asked once more.

  Key definitions include:
    * `OpenApp.State`
    * `OpenApp.Errand`
    * `OpenApp.plan`
    * `Action.openWith`
    * `Action.openApp`
-/

------------------------------------------------------------
-- States
------------------------------------------------------------

namespace DeviceSession

namespace OpenApp

/- The flag tells that the device has been asked twice. -/
inductive State where
  /- Which app is running? -/
  | asking (again : Bool)
  /- The device is running this app. -/
  | running (app : AppInfo) (again : Bool)
  /- On the way to the dashboard. -/
  | leaving (again : Bool)
  | opening (again : Bool)
  | done
  | failed (e : OsError)
  | stopped
deriving DecidableEq

/- The actions that are run on the way. -/
inductive Errand where
  | status
  | toDashboard
deriving DecidableEq

/- What an errand completes with. -/
def Errand.Output : Errand → Type
  | status => AppInfo
  | toDashboard => Unit

/- What a state shows. -/
def view : State → Interaction
  | .opening _ => .confirmOpenApp
  | _ => .none

/- What comes of asking. -/
def asked (again : Bool) : Outcome AppInfo OsError → State
  | .completed app => .running app again
  | .error e => .failed e
  | .stopped => .stopped

/- Where to go from an app. -/
def route
    (name : String)
    (app : AppInfo)
    (again : Bool) : State :=
  if app.name = name then .done
  else if app.isDashboard then .opening again
  else .leaving again

/- What comes of leaving an app. -/
def left (again : Bool) : Outcome Unit OsError → State
  | .completed _ => .opening again
  | .error e => .failed e
  | .stopped => .stopped

/- What comes of opening the app. -/
def opened (again : Bool) :
    Except (CommandError OpenAppError) Unit → State
  | .ok _ => .done
  | .error e =>
      if e = .connection .disconnectedWhileSending ∧ !again then
        .asking true
      else .failed (.ofOpenApp e)

------------------------------------------------------------
-- The Plan
------------------------------------------------------------

/- Open the app of a name with the given command. -/
def plan
    (name : String)
    (c : Command OpenAppError Unit) :
    Plan (DashboardKind Unit) where
  State := State
  Child := Errand
  kind := fun i => DashboardKind i.Output
  start := .asking false
  view := view
  act := fun _ s =>
    match s with
    | .asking b => .invoke s (.child .status fun _ => asked b)
    | .running app b => .decide (route name app b)
    | .leaving b =>
        .invoke s (.child .toDashboard fun _ => left b)
    | .opening b =>
        .invoke s (.ofCommand c fun _ => opened b)
    | .done => .finish (.completed ())
    | .failed e => .finish (.error e)
    | .stopped => .finish .stopped
  work := fun _ t => nomatch t
  lift := fun _ i => i

/- The action of each errand. -/
def errand (p : Status.Patience) :
    (i : Errand) → Action (DashboardKind i.Output)
  | .status => .status p
  | .toDashboard => .toDashboard

end OpenApp

/- Open the app of a name with the given command. -/
def Action.openWith
    (name : String)
    (c : Command OpenAppError Unit)
    (p : Status.Patience) : Action (DashboardKind Unit) :=
  .mk (OpenApp.plan name c) (OpenApp.errand p)

/-
  Make sure that the named app is running, or the reason
  why there can be no app of this name.
-/
def Action.openApp (name : String) (p : Status.Patience) :
    Except BuildError (Action (DashboardKind Unit)) :=
  (Command.openApp name).map fun c => openWith name c p

end DeviceSession
