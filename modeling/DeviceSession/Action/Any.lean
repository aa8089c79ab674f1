import DeviceSession.Action.Install
import DeviceSession.Action.Table

/-
  All actions as one kind.

  Key definitions include:
    * `AnyProgress`
    * `AnyOutput`
    * `AnyError`
    * `AnyKind`
    * `Action.ofUnit`
    * `Action.ofStatus`
    * `Action.ofInstall`
    * `Action.ofTable`
-/

------------------------------------------------------------
-- The Common Kind
------------------------------------------------------------

namespace DeviceSession

/- What any action shows. -/
inductive AnyProgress where
  | interaction (i : Interaction)
  | install (p : Install.Progress)
  | table (p : TableProgress)

/- What any action completes with. -/
inductive AnyOutput where
  | done
  | app (x : AppInfo)
  | count (n : Nat)
  | trail (t : Trail)

/- Why any action fails. -/
inductive AnyError where
  | os (e : OsError)
  | table (e : TableError)

abbrev AnyKind : ActionKind where
  Progress := AnyProgress
  Output := AnyOutput
  Error := AnyError

------------------------------------------------------------
-- Actions of the Common Kind
------------------------------------------------------------

namespace Action

/- An action on the dashboard without a result. -/
def ofUnit (a : Action (DashboardKind Unit)) :
    Action AnyKind :=
  a.map AnyProgress.interaction (fun _ => .done) .os

/- An action that finds out about an app. -/
def ofStatus (a : Action (DashboardKind AppInfo)) :
    Action AnyKind :=
  a.map AnyProgress.interaction .app .os

/- An action that installs apps. -/
def ofInstall (a : Action Install.Kind) : Action AnyKind :=
  a.map AnyProgress.install .count .os

/- An action given by a table. -/
def ofTable (a : Action TableKind) : Action AnyKind :=
  a.map AnyProgress.table .trail .table

end Action

end DeviceSession
