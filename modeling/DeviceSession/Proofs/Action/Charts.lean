import DeviceSession.Action.OpenApp
import DeviceSession.Proofs.Action.Likeness

/-
  The actions on the dashboard by their contexts.

  A chart has the states of an action apart from its context,
  in which the action notes what it has learnt so far.  What
  is entered may use up a note, and what becomes of a call is
  an event, which may leave another one.

  The plans of the actions keep what matters of the context
  in the states themselves.  A state and a context of a chart
  are related to the state of the plan that keeps the same,
  and each plan is alike to its chart.  No state is related
  to a context that lacks the note its phase looks for, so
  no run comes to the arms of a chart for these.

  Key definitions include:
    * `Chart`
    * `Chart.outline`
    * `ToDashboard.chart`
    * `Status.chart`
    * `OpenApp.chart`

  Main declarations:
    * `ToDashboard.like_charted`
    * `Status.like_charted`
    * `OpenApp.like_charted`
    * `Performance.run_charted`
-/

------------------------------------------------------------
-- Charts
------------------------------------------------------------

namespace DeviceSession

/- The same call, with what becomes of it turned otherwise. -/
def Call.route
    {E S T C : Type}
    {kind : C → ActionKind}
    (f : Nat → E → S) : Call E T C kind → Call S T C kind
  | .send a options next =>
      .send a options fun now answer => f now (next now answer)
  | .wait ms next => .wait ms fun now => f now (next now)
  | .task t => .task t
  | .child i next => .child i fun now o => f now (next now o)

/- What a chart says of a state: calls come to events. -/
inductive ChartNode
    (k : ActionKind)
    (S E C : Type)
    (kind : C → ActionKind) where
  | decide (next : S)
  | invoke (call : Call E Empty C kind)
  | success (o : k.Output)
  | failure (e : k.Error)
  | stopped

/- The states and the context of an action. -/
structure Chart
    (k : ActionKind)
    (C : Type)
    (kind : C → ActionKind) where
  State : Type
  Context : Type
  Event : Type
  start : State × Context
  /- What is done in a state, at a time. -/
  enter :
    Nat → State → Context →
      ChartNode k State Event C kind × Context
  /- Where an event leads from a state, at a time. -/
  onEvent :
    Nat → State → Event → Context → State × Context
  /- What a state shows. -/
  intermediate : State → Context → k.Progress
  lift : (i : C) → (kind i).Progress → k.Progress

/- The plan whose states are those of a chart, with contexts. -/
def Chart.outline
    {k : ActionKind}
    {C : Type}
    {kind : C → ActionKind}
    (t : Chart k C kind) : Outline k C kind where
  State := t.State × t.Context
  start := t.start
  view := fun (s, c) => t.intermediate s c
  act := fun now (s, c) =>
    match t.enter now s c with
    | (.decide next, c) => .decide (next, c)
    | (.invoke call, c) =>
        .invoke (s, c)
          (call.route fun now e => t.onEvent now s e c)
    | (.success o, _) => .finish (.completed o)
    | (.failure e, _) => .finish (.error e)
    | (.stopped, _) => .finish .stopped
  lift := t.lift

/- The action of a chart that runs no other one. -/
def Chart.action
    {k : ActionKind}
    (t : Chart k Empty fun _ => k) : Action k :=
  .mk t.outline.plan fun i => nomatch i

/- Commands are alike if their results lead to related states. -/
theorem Call.like_ofCommand
    {S S' C E A : Type}
    {kind : C → ActionKind}
    {R : S → S' → Prop}
    (c : Command E A)
    {next : Nat → Except (CommandError E) A → S}
    {next' : Nat → Except (CommandError E) A → S'}
    (hNext :
      ∀ now result, R (next now result) (next' now result)) :
    Call.Like R
      (.ofCommand c next : Call S Empty C kind)
      (.ofCommand c next') :=
  .send c.apdu c.options fun now answer =>
    hNext now (c.settle answer)

------------------------------------------------------------
-- Going to the Dashboard
------------------------------------------------------------

namespace ToDashboard

inductive Phase where
  | getApp
  | route
  | closeApp
  | done
  | failed
deriving DecidableEq

structure Context where
  app : Option AppInfo := none
  /- How often an app has been told to close. -/
  closes : UInt8 := 0
  error : Option OsError := none

inductive Event where
  | appInfo (result : Except (CommandError Empty) AppInfo)
  | closed (result : Except (CommandError Empty) Unit)

/- Where to go from the app that was found. -/
def Context.route (c : Context) : Phase :=
  match c.app with
  | some app =>
      if app.isDashboard then .done
      else if c.closes.toNat < maxCloses then .closeApp
      else .failed
  | none => .failed

def enter (s : Phase) (c : Context) :
    ChartNode (DashboardKind Unit) Phase Event Empty
      (fun _ => DashboardKind Unit) × Context :=
  match s with
  | .getApp =>
      (.invoke (.ofCommand .getApp fun _ => .appInfo), c)
  | .route => (.decide c.route, c)
  | .closeApp =>
      (.invoke (.ofCommand .closeApp fun _ => .closed), c)
  | .done => (.success (), c)
  | .failed =>
      let name := c.app.elim "" AppInfo.name
      (.failure (c.error.getD (.stillInApp name)),
        { c with error := none })

def onEvent (e : Event) (c : Context) : Phase × Context :=
  match e with
  | .appInfo (.ok app) => (.route, { c with app := some app })
  | .closed (.ok _) =>
      (.getApp, { c with closes := c.closes + 1 })
  | .appInfo (.error e) =>
      (.failed, { c with error := some (.ofCommand e) })
  | .closed (.error e) =>
      (.failed, { c with error := some (.ofCommand e) })

def chart :
    Chart (DashboardKind Unit) Empty
      fun _ => DashboardKind Unit where
  State := Phase
  Context := Context
  Event := Event
  start := (.getApp, {})
  enter := fun _ => enter
  onEvent := fun _ _ => onEvent
  intermediate := fun _ _ => .none
  lift := fun i => nomatch i

/-
  The plan keeps the app as long as it has to be told where
  to go from it, and the number of times it was closed.  An
  app that was closed is still noted when it is asked for
  the next one.
-/
inductive Keeps : State → Phase × Context → Prop where
  | asking
      (app : Option AppInfo)
      (n : UInt8) :
      Keeps (.asking n.toNat) (.getApp, ⟨app, n, none⟩)
  | running
      (app : AppInfo)
      (n : UInt8) :
      Keeps (.running app n.toNat) (.route, ⟨some app, n, none⟩)
  | closing
      {app : Option AppInfo}
      {n : UInt8}
      (hFew : n.toNat < maxCloses) :
      Keeps (.closing n.toNat) (.closeApp, ⟨app, n, none⟩)
  | done (c : Context) : Keeps .done (.done, c)
  | failed
      {e : OsError}
      {c : Context}
      (hError :
        c.error.getD (.stillInApp (c.app.elim "" AppInfo.name)) =
          e) :
      Keeps (.failed e) (.failed, c)

def outline :
    Outline (DashboardKind Unit) Empty
      fun _ => DashboardKind Unit where
  State := State
  start := plan.start
  view := plan.view
  act := plan.act
  lift := plan.lift

/- What an answer comes to: the app, or an error. -/
theorem keeps_asked
    (app : Option AppInfo)
    (n : UInt8)
    (result : Except (CommandError Empty) AppInfo) :
    Keeps (asked n.toNat result)
      (onEvent (.appInfo result) ⟨app, n, none⟩) := by
  cases result with
  | ok app => exact .running app n
  | error e => exact .failed rfl

/- An app has been closed, and is counted. -/
theorem keeps_closed
    (app : Option AppInfo)
    {n : UInt8}
    (hFew : n.toNat < maxCloses)
    (result : Except (CommandError Empty) Unit) :
    Keeps (closed n.toNat result)
      (onEvent (.closed result) ⟨app, n, none⟩) := by
  cases result with
  | ok _ =>
      -- The counter does not wrap: it is less than two.
      have hNext : (n + 1).toNat = n.toNat + 1 := by
        rw [UInt8.toNat_add]
        simp only [maxCloses] at hFew
        simp
        omega
      rw [closed, ← hNext]
      exact .asking app (n + 1)
  | error e => exact .failed rfl

/- Where to go from the app that runs. -/
theorem keeps_route
    (app : AppInfo)
    (n : UInt8) :
    let c : Context := ⟨some app, n, none⟩
    Keeps (route app n.toNat) (c.route, c) := by
  intro c
  simp only [route, Context.route, c]
  split
  · exact .done _
  · split
    · exact .closing ‹_›
    · exact .failed rfl

/- So the chart and the plan go the same way. -/
theorem outline_like : outline.Like chart.outline Keeps where
  start := .asking none 0
  view := rfl
  act := by
    intro now s s' hKeeps
    cases hKeeps with
    | asking app n =>
        exact .invoke rfl (Call.like_ofCommand _ fun _ =>
          keeps_asked app n)
    | running app n => exact .decide (keeps_route app n)
    | @closing app n hFew =>
        exact .invoke rfl (Call.like_ofCommand _ fun _ =>
          keeps_closed app hFew)
    | done c => exact .finish _
    | failed hError =>
        subst hError
        exact .finish _
  lift := by
    funext i
    exact nomatch i

/- Going to the dashboard by its plan or by its chart. -/
theorem like_charted :
    Action.toDashboard.Like chart.action := by
  have hLike :
      Action.Like (.mk outline.plan fun i => nomatch i)
        chart.action :=
    .mk outline_like fun i => nomatch i
  exact hLike

end ToDashboard

------------------------------------------------------------
-- Finding Out the App
------------------------------------------------------------

namespace Status

inductive Phase where
  | getApp
  | waitUnlock
  | done
  | failed
deriving DecidableEq

structure Context where
  app : Option AppInfo := none
  /- When the device was first found locked. -/
  lockedSince : Option Nat := none
  error : Option OsError := none

inductive Event where
  | appInfo (result : Except (CommandError Empty) AppInfo)
  | waited

def enter
    (p : Patience)
    (now : Nat)
    (s : Phase)
    (c : Context) :
    ChartNode (DashboardKind AppInfo) Phase Event Empty
      (fun _ => DashboardKind AppInfo) × Context :=
  match s with
  | .getApp =>
      (.invoke (.ofCommand .getApp fun _ => .appInfo), c)
  | .waitUnlock =>
      let remaining :=
        c.lockedSince.elim 0 fun since =>
          p.timeout - (now - since)
      (.invoke
        (.wait (min p.interval remaining) fun _ => .waited), c)
  | .done =>
      match c.app with
      | some app => (.success app, { c with app := none })
      | none => (.decide .getApp, c)
  | .failed =>
      (.failure (c.error.getD .deviceLocked),
        { c with error := none })

def onEvent
    (p : Patience)
    (now : Nat)
    (e : Event)
    (c : Context) : Phase × Context :=
  match e with
  | .appInfo (.ok app) =>
      (.done, { c with app := some app, lockedSince := none })
  | .appInfo (.error (.unknownExchange status)) =>
      if status = locked then
        let since := c.lockedSince.getD now
        let c := { c with lockedSince := some since }
        if p.timeout ≤ now - since then (.failed, c)
        else (.waitUnlock, c)
      else
        (.failed,
          { c with error := some (.unknownExchange status) })
  | .appInfo (.error e) =>
      (.failed, { c with error := some (.ofCommand e) })
  | .waited => (.getApp, c)

def intermediate (c : Context) : Interaction :=
  match c.lockedSince with
  | some _ => .unlockDevice
  | none => .none

def chart (p : Patience) :
    Chart (DashboardKind AppInfo) Empty
      fun _ => DashboardKind AppInfo where
  State := Phase
  Context := Context
  Event := Event
  start := (.getApp, {})
  enter := enter p
  onEvent := fun now _ => onEvent p now
  intermediate := fun _ => intermediate
  lift := fun i => nomatch i

/-
  The plan keeps the time at which the device was found to be
  locked, and then the app or the reason why there is none.
-/
inductive Keeps : State → Phase × Context → Prop where
  | asking (since : Option Nat) :
      Keeps (.asking since) (.getApp, ⟨none, since, none⟩)
  | waiting (since : Nat) :
      Keeps (.waiting since)
        (.waitUnlock, ⟨none, some since, none⟩)
  | done (app : AppInfo) :
      Keeps (.done app) (.done, ⟨some app, none, none⟩)
  | failed
      {e : OsError}
      {c : Context}
      (hError : c.error.getD .deviceLocked = e) :
      Keeps (.failed e) (.failed, c)

def outline (p : Patience) :
    Outline (DashboardKind AppInfo) Empty
      fun _ => DashboardKind AppInfo where
  State := State
  start := (plan p).start
  view := (plan p).view
  act := (plan p).act
  lift := (plan p).lift

/- What an answer comes to: an app, a lock, or an error. -/
theorem keeps_asked
    (p : Patience)
    (since : Option Nat)
    (now : Nat)
    (result : Except (CommandError Empty) AppInfo) :
    Keeps (asked p since now result)
      (onEvent p now (.appInfo result) ⟨none, since, none⟩) := by
  cases result with
  | ok app => exact .done app
  | error e =>
      cases e with
      | unknownExchange status =>
          simp only [asked, onEvent]
          split
          · simp only [foundLocked]
            split
            · exact .failed rfl
            · exact .waiting _
          · exact .failed rfl
      | _ => exact .failed rfl

/- So the chart and the plan go the same way. -/
theorem outline_like (p : Patience) :
    (outline p).Like (chart p).outline Keeps where
  start := .asking none
  view := rfl
  act := by
    intro now s s' hKeeps
    cases hKeeps with
    | asking since =>
        refine .invoke ?_ (Call.like_ofCommand _ fun now =>
          keeps_asked p since now)
        cases since <;> rfl
    | waiting since =>
        exact .invoke rfl (.wait _ fun _ => .asking (some since))
    | done app => exact .finish _
    | failed hError =>
        subst hError
        exact .finish _
  lift := by
    funext i
    exact nomatch i

/- Finding out the app by its plan or by its chart. -/
theorem like_charted (p : Patience) :
    (Action.status p).Like (chart p).action := by
  have hLike :
      Action.Like (.mk (outline p).plan fun i => nomatch i)
        (chart p).action :=
    .mk (outline_like p) fun i => nomatch i
  exact hLike

end Status

------------------------------------------------------------
-- Opening an App
------------------------------------------------------------

namespace OpenApp

inductive Phase where
  | getApp
  | route
  | goToDashboard
  | openApp
  | done
  | failed
  | stopped
deriving DecidableEq

structure Context where
  app : Option AppInfo := none
  /- The link has been lost while the app was opened. -/
  rechecked : Bool := false
  error : Option OsError := none

inductive Event where
  | status (o : Outcome AppInfo OsError)
  | dashboard (o : Outcome Unit OsError)
  | opened (result : Except (CommandError OpenAppError) Unit)

/- Where to go from the app that was found. -/
def Context.route (name : String) (c : Context) : Phase :=
  match c.app with
  | some app =>
      if app.name = name then .done
      else if app.isDashboard then .openApp
      else .goToDashboard
  | none => .getApp

def enter
    (name : String)
    (command : Command OpenAppError Unit)
    (s : Phase)
    (c : Context) :
    ChartNode (DashboardKind Unit) Phase Event Errand
      (fun i => DashboardKind i.Output) × Context :=
  match s with
  | .getApp => (.invoke (.child .status fun _ => .status), c)
  | .route => (.decide (c.route name), c)
  | .goToDashboard =>
      (.invoke (.child .toDashboard fun _ => .dashboard), c)
  | .openApp =>
      (.invoke (.ofCommand command fun _ => .opened), c)
  | .done => (.success (), c)
  | .failed =>
      match c.error with
      | some e => (.failure e, { c with error := none })
      | none => (.stopped, c)
  | .stopped => (.stopped, c)

def onEvent (e : Event) (c : Context) : Phase × Context :=
  match e with
  | .status (.completed app) =>
      (.route, { c with app := some app })
  | .status (.error e) => (.failed, { c with error := some e })
  | .status .stopped => (.stopped, c)
  | .dashboard (.completed _) => (.openApp, c)
  | .dashboard (.error e) => (.failed, { c with error := some e })
  | .dashboard .stopped => (.stopped, c)
  | .opened (.ok _) => (.done, c)
  | .opened (.error e) =>
      if e = .connection .disconnectedWhileSending ∧
          !c.rechecked then
        (.getApp, { c with rechecked := true, app := none })
      else (.failed, { c with error := some (.ofOpenApp e) })

def intermediate : Phase → Interaction
  | .openApp => .confirmOpenApp
  | _ => .none

def chart
    (name : String)
    (command : Command OpenAppError Unit) :
    Chart (DashboardKind Unit) Errand
      fun i => DashboardKind i.Output where
  State := Phase
  Context := Context
  Event := Event
  start := (.getApp, {})
  enter := fun _ => enter name command
  onEvent := fun _ _ => onEvent
  intermediate := fun s _ => intermediate s
  lift := fun _ i => i

/- The errands are run by their charts as well. -/
def chartedErrand (p : Status.Patience) :
    (i : Errand) → Action (DashboardKind i.Output)
  | .status => (Status.chart p).action
  | .toDashboard => ToDashboard.chart.action

def charted
    (name : String)
    (command : Command OpenAppError Unit)
    (p : Status.Patience) : Action (DashboardKind Unit) :=
  .mk (chart name command).outline.plan (chartedErrand p)

/-
  The plan keeps the app as long as it has to be told where
  to go from it, whether the device is asked for the second
  time, and then the reason why the app cannot be opened.
-/
inductive Keeps : State → Phase × Context → Prop where
  | asking (again : Bool) :
      Keeps (.asking again) (.getApp, ⟨none, again, none⟩)
  | running (app : AppInfo) (again : Bool) :
      Keeps (.running app again)
        (.route, ⟨some app, again, none⟩)
  | leaving (app : AppInfo) (again : Bool) :
      Keeps (.leaving again)
        (.goToDashboard, ⟨some app, again, none⟩)
  | opening (app : AppInfo) (again : Bool) :
      Keeps (.opening again)
        (.openApp, ⟨some app, again, none⟩)
  | done (c : Context) : Keeps .done (.done, c)
  | failed
      {e : OsError}
      {c : Context}
      (hError : c.error = some e) :
      Keeps (.failed e) (.failed, c)
  | stopped (c : Context) : Keeps .stopped (.stopped, c)

def outline
    (name : String)
    (command : Command OpenAppError Unit) :
    Outline (DashboardKind Unit) Errand
      fun i => DashboardKind i.Output where
  State := State
  start := (plan name command).start
  view := (plan name command).view
  act := (plan name command).act
  lift := (plan name command).lift

/- What the status comes to. -/
theorem keeps_asked
    (again : Bool)
    (o : Outcome AppInfo OsError) :
    Keeps (asked again o)
      (onEvent (.status o) ⟨none, again, none⟩) := by
  cases o with
  | completed app => exact .running app again
  | error e => exact .failed rfl
  | stopped => exact .stopped _

/- Where to go from the app that is open. -/
theorem keeps_route
    (name : String)
    (app : AppInfo)
    (again : Bool) :
    let c : Context := ⟨some app, again, none⟩
    Keeps (route name app again) (c.route name, c) := by
  intro c
  simp only [route, Context.route, c]
  split
  · exact .done _
  · split
    · exact .opening app again
    · exact .leaving app again

/- Whether the dashboard has been reached. -/
theorem keeps_left
    (app : AppInfo)
    (again : Bool)
    (o : Outcome Unit OsError) :
    Keeps (left again o)
      (onEvent (.dashboard o) ⟨some app, again, none⟩) := by
  cases o with
  | completed _ => exact .opening app again
  | error e => exact .failed rfl
  | stopped => exact .stopped _

/- Whether the app has been opened. -/
theorem keeps_opened
    (app : AppInfo)
    (again : Bool)
    (result : Except (CommandError OpenAppError) Unit) :
    Keeps (opened again result)
      (onEvent (.opened result) ⟨some app, again, none⟩) := by
  cases result with
  | ok _ => exact .done _
  | error e =>
      simp only [opened, onEvent]
      split
      · exact .asking true
      · exact .failed rfl

/- So the chart and the plan go the same way. -/
theorem outline_like
    (name : String)
    (command : Command OpenAppError Unit) :
    (outline name command).Like (chart name command).outline
      Keeps where
  start := .asking false
  view := rfl
  act := by
    intro now s s' hKeeps
    cases hKeeps with
    | asking again =>
        exact .invoke rfl (.child Errand.status fun _ =>
          keeps_asked again)
    | running app again =>
        exact .decide (keeps_route name app again)
    | leaving app again =>
        exact .invoke rfl (.child Errand.toDashboard fun _ =>
          keeps_left app again)
    | opening app again =>
        exact .invoke rfl (Call.like_ofCommand _ fun _ =>
          keeps_opened app again)
    | done c => exact .finish _
    | @failed e c hError =>
        rcases c with ⟨app, again, error⟩
        obtain rfl : error = some e := hError
        exact .finish _
    | stopped c => exact .finish _
  lift := rfl

/- Opening an app by its plan or by its chart. -/
theorem like_charted
    (name : String)
    (command : Command OpenAppError Unit)
    (p : Status.Patience) :
    (Action.openWith name command p).Like
      (charted name command p) := by
  have hChildren :
      ∀ i, (errand p i).Like (chartedErrand p i) := by
    intro i
    cases i with
    | status => exact Status.like_charted p
    | toDashboard => exact ToDashboard.like_charted
  have hLike :
      Action.Like
        (.mk (outline name command).plan (errand p))
        (charted name command p) :=
    .mk (outline_like name command) hChildren
  exact hLike

end OpenApp

/-
  Whatever happens to the opening of an app, its plan and its
  chart show the same, hand in the same and end alike.
-/
theorem Performance.run_charted
    {W K : Type}
    (x : Sender W K)
    (name : String)
    (command : Command OpenAppError Unit)
    (p : Status.Patience)
    (w : W)
    (cues : List (Cue W (DashboardKind Unit))) :
    let a :=
      (start (.openWith name command p) w).run x cues
    let b :=
      (start (OpenApp.charted name command p) w).run x cues
    b.effects = a.effects ∧
    b.execution.scene = a.execution.scene ∧
    b.world = a.world ∧
    b.execution.run.isSome = a.execution.run.isSome :=
  run_like (OpenApp.like_charted name command p) x w cues

end DeviceSession
