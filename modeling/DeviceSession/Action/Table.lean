import DeviceSession.Action.OpenApp

/-
  Actions given by tables.

  A table is a list of nodes, of which one is the start.
  Nodes make calls, which may be tables in turn, and go on to
  other nodes by what becomes of them.  All that has happened
  is kept as a trail, which the action completes with.

  Key definitions include:
    * `Tag`
    * `Trail`
    * `TableNode`
    * `Table.plan`
    * `TableNode.child`
    * `Action.table`
-/

------------------------------------------------------------
-- Trails
------------------------------------------------------------

namespace DeviceSession

/- How a call has ended. -/
inductive Tag where
  | ok
  | err
  /- An action that was called has stopped. -/
  | stopped
deriving DecidableEq

/- A table that failed after a number of calls. -/
structure TableError where
  events : Nat
deriving DecidableEq

def TableError.message (e : TableError) : String :=
  "failed after " ++ toString e.events ++ " events"

/- Why a call failed. -/
inductive TrailError where
  | connection (e : ConnectionError)
  | command (e : CommandError Empty)
  | openApp (e : CommandError OpenAppError)
  | os (e : OsError)
  | table (e : TableError)

/- What became of a call. -/
inductive TrailValue where
  | nothing
  | done
  | flag (b : Bool)
  | response (r : Response)
  | app (x : AppInfo)
  | error (e : TrailError)
  /- The results of a task. -/
  | results (l : List TrailValue)
  /- What a table completed with. -/
  | trail (l : List (Nat × Tag × TrailValue))

/- The calls so far: their nodes, and how they ended. -/
abbrev Trail :=
  List (Nat × Tag × TrailValue)

/-
  What a table shows.  The path leads from the outermost
  table through the nodes to the action that shows it.
-/
structure TableProgress where
  path : List Nat
  shown : Interaction
  /- The number of calls so far. -/
  events : Nat
deriving DecidableEq

namespace TableProgress

/- What a task shows. -/
def ofTask (i : Interaction) : TableProgress :=
  ⟨[1000], i, 0⟩

/- What an action shows that is no table. -/
def ofAction (i : Interaction) : TableProgress :=
  ⟨[2000], i, 0⟩

/- Progress under a node. -/
def under (p : TableProgress) (node : Nat) : TableProgress :=
  { p with path := node :: p.path }

end TableProgress

/- The kind of a table. -/
abbrev TableKind : ActionKind where
  Progress := TableProgress
  Output := Trail
  Error := TableError

/- The kind of whatever a table calls. -/
abbrev TrailKind : ActionKind where
  Progress := TableProgress
  Output := TrailValue
  Error := TrailError

------------------------------------------------------------
-- Nodes
------------------------------------------------------------

/- One step of a task. -/
inductive TaskStep where
  | sleep (ms : Nat)
  | report (shown : Interaction)
  | send (a : Apdu)
  /- Note whether the action has been cancelled. -/
  | askCancelled
  | untilCancelled
deriving DecidableEq

/- A call that is no action. -/
inductive TableCall where
  | apdu (a : Apdu) (options : RequestOptions)
  | getApp
  | closeApp
  | openApp (c : Command OpenAppError Unit)
  | task (steps : List TaskStep)

/- An action on the dashboard that a table may call. -/
inductive OsCall where
  | toDashboard
  | status (p : Status.Patience)
  | openApp
      (name : String)
      (c : Command OpenAppError Unit)
      (p : Status.Patience)

/- The nodes to go to, by how a call has ended. -/
structure Routes where
  ok : Option Nat := none
  err : Option Nat := none
  stopped : Option Nat := none
deriving DecidableEq

/- The node to go to; by default, as if all went well. -/
def Routes.next (r : Routes) (t : Tag) : Nat :=
  let special := match t with
    | .ok => none
    | .err => r.err
    | .stopped => r.stopped
  (special.or r.ok).getD 0

/- What is done at a node. -/
inductive TableNode where
  | decide (next : Nat)
  /- Decide by the number of calls so far. -/
  | branch (bound less more : Nat)
  | success
  | failure
  | stopped
  | call (c : TableCall) (routes : Routes)
  | os (c : OsCall) (routes : Routes)
  /- Call a table. -/
  | sub
      (nodes : List (Interaction × TableNode))
      (start : Nat)
      (routes : Routes)

------------------------------------------------------------
-- The Plan
------------------------------------------------------------

namespace Table

/- The node that a table has come to, with its trail. -/
structure State where
  node : Nat
  trail : Trail := []

namespace State

/- Note how a call has ended, and go on. -/
def after
    (s : State)
    (routes : Routes)
    (t : Tag)
    (v : TrailValue) : State where
  node := routes.next t
  trail := s.trail ++ [(s.node, t, v)]

/- Go on after a call that succeeds or fails. -/
def settle
    {E R : Type}
    (s : State)
    (routes : Routes)
    (error : E → TrailError)
    (value : R → TrailValue) : Except E R → State
  | .ok r => s.after routes .ok (value r)
  | .error e => s.after routes .err (.error (error e))

/- Go on after an action that was called. -/
def join (s : State) (routes : Routes) :
    TrailKind.Outcome → State
  | .completed v => s.after routes .ok v
  | .error e => s.after routes .err (.error e)
  | .stopped => s.after routes .stopped .nothing

end State

/- A task of a table, with its results so far. -/
inductive Task where
  | going
      (s : State)
      (routes : Routes)
      (steps : List TaskStep)
      (results : List TrailValue)
  | over (s : State)

/- What a task does next. -/
def work : Task → Work State Task TableProgress
  | .over s => .finish s
  | .going s routes [] results =>
      .finish (s.after routes .ok (.results results))
  | .going s routes (.sleep ms :: rest) results =>
      .sleep ms (.going s routes rest results)
  | .going s routes (.report i :: rest) results =>
      .report
        ((TableProgress.ofTask i).under s.node)
        (.going s routes rest results)
  | .going s routes (.send a :: rest) results =>
      .send a {} fun
        | .ok r =>
            .going s routes rest (results ++ [.response r])
        | .error e =>
            .over
              (s.after routes .err (.error (.connection e)))
  | .going s routes (.askCancelled :: rest) results =>
      .askCancelled fun b =>
        .going s routes rest (results ++ [.flag b])
  | .going s routes (.untilCancelled :: rest) results =>
      .untilCancelled (.going s routes rest results)

/- A call of a node that is no action. -/
def call (s : State) (routes : Routes) :
    TableCall → Call State Task Nat fun _ => TrailKind
  | .apdu a options =>
      .send a options fun _ =>
        s.settle routes .connection .response
  | .getApp =>
      .ofCommand .getApp fun _ =>
        s.settle routes .command .app
  | .closeApp =>
      .ofCommand .closeApp fun _ =>
        s.settle routes .command fun _ => .done
  | .openApp c =>
      .ofCommand c fun _ =>
        s.settle routes .openApp fun _ => .done
  | .task steps => .task (.going s routes steps [])

/- What is done at a node; nothing follows the last one. -/
def act (s : State) :
    Option TableNode →
    Node TableKind State Task Nat fun _ => TrailKind
  | some (.decide next) => .decide { s with node := next }
  | some (.branch bound less more) =>
      .decide { s with
        node := if s.trail.length < bound then less else more }
  | some .success => .finish (.completed s.trail)
  | some .failure => .finish (.error ⟨s.trail.length⟩)
  | some .stopped => .finish .stopped
  | some (.call c routes) => .invoke s (call s routes c)
  | some (.os _ routes) =>
      .invoke s (.child s.node fun _ => s.join routes)
  | some (.sub _ _ routes) =>
      .invoke s (.child s.node fun _ => s.join routes)
  | none => .finish .stopped

def plan
    (nodes : List (Interaction × TableNode))
    (start : Nat) : Plan TableKind where
  State := State
  Task := Task
  Child := Nat
  kind := fun _ => TrailKind
  start := { node := start }
  view := fun s => {
    path := [s.node]
    shown := (nodes[s.node]?.map Prod.fst).getD .none
    events := s.trail.length }
  act := fun _ s => act s (nodes[s.node]?.map Prod.snd)
  work := fun _ => work
  lift := fun i p => p.under i

end Table

------------------------------------------------------------
-- Calls of Actions
------------------------------------------------------------

/- An action that stops at once. -/
def Action.idle : Action TrailKind :=
  .mk {
    State := Unit
    start := ()
    view := fun _ => .ofAction .none
    act := fun _ _ => .finish .stopped
    work := fun _ t => nomatch t
    lift := fun i => nomatch i }
    fun i => nomatch i

/- An action on the dashboard as a table calls it. -/
def Action.called
    {O : Type}
    (value : O → TrailValue)
    (a : Action (DashboardKind O)) : Action TrailKind :=
  a.map TableProgress.ofAction value .os

/- The action of a call. -/
def OsCall.child : OsCall → Action TrailKind
  | toDashboard => Action.toDashboard.called fun _ => .done
  | status p => (Action.status p).called .app
  | openApp name c p =>
      (Action.openWith name c p).called fun _ => .done

/- A table with the actions that its nodes call. -/
def Table.action
    (nodes : List (Interaction × TableNode))
    (start : Nat)
    (children : List (Action TrailKind)) : Action TableKind :=
  .mk (Table.plan nodes start) fun (i : Nat) =>
    children[i]?.getD .idle

/- A table as another table calls it. -/
def Action.nested (a : Action TableKind) : Action TrailKind :=
  a.map (fun (p : TableProgress) => p) .trail .table

mutual

/- The action that a node calls, if it calls one. -/
def TableNode.child : TableNode → Action TrailKind
  | .os c _ => c.child
  | .sub nodes start _ =>
      (Table.action nodes start (children nodes)).nested
  | _ => .idle

/- The actions that nodes call, by their position. -/
def TableNode.children :
    List (Interaction × TableNode) → List (Action TrailKind)
  | [] => []
  | (_, n) :: rest => n.child :: children rest

end

/- The action of a table. -/
def Action.table
    (nodes : List (Interaction × TableNode))
    (start : Nat) : Action TableKind :=
  Table.action nodes start (TableNode.children nodes)

end DeviceSession
