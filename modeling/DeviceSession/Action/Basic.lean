import DeviceSession.Action.Log
import DeviceSession.Command.Basic

/-
  Actions on a device.

  An action is a plan: it says for each of its states
  whether to go on, to end, or to make a call and wait for
  what becomes of it.  A call may be an action of its own.

  Key definitions include:
    * `ActionKind`
    * `Work`
    * `Call`
    * `Node`
    * `Plan`
    * `Action`
    * `Action.map`
-/

------------------------------------------------------------
-- Kinds of Actions
------------------------------------------------------------

namespace DeviceSession

/- What can be seen of an action from outside. -/
structure ActionKind where
  /- What is shown while it runs. -/
  Progress : Type
  /- What it completes with. -/
  Output : Type
  /- What it fails with. -/
  Error : Type

/- How an action of a kind ends. -/
abbrev ActionKind.Outcome (k : ActionKind) : Type :=
  DeviceSession.Outcome k.Output k.Error

/- The states of an action of a kind. -/
abbrev ActionKind.State (k : ActionKind) : Type :=
  ActionState k.Progress k.Output k.Error

/- The log of an action of a kind. -/
abbrev ActionKind.Log (k : ActionKind) : Type :=
  ActionLog k.Progress k.Output k.Error

------------------------------------------------------------
-- Calls
------------------------------------------------------------

/-
  What a task does next, given a type `T` of tasks.  A task
  ends with a state `S` of its action, and may show progress
  on the way.
-/
inductive Work (S T I : Type) where
  | send
      (a : Apdu)
      (options : RequestOptions)
      (next : Answer → T)
  | sleep (ms : Nat) (next : T)
  | report (progress : I) (next : T)
  /- Look whether the action has been cancelled. -/
  | askCancelled (next : Bool → T)
  /- Wait until the action is cancelled. -/
  | untilCancelled (next : T)
  | finish (next : S)

/-
  What an action waits for.  The state that follows depends
  on what becomes of the call, and on the time.
-/
inductive Call
    (S T C : Type)
    (kind : C → ActionKind) where
  | send
      (a : Apdu)
      (options : RequestOptions)
      (next : Nat → Answer → S)
  | wait (ms : Nat) (next : Nat → S)
  | task (t : T)
  /- Run another action. -/
  | child (i : C) (next : Nat → (kind i).Outcome → S)

namespace Call

variable {S T C : Type} {kind : C → ActionKind}

/- Send a command and read its result. -/
def ofCommand
    {E R : Type}
    (c : Command E R)
    (next : Nat → Except (CommandError E) R → S) :
    Call S T C kind :=
  .send c.apdu c.options fun now a => next now (c.settle a)

end Call

------------------------------------------------------------
-- Plans
------------------------------------------------------------

/- What an action does in a state. -/
inductive Node
    (k : ActionKind)
    (S T C : Type)
    (kind : C → ActionKind) where
  /- Go on to another state. -/
  | decide (next : S)
  /- Show the state, and make a call from it. -/
  | invoke (here : S) (call : Call S T C kind)
  | finish (r : k.Outcome)

/- The states of an action and what it does in them. -/
structure Plan (k : ActionKind) where
  State : Type
  /- The states of its tasks. -/
  Task : Type := Empty
  /- The actions that it may run, and their kinds. -/
  Child : Type := Empty
  kind : Child → ActionKind := fun _ => k
  start : State
  /- What a state shows. -/
  view : State → k.Progress
  /- What is done in a state, at a time. -/
  act : Nat → State → Node k State Task Child kind
  /- What a task does, at a time. -/
  work : Nat → Task → Work State Task k.Progress
  /- How the progress of another action is shown. -/
  lift : (i : Child) → (kind i).Progress → k.Progress

/- A plan with the actions that it may run. -/
inductive Action : ActionKind → Type 1 where
  | mk {k : ActionKind}
      (plan : Plan k)
      (child : (i : plan.Child) → Action (plan.kind i)) :
      Action k

namespace Action

variable {k : ActionKind}

def plan : Action k → Plan k
  | mk p _ => p

/- The actions that an action may run. -/
def child :
    (a : Action k) →
    (i : a.plan.Child) →
    Action (a.plan.kind i)
  | mk _ c => c

/- What an action shows before it has done anything. -/
def preview (a : Action k) : k.Progress :=
  a.plan.view a.plan.start

end Action

------------------------------------------------------------
-- Actions Seen Differently
------------------------------------------------------------

/- The same outcome with its parts seen differently. -/
def Outcome.map
    {O O' E E' : Type}
    (f : O → O')
    (g : E → E') : Outcome O E → Outcome O' E'
  | .completed o => .completed (f o)
  | .error e => .error (g e)
  | .stopped => .stopped

/- The same work with its progress seen differently. -/
def Work.map
    {S T I I' : Type}
    (f : I → I') : Work S T I → Work S T I'
  | .send a options next => .send a options next
  | .sleep ms next => .sleep ms next
  | .report progress next => .report (f progress) next
  | .askCancelled next => .askCancelled next
  | .untilCancelled next => .untilCancelled next
  | .finish next => .finish next

/- The same node with its outcome seen differently. -/
def Node.map
    {k k' : ActionKind}
    {S T C : Type}
    {kind : C → ActionKind}
    (f : k.Outcome → k'.Outcome) :
    Node k S T C kind → Node k' S T C kind
  | .decide next => .decide next
  | .invoke here call => .invoke here call
  | .finish r => .finish (f r)

/- The same plan, seen as one of another kind. -/
def Plan.map
    {k k' : ActionKind}
    (f : k.Progress → k'.Progress)
    (g : k.Output → k'.Output)
    (h : k.Error → k'.Error)
    (p : Plan k) : Plan k' where
  State := p.State
  Task := p.Task
  Child := p.Child
  kind := p.kind
  start := p.start
  view := fun s => f (p.view s)
  act := fun now s => (p.act now s).map (Outcome.map g h)
  work := fun now t => (p.work now t).map f
  lift := fun i progress => f (p.lift i progress)

/- The same action, seen as one of another kind. -/
def Action.map
    {k k' : ActionKind}
    (f : k.Progress → k'.Progress)
    (g : k.Output → k'.Output)
    (h : k.Error → k'.Error) :
    Action k → Action k'
  | mk p c => mk (p.map f g h) c

end DeviceSession
