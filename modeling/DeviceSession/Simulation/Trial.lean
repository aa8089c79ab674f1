import DeviceSession.Action.Run
import DeviceSession.Simulation.Clock
import DeviceSession.Simulation.Viewer

/-
  An action that is answered from a list.

  The replies are used one after another; when there are no
  more of them, every command is answered with a timeout.

  Key definitions include:
    * `ListedReply`
    * `Coming`
    * `ReplyList`
    * `ReplyList.sender`
    * `Trial`
    * `Trial.start`
    * `Trial.run`
-/

------------------------------------------------------------
-- Lists of Replies
------------------------------------------------------------

namespace DeviceSession

/- A reply to a command. -/
structure ListedReply where
  answer : Answer
  /- How long it takes; without it, it never comes. -/
  delay : Option Nat := some 0
  /- The action is cancelled as the command is sent. -/
  cancels : Bool := false

/- A command that was sent. -/
structure Sent where
  time : Nat
  apdu : Apdu
  options : RequestOptions

/- An answer on its way to a command. -/
structure Coming where
  command : Nat
  due : Nat
  answer : Answer

/- The replies left, and what they have been used for. -/
structure ReplyList where
  replies : List ListedReply := []
  sent : Array Sent := #[]
  coming : List Coming := []

namespace ReplyList

/- The reply to the next command. -/
def next (x : ReplyList) : ListedReply :=
  x.replies.head?.getD ⟨.error .timeout, some 0, false⟩

/- Send a command. -/
def submit
    (now : Nat)
    (apdu : Apdu)
    (options : RequestOptions)
    (x : ReplyList) : Nat × Bool × ReplyList :=
  let reply := x.next
  let n := x.sent.size
  let coming := reply.delay.toList.map fun ms =>
    ⟨n, now + ms, reply.answer⟩
  (n, reply.cancels,
    { replies := x.replies.drop 1
      sent := x.sent.push ⟨now, apdu, options⟩
      coming := x.coming ++ coming })

/- Forget the answer to a command. -/
def withdraw (n : Nat) (x : ReplyList) : ReplyList :=
  { x with coming := x.coming.filter (·.command != n) }

/- Take the answer to a command, if it has come. -/
def poll (now n : Nat) (x : ReplyList) :
    Option Answer × Bool × ReplyList :=
  let arrived (c : Coming) : Bool :=
    c.command == n && c.due ≤ now
  match x.coming.find? arrived with
  | some c => (some c.answer, false, x.withdraw n)
  | none => (none, false, x)

/- The times at which answers come. -/
def timers (x : ReplyList) : List Nat :=
  x.coming.map Coming.due

/- Commands are answered from the list. -/
def sender : Sender ReplyList Nat where
  submit := submit
  poll := poll
  withdraw := withdraw

end ReplyList

------------------------------------------------------------
-- Trials
------------------------------------------------------------

structure Trial where
  execution : Execution Nat AnyKind
  replies : ReplyList
  /- The time at which the action is to be cancelled. -/
  cancelAt : Option Nat := none
  /- Those who watch; the first one is there before the
     action runs. -/
  viewers : Array Viewer := #[]

namespace Trial

/- A trial in which nothing has happened yet. -/
def start
    (a : Action AnyKind)
    (replies : List ListedReply)
    (cancelAt : Option Nat)
    (viewers : List Viewer) : Trial :=
  let execution := Execution.start a
  { execution
    replies := { replies }
    cancelAt
    viewers :=
      (Viewer.join execution.scene.log :: viewers).toArray }

/- Cancel the action. -/
def cancel (t : Trial) : Trial :=
  { t with execution := t.execution.cancel }

/- One step of the action; true if it has moved. -/
def runStep (now : Nat) (t : Trial) : Bool × Trial :=
  let (moved, execution, replies) :=
    t.execution.step ReplyList.sender now t.replies
  (moved, { t with execution, replies })

/- Cancel the action when its time has come. -/
def cancelStep (now : Nat) (t : Trial) : Bool × Trial :=
  if t.cancelAt.any (· ≤ now) then
    (true, { t.cancel with cancelAt := none })
  else (false, t)

/- One step of a viewer; true if it has moved. -/
def viewerStep (n now : Nat) (t : Trial) : Bool × Trial :=
  match t.viewers[n]? with
  | none => (false, t)
  | some v =>
      let (moved, v) := v.step now t.execution.scene.log
      (moved,
        { t with viewers := t.viewers.setIfInBounds n v })

/- The times that anyone waits for. -/
def timers (t : Trial) : List Nat :=
  t.execution.timers ++ t.replies.timers ++
    t.cancelAt.toList ++
    t.viewers.toList.flatMap Viewer.timers

/- Whether all that was planned has happened. -/
def finished (t : Trial) : Bool :=
  t.execution.run.isNone && t.cancelAt.isNone &&
    t.viewers.all Viewer.isDone

/- The action, its cancellation and its viewers. -/
def tasks (t : Trial) : Tasks Trial where
  steps :=
    runStep :: cancelStep ::
      (List.range t.viewers.size).map viewerStep
  timers := timers
  finished := finished

/- Carry the trial out. -/
def run (t : Trial) (limit : Nat) : End × Nat × Trial :=
  t.tasks.runFrom limit 0 t

/- The time at which the first viewer saw the end. -/
def finishTime? (t : Trial) : Option Nat :=
  t.viewers[0]?.bind Viewer.ended

end Trial

end DeviceSession
