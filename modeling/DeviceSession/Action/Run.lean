import DeviceSession.Action.Basic
import DeviceSession.Action.Token
import DeviceSession.Turn

/-
  Running an action.

  A run walks through the nodes of a plan and of the actions
  that it calls.  It shows each call before it makes it, and
  stops as soon as it finds itself cancelled.  What becomes
  of a call after that is dropped.

  The first state is shown before the run begins, and is not
  shown again when the run comes to it, nor is the first
  state of an action that is called from there.

  A step is described once, by what it comes to and by what
  happens in it.

  Key definitions include:
    * `Sender`
    * `Effect`
    * `Scene`
    * `Scene.report`
    * `Scene.cancel`
    * `Run`
    * `Run.tell`
    * `Run.step`
    * `Run.effects`
    * `Execution`
    * `Execution.start`
    * `Execution.cancel`
    * `Execution.tell`
    * `Execution.step`
    * `Execution.effects`
-/

------------------------------------------------------------
-- Senders
------------------------------------------------------------

namespace DeviceSession

/-
  What an action needs to reach a device: a way to hand in
  APDUs in a world `W`, which then go by keys `K`.

  The flags tell that the action is cancelled from within
  an operation.
-/
structure Sender (W K : Type) where
  /- Hand in an APDU, at a time. -/
  submit : Nat → Apdu → RequestOptions → W → K × Bool × W
  /- Ask for the answer, at a time. -/
  poll : Nat → K → W → Option Answer × Bool × W
  /- Give up on the answer. -/
  withdraw : K → W → W

------------------------------------------------------------
-- Effects
------------------------------------------------------------

/- One thing that happens in an execution of a kind. -/
inductive Effect (r : ActionKind) where
  /- What a state asks for is looked up, under a token. -/
  | enter (token : Nat)
  /- What becomes of a call is turned into a state. -/
  | route (token : Nat)
  | send (a : Apdu) (options : RequestOptions)
  | report (progress : r.Progress)
  | cancel
  /- The run has ended. -/
  | resolve (o : r.Outcome)

------------------------------------------------------------
-- Scenes
------------------------------------------------------------

/- What a run shares with those who watch it. -/
structure Scene (k : ActionKind) where
  tokens : TokenForest
  log : k.Log

namespace Scene

variable {k : ActionKind}

/- The token of the whole run. -/
def root : Nat :=
  0

/- Show progress on behalf of a token. -/
def report
    (sc : Scene k)
    (token : Nat)
    (progress : k.Progress) : Scene k :=
  if sc.tokens.isCancelled token then sc
  else { sc with log := sc.log.offer (.pending progress) }

/- Cancel the run; this is shown at once. -/
def cancel (sc : Scene k) : Scene k where
  log := sc.log.offer .stopped
  tokens := (sc.tokens.cancel root).2

/- Cancel the run if this is wanted. -/
def cancelIf (sc : Scene k) (wanted : Bool) : Scene k :=
  if wanted then sc.cancel else sc

end Scene

/- The effects of a report; a cancelled token shows nothing. -/
def Effect.ofReport
    {r : ActionKind}
    (sc : Scene r)
    (token : Nat)
    (i : r.Progress) : List (Effect r) :=
  if sc.tokens.isCancelled token then [] else [report i]

/- The effects of a cancellation, if there is one. -/
def Effect.ofCancel
    {r : ActionKind}
    (wanted : Bool) : List (Effect r) :=
  if wanted then [cancel] else []

------------------------------------------------------------
-- Runs
------------------------------------------------------------

/- How far a task is. -/
inductive TaskStage (T K : Type) where
  | ready (t : T)
  | sending (key : K) (next : Answer → T)
  | sleeping (due : Nat) (next : T)
  /- Waiting to be cancelled. -/
  | held (next : T)

/- How far an action is that runs no other one. -/
inductive Stage (S T K : Type) where
  /- About to do what a state asks for. -/
  | ready (s : S)
  | sending (key : K) (next : Nat → Answer → S)
  | waiting (due : Nat) (next : Nat → S)
  | working (t : TaskStage T K)

/-
  A run of an action under a token.  It is silent until it
  has come to its first node, if that has been shown.
-/
inductive Run (K : Type) : ActionKind → Type 1 where
  | here {k : ActionKind}
      (a : Action k)
      (token : Nat)
      (silent : Bool)
      (stage : Stage a.plan.State a.plan.Task K) : Run K k
  | within {k : ActionKind}
      (a : Action k)
      (token : Nat)
      (i : a.plan.Child)
      (next : Nat → (a.plan.kind i).Outcome → a.plan.State)
      (inner : Run K (a.plan.kind i)) : Run K k

namespace Run

variable {W K : Type} {k r : ActionKind}

def token : Run K k → Nat
  | here _ t _ _ => t
  | within _ t _ _ _ => t

/- An action at its start. -/
def start (a : Action k) (token : Nat) (silent : Bool) :
    Run K k :=
  here a token silent (.ready a.plan.start)

/- The times that a run waits for by itself. -/
def timers {k : ActionKind} : Run K k → List Nat
  | here _ _ _ (.waiting due _) => [due]
  | here _ _ _ (.working (.sleeping due _)) => [due]
  | here _ _ _ _ => []
  | within _ _ _ _ inner => inner.timers

------------------------------------------------------------
-- Giving Up
------------------------------------------------------------

/- Withdraw what a stage has handed in. -/
def withdraw
    {S T : Type}
    (x : Sender W K)
    (w : W) : Stage S T K → W
  | .sending key _ => x.withdraw key w
  | .working (.sending key _) => x.withdraw key w
  | _ => w

/- Give up a run with its calls and its tokens. -/
def abandon
    (x : Sender W K)
    {k : ActionKind}
    (tokens : TokenForest)
    (w : W) : Run K k → TokenForest × W
  | here _ t _ stage => (tokens.release t, withdraw x w stage)
  | within _ t _ _ inner =>
      let (tokens, w) := inner.abandon x tokens w
      (tokens.release t, w)

------------------------------------------------------------
-- Steps
------------------------------------------------------------

/- What a step of a run of kind `k` comes to. -/
abbrev Result (W K : Type) (k r : ActionKind) :=
  Turn (Run K k) k.Outcome × Scene r × W

/- What a step comes to, and what happens in it. -/
abbrev Told (W K : Type) (k r : ActionKind) :=
  Result W K k r × List (Effect r)

/- The same step when other things have happened before. -/
def Told.after
    (t : Told W K k r)
    (ds : List (Effect r)) : Told W K k r :=
  (t.1, ds ++ t.2)

/- The state after a call, unless the run is cancelled. -/
def resume
    (a : Action k)
    (token : Nat)
    (s : a.plan.State)
    (sc : Scene r)
    (w : W) : Told W K k r :=
  if sc.tokens.isCancelled token then
    ((.done .stopped, sc, w), [])
  else
    ((.go (here a token false (.ready s)), sc, w),
      [.route token])

/- Wait in a stage, unless the run is cancelled. -/
def hold
    (x : Sender W K)
    (a : Action k)
    (token : Nat)
    (stage : Stage a.plan.State a.plan.Task K)
    (sc : Scene r)
    (w : W) : Result W K k r :=
  if sc.tokens.isCancelled token then
    (.done .stopped, sc, withdraw x w stage)
  else (.wait (here a token false stage), sc, w)

/- Make a call. -/
def makeCall
    (x : Sender W K)
    (now : Nat)
    (a : Action k)
    (token : Nat)
    (silent : Bool)
    (sc : Scene r)
    (w : W) :
    Call a.plan.State a.plan.Task a.plan.Child a.plan.kind →
    Told W K k r
  | .send apdu options next =>
      let (key, cancels, w) := x.submit now apdu options w
      ((.go (here a token false (.sending key next)),
        sc.cancelIf cancels, w),
        .send apdu options :: Effect.ofCancel cancels)
  | .wait ms next =>
      ((.go (here a token false (.waiting (now + ms) next)),
        sc, w), [])
  | .task t =>
      ((.go (here a token false (.working (.ready t))),
        sc, w), [])
  | .child i next =>
      let (t, tokens) := sc.tokens.child token
      ((.go (within a token i next (start (a.child i) t silent)),
        { sc with tokens }, w), [])

/-
  Do what a state asks for, unless the run is cancelled.  A
  call is shown first, unless that has been done already.
-/
def act
    (x : Sender W K)
    (now : Nat)
    (up : k.Progress → r.Progress)
    (a : Action k)
    (token : Nat)
    (silent : Bool)
    (s : a.plan.State)
    (sc : Scene r)
    (w : W) : Told W K k r :=
  if sc.tokens.isCancelled token then
    ((.done .stopped, sc, w), [])
  else
    match a.plan.act now s with
    | .decide next =>
        ((.go (here a token false (.ready next)), sc, w),
          [.enter token])
    | .finish o => ((.done o, sc, w), [.enter token])
    | .invoke s call =>
        let i := up (a.plan.view s)
        let (sc, ds) :=
          if silent then (sc, [])
          else (sc.report token i, Effect.ofReport sc token i)
        (makeCall x now a token silent sc w call).after
          (.enter token :: ds)

/- One step of a task. -/
def taskStep
    (x : Sender W K)
    (now : Nat)
    (up : k.Progress → r.Progress)
    (a : Action k)
    (token : Nat)
    (stage : TaskStage a.plan.Task K)
    (sc : Scene r)
    (w : W) : Told W K k r :=
  let go (t : TaskStage a.plan.Task K) : Run K k :=
    here a token false (.working t)
  match stage with
  | .ready t =>
      match a.plan.work now t with
      | .send apdu options next =>
          let (key, cancels, w) := x.submit now apdu options w
          ((.go (go (.sending key next)),
            sc.cancelIf cancels, w),
            .send apdu options :: Effect.ofCancel cancels)
      | .sleep ms next =>
          ((.go (go (.sleeping (now + ms) next)), sc, w), [])
      | .report progress next =>
          ((.go (go (.ready next)),
            sc.report token (up progress), w),
            Effect.ofReport sc token (up progress))
      | .askCancelled next =>
          ((.go (go (.ready (next (sc.tokens.isCancelled token)))),
            sc, w), [])
      | .untilCancelled next =>
          ((.go (go (.held next)), sc, w), [])
      | .finish s => resume a token s sc w
  | .sending key next =>
      match x.poll now key w with
      | (some answer, cancels, w) =>
          ((.go (go (.ready (next answer))),
            sc.cancelIf cancels, w), Effect.ofCancel cancels)
      | (none, cancels, w) =>
          (hold x a token (.working (.sending key next))
            (sc.cancelIf cancels) w, Effect.ofCancel cancels)
  | .sleeping due next =>
      if due ≤ now then ((.go (go (.ready next)), sc, w), [])
      else
        (hold x a token (.working (.sleeping due next)) sc w, [])
  | .held next =>
      if sc.tokens.isCancelled token then
        ((.go (go (.ready next)), sc, w), [])
      else (hold x a token (.working (.held next)) sc w, [])

/- One step of an action that runs no other one. -/
def stageStep
    (x : Sender W K)
    (now : Nat)
    (up : k.Progress → r.Progress)
    (a : Action k)
    (token : Nat)
    (silent : Bool)
    (stage : Stage a.plan.State a.plan.Task K)
    (sc : Scene r)
    (w : W) : Told W K k r :=
  match stage with
  | .ready s => act x now up a token silent s sc w
  | .sending key next =>
      match x.poll now key w with
      | (some answer, cancels, w) =>
          (resume a token (next now answer)
            (sc.cancelIf cancels) w).after
            (Effect.ofCancel cancels)
      | (none, cancels, w) =>
          (hold x a token (.sending key next)
            (sc.cancelIf cancels) w, Effect.ofCancel cancels)
  | .waiting due next =>
      if due ≤ now then resume a token (next now) sc w
      else (hold x a token (.waiting due next) sc w, [])
  | .working t => taskStep x now up a token t sc w

/-
  What a step of an inner action is to the one around it,
  which looks at its own token once the inner one waits or
  has ended.  The token `inside` is the inner one's.
-/
def enclose
    (x : Sender W K)
    (now : Nat)
    (a : Action k)
    (token inside : Nat)
    (i : a.plan.Child)
    (next : Nat → (a.plan.kind i).Outcome → a.plan.State) :
    Told W K (a.plan.kind i) r → Told W K k r
  | ((.go inner, sc, w), ds) =>
      ((.go (within a token i next inner), sc, w), ds)
  | ((.wait inner, sc, w), ds) =>
      if sc.tokens.isCancelled token then
        let (tokens, w) := inner.abandon x sc.tokens w
        ((.done .stopped, { sc with tokens }, w), ds)
      else ((.wait (within a token i next inner), sc, w), ds)
  | ((.done o, sc, w), ds) =>
      let tokens := sc.tokens.release inside
      (resume a token (next now o) { sc with tokens } w).after ds

/- One step of a run.  The innermost action moves. -/
def tell
    (x : Sender W K)
    (now : Nat)
    {k : ActionKind}
    (run : Run K k)
    (up : k.Progress → r.Progress)
    (sc : Scene r)
    (w : W) : Told W K k r :=
  match run with
  | here a token silent stage =>
      stageStep x now up a token silent stage sc w
  | within a token i next inner =>
      enclose x now a token inner.token i next
        (inner.tell x now (up ∘ a.plan.lift i) sc w)

/- What a step comes to. -/
def step
    (x : Sender W K)
    (now : Nat)
    (run : Run K k)
    (up : k.Progress → r.Progress)
    (sc : Scene r)
    (w : W) : Result W K k r :=
  (run.tell x now up sc w).1

/- What happens in a step. -/
def effects
    (x : Sender W K)
    (now : Nat)
    (run : Run K k)
    (up : k.Progress → r.Progress)
    (sc : Scene r)
    (w : W) : List (Effect r) :=
  (run.tell x now up sc w).2

end Run

------------------------------------------------------------
-- Executions
------------------------------------------------------------

/- A run with its scene; there is no run once it has ended. -/
structure Execution (K : Type) (k : ActionKind) where
  run : Option (Run K k)
  scene : Scene k

namespace Execution

variable {W K : Type} {k : ActionKind}

/- An action whose first state is shown, and no more. -/
def start (a : Action k) : Execution K k where
  run := some (.start a Scene.root true)
  scene := {
    tokens := TokenForest.fresh {} |>.2
    log := ActionLog.offer {} (.pending a.preview) }

/- Cancel the execution. -/
def cancel (e : Execution K k) : Execution K k :=
  { e with scene := e.scene.cancel }

def isFinished (e : Execution K k) : Bool :=
  e.scene.log.finished

/- The state shown last. -/
def latest (e : Execution K k) : k.State :=
  e.scene.log.latest?.getD .notStarted

/- The times that the run waits for by itself. -/
def timers (e : Execution K k) : List Nat :=
  e.run.elim [] Run.timers

/-
  One step of the run, and what happens in it.  The flag
  tells that the run has moved.
-/
def tell
    (x : Sender W K)
    (now : Nat)
    (e : Execution K k)
    (w : W) :
    (Bool × Execution K k × W) × List (Effect k) :=
  match e.run with
  | none => ((false, e, w), [])
  | some run =>
      match run.tell x now id e.scene w with
      | ((.go run, scene, w), ds) =>
          ((true, ⟨some run, scene⟩, w), ds)
      | ((.wait run, scene, w), ds) =>
          ((false, ⟨some run, scene⟩, w), ds)
      | ((.done o, scene, w), ds) =>
          let log := scene.log.offer o.state
          ((true, ⟨none, { scene with log }⟩, w),
            ds ++ [.resolve o])

/- One step of the run; true if it has moved. -/
def step
    (x : Sender W K)
    (now : Nat)
    (e : Execution K k)
    (w : W) : Bool × Execution K k × W :=
  (e.tell x now w).1

/- What happens in a step of the run. -/
def effects
    (x : Sender W K)
    (now : Nat)
    (e : Execution K k)
    (w : W) : List (Effect k) :=
  (e.tell x now w).2

end Execution

end DeviceSession
