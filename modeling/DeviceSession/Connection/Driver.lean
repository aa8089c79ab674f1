import DeviceSession.Command.Dashboard
import DeviceSession.Connection.BringUp
import DeviceSession.Exchange.Basic

/-
  The driver of a connection.

  It brings up links, puts one request after another on the
  link, and answers them.  What comes of its work is an
  input of the lifecycle; it then does what the new state
  asks for.

  Key definitions include:
    * `Job`
    * `Driver`
    * `Driver.arrive`
    * `Driver.feed`
    * `Driver.serve`
    * `Driver.step`
    * `Driver.timers`
-/

------------------------------------------------------------
-- Jobs
------------------------------------------------------------

namespace DeviceSession

/- What a driver is doing. -/
inductive Job (L : Type) where
  /- About to do what the state asks for. -/
  | idle
  /- Bringing up a link. -/
  | bringingUp (x : BringUp L)
  /- Waiting for a request, or for the loss of the link. -/
  | serving (asked : Asked)
  /- A request is on the link. -/
  | exchanging (r : Request) (x : Exchange)
  /- Asking the device whether it is still there. -/
  | checking (x : Exchange)

/- A driver, with the link in use. -/
structure Driver (L : Type) where
  link : Option (HostEnd L) := none
  job : Job L := .idle
  /- Why requests that still wait at the end fail. -/
  failure : ConnectionError := .terminated

namespace Driver

variable {W L : Type}

/- The times that the driver waits for. -/
def timers (d : Driver L) : List Nat :=
  match d.job with
  | .bringingUp x => x.timers
  | .exchanging _ x => x.timers
  | .checking x => x.timers
  | _ => []

def goto (d : Driver L) (j : Job L) : Driver L :=
  { d with job := j }

------------------------------------------------------------
-- Changes of State
------------------------------------------------------------

/- Give up the link in use, if there is one. -/
def closeLink (c : Connector W L) (d : Driver L) (w : W) :
    Driver L × W :=
  match d.link with
  | some e => ({ d with link := none }, c.close e.link w)
  | none => (d, w)

/- Do what a change of state asks for. -/
def arrive
    (c : Connector W L)
    (now : Nat)
    (old new : Lifecycle)
    (d : Driver L)
    (k : Connection)
    (w : W) : Driver L × Connection × W :=
  if old = new then (d, k, w)
  else
    match new with
    | .disconnected g _ =>
        if old.isLinked then
          let (d, w) := d.closeLink c w
          (d, k.tell now (.disconnected g), w)
        else (d, k, w)
    | .connected g =>
        if old = .connecting then
          (d, k.tell now (.connected g), w)
        else if old.isLinked then (d, k, w)
        else (d, k.tell now (.reconnected g), w)
    | .terminated =>
        let (d, w) := d.closeLink c w
        (d, k.tell now .terminated, w)
    | .connecting => (d, k, w)
    | .awaitingDisconnection _ => (d, k, w)

/- Apply an input of the lifecycle, and be idle after it. -/
def feed
    (c : Connector W L)
    (now : Nat)
    (input : LifecycleInput)
    (d : Driver L)
    (k : Connection)
    (w : W) : Driver L × Connection × W :=
  let budget := k.settings.reconnectBudget.toNat
  let old := k.state
  let new := old.next input now budget
  let failure :=
    if new.isTerminated ∧ input ≠ .closeRequested then
      .disconnectedBeforeSending
    else d.failure
  arrive c now old new
    { d with job := .idle, failure }
    { k with state := new } w

------------------------------------------------------------
-- Requests
------------------------------------------------------------

/- Begin to bring up a link; an old one is given up. -/
def bringUp
    (c : Connector W L)
    (deadline : Nat)
    (d : Driver L)
    (w : W) : Driver L × W :=
  let (d, w) := d.closeLink c w
  (d.goto (.bringingUp { deadline }), w)

/-
  Put a request on the link, unless its caller has gone.
-/
def serve
    (c : Connector W L)
    (now : Nat)
    (r : Request)
    (d : Driver L)
    (k : Connection)
    (w : W) : Driver L × Connection × W :=
  if k.callerGone r then
    feed c now .exchangeRejected d k w
  else
    let timeout := r.options.timeout.getD k.apduTimeout
    (d.goto (.exchanging r (.ofCommand r.apdu now timeout)),
      k, w)

/- Whether the device restarts its link after a response. -/
def triggers (r : Request) (x : Response) : Bool :=
  x.isSuccess &&
    (r.options.restartsLink ||
      r.apdu.restartsLink)

/- What the end of an exchange means, to caller and link. -/
def settle (r : Request) :
    Except ExchangeError Response → Answer × LifecycleInput
  | .ok x => (.ok x, .exchangeSucceeded (triggers r x))
  | .error .timeout => (.error .timeout, .exchangeTimedOut)
  | .error (.protocol e) =>
      (.error (.protocol e), .exchangeCorrupted)
  | .error (.link _) =>
      (.error .disconnectedWhileSending, .linkLost)
  | .error .writeRetriesExhausted =>
      (.error .disconnectedWhileSending, .linkLost)
  | .error .notReady => (.error .notReady, .exchangeRejected)

/- What the end of a check means. -/
def settleCheck :
    Except ExchangeError Response → LifecycleInput
  | .ok _ => .stillLinked
  | .error .timeout => .exchangeTimedOut
  | .error (.protocol _) => .exchangeCorrupted
  | .error (.link _) => .linkLost
  | .error .writeRetriesExhausted => .linkLost
  | .error .notReady => .stillLinked

------------------------------------------------------------
-- Steps
------------------------------------------------------------

/- What a step of a driver comes to. -/
abbrev Result (W L : Type) :=
  Turn (Driver L) Unit × Connection × W

/- The driver goes on after a change. -/
def moved : Driver L × Connection × W → Result W L
  | (d, k, w) => (.go d, k, w)

/- Begin what the state asks for, or end. -/
def begin
    (c : Connector W L)
    (now : Nat)
    (d : Driver L)
    (k : Connection)
    (w : W) : Result W L :=
  match k.state with
  | .terminated => (.done (), k.failAll d.failure, w)
  | .connecting =>
      let budget := k.settings.reconnectBudget.toNat
      let (d, w) := d.bringUp c (now + budget) w
      (.go d, k, w)
  | .disconnected _ deadline =>
      let (d, w) := d.bringUp c deadline w
      (.go d, k, w)
  | .connected _ =>
      if d.link.isSome then (.go (d.goto (.serving .first)), k, w)
      else moved (feed c now .linkLost d k w)
  | .awaitingDisconnection _ =>
      if d.link.isSome then
        let x := Exchange.ofCommand Command.getApp.apdu now
          k.apduTimeout
        (.go (d.goto (.checking x)), k, w)
      else moved (feed c now .linkLost d k w)

/-
  End what the driver is doing because the connection is to
  be closed.
-/
def interrupt
    (c : Connector W L)
    (now : Nat)
    (d : Driver L)
    (k : Connection)
    (w : W) : Result W L :=
  let k := { k with closing := false }
  let (k, w) := match d.job with
    | .exchanging r _ => (k.answer r (.error .terminated), w)
    | .bringingUp x => (k, x.abort c w)
    | _ => (k, w)
  moved (feed c now .closeRequested d k w)

/- Go on with what the driver is doing. -/
def work
    (c : Connector W L)
    (now : Nat)
    (d : Driver L)
    (k : Connection)
    (w : W) : Result W L :=
  let policy := WritePolicy.ofSettings k.settings
  match d.job, d.link with
  | .bringingUp x, _ =>
      match x.step c now k w with
      | (.go x, k, w) => (.go (d.goto (.bringingUp x)), k, w)
      | (.wait x, k, w) =>
          (.wait (d.goto (.bringingUp x)), k, w)
      | (.done (.linked e), k, w) =>
          moved (feed c now .reconnected
            { d with link := some e } k w)
      | (.done .expired, k, w) =>
          moved (feed c now .budgetExpired d k w)
  | .serving asked, some e =>
      match k.queue with
      | r :: rest =>
          moved (serve c now r d { k with queue := rest } w)
      | [] =>
          match Watch.step c asked e w with
          | (.go asked, w) =>
              (.go (d.goto (.serving asked)), k, w)
          | (.wait asked, w) =>
              (.wait (d.goto (.serving asked)), k, w)
          | (.done _, w) => moved (feed c now .linkLost d k w)
  | .exchanging r x, some e =>
      match Exchange.step c policy now x e w with
      | (.go x, e, w) =>
          (.go { d with
            job := .exchanging r x, link := some e }, k, w)
      | (.wait x, e, w) =>
          (.wait { d with
            job := .exchanging r x, link := some e }, k, w)
      | (.done result, e, w) =>
          let (a, input) := settle r result
          moved (feed c now input
            { d with link := some e } (k.answer r a) w)
  | .checking x, some e =>
      match Exchange.step c policy now x e w with
      | (.go x, e, w) =>
          (.go { d with
            job := .checking x, link := some e }, k, w)
      | (.wait x, e, w) =>
          (.wait { d with
            job := .checking x, link := some e }, k, w)
      | (.done result, e, w) =>
          moved (feed c now (settleCheck result)
            { d with link := some e } k w)
  | _, _ => moved (feed c now .linkLost d k w)

/-
  One step of a driver.  Between its jobs it looks at the
  state; within a job a wish to close comes before all else.
-/
def step
    (c : Connector W L)
    (now : Nat)
    (d : Driver L)
    (k : Connection)
    (w : W) : Result W L :=
  match d.job with
  | .idle => d.begin c now k w
  | _ =>
      if k.closing then d.interrupt c now k w
      else d.work c now k w

end Driver

end DeviceSession
