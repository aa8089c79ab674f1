import DeviceSession.Connection.Driver
import DeviceSession.Connection.Sender
import DeviceSession.Device.Basic
import DeviceSession.Simulation.Clock
import DeviceSession.Simulation.Viewer

/-
  A connection with its driver, a device and clients.

  Each client carries out a list of steps, one after
  another.  When all of them are done the connection is
  closed and driven to its end.

  Key definitions include:
    * `ClientStep`
    * `ClientResult`
    * `Client`
    * `Session`
    * `Session.start`
    * `Session.run`
-/

------------------------------------------------------------
-- Steps of a Client
------------------------------------------------------------

namespace DeviceSession

inductive ClientStep where
  | send (a : Apdu) (options : RequestOptions)
  /- Send a command, and go away after some time. -/
  | abandon (a : Apdu) (ms : Nat)
  | openApp (c : Command OpenAppError Unit)
  | closeApp
  | getApp
  /- Run an action, and cancel it after some time. -/
  | perform (a : Action AnyKind) (cancelAfter : Option Nat)
  | sleep (ms : Nat)
  | close
  | control (c : PipeChange)
  | look
  /- A step that cannot be carried out. -/
  | refused (e : BuildError)

/- What a step comes to. -/
inductive ClientResult where
  | response (a : Answer)
  | abandoned
  | openedApp (r : Except (CommandError OpenAppError) Unit)
  | closedApp (r : Except (CommandError Empty) Unit)
  | app (r : Except (CommandError Empty) AppInfo)
  /- What was seen of an action. -/
  | performed
      (seen : Array (Nat × AnyKind.State))
      (latest : AnyKind.State)
      (finished : Bool)
  | slept
  | closing
  | controlled
  /- The state, and the number of links opened so far. -/
  | state (s : Lifecycle) (opened : Nat)
  | refused (e : BuildError)

------------------------------------------------------------
-- Clients
------------------------------------------------------------

/- What a client is doing. -/
inductive Pursuit where
  | idle
  | requesting (t : Ticket) (read : Answer → ClientResult)
  | abandoning (t : Ticket) (due : Nat)
  | performing
      (e : Execution Ticket AnyKind)
      (v : Viewer)
      (cancelAt : Option Nat)
  | sleeping (due : Nat)

/- The times that a client waits for. -/
def Pursuit.timers : Pursuit → List Nat
  | idle => []
  | requesting _ _ => []
  | abandoning _ due => [due]
  | performing e _ cancelAt => e.timers ++ cancelAt.toList
  | sleeping due => [due]

structure Client where
  steps : List ClientStep
  pursuit : Pursuit := .idle
  /- The results so far, with the times. -/
  results : Array (Nat × ClientResult) := #[]

namespace Client

/- Whether the client has carried out all of its steps. -/
def isDone (c : Client) : Bool :=
  match c.pursuit, c.steps with
  | .idle, [] => true
  | _, _ => false

/- Take down a result. -/
def report (c : Client) (now : Nat) (r : ClientResult) :
    Client :=
  { c with
    pursuit := .idle
    results := c.results.push (now, r) }

/- What clients share. -/
abbrev Shared :=
  Connection × PipeHub

/- Hand in a request and wait for its answer. -/
def request
    (c : Client)
    (k : Connection)
    (hub : PipeHub)
    (a : Apdu)
    (options : RequestOptions)
    (read : Answer → ClientResult) : Client × Shared :=
  let (ticket, k) := k.submit a options
  ({ c with pursuit := .requesting ticket read }, k, hub)

/- Hand in a command and wait for its result. -/
def ask
    {E R : Type}
    (c : Client)
    (k : Connection)
    (hub : PipeHub)
    (x : Command E R)
    (read : Except (CommandError E) R → ClientResult) :
    Client × Shared :=
  c.request k hub x.apdu x.options fun a => read (x.settle a)

/- Begin a step. -/
def begin
    (now : Nat)
    (c : Client)
    (k : Connection)
    (hub : PipeHub) : ClientStep → Client × Shared
  | .send a options => c.request k hub a options .response
  | .abandon a ms =>
      let (ticket, k) := k.submit a {}
      let pursuit := .abandoning ticket (now + ms)
      ({ c with pursuit }, k, hub)
  | .openApp x => c.ask k hub x .openedApp
  | .closeApp => c.ask k hub Command.closeApp .closedApp
  | .getApp => c.ask k hub Command.getApp .app
  | .perform a cancelAfter =>
      let e := Execution.start a
      let v := Viewer.join e.scene.log
      let cancelAt := cancelAfter.map (now + ·)
      ({ c with pursuit := .performing e v cancelAt }, k, hub)
  | .sleep ms =>
      ({ c with pursuit := .sleeping (now + ms) }, k, hub)
  | .close => (c.report now .closing, k.close, hub)
  | .control x =>
      (c.report now .controlled, k, hub.control x)
  | .look =>
      (c.report now (.state k.state hub.opened), k, hub)
  | .refused e => (c.report now (.refused e), k, hub)

/- Go on with an action; the viewer looks when it waits. -/
def perform
    (now : Nat)
    (c : Client)
    (k : Connection)
    (e : Execution Ticket AnyKind)
    (v : Viewer)
    (cancelAt : Option Nat) : Bool × Client × Connection :=
  match e.step Connection.sender now k with
  | (true, e, k) =>
      (true, { c with pursuit := .performing e v cancelAt }, k)
  | (false, e, k) =>
      let (moved, v) := v.step now e.scene.log
      if e.run.isNone && v.isDone then
        let r := .performed v.seen e.latest e.isFinished
        (true, c.report now r, k)
      else
        (moved,
          { c with pursuit := .performing e v cancelAt }, k)

/-
  Cancel an action when its time has come.  Whoever does so
  lets all others have their turns before the action goes on.
-/
def cancelDue (now : Nat) (c : Client) : Bool × Client :=
  match c.pursuit with
  | .performing e v cancelAt =>
      if cancelAt.any (· ≤ now) then
        (true, { c with pursuit := .performing e.cancel v none })
      else (false, c)
  | _ => (false, c)

/- One step of a client; true if it has moved. -/
def step
    (now : Nat)
    (c : Client)
    (k : Connection)
    (hub : PipeHub) : Bool × Client × Shared :=
  match c.pursuit with
  | .idle =>
      match c.steps with
      | [] => (false, c, k, hub)
      | s :: rest =>
          (true, begin now { c with steps := rest } k hub s)
  | .requesting t read =>
      match k.look t with
      | some a => (true, c.report now (read a), k, hub)
      | none => (false, c, k, hub)
  | .abandoning t due =>
      match k.look t with
      | some a => (true, c.report now (.response a), k, hub)
      | none =>
          if due ≤ now then
            (true, c.report now .abandoned, k.leave t, hub)
          else (false, c, k, hub)
  | .performing e v cancelAt =>
      let (moved, c, k) := c.perform now k e v cancelAt
      (moved, c, k, hub)
  | .sleeping due =>
      if due ≤ now then (true, c.report now .slept, k, hub)
      else (false, c, k, hub)

end Client

------------------------------------------------------------
-- Sessions
------------------------------------------------------------

structure Session where
  connector : Connector PipeHub Nat
  hub : PipeHub
  connection : Connection
  /- There is no driver once it has ended. -/
  driver : Option (Driver Nat)
  device : Device
  clients : Array Client

namespace Session

/- A session in which nothing has happened yet. -/
def start
    (connector : Connector PipeHub Nat)
    (settings : Settings)
    (control : PipeChange)
    (device : Device)
    (clients : List (List ClientStep)) : Session where
  connector := connector
  hub := ({} : PipeHub).control control
  connection := { settings }
  driver := some {}
  device := device
  clients := (clients.map fun steps => { steps }).toArray

/- One step of the driver; true if it has moved. -/
def driverStep (now : Nat) (s : Session) : Bool × Session :=
  match s.driver with
  | none => (false, s)
  | some d =>
      match d.step s.connector now s.connection s.hub with
      | (.go d, connection, hub) =>
          (true, { s with driver := some d, connection, hub })
      | (.wait d, connection, hub) =>
          (false, { s with driver := some d, connection, hub })
      | (.done _, connection, hub) =>
          (true, { s with driver := none, connection, hub })

/- One step of the device; true if it has moved. -/
def deviceStep (now : Nat) (s : Session) : Bool × Session :=
  let (moved, device, hub) := s.device.step now s.hub
  (moved, { s with device, hub })

/- One step of a client; true if it has moved. -/
def clientStep (n now : Nat) (s : Session) : Bool × Session :=
  match s.clients[n]? with
  | none => (false, s)
  | some c =>
      let (moved, c, connection, hub) :=
        c.step now s.connection s.hub
      (moved,
        { s with
          clients := s.clients.setIfInBounds n c
          connection
          hub })

/- A client cancels its action when it wants to. -/
def cancelStep (n now : Nat) (s : Session) : Bool × Session :=
  match s.clients[n]? with
  | none => (false, s)
  | some c =>
      let (moved, c) := c.cancelDue now
      (moved,
        { s with clients := s.clients.setIfInBounds n c })

/- The times that anyone waits for. -/
def timers (s : Session) : List Nat :=
  s.driver.elim [] Driver.timers ++ s.device.timers ++
    s.clients.toList.flatMap fun c => c.pursuit.timers

/- The driver, the device and the clients, in this order. -/
def tasks (s : Session) (finished : Session → Bool) :
    Tasks Session where
  steps :=
    driverStep :: deviceStep ::
      (List.range s.clients.size).flatMap fun n =>
        [clientStep n, cancelStep n]
  timers := timers
  finished := finished

/- Close the connection. -/
def close (s : Session) : Session :=
  { s with connection := s.connection.close }

/- How a session went. -/
structure Course where
  /- How the clients ended. -/
  clients : End
  /- The time at which the connection was closed. -/
  closed : Nat
  /- How the driver ended. -/
  driver : End
  last : Session

/-
  Run the clients up to a limit, then close the connection
  and run the driver to its end.
-/
def run (s : Session) (limit : Nat) : Course :=
  let (clients, closed, s) :=
    (s.tasks fun s => s.clients.all Client.isDone).runFrom
      limit 0 s
  let s := s.close
  let (driver, _, last) :=
    (s.tasks fun s => s.driver.isNone).runFrom limit closed s
  { clients, closed, driver, last }

end Session

end DeviceSession
