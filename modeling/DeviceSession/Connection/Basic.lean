import DeviceSession.Command.Basic
import DeviceSession.Link.Error
import DeviceSession.Link.Lifecycle
import DeviceSession.Settings.Basic

/-
  The part of a connection that callers share with its
  driver: the state, the bounded queue of requests, and a
  slot for the answer to each of them.

  Key definitions include:
    * `Request`
    * `Slot`
    * `ConnectionNotice`
    * `Connection`
    * `Connection.submit`
    * `Connection.abandon`
    * `Connection.answer`
    * `Connection.close`
-/

------------------------------------------------------------
-- Requests
------------------------------------------------------------

namespace DeviceSession

/- A command that waits for its turn on the link. -/
structure Request where
  /- The number of its slot. -/
  id : Nat
  apdu : Apdu
  options : RequestOptions
deriving DecidableEq

/- Where a caller waits for its answer. -/
structure Slot where
  /- The answers put there, the latest first. -/
  answers : List Answer := []
  /- The caller has gone. -/
  abandoned : Bool := false

------------------------------------------------------------
-- Events
------------------------------------------------------------

/- What a connection tells about its links. -/
inductive ConnectionNotice where
  /- The first link is up. -/
  | connected (generation : UInt32)
  | disconnected (generation : UInt32)
  /- A later link is up. -/
  | reconnected (generation : UInt32)
  | attemptFailed (attempt : UInt32) (e : LinkError)
  | terminated
deriving DecidableEq

------------------------------------------------------------
-- Connections
------------------------------------------------------------

structure Connection where
  settings : Settings
  state : Lifecycle := .connecting
  /- The requests that wait, oldest first. -/
  queue : List Request := []
  /- Someone wants the connection to end. -/
  closing : Bool := false
  slots : Array Slot := #[]
  /- What has happened, with the time. -/
  events : Array (Nat × ConnectionNotice) := #[]

namespace Connection

/- The number of requests that may wait. -/
def queueDepth : Nat :=
  8

/- The default bound on one exchange. -/
def apduTimeout (c : Connection) : Nat :=
  c.settings.apduTimeout.toNat

/-
  Hand in a request.  It is refused when the connection has
  ended or the queue is full; otherwise it gets a slot.
-/
def submit
    (c : Connection)
    (apdu : Apdu)
    (options : RequestOptions) :
    Except ConnectionError Nat × Connection :=
  if c.state.isTerminated then (.error .terminated, c)
  else if c.queue.length < queueDepth then
    let id := c.slots.size
    (.ok id, { c with
      queue := c.queue ++ [{ id, apdu, options }]
      slots := c.slots.push {} })
  else (.error .queueFull, c)

/- The answer in a slot: the latest one put there. -/
def answer? (c : Connection) (id : Nat) : Option Answer :=
  c.slots[id]?.bind fun s => s.answers.head?

/- The caller of a request goes away. -/
def abandon (c : Connection) (id : Nat) : Connection :=
  { c with
    slots := c.slots.modify id fun s =>
      { s with abandoned := true } }

/- Whether the caller of a request has gone away. -/
def callerGone (c : Connection) (r : Request) : Bool :=
  (c.slots[r.id]?.map Slot.abandoned).getD true

/- Put an answer into the slot of a request. -/
def answer (c : Connection) (r : Request) (a : Answer) :
    Connection :=
  { c with
    slots := c.slots.modify r.id fun s =>
      { s with answers := a :: s.answers } }

/- Ask for the end of a connection that has not ended. -/
def close (c : Connection) : Connection :=
  if c.state.isTerminated then c
  else { c with closing := true }

/- Tell of an event. -/
def tell (c : Connection) (now : Nat) (e : ConnectionNotice) :
    Connection :=
  { c with events := c.events.push (now, e) }

/- Fail every request that waits. -/
def failAll (c : Connection) (e : ConnectionError) :
    Connection :=
  let c' := c.queue.foldl (fun c r => c.answer r (.error e)) c
  { c' with queue := [] }

end Connection

end DeviceSession
