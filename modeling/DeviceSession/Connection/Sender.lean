import DeviceSession.Action.Run
import DeviceSession.Connection.Basic

/-
  A connection as what an action sends by.

  A request goes by its slot.  One that is refused is
  answered at once, with the reason.

  Key definitions include:
    * `Ticket`
    * `Connection.look`
    * `Connection.leave`
    * `Connection.sender`
-/

------------------------------------------------------------
-- Tickets
------------------------------------------------------------

namespace DeviceSession

/- A request that was handed in: its slot, or a refusal. -/
abbrev Ticket :=
  Except ConnectionError Nat

namespace Connection

/- What has become of a request. -/
def look (c : Connection) : Ticket → Option Answer
  | .ok id => c.answer? id
  | .error e => some (.error e)

/- Go away from a request. -/
def leave (c : Connection) : Ticket → Connection
  | .ok id => c.abandon id
  | .error _ => c

/- Actions send by way of the queue of a connection. -/
def sender : Sender Connection Ticket where
  submit := fun _ apdu options c =>
    let (ticket, c) := c.submit apdu options
    (ticket, false, c)
  poll := fun _ ticket c => (c.look ticket, false, c)
  withdraw := fun ticket c => c.leave ticket

end Connection

end DeviceSession
