import DeviceSession.Link.Transport

/-
  Links within one program.

  Each opened link has a host end and a device end, with a
  bounded buffer of frames in either direction.  Faults can
  be injected: writes that fail, links that break, and a
  device that cannot be reached.

  Key definitions include:
    * `Pipe`
    * `Pipe.write`
    * `Pipe.nextEvent`
    * `Pipe.recv`
    * `Pipe.send`
    * `Pipe.hangUp`
    * `PipeHub`
    * `PipeHub.connect`
    * `PipeHub.accept`
    * `PipeHub.reach`
    * `PipeHub.connector`
-/

------------------------------------------------------------
-- One Link
------------------------------------------------------------

namespace DeviceSession

/- One link, with both of its ends. -/
structure Pipe where
  /- Frames on their way to the device, oldest first. -/
  toDevice : List (List UInt8) := []
  /- Frames on their way to the host, oldest first. -/
  toHost : List (List UInt8) := []
  closed : Bool := false
  /- How many of the next host writes fail. -/
  failWrites : Nat := 0
  /- The frames accepted from the host. -/
  written : Nat := 0
  /- The frames taken by the device. -/
  read : Nat := 0
  /- The host has yet to notice that the link is down. -/
  hostLost : Bool := false
  /- The device has yet to notice that the link is down. -/
  deviceLost : Bool := false
deriving DecidableEq

namespace Pipe

/- The number of frames that one direction buffers. -/
def depth : Nat :=
  16

/- The frames from the host that the device has not taken. -/
def unread (p : Pipe) : Nat :=
  p.written - p.read

/- End the link; both ends will notice, once. -/
def hangUp (p : Pipe) : Pipe :=
  if p.closed then p
  else
    { p with
      closed := true, hostLost := true, deviceLost := true }

/- Put a frame into the buffer, or notice that it is over. -/
def writeBuffer (p : Pipe) (frame : List UInt8) :
    Option (Except LinkError Unit) × Pipe :=
  if p.toDevice.length < depth then
    (some (.ok ()), { p with
      toDevice := p.toDevice ++ [frame]
      written := p.written + 1 })
  else if p.deviceLost then
    (some (.error .disconnected),
      { p with deviceLost := false })
  else (none, p)

/- The host writes a frame. -/
def write (a : Asked) (p : Pipe) (frame : List UInt8) :
    Option (Except LinkError Unit) × Pipe :=
  match a with
  | .again => p.writeBuffer frame
  | .first =>
      if p.closed then (some (.error .disconnected), p)
      else if 0 < p.failWrites then
        (some (.error .writeFailed),
          { p with failWrites := p.failWrites - 1 })
      else p.writeBuffer frame

/- The host waits for the next event. -/
def nextEvent (a : Asked) (p : Pipe) :
    Option LinkNotice × Pipe :=
  match p.toHost with
  | frame :: rest =>
      (some (.data frame), { p with toHost := rest })
  | [] =>
      match a with
      | .first =>
          if p.closed then (some .lost, p) else (none, p)
      | .again =>
          if p.hostLost then
            (some .lost, { p with hostLost := false })
          else (none, p)

/- The device waits for a frame; none once the link is over. -/
def recv (a : Asked) (p : Pipe) :
    Option (Option (List UInt8)) × Pipe :=
  match p.toDevice with
  | frame :: rest =>
      (some (some frame),
        { p with toDevice := rest, read := p.read + 1 })
  | [] =>
      match a with
      | .first =>
          if p.closed then (some none, p) else (none, p)
      | .again =>
          if p.deviceLost then
            (some none, { p with deviceLost := false })
          else (none, p)

/-
  The device sends a frame.  A device that waits for room
  does not notice that the link is over.
-/
def send (a : Asked) (p : Pipe) (frame : List UInt8) :
    Option (Except LinkError Unit) × Pipe :=
  if a = .first ∧ p.closed then
    (some (.error .disconnected), p)
  else if p.toHost.length < depth then
    (some (.ok ()),
      { p with toHost := p.toHost ++ [frame] })
  else (none, p)

end Pipe

------------------------------------------------------------
-- All Links of a Device
------------------------------------------------------------

/- The links of one device, and whether it can be reached. -/
structure PipeHub where
  /- The links by number; the first one is link 1. -/
  links : Array Pipe := #[]
  reachable : Bool := true
  /- Whether the host can wait for the device to appear. -/
  signalsReachability : Bool := true
  /- The next attempts to open a link fail like this. -/
  openFailures : List LinkError := []
  /- The number of links opened. -/
  opened : Nat := 0
  /- The device has appeared, and no one has noticed. -/
  appeared : Bool := false
  /- The links that the device has yet to accept. -/
  waiting : List Nat := []
deriving DecidableEq

namespace PipeHub

/- The number of links that may wait to be accepted. -/
def acceptDepth : Nat :=
  4

/- The link of a number, which is down if there is none. -/
def link (h : PipeHub) (id : Nat) : Pipe :=
  (h.links[id - 1]?).getD { closed := true }

/- Change the link of a number. -/
def modify (h : PipeHub) (id : Nat) (f : Pipe → Pipe) :
    PipeHub :=
  { h with links := h.links.modify (id - 1) f }

/- Use the link of a number. -/
def onLink
    {R : Type}
    (h : PipeHub)
    (id : Nat)
    (f : Pipe → R × Pipe) : R × PipeHub :=
  let (r, p) := f (h.link id)
  (r, h.modify id fun _ => p)

/- Shut the link of a number. -/
def hangUp (h : PipeHub) (id : Nat) : PipeHub :=
  h.modify id Pipe.hangUp

/- Whether the device can be reached from now on. -/
def reachableIf (h : PipeHub) (b : Bool) : PipeHub :=
  { h with reachable := b, appeared := h.appeared || b }

/-
  Open a link.  Its number is taken, and counts as opened,
  before the device is found to accept no more links.
-/
def connect (h : PipeHub) :
    Except LinkError Nat × PipeHub :=
  match h.openFailures with
  | e :: rest => (.error e, { h with openFailures := rest })
  | [] =>
      if !h.reachable then (.error .outOfRange, h)
      else
        let id := h.opened + 1
        if h.waiting.length < acceptDepth then
          (.ok id, { h with
            opened := id
            links := h.links.push {}
            waiting := h.waiting ++ [id] })
        else
          (.error (.openFailed "no device listening"),
            { h with
              opened := id
              links := h.links.push { closed := true } })

/- The device accepts the link that has waited longest. -/
def accept (h : PipeHub) : Option Nat × PipeHub :=
  match h.waiting with
  | [] => (none, h)
  | id :: rest => (some id, { h with waiting := rest })

/- Whether the device can be reached, as far as known. -/
def reachNow (h : PipeHub) :
    Option Reachability × PipeHub :=
  if !h.signalsReachability then (some .unsupported, h)
  else if h.reachable then (some .reachable, h)
  else (none, { h with appeared := false })

/-
  Wait until the device can be reached.  A host that waits
  looks again only when the device has appeared, even if it
  is gone by then.
-/
def reach (a : Asked) (h : PipeHub) :
    Option Reachability × PipeHub :=
  if a = .again ∧ !h.appeared then (none, h)
  else if a = .again then
    { h with appeared := false }.reachNow
  else h.reachNow

/- The host's view of the links, which go by number. -/
def connector (p : Profile) (s : Handshake) :
    Connector PipeHub Nat where
  profile := p
  handshake := s
  reach := reach
  connect := fun _ h =>
    let (r, h') := h.connect
    (some r, h')
  write := fun a id frame h =>
    h.onLink id fun p => p.write a frame
  event := fun a id h => h.onLink id fun p => p.nextEvent a
  close := fun id h => h.hangUp id

end PipeHub

------------------------------------------------------------
-- Control
------------------------------------------------------------

/- A change to how a device can be reached. -/
structure PipeChange where
  reachable : Option Bool := none
  signalsReachability : Option Bool := none
  openFailures : List LinkError := []
deriving DecidableEq

/- Apply a change, in the order of its parts. -/
def PipeHub.control (h : PipeHub) (c : PipeChange) :
    PipeHub :=
  let h := match c.reachable with
    | some b => h.reachableIf b
    | none => h
  { h with
    signalsReachability :=
      c.signalsReachability.getD h.signalsReachability
    openFailures := h.openFailures ++ c.openFailures }

------------------------------------------------------------
-- Sequences of Operations
------------------------------------------------------------

/-
  One operation, polled once and given up if pending.  Host
  ends go by the order of opening, device ends by the order
  of accepting.
-/
inductive PipeStep where
  | connect
  | accept
  | write (host : Nat) (frame : List UInt8)
  | nextEvent (host : Nat)
  | close (host : Nat)
  | dropHost (host : Nat)
  | recv (device : Nat)
  | send (device : Nat) (frame : List UInt8)
  | dropLink (device : Nat)
  | dropDevice (device : Nat)
  | failWrites (device : Nat) (count : Nat)
  | control (c : PipeChange)
  | reach
deriving DecidableEq

/- What an operation answers. -/
inductive PipeReply where
  | done
  | pending
  | link (id : Nat)
  | written
  | failed (e : LinkError)
  | event (e : LinkNotice)
  | received (frame : Option (List UInt8))
  | reach (r : Reachability)
deriving DecidableEq

/- Links with the ends that are held. -/
structure PipeTable where
  hub : PipeHub := {}
  /- The link of each host end, until it is dropped. -/
  hosts : Array (Option Nat) := #[]
  /- The link of each device end, until it is dropped. -/
  devices : Array (Option Nat) := #[]
deriving DecidableEq

namespace PipeTable

def host? (t : PipeTable) (i : Nat) : Option Nat :=
  t.hosts[i]?.join

def device? (t : PipeTable) (i : Nat) : Option Nat :=
  t.devices[i]?.join

/- The link of a device end that is held. -/
def deviceLink? (t : PipeTable) (i : Nat) : Option Pipe :=
  (t.device? i).map t.hub.link

/- Use a link, if there is one, and tell what it answers. -/
def use
    {R : Type}
    (t : PipeTable)
    (id : Option Nat)
    (f : Pipe → Option R × Pipe)
    (reply : R → PipeReply) : PipeReply × PipeTable :=
  match id with
  | none => (.done, t)
  | some id =>
      let (r, hub) := t.hub.onLink id f
      ((r.map reply).getD .pending, { t with hub })

/- Change a link, if there is one. -/
def change
    (t : PipeTable)
    (id : Option Nat)
    (f : Pipe → Pipe) : PipeReply × PipeTable :=
  match id with
  | none => (.done, t)
  | some id => (.done, { t with hub := t.hub.modify id f })

/- What a write comes to. -/
def wrote : Except LinkError Unit → PipeReply
  | .ok _ => .written
  | .error e => .failed e

/- Carry out one operation. -/
def apply (t : PipeTable) :
    PipeStep → PipeReply × PipeTable
  | .connect =>
      match t.hub.connect with
      | (.ok id, hub) =>
          (.link id,
            { t with hub, hosts := t.hosts.push (some id) })
      | (.error e, hub) => (.failed e, { t with hub })
  | .accept =>
      match t.hub.accept with
      | (some id, hub) =>
          (.link id,
            { t with
              hub, devices := t.devices.push (some id) })
      | (none, hub) => (.pending, { t with hub })
  | .write i frame =>
      t.use (t.host? i) (fun p => p.write .first frame) wrote
  | .nextEvent i =>
      t.use (t.host? i) (fun p => p.nextEvent .first) .event
  | .close i => t.change (t.host? i) Pipe.hangUp
  | .dropHost i =>
      let (r, t') := t.change (t.host? i) Pipe.hangUp
      (r, { t' with hosts := t'.hosts.setIfInBounds i none })
  | .recv i =>
      t.use (t.device? i) (fun p => p.recv .first) .received
  | .send i frame =>
      t.use (t.device? i) (fun p => p.send .first frame) wrote
  | .dropLink i => t.change (t.device? i) Pipe.hangUp
  | .dropDevice i =>
      let (r, t') := t.change (t.device? i) Pipe.hangUp
      (r, { t' with
        devices := t'.devices.setIfInBounds i none })
  | .failWrites i n =>
      t.change (t.device? i) fun p => { p with failWrites := n }
  | .control c => (.done, { t with hub := t.hub.control c })
  | .reach =>
      let (r, hub) := t.hub.reach .first
      ((r.map .reach).getD .pending, { t with hub })

end PipeTable

end DeviceSession
