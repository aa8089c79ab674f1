import DeviceSession.Frame.Profile
import DeviceSession.Link.Error

/-
  What a host needs from a transport.

  The operations act on a world `W` and on links `L`.  Each
  is polled: an answer is its result, and no answer says
  that it is pending.  A pending operation is polled again
  until it answers or is given up.

  Key definitions include:
    * `Asked`
    * `LinkNotice`
    * `Reachability`
    * `Handshake`
    * `Connector`
-/

------------------------------------------------------------
-- Operations
------------------------------------------------------------

namespace DeviceSession

/- Whether an operation has been found pending before. -/
inductive Asked where
  | first
  | again
deriving DecidableEq

/- What a link reports. -/
inductive LinkNotice where
  | data (frame : List UInt8)
  | lost
deriving DecidableEq

/- What waiting for a device comes to. -/
inductive Reachability where
  | reachable
  /- The transport cannot tell; wait a fixed time. -/
  | unsupported
deriving DecidableEq

/- How the frame size of a fresh link is settled. -/
inductive Handshake where
  /- The transport has frames of one size. -/
  | fixed (mtu : Nat)
  /- The device is asked. -/
  | negotiate
deriving DecidableEq

------------------------------------------------------------
-- Connectors
------------------------------------------------------------

/- A way to open links to one device and to use them. -/
structure Connector (W L : Type) where
  profile : Profile
  handshake : Handshake
  /- Wait until the device can be reached. -/
  reach : Asked → W → Option Reachability × W
  /- Open a link. -/
  connect : Asked → W → Option (Except LinkError L) × W
  /- Write one frame to a link. -/
  write : Asked → L → List UInt8 → W →
    Option (Except LinkError Unit) × W
  /- The next event of a link. -/
  event : Asked → L → W → Option LinkNotice × W
  /- Give a link up, at once and for good. -/
  close : L → W → W

end DeviceSession
