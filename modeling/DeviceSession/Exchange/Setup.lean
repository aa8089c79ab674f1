import DeviceSession.Exchange.HostEnd
import DeviceSession.Frame.Mtu

/-
  Settling the frame size of a fresh link.

  Either the transport fixes it, or the device is asked and
  answers in time.  Other frames that come in meanwhile are
  dropped.

  Key definitions include:
    * `Setup`
    * `Setup.settle`
    * `Setup.step`
-/

------------------------------------------------------------
-- Setting Up a Link
------------------------------------------------------------

namespace DeviceSession

/- How far the setup of a link is. -/
inductive Setup where
  | start
  /- The question is being written. -/
  | writing (deadline : Nat) (x : FrameWrite)
  /- The answer is awaited. -/
  | reading (deadline : Nat) (asked : Asked)
deriving DecidableEq

namespace Setup

variable {W L : Type}

/- The times that the setup waits for. -/
def timers : Setup → List Nat
  | start => []
  | writing deadline x => deadline :: x.timers
  | reading deadline _ => [deadline]

/- Take a frame size, with a fresh codec for it. -/
def settle (p : Profile) (mtu : Nat) (e : HostEnd L) :
    Except ExchangeError Unit × HostEnd L :=
  match Slicer.ofMtu p mtu with
  | .ok s =>
      (.ok (),
        { e with codec := some (s, Assembler.ofProfile p) })
  | .error x => (.error (.protocol x), e)

/- One step of a setup. -/
def step
    (c : Connector W L)
    (p : WritePolicy)
    (timeout : Nat)
    (now : Nat)
    (x : Setup)
    (e : HostEnd L)
    (w : W) :
    Turn Setup (Except ExchangeError Unit) ×
      HostEnd L × W :=
  match x with
  | .start =>
      let e := { e with codec := none }
      match c.handshake with
      | .fixed mtu =>
          let (r, e) := settle c.profile mtu e
          (.done r, e, w)
      | .negotiate =>
          (.go (.writing (now + timeout)
            { frame := Mtu.request }), e, w)
  | .writing deadline x =>
      match FrameWrite.step c p e.link now x w with
      | (.done (.ok _), w) =>
          (.go (.reading deadline .first), e, w)
      | (.done (.error x), w) => (.done (.error x), e, w)
      | (.go x, w) => (.go (.writing deadline x), e, w)
      | (.wait x, w) =>
          (Turn.orAt now deadline (.error .timeout)
            (.wait (.writing deadline x)), e, w)
  | .reading deadline asked =>
      match c.event asked e.link w with
      | (none, w) =>
          (Turn.orAt now deadline (.error .timeout)
            (.wait (.reading deadline .again)), e, w)
      | (some .lost, w) =>
          (.done (.error (.link .disconnected)), e, w)
      | (some (.data frame), w) =>
          if Mtu.IsSizeFrame frame then
            match Mtu.parse frame with
            | .ok mtu =>
                let (r, e) := settle c.profile mtu e
                (.done r, e, w)
            | .error x =>
                (.done (.error (.protocol x)), e, w)
          else (.go (.reading deadline .first), e, w)

end Setup

end DeviceSession
