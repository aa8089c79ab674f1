import DeviceSession.Exchange.Error
import DeviceSession.Frame.Assembler
import DeviceSession.Frame.Slicer
import DeviceSession.Link.Transport
import DeviceSession.Settings.Basic
import DeviceSession.Turn

/-
  The host's end of one link, and how it writes a frame.

  A write that fails is repeated after a pause, a bounded
  number of times.  A link that is gone is never tried
  again.

  Key definitions include:
    * `WritePolicy`
    * `HostEnd`
    * `HostEnd.close`
    * `FrameWrite`
    * `FrameWrite.step`
-/

------------------------------------------------------------
-- Host Ends
------------------------------------------------------------

namespace DeviceSession

/- How often a frame is written again, and how soon. -/
structure WritePolicy where
  retries : Nat
  delay : Nat
deriving DecidableEq

def WritePolicy.ofSettings (s : Settings) : WritePolicy :=
  ⟨s.frameWriteRetries.toNat, s.frameRetryDelay.toNat⟩

/- A link with what has been settled about its frames. -/
structure HostEnd (L : Type) where
  link : L
  /- The codec, once the frame size is known. -/
  codec : Option (Slicer × Assembler) := none

namespace HostEnd

variable {W L : Type}

/- The frame size, once it is known. -/
def mtu? (e : HostEnd L) : Option Nat :=
  e.codec.map fun x => x.1.mtu

def isReady (e : HostEnd L) : Bool :=
  e.codec.isSome

/- Give the link up. -/
def close (c : Connector W L) (e : HostEnd L) (w : W) :
    HostEnd L × W :=
  ({ e with codec := none }, c.close e.link w)

end HostEnd

------------------------------------------------------------
-- Frame Writes
------------------------------------------------------------

/- A frame being written. -/
structure FrameWrite where
  frame : List UInt8
  /- How often the write has been repeated. -/
  attempt : Nat := 0
  /- Until when the next attempt is put off. -/
  pausedUntil : Option Nat := none
  asked : Asked := .first
deriving DecidableEq

namespace FrameWrite

variable {W L : Type}

/- The time that the write waits for. -/
def timers (x : FrameWrite) : List Nat :=
  x.pausedUntil.toList

/- One step of a write. -/
def step
    (c : Connector W L)
    (p : WritePolicy)
    (l : L)
    (now : Nat)
    (x : FrameWrite)
    (w : W) :
    Turn FrameWrite (Except ExchangeError Unit) × W :=
  match x.pausedUntil with
  | some due =>
      (.pause now due x
        { x with pausedUntil := none, asked := .first }, w)
  | none =>
      match c.write x.asked l x.frame w with
      | (none, w) => (.wait { x with asked := .again }, w)
      | (some (.ok _), w) => (.done (.ok ()), w)
      | (some (.error .disconnected), w) =>
          (.done (.error (.link .disconnected)), w)
      | (some (.error _), w) =>
          if x.attempt < p.retries then
            (.go { x with
              attempt := x.attempt + 1
              pausedUntil := some (now + p.delay) }, w)
          else
            (.done (.error .writeRetriesExhausted), w)

end FrameWrite

end DeviceSession
