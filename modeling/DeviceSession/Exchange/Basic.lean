import DeviceSession.Exchange.HostEnd
import DeviceSession.Frame.Mtu

/-
  One command and its response, on one link.

  The frames of the command are written one at a time, then
  frames are read until the response is complete, all of it
  in bounded time.  What is left over of an earlier response
  is forgotten at the start.

  Key definitions include:
    * `Exchange`
    * `Exchange.Phase`
    * `Exchange.ofCommand`
    * `Exchange.step`
    * `Watch.step`
-/

------------------------------------------------------------
-- Exchanges
------------------------------------------------------------

namespace DeviceSession

namespace Exchange

/- How far an exchange is. -/
inductive Phase where
  | start
  /- The next frame is to be cut. -/
  | cutting (rest : Slices)
  /- A frame is being written, with more to come. -/
  | writing (rest : Slices) (x : FrameWrite)
  /- The response is awaited. -/
  | reading (asked : Asked)
deriving DecidableEq

end Exchange

/- A command with a deadline for its response. -/
structure Exchange where
  apdu : Apdu
  deadline : Nat
  phase : Exchange.Phase := .start
deriving DecidableEq

namespace Exchange

variable {W L : Type}

/- An exchange that starts now. -/
def ofCommand (a : Apdu) (now timeout : Nat) : Exchange :=
  { apdu := a, deadline := now + timeout }

def goto (x : Exchange) (p : Phase) : Exchange :=
  { x with phase := p }

/- The times that the exchange waits for. -/
def timers (x : Exchange) : List Nat :=
  match x.phase with
  | .writing _ f => x.deadline :: f.timers
  | _ => [x.deadline]

/- What a step of an exchange comes to. -/
abbrev Result :=
  Turn Exchange (Except ExchangeError Response)

/- Wait, unless the deadline has come. -/
def waiting (now : Nat) (x : Exchange) (p : Phase) :
    Result :=
  Turn.orAt now x.deadline (.error .timeout)
    (.wait (x.goto p))

/- Take in a frame of the response. -/
def receive
    (x : Exchange)
    (e : HostEnd L)
    (frame : List UInt8) : Result × HostEnd L :=
  if Mtu.IsSizeFrame frame then
    (.go (x.goto (.reading .first)), e)
  else
    match e.codec with
    | none => (.done (.error .notReady), e)
    | some (s, a) =>
        match a.feedResponse frame with
        | (.error err, a) =>
            (.done (.error (.protocol err)),
              { e with codec := some (s, a) })
        | (.ok none, a) =>
            (.go (x.goto (.reading .first)),
              { e with codec := some (s, a) })
        | (.ok (some r), a) =>
            (.done (.ok r), { e with codec := some (s, a) })

/- One step of an exchange. -/
def step
    (c : Connector W L)
    (p : WritePolicy)
    (now : Nat)
    (x : Exchange)
    (e : HostEnd L)
    (w : W) : Result × HostEnd L × W :=
  match x.phase with
  | .start =>
      match e.codec with
      | none => (.done (.error .notReady), e, w)
      | some (s, a) =>
          (.go (x.goto (.cutting (s.command x.apdu))),
            { e with codec := some (s, a.reset) }, w)
  | .cutting rest =>
      match rest.next? with
      | none => (.go (x.goto (.reading .first)), e, w)
      | some (frame, rest) =>
          (.go (x.goto (.writing rest { frame })), e, w)
  | .writing rest f =>
      match FrameWrite.step c p e.link now f w with
      | (.done (.ok _), w) =>
          (.go (x.goto (.cutting rest)), e, w)
      | (.done (.error err), w) => (.done (.error err), e, w)
      | (.go f, w) => (.go (x.goto (.writing rest f)), e, w)
      | (.wait f, w) =>
          (x.waiting now (.writing rest f), e, w)
  | .reading asked =>
      match c.event asked e.link w with
      | (none, w) => (x.waiting now (.reading .again), e, w)
      | (some .lost, w) =>
          (.done (.error (.link .disconnected)), e, w)
      | (some (.data frame), w) =>
          let (t, e) := x.receive e frame
          (t, e, w)

end Exchange

------------------------------------------------------------
-- Idle Links
------------------------------------------------------------

/-
  Watch a link until it is lost.  Frames that come in are
  dropped.
-/
def Watch.step
    {W L : Type}
    (c : Connector W L)
    (asked : Asked)
    (e : HostEnd L)
    (w : W) : Turn Asked Unit × W :=
  match c.event asked e.link w with
  | (none, w) => (.wait .again, w)
  | (some (.data _), w) => (.go .first, w)
  | (some .lost, w) => (.done (), w)

end DeviceSession
