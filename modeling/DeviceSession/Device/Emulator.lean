import DeviceSession.Frame.Assembler
import DeviceSession.Frame.Mtu
import DeviceSession.Frame.Slicer
import DeviceSession.Link.Pipe
import DeviceSession.Turn

/-
  A device at the other end of a pipe.

  It serves one link at a time: it announces its frame size
  when asked, puts commands together, and does with each of
  them what its handler says.  A journal tells what it saw.

  Key definitions include:
    * `Reply`
    * `Handler`
    * `JournalLine`
    * `Emulator`
    * `Emulator.step`
-/

------------------------------------------------------------
-- Replies
------------------------------------------------------------

namespace DeviceSession

/- What a device does with a command. -/
inductive Reply where
  | respond (r : Response)
  /- Respond after some time. -/
  | respondAfter (delay : Nat) (r : Response)
  /- Respond, then break the link. -/
  | respondThenDrop (r : Response)
  /- Break the link without an answer. -/
  | drop
  | ignore
  /- Send these frames as they are. -/
  | frames (fs : List (List UInt8))
deriving DecidableEq

/-
  The part of a device that decides.  It has a state, knows
  the link that a command came on, and may change how links
  behave.
-/
structure Handler (H : Type) where
  handle : Apdu → Nat → H → PipeHub → Reply × H × PipeHub

/- What a device saw and did, by link. -/
inductive JournalLine where
  | frameIn (link : Nat)
  | command (link : Nat) (a : Apdu)
  /- A response was sent in full; so many frames had been
     waiting when it was begun. -/
  | responded (link : Nat) (status : StatusWord) (unread : Nat)
  | dropped (link : Nat)
deriving DecidableEq

------------------------------------------------------------
-- Emulators
------------------------------------------------------------

namespace Emulator

/- What follows on frames that are being sent. -/
inductive After where
  /- The frame size was announced. -/
  | announced
  /- A response was sent; the link may be broken then. -/
  | responded
      (status : StatusWord) (unread : Nat) (drop : Bool)
  /- Frames were sent as they are. -/
  | sent
deriving DecidableEq

/- What an emulator is doing. -/
inductive Phase where
  | accepting
  | receiving (asked : Asked)
  | delaying (due : Nat) (r : Response)
  | sending
      (frames : List (List UInt8))
      (asked : Asked)
      (after : After)
deriving DecidableEq

end Emulator

/- A device with a handler state in `H`. -/
structure Emulator (H : Type) where
  profile : Profile
  mtu : UInt8
  handler : H
  journal : Array JournalLine := #[]
  phase : Emulator.Phase := .accepting
  /- The link being served. -/
  link : Nat := 0
  assembler : Assembler := .ofProfile profile

namespace Emulator

variable {H : Type}

def goto (x : Emulator H) (p : Phase) : Emulator H :=
  { x with phase := p }

/- Add a journal entry. -/
def note (x : Emulator H) (e : JournalLine) :
    Emulator H :=
  { x with journal := x.journal.push e }

/- The time that the device waits for. -/
def timers (x : Emulator H) : List Nat :=
  match x.phase with
  | .delaying due _ => [due]
  | _ => []

/- Go on reading frames. -/
def receive (x : Emulator H) : Emulator H :=
  x.goto (.receiving .first)

/- Be done with the link, which breaks by that. -/
def leave (x : Emulator H) (hub : PipeHub) :
    Emulator H × PipeHub :=
  (x.goto .accepting, hub.hangUp x.link)

/- Break the link. -/
def breakLink (x : Emulator H) (hub : PipeHub) :
    Emulator H × PipeHub :=
  (x.note (.dropped x.link)).leave hub

/- What follows on frames of which the last is gone. -/
def finish
    (x : Emulator H)
    (hub : PipeHub) : After → Emulator H × PipeHub
  | .announced => (x.receive, hub)
  | .sent => (x.receive, hub)
  | .responded status unread drop =>
      let x := x.note (.responded x.link status unread)
      if drop then x.breakLink hub else (x.receive, hub)

/- What follows on frames that could not all be sent. -/
def giveUp
    (x : Emulator H)
    (hub : PipeHub) : After → Emulator H × PipeHub
  | .announced => x.leave hub
  | .sent => (x.receive, hub)
  | .responded _ _ drop =>
      if drop then x.breakLink hub else (x.receive, hub)

/- Begin to send a response. -/
def respond
    (x : Emulator H)
    (r : Response)
    (drop : Bool)
    (hub : PipeHub) : Emulator H × PipeHub :=
  let after :=
    After.responded r.status (hub.link x.link).unread drop
  let slices := do
    let s ← Slicer.ofMtu x.profile x.mtu.toNat
    s.message r.encode
  match slices with
  | .ok slices =>
      (x.goto (.sending slices.toList .first after), hub)
  | .error _ => x.giveUp hub after

/- Begin to do what the handler says. -/
def reply
    (x : Emulator H)
    (now : Nat)
    (hub : PipeHub) : Reply → Emulator H × PipeHub
  | .respond r => x.respond r false hub
  | .respondAfter delay r =>
      (x.goto (.delaying (now + delay) r), hub)
  | .respondThenDrop r => x.respond r true hub
  | .drop => x.breakLink hub
  | .ignore => (x.receive, hub)
  | .frames fs => (x.goto (.sending fs .first .sent), hub)

/- Take in a frame of a command. -/
def take
    (h : Handler H)
    (now : Nat)
    (x : Emulator H)
    (frame : List UInt8)
    (hub : PipeHub) : Emulator H × PipeHub :=
  let x := x.note (.frameIn x.link)
  let (message, assembler) := x.assembler.feed frame
  let x := { x with assembler }
  match message with
  | .ok (some raw) =>
      match Apdu.decode? raw with
      | some a =>
          let x := x.note (.command x.link a)
          let (r, handler, hub) :=
            h.handle a x.link x.handler hub
          { x with handler }.reply now hub r
      | none => (x.receive, hub)
  | _ => (x.receive, hub)

/- One step of a device. -/
def step
    (h : Handler H)
    (now : Nat)
    (x : Emulator H)
    (hub : PipeHub) : Turn (Emulator H) Empty × PipeHub :=
  match x.phase with
  | .accepting =>
      match hub.accept with
      | (none, hub) => (.wait x, hub)
      | (some id, hub) =>
          let x := { x with
            link := id, assembler := .ofProfile x.profile }
          match Slicer.ofMtu x.profile x.mtu.toNat with
          | .ok _ => (.go x.receive, hub)
          | .error _ =>
              let (x, hub) := x.leave hub
              (.go x, hub)
  | .receiving asked =>
      match hub.onLink x.link (·.recv asked) with
      | (none, hub) =>
          (.wait (x.goto (.receiving .again)), hub)
      | (some none, hub) =>
          let (x, hub) := x.leave hub
          (.go x, hub)
      | (some (some frame), hub) =>
          if Mtu.IsSizeFrame frame then
            (.go (x.goto
              (.sending [Mtu.response x.mtu] .first
                .announced)), hub)
          else
            let (x, hub) := take h now x frame hub
            (.go x, hub)
  | .delaying due r =>
      if due ≤ now then
        let (x, hub) := x.respond r false hub
        (.go x, hub)
      else (.wait x, hub)
  | .sending [] _ after =>
      let (x, hub) := x.finish hub after
      (.go x, hub)
  | .sending (frame :: rest) asked after =>
      match hub.onLink x.link (·.send asked frame) with
      | (none, hub) =>
          (.wait (x.goto
            (.sending (frame :: rest) .again after)), hub)
      | (some (.ok _), hub) =>
          (.go (x.goto (.sending rest .first after)), hub)
      | (some (.error _), hub) =>
          let (x, hub) := x.giveUp hub after
          (.go x, hub)

end Emulator

end DeviceSession
