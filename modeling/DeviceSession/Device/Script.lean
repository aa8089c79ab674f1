import DeviceSession.Link.Pipe
import DeviceSession.Turn

/-
  Devices that follow a script.

  The script has a list of deeds for each frame of each
  link, by number.  Links are served one after another, and
  beyond the script nothing is done.

  Key definitions include:
    * `Deed`
    * `Sighting`
    * `ScriptDevice`
    * `ScriptDevice.step`
-/

------------------------------------------------------------
-- Scripts
------------------------------------------------------------

namespace DeviceSession

inductive Deed where
  | send (frame : List UInt8)
  | sleep (ms : Nat)
  /- Break the link. -/
  | drop
  /- The next host writes on the link fail. -/
  | failWrites (count : Nat)
deriving DecidableEq

/- A frame that came in, with the time and the link. -/
structure Sighting where
  time : Nat
  link : Nat
  frame : List UInt8
deriving DecidableEq

namespace ScriptDevice

/- What a scripted device is doing. -/
inductive Phase where
  | accepting
  | receiving (asked : Asked)
  | acting (deeds : List Deed)
  /- A frame is waiting for room. -/
  | sending (frame : List UInt8) (rest : List Deed)
  | sleeping (due : Nat) (rest : List Deed)
deriving DecidableEq

end ScriptDevice

structure ScriptDevice where
  /- The deeds for the links still to come. -/
  links : List (List (List Deed))
  /- The deeds for the frames still to come. -/
  frames : List (List Deed) := []
  seen : Array Sighting := #[]
  phase : ScriptDevice.Phase := .accepting
  link : Nat := 0

namespace ScriptDevice

def goto (x : ScriptDevice) (p : Phase) : ScriptDevice :=
  { x with phase := p }

/- The time that the device waits for. -/
def timers (x : ScriptDevice) : List Nat :=
  match x.phase with
  | .sleeping due _ => [due]
  | _ => []

/- Send a frame, or wait for room. -/
def send
    (x : ScriptDevice)
    (asked : Asked)
    (frame : List UInt8)
    (rest : List Deed)
    (hub : PipeHub) :
    Turn ScriptDevice Empty × PipeHub :=
  match hub.onLink x.link (·.send asked frame) with
  | (none, hub) => (.wait (x.goto (.sending frame rest)), hub)
  | (some _, hub) => (.go (x.goto (.acting rest)), hub)

/- One step of a scripted device. -/
def step
    (now : Nat)
    (x : ScriptDevice)
    (hub : PipeHub) :
    Turn ScriptDevice Empty × PipeHub :=
  match x.phase with
  | .accepting =>
      match hub.accept with
      | (none, hub) => (.wait x, hub)
      | (some id, hub) =>
          (.go { x with
            link := id
            frames := x.links.headD []
            links := x.links.tail
            phase := .receiving .first }, hub)
  | .receiving asked =>
      match hub.onLink x.link (·.recv asked) with
      | (none, hub) =>
          (.wait (x.goto (.receiving .again)), hub)
      | (some none, hub) =>
          (.go (x.goto .accepting), hub.hangUp x.link)
      | (some (some frame), hub) =>
          (.go { x with
            seen := x.seen.push ⟨now, x.link, frame⟩
            frames := x.frames.tail
            phase := .acting (x.frames.headD []) }, hub)
  | .acting [] => (.go (x.goto (.receiving .first)), hub)
  | .acting (.send frame :: rest) =>
      x.send .first frame rest hub
  | .acting (.sleep ms :: rest) =>
      (.go (x.goto (.sleeping (now + ms) rest)), hub)
  | .acting (.drop :: rest) =>
      (.go (x.goto (.acting rest)), hub.hangUp x.link)
  | .acting (.failWrites n :: rest) =>
      (.go (x.goto (.acting rest)),
        hub.modify x.link fun l => { l with failWrites := n })
  | .sending frame rest => x.send .again frame rest hub
  | .sleeping due rest =>
      (.pause now due x (x.goto (.acting rest)), hub)

end ScriptDevice

end DeviceSession
