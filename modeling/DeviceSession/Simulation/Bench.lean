import DeviceSession.Device.Basic
import DeviceSession.Exchange.Basic
import DeviceSession.Exchange.Setup
import DeviceSession.Simulation.Clock

/-
  A host end and a device on one link.

  The host carries out a list of steps, one after another,
  either with whole exchanges or frame by frame.

  Key definitions include:
    * `HostStep`
    * `HostResult`
    * `Bench`
    * `Bench.hostStep`
    * `Bench.run`
-/

------------------------------------------------------------
-- Steps of a Host
------------------------------------------------------------

namespace DeviceSession

inductive HostStep where
  | setup
  | exchange (a : Apdu) (timeout : Nat)
  /- Watch the link for some time. -/
  | watch (ms : Nat)
  | sleep (ms : Nat)
  | close
  /- Write one frame. -/
  | write (frame : List UInt8)
  /- Wait for the next event, for some time. -/
  | next (ms : Nat)

/- What a step comes to. -/
inductive HostResult where
  | setup (r : Except ExchangeError Unit)
  | response (r : Except ExchangeError Response)
  | lost
  | stillLinked
  | slept
  | closed
  | written (r : Except LinkError Unit)
  | event (e : LinkNotice)
  | silent

/- A result with the time, and the host end then. -/
structure HostReport where
  time : Nat
  result : HostResult
  ready : Bool
  mtu : Option Nat

namespace Bench

/- What the host is doing. -/
inductive Activity where
  | idle
  | settingUp (x : Setup)
  | exchanging (x : Exchange)
  | watching (due : Nat) (asked : Asked)
  | sleeping (due : Nat)
  | writing (frame : List UInt8) (asked : Asked)
  | listening (due : Nat) (asked : Asked)

/- The times that an activity waits for. -/
def Activity.timers : Activity → List Nat
  | idle => []
  | settingUp x => x.timers
  | exchanging x => x.timers
  | watching due _ => [due]
  | sleeping due => [due]
  | writing _ _ => []
  | listening due _ => [due]

end Bench

------------------------------------------------------------
-- Benches
------------------------------------------------------------

structure Bench where
  connector : Connector PipeHub Nat
  settings : Settings
  hub : PipeHub
  device : Device
  host : HostEnd Nat
  steps : List HostStep
  activity : Bench.Activity := .idle
  reports : Array HostReport := #[]

namespace Bench

/- A bench with one open link. -/
def start
    (c : Connector PipeHub Nat)
    (settings : Settings)
    (device : Device)
    (steps : List HostStep) : Bench :=
  { connector := c
    settings
    hub := (({} : PipeHub).connect).2
    device
    host := { link := 1 }
    steps }

/- Report a result and go on to the next step. -/
def report (b : Bench) (now : Nat) (r : HostResult) :
    Bench :=
  { b with
    activity := .idle
    reports := b.reports.push
      ⟨now, r, b.host.isReady, b.host.mtu?⟩ }

/- Begin a step. -/
def begin (b : Bench) (now : Nat) : HostStep → Bench
  | .setup => { b with activity := .settingUp .start }
  | .exchange a timeout =>
      { b with
        activity := .exchanging (.ofCommand a now timeout) }
  | .watch ms =>
      { b with activity := .watching (now + ms) .first }
  | .sleep ms => { b with activity := .sleeping (now + ms) }
  | .close =>
      let (host, hub) := b.host.close b.connector b.hub
      { b with host, hub }.report now .closed
  | .write frame => { b with activity := .writing frame .first }
  | .next ms =>
      { b with activity := .listening (now + ms) .first }

/- Give the link up, if it is still there. -/
def hangUp (b : Bench) : Bench :=
  { b with hub := b.connector.close b.host.link b.hub }

/- What a turn of an activity does to a bench. -/
def settle
    {S R : Type}
    (b : Bench)
    (now : Nat)
    (f : S → Activity)
    (g : R → HostResult) : Turn S R → Bool × Bench
  | .go s => (true, { b with activity := f s })
  | .wait s => (false, { b with activity := f s })
  | .done r => (true, b.report now (g r))

/-
  One step of the host; true if it has moved.  A host that
  has nothing more to do gives its link up at once.
-/
def hostStep (now : Nat) (b : Bench) : Bool × Bench :=
  let c := b.connector
  let policy := WritePolicy.ofSettings b.settings
  match b.activity with
  | .idle =>
      match b.steps with
      | [] => (false, b.hangUp)
      | s :: rest => (true, { b with steps := rest }.begin now s)
  | .settingUp x =>
      let (t, host, hub) :=
        Setup.step c policy
          b.settings.mtuHandshakeTimeout.toNat now x b.host b.hub
      settle { b with host, hub } now .settingUp .setup t
  | .exchanging x =>
      let (t, host, hub) :=
        Exchange.step c policy now x b.host b.hub
      settle { b with host, hub } now .exchanging .response t
  | .watching due asked =>
      let (t, hub) := Watch.step c asked b.host b.hub
      settle { b with hub } now (.watching due) id
        ((t.map id fun _ => .lost).orAt now due .stillLinked)
  | .sleeping due =>
      if due ≤ now then (true, b.report now .slept)
      else (false, b)
  | .writing frame asked =>
      match c.write asked b.host.link frame b.hub with
      | (none, hub) =>
          (false,
            { b with hub, activity := .writing frame .again })
      | (some r, hub) =>
          (true, { b with hub }.report now (.written r))
  | .listening due asked =>
      match c.event asked b.host.link b.hub with
      | (none, hub) =>
          settle { b with hub } now (.listening due) id
            (Turn.orAt now due .silent (.wait .again))
      | (some e, hub) =>
          (true, { b with hub }.report now (.event e))

/- One step of the device; true if it has moved. -/
def deviceStep (now : Nat) (b : Bench) : Bool × Bench :=
  let (moved, device, hub) := b.device.step now b.hub
  (moved, { b with device, hub })

/- Whether the host has carried out all of its steps. -/
def finished (b : Bench) : Bool :=
  match b.activity, b.steps with
  | .idle, [] => true
  | _, _ => false

/- The host and the device, in this order. -/
def tasks : Tasks Bench where
  steps := [hostStep, deviceStep]
  timers := fun b => b.device.timers ++ b.activity.timers
  finished := finished

/- Carry out all steps. -/
def run (b : Bench) (limit : Nat) : End × Nat × Bench :=
  tasks.runFrom limit 0 b

end Bench

end DeviceSession
