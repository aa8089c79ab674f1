import DeviceSession.Connection.Basic
import DeviceSession.Exchange.Setup
import DeviceSession.Link.Backoff

/-
  Bringing up a link by a deadline.

  An attempt waits for the device, opens a link and settles
  the frame size.  Failed attempts are told, and repeated
  after a pause.  They are numbered in 32 bits, by checked
  sums: the attempt after the last number is an overflow,
  which ends the poll in a panic, and so the run.

  Key definitions include:
    * `Attempt`
    * `BringUp`
    * `BringUp.Ending`
    * `BringUp.again`
    * `BringUp.attemptStep`
    * `BringUp.step`
-/

------------------------------------------------------------
-- Attempts
------------------------------------------------------------

namespace DeviceSession

/- How far an attempt is. -/
inductive Attempt (L : Type) where
  /- Waiting for the device. -/
  | reaching (asked : Asked)
  /- Waiting a fixed time instead. -/
  | fallingBack (due : Nat)
  | connecting (asked : Asked)
  | settingUp (e : HostEnd L) (x : Setup)
  /- The attempt has failed; the next one is put off. -/
  | pausing (due : Nat)
  /- There is no number for the next one: a panic, and a poll
     that never comes to rest. -/
  | overflowed

/- Bringing up a link: the deadline, and the attempt. -/
structure BringUp (L : Type) where
  deadline : Nat
  /- The number of the attempt, from 1. -/
  number : UInt32 := 1
  attempt : Attempt L := .reaching .first

namespace BringUp

variable {W L : Type}

/- How bringing up a link ends. -/
inductive Ending (L : Type) where
  | linked (e : HostEnd L)
  | expired

def goto (x : BringUp L) (a : Attempt L) : BringUp L :=
  { x with attempt := a }

/- The times that are waited for. -/
def timers (x : BringUp L) : List Nat :=
  x.deadline ::
    match x.attempt with
    | .fallingBack due => [due]
    | .settingUp _ s => s.timers
    | .pausing due => [due]
    | _ => []

/- Give up the link of an attempt that is under way. -/
def abort (c : Connector W L) (x : BringUp L) (w : W) : W :=
  match x.attempt with
  | .settingUp e _ => c.close e.link w
  | _ => w

/- Why a link that could not be set up was not opened. -/
def setupFailure : ExchangeError → LinkError
  | .link e => e
  | _ => .openFailed "MTU handshake failed"

/- Tell of a failed attempt, and pause. -/
def fail
    (now : Nat)
    (x : BringUp L)
    (e : LinkError)
    (k : Connection) : BringUp L × Connection :=
  let delay :=
    (Backoff.ofSettings k.settings).pauseAfter x.number e
  let pause := Backoff.capped delay now x.deadline
  (x.goto (.pausing (now + pause)),
    k.tell now (.attemptFailed x.number e))

/- The next attempt, if its number fits. -/
def again (x : BringUp L) : BringUp L :=
  if x.number.toNat + 1 < UInt32.size then
    { x with
      number := x.number + 1
      attempt := .reaching .first }
  else x.goto .overflowed

/- Trying again does not put off the deadline. -/
@[simp] theorem deadline_again (x : BringUp L) :
    x.again.deadline = x.deadline := by
  unfold again
  split <;> rfl

/- The next attempt has the next number, or there is none. -/
theorem again_cases (x : BringUp L) :
    x.again.number.toNat = x.number.toNat + 1 ∧
        x.again.attempt = .reaching .first ∨
      UInt32.size ≤ x.number.toNat + 1 ∧
        x.again.number = x.number ∧
          x.again.attempt = .overflowed := by
  unfold again
  split
  · rename_i hRoom
    refine .inl ⟨?_, rfl⟩
    rw [UInt32.toNat_add]
    exact Nat.mod_eq_of_lt hRoom
  · rename_i hFull
    exact .inr ⟨Nat.le_of_not_lt hFull, rfl, rfl⟩

/- One step of the attempts, whatever the deadline. -/
def attemptStep
    (c : Connector W L)
    (now : Nat)
    (x : BringUp L)
    (k : Connection)
    (w : W) :
    Turn (BringUp L) (Ending L) × Connection × W :=
  match x.attempt with
  | .reaching asked =>
      match c.reach asked w with
      | (none, w) => (.wait (x.goto (.reaching .again)), k, w)
      | (some .reachable, w) =>
          (.go (x.goto (.connecting .first)), k, w)
      | (some .unsupported, w) =>
          let wait := k.settings.reachabilityFallback.toNat
          (.go (x.goto (.fallingBack (now + wait))), k, w)
  | .fallingBack due =>
      (.pause now due x (x.goto (.connecting .first)), k, w)
  | .connecting asked =>
      match c.connect asked w with
      | (none, w) =>
          (.wait (x.goto (.connecting .again)), k, w)
      | (some (.ok l), w) =>
          (.go (x.goto (.settingUp { link := l } .start)), k, w)
      | (some (.error e), w) =>
          let (x, k) := x.fail now e k
          (.go x, k, w)
  | .settingUp e s =>
      let policy := WritePolicy.ofSettings k.settings
      let timeout := k.settings.mtuHandshakeTimeout.toNat
      match Setup.step c policy timeout now s e w with
      | (.go s, e, w) => (.go (x.goto (.settingUp e s)), k, w)
      | (.wait s, e, w) =>
          (.wait (x.goto (.settingUp e s)), k, w)
      | (.done (.ok _), e, w) => (.done (.linked e), k, w)
      | (.done (.error err), e, w) =>
          let (x, k) := x.fail now (setupFailure err) k
          (.go x, k, c.close e.link w)
  | .pausing due => (.pause now due x x.again, k, w)
  | .overflowed => (.go x, k, w)

/-
  One step of bringing up a link.  The attempts go first;
  the deadline counts once they wait.
-/
def step
    (c : Connector W L)
    (now : Nat)
    (x : BringUp L)
    (k : Connection)
    (w : W) :
    Turn (BringUp L) (Ending L) × Connection × W :=
  match x.attemptStep c now k w with
  | (.wait x, k, w) =>
      if x.deadline ≤ now then
        (.done .expired, k, x.abort c w)
      else (.wait x, k, w)
  | t => t

end BringUp

end DeviceSession
