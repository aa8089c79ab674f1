/-
  The life of a connection, as a pure machine.

      connecting --> connected <--> awaitingDisconnection
                        |  ^               |
                        v  |               v
                      disconnected <-------+
                        |
                        v
                     terminated  (from every state)

  Each link that comes up has a generation: 1 for the
  first, one more for each later one.

  Key definitions include:
    * `Lifecycle`
    * `Lifecycle.generation?`
    * `Lifecycle.isLinked`
    * `LifecycleInput`
    * `Lifecycle.next`
    * `Lifecycle.run`
-/

------------------------------------------------------------
-- States
------------------------------------------------------------

namespace DeviceSession

inductive Lifecycle where
  /- No link has come up yet. -/
  | connecting
  | connected (generation : UInt32)
  /- The device may restart its link; it is being asked. -/
  | awaitingDisconnection (generation : UInt32)
  /- The link is lost and has to be back by the deadline. -/
  | disconnected (generation : UInt32) (deadline : Nat)
  /- Nothing leads out of here. -/
  | terminated
deriving DecidableEq

namespace Lifecycle

/- The generation of the last link, until the end. -/
def generation? : Lifecycle → Option UInt32
  | connecting => some 0
  | connected g => some g
  | awaitingDisconnection g => some g
  | disconnected g _ => some g
  | terminated => none

def isTerminated : Lifecycle → Bool
  | terminated => true
  | _ => false

/- Whether there is a live link. -/
def isLinked : Lifecycle → Bool
  | connected _ => true
  | awaitingDisconnection _ => true
  | _ => false

end Lifecycle

------------------------------------------------------------
-- Inputs
------------------------------------------------------------

/- What happens to a connection. -/
inductive LifecycleInput where
  /- The link broke. -/
  | linkLost
  /- A fresh link is ready for use. -/
  | reconnected
  /- The deadline went by. -/
  | budgetExpired
  | closeRequested
  /- An answer was not complete in time. -/
  | exchangeTimedOut
  /- The frames of an answer did not fit together. -/
  | exchangeCorrupted
  /- An answer came; the device may restart its link. -/
  | exchangeSucceeded (restartsLink : Bool)
  /- Nothing was sent. -/
  | exchangeRejected
  /- The device answered on the link that was in doubt. -/
  | stillLinked
deriving DecidableEq

/- Whether the input ends the link but not the connection. -/
def LifecycleInput.losesLink : LifecycleInput → Bool
  | linkLost => true
  | exchangeTimedOut => true
  | exchangeCorrupted => true
  | _ => false

------------------------------------------------------------
-- Transitions
------------------------------------------------------------

namespace Lifecycle

/- The state after an input at the given time. -/
def next
    (s : Lifecycle)
    (input : LifecycleInput)
    (now budget : Nat) : Lifecycle :=
  match s with
  | terminated => terminated
  | connecting =>
      match input with
      | .closeRequested => terminated
      | .reconnected => connected 1
      | .budgetExpired => terminated
      | _ => connecting
  | connected g =>
      match input with
      | .closeRequested => terminated
      | .exchangeSucceeded true => awaitingDisconnection g
      | i =>
          if i.losesLink then disconnected g (now + budget)
          else connected g
  | awaitingDisconnection g =>
      match input with
      | .closeRequested => terminated
      | .stillLinked => connected g
      | i =>
          if i.losesLink then disconnected g (now + budget)
          else awaitingDisconnection g
  | disconnected g deadline =>
      match input with
      | .closeRequested => terminated
      | .reconnected =>
          if deadline < now then terminated
          else connected (g + 1)
      | .budgetExpired => terminated
      | _ => disconnected g deadline

/- The states after each of a list of timed inputs. -/
def run
    (budget : Nat)
    (s : Lifecycle) :
    List (LifecycleInput × Nat) → List Lifecycle
  | [] => []
  | (input, now) :: rest =>
      let s' := s.next input now budget
      s' :: run budget s' rest

end Lifecycle

end DeviceSession
