import DeviceSession.Link.Error
import DeviceSession.Settings.Basic

/-
  The pauses between attempts to bring a link back.

  A pause grows with the number of the attempt, up to a
  ceiling, and is at the ceiling when the device is out of
  range.  Durations saturate: none is longer than
  `Backoff.longest`.

  Key definitions include:
    * `Backoff`
    * `Backoff.ofDelays`
    * `Backoff.pauseAfter`
    * `Backoff.capped`
-/

------------------------------------------------------------
-- Backoff
------------------------------------------------------------

namespace DeviceSession

/- A first pause and a longest one. -/
structure Backoff where
  step : Nat
  ceiling : Nat
deriving DecidableEq

namespace Backoff

/- A ceiling below the first pause is raised to it. -/
def ofDelays (step ceiling : Nat) : Backoff :=
  ⟨step, max ceiling step⟩

def ofSettings (s : Settings) : Backoff :=
  ofDelays s.reconnectDelay.toNat s.outOfRangeDelay.toNat

/-
  The longest duration, in whole milliseconds: seconds are
  counted in 64 bits.
-/
def longest : Nat :=
  18446744073709551616 * 1000 - 1

/- A product of a duration, at most the longest one. -/
def saturatingMul (d n : Nat) : Nat :=
  min (d * n) longest

/- The pause after the given attempt has failed. -/
def pauseAfter
    (b : Backoff)
    (attempt : UInt32)
    (failure : LinkError) : Nat :=
  if failure = .outOfRange then b.ceiling
  else
    min (saturatingMul b.step (max attempt.toNat 1))
      b.ceiling

/- A pause that does not go past the deadline. -/
def capped (delay now deadline : Nat) : Nat :=
  min delay (deadline - now)

end Backoff

end DeviceSession
