import DeviceSession.Frame.Error
import DeviceSession.Link.Error

/-
  What can go wrong with one command on one link.

  Key definitions include:
    * `ExchangeError`
    * `ExchangeError.breaksLink`
    * `ExchangeError.kind`
    * `ExchangeError.message`
-/

------------------------------------------------------------
-- Exchange Errors
------------------------------------------------------------

namespace DeviceSession

inductive ExchangeError where
  /- The frame size has not been settled. -/
  | notReady
  /- The frames of the answer do not fit together. -/
  | protocol (e : FrameError)
  /- The link failed. -/
  | link (e : LinkError)
  /- A frame could not be written, however often tried. -/
  | writeRetriesExhausted
  /- The answer was not complete in time. -/
  | timeout
deriving DecidableEq

namespace ExchangeError

/- Whether the link has to be given up. -/
def breaksLink : ExchangeError → Bool
  | link _ => true
  | writeRetriesExhausted => true
  | _ => false

/- The name of the kind of an error. -/
def kind : ExchangeError → String
  | notReady => "NotReady"
  | protocol .. => "Protocol"
  | link .. => "Link"
  | writeRetriesExhausted => "WriteRetriesExhausted"
  | timeout => "Timeout"

def message : ExchangeError → String
  | notReady => "sender not ready (no MTU)"
  | protocol e => e.message
  | link e => e.message
  | writeRetriesExhausted => "frame write retries exhausted"
  | timeout => "exchange timed out"

end ExchangeError

end DeviceSession
