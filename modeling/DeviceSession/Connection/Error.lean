import DeviceSession.Frame.Error

/-
  Why a request was not answered.

  Key definitions include:
    * `ConnectionError`
    * `ConnectionError.kind`
    * `ConnectionError.message`
-/

------------------------------------------------------------
-- Connection Errors
------------------------------------------------------------

namespace DeviceSession

inductive ConnectionError where
  /- The link was lost with the request on the wire. -/
  | disconnectedWhileSending
  /- No link came up in time for the request. -/
  | disconnectedBeforeSending
  /- The connection has ended. -/
  | terminated
  /- As many requests as may wait are waiting. -/
  | queueFull
  /- The answer was not complete in time. -/
  | timeout
  /- The frames of the answer do not fit together. -/
  | protocol (e : FrameError)
  /- The frame size had not been settled. -/
  | notReady
deriving DecidableEq

/- The name of the kind of an error. -/
def ConnectionError.kind : ConnectionError → String
  | .disconnectedWhileSending => "DisconnectedWhileSending"
  | .disconnectedBeforeSending => "DisconnectedBeforeSending"
  | .terminated => "Terminated"
  | .queueFull => "QueueFull"
  | .timeout => "Timeout"
  | .protocol .. => "Protocol"
  | .notReady => "NotReady"

def ConnectionError.message : ConnectionError → String
  | .disconnectedWhileSending =>
      "device disconnected while sending"
  | .disconnectedBeforeSending =>
      "device disconnected before sending (reconnection budget exhausted)"
  | .terminated => "device terminated"
  | .queueFull => "request queue full"
  | .timeout => "send APDU timeout"
  | .protocol e => e.message
  | .notReady => "device not initialized"

end DeviceSession
