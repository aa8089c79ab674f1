/-
  What can go wrong with a physical link.

  Key definitions include:
    * `LinkError`
    * `LinkError.kind`
    * `LinkError.message`
-/

------------------------------------------------------------
-- Link Errors
------------------------------------------------------------

namespace DeviceSession

inductive LinkError where
  /- The other end is gone for good. -/
  | disconnected
  /- One write failed; the link may still work. -/
  | writeFailed
  /- The device is too far away. -/
  | outOfRange
  /- The link could not be opened. -/
  | openFailed (reason : String)
deriving DecidableEq

/- The name of the kind of an error. -/
def LinkError.kind : LinkError → String
  | .disconnected => "Disconnected"
  | .writeFailed => "WriteFailed"
  | .outOfRange => "OutOfRange"
  | .openFailed .. => "OpenFailed"

def LinkError.message : LinkError → String
  | .disconnected => "device disconnected"
  | .writeFailed => "frame write failed"
  | .outOfRange => "device out of range"
  | .openFailed reason => s!"open failed: {reason}"

end DeviceSession
