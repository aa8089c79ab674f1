import DeviceSession.Frame.Error

/-
  The question and answer that settle the frame size.

      question:  0x08  0  0  0  0
      answer:    0x08  _  _  _  _  mtu

  Key definitions include:
    * `Mtu.request`
    * `Mtu.IsSizeFrame`
    * `Mtu.response`
    * `Mtu.parse`
-/

------------------------------------------------------------
-- Frame-Size Negotiation
------------------------------------------------------------

namespace DeviceSession

namespace Mtu

/- The head tag of question and answer. -/
def tag : UInt8 :=
  0x08

/- The host's question. -/
def request : List UInt8 :=
  [tag, 0, 0, 0, 0]

/- The device's answer. -/
def response (mtu : UInt8) : List UInt8 :=
  [tag, 0, 0, 0, 0, mtu]

/- Whether a frame belongs to this exchange. -/
def IsSizeFrame (frame : List UInt8) : Prop :=
  frame.head? = some tag

instance (frame : List UInt8) :
    Decidable (IsSizeFrame frame) := by
  unfold IsSizeFrame
  infer_instance

/- The frame size that an answer announces. -/
def parse (frame : List UInt8) : Except FrameError Nat :=
  if IsSizeFrame frame then
    match frame[5]? with
    | some mtu => .ok mtu.toNat
    | none => .error .invalidMtuResponse
  else
    .error .invalidMtuResponse

end Mtu

end DeviceSession
