import DeviceSession.Bytes.Hex

/-
  What can go wrong between messages and frames.

  Key definitions include:
    * `FrameError`
    * `FrameError.kind`
    * `FrameError.message`
-/

------------------------------------------------------------
-- Frame Errors
------------------------------------------------------------

namespace DeviceSession

inductive FrameError where
  /- The frame ends within its own header. -/
  | frameTooShort
  /- The head tag is not that of an APDU frame. -/
  | unexpectedTag (tag : UInt8)
  /- The frame was meant for another channel. -/
  | channelMismatch (expected received : UInt16)
  /- The index is not the next one of the message. -/
  | sequenceGap (expected received : UInt16)
  /- A continuation came with no message in progress. -/
  | unexpectedContinuation (index : UInt16)
  /- The message is too short for a status word. -/
  | responseTooShort
  /- A frame of this size carries no payload. -/
  | mtuTooSmall (mtu : Nat)
  /- The length does not fit the two bytes that declare it. -/
  | messageTooLong (length : Nat)
  /- The answer to the frame-size question is malformed. -/
  | invalidMtuResponse
deriving DecidableEq

/- The name of the kind of an error. -/
def FrameError.kind : FrameError → String
  | .frameTooShort => "FrameTooShort"
  | .unexpectedTag .. => "UnexpectedTag"
  | .channelMismatch .. => "ChannelMismatch"
  | .sequenceGap .. => "SequenceGap"
  | .unexpectedContinuation .. => "UnexpectedContinuation"
  | .responseTooShort => "ResponseTooShort"
  | .mtuTooSmall .. => "MtuTooSmall"
  | .messageTooLong .. => "MessageTooLong"
  | .invalidMtuResponse => "InvalidMtuResponse"

def FrameError.message : FrameError → String
  | .frameTooShort => "frame shorter than header"
  | .unexpectedTag tag =>
      "unexpected head tag 0x" ++ Hex.word8 tag
  | .channelMismatch expected received =>
      "frame for channel 0x" ++ Hex.word16 received ++
        ", expected 0x" ++ Hex.word16 expected
  | .sequenceGap expected received =>
      s!"sequence gap: expected {expected.toNat}, received {received.toNat}"
  | .unexpectedContinuation index =>
      s!"continuation frame {index.toNat} without a first frame"
  | .responseTooShort => "response shorter than a status word"
  | .mtuTooSmall mtu => s!"MTU {mtu} too small for framing"
  | .messageTooLong length =>
      s!"message of {length} bytes too long"
  | .invalidMtuResponse => "invalid MTU negotiation response"

end DeviceSession
