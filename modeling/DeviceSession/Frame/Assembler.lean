import DeviceSession.Apdu.Basic
import DeviceSession.Bytes.Word
import DeviceSession.Frame.Error
import DeviceSession.Frame.Profile

/-
  Frames put back together into messages.

  A frame with index 0 starts a message and declares its
  length; continuations have to follow in order.  What a
  frame carries beyond the declared length is padding.

  Key definitions include:
    * `Partial`
    * `Assembler`
    * `Assembler.openFrame`
    * `Assembler.feed`
    * `Assembler.feedResponse`
    * `Response.ofMessage`
-/

------------------------------------------------------------
-- Assemblers
------------------------------------------------------------

namespace DeviceSession

/- A message of which some frames have come in. -/
structure Partial where
  /- The declared length. -/
  expected : Nat
  /- The index of the next frame. -/
  next : UInt16
  /- The payload so far. -/
  buffer : Array UInt8
deriving DecidableEq

/- The receiving end of a link. -/
structure Assembler where
  profile : Profile
  current : Option Partial := none
deriving DecidableEq

namespace Assembler

def ofProfile (p : Profile) : Assembler :=
  { profile := p }

/- Whether a message is in progress. -/
def inMessage (a : Assembler) : Bool :=
  a.current.isSome

/- Forget the message in progress. -/
def reset (a : Assembler) : Assembler :=
  { a with current := none }

------------------------------------------------------------
-- Headers
------------------------------------------------------------

/- Split a big-endian word off a frame. -/
def splitWord : List UInt8 →
    Except FrameError (UInt16 × List UInt8)
  | hi :: lo :: rest => .ok (Word.of16 hi lo, rest)
  | _ => .error .frameTooShort

/- What follows the channel of a frame, if it is ours. -/
def openChannel (p : Profile) (frame : List UInt8) :
    Except FrameError (List UInt8) :=
  match p.channel with
  | none => .ok frame
  | some expected => do
      let (received, rest) ← splitWord frame
      if received = expected then .ok rest
      else .error (.channelMismatch expected received)

/- The index of a frame, and what follows it. -/
def openFrame (p : Profile) (frame : List UInt8) :
    Except FrameError (UInt16 × List UInt8) := do
  match ← openChannel p frame with
  | [] => .error .frameTooShort
  | tag :: rest =>
      if tag = Profile.apduTag then splitWord rest
      else .error (.unexpectedTag tag)

------------------------------------------------------------
-- Feeding Frames
------------------------------------------------------------

/-
  Append payload to a message in progress, up to its
  declared length.  Gives the message once it is complete.
-/
def accept
    (a : Assembler)
    (m : Partial)
    (payload : List UInt8) :
    Option (List UInt8) × Assembler :=
  let wanted := m.expected - m.buffer.size
  let buffer := m.buffer ++ payload.take wanted
  if buffer.size < m.expected then
    (none, { a with current := some { m with buffer } })
  else
    (some buffer.toList, a.reset)

/-
  Take in one frame.  The answer is a message when this
  frame completes one.
-/
def feed (a : Assembler) (frame : List UInt8) :
    Except FrameError (Option (List UInt8)) × Assembler :=
  match openFrame a.profile frame with
  | .error e => (.error e, a)
  | .ok (index, body) =>
      if index = 0 then
        match splitWord body with
        | .error e => (.error e, a)
        | .ok (length, payload) =>
            let (out, a') :=
              a.accept ⟨length.toNat, 1, #[]⟩ payload
            (.ok out, a')
      else
        match a with
        | ⟨_, none⟩ =>
            (.error (.unexpectedContinuation index), a)
        | ⟨p, some m⟩ =>
            if index = m.next then
              let (out, a') :=
                accept ⟨p, none⟩
                  { m with next := m.next + 1 } body
              (.ok out, a')
            else
              (.error (.sequenceGap m.next index), ⟨p, none⟩)

/- The answers to a run of frames, in order. -/
def feedAll (a : Assembler) :
    List (List UInt8) →
    List (Except FrameError (Option (List UInt8))) ×
      Assembler
  | [] => ([], a)
  | frame :: frames =>
      let (out, a') := a.feed frame
      let (outs, a'') := feedAll a' frames
      (out :: outs, a'')

end Assembler

------------------------------------------------------------
-- Responses
------------------------------------------------------------

/- The response that a message is. -/
def Response.ofMessage (raw : List UInt8) :
    Except FrameError Response :=
  match Response.decode? raw with
  | some r => .ok r
  | none => .error .responseTooShort

/- As `feed`, for messages that are responses. -/
def Assembler.feedResponse
    (a : Assembler)
    (frame : List UInt8) :
    Except FrameError (Option Response) × Assembler :=
  match a.feed frame with
  | (.error e, a') => (.error e, a')
  | (.ok none, a') => (.ok none, a')
  | (.ok (some raw), a') =>
      ((Response.ofMessage raw).map some, a')

end DeviceSession
