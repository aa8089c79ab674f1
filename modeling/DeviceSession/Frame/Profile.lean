/-
  The parameters in which links differ.

      first frame:    channel?  0x05  index = 0  length  payload
      continuation:   channel?  0x05  index = n  payload

  Channel, index and length are two bytes each.  Links that
  share one transport put a channel in front; links with
  reports of a fixed size pad every frame with zeros.

  Key definitions include:
    * `Profile`
    * `Profile.ble`
    * `Profile.hid`
    * `Profile.leastMtu`
-/

------------------------------------------------------------
-- Profiles
------------------------------------------------------------

namespace DeviceSession

structure Profile where
  /- The channel in front of every frame, if there is one. -/
  channel : Option UInt16
  /- Whether frames are filled up with zeros. -/
  padding : Bool
deriving DecidableEq

namespace Profile

/- A radio link: no channel, frames as long as needed. -/
def ble : Profile :=
  ⟨none, false⟩

/- A link of fixed-size reports on the given channel. -/
def hid (channel : UInt16) : Profile :=
  ⟨some channel, true⟩

/- The channel that report links use. -/
def hidChannel : UInt16 :=
  0x0101

/- The head tag of a frame that carries an APDU. -/
def apduTag : UInt8 :=
  0x05

/- The header length of a continuation. -/
def headerLength (p : Profile) : Nat :=
  match p.channel with
  | some _ => 5
  | none => 3

/- The header length of a first frame. -/
def firstHeaderLength (p : Profile) : Nat :=
  p.headerLength + 2

/- The least frame size with room for payload throughout. -/
def leastMtu (p : Profile) : Nat :=
  p.firstHeaderLength + 1

end Profile

end DeviceSession
