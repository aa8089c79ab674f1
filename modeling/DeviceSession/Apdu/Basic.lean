import DeviceSession.Apdu.Error
import DeviceSession.Bytes.Hex
import DeviceSession.Bytes.Word

/-
  Commands and responses, and their wire forms.

      command:   CLA  INS  P1  P2  Lc  payload (at most 255)
      response:  payload  SW1  SW2

  The length byte Lc is always present, so a command of `n`
  payload bytes is `n + 5` bytes long.

  Key definitions include:
    * `StatusWord`
    * `Apdu`
    * `Apdu.ofHeader`
    * `Apdu.ofPayload`
    * `Apdu.encode`
    * `Apdu.decode?`
    * `Response`
    * `Response.encode`
    * `Response.decode?`
-/

------------------------------------------------------------
-- Status Words
------------------------------------------------------------

namespace DeviceSession

/- The two bytes that end every response. -/
structure StatusWord where
  code : UInt16
deriving DecidableEq

namespace StatusWord

/- The command was carried out. -/
def success : StatusWord :=
  ⟨0x9000⟩

def isSuccess (sw : StatusWord) : Bool :=
  sw == success

def text (sw : StatusWord) : String :=
  "0x" ++ Hex.word16 sw.code

end StatusWord

------------------------------------------------------------
-- Commands
------------------------------------------------------------

/- The largest payload that one length byte can declare. -/
def maxPayload : Nat :=
  255

/- A command: a four-byte head and a bounded payload. -/
structure Apdu where
  cla : UInt8
  ins : UInt8
  p1 : UInt8
  p2 : UInt8
  data : List UInt8
  data_le : data.length ≤ maxPayload
deriving DecidableEq

namespace Apdu

/- The number of bytes before the payload. -/
def headerLength : Nat :=
  5

/- A command without a payload. -/
def ofHeader (cla ins p1 p2 : UInt8) : Apdu :=
  ⟨cla, ins, p1, p2, [], Nat.zero_le _⟩

/- A command with the given payload, if it is not too long. -/
def ofPayload
    (cla ins p1 p2 : UInt8)
    (data : List UInt8) :
    Except BuildError Apdu :=
  if h : data.length ≤ maxPayload then
    .ok ⟨cla, ins, p1, p2, data, h⟩
  else
    .error (.dataOverflow data.length maxPayload)

/- The length of the wire form. -/
def encodedLength (a : Apdu) : Nat :=
  headerLength + a.data.length

/- The wire form. -/
def encode (a : Apdu) : List UInt8 :=
  a.cla :: a.ins :: a.p1 :: a.p2 ::
    UInt8.ofNat a.data.length :: a.data

/-
  The command that a byte string is the wire form of.  The
  length byte has to agree with what follows it.
-/
def decode? : List UInt8 → Option Apdu
  | cla :: ins :: p1 :: p2 :: lc :: data =>
      if lc.toNat = data.length then
        (ofPayload cla ins p1 p2 data).toOption
      else
        none
  | _ => none

/- The length that is announced is that of the bytes. -/
theorem length_encode (a : Apdu) :
    a.encode.length = a.encodedLength := by
  simp [encode, encodedLength, headerLength]
  omega

end Apdu

------------------------------------------------------------
-- Responses
------------------------------------------------------------

/- A payload and the status word after it. -/
structure Response where
  status : StatusWord
  data : List UInt8 := []
deriving DecidableEq

namespace Response

/- Success, with nothing to say. -/
def success : Response :=
  { status := .success }

def isSuccess (r : Response) : Bool :=
  r.status.isSuccess

/- The wire form. -/
def encode (r : Response) : List UInt8 :=
  r.data ++ Word.bytes16 r.status.code

/-
  Split the status word off a message.  A message shorter
  than a status word is no response.
-/
def decode? (raw : List UInt8) : Option Response :=
  match raw.drop (raw.length - 2), raw.take (raw.length - 2) with
  | [hi, lo], data => some ⟨⟨Word.of16 hi lo⟩, data⟩
  | _, _ => none

end Response

end DeviceSession
