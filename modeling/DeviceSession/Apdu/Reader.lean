import DeviceSession.Apdu.Error
import DeviceSession.Bytes.Text
import DeviceSession.Bytes.Word

/-
  A cursor over the payload of a response.

  Each read either takes one whole field and moves past it,
  or says which bytes are missing and leaves the cursor
  where it was.

  Key definitions include:
    * `Reader`
    * `Reader.take`
    * `Reader.u8`
    * `Reader.u16`
    * `Reader.u32`
    * `Reader.lv`
    * `Reader.lvAscii`
    * `Reader.tlv`
    * `Reader.rest`
    * `ReadCall`
    * `Reader.perform`
-/

------------------------------------------------------------
-- Cursors
------------------------------------------------------------

namespace DeviceSession

/- A position in a byte string. -/
structure Reader where
  data : List UInt8
  position : Nat := 0
  position_le : position ≤ data.length := by simp

namespace Reader

/- A cursor at the start. -/
def ofBytes (data : List UInt8) : Reader :=
  { data }

/- The number of bytes after the cursor. -/
def remaining (r : Reader) : Nat :=
  r.data.length - r.position

/- Whether the whole of the data has at least `n` bytes. -/
def hasLength (r : Reader) (n : Nat) : Bool :=
  n ≤ r.data.length

/- Back to the start. -/
def reset (r : Reader) : Reader :=
  ofBytes r.data

------------------------------------------------------------
-- Fields
------------------------------------------------------------

/- The next `n` bytes. -/
def take (r : Reader) (n : Nat) :
    Except ShortRead (List UInt8 × Reader) :=
  if h : r.position + n ≤ r.data.length then
    .ok ((r.data.drop r.position).take n,
      { r with
        position := r.position + n
        position_le := h })
  else
    .error ⟨r.position, n⟩

/- One byte. -/
def u8 (r : Reader) :
    Except ShortRead (UInt8 × Reader) := do
  let (bytes, r') ← r.take 1
  return (bytes.headD 0, r')

/- A big-endian 16-bit word. -/
def u16 (r : Reader) :
    Except ShortRead (UInt16 × Reader) := do
  let (bytes, r') ← r.take 2
  match bytes with
  | [a, b] => return (Word.of16 a b, r')
  | _ => return (0, r')

/- A big-endian 32-bit word. -/
def u32 (r : Reader) :
    Except ShortRead (UInt32 × Reader) := do
  let (bytes, r') ← r.take 4
  match bytes with
  | [a, b, c, d] => return (Word.of32 a b c d, r')
  | _ => return (0, r')

/- One byte that counts, then as many bytes. -/
def lv (r : Reader) :
    Except ShortRead (List UInt8 × Reader) := do
  let (n, r') ← r.u8
  r'.take n.toNat

/- As `lv`, as ASCII text. -/
def lvAscii (r : Reader) :
    Except ShortRead (String × Reader) := do
  let (bytes, r') ← r.lv
  return (Text.ofAsciiLossy bytes, r')

/- One byte that tags, then a counted value. -/
def tlv (r : Reader) :
    Except ShortRead ((UInt8 × List UInt8) × Reader) := do
  let (tag, r') ← r.u8
  let (value, r'') ← r'.lv
  return ((tag, value), r'')

/- All that is left, which may be nothing. -/
def rest (r : Reader) : List UInt8 × Reader :=
  (r.data.drop r.position,
    { r with
      position := r.data.length
      position_le := Nat.le_refl _ })

end Reader

------------------------------------------------------------
-- Sequences of Reads
------------------------------------------------------------

/- One use of a cursor. -/
inductive ReadCall where
  | u8
  | u16
  | u32
  | bytes (n : Nat)
  | lv
  | lvAscii
  | tlv
  | rest
  | reset
deriving DecidableEq

/- What a use of a cursor yields. -/
inductive ReadValue where
  | number (n : Nat)
  | bytes (bs : List UInt8)
  | text (s : String)
  | tagged (tag : UInt8) (value : List UInt8)
  | none
deriving DecidableEq

namespace Reader

/-
  The value of a use and the cursor after it.  After a read
  that fails the cursor is the one before it.
-/
def settle
    {α : Type}
    (r : Reader)
    (f : α → ReadValue) :
    Except ShortRead (α × Reader) →
    Except ShortRead ReadValue × Reader
  | .ok (a, r') => (.ok (f a), r')
  | .error e => (.error e, r)

/- Use a cursor once. -/
def perform (r : Reader) :
    ReadCall → Except ShortRead ReadValue × Reader
  | .u8 => settle r (fun w => .number w.toNat) r.u8
  | .u16 => settle r (fun w => .number w.toNat) r.u16
  | .u32 => settle r (fun w => .number w.toNat) r.u32
  | .bytes n => settle r .bytes (r.take n)
  | .lv => settle r .bytes r.lv
  | .lvAscii => settle r .text r.lvAscii
  | .tlv => settle r (fun (t, v) => .tagged t v) r.tlv
  | .rest =>
      let (bytes, r') := r.rest
      (.ok (.bytes bytes), r')
  | .reset => (.ok .none, r.reset)

end Reader

end DeviceSession
