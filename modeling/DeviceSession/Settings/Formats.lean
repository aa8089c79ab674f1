import DeviceSession.Settings.Blob
import DeviceSession.Settings.Document

/-
  The formats that settings are kept in.

  Documents are read, and stored forms are written and read,
  by libraries.  Here they are functions that a host brings
  along: what becomes of settings is said for all of them.
  A stored form is put together from the forms of bytes and
  words, and taken apart in the same way.

  The standard formats are those of `Settings.ofJson` and
  `Settings.ofBlob`.

  Key definitions include:
    * `Settings.Formats`
    * `Settings.Formats.ofText`
    * `Settings.Formats.save`
    * `Settings.Formats.load`
    * `Settings.Formats.put`
    * `Settings.Formats.takeAll`
    * `Settings.Formats.standard`
-/

------------------------------------------------------------
-- Formats
------------------------------------------------------------

namespace DeviceSession

namespace Settings

/- How documents and stored forms are read and written. -/
structure Formats where
  /- The settings that a document gives. -/
  parse : String → Option Settings
  /- The stored form of settings. -/
  store : Settings → Option (List UInt8)
  /- The settings of a stored form. -/
  restore : List UInt8 → Option Settings
  putByte : UInt8 → Option (List UInt8)
  putWord : UInt32 → Option (List UInt8)
  /- The byte at the beginning, and what follows it. -/
  takeByte : List UInt8 → Option (UInt8 × List UInt8)
  takeWord : List UInt8 → Option (UInt32 × List UInt8)

namespace Formats

/- Valid settings out of a document. -/
def ofText (f : Formats) (text : String) :
    Except Fault Settings :=
  accept .malformedJson (f.parse text)

/- Settings in their stored form. -/
def save (f : Formats) (s : Settings) :
    Except Fault (List UInt8) :=
  match f.store s with
  | none => .error (.refused .encodingFailed)
  | some blob => .ok blob

/- Valid settings out of their stored form. -/
def load (f : Formats) (blob : List UInt8) :
    Except Fault Settings :=
  accept .malformedBlob (f.restore blob)

------------------------------------------------------------
-- One Setting after the Other
------------------------------------------------------------

/- Write one setting. -/
def put (f : Formats) (s : Settings) (k : Key) :
    Option (List UInt8) :=
  match k with
  | .frameWriteRetries => f.putByte s.frameWriteRetries
  | _ => f.putWord (UInt32.ofNat (s.get k))

/- Read one setting. -/
def take (f : Formats) (k : Key) (bytes : List UInt8) :
    Option (Nat × List UInt8) :=
  match k with
  | .frameWriteRetries =>
      (f.takeByte bytes).map (Prod.map UInt8.toNat id)
  | _ => (f.takeWord bytes).map (Prod.map UInt32.toNat id)

/- Read the given settings in turn, and keep what is left. -/
def takeAll (f : Formats) :
    List Key → Settings → List UInt8 →
      Option (Settings × List UInt8)
  | [], s, bytes => some (s, bytes)
  | k :: ks, s, bytes => do
      let (n, rest) ← f.take k bytes
      f.takeAll ks (s.set k n) rest

------------------------------------------------------------
-- Standard Formats
------------------------------------------------------------

def standard : Formats where
  parse := parse?
  store := fun s => some s.encode
  restore := decode?
  putByte := fun b => some [b]
  putWord := fun w => some (Varint.encode w.toNat)
  takeByte := fun bytes =>
    match bytes with
    | [] => none
    | b :: rest => some (b, rest)
  takeWord := fun bytes =>
    (Varint.decode? bytes).map (Prod.map UInt32.ofNat id)

/- The standard formats are the ones that are defined here. -/
@[simp] theorem ofText_standard (text : String) :
    standard.ofText text = ofJson text :=
  rfl

@[simp] theorem save_standard (s : Settings) :
    standard.save s = .ok s.encode :=
  rfl

@[simp] theorem load_standard (blob : List UInt8) :
    standard.load blob = ofBlob blob :=
  rfl

end Formats

end Settings

end DeviceSession
