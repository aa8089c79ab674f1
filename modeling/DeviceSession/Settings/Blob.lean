import DeviceSession.Settings.Basic

/-
  A stored form of settings.

  The settings follow each other in the order of
  `Settings.Key.all`.  The one small setting is one byte;
  the others are written seven bits at a time, lowest
  first, each byte but the last with its high bit set.

  This is the standard form.  What is said of stored settings
  is said of every form that is documented in this way, in
  `Settings.Formats`.

  Key definitions include:
    * `Varint.encode`
    * `Varint.decode?`
    * `Settings.encode`
    * `Settings.decode?`
    * `Settings.ofBlob`
-/

------------------------------------------------------------
-- Numbers of Varying Length
------------------------------------------------------------

namespace DeviceSession

namespace Varint

/- The bytes of a number. -/
def encode (n : Nat) : List UInt8 :=
  if n < 128 then [UInt8.ofNat n]
  else UInt8.ofNat (n % 128 + 128) :: encode (n / 128)
termination_by n
decreasing_by omega

/-
  Read a number of at most 32 bits in at most `more + 1`
  bytes.  The last byte that is allowed has room for the
  four bits left over by the others.  Leading groups of
  zeros are allowed.
-/
def decodeWithin? :
    Nat → List UInt8 → Option (Nat × List UInt8)
  | _, [] => none
  | 0, b :: rest =>
      if b.toNat < 16 then some (b.toNat, rest) else none
  | more + 1, b :: rest =>
      if b.toNat < 128 then some (b.toNat, rest)
      else do
        let (n, rest') ← decodeWithin? more rest
        return (b.toNat - 128 + 128 * n, rest')

/- The number at the start of a byte string. -/
def decode? (bytes : List UInt8) :
    Option (Nat × List UInt8) :=
  decodeWithin? 4 bytes

end Varint

------------------------------------------------------------
-- Settings
------------------------------------------------------------

namespace Settings

/- The stored form of one setting. -/
def encodeKey (s : Settings) (k : Key) : List UInt8 :=
  match k with
  | .frameWriteRetries => [s.frameWriteRetries]
  | _ => Varint.encode (s.get k)

/- Read one setting. -/
def decodeKey? (k : Key) (bytes : List UInt8) :
    Option (Nat × List UInt8) :=
  match k with
  | .frameWriteRetries =>
      match bytes with
      | [] => none
      | b :: rest => some (b.toNat, rest)
  | _ => Varint.decode? bytes

/- The stored form. -/
def encode (s : Settings) : List UInt8 :=
  Key.all.flatMap s.encodeKey

/- Read the given settings in turn. -/
def decodeKeys? :
    List Key → Settings → List UInt8 → Option Settings
  | [], s, _ => some s
  | k :: ks, s, bytes => do
      let (n, rest) ← decodeKey? k bytes
      decodeKeys? ks (s.set k n) rest

/-
  The settings at the start of a byte string.  What follows
  them is not looked at.
-/
def decode? (bytes : List UInt8) : Option Settings :=
  decodeKeys? Key.all {} bytes

/- Valid settings out of their stored form. -/
def ofBlob (bytes : List UInt8) : Except Fault Settings :=
  accept .malformedBlob (decode? bytes)

end Settings

end DeviceSession
