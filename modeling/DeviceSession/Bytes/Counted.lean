/-
  Byte strings with their length in front.

  Key definitions include:
    * `counted`
-/

------------------------------------------------------------
-- Counted Bytes
------------------------------------------------------------

namespace DeviceSession

/-
  One byte for the length, then the bytes.  Only the low
  eight bits of the length are kept, so strings of up to
  255 bytes can be read back.
-/
def counted (bytes : List UInt8) : List UInt8 :=
  UInt8.ofNat bytes.length :: bytes

/- The count is one byte more. -/
theorem length_counted (bytes : List UInt8) :
    (counted bytes).length = bytes.length + 1 := rfl

end DeviceSession
