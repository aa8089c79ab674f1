/-
  Big-endian words: the order in which every multi-byte
  number of the wire is written.

  Key definitions include:
    * `Word.bytes16`
    * `Word.bytes32`
    * `Word.of16`
    * `Word.of32`
-/

------------------------------------------------------------
-- Writing Words
------------------------------------------------------------

namespace DeviceSession

namespace Word

/- The two bytes of a 16-bit word, high byte first. -/
def bytes16 (w : UInt16) : List UInt8 :=
  [UInt8.ofNat (w.toNat / 256), UInt8.ofNat w.toNat]

/- The four bytes of a 32-bit word, high byte first. -/
def bytes32 (w : UInt32) : List UInt8 :=
  [ UInt8.ofNat (w.toNat / 16777216),
    UInt8.ofNat (w.toNat / 65536),
    UInt8.ofNat (w.toNat / 256),
    UInt8.ofNat w.toNat ]

------------------------------------------------------------
-- Reading Words
------------------------------------------------------------

/- The 16-bit word with the given high and low byte. -/
def of16 (hi lo : UInt8) : UInt16 :=
  UInt16.ofNat (hi.toNat * 256 + lo.toNat)

/- The 32-bit word with the given bytes, high byte first. -/
def of32 (a b c d : UInt8) : UInt32 :=
  UInt32.ofNat
    (a.toNat * 16777216 + b.toNat * 65536 +
      c.toNat * 256 + d.toNat)

------------------------------------------------------------
-- Laws
------------------------------------------------------------

theorem length_bytes16 (w : UInt16) :
    (bytes16 w).length = 2 := rfl

theorem length_bytes32 (w : UInt32) :
    (bytes32 w).length = 4 := rfl

/- Reading back the two bytes of a word gives the word. -/
theorem of16_bytes16 (w : UInt16) :
    of16 (UInt8.ofNat (w.toNat / 256))
      (UInt8.ofNat w.toNat) = w := by
  apply UInt16.toNat_inj.mp
  have h := w.toNat_lt
  simp only [of16, UInt16.toNat_ofNat', UInt8.toNat_ofNat']
  omega

/- Writing a word gives back the two bytes it was read from. -/
theorem bytes16_of16 (hi lo : UInt8) :
    bytes16 (of16 hi lo) = [hi, lo] := by
  have hHi := hi.toNat_lt
  have hLo := lo.toNat_lt
  have hWord :
      (of16 hi lo).toNat = hi.toNat * 256 + lo.toNat := by
    rw [of16, UInt16.toNat_ofNat']
    omega
  have hFirst : UInt8.ofNat ((of16 hi lo).toNat / 256) = hi := by
    apply UInt8.toNat_inj.mp
    rw [hWord, UInt8.toNat_ofNat']
    omega
  have hSecond : UInt8.ofNat (of16 hi lo).toNat = lo := by
    apply UInt8.toNat_inj.mp
    rw [hWord, UInt8.toNat_ofNat']
    omega
  rw [bytes16, hFirst, hSecond]

/- Reading back the four bytes of a word gives the word. -/
theorem of32_bytes32 (w : UInt32) :
    of32 (UInt8.ofNat (w.toNat / 16777216))
      (UInt8.ofNat (w.toNat / 65536))
      (UInt8.ofNat (w.toNat / 256))
      (UInt8.ofNat w.toNat) = w := by
  apply UInt32.toNat_inj.mp
  have h := w.toNat_lt
  simp only [of32, UInt32.toNat_ofNat', UInt8.toNat_ofNat']
  omega

end Word

end DeviceSession
