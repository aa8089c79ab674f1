/-
  Arithmetic and slices as a machine has them.

  Positions are machine words.  A sum that is too large, a
  difference below zero, a division by zero and a slice that
  is not within its bytes are faults: nothing comes of them.

  Key definitions include:
    * `Checked.wordSize`
    * `Checked.add?`
    * `Checked.sub?`
    * `Checked.ceilDiv?`
    * `Checked.slice?`

  Main declarations:
    * `Checked.add?_of_lt`
    * `Checked.sub?_of_le`
    * `Checked.ceilDiv?_of_pos`
    * `Checked.slice?_of_le`
-/

------------------------------------------------------------
-- Faults
------------------------------------------------------------

namespace DeviceSession

namespace Checked

/- How many numbers there are machine words for. -/
def wordSize : Nat :=
  18446744073709551616

/- A sum that is a machine word. -/
def add? (a b : Nat) : Option Nat :=
  if a + b < wordSize then some (a + b) else none

/- A difference that is not below zero. -/
def sub? (a b : Nat) : Option Nat :=
  if b ≤ a then some (a - b) else none

/- A quotient, rounded up. -/
def ceilDiv? (a b : Nat) : Option Nat :=
  if b = 0 then none
  else some (a / b + if a % b = 0 then 0 else 1)

/- The bytes from a position up to another. -/
def slice? (bytes : List UInt8) (start stop : Nat) :
    Option (List UInt8) :=
  if start ≤ stop ∧ stop ≤ bytes.length then
    some ((bytes.drop start).take (stop - start))
  else none

------------------------------------------------------------
-- Where There Is None
------------------------------------------------------------

/- A sum that fits in a word is not a fault. -/
theorem add?_of_lt
    {a b : Nat}
    (hSum : a + b < wordSize) :
    add? a b = some (a + b) :=
  if_pos hSum

/- Nor is a difference of which the first is no less. -/
theorem sub?_of_le
    {a b : Nat}
    (hLe : b ≤ a) :
    sub? a b = some (a - b) :=
  if_pos hLe

/- To divide is a fault only by nothing. -/
theorem ceilDiv?_of_pos
    (a : Nat)
    {b : Nat}
    (hPos : 0 < b) :
    ceilDiv? a b = some ((a + b - 1) / b) := by
  have hSplit := Nat.div_add_mod a b
  have hMod := Nat.mod_lt a hPos
  have hRest :
      (a % b + b - 1) / b = if a % b = 0 then 0 else 1 := by
    split
    · exact Nat.div_eq_of_lt (by omega)
    · exact Nat.div_eq_of_lt_le (by omega) (by omega)
  have hQuotient :
      (a + b - 1) / b = a / b + if a % b = 0 then 0 else 1 := by
    have hSum : a + b - 1 = b * (a / b) + (a % b + b - 1) := by
      omega
    rw [hSum, Nat.mul_add_div hPos, hRest]
  rw [ceilDiv?, if_neg (Nat.ne_of_gt hPos), hQuotient]

/- A range within the bytes, in order, can be taken. -/
theorem slice?_of_le
    {bytes : List UInt8}
    {start stop : Nat}
    (hStart : start ≤ stop)
    (hStop : stop ≤ bytes.length) :
    slice? bytes start stop =
      some ((bytes.drop start).take (stop - start)) :=
  if_pos ⟨hStart, hStop⟩

end Checked

end DeviceSession
