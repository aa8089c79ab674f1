import DeviceSession.Link.Backoff
import Mathlib.Order.Bounds.Basic
import Mathlib.Order.MinMax

/-
  How long the pauses between attempts are.

  Pauses are durations: seconds in 64 bits, and nanoseconds.
  A product that is longer than any duration is cut off, but
  never below the ceiling, which is a duration itself.  So a
  pause is what it would be if durations had no end.

  Key definitions include:
    * `Duration`
    * `Duration.toNanos`
    * `ExactBackoff`
    * `ExactBackoff.pauseAfter`
    * `ExactBackoff.capped`

  Main declarations:
    * `ExactBackoff.toNanos_pauseAfter`
    * `ExactBackoff.isGreatest_capped`
    * `ExactBackoff.pauses_exact`
-/

------------------------------------------------------------
-- Durations
------------------------------------------------------------

namespace DeviceSession

/- A length of time, to the nanosecond. -/
structure Duration where
  seconds : UInt64
  nanos : UInt32
  nanos_lt : nanos.toNat < 1000000000
deriving DecidableEq

namespace Duration

def toNanos (d : Duration) : Nat :=
  d.seconds.toNat * 1000000000 + d.nanos.toNat

/- A duration is the number of its nanoseconds. -/
theorem toNanos_injective : Function.Injective toNanos := by
  intro d d' hEq
  have hNanos := d.nanos_lt
  have hNanos' := d'.nanos_lt
  unfold toNanos at hEq
  rcases d with ⟨seconds, nanos, _⟩
  rcases d' with ⟨seconds', nanos', _⟩
  simp only [mk.injEq, ← UInt64.toNat_inj, ← UInt32.toNat_inj]
  dsimp only at hEq hNanos hNanos'
  omega

instance : LinearOrder Duration :=
  LinearOrder.lift' toNanos toNanos_injective

/- The order is that of the numbers. -/
theorem le_iff {d d' : Duration} :
    d ≤ d' ↔ d.toNanos ≤ d'.toNanos :=
  Iff.rfl

theorem monotone_toNanos : Monotone toNanos :=
  fun _ _ hLe => hLe

/- The longest duration. -/
def longest : Duration where
  seconds := 18446744073709551615
  nanos := 999999999
  nanos_lt := by decide

/- The longest has all its digits full. -/
theorem toNanos_longest :
    longest.toNanos = 18446744073709551615999999999 := by
  decide

/- No duration is longer. -/
theorem toNanos_le_longest (d : Duration) :
    d.toNanos ≤ longest.toNanos := by
  have hSeconds := d.seconds.toNat_lt
  have hNanos := d.nanos_lt
  rw [toNanos_longest, toNanos]
  omega

/- So many nanoseconds, or the longest duration. -/
def ofNanos (n : Nat) : Duration :=
  if n ≤ longest.toNanos then
    { seconds := UInt64.ofNat (n / 1000000000)
      nanos := UInt32.ofNat (n % 1000000000)
      nanos_lt := by
        rw [UInt32.toNat_ofNat']
        omega }
  else longest

/- A number too great for one is the longest. -/
theorem toNanos_ofNanos (n : Nat) :
    (ofNanos n).toNanos = min n longest.toNanos := by
  unfold ofNanos
  split
  · rename_i hFits
    rw [min_eq_left hFits, toNanos, UInt64.toNat_ofNat',
      UInt32.toNat_ofNat']
    rw [toNanos_longest] at hFits
    omega
  · rename_i hLong
    rw [min_eq_right (Nat.le_of_not_le hLong)]

/- A multiple of a duration, or the longest one. -/
def saturatingMul (d : Duration) (n : UInt32) : Duration :=
  ofNanos (d.toNanos * n.toNat)

/-
  The time from one instant to a later one, and none to an
  earlier one.  Instants are counted in nanoseconds.
-/
def between (now later : Int) : Duration :=
  ofNanos (later - now).toNat

def ofMillis (n : Nat) : Duration :=
  ofNanos (n * 1000000)

end Duration

------------------------------------------------------------
-- Pauses
------------------------------------------------------------

/- A first pause and a longest one, to the nanosecond. -/
structure ExactBackoff where
  step : Duration
  ceiling : Duration
deriving DecidableEq

namespace ExactBackoff

/- A ceiling below the first pause is raised to it. -/
def ofDelays (step ceiling : Duration) : ExactBackoff :=
  ⟨step, max ceiling step⟩

/- The pause after the given attempt has failed. -/
def pauseAfter
    (b : ExactBackoff)
    (attempt : UInt32)
    (failure : LinkError) : Duration :=
  if failure = .outOfRange then b.ceiling
  else min (b.step.saturatingMul (max attempt 1)) b.ceiling

/- A pause that does not go past the deadline. -/
def capped (delay : Duration) (now deadline : Int) :
    Duration :=
  min delay (Duration.between now deadline)

variable {step ceiling : Duration}
variable {f g : LinkError}

/- The first attempt counts as one, and so does none. -/
theorem toNat_max_one (n : UInt32) :
    (max n 1).toNat = max n.toNat 1 := by
  have hMax : max n 1 = if n ≤ 1 then 1 else n := rfl
  rw [hMax]
  split
  · rename_i hLe
    exact (max_eq_right (UInt32.le_iff_toNat_le.mp hLe)).symm
  · rename_i hGt
    exact (max_eq_left (Nat.le_of_not_le
      (mt UInt32.le_iff_toNat_le.mpr hGt))).symm

/- The product is cut off no lower than the ceiling is. -/
theorem toNanos_pauseAfter
    (hRange : f ≠ .outOfRange)
    (attempt : UInt32) :
    ((ofDelays step ceiling).pauseAfter attempt f).toNanos =
      min (step.toNanos * max attempt.toNat 1)
        (max step.toNanos ceiling.toNanos) := by
  have hLongest :
      max ceiling.toNanos step.toNanos ≤
        Duration.longest.toNanos :=
    max_le ceiling.toNanos_le_longest step.toNanos_le_longest
  rw [pauseAfter, if_neg hRange,
    Duration.monotone_toNanos.map_min, ofDelays,
    Duration.monotone_toNanos.map_max, Duration.saturatingMul,
    Duration.toNanos_ofNanos, toNat_max_one, min_assoc,
    min_eq_right hLongest, max_comm step.toNanos]

/- Out of range, the pause is the greatest, at once. -/
theorem pauseAfter_outOfRange (attempt : UInt32) :
    (ofDelays step ceiling).pauseAfter attempt .outOfRange =
      max step ceiling := by
  rw [pauseAfter, if_pos rfl, ofDelays, max_comm]

/- In range, it is one step at least. -/
theorem le_pauseAfter_of_inRange
    (hRange : f ≠ .outOfRange)
    (attempt : UInt32) :
    step ≤ (ofDelays step ceiling).pauseAfter attempt f := by
  rw [Duration.le_iff, toNanos_pauseAfter hRange]
  exact le_min
    (Nat.le_mul_of_pos_right _
      (Nat.lt_of_lt_of_le Nat.one_pos (le_max_right _ _)))
    (le_max_left _ _)

/- It never gets shorter. -/
theorem pauseAfter_le_pauseAfter
    (hRange : f ≠ .outOfRange)
    (hRange' : g ≠ .outOfRange)
    {a b : UInt32}
    (hLater : a ≤ b) :
    (ofDelays step ceiling).pauseAfter a f ≤
      (ofDelays step ceiling).pauseAfter b g := by
  rw [Duration.le_iff, toNanos_pauseAfter hRange,
    toNanos_pauseAfter hRange']
  have hLater' := UInt32.le_iff_toNat_le.mp hLater
  exact min_le_min_right _
    (Nat.mul_le_mul_left _ (max_le_max_right 1 hLater'))

/- It never gets longer than out of range. -/
theorem pauseAfter_le_outOfRange
    (a b : UInt32) :
    (ofDelays step ceiling).pauseAfter a f ≤
      (ofDelays step ceiling).pauseAfter b .outOfRange := by
  unfold pauseAfter
  rw [if_pos rfl]
  split
  · exact le_refl _
  · exact min_le_right _ _

/- The time that is left is cut off no lower than the delay. -/
theorem toNanos_capped
    (delay : Duration)
    (now deadline : Int) :
    (capped delay now deadline).toNanos =
      min delay.toNanos (deadline - now).toNat := by
  have hLongest := delay.toNanos_le_longest
  rw [capped, Duration.monotone_toNanos.map_min,
    Duration.between, Duration.toNanos_ofNanos]
  omega

/- Nothing longer would do. -/
theorem isGreatest_capped
    (delay : Duration)
    (now deadline : Int) :
    IsGreatest
      {d : Duration |
        d ≤ delay ∧ now + d.toNanos ≤ max now deadline}
      (capped delay now deadline) := by
  have hCapped := toNanos_capped delay now deadline
  constructor
  · refine ⟨min_le_left _ _, ?_⟩
    rw [hCapped]
    omega
  · rintro d ⟨hDelay, hDeadline⟩
    rw [Duration.le_iff] at hDelay ⊢
    rw [hCapped]
    omega

------------------------------------------------------------
-- Whole Milliseconds
------------------------------------------------------------

/- Milliseconds in a word are a duration, exactly. -/
theorem toNanos_ofMillis
    {n : Nat}
    (hWord : n < 18446744073709551616) :
    (Duration.ofMillis n).toNanos = n * 1000000 := by
  rw [Duration.ofMillis, Duration.toNanos_ofNanos,
    Duration.toNanos_longest]
  omega

/- In milliseconds, too, the product is cut off late enough. -/
theorem min_longest_max
    {s c : Nat}
    (hStep : s < 18446744073709551616)
    (hCeiling : c < 18446744073709551616)
    (n : Nat) :
    min (min (s * n) Backoff.longest) (max c s) =
      min (s * n) (max c s) := by
  rw [Backoff.longest]
  omega

/-
  Delays of whole milliseconds lead to pauses of whole
  milliseconds.
-/
theorem pauseAfter_ofMillis
    (s c : UInt64)
    (attempt : UInt32)
    (e : LinkError) :
    (ofDelays (.ofMillis s.toNat)
        (.ofMillis c.toNat)).pauseAfter attempt e =
      .ofMillis
        ((Backoff.ofDelays s.toNat c.toNat).pauseAfter
          attempt e) := by
  have hStep := s.toNat_lt
  have hCeiling := c.toNat_lt
  have hLonger :
      max c.toNat s.toNat < 18446744073709551616 :=
    max_lt hCeiling hStep
  apply Duration.toNanos_injective
  by_cases hRange : e = .outOfRange
  · subst hRange
    have hPause :
        (Backoff.ofDelays s.toNat c.toNat).pauseAfter
          attempt .outOfRange =
          max c.toNat s.toNat :=
      if_pos rfl
    rw [pauseAfter_outOfRange, hPause,
      Duration.monotone_toNanos.map_max,
      toNanos_ofMillis hStep, toNanos_ofMillis hCeiling,
      toNanos_ofMillis hLonger, max_comm,
      Nat.mul_max_mul_right]
  · have hPause :
        (Backoff.ofDelays s.toNat c.toNat).pauseAfter
          attempt e =
          min (min (s.toNat * max attempt.toNat 1)
              Backoff.longest)
            (max c.toNat s.toNat) :=
      if_neg hRange
    rw [toNanos_pauseAfter hRange, hPause,
      min_longest_max hStep hCeiling,
      toNanos_ofMillis hStep, toNanos_ofMillis hCeiling,
      toNanos_ofMillis (min_lt_of_right_lt hLonger),
      Nat.mul_right_comm, Nat.mul_max_mul_right,
      Nat.mul_min_mul_right, max_comm s.toNat]

/- So the pauses of the attempts are those in milliseconds. -/
theorem capped_ofMillis
    (delay : UInt64)
    (now deadline : Nat) :
    capped (.ofMillis delay.toNat)
        (now * 1000000) (deadline * 1000000) =
      .ofMillis (Backoff.capped delay.toNat now deadline) := by
  apply Duration.toNanos_injective
  have hDelay := delay.toNat_lt
  rw [toNanos_capped, Backoff.capped, toNanos_ofMillis hDelay,
    toNanos_ofMillis (by omega)]
  omega

------------------------------------------------------------
-- The Law
------------------------------------------------------------

/-
  Pauses as they would be if durations had no end.

  For a device in range the pause is a multiple of the first
  one, up to the ceiling, which is no lower than that.  It is
  never shorter than the first pause, nor after an earlier
  attempt longer than after a later one, nor longer than for
  a device out of range, where it is at the ceiling.  What is
  left of it before a deadline is the longest duration that
  fits.

  For delays of whole milliseconds these are the pauses of a
  `Backoff`.
-/
theorem pauses_exact
    (step ceiling : Duration)
    {a b : UInt32}
    (hLater : a ≤ b)
    {f g : LinkError}
    (hRange : f ≠ .outOfRange)
    (hRange' : g ≠ .outOfRange)
    (delay : Duration)
    (now deadline : Int) :
    let policy := ofDelays step ceiling
    (policy.pauseAfter a f).toNanos =
        min (step.toNanos * max a.toNat 1)
          (max step.toNanos ceiling.toNanos) ∧
      step ≤ policy.pauseAfter a f ∧
      policy.pauseAfter a f ≤ policy.pauseAfter b g ∧
      (∀ c,
        policy.pauseAfter c .outOfRange = max step ceiling ∧
        policy.pauseAfter a f ≤
          policy.pauseAfter c .outOfRange) ∧
      IsGreatest
        {d : Duration |
          d ≤ delay ∧ now + d.toNanos ≤ max now deadline}
        (capped delay now deadline) ∧
      (∀ (s c : UInt64) (e : LinkError),
        (ofDelays (.ofMillis s.toNat)
            (.ofMillis c.toNat)).pauseAfter a e =
          .ofMillis
            ((Backoff.ofDelays s.toNat c.toNat).pauseAfter
              a e)) ∧
      ∀ (d : UInt64) (t due : Nat),
        capped (.ofMillis d.toNat)
            (t * 1000000) (due * 1000000) =
          .ofMillis (Backoff.capped d.toNat t due) := by
  intro policy
  refine ⟨?_, ?_, ?_, fun c => ⟨?_, ?_⟩, ?_, ?_, ?_⟩
  · exact toNanos_pauseAfter hRange a
  · exact le_pauseAfter_of_inRange hRange a
  · exact pauseAfter_le_pauseAfter hRange hRange' hLater
  · exact pauseAfter_outOfRange c
  · exact pauseAfter_le_outOfRange a c
  · exact isGreatest_capped delay now deadline
  · exact fun s c e => pauseAfter_ofMillis s c a e
  · exact capped_ofMillis

end ExactBackoff

------------------------------------------------------------
-- Pauses at the Limit
------------------------------------------------------------

namespace Eternal

/- 2 ^ 32 million seconds, and a nanosecond. -/
def step : Duration where
  seconds := 4294967296000000
  nanos := 1
  nanos_lt := by decide

/- As many seconds as a duration can have. -/
def ceiling : Duration where
  seconds := 18446744073709551615
  nanos := 5
  nanos_lt := by decide

/-
  The last attempt would be followed by a pause longer than
  any duration.  It is still no shorter than the pause after
  the first one, and at the ceiling.
-/
theorem last_attempt_paused :
    (0 : UInt32) ≤ 4294967295 ∧
      LinkError.writeFailed ≠ .outOfRange ∧
      LinkError.openFailed "busy" ≠ .outOfRange ∧
      Duration.longest.toNanos <
        step.toNanos * max (4294967295 : UInt32).toNat 1 ∧
      (ExactBackoff.ofDelays step ceiling).pauseAfter 0
          .writeFailed ≤
        (ExactBackoff.ofDelays step ceiling).pauseAfter
          4294967295 (.openFailed "busy") := by
  have hLater : (0 : UInt32) ≤ 4294967295 := by decide
  have hWrite : LinkError.writeFailed ≠ .outOfRange := by
    decide
  have hOpen : LinkError.openFailed "busy" ≠ .outOfRange := by
    decide
  refine ⟨hLater, hWrite, hOpen, by decide, ?_⟩
  exact (ExactBackoff.pauses_exact step ceiling hLater hWrite
    hOpen Duration.longest 5 3).2.2.1

end Eternal

end DeviceSession
