import DeviceSession.Settings.Formats

/-
  Which settings are valid.

  The limits of valid settings are relations between numbers
  of any size.  Validation accepts exactly the settings that
  keep all of them, and names the first one that is broken.
  The time that repeated writes take is the one number that
  it has to work out, in 32 bits.  So there is an exception:
  settings that break no limit before that one, and whose
  time is no 32-bit number, make it fail without a reason.

  Key definitions include:
    * `Settings.retrying`
    * `Settings.Breaks`
    * `Settings.firstBroken?`
    * `Settings.Overflows`
    * `Settings.Reads`

  Main declarations:
    * `Settings.validate_eq`
    * `Settings.reads_accept`
    * `Settings.valid_or_overflowing`
-/

------------------------------------------------------------
-- Limits
------------------------------------------------------------

namespace DeviceSession

namespace Settings

/- The time that repeated writes take at most. -/
def retrying (s : Settings) : Nat :=
  s.frameWriteRetries.toNat * s.frameRetryDelay.toNat

/- What it means to break a limit, over all numbers. -/
def Breaks (s : Settings) : SettingsError → Prop
  | .zeroApduTimeout => s.apduTimeout.toNat = 0
  | .zeroReconnectBudget => s.reconnectBudget.toNat = 0
  | .zeroHandshakeTimeout => s.mtuHandshakeTimeout.toNat = 0
  | .delayExceedsBudget =>
      s.reconnectBudget.toNat < s.reconnectDelay.toNat
  | .outOfRangeDelayTooShort =>
      s.outOfRangeDelay.toNat < s.reconnectDelay.toNat
  | .retriesExceedTimeout => s.apduTimeout.toNat ≤ s.retrying
  | .malformedJson => False
  | .malformedBlob => False
  | .encodingFailed => False

instance (s : Settings) : DecidablePred s.Breaks := fun e => by
  cases e <;> unfold Breaks <;> infer_instance

/- The limits in the order in which they are looked at. -/
def limits : List SettingsError :=
  [ .zeroApduTimeout, .zeroReconnectBudget,
    .zeroHandshakeTimeout, .delayExceedsBudget,
    .outOfRangeDelayTooShort, .retriesExceedTimeout ]

/- The first limit that is broken. -/
def firstBroken? (s : Settings) : Option SettingsError :=
  limits.find? fun e => s.Breaks e

/-
  No limit is broken but the last one, and that by a time
  that is no 32-bit number.
-/
def Overflows (s : Settings) : Prop :=
  s.firstBroken? = some .retriesExceedTimeout ∧
    4294967296 ≤ s.retrying

instance (s : Settings) : Decidable s.Overflows := by
  unfold Overflows
  infer_instance

variable {s : Settings}

/- Valid settings are those that break no limit. -/
theorem withinLimits_iff :
    s.WithinLimits ↔ ∀ e ∈ limits, ¬ s.Breaks e := by
  simp only [limits, List.forall_mem_cons, Breaks, WithinLimits,
    retrying, Nat.not_lt, Nat.not_le, Nat.pos_iff_ne_zero]
  simp

theorem firstBroken?_eq_none_iff :
    s.firstBroken? = none ↔ s.WithinLimits := by
  rw [withinLimits_iff, firstBroken?, List.find?_eq_none]
  simp

/- A limit that is found broken is no matter of reading. -/
theorem mem_limits_of_firstBroken?
    {e : SettingsError}
    (hFirst : s.firstBroken? = some e) :
    e ∈ limits :=
  List.mem_of_find?_eq_some hFirst

/- A time of more than 32 bits exceeds any timeout. -/
theorem breaks_of_large
    (hLarge : 4294967296 ≤ s.retrying) :
    s.Breaks .retriesExceedTimeout := by
  have hTimeout := s.apduTimeout.toNat_lt
  unfold Breaks
  omega

------------------------------------------------------------
-- Validation
------------------------------------------------------------

/- What validation fails with when a limit is broken. -/
def fault (s : Settings) (e : SettingsError) : Fault :=
  if e = .retriesExceedTimeout ∧ 4294967296 ≤ s.retrying then
    .overflow
  else .refused e

theorem checkedMul_retries (s : Settings) :
    checkedMul s.frameWriteRetries.toUInt32
        s.frameRetryDelay =
      if 4294967296 ≤ s.retrying then .error .overflow
      else .ok
        (s.frameWriteRetries.toUInt32 * s.frameRetryDelay) := by
  unfold checkedMul
  rw [UInt8.toNat_toUInt32]
  by_cases hLarge : 4294967296 ≤ s.retrying
  · rw [if_pos hLarge]
    exact if_neg (Nat.not_lt.mpr hLarge)
  · rw [if_neg hLarge]
    exact if_pos (Nat.not_le.mp hLarge)

/- A 32-bit product that fits is that of the numbers. -/
theorem toNat_mul_retries
    (hSmall : s.retrying < 4294967296) :
    (s.frameWriteRetries.toUInt32 * s.frameRetryDelay).toNat =
      s.retrying := by
  rw [UInt32.toNat_mul, UInt8.toNat_toUInt32]
  exact Nat.mod_eq_of_lt hSmall

/- The last limit is looked at with a product of 32 bits. -/
theorem checkRetries_eq (s : Settings) :
    ((checkedMul s.frameWriteRetries.toUInt32
        s.frameRetryDelay).bind fun time =>
      if s.apduTimeout ≤ time then
        .error (.refused .retriesExceedTimeout)
      else .ok ()) =
      if s.Breaks .retriesExceedTimeout then
        .error (s.fault .retriesExceedTimeout)
      else .ok () := by
  rw [checkedMul_retries]
  by_cases hLarge : 4294967296 ≤ s.retrying
  · rw [if_pos hLarge, if_pos (breaks_of_large hLarge), fault,
      if_pos ⟨rfl, hLarge⟩]
    rfl
  · have hProduct := toNat_mul_retries (Nat.not_le.mp hLarge)
    have hFault :
        s.fault .retriesExceedTimeout =
          .refused .retriesExceedTimeout :=
      if_neg fun h => hLarge h.2
    rw [if_neg hLarge, hFault]
    simp only [Except.bind, UInt32.le_iff_toNat_le, hProduct,
      Breaks]

/- Validation looks at one limit after another. -/
theorem validate_eq_foldr (s : Settings) :
    s.validate =
      limits.foldr
        (fun e rest =>
          if s.Breaks e then .error (s.fault e) else rest)
        (.ok ()) := by
  have hWords :
      s.validate =
        if s.apduTimeout = 0 then
          .error (.refused .zeroApduTimeout)
        else if s.reconnectBudget = 0 then
          .error (.refused .zeroReconnectBudget)
        else if s.mtuHandshakeTimeout = 0 then
          .error (.refused .zeroHandshakeTimeout)
        else if s.reconnectBudget < s.reconnectDelay then
          .error (.refused .delayExceedsBudget)
        else if s.outOfRangeDelay < s.reconnectDelay then
          .error (.refused .outOfRangeDelayTooShort)
        else (checkedMul s.frameWriteRetries.toUInt32
          s.frameRetryDelay).bind fun time =>
            if s.apduTimeout ≤ time then
              .error (.refused .retriesExceedTimeout)
            else .ok () :=
    rfl
  have hZero : ∀ n : UInt32, n = 0 ↔ n.toNat = 0 := by
    intro n
    rw [← UInt32.toNat_inj, UInt32.toNat_zero]
  rw [hWords, checkRetries_eq]
  simp only [limits, List.foldr_cons, List.foldr_nil, hZero,
    UInt32.lt_iff_toNat_lt, Breaks]
  simp [fault]

/-
  Validation fails with the first limit that is broken, if
  there is one.
-/
theorem validate_eq (s : Settings) :
    s.validate =
      match s.firstBroken? with
      | none => .ok ()
      | some e => .error (s.fault e) := by
  rw [validate_eq_foldr, firstBroken?]
  induction limits with
  | nil => rfl
  | cons e rest ih =>
      by_cases hBroken : s.Breaks e
      · simp [hBroken]
      · simpa [hBroken] using ih

theorem validate_eq_ok_iff :
    s.validate = .ok () ↔ s.WithinLimits := by
  rw [validate_eq, ← firstBroken?_eq_none_iff]
  cases s.firstBroken? <;> simp

theorem validate_eq_overflow_iff :
    s.validate = .error .overflow ↔ s.Overflows := by
  rw [validate_eq, Overflows]
  cases s.firstBroken? <;> simp [fault]

theorem validate_eq_refused_iff
    {e : SettingsError} :
    s.validate = .error (.refused e) ↔
      s.firstBroken? = some e ∧ ¬ s.Overflows := by
  rw [validate_eq, Overflows]
  cases s.firstBroken? with
  | none => simp
  | some e' =>
      simp only [fault, Except.error.injEq, Option.some.injEq]
      split <;> simp_all

------------------------------------------------------------
-- Reading
------------------------------------------------------------

/-
  What comes of settings that have been read, or could not be
  read: they are handed out only if they keep all limits.
-/
structure Reads
    (malformed : SettingsError)
    (read : Option Settings)
    (result : Except Fault Settings) : Prop where
  accepted :
    ∀ s, result = .ok s ↔ read = some s ∧ s.WithinLimits
  unread :
    result = .error (.refused malformed) ↔ read = none
  refused :
    ∀ e ∈ limits,
      result = .error (.refused e) ↔
        ∃ s, read = some s ∧
          s.firstBroken? = some e ∧ ¬ s.Overflows
  overflow :
    result = .error .overflow ↔
      ∃ s, read = some s ∧ s.Overflows

theorem reads_accept
    {malformed : SettingsError}
    (hMalformed : malformed ∉ limits)
    (read : Option Settings) :
    Reads malformed read (accept malformed read) := by
  unfold accept
  cases read with
  | none =>
      refine ⟨by simp, by simp, ?_, by simp⟩
      intro e hLimit
      have hOther : malformed ≠ e := by
        rintro rfl
        exact hMalformed hLimit
      simp [hOther]
  | some s =>
      have hOk := validate_eq_ok_iff (s := s)
      have hOverflow := validate_eq_overflow_iff (s := s)
      have hRefused := @validate_eq_refused_iff s
      have hUnread :
          s.validate ≠ .error (.refused malformed) := by
        intro hFault
        have hFirst := (hRefused.mp hFault).1
        exact hMalformed (mem_limits_of_firstBroken? hFirst)
      cases hResult : s.validate with
      | ok u =>
          rw [hResult] at hOk hOverflow hRefused
          constructor <;>
            simp_all [Except.map]
      | error f =>
          rw [hResult] at hOk hOverflow hRefused hUnread
          constructor <;>
            simp_all [Except.map]

theorem Formats.reads_ofText (f : Formats) (text : String) :
    Reads .malformedJson (f.parse text) (f.ofText text) :=
  reads_accept (by decide) (f.parse text)

theorem Formats.reads_load (f : Formats) (blob : List UInt8) :
    Reads .malformedBlob (f.restore blob) (f.load blob) :=
  reads_accept (by decide) (f.restore blob)

------------------------------------------------------------
-- The Law
------------------------------------------------------------

/-
  Settings are valid exactly if they keep all limits, over
  all numbers.  Others are refused for the first limit that
  they break, except those whose repeated writes take a time
  that is no 32-bit number, where no other limit is broken:
  validation fails on them, and so does whatever reads them,
  in any formats.
-/
theorem valid_or_overflowing
    (s : Settings)
    (f : Formats)
    (text : String)
    (blob : List UInt8) :
    (s.validate = .ok () ↔ s.WithinLimits) ∧
      (∀ e,
        s.validate = .error (.refused e) ↔
          s.firstBroken? = some e ∧ ¬ s.Overflows) ∧
      (s.validate = .error .overflow ↔ s.Overflows) ∧
      Reads .malformedJson (f.parse text) (f.ofText text) ∧
      Reads .malformedBlob (f.restore blob) (f.load blob) := by
  refine ⟨?_, fun e => ?_, ?_, ?_, ?_⟩
  · exact validate_eq_ok_iff
  · exact validate_eq_refused_iff
  · exact validate_eq_overflow_iff
  · exact f.reads_ofText text
  · exact f.reads_load blob

end Settings

------------------------------------------------------------
-- Settings without a Verdict
------------------------------------------------------------

namespace Overlong

/- Two retries with a pause of 2 ^ 31 milliseconds each. -/
def settings : Settings where
  apduTimeout := 4294967295
  frameWriteRetries := 2
  frameRetryDelay := 2147483648

def text : String :=
  "[4294967295, 2, 2147483648]"

def blob : List UInt8 :=
  [ 0xff, 0xff, 0xff, 0xff, 0x0f, 2,
    0x80, 0x80, 0x80, 0x80, 0x08,
    0xd0, 0x0f, 0x88, 0x27, 0xfa, 0x01, 0xe8, 0x07,
    0xc8, 0x01 ]

/-
  Repeated writes would take longer than the timeout, which
  is the one limit that is broken, but the settings are not
  refused for it: validating them fails, and so does reading
  them.  In 32 bits nothing is left of the time.
-/
theorem overlong_unrefused :
    settings.firstBroken? = some .retriesExceedTimeout ∧
      ¬ settings.WithinLimits ∧
      settings.validate = .error .overflow ∧
      Settings.ofJson text = .error .overflow ∧
      Settings.ofBlob blob = .error .overflow ∧
      settings.frameWriteRetries.toUInt32 *
        settings.frameRetryDelay = 0 := by
  have hOverflows : settings.Overflows := by decide
  have hText : Settings.parse? text = some settings := by
    decide +kernel
  have hBlob : Settings.decode? blob = some settings := by
    decide +kernel
  refine ⟨hOverflows.1, by decide, ?_, ?_, ?_, by decide⟩
  · exact Settings.validate_eq_overflow_iff.mpr hOverflows
  · have hReads := Settings.Formats.standard.reads_ofText text
    exact hReads.overflow.mpr ⟨settings, hText, hOverflows⟩
  · have hReads := Settings.Formats.standard.reads_load blob
    exact hReads.overflow.mpr ⟨settings, hBlob, hOverflows⟩

end Overlong

end DeviceSession
