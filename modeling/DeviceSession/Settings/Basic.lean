import DeviceSession.Settings.Error

/-
  The settings of one connection.

  All times are in milliseconds.

  Key definitions include:
    * `Settings`
    * `Settings.Key`
    * `Settings.Key.name`
    * `Settings.Key.ofName?`
    * `Settings.get`
    * `Settings.set`
    * `Settings.validate`
    * `Settings.accept`
    * `Settings.WithinLimits`
-/

------------------------------------------------------------
-- Settings
------------------------------------------------------------

namespace DeviceSession

structure Settings where
  /- The default bound on one exchange. -/
  apduTimeout : UInt32 := 30000
  /- How often a failed frame write is repeated. -/
  frameWriteRetries : UInt8 := 3
  /- The pause before a frame write is repeated. -/
  frameRetryDelay : UInt32 := 50
  /- The bound on settling the frame size. -/
  mtuHandshakeTimeout : UInt32 := 2000
  /- The time in which a lost link has to come back. -/
  reconnectBudget : UInt32 := 5000
  /- The pause after a failed attempt. -/
  reconnectDelay : UInt32 := 250
  /- The pause after an attempt on a device out of range. -/
  outOfRangeDelay : UInt32 := 1000
  /- The wait for a device that cannot announce itself. -/
  reachabilityFallback : UInt32 := 200
deriving DecidableEq

namespace Settings

------------------------------------------------------------
-- Keys
------------------------------------------------------------

/- The settings, by name. -/
inductive Key where
  | apduTimeout
  | frameWriteRetries
  | frameRetryDelay
  | mtuHandshakeTimeout
  | reconnectBudget
  | reconnectDelay
  | outOfRangeDelay
  | reachabilityFallback
deriving DecidableEq

namespace Key

/- The keys in the order in which they are stored. -/
def all : List Key :=
  [ apduTimeout, frameWriteRetries, frameRetryDelay,
    mtuHandshakeTimeout, reconnectBudget, reconnectDelay,
    outOfRangeDelay, reachabilityFallback ]

/- The name of a setting in a document. -/
def name : Key → String
  | apduTimeout => "apdu_timeout_ms"
  | frameWriteRetries => "frame_write_retries"
  | frameRetryDelay => "frame_retry_delay_ms"
  | mtuHandshakeTimeout => "mtu_handshake_timeout_ms"
  | reconnectBudget => "reconnect_budget_ms"
  | reconnectDelay => "reconnect_delay_ms"
  | outOfRangeDelay => "out_of_range_delay_ms"
  | reachabilityFallback => "reachability_fallback_ms"

/- The setting of the given name. -/
def ofName? (s : String) : Option Key :=
  all.find? fun k => k.name == s

/- The values of a setting lie below this bound. -/
def bound : Key → Nat
  | frameWriteRetries => 256
  | _ => 4294967296

end Key

/- The value of a setting. -/
def get (s : Settings) : Key → Nat
  | .apduTimeout => s.apduTimeout.toNat
  | .frameWriteRetries => s.frameWriteRetries.toNat
  | .frameRetryDelay => s.frameRetryDelay.toNat
  | .mtuHandshakeTimeout => s.mtuHandshakeTimeout.toNat
  | .reconnectBudget => s.reconnectBudget.toNat
  | .reconnectDelay => s.reconnectDelay.toNat
  | .outOfRangeDelay => s.outOfRangeDelay.toNat
  | .reachabilityFallback => s.reachabilityFallback.toNat

/- Give a setting a value below its bound. -/
def set (s : Settings) (k : Key) (n : Nat) : Settings :=
  let w := UInt32.ofNat n
  match k with
  | .apduTimeout => { s with apduTimeout := w }
  | .frameWriteRetries =>
      { s with frameWriteRetries := UInt8.ofNat n }
  | .frameRetryDelay => { s with frameRetryDelay := w }
  | .mtuHandshakeTimeout =>
      { s with mtuHandshakeTimeout := w }
  | .reconnectBudget => { s with reconnectBudget := w }
  | .reconnectDelay => { s with reconnectDelay := w }
  | .outOfRangeDelay => { s with outOfRangeDelay := w }
  | .reachabilityFallback =>
      { s with reachabilityFallback := w }

------------------------------------------------------------
-- Validity
------------------------------------------------------------

/-
  How reading settings fails: they are refused, or the time
  that repeated writes may take is no 32-bit number.
-/
inductive Fault where
  | refused (e : SettingsError)
  | overflow
deriving DecidableEq

/- A product of 32-bit numbers, unless it is too large. -/
def checkedMul (a b : UInt32) : Except Fault UInt32 :=
  if a.toNat * b.toNat < 4294967296 then .ok (a * b)
  else .error .overflow

/- Refuse settings that a connection cannot honour. -/
def validate (s : Settings) : Except Fault Unit := do
  if s.apduTimeout = 0 then
    throw (.refused .zeroApduTimeout)
  if s.reconnectBudget = 0 then
    throw (.refused .zeroReconnectBudget)
  if s.mtuHandshakeTimeout = 0 then
    throw (.refused .zeroHandshakeTimeout)
  if s.reconnectBudget < s.reconnectDelay then
    throw (.refused .delayExceedsBudget)
  if s.outOfRangeDelay < s.reconnectDelay then
    throw (.refused .outOfRangeDelayTooShort)
  let retrying ←
    checkedMul s.frameWriteRetries.toUInt32 s.frameRetryDelay
  if s.apduTimeout ≤ retrying then
    throw (.refused .retriesExceedTimeout)

/- Hand out settings that have been read, if they are valid. -/
def accept
    (malformed : SettingsError)
    (read : Option Settings) : Except Fault Settings :=
  match read with
  | none => .error (.refused malformed)
  | some s => s.validate.map fun _ => s

/-
  The limits that valid settings keep, over all numbers:
  no bound is zero, pauses fit the budget and grow, and
  repeated writes leave an exchange some time.
-/
def WithinLimits (s : Settings) : Prop :=
  0 < s.apduTimeout.toNat ∧
    0 < s.reconnectBudget.toNat ∧
    0 < s.mtuHandshakeTimeout.toNat ∧
    s.reconnectDelay.toNat ≤ s.reconnectBudget.toNat ∧
    s.reconnectDelay.toNat ≤ s.outOfRangeDelay.toNat ∧
    s.frameWriteRetries.toNat * s.frameRetryDelay.toNat <
      s.apduTimeout.toNat

instance (s : Settings) : Decidable s.WithinLimits := by
  unfold WithinLimits
  infer_instance

end Settings

end DeviceSession
