/-
  Why settings are refused.

  Key definitions include:
    * `SettingsError`
    * `SettingsError.message`
-/

------------------------------------------------------------
-- Settings Errors
------------------------------------------------------------

namespace DeviceSession

inductive SettingsError where
  /- A text is no JSON document of settings. -/
  | malformedJson
  /- A byte string is no stored form of settings. -/
  | malformedBlob
  /- Settings have no stored form. -/
  | encodingFailed
  /- An exchange would have no time at all. -/
  | zeroApduTimeout
  /- A lost link would have no time to come back. -/
  | zeroReconnectBudget
  /- The frame-size exchange would have no time at all. -/
  | zeroHandshakeTimeout
  /- The first pause would outlast the budget. -/
  | delayExceedsBudget
  /- The longest pause would be shorter than the first. -/
  | outOfRangeDelayTooShort
  /- Repeated writes would use up the time of an exchange. -/
  | retriesExceedTimeout
deriving DecidableEq

def SettingsError.message : SettingsError → String
  | .malformedJson => "malformed JSON configuration"
  | .malformedBlob => "malformed configuration blob"
  | .encodingFailed => "configuration encoding failed"
  | .zeroApduTimeout => "apdu_timeout_ms must be non-zero"
  | .zeroReconnectBudget =>
      "reconnect_budget_ms must be non-zero"
  | .zeroHandshakeTimeout =>
      "mtu_handshake_timeout_ms must be non-zero"
  | .delayExceedsBudget =>
      "reconnect_delay_ms exceeds reconnect_budget_ms"
  | .outOfRangeDelayTooShort =>
      "out_of_range_delay_ms shorter than reconnect_delay_ms"
  | .retriesExceedTimeout =>
      "frame retries cannot fit in apdu_timeout_ms"

end DeviceSession
