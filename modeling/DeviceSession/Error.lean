import DeviceSession.Apdu.Error
import DeviceSession.Connection.Error
import DeviceSession.Exchange.Error
import DeviceSession.Settings.Error

/-
  One error type above those of the layers.

  Key definitions include:
    * `SessionError`
    * `SessionError.message`
-/

------------------------------------------------------------
-- Session Errors
------------------------------------------------------------

namespace DeviceSession

/- An error of any layer. -/
inductive SessionError where
  | protocol (e : FrameError)
  | link (e : LinkError)
  | exchange (e : ExchangeError)
  | connection (e : ConnectionError)
  | build (e : BuildError)
  | parse (e : ShortRead)
  | config (e : SettingsError)
deriving DecidableEq

/- The text of an error, with its layer in front. -/
def SessionError.message : SessionError → String
  | .protocol e => "protocol: " ++ e.message
  | .link e => "link: " ++ e.message
  | .exchange e => "exchange: " ++ e.message
  | .connection e => "connection: " ++ e.message
  | .build e => "build: " ++ e.message
  | .parse e => "parse: " ++ e.message
  | .config e => "config: " ++ e.message

end DeviceSession
