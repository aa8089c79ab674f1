/-
  What can be seen of a running action.

  Key definitions include:
    * `Interaction`
    * `Interaction.text`
    * `Outcome`
    * `ActionState`
    * `ActionState.isTerminal`
    * `ActionState.interaction`
-/

------------------------------------------------------------
-- Interactions
------------------------------------------------------------

namespace DeviceSession

/- What the user has to do on the device. -/
inductive Interaction where
  | none
  | unlockDevice
  | confirmOpenApp
  | allowSecureConnection
  | signTransaction
  | verifyAddress
deriving DecidableEq

namespace Interaction

def text : Interaction → String
  | none => "none"
  | unlockDevice => "unlock device"
  | confirmOpenApp => "confirm open app"
  | allowSecureConnection => "allow secure connection"
  | signTransaction => "sign transaction"
  | verifyAddress => "verify address"

def all : List Interaction :=
  [ none, unlockDevice, confirmOpenApp,
    allowSecureConnection, signTransaction, verifyAddress ]

/- The interaction of the given text; `none` by default. -/
def ofText (s : String) : Interaction :=
  (all.find? fun i => i.text == s).getD none

end Interaction

------------------------------------------------------------
-- Outcomes
------------------------------------------------------------

/- How an action ends. -/
inductive Outcome (O E : Type) where
  | completed (output : O)
  | error (e : E)
  | stopped
deriving DecidableEq

------------------------------------------------------------
-- States
------------------------------------------------------------

/-
  A state of an action: `pending` any number of times, with
  progress in `I`, then one of the last three.
-/
inductive ActionState (I O E : Type) where
  | notStarted
  | pending (progress : I)
  | completed (output : O)
  | error (e : E)
  | stopped
deriving DecidableEq

variable {I O E : Type}

/- The last state of an action that ends in this way. -/
def Outcome.state : Outcome O E → ActionState I O E
  | .completed o => .completed o
  | .error e => .error e
  | .stopped => .stopped

namespace ActionState

/- Whether no state follows. -/
def isTerminal : ActionState I O E → Bool
  | completed _ => true
  | error _ => true
  | stopped => true
  | _ => false

/- The progress of a pending state. -/
def progress? : ActionState I O E → Option I
  | pending i => some i
  | _ => none

/- What is asked of the user, given how progress tells. -/
def interaction
    (tell : I → Interaction)
    (s : ActionState I O E) : Interaction :=
  (s.progress?.map tell).getD .none

end ActionState

end DeviceSession
