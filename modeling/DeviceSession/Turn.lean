/-
  Machines that take turns.

  A machine is a state with a step.  A step either goes on,
  or waits until something else has changed, or ends.

  Key definitions include:
    * `Turn`
    * `Turn.map`
    * `Turn.orAt`
-/

------------------------------------------------------------
-- Turns
------------------------------------------------------------

namespace DeviceSession

universe u v

/- What a step of a machine comes to. -/
inductive Turn (S : Type u) (R : Type v) where
  /- The machine has moved and can be stepped again. -/
  | go (s : S)
  /- The machine waits, and is stepped again later. -/
  | wait (s : S)
  /- The machine has ended. -/
  | done (r : R)

namespace Turn

variable {S S' : Type u} {R R' : Type v}

/- The same turn of a machine within a larger one. -/
def map (f : S → S') (g : R → R') : Turn S R → Turn S' R'
  | go s => go (f s)
  | wait s => wait (f s)
  | done r => done (g r)

/-
  A turn of a machine that may wait up to a time only.  A
  machine that can move does so, whatever the time.
-/
def orAt (now due : Nat) (late : R) (t : Turn S R) :
    Turn S R :=
  match t with
  | wait s => if due ≤ now then done late else wait s
  | t => t

/- A machine that waits for a time. -/
def pause (now due : Nat) (s s' : S) : Turn S R :=
  if due ≤ now then go s' else wait s

end Turn

end DeviceSession
