/-
  Tasks on a virtual clock.

  The tasks are polled in turn, each until it waits, as long
  as one of them moves.  Only then does the clock go on, to
  the earliest time that a task waits for.

  Key definitions include:
    * `Tasks`
    * `Tasks.poll`
    * `Tasks.settle`
    * `End`
    * `Tasks.runFrom`
-/

------------------------------------------------------------
-- Tasks
------------------------------------------------------------

namespace DeviceSession

universe u

/- Tasks that share a state `S`. -/
structure Tasks (S : Type u) where
  /- One step of each task at a time; true if it moved. -/
  steps : List (Nat → S → Bool × S)
  /- The times that tasks wait for. -/
  timers : S → List Nat
  /- Whether there is nothing left to wait for. -/
  finished : S → Bool

namespace Tasks

variable {S : Type u}

/- More steps than any task takes at one time. -/
def patience : Nat :=
  100000000

/- Step a task until it waits; true if it moved at all. -/
def poll (step : S → Bool × S) :
    Nat → Bool → S → Bool × S
  | 0, moved, s => (moved, s)
  | fuel + 1, moved, s =>
      match step s with
      | (true, s) => poll step fuel true s
      | (false, s) => (moved, s)

/- Poll each task once, in order. -/
def round (t : Tasks S) (now : Nat) (s : S) : Bool × S :=
  t.steps.foldl
    (fun (moved, s) step => poll (step now) patience moved s)
    (false, s)

/- Poll all tasks until none of them moves. -/
def settle (t : Tasks S) (now : Nat) : Nat → S → S
  | 0, s => s
  | fuel + 1, s =>
      match t.round now s with
      | (true, s) => settle t now fuel s
      | (false, s) => s

------------------------------------------------------------
-- The Clock
------------------------------------------------------------

/- The earliest time after `now` that a task waits for. -/
def nextTimer? (t : Tasks S) (now : Nat) (s : S) :
    Option Nat :=
  ((t.timers s).filter (now < ·)).min?

end Tasks

/- How a run of tasks ends. -/
inductive End where
  | done
  /- Tasks wait, but for no time. -/
  | stalled
  /- The next time lies beyond the limit. -/
  | limit
deriving DecidableEq

namespace Tasks

variable {S : Type u}

/- Run tasks from a time on, up to a limit. -/
def runFrom (t : Tasks S) (limit now : Nat) (s : S) :
    End × Nat × S :=
  let s := t.settle now patience s
  if t.finished s then (.done, now, s)
  else
    match t.nextTimer? now s with
    | none => (.stalled, now, s)
    | some due =>
        if _h : now < due ∧ due ≤ limit then
          t.runFrom limit due s
        else (.limit, now, s)
termination_by limit - now
decreasing_by omega

end Tasks

end DeviceSession
