import DeviceSession.Action.State

/-
  The states of a run, for any number of readers.

  A log takes states up to the first terminal one.  A
  reader that joins before that sees every state from the
  first on, once each; one that joins later sees none.

  Key definitions include:
    * `ActionLog`
    * `ActionLog.push`
    * `ActionLog.subscribe`
    * `LogReader`
    * `LogReader.poll`
    * `LogStep`
    * `LogTable`
    * `LogTable.apply`
-/

------------------------------------------------------------
-- Logs
------------------------------------------------------------

namespace DeviceSession

variable {I O E : Type}

structure ActionLog (I O E : Type) where
  entries : Array (ActionState I O E) := #[]
  /- A terminal state has been taken. -/
  finished : Bool := false
  /- The readers to wake, one entry for each time one of
     them found nothing. -/
  waiting : List Nat := []
deriving DecidableEq

namespace ActionLog

def size (l : ActionLog I O E) : Nat :=
  l.entries.size

/- The state taken last. -/
def latest? (l : ActionLog I O E) :
    Option (ActionState I O E) :=
  l.entries.back?

/-
  Take a state and wake the readers that wait, or `none`
  after a terminal state.
-/
def push
    (l : ActionLog I O E)
    (s : ActionState I O E) :
    Option (List Nat × ActionLog I O E) :=
  if l.finished then none
  else
    some (l.waiting, {
      entries := l.entries.push s
      finished := s.isTerminal })

/- Take a state if the log still does. -/
def offer
    (l : ActionLog I O E)
    (s : ActionState I O E) : ActionLog I O E :=
  match l.push s with
  | some (_, l') => l'
  | none => l

end ActionLog

------------------------------------------------------------
-- Readers
------------------------------------------------------------

/- A reader: how far it is, and whether it is done. -/
structure LogReader where
  cursor : Nat := 0
  ended : Bool := false
deriving DecidableEq

/- A reader that joins now. -/
def ActionLog.subscribe (l : ActionLog I O E) : LogReader :=
  { ended := l.finished }

/- What a reader finds. -/
inductive Polled (I O E : Type) where
  | item (s : ActionState I O E)
  | pending
  | ended
deriving DecidableEq

/-
  The next state for a reader.  A reader that finds none in
  an open log is noted under its number.
-/
def LogReader.poll
    (r : LogReader)
    (number : Nat)
    (l : ActionLog I O E) :
    Polled I O E × LogReader × ActionLog I O E :=
  if r.ended then (.ended, r, l)
  else
    match l.entries[r.cursor]? with
    | some s => (.item s, { r with cursor := r.cursor + 1 }, l)
    | none =>
        if l.finished then (.ended, { r with ended := true }, l)
        else
          (.pending, r,
            { l with waiting := l.waiting ++ [number] })

------------------------------------------------------------
-- Sequences of Operations
------------------------------------------------------------

/- One operation on a log; readers go by numbers. -/
inductive LogStep (I O E : Type) where
  | push (s : ActionState I O E)
  | subscribe
  | poll (reader : Nat)
  | drop (reader : Nat)
  | latest
deriving DecidableEq

/- What an operation answers. -/
inductive LogReply (I O E : Type) where
  | accepted (b : Bool)
  | reader (number : Nat)
  | polled (p : Polled I O E)
  | dropped
  | latest (s : Option (ActionState I O E))
deriving DecidableEq

/- A log with its readers. -/
structure LogTable (I O E : Type) where
  log : ActionLog I O E := {}
  /- The readers, until they are dropped. -/
  readers : Array (Option LogReader) := #[]
  /- The numbers of the readers woken so far. -/
  woken : List Nat := []
deriving DecidableEq

namespace LogTable

/- How often a reader that is not dropped has been woken. -/
def wakes? (b : LogTable I O E) (r : Nat) : Option Nat :=
  b.readers[r]?.join.map fun _ => b.woken.count r

/- Carry out one operation. -/
def apply (b : LogTable I O E) :
    LogStep I O E → LogReply I O E × LogTable I O E
  | .push s =>
      match b.log.push s with
      | some (woken, log) =>
          (.accepted true,
            { b with log, woken := b.woken ++ woken })
      | none => (.accepted false, b)
  | .subscribe =>
      (.reader b.readers.size,
        { b with
          readers := b.readers.push (some b.log.subscribe) })
  | .poll r =>
      match b.readers[r]?.join with
      | some reader =>
          let (p, reader', log) := reader.poll r b.log
          (.polled p, { b with
            log
            readers := b.readers.setIfInBounds r (some reader') })
      | none => (.dropped, b)
  | .drop r =>
      (.dropped,
        { b with readers := b.readers.setIfInBounds r none })
  | .latest => (.latest b.log.latest?, b)

end LogTable

end DeviceSession
