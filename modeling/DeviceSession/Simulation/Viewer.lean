import DeviceSession.Action.Any

/-
  Someone who watches an action.

  Key definitions include:
    * `Viewer`
    * `Viewer.join`
    * `Viewer.step`
-/

------------------------------------------------------------
-- Viewers
------------------------------------------------------------

namespace DeviceSession

/- A reader of a log, with what has been seen, and when. -/
structure Viewer where
  /- The time at which the viewer joins. -/
  joins : Nat := 0
  /- The number of states after which the viewer leaves. -/
  limit : Option Nat := none
  reader : Option LogReader := none
  seen : Array (Nat × AnyKind.State) := #[]
  /- The time at which the log was found to have ended. -/
  ended : Option Nat := none

namespace Viewer

/- A viewer of a log from now on. -/
def join (log : AnyKind.Log) : Viewer :=
  { reader := some log.subscribe }

/-
  Whether the viewer has seen as much as was wanted.  Who
  wants to see nothing still comes, and leaves at once.
-/
def hasLeft (v : Viewer) : Bool :=
  v.reader.isSome && v.limit.any (· ≤ v.seen.size)

/- Whether the viewer waits for nothing more. -/
def isDone (v : Viewer) : Bool :=
  v.hasLeft || v.ended.isSome

/- The times that the viewer waits for. -/
def timers (v : Viewer) : List Nat :=
  if v.reader.isNone then [v.joins] else []

/-
  One step of a viewer; true if it has moved.  A viewer who
  finds nothing looks again by itself, so the log need not
  know of it.
-/
def step (now : Nat) (v : Viewer) (log : AnyKind.Log) :
    Bool × Viewer :=
  match v.reader with
  | none =>
      if v.joins ≤ now then
        (true, { v with reader := some log.subscribe })
      else (false, v)
  | some reader =>
      if v.isDone then (false, v)
      else
        match reader.poll 0 log with
        | (.item s, reader, _) =>
            (true,
              { v with
                reader := some reader
                seen := v.seen.push (now, s) })
        | (.pending, _, _) => (false, v)
        | (.ended, reader, _) =>
            (true,
              { v with
                reader := some reader
                ended := some now })

end Viewer

end DeviceSession
