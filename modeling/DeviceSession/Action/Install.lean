import DeviceSession.Action.ToDashboard
import DeviceSession.Apdu.Builder

/-
  Installing apps.

  From the dashboard the apps are sent one after another,
  chunk by chunk.  A chunk that is lost with its link is
  sent once more.

  Key definitions include:
    * `Install.Image`
    * `Install.Image.ofName`
    * `Install.Progress`
    * `Install.State`
    * `Install.plan`
    * `Action.install`
-/

------------------------------------------------------------
-- Images
------------------------------------------------------------

namespace DeviceSession

namespace Install

/- The commands for the chunks of an app. -/
abbrev Image :=
  UInt8 → Apdu

/-
  The chunks of the named app, numbered and counted in the
  header, or the reason why the name is refused.
-/
def Image.ofName (name : String) (chunks : UInt8) :
    Except BuildError Image :=
  let b := Builder.ofHeader 0xe0 0x0b 0 chunks
  (b.add (.ascii name)).build.map
    fun a chunk => { a with p1 := chunk }

/- The command for one chunk. -/
def Image.command (x : Image) (chunk : UInt8) :
    Command Empty Unit where
  apdu := x chunk
  restartsLink := false
  parse := expectSuccess ErrorTable.empty

------------------------------------------------------------
-- Progress
------------------------------------------------------------

inductive Progress where
  /- On the way to the dashboard. -/
  | preparing (shown : Interaction)
  /- How much of an app has been sent; the apps count from 0. -/
  | installing (app percent : Nat)
deriving DecidableEq

/- The kind of an action that installs apps. -/
abbrev Kind : ActionKind where
  Progress := Progress
  /- The number of apps installed. -/
  Output := Nat
  Error := OsError

------------------------------------------------------------
-- States
------------------------------------------------------------

/- The next chunk of the next app. -/
structure Position where
  app : Nat := 0
  chunk : UInt8 := 0
  /- The chunk is being sent for the second time. -/
  again : Bool := false
deriving DecidableEq

namespace Position

/- How much has been sent before this chunk. -/
def progress (x : Position) (chunks : UInt8) : Progress :=
  .installing x.app (x.chunk.toNat * 100 / chunks.toNat)

/- The chunk after one that has been sent. -/
def next (x : Position) (chunks : UInt8) : Position :=
  if x.chunk + 1 = chunks then { app := x.app + 1 }
  else { app := x.app, chunk := x.chunk + 1 }

end Position

inductive State where
  | preparing
  | sending (x : Position)
  | done
  | failed (e : OsError)
  | stopped
deriving DecidableEq

/- What a state shows. -/
def view (chunks : UInt8) : State → Progress
  | .sending x => x.progress chunks
  | _ => ({} : Position).progress chunks

/- What comes of going to the dashboard. -/
def prepared : Outcome Unit OsError → State
  | .completed _ => .sending {}
  | .error e => .failed e
  | .stopped => .stopped

/- What comes of a chunk. -/
def sent (chunks : UInt8) (x : Position) :
    Except (CommandError Empty) Unit → State
  | .ok _ => .sending (x.next chunks)
  | .error (.connection .disconnectedWhileSending) =>
      if x.again then
        .failed (.connection .disconnectedWhileSending)
      else .sending { x with again := true }
  | .error e => .failed (.ofCommand e)

/- Sending one chunk. -/
inductive Task where
  | start (x : Position) (c : Command Empty Unit)
  | sent (x : Position) (r : Except (CommandError Empty) Unit)
  /- The progress has been shown. -/
  | over (s : State)

------------------------------------------------------------
-- The Plan
------------------------------------------------------------

/- Send a chunk, and show how far this leads. -/
def work (chunks : UInt8) : Task → Work State Task Progress
  | .start x c =>
      .send c.apdu c.options fun a => .sent x (c.settle a)
  | .sent x (.ok r) =>
      .report
        ({ x with chunk := x.chunk + 1 }.progress chunks)
        (.over (sent chunks x (.ok r)))
  | .sent x (.error e) => .finish (sent chunks x (.error e))
  | .over s => .finish s

def plan (images : List Image) (chunks : UInt8) :
    Plan Kind where
  State := State
  Task := Task
  Child := Unit
  kind := fun _ => DashboardKind Unit
  start := .preparing
  view := view chunks
  act := fun _ s =>
    match s with
    | .preparing => .invoke s (.child () fun _ => prepared)
    | .sending x =>
        match images[x.app]? with
        | some image =>
            .invoke s (.task (.start x (image.command x.chunk)))
        | none => .decide .done
    | .done => .finish (.completed images.length)
    | .failed e => .finish (.error e)
    | .stopped => .finish .stopped
  work := fun _ => work chunks
  lift := fun _ => .preparing

end Install

/-
  Install the named apps, each in the given number of
  chunks, or the reason why one of the names is refused.
-/
def Action.install (names : List String) (chunks : UInt8) :
    Except BuildError (Action Install.Kind) :=
  (names.mapM (Install.Image.ofName · chunks)).map
    fun images =>
      .mk (Install.plan images chunks) fun _ => .toDashboard

end DeviceSession
