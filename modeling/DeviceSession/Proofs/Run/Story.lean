import DeviceSession.Proofs.Run.Scenario

/-
  Runs with a log of what they do.

  Every use of a link is written down by the connector
  itself, with the number of the link and what the driver
  uses it for.  What happens to requests and exchanges is
  read off the change that a step makes.  Nothing ever reads
  the log: `Proofs.Run.Erasure` shows that a run goes the
  same way without it.

  Key definitions include:
    * `Purpose`
    * `Note`
    * `Taped`
    * `Connector.taped`
    * `Story`
    * `Story.marks`
    * `Story.run`
-/

------------------------------------------------------------
-- Notes
------------------------------------------------------------

namespace DeviceSession

/- What a driver uses a link for. -/
inductive Purpose where
  /- Watching a link that nobody uses. -/
  | watch
  /- Bringing up a link. -/
  | setup
  | request (r : Request)
  /- Asking the device whether it is still there. -/
  | check

/- What a log tells; links go by the order of opening. -/
inductive Note (A : Type) where
  /- A request has been accepted. -/
  | accepted (r : Request)
  /- A request leaves the queue; its caller may have gone. -/
  | took (r : Request) (gone : Bool)
  | opened (link : Nat)
  /- A link is ready for exchanges, cut up as settled. -/
  | ready (link : Nat) (slicer : Slicer)
  /- A write was polled; no answer is a pending one. -/
  | wrote
      (link : Nat)
      (why : Purpose)
      (frame : List UInt8)
      (answer : Option (Except LinkError Unit))
  /- The next event of a link. -/
  | heard (link : Nat) (why : Purpose) (event : LinkNotice)
  | shut (link : Nat)
  /- An exchange begins, with the frames it is to write. -/
  | began
      (link : Nat)
      (why : Purpose)
      (plan : List (List UInt8))
  /- An exchange has ended; without a result it was cut off. -/
  | ended
      (link : Nat)
      (why : Purpose)
      (result : Option (Except ExchangeError Response))
  /- The world has changed by itself. -/
  | outside (a : A)

------------------------------------------------------------
-- Taped Links
------------------------------------------------------------

/- A world with a log of what has happened in it. -/
structure Taped (W A : Type) where
  world : W
  /- The number of links opened. -/
  opened : Nat := 0
  /- The oldest note first. -/
  log : List (Note A) := []

namespace Taped

variable {W A : Type}

/- The same log, of another world. -/
def put (t : Taped W A) (w : W) : Taped W A :=
  { t with world := w }

/- Add notes to the log. -/
def note (t : Taped W A) (notes : List (Note A)) :
    Taped W A :=
  { t with log := t.log ++ notes }

/- The world changes by itself. -/
def act (f : A → W → W) (a : A) (t : Taped W A) :
    Taped W A :=
  (t.put (f a t.world)).note [.outside a]

/- A world that changes leaves the log; notes leave the world. -/
@[simp] theorem put_world (t : Taped W A) (w : W) :
    (t.put w).world = w := rfl

@[simp] theorem put_opened (t : Taped W A) (w : W) :
    (t.put w).opened = t.opened := rfl

@[simp] theorem put_log (t : Taped W A) (w : W) :
    (t.put w).log = t.log := rfl

@[simp] theorem note_world
    (t : Taped W A)
    (notes : List (Note A)) :
    (t.note notes).world = t.world := rfl

@[simp] theorem note_opened
    (t : Taped W A)
    (notes : List (Note A)) :
    (t.note notes).opened = t.opened := rfl

@[simp] theorem note_log
    (t : Taped W A)
    (notes : List (Note A)) :
    (t.note notes).log = t.log ++ notes := rfl

/- Notes can be made one after the other, or at once. -/
theorem note_append
    (t : Taped W A)
    (notes notes' : List (Note A)) :
    t.note (notes ++ notes') = (t.note notes).note notes' := by
  simp only [note, List.append_assoc]

end Taped

/- The same links, numbered, with a log of their use. -/
def Connector.taped
    {W L : Type}
    (c : Connector W L)
    (A : Type)
    (why : Purpose) :
    Connector (Taped W A) (Nat × L) where
  profile := c.profile
  handshake := c.handshake
  reach := fun asked t =>
    let (r, w) := c.reach asked t.world
    (r, t.put w)
  connect := fun asked t =>
    match c.connect asked t.world with
    | (none, w) => (none, t.put w)
    | (some (.error e), w) => (some (.error e), t.put w)
    | (some (.ok l), w) =>
        let n := t.opened + 1
        (some (.ok (n, l)),
          { world := w
            opened := n
            log := t.log ++ [.opened n] })
  write := fun asked l frame t =>
    let (r, w) := c.write asked l.2 frame t.world
    (r, (t.put w).note [.wrote l.1 why frame r])
  event := fun asked l t =>
    let (r, w) := c.event asked l.2 t.world
    (r, (t.put w).note (r.toList.map (.heard l.1 why)))
  close := fun l t =>
    (t.put (c.close l.2 t.world)).note [.shut l.1]

section Operations

variable {W L A : Type}
variable (c : Connector W L)
variable (why : Purpose)
variable (t : Taped W A)

/- To look for a device is not noted. -/
theorem Connector.taped_reach (asked : Asked) :
    (c.taped A why).reach asked t =
      ((c.reach asked t.world).1,
        t.put (c.reach asked t.world).2) := rfl

/- A write is noted with its answer, for whom it was made. -/
theorem Connector.taped_write
    (asked : Asked)
    (l : Nat × L)
    (frame : List UInt8) :
    (c.taped A why).write asked l frame t =
      ((c.write asked l.2 frame t.world).1,
        (t.put (c.write asked l.2 frame t.world).2).note
          [.wrote l.1 why frame
            (c.write asked l.2 frame t.world).1]) := rfl

/- An event is noted if there is one. -/
theorem Connector.taped_event
    (asked : Asked)
    (l : Nat × L) :
    (c.taped A why).event asked l t =
      ((c.event asked l.2 t.world).1,
        (t.put (c.event asked l.2 t.world).2).note
          ((c.event asked l.2 t.world).1.toList.map
            (.heard l.1 why))) := rfl

/- A link that is given up is noted, whatever comes of it. -/
theorem Connector.taped_close (l : Nat × L) :
    (c.taped A why).close l t =
      (t.put (c.close l.2 t.world)).note [.shut l.1] := rfl

end Operations

------------------------------------------------------------
-- Stories
------------------------------------------------------------

namespace Job

variable {L : Type}

/- What a job uses a link for. -/
def purpose : Job L → Purpose
  | .idle => .watch
  | .serving _ => .watch
  | .bringingUp _ => .setup
  | .exchanging r _ => .request r
  | .checking _ => .check

/- The exchange that is under way. -/
def exchange? : Job L → Option Exchange
  | .exchanging _ x => some x
  | .checking x => some x
  | _ => none

end Job

/- The frames of a command, as the link would have them. -/
def HostEnd.plan
    {L : Type}
    (e : HostEnd L)
    (a : Apdu) : List (List UInt8) :=
  match e.codec with
  | some (s, _) => (s.command a).toList
  | none => []

/- The result of the exchange that ends with this step. -/
def Driver.result?
    {W L : Type}
    (c : Connector W L)
    (now : Nat)
    (d : Driver L)
    (k : Connection)
    (w : W) : Option (Except ExchangeError Response) :=
  match k.closing, d.job.exchange?, d.link with
  | false, some x, some e =>
      match Exchange.step c (.ofSettings k.settings) now x e w
        with
      | (.done r, _, _) => some r
      | _ => none
  | _, _, _ => none

/- A scenario with a log. -/
abbrev Story (W L A : Type) :=
  Scenario (Taped W A) (Nat × L)

namespace Story

variable {W L A : Type}

/- The requests that have left the queue. -/
def departures (k k' : Connection) : List (Note A) :=
  (k.queue.take (k.queue.length - k'.queue.length)).map
    fun r => .took r (k.callerGone r)

/- The link that has become ready. -/
def arrivals (d : Driver (Nat × L))
    (d' : Option (Driver (Nat × L))) : List (Note A) :=
  match d.link, d'.bind Driver.link with
  | none, some e =>
      e.codec.toList.map fun x => .ready e.link.1 x.1
  | _, _ => []

/- The exchange that has begun, or that has ended. -/
def turns
    (result : Option (Except ExchangeError Response))
    (d : Driver (Nat × L))
    (d' : Option (Driver (Nat × L))) : List (Note A) :=
  match d.job.exchange?, d' with
  | none, some ⟨some e, job, _⟩ =>
      match job.exchange? with
      | some x => [.began e.link.1 job.purpose (e.plan x.apdu)]
      | none => []
  | some _, some ⟨_, .idle, _⟩ =>
      d.link.toList.map fun e =>
        .ended e.link.1 d.job.purpose result
  | _, _ => []

/- What is to be noted of a step of the driver. -/
def marks
    (c : Connector W L)
    (s : Story W L A)
    (d : Driver (Nat × L))
    (s' : Story W L A) : List (Note A) :=
  departures s.connection s'.connection ++
    arrivals d s'.driver ++
    turns
      (d.result? (c.taped A d.job.purpose) s.now
        s.connection s.world)
      d s'.driver

/- The driver takes a step, which is noted. -/
def drive (c : Connector W L) (s : Story W L A) :
    Story W L A :=
  match s.driver with
  | none => s
  | some d =>
      let s' := Scenario.drive (c.taped A d.job.purpose) s
      { s' with world := s'.world.note (marks c s d s') }

/- A caller hands in a request, which is noted. -/
def submit
    (s : Story W L A)
    (a : Apdu)
    (options : RequestOptions) : Story W L A :=
  match s.connection.submit a options with
  | (.ok id, connection) =>
      { s with
        connection
        world := s.world.note [.accepted ⟨id, a, options⟩] }
  | (.error _, connection) => { s with connection }

/- One move of a story. -/
def step
    (c : Connector W L)
    (act : A → W → W)
    (s : Story W L A) : Move A → Story W L A
  | .submit a options => s.submit a options
  | .abandon id =>
      { s with connection := s.connection.abandon id }
  | .close => { s with connection := s.connection.close }
  | .outside a => { s with world := s.world.act act a }
  | .pass ms => { s with now := s.now + ms }
  | .drive => s.drive c

/- A connection for which nothing has happened yet. -/
def start (settings : Settings) (now : Nat) (w : W) :
    Story W L A :=
  Scenario.start settings now { world := w }

/- A run of moves, one after another. -/
def run
    (c : Connector W L)
    (act : A → W → W)
    (s : Story W L A)
    (moves : List (Move A)) : Story W L A :=
  moves.foldl (step c act) s

/- A run can be stopped, and then go on. -/
theorem run_append
    (c : Connector W L)
    (act : A → W → W)
    (s : Story W L A)
    (moves moves' : List (Move A)) :
    s.run c act (moves ++ moves') =
      (s.run c act moves).run c act moves' :=
  List.foldl_append

/-
  What holds at the start and is kept by every move holds
  throughout every run.
-/
theorem run_induction
    {c : Connector W L}
    {act : A → W → W}
    {P : Story W L A → Prop}
    {moves : List (Move A)}
    (hStep : ∀ s, ∀ m ∈ moves, P s → P (s.step c act m))
    {s : Story W L A}
    (hStart : P s) :
    P (s.run c act moves) := by
  induction moves generalizing s with
  | nil => exact hStart
  | cons m moves ih =>
      apply ih
      · intro s m hm
        exact hStep s m (List.mem_cons_of_mem _ hm)
      · exact hStep s m List.mem_cons_self hStart

end Story

end DeviceSession
