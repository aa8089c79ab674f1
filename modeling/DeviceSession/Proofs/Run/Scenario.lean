import DeviceSession.Connection.Driver

/-
  A connection at work, in every order of events.

  Callers hand in requests, go away and ask for the end; the
  world of links changes by itself; time passes; and the
  driver takes its steps.  A run is any list of such moves:
  nothing is assumed about their order.

  Key definitions include:
    * `Scenario`
    * `Move`
    * `Scenario.step`
    * `Scenario.run`
-/

------------------------------------------------------------
-- Scenarios
------------------------------------------------------------

namespace DeviceSession

/- The machine after a turn, unless it has ended. -/
def Turn.next?
    {S R : Type} : Turn S R → Option S
  | .go s => some s
  | .wait s => some s
  | .done _ => none

/- A connection and its driver, at some time. -/
structure Scenario (W L : Type) where
  now : Nat
  /- There is no driver once it has ended. -/
  driver : Option (Driver L) := some {}
  connection : Connection
  world : W

/- What can happen next; `A` is what the world can do. -/
inductive Move (A : Type) where
  /- A caller hands in a request. -/
  | submit (a : Apdu) (options : RequestOptions)
  /- The caller of a request goes away. -/
  | abandon (id : Nat)
  /- Someone asks for the end of the connection. -/
  | close
  /- The world changes by itself. -/
  | outside (a : A)
  /- Time passes. -/
  | pass (ms : Nat)
  /- The driver takes a step. -/
  | drive

namespace Scenario

variable {W L A : Type}

/- A connection for which nothing has happened yet. -/
def start (settings : Settings) (now : Nat) (w : W) :
    Scenario W L where
  now := now
  connection := { settings }
  world := w

/- The driver takes a step. -/
def drive (c : Connector W L) (s : Scenario W L) : Scenario W L :=
  match s.driver with
  | none => s
  | some d =>
      let (t, connection, world) :=
        d.step c s.now s.connection s.world
      { s with driver := t.next?, connection, world }

/- One move; `act` is how the world changes by itself. -/
def step
    (c : Connector W L)
    (act : A → W → W)
    (s : Scenario W L) : Move A → Scenario W L
  | .submit a options =>
      { s with
        connection := (s.connection.submit a options).2 }
  | .abandon id =>
      { s with connection := s.connection.abandon id }
  | .close => { s with connection := s.connection.close }
  | .outside a => { s with world := act a s.world }
  | .pass ms => { s with now := s.now + ms }
  | .drive => s.drive c

/- A run of moves, one after another. -/
def run
    (c : Connector W L)
    (act : A → W → W)
    (s : Scenario W L)
    (moves : List (Move A)) : Scenario W L :=
  moves.foldl (step c act) s

theorem run_append
    (c : Connector W L)
    (act : A → W → W)
    (s : Scenario W L)
    (moves moves' : List (Move A)) :
    s.run c act (moves ++ moves') =
      (s.run c act moves).run c act moves' :=
  List.foldl_append

/-
  What holds at the start and is kept by every move holds
  throughout every run.
-/
theorem run_induction
    {c : Connector W L}
    {act : A → W → W}
    {P : Scenario W L → Prop}
    {moves : List (Move A)}
    (hStep : ∀ s, ∀ m ∈ moves, P s → P (s.step c act m))
    {s : Scenario W L}
    (hStart : P s) :
    P (s.run c act moves) := by
  induction moves generalizing s with
  | nil => exact hStart
  | cons m moves ih =>
      apply ih
      · intro s m hm
        exact hStep s m (List.mem_cons_of_mem _ hm)
      · exact hStep s m List.mem_cons_self hStart

end Scenario

end DeviceSession
