import DeviceSession.Connection.Sender
import DeviceSession.Proofs.Action.Worlds
import DeviceSession.Proofs.Run.Erasure

/-
  An action at work on a connection.

  The action, the driver and the world take their turns in
  any order, and so do other callers.  A desk is a story in
  which the requests of the action are told from all others;
  an action goes the same way on it as without the log.

  Key definitions include:
    * `Scenario.sender`
    * `Happening`
    * `Scenario.perform`
    * `Desk`
    * `Desk.perform`

  Main declarations:
    * `Desk.perform_map`
-/

------------------------------------------------------------
-- Actions on Scenarios
------------------------------------------------------------

namespace DeviceSession

/- What may happen next where an action is at work. -/
inductive Happening (A : Type) where
  /- The run of the action is stepped, at a time. -/
  | step (now : Nat)
  /- The action is cancelled. -/
  | cancel
  /- Anything else, the steps of the driver included. -/
  | move (m : Move A)

/- The cue for an action, given what moves do to a world. -/
def Happening.cue
    {W A : Type}
    {k : ActionKind}
    (f : Move A → W → W) : Happening A → Cue W k
  | step now => .step now
  | cancel => .cancel
  | move m => .outside (f m)

namespace Scenario

variable {W L A : Type} {k : ActionKind}

/- The same scenario with another connection. -/
def put (s : Scenario W L) (c : Connection) : Scenario W L :=
  { s with connection := c }

/- Actions send by way of the connection of a scenario. -/
def sender : Sender (Scenario W L) Ticket where
  submit := fun now a options s =>
    let (ticket, cancels, c) :=
      Connection.sender.submit now a options s.connection
    (ticket, cancels, s.put c)
  poll := fun now ticket s =>
    let (answer, cancels, c) :=
      Connection.sender.poll now ticket s.connection
    (answer, cancels, s.put c)
  withdraw := fun ticket s =>
    s.put (Connection.sender.withdraw ticket s.connection)

/- An action on a connection, after all that happens. -/
def perform
    (c : Connector W L)
    (act : A → W → W)
    (a : Action k)
    (s : Scenario W L)
    (hs : List (Happening A)) :
    Performance (Scenario W L) Ticket k :=
  (Performance.start a s).run sender
    (hs.map (Happening.cue fun m s => s.step c act m))

end Scenario

------------------------------------------------------------
-- Desks
------------------------------------------------------------

/- A story, and the requests of one of those who take part. -/
structure Desk (W L A : Type) where
  story : Story W L A
  /- The requests that the action has handed in. -/
  handed : List Request := []

namespace Desk

variable {W L A : Type} {k : ActionKind}

/- Hand in a request; it is noted if it is accepted. -/
def submit
    (d : Desk W L A)
    (a : Apdu)
    (options : RequestOptions) : Ticket × Desk W L A :=
  let ticket := (d.story.connection.submit a options).1
  (ticket, {
    story := d.story.submit a options
    handed := d.handed ++
      ticket.toOption.toList.map fun id => ⟨id, a, options⟩ })

/- Go away from a request. -/
def leave (d : Desk W L A) (ticket : Ticket) : Desk W L A :=
  { d with
    story := d.story.put (d.story.connection.leave ticket) }

/- One move of the story. -/
def move
    (c : Connector W L)
    (act : A → W → W)
    (m : Move A)
    (d : Desk W L A) : Desk W L A :=
  { d with story := d.story.step c act m }

/- Actions send by way of the connection of the story. -/
def sender : Sender (Desk W L A) Ticket where
  submit := fun _ a options d =>
    let (ticket, d) := d.submit a options
    (ticket, false, d)
  poll := fun _ ticket d =>
    (d.story.connection.look ticket, false, d)
  withdraw := fun ticket d => d.leave ticket

/- An action at a desk, after all that happens. -/
def perform
    (c : Connector W L)
    (act : A → W → W)
    (a : Action k)
    (s : Story W L A)
    (hs : List (Happening A)) :
    Performance (Desk W L A) Ticket k :=
  (Performance.start a { story := s }).run sender
    (hs.map (Happening.cue (move c act)))

/- A performance can be stopped, and then go on. -/
theorem perform_append
    (c : Connector W L)
    (act : A → W → W)
    (a : Action k)
    (s : Story W L A)
    (before after : List (Happening A)) :
    perform c act a s (before ++ after) =
      (perform c act a s before).run sender
        (after.map (Happening.cue (move c act))) := by
  rw [perform, List.map_append, Performance.run_append]
  rfl

------------------------------------------------------------
-- Desks without Their Log
------------------------------------------------------------

/- The scenario of a desk. -/
def erase (d : Desk W L A) : Scenario W L :=
  d.story.erase

/- A command is handed in with or without the log. -/
theorem erase_submit
    (s : Story W L A)
    (a : Apdu)
    (options : RequestOptions) :
    (s.submit a options).erase =
      s.erase.put (s.connection.submit a options).2 := by
  unfold Story.submit
  split
  · rename_i id connection hSubmit
    simp only [Story.erase, Scenario.map, Scenario.put, hSubmit]
    rfl
  · rename_i e connection hSubmit
    simp only [Story.erase, Scenario.map, Scenario.put, hSubmit]

/- So a sender for the desk is one for the connection. -/
theorem sender_covers :
    (sender : Sender (Desk W L A) Ticket).Covers
      Scenario.sender erase where
  submit now a options d := by
    simp only [sender, submit, erase, erase_submit, Prod.map]
    rfl
  poll now ticket d := rfl
  withdraw ticket d := rfl

/- An action goes the same way without the log. -/
theorem perform_map
    (c : Connector W L)
    (act : A → W → W)
    (a : Action k)
    (s : Story W L A)
    (hs : List (Happening A)) :
    (perform c act a s hs).map erase =
      Scenario.perform c act a s.erase hs := by
  have hCues : ∀ h : Happening A,
      Cue.Covers (k := k) erase (h.cue (move c act))
        (h.cue fun m s => s.step c act m) := by
    intro h
    cases h with
    | step now => exact .step now
    | cancel => exact .cancel
    | move m =>
        apply Cue.Covers.outside
        intro d
        exact (d.story.erase_step c act m).symm
  exact (Performance.run_map sender_covers hCues
    (Performance.start a { story := s }) hs).symm

end Desk

end DeviceSession
