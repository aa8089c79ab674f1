import DeviceSession.Action.Log

/-
  When a log closes.

  A log takes the states that it is offered up to the first
  terminal one.  What is offered later is lost on it.

  Key definitions include:
    * `ActionState.untilTerminal`
    * `ActionLog.offerAll`

  Main declarations:
    * `ActionLog.offerAll_of_finished`
    * `ActionLog.entries_offerAll`
-/

------------------------------------------------------------
-- One State
------------------------------------------------------------

namespace DeviceSession

variable {I O E : Type}

/- An outcome is the last state of an action. -/
theorem Outcome.isTerminal_state (o : Outcome O E) :
    (o.state (I := I)).isTerminal = true := by
  cases o <;> rfl

namespace ActionLog

/- Nothing is put behind an outcome. -/
theorem offer_of_finished
    {l : ActionLog I O E}
    (s : ActionState I O E)
    (hFinished : l.finished = true) :
    l.offer s = l := by
  simp [offer, push, hFinished]

/- Before that, everything is put behind what is there. -/
theorem entries_offer
    {l : ActionLog I O E}
    (s : ActionState I O E)
    (hOpen : l.finished = false) :
    (l.offer s).entries = l.entries.push s := by
  simp [offer, push, hOpen]

/- The log is finished by an outcome, and stays so. -/
@[simp]
theorem finished_offer
    (l : ActionLog I O E)
    (s : ActionState I O E) :
    (l.offer s).finished = (l.finished || s.isTerminal) := by
  cases hFinished : l.finished <;>
    simp [offer, push, hFinished]

end ActionLog

------------------------------------------------------------
-- Many States
------------------------------------------------------------

/- The states up to the first terminal one, and that one. -/
def ActionState.untilTerminal :
    List (ActionState I O E) → List (ActionState I O E)
  | [] => []
  | s :: ss =>
      s :: if s.isTerminal then [] else untilTerminal ss

namespace ActionLog

/- Offer states in turn. -/
def offerAll
    (l : ActionLog I O E)
    (ss : List (ActionState I O E)) : ActionLog I O E :=
  ss.foldl offer l

/- Several states are offered one after another. -/
@[simp]
theorem offerAll_nil (l : ActionLog I O E) :
    l.offerAll [] = l :=
  rfl

@[simp]
theorem offerAll_cons
    (l : ActionLog I O E)
    (s : ActionState I O E)
    (ss : List (ActionState I O E)) :
    l.offerAll (s :: ss) = (l.offer s).offerAll ss :=
  rfl

/- They can be offered in parts. -/
theorem offerAll_append
    (l : ActionLog I O E)
    (ss ts : List (ActionState I O E)) :
    l.offerAll (ss ++ ts) = (l.offerAll ss).offerAll ts :=
  List.foldl_append

/- Once finished, the log takes none of them. -/
theorem offerAll_of_finished
    {l : ActionLog I O E}
    (ss : List (ActionState I O E))
    (hFinished : l.finished = true) :
    l.offerAll ss = l := by
  induction ss with
  | nil => rfl
  | cons s ss ih =>
      rw [offerAll_cons, offer_of_finished s hFinished, ih]

/- One outcome among them finishes it. -/
theorem finished_offerAll
    (l : ActionLog I O E)
    (ss : List (ActionState I O E)) :
    (l.offerAll ss).finished =
      (l.finished || ss.any ActionState.isTerminal) := by
  induction ss generalizing l with
  | nil => simp
  | cons s ss ih => simp [ih, Bool.or_assoc]

/- What an open log takes of the states that it is offered. -/
theorem entries_offerAll
    {l : ActionLog I O E}
    (ss : List (ActionState I O E))
    (hOpen : l.finished = false) :
    (l.offerAll ss).entries.toList =
      l.entries.toList ++ ActionState.untilTerminal ss := by
  induction ss generalizing l with
  | nil => simp [ActionState.untilTerminal]
  | cons s ss ih =>
      rw [offerAll_cons, ActionState.untilTerminal]
      cases hTerminal : s.isTerminal with
      | true =>
          have hFinished : (l.offer s).finished = true := by
            simp [hTerminal]
          rw [offerAll_of_finished ss hFinished,
            entries_offer s hOpen]
          simp
      | false =>
          have hStill : (l.offer s).finished = false := by
            simp [hOpen, hTerminal]
          rw [ih hStill, entries_offer s hOpen]
          simp

end ActionLog

end DeviceSession
