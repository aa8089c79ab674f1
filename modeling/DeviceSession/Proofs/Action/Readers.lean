import DeviceSession.Action.Log
import Mathlib.Data.List.DropRight

/-
  A log and its readers, in any order of operations.

  The history of a log is the list of its operations with
  their answers.  The history alone says what every reader
  finds next: a reader that joined in time goes through the
  accepted states in order, one that joined too late finds
  the end, and what one reader does is nothing to another.

  Key definitions include:
    * `LogEvent`
    * `LogHistory.accepted`
    * `LogHistory.found`
    * `LogHistory.unmet`
    * `LogTable.history`
    * `LogTable.without`
    * `LogTable.Tells`
    * `LogTable.Broadcasts`

  Main declarations:
    * `LogTable.tells_run`
    * `LogTable.apply_without`
    * `LogTable.run_broadcasts`
-/

------------------------------------------------------------
-- Histories
------------------------------------------------------------

namespace DeviceSession

variable {I O E : Type}

/- An operation on a log and its answer. -/
structure LogEvent (I O E : Type) where
  step : LogStep I O E
  reply : LogReply I O E

namespace LogEvent

/- The state that a push was right to offer. -/
def accepted? :
    LogEvent I O E → Option (ActionState I O E)
  | ⟨.push s, .accepted true⟩ => some s
  | _ => none

/- What a reader got from this poll. -/
def found? (r : Nat) :
    LogEvent I O E → Option (ActionState I O E)
  | ⟨.poll q, .polled (.item s)⟩ =>
      if q = r then some s else none
  | _ => none

/- The reader that this poll left with nothing. -/
def unmet? : LogEvent I O E → Option Nat
  | ⟨.poll r, .polled .pending⟩ => some r
  | _ => none

end LogEvent

/- A reader polls or leaves. -/
def LogStep.concerns (r : Nat) : LogStep I O E → Bool
  | .poll q => q == r
  | .drop q => q == r
  | _ => false

/- What was done to a log, in order. -/
abbrev LogHistory (I O E : Type) := List (LogEvent I O E)

namespace LogHistory

/- The states that the log took. -/
def accepted (h : LogHistory I O E) :
    List (ActionState I O E) :=
  h.filterMap LogEvent.accepted?

/- The states that a reader got. -/
def found (r : Nat) (h : LogHistory I O E) :
    List (ActionState I O E) :=
  h.filterMap (LogEvent.found? r)

/- A terminal state was accepted. -/
def closed (h : LogHistory I O E) : Bool :=
  h.accepted.any ActionState.isTerminal

/-
  The polls that found nothing since the last push that was
  accepted, each by the number of its reader.
-/
def unmet (h : LogHistory I O E) : List Nat :=
  (h.rtakeWhile fun e => e.accepted?.isNone).filterMap
    LogEvent.unmet?

/- What was done without one of the readers. -/
def others (r : Nat) (h : LogHistory I O E) :
    LogHistory I O E :=
  h.filter fun e => !e.step.concerns r

theorem accepted_concat
    (h : LogHistory I O E)
    (e : LogEvent I O E) :
    accepted (h ++ [e]) =
      h.accepted ++ e.accepted?.toList := by
  simp [accepted, List.filterMap_cons]
  cases e.accepted? <;> rfl

theorem found_concat
    (r : Nat)
    (h : LogHistory I O E)
    (e : LogEvent I O E) :
    found r (h ++ [e]) =
      found r h ++ (e.found? r).toList := by
  simp [found, List.filterMap_cons]
  cases e.found? r <;> rfl

theorem unmet_concat
    (h : LogHistory I O E)
    (e : LogEvent I O E) :
    unmet (h ++ [e]) =
      match e.accepted? with
      | some _ => []
      | none => h.unmet ++ e.unmet?.toList := by
  rw [unmet, List.rtakeWhile_concat]
  cases hAccepted : e.accepted? with
  | some s => simp
  | none =>
      simp [unmet, List.filterMap_cons]
      cases e.unmet? <;> rfl

end LogHistory

------------------------------------------------------------
-- Runs of Operations
------------------------------------------------------------

namespace LogTable

/- The table after some operations. -/
def run
    (b : LogTable I O E)
    (steps : List (LogStep I O E)) : LogTable I O E :=
  steps.foldl (fun b step => (b.apply step).2) b

/- Those operations with their answers. -/
def history (b : LogTable I O E) :
    List (LogStep I O E) → LogHistory I O E
  | [] => []
  | step :: steps =>
      ⟨step, (b.apply step).1⟩ ::
        history (b.apply step).2 steps

theorem run_append
    (b : LogTable I O E)
    (steps steps' : List (LogStep I O E)) :
    b.run (steps ++ steps') = (b.run steps).run steps' :=
  List.foldl_append

theorem history_append
    (b : LogTable I O E)
    (steps steps' : List (LogStep I O E)) :
    b.history (steps ++ steps') =
      b.history steps ++ (b.run steps).history steps' := by
  induction steps generalizing b with
  | nil => rfl
  | cons step steps ih =>
      exact congrArg _ (ih (b.apply step).2)

theorem run_concat
    (b : LogTable I O E)
    (steps : List (LogStep I O E))
    (step : LogStep I O E) :
    b.run (steps ++ [step]) = ((b.run steps).apply step).2 :=
  run_append b steps [step]

theorem history_concat
    (b : LogTable I O E)
    (steps : List (LogStep I O E))
    (step : LogStep I O E) :
    b.history (steps ++ [step]) =
      b.history steps ++
        [⟨step, ((b.run steps).apply step).1⟩] :=
  history_append b steps [step]

------------------------------------------------------------
-- Single Operations
------------------------------------------------------------

theorem apply_push_of_open
    {b : LogTable I O E}
    (s : ActionState I O E)
    (hOpen : b.log.finished = false) :
    b.apply (.push s) =
      (.accepted true, {
        log := {
          entries := b.log.entries.push s
          finished := s.isTerminal }
        readers := b.readers
        woken := b.woken ++ b.log.waiting }) := by
  simp [apply, ActionLog.push, hOpen]

theorem apply_push_of_finished
    {b : LogTable I O E}
    (s : ActionState I O E)
    (hFinished : b.log.finished = true) :
    b.apply (.push s) = (.accepted false, b) := by
  simp [apply, ActionLog.push, hFinished]

theorem apply_poll
    {b : LogTable I O E}
    {r : Nat}
    {reader : LogReader}
    (hReader : b.readers[r]? = some (some reader)) :
    b.apply (.poll r) =
      (.polled (reader.poll r b.log).1, {
        log := (reader.poll r b.log).2.2
        readers := b.readers.setIfInBounds r
          (some (reader.poll r b.log).2.1)
        woken := b.woken }) := by
  simp [apply, hReader]

theorem apply_poll_of_none
    {b : LogTable I O E}
    {r : Nat}
    (hReader : b.readers[r]?.join = none) :
    b.apply (.poll r) = (.dropped, b) := by
  simp [apply, hReader]

/- What a poll does to reader and log. -/
inductive Polls
    (r : Nat)
    (reader : LogReader)
    (l : ActionLog I O E) :
    Polled I O E × LogReader × ActionLog I O E → Prop
  | spent
      (hEnded : reader.ended = true) :
      Polls r reader l (.ended, reader, l)
  | item (s : ActionState I O E)
      (hGoing : reader.ended = false)
      (hItem : l.entries[reader.cursor]? = some s) :
      Polls r reader l
        (.item s,
          { reader with cursor := reader.cursor + 1 }, l)
  | ends
      (hGoing : reader.ended = false)
      (hNone : l.entries[reader.cursor]? = none)
      (hFinished : l.finished = true) :
      Polls r reader l
        (.ended, { reader with ended := true }, l)
  | waits
      (hGoing : reader.ended = false)
      (hNone : l.entries[reader.cursor]? = none)
      (hOpen : l.finished = false) :
      Polls r reader l
        (.pending, reader,
          { l with waiting := l.waiting ++ [r] })

theorem polls_poll
    (r : Nat)
    (reader : LogReader)
    (l : ActionLog I O E) :
    Polls r reader l (reader.poll r l) := by
  unfold LogReader.poll
  by_cases hEnded : reader.ended = true
  · rw [if_pos hEnded]
    exact .spent hEnded
  rw [if_neg hEnded]
  have hGoing : reader.ended = false := by
    simpa using hEnded
  cases hItem : l.entries[reader.cursor]? with
  | some s => exact .item s hGoing hItem
  | none =>
      dsimp only
      by_cases hFinished : l.finished = true
      · rw [if_pos hFinished]
        exact .ends hGoing hItem hFinished
      · rw [if_neg hFinished]
        exact .waits hGoing hItem (by simpa using hFinished)

/- No state is accepted after a terminal one. -/
theorem accepted?_of_finished
    {b : LogTable I O E}
    (step : LogStep I O E)
    (hFinished : b.log.finished = true) :
    LogEvent.accepted? ⟨step, (b.apply step).1⟩ = none := by
  cases step with
  | push s => rw [apply_push_of_finished s hFinished]; rfl
  | subscribe | poll r | drop r | latest => rfl

/- The numbers of readers are never given again. -/
theorem size_apply
    (b : LogTable I O E)
    (step : LogStep I O E) :
    b.readers.size ≤ (b.apply step).2.readers.size := by
  cases step with
  | push s =>
      cases hFinished : b.log.finished with
      | true => simp [apply_push_of_finished s hFinished]
      | false => simp [apply_push_of_open s hFinished]
  | subscribe => simp [apply]
  | poll r =>
      cases hReader : b.readers[r]?.join with
      | none => simp [apply_poll_of_none hReader]
      | some reader =>
          rw [Option.join_eq_some_iff] at hReader
          simp [apply_poll hReader]
  | drop r => simp [apply]
  | latest => simp [apply]

/- A reader is moved only by its own operations. -/
theorem readers_apply_of_not_concerns
    {b : LogTable I O E}
    {r : Nat}
    {step : LogStep I O E}
    (hKnown : r < b.readers.size)
    (hOther : step.concerns r = false) :
    (b.apply step).2.readers[r]? = b.readers[r]? := by
  cases step with
  | push s =>
      cases hFinished : b.log.finished with
      | true => rw [apply_push_of_finished s hFinished]
      | false => rw [apply_push_of_open s hFinished]
  | subscribe =>
      rw [Array.getElem?_eq_getElem hKnown]
      exact Array.getElem?_push_lt hKnown
  | poll q =>
      have hNe : q ≠ r := by simpa [LogStep.concerns] using hOther
      cases hReader : b.readers[q]?.join with
      | none => rw [apply_poll_of_none hReader]
      | some reader =>
          rw [Option.join_eq_some_iff] at hReader
          rw [apply_poll hReader]
          exact Array.getElem?_setIfInBounds_ne hNe
  | drop q =>
      have hNe : q ≠ r := by simpa [LogStep.concerns] using hOther
      exact Array.getElem?_setIfInBounds_ne hNe
  | latest => rfl

------------------------------------------------------------
-- What a Table Tells
------------------------------------------------------------

/- A table agrees with what was done to it. -/
structure Tells
    (b : LogTable I O E)
    (h : LogHistory I O E) : Prop where
  entries : b.log.entries.toList = h.accepted
  finished : b.log.finished = h.closed
  last : ∀ s ∈ h.accepted.dropLast, s.isTerminal = false
  waiting : b.log.waiting = h.unmet

/- A step that pushes nothing. -/
theorem Tells.of_quiet
    {b b' : LogTable I O E}
    {h : LogHistory I O E}
    {e : LogEvent I O E}
    (hTells : b.Tells h)
    (hAccepted : e.accepted? = none)
    (hEntries : b'.log.entries = b.log.entries)
    (hFinished : b'.log.finished = b.log.finished)
    (hWaiting :
      b'.log.waiting = b.log.waiting ++ e.unmet?.toList) :
    b'.Tells (h ++ [e]) := by
  have hSame :
      LogHistory.accepted (h ++ [e]) = h.accepted := by
    simp [LogHistory.accepted_concat, hAccepted]
  refine ⟨?_, ?_, ?_, ?_⟩
  · rw [hEntries, hSame, hTells.entries]
  · rw [hFinished, hTells.finished, LogHistory.closed,
      LogHistory.closed, hSame]
  · rw [hSame]
    exact hTells.last
  · rw [hWaiting, LogHistory.unmet_concat, hAccepted,
      hTells.waiting]

theorem Tells.push
    {b : LogTable I O E}
    {h : LogHistory I O E}
    (hTells : b.Tells h)
    (s : ActionState I O E) :
    (b.apply (.push s)).2.Tells
      (h ++ [⟨.push s, (b.apply (.push s)).1⟩]) := by
  cases hFinished : b.log.finished with
  | true =>
      rw [apply_push_of_finished s hFinished]
      exact hTells.of_quiet rfl rfl rfl (by simp [LogEvent.unmet?])
  | false =>
      have hOpen : h.accepted.any ActionState.isTerminal =
          false := by
        rw [← hFinished, hTells.finished, LogHistory.closed]
      rw [apply_push_of_open s hFinished]
      refine ⟨?_, ?_, ?_, ?_⟩
      · simp [LogHistory.accepted_concat, LogEvent.accepted?,
          hTells.entries]
      · simp [LogHistory.closed, LogHistory.accepted_concat,
          LogEvent.accepted?, hOpen]
      · simpa [LogHistory.accepted_concat, LogEvent.accepted?]
          using hOpen
      · simp [LogHistory.unmet_concat, LogEvent.accepted?]

theorem Tells.apply
    {b : LogTable I O E}
    {h : LogHistory I O E}
    (hTells : b.Tells h)
    (step : LogStep I O E) :
    (b.apply step).2.Tells
      (h ++ [⟨step, (b.apply step).1⟩]) := by
  cases step with
  | push s => exact hTells.push s
  | subscribe | drop r | latest =>
      exact hTells.of_quiet rfl rfl rfl
        (by simp [LogEvent.unmet?, LogTable.apply])
  | poll r =>
      cases hReader : b.readers[r]?.join with
      | none =>
          rw [apply_poll_of_none hReader]
          exact hTells.of_quiet rfl rfl rfl
            (by simp [LogEvent.unmet?])
      | some reader =>
          rw [Option.join_eq_some_iff] at hReader
          rw [apply_poll hReader]
          have hPolls := polls_poll r reader b.log
          generalize reader.poll r b.log = out at hPolls ⊢
          cases hPolls with
          | spent | item | ends =>
              exact hTells.of_quiet rfl rfl rfl
                (by simp [LogEvent.unmet?])
          | waits =>
              exact hTells.of_quiet rfl rfl rfl
                (by simp [LogEvent.unmet?])

theorem tells_run (steps : List (LogStep I O E)) :
    (run {} steps).Tells (history {} steps) := by
  induction steps using List.reverseRecOn with
  | nil =>
      refine ⟨rfl, rfl, ?_, rfl⟩
      simp [history, LogHistory.accepted]
  | append_singleton steps step ih =>
      rw [run_concat, history_concat]
      exact ih.apply step

------------------------------------------------------------
-- The Place of a Reader
------------------------------------------------------------

/- A reader that joined in time and what it has found. -/
structure Follows
    (r : Nat)
    (h : LogHistory I O E)
    (reader : LogReader) : Prop where
  found : h.found r = h.accepted.take reader.cursor
  bound : reader.cursor ≤ h.accepted.length
  ended :
    reader.ended = true →
      h.closed = true ∧ reader.cursor = h.accepted.length

/- A reader that does nothing keeps its place. -/
theorem Follows.of_other
    {b : LogTable I O E}
    {r : Nat}
    {h : LogHistory I O E}
    {reader : LogReader}
    (hTells : b.Tells h)
    (hFollows : Follows r h reader)
    (step : LogStep I O E)
    (hFound :
      LogEvent.found? r ⟨step, (b.apply step).1⟩ = none) :
    Follows r (h ++ [⟨step, (b.apply step).1⟩]) reader := by
  refine ⟨?_, ?_, ?_⟩
  · rw [LogHistory.found_concat, LogHistory.accepted_concat,
      hFound,
      List.take_append_of_le_length hFollows.bound,
      hFollows.found]
    simp
  · rw [LogHistory.accepted_concat, List.length_append]
    exact Nat.le_add_right_of_le hFollows.bound
  · intro hEnded
    rcases hFollows.ended hEnded with ⟨hClosed, hAll⟩
    have hNone :=
      accepted?_of_finished step (hTells.finished.trans hClosed)
    have hSame :
        LogHistory.accepted
            (h ++ [⟨step, (b.apply step).1⟩]) =
          h.accepted := by
      simp [LogHistory.accepted_concat, hNone]
    refine ⟨?_, ?_⟩
    · rw [LogHistory.closed, hSame]
      exact hClosed
    · rw [hSame]
      exact hAll

theorem Follows.poll
    {b : LogTable I O E}
    {r : Nat}
    {h : LogHistory I O E}
    {reader : LogReader}
    (hTells : b.Tells h)
    (hReader : b.readers[r]? = some (some reader))
    (hFollows : Follows r h reader) :
    ∃ reader',
      (b.apply (.poll r)).2.readers[r]? =
          some (some reader') ∧
        Follows r
          (h ++ [⟨.poll r, (b.apply (.poll r)).1⟩])
          reader' := by
  have hKnown : r < b.readers.size :=
    (Array.getElem?_eq_some_iff.mp hReader).1
  have hPolls := polls_poll r reader b.log
  have hApply := apply_poll hReader
  refine ⟨(reader.poll r b.log).2.1, ?_, ?_⟩
  · rw [hApply]
    exact Array.getElem?_setIfInBounds_self_of_lt hKnown
  generalize reader.poll r b.log = out at hPolls hApply ⊢
  cases hPolls with
  | spent | waits =>
      exact hFollows.of_other hTells _ (by rw [hApply]; rfl)
  | item s hGoing hItem =>
      have hNext : h.accepted[reader.cursor]? = some s := by
        rw [← hTells.entries, Array.getElem?_toList, hItem]
      have hAccepted :
          LogHistory.accepted
              (h ++ [⟨.poll r, (b.apply (.poll r)).1⟩]) =
            h.accepted := by
        simp [LogHistory.accepted_concat, LogEvent.accepted?]
      refine ⟨?_, ?_, ?_⟩
      · rw [hAccepted, LogHistory.found_concat, hApply,
          hFollows.found, List.take_add_one, hNext]
        simp [LogEvent.found?]
      · rw [hAccepted]
        exact (List.getElem?_eq_some_iff.mp hNext).1
      · intro hEnded
        simp [hGoing] at hEnded
  | ends hGoing hNone hFinished =>
      have hOther :=
        hFollows.of_other hTells (.poll r)
          (by rw [hApply]; rfl)
      have hAccepted :
          LogHistory.accepted
              (h ++ [⟨.poll r, (b.apply (.poll r)).1⟩]) =
            h.accepted := by
        simp [LogHistory.accepted_concat, LogEvent.accepted?]
      refine ⟨hOther.found, hOther.bound, fun _ => ⟨?_, ?_⟩⟩
      · rw [LogHistory.closed, hAccepted]
        exact hTells.finished.symm.trans hFinished
      · rw [hAccepted]
        refine Nat.le_antisymm hFollows.bound ?_
        rw [← hTells.entries]
        exact Array.getElem?_eq_none_iff.mp hNone

theorem Follows.apply
    {b : LogTable I O E}
    {r : Nat}
    {h : LogHistory I O E}
    {reader : LogReader}
    {step : LogStep I O E}
    (hTells : b.Tells h)
    (hReader : b.readers[r]? = some (some reader))
    (hFollows : Follows r h reader)
    (hStays : step ≠ .drop r) :
    ∃ reader',
      (b.apply step).2.readers[r]? = some (some reader') ∧
        Follows r (h ++ [⟨step, (b.apply step).1⟩])
          reader' := by
  by_cases hPoll : step = .poll r
  · subst hPoll
    exact hFollows.poll hTells hReader
  have hKnown : r < b.readers.size :=
    (Array.getElem?_eq_some_iff.mp hReader).1
  have hOther : step.concerns r = false := by
    cases step <;> simp_all [LogStep.concerns]
  refine ⟨reader, ?_, hFollows.of_other hTells step ?_⟩
  · rw [readers_apply_of_not_concerns hKnown hOther, hReader]
  · cases step with
    | poll q =>
        have hNe : q ≠ r := by
          simpa [LogStep.concerns] using hOther
        cases hReply : (b.apply (.poll q)).1 with
        | polled p =>
            cases p <;> simp [LogEvent.found?, hNe]
        | accepted | reader | dropped | latest => rfl
    | push | subscribe | drop | latest => rfl

/- A reader that joined in time keeps what it is owed. -/
theorem follows_run
    {b : LogTable I O E}
    {r : Nat}
    {h : LogHistory I O E}
    {reader : LogReader}
    (steps : List (LogStep I O E))
    (hTells : b.Tells h)
    (hReader : b.readers[r]? = some (some reader))
    (hFollows : Follows r h reader)
    (hStays : .drop r ∉ steps) :
    ∃ reader',
      (b.run steps).readers[r]? = some (some reader') ∧
        Follows r (h ++ b.history steps) reader' := by
  induction steps generalizing b h reader with
  | nil =>
      exact ⟨reader, hReader, by simpa [history] using hFollows⟩
  | cons step steps ih =>
      rw [List.mem_cons, not_or] at hStays
      rcases hFollows.apply hTells hReader (Ne.symm hStays.1)
        with ⟨reader', hReader', hFollows'⟩
      rcases ih (hTells.apply step) hReader' hFollows' hStays.2
        with ⟨reader'', hReader'', hFollows''⟩
      refine ⟨reader'', hReader'', ?_⟩
      rw [List.append_assoc] at hFollows''
      exact hFollows''

/- What a reader that joined in time finds next. -/
theorem Follows.next
    {b : LogTable I O E}
    {r : Nat}
    {h : LogHistory I O E}
    {reader : LogReader}
    (hTells : b.Tells h)
    (hReader : b.readers[r]? = some (some reader))
    (hFollows : Follows r h reader) :
    (b.apply (.poll r)).1 =
      .polled
        (match h.accepted[(h.found r).length]? with
        | some s => .item s
        | none => if h.closed then .ended else .pending) := by
  have hLength : (h.found r).length = reader.cursor := by
    rw [hFollows.found, List.length_take]
    exact Nat.min_eq_left hFollows.bound
  have hLog :
      b.log.entries[reader.cursor]? =
        h.accepted[reader.cursor]? := by
    rw [← hTells.entries, Array.getElem?_toList]
  rw [apply_poll hReader, hLength, ← hLog, ← hTells.finished]
  have hPolls := polls_poll r reader b.log
  generalize reader.poll r b.log = out at hPolls
  cases hPolls with
  | spent hEnded =>
      rcases hFollows.ended hEnded with ⟨hClosed, hAll⟩
      rw [hLog, hAll, List.getElem?_length, hTells.finished,
        hClosed]
      rfl
  | item s hGoing hItem => rw [hItem]
  | ends hGoing hNone hFinished => rw [hNone, hFinished]; rfl
  | waits hGoing hNone hOpen => rw [hNone, hOpen]; rfl

------------------------------------------------------------
-- Before a Reader Joins
------------------------------------------------------------

/- Nobody has found anything under a number not yet given. -/
theorem found_of_size_le
    (steps : List (LogStep I O E))
    {r : Nat}
    (hSize : (run {} steps).readers.size ≤ r) :
    (history {} steps).found r = [] := by
  induction steps using List.reverseRecOn with
  | nil => rfl
  | append_singleton steps step ih =>
      rw [run_concat] at hSize
      have hBefore := (size_apply _ step).trans hSize
      rw [history_concat, LogHistory.found_concat, ih hBefore,
        List.nil_append]
      cases step with
      | poll q =>
          by_cases hReader : q = r
          · subst hReader
            rw [apply_poll_of_none (by
              rw [Array.getElem?_eq_none hBefore]; rfl)]
            rfl
          · cases hReply :
                ((run {} steps).apply (.poll q)).1 with
            | polled p =>
                cases p <;>
                  simp [LogEvent.found?, hReader]
            | accepted | reader | dropped | latest => rfl
      | push | subscribe | drop | latest => rfl

------------------------------------------------------------
-- Readers at the End
------------------------------------------------------------

/- A reader at the end stays there. -/
theorem ended_apply
    {b : LogTable I O E}
    {r : Nat}
    {reader : LogReader}
    {step : LogStep I O E}
    (hReader : b.readers[r]? = some (some reader))
    (hEnded : reader.ended = true)
    (hStays : step ≠ .drop r) :
    (b.apply step).2.readers[r]? = some (some reader) := by
  have hKnown : r < b.readers.size :=
    (Array.getElem?_eq_some_iff.mp hReader).1
  by_cases hPoll : step = .poll r
  · subst hPoll
    have hOver : reader.poll r b.log = (.ended, reader, b.log) := by
      simp [LogReader.poll, hEnded]
    rw [apply_poll hReader, hOver]
    exact Array.getElem?_setIfInBounds_self_of_lt hKnown
  · have hOther : step.concerns r = false := by
      cases step <;> simp_all [LogStep.concerns]
    rw [readers_apply_of_not_concerns hKnown hOther, hReader]

theorem ended_run
    {b : LogTable I O E}
    {r : Nat}
    {reader : LogReader}
    (steps : List (LogStep I O E))
    (hReader : b.readers[r]? = some (some reader))
    (hEnded : reader.ended = true)
    (hStays : .drop r ∉ steps) :
    ((b.run steps).apply (.poll r)).1 = .polled .ended := by
  induction steps generalizing b with
  | nil =>
      change (b.apply (.poll r)).1 = _
      simp [apply_poll hReader, LogReader.poll, hEnded]
  | cons step steps ih =>
      rw [List.mem_cons, not_or] at hStays
      exact ih (ended_apply hReader hEnded (Ne.symm hStays.1))
        hStays.2

/- The reader that has just met the end. -/
theorem ended_of_polled
    {b : LogTable I O E}
    {r : Nat}
    (hPolled : (b.apply (.poll r)).1 = .polled .ended) :
    ∃ reader,
      (b.apply (.poll r)).2.readers[r]? =
          some (some reader) ∧
        reader.ended = true := by
  cases hReader : b.readers[r]?.join with
  | none => simp [apply_poll_of_none hReader] at hPolled
  | some reader =>
      rw [Option.join_eq_some_iff] at hReader
      have hKnown : r < b.readers.size :=
        (Array.getElem?_eq_some_iff.mp hReader).1
      have hApply := apply_poll hReader
      refine ⟨(reader.poll r b.log).2.1, ?_, ?_⟩
      · rw [hApply]
        exact Array.getElem?_setIfInBounds_self_of_lt hKnown
      rw [hApply] at hPolled
      have hPolls := polls_poll r reader b.log
      generalize reader.poll r b.log = out at hPolls hPolled
      cases hPolls with
      | spent hEnded => exact hEnded
      | ends => rfl
      | item | waits => simp at hPolled

------------------------------------------------------------
-- Readers Apart
------------------------------------------------------------

/- A table with nothing of one reader left on it. -/
def without
    (r : Nat)
    (b : LogTable I O E) : LogTable I O E where
  log := { b.log with waiting := b.log.waiting.filter (· != r) }
  readers := b.readers.setIfInBounds r none
  woken := b.woken.filter (· != r)

/- Another reader's poll is the same without this one. -/
theorem poll_without
    (b : LogTable I O E)
    (reader : LogReader)
    {q r : Nat}
    (hNe : q ≠ r) :
    reader.poll q (b.without r).log =
      ((reader.poll q b.log).1, (reader.poll q b.log).2.1,
        { (reader.poll q b.log).2.2 with
          waiting :=
            (reader.poll q b.log).2.2.waiting.filter
              (· != r) }) := by
  have hPolls := polls_poll q reader b.log
  generalize reader.poll q b.log = out at hPolls ⊢
  cases hPolls with
  | spent hEnded => simp [LogReader.poll, hEnded, without]
  | item s hGoing hItem =>
      simp [LogReader.poll, hGoing, hItem, without]
  | ends hGoing hNone hFinished =>
      simp [LogReader.poll, hGoing, hNone, hFinished, without]
  | waits hGoing hNone hOpen =>
      simp [LogReader.poll, hGoing, hNone, hOpen, without, hNe]

/- What a reader does touches only what is its own. -/
theorem without_apply_of_concerns
    {b : LogTable I O E}
    {r : Nat}
    {step : LogStep I O E}
    (hOwn : step.concerns r = true) :
    (b.apply step).2.without r = b.without r := by
  cases step with
  | push s => simp [LogStep.concerns] at hOwn
  | subscribe => simp [LogStep.concerns] at hOwn
  | latest => simp [LogStep.concerns] at hOwn
  | drop q =>
      have hSame : q = r := by simpa [LogStep.concerns] using hOwn
      subst hSame
      simp [apply, without]
  | poll q =>
      have hSame : q = r := by simpa [LogStep.concerns] using hOwn
      subst hSame
      cases hReader : b.readers[q]?.join with
      | none => rw [apply_poll_of_none hReader]
      | some reader =>
          rw [Option.join_eq_some_iff] at hReader
          rw [apply_poll hReader]
          have hPolls := polls_poll q reader b.log
          generalize reader.poll q b.log = out at hPolls ⊢
          cases hPolls with
          | spent | item | ends | waits => simp [without]

/-
  What the others do is the same whatever one reader has
  done so far.
-/
theorem apply_without
    (b : LogTable I O E)
    {r : Nat}
    {step : LogStep I O E}
    (hOther : step.concerns r = false) :
    ((b.without r).apply step).1 = (b.apply step).1 ∧
      ((b.without r).apply step).2.without r =
        (b.apply step).2.without r := by
  cases step with
  | push s =>
      cases hFinished : b.log.finished with
      | true =>
          rw [apply_push_of_finished s hFinished,
            apply_push_of_finished s (by exact hFinished)]
          simp [without]
      | false =>
          rw [apply_push_of_open s hFinished,
            apply_push_of_open s (by exact hFinished)]
          simp [without]
  | subscribe =>
      refine ⟨by simp [apply, without], ?_⟩
      have hReaders (x : Option LogReader) :
          ((b.readers.setIfInBounds r none).push x).setIfInBounds
              r none =
            (b.readers.push x).setIfInBounds r none := by
        ext i <;> grind
      simp [apply, without, ActionLog.subscribe, hReaders]
  | latest => simp [apply, without, ActionLog.latest?]
  | drop q =>
      have hNe : q ≠ r := by simpa [LogStep.concerns] using hOther
      simp [apply, without,
        Array.setIfInBounds_comm none none hNe]
  | poll q =>
      have hNe : q ≠ r := by simpa [LogStep.concerns] using hOther
      have hSame : (b.without r).readers[q]? = b.readers[q]? :=
        Array.getElem?_setIfInBounds_ne hNe.symm
      cases hReader : b.readers[q]?.join with
      | none =>
          rw [apply_poll_of_none hReader,
            apply_poll_of_none (hSame ▸ hReader)]
          simp [without]
      | some reader =>
          rw [Option.join_eq_some_iff] at hReader
          rw [apply_poll hReader,
            apply_poll (hSame.trans hReader),
            poll_without b reader hNe]
          simp [without, Array.setIfInBounds_comm _ none hNe]

/-
  What the others do from two tables that differ in one
  reader, when its own operations are left out on one side.
-/
theorem history_without
    {b b' : LogTable I O E}
    {r : Nat}
    (steps : List (LogStep I O E))
    (hSame : b.without r = b'.without r) :
    (b.history steps).others r =
        b'.history (steps.filter fun s => !s.concerns r) ∧
      (b.run steps).without r =
        (b'.run
          (steps.filter fun s => !s.concerns r)).without r := by
  induction steps generalizing b b' with
  | nil => exact ⟨rfl, hSame⟩
  | cons step steps ih =>
      cases hConcerns : step.concerns r with
      | true =>
          have hStep :=
            (without_apply_of_concerns hConcerns).trans hSame
          rcases ih hStep with ⟨hHistory, hRun⟩
          simp only [List.filter_cons, hConcerns, Bool.not_true]
          refine ⟨?_, hRun⟩
          simpa [history, LogHistory.others, hConcerns]
            using hHistory
      | false =>
          have hReply :
              (b.apply step).1 = (b'.apply step).1 := by
            rw [← (apply_without b hConcerns).1, hSame,
              (apply_without b' hConcerns).1]
          have hStep :
              (b.apply step).2.without r =
                (b'.apply step).2.without r := by
            rw [← (apply_without b hConcerns).2, hSame,
              (apply_without b' hConcerns).2]
          rcases ih hStep with ⟨hHistory, hRun⟩
          simp only [List.filter_cons, hConcerns, Bool.not_false,
            if_true]
          refine ⟨?_, hRun⟩
          simp only [history, hReply, LogHistory.others,
            List.filter_cons, hConcerns, Bool.not_false, if_true]
          exact congrArg _ hHistory

------------------------------------------------------------
-- Any Order of Operations
------------------------------------------------------------

/- What a reader that joined in time is given. -/
structure Replays
    (r : Nat)
    (steps : List (LogStep I O E)) : Prop where
  /- It has found the first of the accepted states. -/
  found :
    (history {} steps).found r <+:
      (history {} steps).accepted
  /- It finds the first one that it has not found. -/
  item :
    ∀ s,
      ((run {} steps).apply (.poll r)).1 =
          .polled (.item s) ↔
        (history {} steps).accepted[
          ((history {} steps).found r).length]? = some s
  /- It waits only with all of them found in an open log. -/
  pending :
    ((run {} steps).apply (.poll r)).1 = .polled .pending ↔
      (history {} steps).found r =
          (history {} steps).accepted ∧
        (history {} steps).closed = false
  /- It ends only with all of them found in a closed log. -/
  ended :
    ((run {} steps).apply (.poll r)).1 = .polled .ended ↔
      (history {} steps).found r =
          (history {} steps).accepted ∧
        (history {} steps).closed = true

theorem Follows.replays
    {r : Nat}
    {steps : List (LogStep I O E)}
    {reader : LogReader}
    (hReader :
      (run {} steps).readers[r]? = some (some reader))
    (hFollows : Follows r (history {} steps) reader) :
    Replays r steps := by
  have hNext := hFollows.next (tells_run steps) hReader
  have hFound : (history {} steps).found r <+:
      (history {} steps).accepted := by
    rw [hFollows.found]
    exact List.take_prefix _ _
  have hAll :
      (history {} steps).accepted[
          ((history {} steps).found r).length]? = none ↔
        (history {} steps).found r =
          (history {} steps).accepted := by
    rw [List.getElem?_eq_none_iff]
    exact ⟨hFound.eq_of_length_le, fun hEq => by rw [hEq]⟩
  refine ⟨hFound, fun s => ?_, ?_, ?_⟩ <;>
    rw [hNext] <;> clear hNext
  · cases (history {} steps).accepted[
        ((history {} steps).found r).length]? with
    | some t => simp
    | none => cases (history {} steps).closed <;> simp
  all_goals
    rw [← hAll]
    cases (history {} steps).accepted[
        ((history {} steps).found r).length]? with
    | some t => simp
    | none => cases (history {} steps).closed <;> simp

/- A reader that joins an open log is at its first state. -/
theorem follows_subscribe
    {before : List (LogStep I O E)}
    (hOpen : (history {} before).closed = false) :
    Follows (run {} before).readers.size
      (history {} before) (run {} before).log.subscribe := by
  have hFinished :=
    (tells_run before).finished.trans hOpen
  refine ⟨?_, Nat.zero_le _, ?_⟩
  · rw [found_of_size_le before (Nat.le_refl _)]
    rfl
  · intro hEnded
    simp [ActionLog.subscribe, hFinished] at hEnded

/- A reader that joins in time is given all from the first. -/
theorem replays_subscribe
    {before after : List (LogStep I O E)}
    {r : Nat}
    (hReader :
      ((run {} before).apply .subscribe).1 = .reader r)
    (hOpen : (history {} before).closed = false)
    (hStays : .drop r ∉ after) :
    Replays r (before ++ .subscribe :: after) := by
  cases hReader
  have hFollows :=
    (follows_subscribe hOpen).of_other (tells_run before)
      .subscribe rfl
  rcases follows_run after
      ((tells_run before).apply .subscribe)
      Array.getElem?_push_size hFollows hStays with
    ⟨reader, hReader, hFollows'⟩
  rw [List.append_assoc] at hFollows'
  have hNow :
      (run {} (before ++ .subscribe :: after)).readers[
          (run {} before).readers.size]? =
        some (some reader) := by
    rw [run_append]
    exact hReader
  apply Follows.replays hNow
  rw [history_append]
  exact hFollows'

/- Only a push wakes anyone. -/
theorem woken_apply
    (b : LogTable I O E)
    {step : LogStep I O E}
    (hPush : ∀ s, step ≠ .push s) :
    (b.apply step).2.woken = b.woken := by
  cases step with
  | push s => exact absurd rfl (hPush s)
  | poll r =>
      cases hReader : b.readers[r]?.join with
      | none => rw [apply_poll_of_none hReader]
      | some reader =>
          rw [Option.join_eq_some_iff] at hReader
          rw [apply_poll hReader]
  | subscribe | drop | latest => rfl

/- The others do not notice that a reader leaves. -/
theorem others_drop
    (before after : List (LogStep I O E))
    (r : Nat) :
    (history {} (before ++ .drop r :: after)).others r =
        (history {} (before ++ after)).others r ∧
      (run {} (before ++ .drop r :: after)).woken.filter
          (· != r) =
        (run {} (before ++ after)).woken.filter (· != r) := by
  have hLeft :=
    history_without (r := r) (before ++ .drop r :: after)
      (rfl : LogTable.without r {} = _)
  have hRight :=
    history_without (r := r) (before ++ after)
      (rfl : LogTable.without r {} = _)
  have hSame :
      (before ++ .drop r :: after).filter
          (fun s => !s.concerns r) =
        (before ++ after).filter fun s => !s.concerns r := by
    simp [LogStep.concerns]
  rw [hSame] at hLeft
  exact ⟨hLeft.1.trans hRight.1.symm,
    congrArg woken (hLeft.2.trans hRight.2.symm)⟩

/- What any order of operations on a log comes to. -/
structure Broadcasts (steps : List (LogStep I O E)) : Prop where
  /- The log holds the accepted states, a terminal one last. -/
  holds :
    (run {} steps).log.entries.toList =
      (history {} steps).accepted
  last :
    ∀ s ∈ (history {} steps).accepted.dropLast,
      s.isTerminal = false
  /- A push is accepted until a terminal state has been. -/
  accepts :
    ∀ s,
      ((run {} steps).apply (.push s)).1 =
        .accepted !(history {} steps).closed
  /- A reader that joins before the terminal state. -/
  early :
    ∀ before after r,
      steps = before ++ .subscribe :: after →
        ((run {} before).apply .subscribe).1 = .reader r →
          (history {} before).closed = false →
            .drop r ∉ after →
              Replays r steps
  /- A reader that joins after it. -/
  late :
    ∀ before after r,
      steps = before ++ .subscribe :: after →
        ((run {} before).apply .subscribe).1 = .reader r →
          (history {} before).closed = true →
            .drop r ∉ after →
              ((run {} steps).apply (.poll r)).1 =
                .polled .ended
  /- A reader that has met the end. -/
  afterEnd :
    ∀ before after r,
      steps = before ++ .poll r :: after →
        ((run {} before).apply (.poll r)).1 =
            .polled .ended →
          .drop r ∉ after →
            ((run {} steps).apply (.poll r)).1 =
              .polled .ended
  /- An accepted push wakes every reader that has found
     nothing since the one before, and nothing else does. -/
  wakes :
    ∀ s,
      ((run {} steps).apply (.push s)).2.woken =
        (run {} steps).woken ++
          if (history {} steps).closed then []
          else (history {} steps).unmet
  quiet :
    ∀ step,
      (∀ s, step ≠ .push s) →
        ((run {} steps).apply step).2.woken =
          (run {} steps).woken
  /- The others have the same answers, and are woken the
     same, had the reader that is dropped stayed. -/
  apart :
    ∀ before after r,
      steps = before ++ .drop r :: after →
        (history {} steps).others r =
            (history {} (before ++ after)).others r ∧
          (run {} steps).woken.filter (· != r) =
            (run {} (before ++ after)).woken.filter (· != r)

theorem run_broadcasts (steps : List (LogStep I O E)) :
    Broadcasts steps := by
  have hTells := tells_run steps
  refine {
    holds := hTells.entries
    last := hTells.last
    accepts := ?accepts
    early := ?early
    late := ?late
    afterEnd := ?afterEnd
    wakes := ?wakes
    quiet := fun _ => woken_apply _
    apart := ?apart }
  case accepts =>
    intro s
    rw [← hTells.finished]
    cases hFinished : (run {} steps).log.finished with
    | true => rw [apply_push_of_finished s hFinished]; rfl
    | false => rw [apply_push_of_open s hFinished]; rfl
  case early =>
    rintro before after r rfl hReader hOpen hStays
    exact replays_subscribe hReader hOpen hStays
  case late =>
    rintro before after r rfl hReader hClosed hStays
    cases hReader
    rw [run_append]
    refine ended_run after Array.getElem?_push_size ?_ hStays
    exact (tells_run before).finished.trans hClosed
  case afterEnd =>
    rintro before after r rfl hPolled hStays
    rcases ended_of_polled hPolled with
      ⟨reader, hReader, hEnded⟩
    rw [run_append]
    exact ended_run after hReader hEnded hStays
  case wakes =>
    intro s
    rw [← hTells.finished, ← hTells.waiting]
    cases hFinished : (run {} steps).log.finished with
    | true => simp [apply_push_of_finished s hFinished]
    | false => simp [apply_push_of_open s hFinished]
  case apart =>
    rintro before after r rfl
    exact others_drop before after r

end LogTable

end DeviceSession
