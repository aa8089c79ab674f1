import DeviceSession.Proofs.Action.Trace

/-
  How the log of an action ends.

  A handle, a run, and the progress of many actions write to
  one log.  The first of them that writes a terminal state
  has the last word: a cancellation, or the outcome of the
  run.

  Key definitions include:
    * `Effect.shown`
    * `Effect.verdict`

  Main declarations:
    * `Effect.untilTerminal_states`
    * `Performance.run_ends_once`
-/

------------------------------------------------------------
-- The Last Word
------------------------------------------------------------

namespace DeviceSession

namespace Effect

variable {r : ActionKind}

/- The progress that is shown before the last word. -/
def shown : List (Effect r) → List r.Progress
  | [] => []
  | report i :: ds => i :: shown ds
  | cancel :: _ => []
  | resolve _ :: _ => []
  | _ :: ds => shown ds

/- The last word: that of the first who has one. -/
def verdict : List (Effect r) → Option r.State
  | [] => none
  | cancel :: _ => some .stopped
  | resolve o :: _ => some o.state
  | _ :: ds => verdict ds

/- The outcome that an effect tells. -/
def outcome? : Effect r → Option r.Outcome
  | resolve o => some o
  | _ => none

/- The outcomes that effects tell. -/
def outcomes (ds : List (Effect r)) : List r.Outcome :=
  ds.filterMap outcome?

/- The outcomes of effects, one by one. -/
@[simp]
theorem outcomes_nil : outcomes ([] : List (Effect r)) = [] :=
  rfl

theorem outcomes_cons (d : Effect r) (ds : List (Effect r)) :
    outcomes (d :: ds) = d.outcome?.toList ++ outcomes ds := by
  cases h : d.outcome? <;> simp [outcomes, h]

/- They can be taken in parts. -/
@[simp]
theorem outcomes_append (ds es : List (Effect r)) :
    outcomes (ds ++ es) = outcomes ds ++ outcomes es :=
  List.filterMap_append

/- A cancellation is not an outcome. -/
@[simp]
theorem outcomes_ofCancel (wanted : Bool) :
    outcomes (ofCancel (r := r) wanted) = [] := by
  cases wanted <;> rfl

/- Nor is a report. -/
@[simp]
theorem outcomes_ofReport
    (sc : Scene r)
    (token : Nat)
    (i : r.Progress) :
    outcomes (ofReport sc token i) = [] := by
  unfold ofReport
  split <;> rfl

/- Nor is a result of an inner action. -/
@[simp]
theorem outcomes_ofResult
    (sc : Scene r)
    (token : Nat) :
    outcomes (ofResult sc token) = [] := by
  unfold ofResult
  split <;> rfl

/- A verdict is the end. -/
theorem isTerminal_of_verdict
    {ds : List (Effect r)}
    {s : r.State}
    (hVerdict : verdict ds = some s) :
    s.isTerminal = true := by
  induction ds with
  | nil => simp [verdict] at hVerdict
  | cons d ds ih =>
      cases d with
      | cancel =>
          obtain rfl : .stopped = s := by
            simpa [verdict] using hVerdict
          rfl
      | resolve o =>
          obtain rfl : o.state = s := by
            simpa [verdict] using hVerdict
          exact o.isTerminal_state
      | _ => exact ih (by simpa [verdict] using hVerdict)

/- A cancellation has the last word if no outcome is first. -/
theorem verdict_of_cancel
    {ds es : List (Effect r)}
    (hFirst : outcomes ds = []) :
    verdict (ds ++ cancel :: es) = some .stopped := by
  induction ds with
  | nil => rfl
  | cons d ds ih =>
      cases d <;> simp_all [outcomes_cons, outcome?, verdict]

/-
  An outcome has the last word if it is the first one, and no
  cancellation is before it.
-/
theorem verdict_of_resolve
    {ds es : List (Effect r)}
    (o : r.Outcome)
    (hFirst : outcomes ds = [])
    (hUncancelled : cancel ∉ ds) :
    verdict (ds ++ resolve o :: es) = some o.state := by
  induction ds with
  | nil => rfl
  | cons d ds ih =>
      cases d <;> simp_all [outcomes_cons, outcome?, verdict]

/- An outcome is a verdict. -/
theorem isSome_verdict_of_outcome
    {ds : List (Effect r)}
    (hOutcome : outcomes ds ≠ []) :
    (verdict ds).isSome = true := by
  induction ds with
  | nil => exact absurd rfl hOutcome
  | cons d ds ih =>
      cases d <;> simp_all [outcomes_cons, outcome?, verdict]

/- So is a cancellation. -/
theorem isSome_verdict_of_cancel
    {ds : List (Effect r)}
    (hCancel : cancel ∈ ds) :
    (verdict ds).isSome = true := by
  induction ds with
  | nil => simp at hCancel
  | cons d ds ih =>
      cases d <;> simp_all [verdict]

/- What a log takes of what effects offer to it. -/
theorem untilTerminal_states (ds : List (Effect r)) :
    ActionState.untilTerminal (states ds) =
      (shown ds).map .pending ++ (verdict ds).toList := by
  induction ds with
  | nil => rfl
  | cons d ds ih =>
      cases d with
      | report i =>
          simp [states_cons, state?, shown, verdict,
            ActionState.untilTerminal, ActionState.isTerminal,
            ih]
      | cancel =>
          simp [states_cons, state?, shown, verdict,
            ActionState.untilTerminal, ActionState.isTerminal]
      | resolve o =>
          simp [states_cons, state?, shown, verdict,
            ActionState.untilTerminal, o.isTerminal_state]
      | _ => simpa [states_cons, state?, shown, verdict] using ih

/- Effects with a last word close the log. -/
theorem any_isTerminal_states (ds : List (Effect r)) :
    (states ds).any ActionState.isTerminal =
      (verdict ds).isSome := by
  induction ds with
  | nil => rfl
  | cons d ds ih =>
      cases d with
      | cancel =>
          simp [states_cons, state?, verdict,
            ActionState.isTerminal]
      | resolve o =>
          simp [states_cons, state?, verdict, o.isTerminal_state]
      | report i =>
          simpa [states_cons, state?, verdict,
            ActionState.isTerminal] using ih
      | _ => simpa [states_cons, state?, verdict] using ih

end Effect

------------------------------------------------------------
-- Outcomes
------------------------------------------------------------

namespace Run

variable {W K : Type} {k r : ActionKind}

/- A call is not an outcome. -/
theorem outcomes_makeCall
    (x : Sender W K)
    (now : Nat)
    (a : Action k)
    (token : Nat)
    (silent : Bool)
    (sc : Scene r)
    (w : W)
    (call :
      Call a.plan.State a.plan.Task a.plan.Child a.plan.kind) :
    Effect.outcomes
      (makeCall x now a token silent sc w call).2 = [] := by
  cases call <;>
    simp [makeCall, Effect.outcomes_cons, Effect.outcome?]

/- What is done in a state is not one yet. -/
theorem outcomes_act
    (x : Sender W K)
    (now : Nat)
    (up : k.Progress → r.Progress)
    (a : Action k)
    (token : Nat)
    (silent : Bool)
    (s : a.plan.State)
    (sc : Scene r)
    (w : W) :
    Effect.outcomes
      (act x now up a token silent s sc w).2 = [] := by
  unfold act
  split
  · rfl
  · cases a.plan.act now s with
    | invoke s call =>
        cases silent <;>
          simp [Effect.outcomes_cons, Effect.outcome?,
            outcomes_makeCall]
    | _ => rfl

/- Nor is a step of a task. -/
theorem outcomes_taskStep
    (x : Sender W K)
    (now : Nat)
    (up : k.Progress → r.Progress)
    (a : Action k)
    (token : Nat)
    (stage : TaskStage a.plan.Task K)
    (sc : Scene r)
    (w : W) :
    Effect.outcomes
      (taskStep x now up a token stage sc w).2 = [] := by
  cases stage with
  | ready t =>
      simp only [taskStep]
      cases a.plan.work now t <;>
        simp [Effect.outcomes_cons, Effect.outcome?]
  | _ =>
      simp only [taskStep]
      split <;> simp

/- No outcome is told before the whole run has ended. -/
theorem outcomes_effects
    (x : Sender W K)
    (now : Nat)
    (run : Run K k)
    (up : k.Progress → r.Progress)
    (sc : Scene r)
    (w : W) :
    Effect.outcomes (run.effects x now up sc w) = [] := by
  rw [effects]
  induction run with
  | here a token silent stage =>
      cases stage with
      | ready s =>
          exact outcomes_act x now up a token silent s sc w
      | sending key next =>
          simp only [tell, stageStep]
          split <;> simp
      | waiting due next =>
          simp only [tell, stageStep]
          split <;> simp
      | working t =>
          exact outcomes_taskStep x now up a token t sc w
  | within a token i next inner ih =>
      have hInner := ih (up ∘ a.plan.lift i)
      rw [tell]
      rcases hTell :
          inner.tell x now (up ∘ a.plan.lift i) sc w with
        ⟨⟨turn, sc', w'⟩, ds⟩
      rw [hTell] at hInner
      cases turn with
      | go inner' => exact hInner
      | wait inner' =>
          simp only [enclose]
          split <;> exact hInner
      | done o => simpa [enclose] using hInner

end Run

------------------------------------------------------------
-- The Log of a Performance
------------------------------------------------------------

namespace Performance

variable {W K : Type} {k : ActionKind}

/- The log starts with the first state of the action. -/
theorem states_run
    (x : Sender W K)
    (a : Action k)
    (w : W)
    (cues : List (Cue W k)) :
    let p : Performance W K k := (start a w).run x cues
    p.states =
      .pending a.preview ::
        (Effect.shown p.effects).map .pending ++
        (Effect.verdict p.effects).toList := by
  rcases (start a w).run_log x cues with ⟨ds, hEffects, hLog⟩
  have hStart :
      (start (K := K) a w).execution.scene.log.finished =
        false :=
    rfl
  simp only [states, hLog]
  rw [ActionLog.entries_offerAll _ hStart,
    Effect.untilTerminal_states, hEffects]
  rfl

/- The log ends with the last word. -/
theorem getLast?_states_run
    {x : Sender W K}
    {a : Action k}
    {w : W}
    {cues : List (Cue W k)}
    {s : k.State}
    (hVerdict :
      Effect.verdict
        ((start a w).run x cues : Performance W K k).effects =
          some s) :
    ((start a w).run x cues : Performance W K k).states.getLast? =
      some s := by
  rw [states_run, hVerdict, Option.toList_some,
    List.getLast?_concat]

/- The log of a run is finished by its verdict. -/
theorem isFinished_run
    (x : Sender W K)
    (a : Action k)
    (w : W)
    (cues : List (Cue W k)) :
    let p : Performance W K k := (start a w).run x cues
    p.execution.isFinished = (Effect.verdict p.effects).isSome := by
  rcases (start a w).run_log x cues with ⟨ds, hEffects, hLog⟩
  simp only [Execution.isFinished, hLog]
  rw [ActionLog.finished_offerAll,
    Effect.any_isTerminal_states, hEffects]
  rfl

/- A finished log stays as it is. -/
theorem states_run_of_finished
    (x : Sender W K)
    {p : Performance W K k}
    (cues : List (Cue W k))
    (hFinished : p.execution.isFinished = true) :
    (p.run x cues).states = p.states := by
  rcases p.run_log x cues with ⟨ds, -, hLog⟩
  simp only [states, hLog]
  rw [ActionLog.offerAll_of_finished _ hFinished]

/- A run tells one outcome, at its end. -/
def Resolves (p : Performance W K k) : Prop :=
  (Effect.outcomes p.effects).length =
    if p.execution.run.isNone then 1 else 0

/- A cue that ends an action leaves no run. -/
theorem Resolves.next
    {x : Sender W K}
    {p : Performance W K k}
    (hResolves : p.Resolves)
    (cue : Cue W k) :
    (p.next x cue).Resolves := by
  rcases p with ⟨⟨_ | run, sc⟩, w, ds⟩
  · cases cue <;>
      simpa [Resolves, Performance.next, Execution.step,
        Execution.effects, Execution.tell, Execution.cancel,
        Effect.outcomes_cons, Effect.outcome?] using hResolves
  · cases cue with
    | step now =>
        have hEffects := run.outcomes_effects x now id sc w
        rw [Run.effects] at hEffects
        rcases hTell : run.tell x now id sc w with
          ⟨⟨_ | _ | o, sc', w'⟩, es⟩ <;>
          rw [hTell] at hEffects <;>
          simpa [Resolves, Performance.next, Execution.step,
            Execution.effects, Execution.tell, hTell, hEffects,
            Effect.outcomes_cons, Effect.outcome?] using hResolves
    | _ =>
      simpa [Resolves, Performance.next, Execution.cancel,
        Effect.outcomes_cons, Effect.outcome?] using hResolves

/- There is no outcome before an outcome. -/
theorem Resolves.outcomes_eq_nil
    {p : Performance W K k}
    {ds es : List (Effect k)}
    {o : k.Outcome}
    (hResolves : p.Resolves)
    (hEffects : p.effects = ds ++ .resolve o :: es) :
    Effect.outcomes ds = [] := by
  have hAtMost : (Effect.outcomes p.effects).length ≤ 1 := by
    rw [hResolves]
    split <;> decide
  rw [hEffects] at hAtMost
  simp only [Effect.outcomes_append, Effect.outcomes_cons,
    Effect.outcome?, Option.toList_some, List.length_append,
    List.length_cons] at hAtMost
  apply List.eq_nil_of_length_eq_zero
  omega

/- So it is throughout a run. -/
theorem resolves_run
    (x : Sender W K)
    (a : Action k)
    (w : W)
    (cues : List (Cue W k)) :
    ((start a w).run x cues : Performance W K k).Resolves :=
  run_induction cues rfl fun _ hKeeps cue _ => hKeeps.next cue

------------------------------------------------------------
-- The Law
------------------------------------------------------------

/-
  Whatever happens to an action, its log holds its first
  state before it is stepped, then what it shows, and then
  the last word, if there has been one.  A run that has ended
  has told one outcome.  The log ends with it, unless the
  action was cancelled before; and then it stays as it is.
-/
theorem run_ends_once
    (x : Sender W K)
    (a : Action k)
    (w : W)
    (cues more : List (Cue W k)) :
    let p : Performance W K k := (start a w).run x cues
    (start (K := K) a w).states = [.pending a.preview] ∧
    p.states =
      .pending a.preview ::
        (Effect.shown p.effects).map .pending ++
        (Effect.verdict p.effects).toList ∧
    (∀ s ∈ Effect.verdict p.effects, s.isTerminal = true) ∧
    (p.execution.run = none ↔
      ∃ o, Effect.outcomes p.effects = [o]) ∧
    (∀ o ∈ Effect.outcomes p.effects,
      (Effect.verdict p.effects).isSome) ∧
    (∀ ds es,
      p.effects = ds ++ .cancel :: es →
      Effect.outcomes ds = [] →
      p.states.getLast? = some .stopped) ∧
    (∀ ds es o,
      p.effects = ds ++ .resolve o :: es →
      .cancel ∉ ds →
      p.states.getLast? = some o.state) ∧
    ((Effect.verdict p.effects).isSome = true →
      (p.run x more).states = p.states) := by
  intro p
  have hStates := states_run x a w cues
  have hResolves : p.Resolves := resolves_run x a w cues
  have hFinished := isFinished_run x a w cues
  refine ⟨rfl, hStates, ?terminal, ?ended, ?told, ?cancelled,
    ?resolved, ?settled⟩
  case terminal =>
    intro s hVerdict
    exact Effect.isTerminal_of_verdict hVerdict
  case ended =>
    rw [← List.length_eq_one_iff, hResolves]
    simp
  case told =>
    intro o hOutcome
    exact Effect.isSome_verdict_of_outcome
      (List.ne_nil_of_mem hOutcome)
  case cancelled =>
    intro ds es hEffects hFirst
    apply getLast?_states_run
    rw [hEffects, Effect.verdict_of_cancel hFirst]
  case resolved =>
    intro ds es o hEffects hUncancelled
    have hFirst : Effect.outcomes ds = [] :=
      hResolves.outcomes_eq_nil hEffects
    apply getLast?_states_run
    rw [hEffects, Effect.verdict_of_resolve o hFirst hUncancelled]
  case settled =>
    intro hVerdict
    apply states_run_of_finished
    rw [hFinished]
    exact hVerdict

end Performance

end DeviceSession
