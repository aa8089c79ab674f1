import DeviceSession.Proofs.Action.Stopping
import DeviceSession.Proofs.Action.Worlds

/-
  What an action knows when it acts.

  The commands of an action and the answers to them make up
  its correspondence with the device.  An annotation of a
  plan says what is known of the correspondence in each of
  its states.  It has to fit the plan node by node: then, as
  long as nobody cancels, every run knows what it should, and
  sends each command only when a law allows it.

  Key definitions include:
    * `Correspondence`
    * `Sender.noted`
    * `Law`
    * `Annotation`
    * `Action.Obeys`
    * `Run.Obeys`

  Main declarations:
    * `Run.step_obeys`
    * `Performance.loyal_run`
    * `Performance.sent_lawful`
    * `Performance.latest_lawful`
-/

------------------------------------------------------------
-- Correspondence
------------------------------------------------------------

namespace DeviceSession

/-
  The commands that were handed in, the latest first, each
  with its answer once this has come.
-/
abbrev Correspondence : Type :=
  List (Apdu × Option Answer)

/- What has been answered is the latest command. -/
def Correspondence.answered :
    Correspondence → Option Answer → Correspondence
  | (a, _) :: l, some answer => (a, some answer) :: l
  | l, _ => l

/- A sender that takes down the correspondence. -/
def Sender.noted
    {W K : Type}
    (x : Sender W K) :
    Sender (W × Correspondence) K where
  submit := fun now a options w =>
    let (key, cancels, w') := x.submit now a options w.1
    (key, cancels, w', (a, none) :: w.2)
  poll := fun now key w =>
    let (answer, cancels, w') := x.poll now key w.1
    (answer, cancels, w', w.2.answered answer)
  withdraw := fun key w => (x.withdraw key w.1, w.2)

theorem Sender.noted_covers
    {W K : Type}
    (x : Sender W K) :
    x.noted.Covers x Prod.fst where
  submit _ _ _ _ := rfl
  poll _ _ _ := rfl
  withdraw _ _ := rfl

/- The same cue in a world with a correspondence. -/
def Cue.noted
    {W : Type}
    {k : ActionKind} :
    Cue W k → Cue (W × Correspondence) k
  | step now => step now
  | cancel => cancel
  | outside f => outside fun w => (f w.1, w.2)
  | report token i => report token i
  | cut token => cut token

------------------------------------------------------------
-- Annotated Plans
------------------------------------------------------------

/-
  When a command may be handed in: after what correspondence,
  and with what just shown.  Nothing has just been shown if
  the state was shown before the action began.
-/
abbrev Law (k : ActionKind) : Type :=
  Correspondence → Option k.Progress → Apdu → Prop

/- The law for an action whose progress is shown by another. -/
def Law.lift
    {k k' : ActionKind}
    (law : Law k)
    (f : k'.Progress → k.Progress) : Law k' :=
  fun l shown a => law l (shown.map f) a

/- What is known in the states of a plan. -/
structure Annotation {k : ActionKind} (p : Plan k) where
  known : Correspondence → p.State → Prop
  /- What another action leaves behind at its end. -/
  after :
    (i : p.Child) → Correspondence → (p.kind i).Outcome → Prop

section Plans

variable {k : ActionKind}

/-
  What has to hold where a state is known, for what is done
  in it: nothing unlawful is sent, and what follows is known
  whatever the answer is.
-/
def Annotation.Allows
    {p : Plan k}
    (n : Annotation p)
    (law : Law k)
    (post : Correspondence → k.Outcome → Prop)
    (s : p.State)
    (l : Correspondence) :
    Node k p.State p.Task p.Child p.kind → Prop
  | .decide next => n.known l next
  | .finish o => post l o
  | .invoke here (.send a _ next) =>
      law l (some (p.view here)) a ∧
      (s = p.start → law l none a) ∧
      ∀ now answer,
        n.known ((a, some answer) :: l) (next now answer)
  | .invoke _ (.wait _ next) => ∀ now, n.known l (next now)
  | .invoke _ (.task _) => False
  | .invoke _ (.child i next) =>
      ∀ l' o now, n.after i l' o → n.known l' (next now o)

/-
  An action that obeys a law, and of which something is known
  at its end: there is an annotation that fits.
-/
inductive Action.Obeys :
    {k : ActionKind} →
    Law k →
    (Correspondence → k.Outcome → Prop) →
    Action k → Prop
  | mk {k : ActionKind}
      {law : Law k}
      {post : Correspondence → k.Outcome → Prop}
      {plan : Plan k}
      {child : (i : plan.Child) → Action (plan.kind i)}
      (n : Annotation plan)
      (start : ∀ l, n.known l plan.start)
      (act : ∀ now s l, n.known l s →
        n.Allows law post s l (plan.act now s))
      (children : ∀ i,
        Obeys (law.lift (plan.lift i)) (n.after i) (child i)) :
      Obeys law post (.mk plan child)

/- An annotation that fits an action under way. -/
structure Annotation.Fits
    {a : Action k}
    (n : Annotation a.plan)
    (law : Law k)
    (post : Correspondence → k.Outcome → Prop) : Prop where
  act : ∀ now s l, n.known l s →
    n.Allows law post s l (a.plan.act now s)
  children : ∀ i,
    (a.child i).Obeys (law.lift (a.plan.lift i)) (n.after i)

end Plans

------------------------------------------------------------
-- Annotated Runs
------------------------------------------------------------

/- What is known in a stage, given what is in a state. -/
def Stage.Knows
    {S T K : Type}
    (known : Correspondence → S → Prop)
    (start : S)
    (silent : Bool)
    (l : Correspondence) : Stage S T K → Prop
  | .ready s => known l s ∧ (silent = true → s = start)
  | .sending _ next =>
      ∃ a earlier,
        l = (a, none) :: earlier ∧
        ∀ now answer,
          known ((a, some answer) :: earlier) (next now answer)
  | .waiting _ next => ∀ now, known l (next now)
  | .working _ => False

namespace Run

variable {W K : Type} {k r : ActionKind}

/- A run of an action that obeys a law. -/
def Obeys
    {k : ActionKind}
    (law : Law k)
    (post : Correspondence → k.Outcome → Prop)
    (l : Correspondence) : Run K k → Prop
  | here a _ silent stage =>
      ∃ n : Annotation a.plan,
        n.Fits law post ∧
        stage.Knows n.known a.plan.start silent l
  | within a _ i next inner =>
      ∃ n : Annotation a.plan,
        n.Fits law post ∧
        inner.Obeys (law.lift (a.plan.lift i)) (n.after i) l ∧
        ∀ l' o now, n.after i l' o → n.known l' (next now o)

theorem obeys_start
    {law : Law k}
    {post : Correspondence → k.Outcome → Prop}
    {a : Action k}
    (hObeys : a.Obeys law post)
    (token : Nat)
    (silent : Bool)
    (l : Correspondence) :
    (start (K := K) a token silent).Obeys law post l := by
  cases hObeys with
  | mk n start act children =>
      exact ⟨n, ⟨act, children⟩, start l, fun _ => rfl⟩

end Run

------------------------------------------------------------
-- Scenes without Cancellations
------------------------------------------------------------

namespace Scene

variable {r : ActionKind} {sc : Scene r}

/- No token is cancelled. -/
def Open (sc : Scene r) : Prop :=
  ∀ t, sc.tokens.isCancelled t = false

theorem open_report
    (token : Nat)
    (i : r.Progress)
    (hOpen : sc.Open) :
    (sc.report token i).Open := by
  intro t
  rw [tokens_report]
  exact hOpen t

theorem open_child
    (token : Nat)
    (hOpen : sc.Open) :
    Open { sc with tokens := (sc.tokens.child token).2 } := by
  intro t
  by_cases hNew : t = sc.tokens.tokens.size
  · subst hNew
    exact (sc.tokens.isCancelled_child_self token).trans
      (hOpen token)
  · exact (TokenForest.isCancelled_child_of_ne hNew).trans
      (hOpen t)

theorem open_release
    (token : Nat)
    (hOpen : sc.Open) :
    Open { sc with tokens := sc.tokens.release token } := by
  intro t
  exact (sc.tokens.isCancelled_release token t).trans (hOpen t)

/- What is shown on behalf of an open token goes to the log. -/
theorem log_report_of_open
    (token : Nat)
    (i : r.Progress)
    (hOpen : sc.Open) :
    (sc.report token i).log = sc.log.offer (.pending i) := by
  simp [report, hOpen token]

end Scene

------------------------------------------------------------
-- What a Step Keeps
------------------------------------------------------------

namespace Run

variable {W K : Type} {k r : ActionKind}

/-
  How a step goes that nobody cancels: the run obeys its law
  as before, or has ended as it should.  A command that it
  hands in is lawful, and what has been shown for it is the
  latest that was.
-/
structure Goes
    (law : Law k)
    (post : Correspondence → k.Outcome → Prop)
    (up : k.Progress → r.Progress)
    (sc : Scene r)
    (l : Correspondence)
    (p : Result (W × Correspondence) K k r) : Prop where
  isOpen : p.2.1.Open
  obeys :
    ∀ run, p.1 = .go run ∨ p.1 = .wait run →
      run.Obeys law post p.2.2.2
  ended : ∀ o, p.1 = .done o → post p.2.2.2 o
  lawful :
    p.2.2.2.length = l.length ∨
    (∃ run, p.1 = .go run) ∧
    ∃ a shown,
      p.2.2.2 = (a, none) :: l ∧
      law l shown a ∧
      ∀ i, shown = some i →
        p.2.1.log = sc.log.offer (.pending (up i))

section Stages

variable {law : Law k}
variable {post : Correspondence → k.Outcome → Prop}
variable {up : k.Progress → r.Progress}
variable {sc sc' : Scene r} {w : W} {l l' : Correspondence}

/- A run that hands nothing in, and goes on or waits. -/
theorem goes_on
    {run : Run K k}
    {turn : Turn (Run K k) k.Outcome}
    (hTurn : turn = .go run ∨ turn = .wait run)
    (hOpen : sc'.Open)
    (hObeys : run.Obeys law post l')
    (hLength : l'.length = l.length) :
    Goes law post up sc l (turn, sc', w, l') where
  isOpen := hOpen
  obeys := by
    intro run' hTurn'
    rcases hTurn with rfl | rfl
    · obtain rfl : run = run' := by simpa using hTurn'
      exact hObeys
    · obtain rfl : run = run' := by simpa using hTurn'
      exact hObeys
  ended := by
    intro o hDone
    rcases hTurn with rfl | rfl <;> cases hDone
  lawful := .inl hLength

variable {a : Action k} {n : Annotation a.plan} {token : Nat}

theorem goes_resume
    {s : a.plan.State}
    (hFits : n.Fits law post)
    (hOpen : sc'.Open)
    (hKnown : n.known l' s)
    (hLength : l'.length = l.length) :
    Goes law post up sc l
      (resume (K := K) a token s sc' (w, l')).1 := by
  unfold resume
  rw [hOpen token]
  exact goes_on (.inl rfl) hOpen ⟨n, hFits, hKnown, by simp⟩
    hLength

theorem goes_hold
    (x : Sender W K)
    {stage : Stage a.plan.State a.plan.Task K}
    (hFits : n.Fits law post)
    (hOpen : sc'.Open)
    (hKnows : stage.Knows n.known a.plan.start false l) :
    Goes law post up sc l
      (hold x.noted a token stage sc' (w, l)) := by
  unfold hold
  rw [hOpen token]
  exact goes_on (.inr rfl) hOpen ⟨n, hFits, hKnows⟩ rfl

theorem goes_makeCall
    (x : Sender W K)
    (now : Nat)
    (silent : Bool)
    {s s' : a.plan.State}
    {shown : Option k.Progress}
    {call :
      Call a.plan.State a.plan.Task a.plan.Child a.plan.kind}
    (hFits : n.Fits law post)
    (hOpen : sc'.Open)
    (hAllows : n.Allows law post s l (.invoke s' call))
    (hShown :
      shown = some (a.plan.view s') ∨
      shown = none ∧ s = a.plan.start)
    (hLog : ∀ i, shown = some i →
      sc'.log = sc.log.offer (.pending (up i)))
    (hUncancelled :
      .cancel ∉
        (makeCall x.noted now a token silent sc' (w, l) call).2) :
    Goes law post up sc l
      (makeCall x.noted now a token silent sc' (w, l) call).1 := by
  cases call with
  | send apdu options next =>
      rcases hAllows with ⟨hLaw, hFirst, hNext⟩
      have hFlag :
          (x.noted.submit now apdu options (w, l)).2.1 =
            false := by
        simpa [makeCall] using hUncancelled
      simp only [makeCall, hFlag, Scene.cancelIf]
      refine ⟨hOpen, ?_, by simp,
        .inr ⟨⟨_, rfl⟩, apdu, shown, rfl, ?_, hLog⟩⟩
      · rintro run (hTurn | hTurn)
        · obtain rfl : here a token false _ = run := by
            simpa using hTurn
          exact ⟨n, hFits, apdu, l, rfl, hNext⟩
        · cases hTurn
      · rcases hShown with rfl | ⟨rfl, hStart⟩
        · exact hLaw
        · exact hFirst hStart
  | wait ms next =>
      exact goes_on (.inl rfl) hOpen ⟨n, hFits, hAllows⟩ rfl
  | task t => exact hAllows.elim
  | child i next =>
      apply goes_on (.inl rfl) (Scene.open_child token hOpen) _ rfl
      exact ⟨n, hFits,
        obeys_start (hFits.children i) _ silent l, hAllows⟩

theorem goes_act
    (x : Sender W K)
    (now : Nat)
    (silent : Bool)
    {s : a.plan.State}
    (hFits : n.Fits law post)
    (hOpen : sc.Open)
    (hKnown : n.known l s)
    (hSilent : silent = true → s = a.plan.start)
    (hUncancelled :
      .cancel ∉
        (act x.noted now up a token silent s sc (w, l)).2) :
    Goes law post up sc l
      (act x.noted now up a token silent s sc (w, l)).1 := by
  have hAllows := hFits.act now s l hKnown
  unfold act at hUncancelled ⊢
  simp only [hOpen token, Bool.false_eq_true, if_false] at *
  cases hNode : a.plan.act now s with
  | decide next =>
      rw [hNode] at hAllows
      exact goes_on (.inl rfl) hOpen
        ⟨n, hFits, hAllows, by simp⟩ rfl
  | finish o =>
      rw [hNode] at hAllows
      refine ⟨hOpen, by simp, ?_, .inl rfl⟩
      rintro _ ⟨rfl⟩
      exact hAllows
  | invoke here call =>
      rw [hNode] at hAllows hUncancelled
      simp only [effects_after, List.cons_append, List.mem_cons,
        List.mem_append, not_or] at hUncancelled
      cases silent with
      | true =>
          exact goes_makeCall x now true hFits hOpen hAllows
            (.inr ⟨rfl, hSilent rfl⟩) (by simp)
            hUncancelled.2.2
      | false =>
          apply goes_makeCall x now false hFits
            (Scene.open_report token _ hOpen) hAllows (.inl rfl) _
            hUncancelled.2.2
          rintro _ ⟨rfl⟩
          exact Scene.log_report_of_open token _ hOpen

theorem goes_stageStep
    (x : Sender W K)
    (now : Nat)
    (silent : Bool)
    {stage : Stage a.plan.State a.plan.Task K}
    (hFits : n.Fits law post)
    (hOpen : sc.Open)
    (hKnows : stage.Knows n.known a.plan.start silent l)
    (hUncancelled :
      .cancel ∉
        (stageStep x.noted now up a token silent stage sc
          (w, l)).2) :
    Goes law post up sc l
      (stageStep x.noted now up a token silent stage sc
        (w, l)).1 := by
  cases stage with
  | ready s =>
      exact goes_act x now silent hFits hOpen hKnows.1 hKnows.2
        hUncancelled
  | sending key next =>
      obtain ⟨apdu, earlier, rfl, hNext⟩ := hKnows
      rcases hPoll : x.poll now key w with
        ⟨_ | answer, cancels, w'⟩
      all_goals
        simp only [stageStep, Sender.noted, hPoll,
          effects_after, List.mem_append, not_or,
          Effect.cancel_mem_ofCancel, Bool.not_eq_true]
          at hUncancelled
        simp only [stageStep, Sender.noted, hPoll]
      · subst hUncancelled
        exact goes_hold x hFits hOpen
          ⟨apdu, earlier, rfl, hNext⟩
      · rw [hUncancelled.1]
        exact goes_resume hFits hOpen (hNext now answer) rfl
  | waiting due next =>
      simp only [stageStep]
      split
      · exact goes_resume hFits hOpen (hKnows now) rfl
      · exact goes_hold x hFits hOpen hKnows
  | working t => exact hKnows.elim

end Stages

/-
  What is lawful for an action that is run by another one is
  so for that one.
-/
theorem Goes.lawful_lift
    {k' : ActionKind}
    {law : Law k}
    {f : k'.Progress → k.Progress}
    {post : Correspondence → k'.Outcome → Prop}
    {up : k.Progress → r.Progress}
    {sc sc' : Scene r}
    {w' : W}
    {l l' : Correspondence}
    {turn : Turn (Run K k') k'.Outcome}
    (hGoes :
      Goes (law.lift f) post (up ∘ f) sc l (turn, sc', w', l')) :
    l'.length = l.length ∨
    (∃ run, turn = .go run) ∧
    ∃ a shown,
      l' = (a, none) :: l ∧
      law l shown a ∧
      ∀ i, shown = some i →
        sc'.log = sc.log.offer (.pending (up i)) := by
  rcases hGoes.lawful with
    hSame | ⟨hTurn, a, shown, hSent, hLaw, hLog⟩
  · exact .inl hSame
  · refine .inr ⟨hTurn, a, shown.map f, hSent, hLaw, ?_⟩
    intro i hShown
    obtain ⟨i', rfl, rfl⟩ := Option.map_eq_some_iff.mp hShown
    exact hLog i' rfl

/- Every step that nobody cancels goes in this way. -/
theorem step_obeys
    (x : Sender W K)
    (now : Nat)
    (run : Run K k)
    (law : Law k)
    (post : Correspondence → k.Outcome → Prop)
    (up : k.Progress → r.Progress)
    {sc : Scene r}
    (w : W)
    {l : Correspondence}
    (hObeys : run.Obeys law post l)
    (hOpen : sc.Open)
    (hUncancelled :
      .cancel ∉ run.effects x.noted now up sc (w, l)) :
    Goes law post up sc l
      (run.step x.noted now up sc (w, l)) := by
  induction run with
  | here a token silent stage =>
      obtain ⟨n, hFits, hKnows⟩ := hObeys
      exact goes_stageStep x now silent hFits hOpen hKnows
        hUncancelled
  | within a token i next inner ih =>
      obtain ⟨n, hFits, hInner, hNext⟩ := hObeys
      have hWithin :
          .cancel ∉ inner.effects x.noted now
            (up ∘ a.plan.lift i) sc (w, l) :=
        fun hCancel => hUncancelled (effects_within hCancel)
      have hGoes :=
        ih (law.lift (a.plan.lift i)) (n.after i)
          (up ∘ a.plan.lift i) hInner hWithin
      rw [step, tell]
      rcases hTell :
          inner.tell x.noted now (up ∘ a.plan.lift i) sc (w, l)
        with ⟨⟨turn, sc', w', l'⟩, ds⟩
      rw [step, hTell] at hGoes
      have hLawful := hGoes.lawful_lift
      have hOpen' : sc'.Open := hGoes.isOpen
      cases turn with
      | go inner' =>
          simp only [enclose]
          refine ⟨hOpen', ?_, by simp,
            hLawful.imp_right fun hSent => ⟨⟨_, rfl⟩, hSent.2⟩⟩
          rintro run (hTurn | hTurn)
          · obtain rfl : within a token i next inner' = run := by
              simpa using hTurn
            exact ⟨n, hFits, hGoes.obeys inner' (.inl rfl), hNext⟩
          · cases hTurn
      | wait inner' =>
          simp only [enclose, hOpen' token, Bool.false_eq_true,
            if_false]
          refine ⟨hOpen', ?_, by simp, .inl ?_⟩
          rintro run (hTurn | hTurn)
          · cases hTurn
          · obtain rfl : within a token i next inner' = run := by
              simpa using hTurn
            exact ⟨n, hFits, hGoes.obeys inner' (.inr rfl), hNext⟩
          · simpa using hLawful
      | done o =>
          have hReleased :=
            Scene.open_release inner.token hOpen'
          have hKnown :=
            hNext l' o now (hGoes.ended o rfl)
          simp only [enclose, resume, hReleased token,
            Bool.false_eq_true, if_false]
          refine ⟨hReleased, ?_, by simp, .inl ?_⟩
          rintro run (hTurn | hTurn)
          · obtain rfl :
                here a token false (.ready (next now o)) = run := by
              simpa using hTurn
            exact ⟨n, hFits, hKnown, by simp⟩
          · cases hTurn
          · simpa using hLawful

end Run

------------------------------------------------------------
-- The State That Is Shown
------------------------------------------------------------

/- Without a cancellation, the last word is an outcome. -/
theorem Effect.outcome_of_verdict
    {r : ActionKind}
    {ds : List (Effect r)}
    {s : r.State}
    (hVerdict : verdict ds = some s)
    (hUncancelled : cancel ∉ ds) :
    ∃ o ∈ outcomes ds, s = o.state := by
  induction ds with
  | nil => cases hVerdict
  | cons d ds ih =>
      rw [List.mem_cons, not_or] at hUncancelled
      cases d with
      | cancel => exact absurd rfl hUncancelled.1
      | resolve o =>
          obtain rfl : o.state = s := by
            simpa [verdict] using hVerdict
          exact ⟨o, by simp [outcomes_cons, outcome?], rfl⟩
      | _ =>
          simp only [outcomes_cons, outcome?, Option.toList_none,
            List.nil_append]
          exact ih hVerdict hUncancelled.2

theorem Execution.latest_eq
    {K : Type}
    {k : ActionKind}
    (e : Execution K k) :
    e.latest =
      e.scene.log.entries.toList.getLast?.getD .notStarted := by
  rcases e with ⟨run, tokens, ⟨states⟩, finished, waiting⟩
  simp [latest, ActionLog.latest?]

namespace Performance

variable {W K : Type} {k : ActionKind}

/- An action that nobody cancels is pending until it ends. -/
theorem latest_run
    (x : Sender W K)
    (a : Action k)
    (w : W)
    (cues : List (Cue W k))
    (hUncancelled :
      .cancel ∉
        ((start a w).run x cues : Performance W K k).effects) :
    let p : Performance W K k := (start a w).run x cues
    (∃ i, p.execution.latest = .pending i) ∨
    ∃ o ∈ Effect.outcomes p.effects,
      p.execution.latest = o.state := by
  intro p
  have hStates := states_run x a w cues
  rw [p.execution.latest_eq]
  change (∃ i, p.states.getLast?.getD .notStarted = .pending i) ∨
    ∃ o ∈ Effect.outcomes p.effects,
      p.states.getLast?.getD .notStarted = o.state
  cases hVerdict : Effect.verdict p.effects with
  | some s =>
      right
      obtain ⟨o, hOutcome, rfl⟩ :=
        Effect.outcome_of_verdict hVerdict hUncancelled
      refine ⟨o, hOutcome, ?_⟩
      rw [show p.states.getLast? = some o.state from
        getLast?_states_run hVerdict]
      rfl
  | none =>
      left
      have hPending :
          p.states =
            (a.preview :: Effect.shown p.effects).map .pending := by
        rw [show p.states = _ from hStates, hVerdict]
        simp [p]
      rw [hPending, List.getLast?_map, List.getLast?_cons]
      exact ⟨_, rfl⟩

/- The log of an action that goes on takes more states. -/
theorem unfinished_run
    (x : Sender W K)
    (a : Action k)
    (w : W)
    (cues : List (Cue W k))
    {run : Run K k}
    (hUncancelled :
      .cancel ∉
        ((start a w).run x cues : Performance W K k).effects)
    (hRun : ((start a w).run x cues).execution.run = some run) :
    ((start a w).run x cues).execution.scene.log.finished =
      false := by
  have hFinished :
      ((start a w).run x cues).execution.isFinished =
        (Effect.verdict
          ((start a w).run x cues).effects).isSome :=
    isFinished_run x a w cues
  have hResolves := resolves_run x a w cues
  unfold Resolves at hResolves
  rw [hRun, Option.isNone_some, if_neg Bool.false_ne_true,
    List.length_eq_zero_iff] at hResolves
  cases hVerdict :
      Effect.verdict ((start a w).run x cues).effects with
  | none =>
      rw [hVerdict] at hFinished
      exact hFinished
  | some s =>
      obtain ⟨o, hOutcome, -⟩ :=
        Effect.outcome_of_verdict hVerdict hUncancelled
      rw [hResolves] at hOutcome
      cases hOutcome

------------------------------------------------------------
-- Actions That Obey Laws
------------------------------------------------------------

/-
  An action that nobody has cancelled obeys its law, and has
  ended as it should if it has.
-/
structure Follows
    (law : Law k)
    (post : Correspondence → k.Outcome → Prop)
    (p : Performance (W × Correspondence) K k) : Prop where
  isOpen : p.execution.scene.Open
  obeys :
    ∀ run ∈ p.execution.run, run.Obeys law post p.world.2
  ended : ∀ o ∈ Effect.outcomes p.effects, post p.world.2 o

theorem follows_start
    {law : Law k}
    {post : Correspondence → k.Outcome → Prop}
    {a : Action k}
    (hObeys : a.Obeys law post)
    (w : W) :
    Follows law post
      (start a (w, []) :
        Performance (W × Correspondence) K k) where
  isOpen := by
    intro t
    simp only [start, Execution.start, TokenForest.fresh,
      TokenForest.isCancelled]
    cases t <;> rfl
  obeys := by
    rintro run ⟨rfl⟩
    exact Run.obeys_start hObeys _ _ _
  ended := by simp [start]

section Follows

variable {x : Sender W K} {law : Law k}
variable {post : Correspondence → k.Outcome → Prop}
variable {p : Performance (W × Correspondence) K k}

/- How a step of an action that is not cancelled goes. -/
theorem Follows.step_goes
    {run : Run K k}
    {now : Nat}
    (hFollows : Follows law post p)
    (hRun : p.execution.run = some run)
    (hUncancelled :
      .cancel ∉ (p.next x.noted (.step now)).effects) :
    Run.Goes law post id p.execution.scene p.world.2
      (run.step x.noted now id p.execution.scene p.world) := by
  apply Run.step_obeys x now run law post id p.world.1
    (hFollows.obeys run hRun) hFollows.isOpen
  intro hCancel
  apply hUncancelled
  exact List.mem_append_right _
    (Execution.mem_effects hRun hCancel)

theorem Follows.next_step
    {now : Nat}
    (hResolves : p.Resolves)
    (hFollows : Follows law post p)
    (hUncancelled :
      .cancel ∉ (p.next x.noted (.step now)).effects) :
    Follows law post (p.next x.noted (.step now)) := by
  cases hRun : p.execution.run with
  | none =>
      rw [next_step_of_ended x.noted hRun]
      exact hFollows
  | some run =>
      have hGoes := hFollows.step_goes hRun hUncancelled
      have hOutcomes :=
        run.outcomes_effects x.noted now id p.execution.scene
          p.world
      unfold Resolves at hResolves
      rw [hRun, Option.isNone_some, if_neg Bool.false_ne_true,
        List.length_eq_zero_iff] at hResolves
      rw [Run.step] at hGoes
      rw [Run.effects] at hOutcomes
      rcases hTell : run.tell x.noted now id p.execution.scene
          p.world with ⟨⟨run' | run' | o, sc', w'⟩, ds⟩
      all_goals
        rw [hTell] at hGoes hOutcomes
        simp only [next, Execution.step, Execution.effects,
          Execution.tell, hRun, hTell]
      · refine ⟨hGoes.isOpen, ?_, ?_⟩
        · rintro _ ⟨rfl⟩
          exact hGoes.obeys run' (.inl rfl)
        · simp [hResolves, hOutcomes]
      · refine ⟨hGoes.isOpen, ?_, ?_⟩
        · rintro _ ⟨rfl⟩
          exact hGoes.obeys run' (.inr rfl)
        · simp [hResolves, hOutcomes]
      · refine ⟨hGoes.isOpen, by simp, ?_⟩
        intro o' hOutcome
        obtain rfl : o' = o := by
          simpa [hResolves, hOutcomes, Effect.outcomes_cons,
            Effect.outcome?] using hOutcome
        exact hGoes.ended o' rfl

/- It follows its law, unless it has been cancelled. -/
structure Loyal
    (law : Law k)
    (post : Correspondence → k.Outcome → Prop)
    (p : Performance (W × Correspondence) K k) : Prop where
  resolves : p.Resolves
  follows : .cancel ∉ p.effects → Follows law post p

theorem Loyal.next
    {cue : Cue W k}
    (hLoyal : Loyal law post p)
    (hOwn : cue.IsOwn) :
    Loyal law post (p.next x.noted cue.noted) where
  resolves := hLoyal.resolves.next cue.noted
  follows := by
    intro hUncancelled
    obtain ⟨ds, hEffects, -⟩ := p.next_log x.noted cue.noted
    have hFollows : Follows law post p := by
      apply hLoyal.follows
      intro hCancel
      apply hUncancelled
      rw [hEffects]
      exact List.mem_append_left ds hCancel
    cases cue with
    | step now =>
        exact hFollows.next_step hLoyal.resolves hUncancelled
    | cancel =>
        simp [Performance.next, Cue.noted] at hUncancelled
    | outside f =>
        exact ⟨hFollows.isOpen, hFollows.obeys, hFollows.ended⟩
    | report token i => exact hOwn.elim
    | cut token => exact hOwn.elim

end Follows

/-
  An action that obeys a law goes on to do so, whatever it is
  answered, and whenever, as long as nobody cancels it.
-/
theorem loyal_run
    (x : Sender W K)
    {law : Law k}
    {post : Correspondence → k.Outcome → Prop}
    {a : Action k}
    (w : W)
    {cues : List (Cue W k)}
    (hObeys : a.Obeys law post)
    (hOwn : ∀ cue ∈ cues, cue.IsOwn) :
    Loyal (K := K) law post
      ((start a (w, [])).run x.noted (cues.map Cue.noted)) := by
  apply run_induction
  · exact ⟨rfl, fun _ => follows_start hObeys w⟩
  · intro p hLoyal _ hCue
    obtain ⟨cue, hMem, rfl⟩ := List.mem_map.mp hCue
    exact hLoyal.next (hOwn cue hMem)

/- The correspondence does not change how an action goes. -/
theorem run_noted
    (x : Sender W K)
    (a : Action k)
    (w : W)
    (cues : List (Cue W k)) :
    ((start a (w, [])).run x.noted (cues.map Cue.noted)).map
        Prod.fst =
      (start a w).run x cues := by
  have hCues : ∀ cue : Cue W k,
      Cue.Covers Prod.fst cue.noted (id cue) := by
    intro cue
    cases cue with
    | step now => exact .step now
    | cancel => exact .cancel
    | outside f => exact .outside fun _ => rfl
    | report token i => exact .report token i
    | cut token => exact .cut token
  have hRun :=
    run_map x.noted_covers hCues (start (K := K) a (w, [])) cues
  rw [List.map_id] at hRun
  exact hRun.symm

/- A step hands in a lawful command, or none. -/
theorem step_lawful
    (x : Sender W K)
    {law : Law k}
    {post : Correspondence → k.Outcome → Prop}
    {a : Action k}
    (w : W)
    {cues : List (Cue W k)}
    {now : Nat}
    (hObeys : a.Obeys law post)
    (hOwn : ∀ cue ∈ cues, cue.IsOwn) :
    let p :=
      (start (K := K) a (w, [])).run x.noted
        (cues.map Cue.noted)
    let q := p.next x.noted (.step now)
    .cancel ∉ q.effects →
    q.world.2.length = p.world.2.length ∨
    ∃ apdu shown,
      q.world.2 = (apdu, none) :: p.world.2 ∧
      law p.world.2 shown apdu ∧
      ∀ i, shown = some i → q.execution.latest = .pending i := by
  intro p q hUncancelled
  have hBefore : .cancel ∉ p.effects := by
    intro hCancel
    apply hUncancelled
    exact List.mem_append_left _ hCancel
  have hFollows : Follows law post p :=
    (loyal_run x w hObeys hOwn).follows hBefore
  cases hRun : p.execution.run with
  | none =>
      have hSame : q = p := next_step_of_ended x.noted hRun now
      exact .inl (by rw [hSame])
  | some run =>
      have hGoes := hFollows.step_goes hRun hUncancelled
      have hOpen : p.execution.scene.log.finished = false :=
        unfinished_run x.noted a (w, []) _ hBefore hRun
      rw [Run.step] at hGoes
      rcases hTell : run.tell x.noted now id p.execution.scene
          p.world with ⟨⟨turn, sc', w'⟩, ds⟩
      rw [hTell] at hGoes
      have hWorld : q.world = w' := by
        simp only [q, next, Execution.step, Execution.tell, hRun,
          hTell]
        cases turn <;> rfl
      rw [hWorld]
      rcases hGoes.lawful with
        hSame | ⟨⟨run', rfl⟩, apdu, shown, hNew, hLaw, hLog⟩
      · exact .inl hSame
      · refine .inr ⟨apdu, shown, hNew, hLaw, ?_⟩
        intro i hShown
        have hLatest : q.execution.scene.log = sc'.log := by
          simp [q, next, Execution.step, Execution.tell, hRun,
            hTell]
        rw [q.execution.latest_eq, hLatest, hLog i hShown,
          ActionLog.entries_offer _ hOpen]
        simp

/-
  Whatever happens to an action that nobody has cancelled: at
  most one command is handed in.  It is lawful, and what was
  shown for it is the latest state.
-/
theorem sent_lawful
    (x : Sender W K)
    {law : Law k}
    {post : Correspondence → k.Outcome → Prop}
    {a : Action k}
    (w : W)
    {cues : List (Cue W k)}
    {cue : Cue W k}
    (hObeys : a.Obeys law post)
    (hOwn : ∀ cue ∈ cues, cue.IsOwn) :
    let p :=
      (start (K := K) a (w, [])).run x.noted
        (cues.map Cue.noted)
    let q := p.next x.noted cue.noted
    .cancel ∉ q.effects →
    q.world.2.length = p.world.2.length ∨
    ∃ apdu shown,
      q.world.2 = (apdu, none) :: p.world.2 ∧
      law p.world.2 shown apdu ∧
      ∀ i, shown = some i → q.execution.latest = .pending i := by
  intro p q hUncancelled
  cases cue with
  | step now => exact step_lawful x w hObeys hOwn hUncancelled
  | cancel => exact .inl rfl
  | outside f => exact .inl rfl
  | report token i => exact .inl rfl
  | cut token => exact .inl rfl

/- The state shown last is a pending one, or a due outcome. -/
theorem latest_lawful
    (x : Sender W K)
    {law : Law k}
    {post : Correspondence → k.Outcome → Prop}
    {a : Action k}
    (w : W)
    {cues : List (Cue W k)}
    (hObeys : a.Obeys law post)
    (hOwn : ∀ cue ∈ cues, cue.IsOwn) :
    let p :=
      (start (K := K) a (w, [])).run x.noted
        (cues.map Cue.noted)
    .cancel ∉ p.effects →
    (∃ i, p.execution.latest = .pending i) ∨
    ∃ o, post p.world.2 o ∧ p.execution.latest = o.state := by
  intro p hUncancelled
  have hFollows : Follows law post p :=
    (loyal_run x w hObeys hOwn).follows hUncancelled
  rcases latest_run x.noted a (w, []) (cues.map Cue.noted)
      hUncancelled with hPending | ⟨o, hOutcome, hLatest⟩
  · exact .inl hPending
  · exact .inr ⟨o, hFollows.ended o hOutcome, hLatest⟩

end Performance

end DeviceSession
