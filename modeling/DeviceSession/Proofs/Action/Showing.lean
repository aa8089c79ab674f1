import DeviceSession.Proofs.Action.Evidence
import Mathlib.Data.List.TakeWhile

/-
  What an action shows, node by node.

  A run enters nodes: its own, and those of the actions that
  it calls, at any depth.  A node that makes a call is shown
  as it is entered.  Its progress goes through all actions
  around it.

  The first state has been shown before the run begins.  So
  nothing is shown for the first node, nor for the first node
  of an action that is called from there, and so on, until a
  node is entered that calls no action.

  Key definitions include:
    * `Entry`
    * `Entry.shown?`
    * `Entry.inside`
    * `Entry.heard`
    * `Run.upcoming?`
    * `Performance.entries`

  Main declarations:
    * `Run.tell_shows`
    * `Performance.Showing.next`
    * `Performance.run_shows`
-/

------------------------------------------------------------
-- Entries
------------------------------------------------------------

namespace DeviceSession

/- The action that is called, if it is one. -/
def Call.callee?
    {S T C : Type}
    {kind : C → ActionKind} : Call S T C kind → Option C
  | .child i _ => some i
  | _ => none

namespace Node

variable {k : ActionKind} {S T C : Type} {kind : C → ActionKind}

/- The state that is there to be shown: that of a call. -/
def here? : Node k S T C kind → Option S
  | .invoke here _ => some here
  | _ => none

/- The action that a node calls, if it calls one. -/
def callee? : Node k S T C kind → Option C
  | .invoke _ call => call.callee?
  | _ => none

/- Without a state of its own, a node calls nobody. -/
theorem callee?_of_here?
    {n : Node k S T C kind}
    (hHere : n.here? = none) :
    n.callee? = none := by
  cases n with
  | invoke here call => cases hHere
  | _ => rfl

end Node

/-
  A node that is entered within an action of kind `r`: what a
  state of some action asks for at a time.
-/
structure Entry (r : ActionKind) : Type 1 where
  {kind : ActionKind}
  action : Action kind
  /- How the outermost action shows the progress of this one. -/
  up : kind.Progress → r.Progress
  token : Nat
  now : Nat
  state : action.plan.State

namespace Entry

variable {k r : ActionKind}

def node (e : Entry r) :
    Node e.kind e.action.plan.State e.action.plan.Task
      e.action.plan.Child e.action.plan.kind :=
  e.action.plan.act e.now e.state

/- What there is to show.  Only calls have something. -/
def shown? (e : Entry r) : Option r.Progress :=
  e.node.here?.map (e.up ∘ e.action.plan.view)

/- Whether a node calls an action. -/
def calls (e : Entry r) : Bool :=
  e.node.callee?.isSome

/- The first node of an action. -/
def first
    (a : Action k)
    (up : k.Progress → r.Progress)
    (token now : Nat) : Entry r :=
  ⟨a, up, token, now, a.plan.start⟩

/- The first node of an action that is called from a node. -/
def inside
    (e : Entry r)
    (i : e.action.plan.Child)
    (token now : Nat) : Entry r :=
  first (e.action.child i) (e.up ∘ e.action.plan.lift i)
    token now

/- An action that is called is entered next, at its start. -/
def LeadsTo (e e' : Entry r) : Prop :=
  ∀ i ∈ e.node.callee?, ∃ token now, e' = e.inside i token now

/-
  The entries after the silent ones.  Silent are those that
  call actions, from the first one on, and the one that they
  lead to.
-/
def heard (es : List (Entry r)) : List (Entry r) :=
  (es.dropWhile calls).tail

/- Calls are not heard of. -/
theorem heard_of_all
    {es : List (Entry r)}
    (hCalls : es.all calls = true) :
    heard es = [] := by
  unfold heard
  rw [List.dropWhile_eq_nil_iff.mpr (List.all_eq_true.mp hCalls)]
  rfl

/- The first entry that calls no action is still silent. -/
theorem heard_concat
    (es : List (Entry r))
    (e : Entry r) :
    heard (es ++ [e]) =
      heard es ++ if es.all calls then [] else [e] := by
  cases hCalls : es.all calls with
  | true =>
      rw [heard_of_all hCalls]
      unfold heard
      rw [List.dropWhile_append_of_pos (List.all_eq_true.mp hCalls)]
      cases hLast : e.calls <;> simp [hLast]
  | false =>
      have hRest : es.dropWhile calls ≠ [] := by
        intro hNil
        rw [List.dropWhile_eq_nil_iff, ← List.all_eq_true,
          hCalls] at hNil
        cases hNil
      unfold heard
      rw [List.dropWhile_append, List.isEmpty_eq_false_iff.mpr hRest]
      exact List.tail_append_of_ne_nil hRest

/- The last entry is heard of, unless all were calls. -/
theorem heard_append_toList
    (es : List (Entry r))
    (e : Option (Entry r)) :
    heard (es ++ e.toList) =
      heard es ++ if es.all calls then [] else e.toList := by
  cases e with
  | none => simp
  | some e => exact heard_concat es e

end Entry

------------------------------------------------------------
-- Effects
------------------------------------------------------------

/- Pending states are the progress they show. -/
theorem ActionState.filterMap_progress?_pending
    {I O E : Type}
    (l : List I) :
    (l.map (pending (O := O) (E := E))).filterMap progress? = l := by
  induction l with
  | nil => rfl
  | cons i l ih => simp [progress?, ih]

namespace Effect

variable {r : ActionKind}

/- The token under which a node is entered. -/
def entered? : Effect r → Option Nat
  | enter token => some token
  | _ => none

/- The tokens under which nodes are entered. -/
def entered (ds : List (Effect r)) : List Nat :=
  ds.filterMap entered?

/- The states entered by effects, one by one. -/
theorem entered_cons (d : Effect r) (ds : List (Effect r)) :
    entered (d :: ds) = d.entered?.toList ++ entered ds := by
  cases h : d.entered? <;> simp [entered, h]

/- They can be taken in parts. -/
@[simp]
theorem entered_append (ds es : List (Effect r)) :
    entered (ds ++ es) = entered ds ++ entered es :=
  List.filterMap_append

/- A cancellation enters no state. -/
@[simp]
theorem entered_ofCancel (wanted : Bool) :
    entered (ofCancel (r := r) wanted) = [] := by
  cases wanted <;> rfl

/- Nor does a report. -/
@[simp]
theorem entered_ofReport
    (sc : Scene r)
    (token : Nat)
    (i : r.Progress) :
    entered (ofReport sc token i) = [] := by
  unfold ofReport
  split <;> rfl

/- Nor does a result that is taken. -/
@[simp]
theorem entered_ofResult
    (sc : Scene r)
    (token : Nat) :
    entered (ofResult sc token) = [] := by
  unfold ofResult
  split <;> rfl

/- It shows nothing either. -/
@[simp]
theorem shown_ofResult
    (sc : Scene r)
    (token : Nat) :
    shown (ofResult sc token) = [] := by
  unfold ofResult
  split <;> rfl

/- Before the last word, what is shown adds up. -/
theorem shown_append
    {ds : List (Effect r)}
    (es : List (Effect r))
    (hUncancelled : cancel ∉ ds)
    (hOutcomes : outcomes ds = []) :
    shown (ds ++ es) = shown ds ++ shown es := by
  induction ds with
  | nil => rfl
  | cons d ds ih =>
      rw [List.mem_cons, not_or] at hUncancelled
      cases d with
      | cancel => exact absurd rfl hUncancelled.1
      | resolve o => cases hOutcomes
      | report i =>
          exact congrArg (i :: ·) (ih hUncancelled.2 hOutcomes)
      | _ => exact ih hUncancelled.2 hOutcomes

end Effect

------------------------------------------------------------
-- One Step
------------------------------------------------------------

namespace Run

variable {W K : Type} {k r : ActionKind}

/- The node that a run enters at its next step, if any. -/
def upcoming?
    (now : Nat)
    {k : ActionKind}
    (run : Run K k)
    (up : k.Progress → r.Progress) : Option (Entry r) :=
  match run with
  | here a token _ (.ready s) => some ⟨a, up, token, now, s⟩
  | here _ _ _ _ => none
  | within a _ i _ inner => inner.upcoming? now (up ∘ a.plan.lift i)

/- Whether the node that a run enters next has been shown. -/
def isSilent {k : ActionKind} : Run K k → Bool
  | here _ _ silent (.ready _) => silent
  | here _ _ _ _ => false
  | within _ _ _ _ inner => inner.isSilent

/-
  What a step shows that nobody cancels: the node that it
  enters, unless the run is silent.  It stays silent only if
  the node calls an action, which then is at its start.
-/
structure Shows
    (now : Nat)
    (up : k.Progress → r.Progress)
    (run : Run K k)
    (t : Told W K k r) : Prop where
  isOpen : t.1.2.1.Open
  shown :
    Effect.shown t.2 =
      if run.isSilent then []
      else (run.upcoming? now up).toList.filterMap Entry.shown?
  entered :
    Effect.entered t.2 =
      (run.upcoming? now up).toList.map Entry.token
  silent :
    ∀ run', t.1.1 = .go run' ∨ t.1.1 = .wait run' →
      run'.isSilent =
        (run.isSilent && (run.upcoming? now up).toList.all Entry.calls)
  next :
    ∀ e, run.upcoming? now up = some e →
      ∀ i ∈ e.node.callee?,
        ∃ run' token,
          t.1.1 = .go run' ∧
          ∀ later,
            run'.upcoming? later up = some (e.inside i token later)

/- A run is silent only on its way to a node. -/
theorem isSilent_of_upcoming?
    {now : Nat}
    {run : Run K k}
    {up : k.Progress → r.Progress}
    (hEntry : run.upcoming? now up = none) :
    run.isSilent = false := by
  induction run with
  | here a token silent stage =>
      cases stage with
      | ready s => cases hEntry
      | _ => rfl
  | within a token i next inner ih => exact ih hEntry

/- The node of a run that ends calls nothing. -/
theorem Shows.isSilent_of_done
    {now : Nat}
    {up : k.Progress → r.Progress}
    {run : Run K k}
    {o : k.Outcome}
    {sc : Scene r}
    {w : W}
    {ds : List (Effect r)}
    (hShows : Shows now up run ((.done o, sc, w), ds)) :
    (run.isSilent &&
      (run.upcoming? now up).toList.all Entry.calls) = false := by
  cases hEntry : run.upcoming? now up with
  | none => simp [isSilent_of_upcoming? hEntry]
  | some e =>
      cases hCallee : e.node.callee? with
      | none => simp [Entry.calls, hCallee]
      | some i =>
          obtain ⟨run', t, hTurn, -⟩ :=
            hShows.next e hEntry i hCallee
          cases hTurn

section shows

variable {now : Nat} {up : k.Progress → r.Progress}
variable {sc sc' : Scene r} {w : W} {a : Action k} {token : Nat}

/- A step that enters nothing, after which nothing is silent. -/
theorem shows_nothing
    {run : Run K k}
    {t : Told W K k r}
    (hOpen : t.1.2.1.Open)
    (hSilent : run.isSilent = false)
    (hEntry : run.upcoming? now up = none)
    (hShown : Effect.shown t.2 = [])
    (hEntered : Effect.entered t.2 = [])
    (hLater :
      ∀ run', t.1.1 = .go run' ∨ t.1.1 = .wait run' →
        run'.isSilent = false) :
    Shows now up run t where
  isOpen := hOpen
  shown := by simp [hShown, hSilent, hEntry]
  entered := by simp [hEntered, hEntry]
  silent := by simpa [hSilent] using hLater
  next := by simp [hEntry]

/- An action that goes on shows its state again. -/
theorem isSilent_of_resume
    {s : a.plan.State}
    {run : Run K k}
    (hTurn :
      (resume (K := K) a token s sc w).1.1 = .go run ∨
      (resume (K := K) a token s sc w).1.1 = .wait run) :
    run.isSilent = false := by
  unfold resume at hTurn
  split at hTurn
  · simp at hTurn
  · obtain rfl : here a token false (.ready s) = run := by
      simpa using hTurn
    rfl

/- So does one that waits. -/
theorem isSilent_of_hold
    {x : Sender W K}
    {stage : Stage a.plan.State a.plan.Task K}
    {run : Run K k}
    (hTurn :
      (hold x a token stage sc w).1 = .go run ∨
      (hold x a token stage sc w).1 = .wait run) :
    run.isSilent = false := by
  unfold hold at hTurn
  split at hTurn
  · simp at hTurn
  · obtain rfl : here a token false stage = run := by
      simpa using hTurn
    cases stage <;> rfl

/- What a node shows is all that its step shows. -/
theorem shown_invoke
    (x : Sender W K)
    (silent : Bool)
    (i : r.Progress)
    (call :
      Call a.plan.State a.plan.Task a.plan.Child a.plan.kind)
    (hOpen : sc.Open)
    (hUncancelled :
      .cancel ∉ (makeCall x now a token silent sc' w call).2) :
    Effect.shown
        ((if silent then [] else Effect.ofReport sc token i) ++
          (makeCall x now a token silent sc' w call).2) =
      if silent then [] else [i] := by
  have hCall :
      Effect.shown
        (makeCall x now a token silent sc' w call).2 = [] := by
    cases call with
    | send apdu options next =>
        have hFlag : (x.submit now apdu options w).2.1 = false := by
          simpa [makeCall] using hUncancelled
        simp [makeCall, hFlag, Effect.ofCancel, Effect.shown]
    | _ => rfl
  cases silent with
  | true => exact hCall
  | false =>
      simp [Effect.ofReport, hOpen token, Effect.shown, hCall]

/- A call enters no state. -/
theorem entered_makeCall
    (x : Sender W K)
    (silent : Bool)
    (call :
      Call a.plan.State a.plan.Task a.plan.Child a.plan.kind) :
    Effect.entered
      (makeCall x now a token silent sc w call).2 = [] := by
  cases call with
  | send apdu options next =>
      simp [makeCall, Effect.entered_cons, Effect.entered?]
  | _ => rfl

/- Only an action that is called may be silent in its turn. -/
theorem isSilent_of_makeCall
    {x : Sender W K}
    {silent : Bool}
    {call :
      Call a.plan.State a.plan.Task a.plan.Child a.plan.kind}
    {run : Run K k}
    (hTurn :
      (makeCall x now a token silent sc w call).1.1 = .go run ∨
      (makeCall x now a token silent sc w call).1.1 =
        .wait run) :
    run.isSilent = (silent && call.callee?.isSome) := by
  cases call with
  | child i next =>
      obtain rfl :
          within a token i next
            (start (a.child i) (sc.tokens.child token).1 silent) =
          run := by
        simpa [makeCall] using hTurn
      simp [isSilent, start, Call.callee?]
  | send apdu options next =>
      obtain rfl :
          here a token false
            (.sending (x.submit now apdu options w).1 next) =
          run := by
        simpa [makeCall] using hTurn
      simp [isSilent, Call.callee?]
  | wait ms next =>
      obtain rfl :
          here a token false (.waiting (now + ms) next) = run := by
        simpa [makeCall] using hTurn
      simp [isSilent, Call.callee?]
  | task t =>
      obtain rfl : here a token false (.working (.ready t)) = run := by
        simpa [makeCall] using hTurn
      simp [isSilent, Call.callee?]

/- It leaves the log open. -/
theorem open_makeCall
    (x : Sender W K)
    (silent : Bool)
    (call :
      Call a.plan.State a.plan.Task a.plan.Child a.plan.kind)
    (hOpen : sc.Open)
    (hUncancelled :
      .cancel ∉ (makeCall x now a token silent sc w call).2) :
    (makeCall x now a token silent sc w call).1.2.1.Open := by
  cases call with
  | send apdu options next =>
      have hFlag : (x.submit now apdu options w).2.1 = false := by
        simpa [makeCall] using hUncancelled
      simpa [makeCall, hFlag, Scene.cancelIf] using hOpen
  | wait ms next => exact hOpen
  | task t => exact hOpen
  | child i next => exact Scene.open_child token hOpen

/- A node that makes no call is entered, and not shown. -/
theorem shows_callless
    {silent : Bool}
    {s : a.plan.State}
    {turn : Turn (Run K k) k.Outcome}
    (hOpen : sc.Open)
    (hHere : (a.plan.act now s).here? = none)
    (hLater :
      ∀ run, turn = .go run ∨ turn = .wait run →
        run.isSilent = false) :
    Shows now up (here a token silent (.ready s))
      ((turn, sc, w), [.enter token]) where
  isOpen := hOpen
  shown := by
    simp [Effect.shown, upcoming?, Entry.shown?, Entry.node, hHere]
  entered := rfl
  silent := by
    intro run hTurn
    rw [hLater run hTurn]
    simp [upcoming?, Entry.calls, Entry.node,
      Node.callee?_of_here? hHere]
  next := by
    rintro _ ⟨rfl⟩ i hCallee
    simp [Entry.node, Node.callee?_of_here? hHere] at hCallee

/- A node is entered, and what it asks for is done. -/
theorem shows_act
    (x : Sender W K)
    (silent : Bool)
    {s : a.plan.State}
    (hOpen : sc.Open)
    (hUncancelled :
      .cancel ∉ (act x now up a token silent s sc w).2) :
    Shows now up (here a token silent (.ready s))
      (act x now up a token silent s sc w) := by
  unfold act at hUncancelled ⊢
  simp only [hOpen token, Bool.false_eq_true, if_false] at *
  cases hNode : a.plan.act now s with
  | decide next =>
      apply shows_callless hOpen (by rw [hNode]; rfl)
      rintro run' (hTurn | hTurn)
      · obtain rfl : here a token false (.ready next) = run' := by
          simpa using hTurn
        rfl
      · cases hTurn
  | finish o =>
      exact shows_callless hOpen (by rw [hNode]; rfl) (by simp)
  | invoke here' call =>
      rw [hNode] at hUncancelled
      let i := up (a.plan.view here')
      let sc' := if silent then sc else sc.report token i
      let ds := if silent then [] else Effect.ofReport sc token i
      have hSplit :
          (if silent then (sc, [])
            else (sc.report token i, Effect.ofReport sc token i)) =
            (sc', ds) := by
        cases silent <;> rfl
      simp only [show up (a.plan.view here') = i from rfl, hSplit,
        effects_after, List.cons_append, List.mem_cons,
        List.mem_append, not_or] at hUncancelled ⊢
      have hLater : sc'.Open := by
        simp only [sc']
        split
        · exact hOpen
        · exact Scene.open_report token _ hOpen
      refine ⟨open_makeCall x silent call hLater hUncancelled.2.2,
        ?shown, ?entered, ?silent, ?next⟩
      case shown =>
        change Effect.shown (ds ++
          (makeCall x now a token silent sc' w call).2) = _
        rw [shown_invoke x silent _ call hOpen hUncancelled.2.2]
        simp [i, isSilent, upcoming?, Entry.shown?, Entry.node,
          hNode, Node.here?]
      case entered =>
        cases silent <;>
          simp [ds, Effect.entered_cons, Effect.entered?,
            upcoming?, entered_makeCall]
      case silent =>
        intro run' hTurn
        rw [isSilent_of_makeCall hTurn]
        simp [isSilent, upcoming?, Entry.calls, Entry.node, hNode,
          Node.callee?]
      case next =>
        rintro _ ⟨rfl⟩ i hCallee
        cases call with
        | child j next =>
            obtain rfl : j = i := by
              simpa [Entry.node, hNode, Node.callee?, Call.callee?]
                using hCallee
            exact ⟨_, _, rfl, fun _ => rfl⟩
        | _ =>
            simp [Entry.node, hNode, Node.callee?, Call.callee?]
              at hCallee

/- While an action waits, there is nothing to show. -/
theorem shows_stageStep
    (x : Sender W K)
    (silent : Bool)
    {stage : Stage a.plan.State a.plan.Task K}
    (hStage : ∀ t, stage ≠ .working t)
    (hOpen : sc.Open)
    (hUncancelled :
      .cancel ∉
        (stageStep x now up a token silent stage sc w).2) :
    Shows now up (here a token silent stage)
      (stageStep x now up a token silent stage sc w) := by
  cases stage with
  | ready s => exact shows_act x silent hOpen hUncancelled
  | waiting due next =>
      simp only [stageStep]
      split
      · refine shows_nothing ?_ rfl rfl (by simp) (by simp)
          fun _ => isSilent_of_resume
        rw [scene_resume]
        exact hOpen
      · refine shows_nothing ?_ rfl rfl rfl rfl
          fun _ => isSilent_of_hold
        rw [scene_hold]
        exact hOpen
  | sending key next =>
      rcases hPoll : x.poll now key w with
        ⟨_ | answer, cancels, w'⟩
      all_goals
        simp only [stageStep, hPoll, effects_after,
          List.mem_append, not_or, Effect.cancel_mem_ofCancel,
          Bool.not_eq_true] at hUncancelled
        simp only [stageStep, hPoll]
      · obtain rfl : cancels = false := hUncancelled
        refine shows_nothing ?_ rfl rfl rfl rfl
          fun _ => isSilent_of_hold
        rw [scene_hold]
        exact hOpen
      · obtain rfl : cancels = false := hUncancelled.1
        refine shows_nothing ?_ rfl rfl (by simp [Effect.ofCancel])
          (by simp) fun _ => isSilent_of_resume
        rw [result_after, scene_resume]
        exact hOpen
  | working t => exact absurd rfl (hStage t)

end shows

/- A step shows the node that is entered, at whatever depth. -/
theorem tell_shows
    (x : Sender W K)
    (now : Nat)
    (run : Run K k)
    (up : k.Progress → r.Progress)
    {sc : Scene r}
    (w : W)
    (hPlain : run.Plain)
    (hOpen : sc.Open)
    (hUncancelled : .cancel ∉ run.effects x now up sc w) :
    Shows now up run (run.tell x now up sc w) := by
  induction run with
  | here a token silent stage =>
      exact shows_stageStep x silent hPlain.2 hOpen hUncancelled
  | within a token i next inner ih =>
      have hWithin :
          .cancel ∉ inner.effects x now (up ∘ a.plan.lift i) sc w :=
        fun hCancel => hUncancelled (effects_within hCancel)
      have hInner := ih (up ∘ a.plan.lift i) hPlain.2 hWithin
      have hOutcomes :=
        inner.outcomes_effects x now (up ∘ a.plan.lift i) sc w
      rw [effects] at hWithin hOutcomes
      rw [tell]
      rcases hTell :
          inner.tell x now (up ∘ a.plan.lift i) sc w with
        ⟨⟨turn, sc', w'⟩, ds⟩
      rw [hTell] at hInner hWithin hOutcomes
      have hOpen' : sc'.Open := hInner.isOpen
      cases turn with
      | go inner' =>
          simp only [enclose]
          refine ⟨hOpen', hInner.shown, hInner.entered, ?_, ?_⟩
          · rintro run' (hTurn | hTurn)
            · obtain rfl : within a token i next inner' = run' := by
                simpa using hTurn
              exact hInner.silent inner' (.inl rfl)
            · cases hTurn
          · intro e hEntry j hCallee
            obtain ⟨run', t, hTurn, hNext⟩ :=
              hInner.next e hEntry j hCallee
            obtain rfl : inner' = run' := by simpa using hTurn
            exact ⟨_, t, rfl, hNext⟩
      | wait inner' =>
          simp only [enclose, hOpen' token, Bool.false_eq_true,
            if_false]
          refine ⟨hOpen', hInner.shown, hInner.entered, ?_, ?_⟩
          · rintro run' (hTurn | hTurn)
            · cases hTurn
            · obtain rfl : within a token i next inner' = run' := by
                simpa using hTurn
              exact hInner.silent inner' (.inr rfl)
          · intro e hEntry j hCallee
            obtain ⟨run', t, hTurn, -⟩ :=
              hInner.next e hEntry j hCallee
            cases hTurn
      | done o =>
          have hReleased := Scene.open_release inner.token hOpen'
          simp only [enclose]
          refine ⟨?_, ?_, ?_, ?_, ?_⟩
          · simpa using hReleased
          · rw [effects_after, effects_resume,
              Effect.shown_append _ hWithin hOutcomes,
              Effect.shown_ofResult, List.append_nil]
            exact hInner.shown
          · rw [effects_after, effects_resume,
              Effect.entered_append, Effect.entered_ofResult,
              List.append_nil]
            exact hInner.entered
          · intro run' hTurn
            rw [isSilent_of_resume hTurn]
            exact hInner.isSilent_of_done.symm
          · intro e hEntry j hCallee
            obtain ⟨run', t, hTurn, -⟩ :=
              hInner.next e hEntry j hCallee
            cases hTurn

end Run

------------------------------------------------------------
-- All Steps
------------------------------------------------------------

namespace Performance

variable {W K : Type} {k : ActionKind}

/- The node that is entered as something happens, if any. -/
def enters? (p : Performance W K k) : Cue W k → Option (Entry k)
  | .step now =>
      (p.execution.run.bind fun run => run.upcoming? now id).filter
        fun e => !p.execution.scene.tokens.isCancelled e.token
  | _ => none

/- The nodes that are entered as things happen in turn. -/
def entries
    (x : Sender W K)
    (p : Performance W K k) : List (Cue W k) → List (Entry k)
  | [] => []
  | cue :: cues =>
      (p.enters? cue).toList ++ (p.next x cue).entries x cues

/-
  What has been entered so far, and shown for it.  The run
  knows what it is to enter next, if that is settled.
-/
structure Showing
    (a : Action k)
    (p : Performance W K k)
    (es : List (Entry k)) : Prop where
  attends : p.Attends
  resolves : p.Resolves
  isOpen : p.execution.scene.Open
  shown :
    Effect.shown p.effects =
      (Entry.heard es).filterMap Entry.shown?
  entered : Effect.entered p.effects = es.map Entry.token
  silent :
    ∀ run ∈ p.execution.run, run.isSilent = es.all Entry.calls
  first :
    ∀ e ∈ es.head?, ∃ now, e = .first a id Scene.root now
  chain : es.IsChain Entry.LeadsTo
  unentered :
    es = [] →
      ∃ run ∈ p.execution.run,
        ∀ now,
          run.upcoming? now id = some (.first a id Scene.root now)
  called :
    ∀ e ∈ es.getLast?, ∀ i ∈ e.node.callee?,
      ∃ run ∈ p.execution.run, ∃ token,
        ∀ now, run.upcoming? now id = some (e.inside i token now)

/- At the start the preview is shown. -/
theorem showing_start
    {a : Action k}
    (hPlain : a.Plain)
    (w : W) :
    Showing a (start (K := K) a w) [] where
  attends := attends_start hPlain w
  resolves := rfl
  isOpen := by
    intro t
    cases t <;> rfl
  shown := rfl
  entered := rfl
  silent := by
    rintro run ⟨rfl⟩
    rfl
  first := by simp
  chain := .nil
  unentered := fun _ => ⟨_, rfl, fun _ => rfl⟩
  called := by simp

/- What a step of an action is made of that still runs. -/
theorem next_step_of_run
    (x : Sender W K)
    {p : Performance W K k}
    {run : Run K k}
    (now : Nat)
    (hRun : p.execution.run = some run) :
    let q := p.next x (.step now)
    let step := run.tell x now id p.execution.scene p.world
    q.execution.scene.tokens = step.1.2.1.tokens ∧
    (∀ run',
      run' ∈ q.execution.run ↔
        step.1.1 = .go run' ∨ step.1.1 = .wait run') ∧
    ∃ ds,
      q.effects = p.effects ++ (step.2 ++ ds) ∧
      Effect.shown ds = [] ∧
      Effect.entered ds = [] := by
  intro q step
  rcases hTell : run.tell x now id p.execution.scene p.world with
    ⟨⟨run' | run' | o, sc', w'⟩, es⟩ <;>
    simp only [q, step, next, Execution.step, Execution.effects,
      Execution.tell, hRun, hTell]
  · exact ⟨trivial, by simp, [], by simp, rfl, rfl⟩
  · exact ⟨trivial, by simp, [], by simp, rfl, rfl⟩
  · exact ⟨trivial, by simp, [.resolve o], by simp, rfl, rfl⟩

/- The next poll enters what is upcoming. -/
theorem enters?_of_run
    {p : Performance W K k}
    {run : Run K k}
    (now : Nat)
    (hRun : p.execution.run = some run)
    (hOpen : p.execution.scene.Open) :
    p.enters? (.step now) = run.upcoming? now id := by
  cases hEntry : run.upcoming? now id <;>
    simp [enters?, hRun, hEntry, hOpen _]

section showing

variable {x : Sender W K} {a : Action k}
variable {p : Performance W K k} {es : List (Entry k)}

/- First comes the start of the action. -/
theorem Showing.upcoming_first
    {run : Run K k}
    (hShowing : Showing a p [])
    (hRun : p.execution.run = some run)
    (now : Nat) :
    run.upcoming? now id = some (.first a id Scene.root now) := by
  obtain ⟨_, hSame, hFirst⟩ := hShowing.unentered rfl
  obtain rfl := Option.some.inj (hRun.symm.trans hSame)
  exact hFirst now

/- After a call comes the start of the action called. -/
theorem Showing.upcoming_inside
    {run : Run K k}
    {e : Entry k}
    {i : e.action.plan.Child}
    (hShowing : Showing a p es)
    (hRun : p.execution.run = some run)
    (hLast : e ∈ es.getLast?)
    (hCallee : i ∈ e.node.callee?) :
    ∃ token,
      ∀ now, run.upcoming? now id = some (e.inside i token now) := by
  obtain ⟨_, hSame, hInside⟩ := hShowing.called e hLast i hCallee
  obtain rfl := Option.some.inj (hRun.symm.trans hSame)
  exact hInside

/- A step enters the node that is due, and shows it. -/
theorem Showing.next_step
    {now : Nat}
    (hShowing : Showing a p es)
    (hUncancelled : .cancel ∉ (p.next x (.step now)).effects) :
    Showing a (p.next x (.step now))
      (es ++ (p.enters? (.step now)).toList) := by
  cases hRun : p.execution.run with
  | none =>
      have hEntry : p.enters? (.step now) = none := by
        simp [enters?, hRun]
      rw [next_step_of_ended x hRun, hEntry]
      simpa using hShowing
  | some run =>
      obtain ⟨hTokens, hLater, ds, hEffects, hNoneShown,
        hNoneEntered⟩ := next_step_of_run x now hRun
      rw [hEffects, List.mem_append, List.mem_append, not_or,
        not_or] at hUncancelled
      have hShows := run.tell_shows x now id p.world
        (hShowing.attends.plain run hRun) hShowing.isOpen
        hUncancelled.2.1
      have hSilent := hShowing.silent run hRun
      have hOutcomes : Effect.outcomes p.effects = [] := by
        have hResolves := hShowing.resolves
        unfold Resolves at hResolves
        rwa [hRun, Option.isNone_some, if_neg Bool.false_ne_true,
          List.length_eq_zero_iff] at hResolves
      have hStepOutcomes :=
        run.outcomes_effects x now id p.execution.scene p.world
      rw [enters?_of_run now hRun hShowing.isOpen]
      refine ⟨hShowing.attends.next_step now,
        hShowing.resolves.next _, ?isOpen, ?shown, ?entered, ?silent,
        ?first, ?chain, ?unentered, ?called⟩
      case isOpen =>
        intro t
        rw [hTokens]
        exact hShows.isOpen t
      case shown =>
        rw [hEffects, Effect.shown_append _ hUncancelled.1 hOutcomes,
          Effect.shown_append _ hUncancelled.2.1 hStepOutcomes,
          hNoneShown, List.append_nil, hShowing.shown, hShows.shown,
          hSilent, Entry.heard_append_toList]
        cases es.all Entry.calls <;> simp
      case entered =>
        rw [hEffects, Effect.entered_append, Effect.entered_append,
          hNoneEntered, List.append_nil, hShowing.entered,
          hShows.entered, List.map_append]
      case silent =>
        intro run' hRun'
        rw [hShows.silent run' ((hLater run').mp hRun'), hSilent,
          List.all_append]
      case first =>
        cases es with
        | nil => simp [hShowing.upcoming_first hRun now]
        | cons e es => exact hShowing.first
      case chain =>
        rw [List.isChain_append]
        refine ⟨hShowing.chain, ?_, ?_⟩
        · cases run.upcoming? now id <;> simp
        · intro e hLast e' hEntry i hCallee
          obtain ⟨token, hInside⟩ :=
            hShowing.upcoming_inside hRun hLast hCallee
          refine ⟨token, now, ?_⟩
          simpa [hInside now] using hEntry.symm
      case unentered =>
        intro hNil
        obtain ⟨rfl, hNone⟩ := List.append_eq_nil_iff.mp hNil
        simp [hShowing.upcoming_first hRun now] at hNone
      case called =>
        intro e hLast i hCallee
        cases hEntry : run.upcoming? now id with
        | none =>
            rw [hEntry, Option.toList_none, List.append_nil] at hLast
            obtain ⟨token, hInside⟩ :=
              hShowing.upcoming_inside hRun hLast hCallee
            rw [hInside now] at hEntry
            cases hEntry
        | some e' =>
            obtain rfl : e' = e := by simpa [hEntry] using hLast
            obtain ⟨run', token, hGo, hInside⟩ :=
              hShows.next e' hEntry i hCallee
            exact ⟨run', (hLater run').mpr (.inl hGo), token,
              hInside⟩

/- One cue enters one node at most. -/
theorem Showing.next
    {cue : Cue W k}
    (hShowing : Showing a p es)
    (hOwn : cue.IsOwn)
    (hUncancelled : .cancel ∉ (p.next x cue).effects) :
    Showing a (p.next x cue) (es ++ (p.enters? cue).toList) := by
  cases cue with
  | step now => exact hShowing.next_step hUncancelled
  | cancel => simp [Performance.next] at hUncancelled
  | outside f =>
      have hEntry : p.enters? (.outside f) = none := rfl
      rw [hEntry, Option.toList_none, List.append_nil]
      exact ⟨hShowing.attends.next hOwn, hShowing.resolves.next _,
        hShowing.isOpen, hShowing.shown, hShowing.entered,
        hShowing.silent, hShowing.first, hShowing.chain,
        hShowing.unentered, hShowing.called⟩
  | report token i => exact hOwn.elim
  | cut token => exact hOwn.elim

/- So the nodes are entered one after another. -/
theorem Showing.run
    {cues : List (Cue W k)}
    (hShowing : Showing a p es)
    (hOwn : ∀ cue ∈ cues, cue.IsOwn)
    (hUncancelled : .cancel ∉ (p.run x cues).effects) :
    Showing a (p.run x cues) (es ++ p.entries x cues) := by
  induction cues generalizing p es with
  | nil => simpa [entries] using hShowing
  | cons cue cues ih =>
      rw [List.forall_mem_cons] at hOwn
      have hFirst : .cancel ∉ (p.next x cue).effects := by
        obtain ⟨ds, hEffects, -⟩ := (p.next x cue).run_log x cues
        intro hCancel
        apply hUncancelled
        rw [run_cons, hEffects]
        exact List.mem_append_left ds hCancel
      rw [entries, ← List.append_assoc]
      exact ih (hShowing.next hOwn.1 hFirst) hOwn.2 hUncancelled

end showing

/- What a run shows is what its effects show. -/
theorem filterMap_progress?_states_run
    (x : Sender W K)
    (a : Action k)
    (w : W)
    (cues : List (Cue W k)) :
    let p : Performance W K k := (start a w).run x cues
    p.states.filterMap ActionState.progress? =
      a.preview :: Effect.shown p.effects := by
  intro p
  have hLast :
      (Effect.verdict p.effects).toList.filterMap
        ActionState.progress? = [] := by
    cases hVerdict : Effect.verdict p.effects with
    | none => rfl
    | some s =>
        have hTerminal := Effect.isTerminal_of_verdict hVerdict
        cases s with
        | pending i => cases hTerminal
        | _ => rfl
  rw [show p.states = _ from states_run x a w cues,
    List.filterMap_append, hLast, List.append_nil]
  exact ActionState.filterMap_progress?_pending
    (a.preview :: Effect.shown p.effects)

/-
  As long as nobody cancels, an action shows its first state,
  and then each call that is entered, at any depth, in this
  order and once.  The first entry is not shown again, nor is
  the first one of an action that it calls, and so on.  What
  calls nothing is not shown at all.
-/
theorem run_shows
    (x : Sender W K)
    {a : Action k}
    (w : W)
    {cues : List (Cue W k)}
    (hPlain : a.Plain)
    (hOwn : ∀ cue ∈ cues, cue.IsOwn)
    (hUncancelled :
      .cancel ∉
        ((start a w).run x cues : Performance W K k).effects) :
    let p : Performance W K k := (start a w).run x cues
    let es := (start (K := K) a w).entries x cues
    Effect.entered p.effects = es.map Entry.token ∧
    (∀ e ∈ es.head?, ∃ now, e = .first a id Scene.root now) ∧
    es.IsChain Entry.LeadsTo ∧
    p.states.filterMap ActionState.progress? =
      a.preview :: (Entry.heard es).filterMap Entry.shown? := by
  intro p es
  have hShowing : Showing a p ([] ++ es) :=
    (showing_start hPlain w).run hOwn hUncancelled
  rw [List.nil_append] at hShowing
  refine ⟨hShowing.entered, hShowing.first, hShowing.chain, ?_⟩
  rw [← hShowing.shown]
  exact filterMap_progress?_states_run x a w cues

end Performance

------------------------------------------------------------
-- One Action Run Twice by Another
------------------------------------------------------------

namespace Twice

/- What is shown is a path to a state. -/
abbrev Kind : ActionKind where
  Progress := List Nat
  Output := Unit
  Error := Empty

/- Wait, go on, and wait again. -/
def inner : Action Kind :=
  .mk {
    State := Nat
    start := 0
    view := fun s => [s]
    act := fun _ s =>
      match s with
      | 0 => .invoke 0 (.wait 1 fun _ => 1)
      | 1 => .decide 2
      | 2 => .invoke 2 (.wait 1 fun _ => 3)
      | _ => .finish (.completed ())
    work := fun _ t => nomatch t
    lift := fun i => nomatch i }
    fun i => nomatch i

/- Run the other action from the start, and once more. -/
def outer : Action Kind :=
  .mk {
    State := Nat
    Child := Unit
    start := 0
    view := fun s => [s]
    act := fun _ s =>
      match s with
      | 0 => .invoke 0 (.child () fun _ _ => 1)
      | 1 => .invoke 1 (.child () fun _ _ => 2)
      | _ => .finish (.completed ())
    work := fun _ t => nomatch t
    lift := fun _ shown => 9 :: shown }
    fun _ => inner

/- No task is called at any depth. -/
theorem plain_outer : outer.Plain := by
  constructor
  · intro now s here t
    exact t.elim
  · intro i
    constructor
    · intro now s here t
      exact t.elim
    · intro i
      exact i.elim

def cues : List (Cue Unit Kind) :=
  (List.range 16).map .step

/-
  The other action runs twice.  The first time its first
  state is not shown, since the action around it has shown
  its own before it began; the second time it is.
-/
theorem outer_shows :
    let p : Performance Unit Unit Kind :=
      (Performance.start outer ()).run Unheard.sender cues
    let es :=
      (Performance.start (K := Unit) outer ()).entries
        Unheard.sender cues
    outer.Plain ∧
    (∀ cue ∈ cues, cue.IsOwn) ∧
    .cancel ∉ p.effects ∧
    es.map Entry.token = [0, 1, 1, 1, 1, 0, 2, 2, 2, 2, 0] ∧
    p.states.filterMap ActionState.progress? =
      [[0], [9, 2], [1], [9, 0], [9, 2]] := by
  intro p es
  have hOwn : ∀ cue ∈ cues, cue.IsOwn := by
    simp [cues, Cue.IsOwn]
  have hEffects :
      p.effects =
        [ .enter 0, .enter 1, .route 1, .enter 1, .enter 1,
          .report [9, 2], .route 1, .enter 1, .route 0, .enter 0,
          .report [1], .enter 2, .report [9, 0], .route 2,
          .enter 2, .enter 2, .report [9, 2], .route 2, .enter 2,
          .route 0, .enter 0, .resolve (.completed ()) ] :=
    rfl
  have hUncancelled : .cancel ∉ p.effects := by simp [hEffects]
  have hShows :=
    Performance.run_shows Unheard.sender () plain_outer hOwn
      hUncancelled
  exact ⟨plain_outer, hOwn, hUncancelled, rfl, hShows.2.2.2⟩

end Twice

end DeviceSession
