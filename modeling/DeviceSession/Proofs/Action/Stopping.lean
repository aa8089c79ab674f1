import DeviceSession.Action.OpenApp
import DeviceSession.Proofs.Action.Ending
import DeviceSession.Proofs.Action.Tokens

/-
  How a cancelled action stops.

  The tokens of the actions that run within one another form
  a line.  A cancellation goes down all of it.  Each of the
  actions then drops what becomes of its call, and the whole
  run ends at its next step, with nothing done but that.

  This holds of actions that make no use of tasks.  A task
  may do what it likes after it has been cancelled.

  Key definitions include:
    * `Action.Plain`
    * `Run.Plain`
    * `Run.tokens`
    * `Effect.IsQuiet`

  Main declarations:
    * `Run.tell_line`
    * `Run.tell_of_cancelled`
    * `Run.step_quiet`
    * `Performance.run_stops`
-/

------------------------------------------------------------
-- Plain Actions
------------------------------------------------------------

namespace DeviceSession

/- An action that makes no use of tasks, at any depth. -/
inductive Action.Plain : {k : ActionKind} → Action k → Prop
  | mk {k : ActionKind}
      {plan : Plan k}
      {child : (i : plan.Child) → Action (plan.kind i)}
      (taskless :
        ∀ now s here t, plan.act now s ≠ .invoke here (.task t))
      (children : ∀ i, (child i).Plain) :
      Plain (.mk plan child)

namespace Action.Plain

variable {k : ActionKind} {a : Action k}

/- A plain plan calls for no task. -/
theorem act_ne
    (hPlain : a.Plain)
    (now : Nat)
    (s here : a.plan.State)
    (t : a.plan.Task) :
    a.plan.act now s ≠ .invoke here (.task t) := by
  cases hPlain with
  | mk taskless children => exact taskless now s here t

/- Nor do the actions that it runs. -/
theorem child
    (hPlain : a.Plain)
    (i : a.plan.Child) :
    (a.child i).Plain := by
  cases hPlain with
  | mk taskless children => exact children i

end Action.Plain

/- None of the actions for the dashboard has a task. -/
theorem Action.plain_status (p : Status.Patience) :
    (Action.status p).Plain := by
  constructor
  · intro now s here t
    exact t.elim
  · intro i
    exact i.elim

/- Two of them send commands only. -/
theorem Action.plain_toDashboard : Action.toDashboard.Plain := by
  constructor
  · intro now s here t
    exact t.elim
  · intro i
    exact i.elim

/- The third runs those two. -/
theorem Action.plain_openWith
    (name : String)
    (c : Command OpenAppError Unit)
    (p : Status.Patience) :
    (Action.openWith name c p).Plain := by
  constructor
  · intro now s here t
    exact t.elim
  · intro i
    cases i with
    | status => exact Action.plain_status p
    | toDashboard => exact Action.plain_toDashboard

------------------------------------------------------------
-- Runs and Their Tokens
------------------------------------------------------------

namespace Run

variable {W K : Type} {k r : ActionKind}

/- A run of a plain action, with no task under way. -/
def Plain {k : ActionKind} : Run K k → Prop
  | here a _ _ stage => a.Plain ∧ ∀ t, stage ≠ .working t
  | within a _ _ _ inner => a.Plain ∧ inner.Plain

/- The tokens of a run and of those within it, in turn. -/
def tokens {k : ActionKind} : Run K k → List Nat
  | here _ t _ _ => [t]
  | within _ t _ _ inner => t :: inner.tokens

end Run

/- A cancellation leaves the line of tokens. -/
theorem Scene.line_cancelIf
    {r : ActionKind}
    {sc : Scene r}
    {ts : List Nat}
    (hLine : sc.tokens.Line ts)
    (wanted : Bool) :
    (sc.cancelIf wanted).tokens.Line ts := by
  cases wanted with
  | false => exact hLine
  | true => exact hLine.closes (sc.tokens.closes_cancel root)

namespace Run

variable {W K : Type} {k r : ActionKind}

------------------------------------------------------------
-- Lines of Tokens
------------------------------------------------------------

/-
  A step leaves a run with its token, or none, on a line
  with the tokens around it.
-/
def Result.LeavesLine
    (around : List Nat)
    (token : Nat) : Result W K k r → Prop
  | (.go run, sc, _) =>
      run.token = token ∧ sc.tokens.Line (around ++ run.tokens)
  | (.wait run, sc, _) =>
      run.token = token ∧ sc.tokens.Line (around ++ run.tokens)
  | (.done _, sc, _) => sc.tokens.Line (around ++ [token])

section line

variable {around : List Nat} {a : Action k} {token : Nat}
variable {sc : Scene r}

/- A run that goes on is at the end of its line. -/
theorem resume_line
    (s : a.plan.State)
    (w : W)
    (hLine : sc.tokens.Line (around ++ [token])) :
    Result.LeavesLine around token
      (resume (K := K) a token s sc w).1 := by
  unfold resume
  split
  · exact hLine
  · exact ⟨rfl, hLine⟩

/- So is one that waits. -/
theorem hold_line
    (x : Sender W K)
    (stage : Stage a.plan.State a.plan.Task K)
    (w : W)
    (hLine : sc.tokens.Line (around ++ [token])) :
    (hold x a token stage sc w).LeavesLine around token := by
  unfold hold
  split
  · exact hLine
  · exact ⟨rfl, hLine⟩

/- A call is made on the line; a child makes it longer. -/
theorem makeCall_line
    (x : Sender W K)
    (now : Nat)
    (silent : Bool)
    (w : W)
    (call :
      Call a.plan.State a.plan.Task a.plan.Child a.plan.kind)
    (hLine : sc.tokens.Line (around ++ [token])) :
    Result.LeavesLine around token
      (makeCall x now a token silent sc w call).1 := by
  cases call with
  | send apdu options next =>
      exact ⟨rfl, Scene.line_cancelIf hLine _⟩
  | wait ms next => exact ⟨rfl, hLine⟩
  | task t => exact ⟨rfl, hLine⟩
  | child i next => exact ⟨rfl, hLine.child⟩

/- An action that acts stays on its line. -/
theorem act_line
    (x : Sender W K)
    (now : Nat)
    (up : k.Progress → r.Progress)
    (silent : Bool)
    (s : a.plan.State)
    (w : W)
    (hLine : sc.tokens.Line (around ++ [token])) :
    Result.LeavesLine around token
      (act x now up a token silent s sc w).1 := by
  unfold act
  split
  · exact hLine
  · cases a.plan.act now s with
    | decide next => exact ⟨rfl, hLine⟩
    | finish o => exact hLine
    | invoke s call =>
        cases silent with
        | true => exact makeCall_line x now true w call hLine
        | false =>
            apply makeCall_line x now false w call
            simpa using hLine

/- So does one with a task. -/
theorem taskStep_line
    (x : Sender W K)
    (now : Nat)
    (up : k.Progress → r.Progress)
    (stage : TaskStage a.plan.Task K)
    (w : W)
    (hLine : sc.tokens.Line (around ++ [token])) :
    Result.LeavesLine around token
      (taskStep x now up a token stage sc w).1 := by
  cases stage with
  | ready t =>
      simp only [taskStep]
      cases a.plan.work now t with
      | send apdu options next =>
          exact ⟨rfl, Scene.line_cancelIf hLine _⟩
      | report progress next =>
          refine ⟨rfl, ?_⟩
          rw [Scene.tokens_report]
          exact hLine
      | finish s => exact resume_line s w hLine
      | _ => exact ⟨rfl, hLine⟩
  | sending key next =>
      simp only [taskStep]
      rcases x.poll now key w with ⟨_ | answer, cancels, w'⟩
      · exact hold_line x _ w' (Scene.line_cancelIf hLine cancels)
      · exact ⟨rfl, Scene.line_cancelIf hLine cancels⟩
  | sleeping due next =>
      simp only [taskStep]
      split
      · exact ⟨rfl, hLine⟩
      · exact hold_line x _ w hLine
  | held next =>
      simp only [taskStep]
      split
      · exact ⟨rfl, hLine⟩
      · exact hold_line x _ w hLine

/- So it does at any stage. -/
theorem stageStep_line
    (x : Sender W K)
    (now : Nat)
    (up : k.Progress → r.Progress)
    (silent : Bool)
    (stage : Stage a.plan.State a.plan.Task K)
    (w : W)
    (hLine : sc.tokens.Line (around ++ [token])) :
    Result.LeavesLine around token
      (stageStep x now up a token silent stage sc w).1 := by
  cases stage with
  | ready s => exact act_line x now up silent s w hLine
  | sending key next =>
      simp only [stageStep]
      rcases x.poll now key w with ⟨_ | answer, cancels, w'⟩
      · exact hold_line x _ w' (Scene.line_cancelIf hLine cancels)
      · exact resume_line _ w' (Scene.line_cancelIf hLine cancels)
  | waiting due next =>
      simp only [stageStep]
      split
      · exact resume_line _ w hLine
      · exact hold_line x _ w hLine
  | working t => exact taskStep_line x now up t w hLine

end line

/- Giving up a run releases tokens and cancels none. -/
@[simp]
theorem isCancelled_abandon
    (x : Sender W K)
    (run : Run K k)
    (f : TokenForest)
    (w : W)
    (t : Nat) :
    (run.abandon x f w).1.isCancelled t = f.isCancelled t := by
  induction run with
  | here a token silent stage => simp [abandon]
  | within a token i next inner ih => simp [abandon, ih]

/- The first token of a run is its own. -/
theorem head?_tokens (run : Run K k) :
    run.tokens.head? = some run.token := by
  cases run <;> rfl

/- The tokens of a run that is given up leave the line. -/
theorem abandon_line
    (x : Sender W K)
    (run : Run K k)
    {f : TokenForest}
    {around : List Nat}
    (w : W)
    (hLine : f.Line (around ++ run.tokens)) :
    (run.abandon x f w).1.Line around := by
  induction run generalizing around with
  | here a t silent stage => exact hLine.release
  | within a t i next inner ih =>
      rw [tokens, List.append_cons] at hLine
      exact (ih hLine).release

/- A step keeps the line of the tokens of a run. -/
theorem tell_line
    (x : Sender W K)
    (now : Nat)
    (run : Run K k)
    (up : k.Progress → r.Progress)
    {sc : Scene r}
    {around : List Nat}
    (w : W)
    (hLine : sc.tokens.Line (around ++ run.tokens)) :
    Result.LeavesLine around run.token
      (run.tell x now up sc w).1 := by
  induction run generalizing around with
  | here a token silent stage =>
      exact stageStep_line x now up silent stage w hLine
  | within a token i next inner ih =>
      rw [tokens, List.append_cons] at hLine
      have hInner := ih (up ∘ a.plan.lift i) hLine
      rw [tell]
      rcases hTell :
          inner.tell x now (up ∘ a.plan.lift i) sc w with
        ⟨⟨turn, sc', w'⟩, ds⟩
      rw [hTell] at hInner
      cases turn with
      | go inner' =>
          refine ⟨rfl, ?_⟩
          rw [tokens, List.append_cons]
          exact hInner.2
      | wait inner' =>
          simp only [enclose]
          split
          · exact abandon_line x inner' w' hInner.2
          · refine ⟨rfl, ?_⟩
            rw [tokens, List.append_cons]
            exact hInner.2
      | done o =>
          exact resume_line _ w' hInner.release

end Run

------------------------------------------------------------
-- Quiet after a Cancellation
------------------------------------------------------------

namespace Effect

variable {r : ActionKind}

/- An effect that touches neither the action nor the device. -/
def IsQuiet (d : Effect r) : Prop :=
  d = cancel ∨ d = resolve .stopped

/- After a cancellation there are quiet effects only. -/
def Quiet (ds : List (Effect r)) : Prop :=
  ∀ es fs, ds = es ++ cancel :: fs → ∀ d ∈ fs, d.IsQuiet

/- Quiet effects hand in nothing. -/
theorem commands_of_quiet
    {ds : List (Effect r)}
    (hQuiet : ∀ d ∈ ds, d.IsQuiet) :
    commands ds = [] := by
  apply List.filterMap_eq_nil_iff.mpr
  intro d hMem
  rcases hQuiet d hMem with rfl | rfl <;> rfl

/- What has no cancellation is quiet after each of them. -/
theorem quiet_of_not_mem
    {ds : List (Effect r)}
    (hUncancelled : cancel ∉ ds) :
    Quiet ds := by
  rintro es fs rfl
  simp at hUncancelled

/- So is what is quiet throughout. -/
theorem quiet_of_forall
    {ds : List (Effect r)}
    (hQuiet : ∀ d ∈ ds, d.IsQuiet) :
    Quiet ds := by
  rintro es fs rfl d hMem
  exact hQuiet d (by simp [hMem])

/- Effects one after another; once cancelled, all is quiet. -/
theorem quiet_append
    {ds es : List (Effect r)}
    (hBefore : Quiet ds)
    (hAfter : Quiet es)
    (hCancelled : cancel ∈ ds → ∀ d ∈ es, d.IsQuiet) :
    Quiet (ds ++ es) := by
  intro fs gs hSplit d hMem
  rcases List.append_eq_append_iff.mp hSplit with
    ⟨hs, rfl, hRest⟩ | ⟨hs, rfl, hRest⟩
  · exact hAfter hs gs hRest d hMem
  · cases hs with
    | nil => exact hAfter [] gs hRest.symm d hMem
    | cons e hs =>
        obtain ⟨rfl, rfl⟩ := List.cons_eq_cons.mp hRest
        rcases List.mem_append.mp hMem with hEarly | hLate
        · exact hBefore fs hs rfl d hEarly
        · exact hCancelled (by simp) d hLate

/- A cancellation is noted if it is wished for. -/
@[simp]
theorem cancel_mem_ofCancel (wanted : Bool) :
    (cancel : Effect r) ∈ ofCancel wanted ↔ wanted = true := by
  cases wanted <;> simp [ofCancel]

/- To report is not to cancel. -/
@[simp]
theorem cancel_not_mem_ofReport
    (sc : Scene r)
    (token : Nat)
    (i : r.Progress) :
    cancel ∉ ofReport sc token i := by
  unfold ofReport
  split <;> simp

/- Nor is to take a result. -/
@[simp]
theorem cancel_not_mem_ofResult
    (sc : Scene r)
    (token : Nat) :
    cancel ∉ ofResult sc token := by
  unfold ofResult
  split <;> simp

/- Nothing follows a cancellation alone. -/
theorem quiet_ofCancel (wanted : Bool) :
    Quiet (ofCancel (r := r) wanted) := by
  intro es fs hSplit d hMem
  have hLength := congrArg List.length hSplit
  have hPos : 0 < fs.length := List.length_pos_of_mem hMem
  have hShort : (ofCancel (r := r) wanted).length ≤ 1 := by
    cases wanted <;> simp [ofCancel]
  simp only [List.length_append, List.length_cons] at hLength
  omega

end Effect

------------------------------------------------------------
-- A Cancelled Line
------------------------------------------------------------

namespace TokenForest

variable {f : TokenForest} {ts : List Nat}

/- Only tokens that exist can be cancelled. -/
theorem lt_size_of_isCancelled
    {t : Nat}
    (hCancelled : f.isCancelled t = true) :
    t < f.tokens.size := by
  by_contra hOutside
  simp [isCancelled, hOutside] at hCancelled

/- On a line, all tokens follow the first. -/
theorem Line.isCancelled_of_head
    {t : Nat}
    (hLine : f.Line ts)
    (hHead : ts.head? = some t)
    (hCancelled : f.isCancelled t = true) :
    ∀ u ∈ ts, f.isCancelled u = true := by
  obtain ⟨us, rfl⟩ := List.head?_eq_some_iff.mp hHead
  exact hLine.isCancelled hCancelled

end TokenForest

namespace Scene

variable {r : ActionKind} {sc : Scene r}

/- What has been cancelled stays so. -/
theorem isCancelled_cancelIf
    {t : Nat}
    (wanted : Bool)
    (hCancelled : sc.tokens.isCancelled t = true) :
    (sc.cancelIf wanted).tokens.isCancelled t = true := by
  cases wanted with
  | false => exact hCancelled
  | true =>
      exact (sc.tokens.closes_cancel root).cancelled t hCancelled

/- A cancellation reaches every token of a line. -/
theorem isCancelled_cancel
    {ts : List Nat}
    (hLine : sc.tokens.Line ts)
    (hHead : ts.head? = some root) :
    ∀ t ∈ ts, sc.cancel.tokens.isCancelled t = true := by
  have hHeld : sc.tokens.isHeld root = true :=
    hLine.held root (List.mem_of_mem_head? hHead)
  have hLater : sc.cancel.tokens.Line ts :=
    hLine.closes (sc.tokens.closes_cancel root)
  exact hLater.isCancelled_of_head hHead
    (TokenForest.isCancelled_cancel
      (TokenForest.lt_size_of_isHeld hHeld))

end Scene

namespace Run

variable {W K : Type} {k r : ActionKind}

/-
  A run whose tokens are all cancelled ends at its next step.
  All that can happen then is that it is cancelled again.
-/
theorem tell_of_cancelled
    (x : Sender W K)
    (now : Nat)
    (run : Run K k)
    (up : k.Progress → r.Progress)
    {sc : Scene r}
    (w : W)
    (hPlain : run.Plain)
    (hCancelled :
      ∀ t ∈ run.tokens, sc.tokens.isCancelled t = true) :
    ∃ sc' w' ds,
      run.tell x now up sc w = ((.done .stopped, sc', w'), ds) ∧
      (∀ t, sc.tokens.isCancelled t = true →
        sc'.tokens.isCancelled t = true) ∧
      ∀ d ∈ ds, d = .cancel := by
  induction run with
  | here a token silent stage =>
      have hToken : sc.tokens.isCancelled token = true :=
        hCancelled token (by simp [tokens])
      cases stage with
      | ready s =>
          refine ⟨sc, w, [], ?_, fun _ h => h, by simp⟩
          simp [tell, stageStep, act, hToken]
      | waiting due next =>
          refine ⟨sc, w, [], ?_, fun _ h => h, by simp⟩
          by_cases hDue : due ≤ now
          · simp [tell, stageStep, hDue, resume, hToken]
          · simp [tell, stageStep, hDue, hold, withdraw, hToken]
      | sending key next =>
          rcases hPoll : x.poll now key w with
            ⟨answer, cancels, w'⟩
          have hLater :=
            Scene.isCancelled_cancelIf cancels hToken
          have hOnly :
              ∀ d ∈ Effect.ofCancel (r := r) cancels,
                d = .cancel := by
            cases cancels <;> simp [Effect.ofCancel]
          cases answer with
          | none =>
              refine ⟨sc.cancelIf cancels, x.withdraw key w', _,
                ?_, fun _ => Scene.isCancelled_cancelIf cancels,
                hOnly⟩
              simp [tell, stageStep, hPoll, hold, withdraw,
                hLater]
          | some answer =>
              refine ⟨sc.cancelIf cancels, w', _, ?_,
                fun _ => Scene.isCancelled_cancelIf cancels,
                hOnly⟩
              simp [tell, stageStep, hPoll, resume, hLater,
                Told.after]
      | working t => exact absurd rfl (hPlain.2 t)
  | within a token i next inner ih =>
      obtain ⟨sc', w', ds, hTell, hStill, hEffects⟩ :=
        ih (up ∘ a.plan.lift i) hPlain.2
          fun t hMem =>
            hCancelled t (List.mem_cons_of_mem token hMem)
      have hToken : sc'.tokens.isCancelled token = true :=
        hStill token (hCancelled token List.mem_cons_self)
      refine ⟨{ sc' with
        tokens := sc'.tokens.release inner.token }, w', ds, ?_,
        ?_, hEffects⟩
      · simp [tell, hTell, enclose, resume, hToken,
          Told.after]
      · intro t hCancelled
        simpa using hStill t hCancelled

------------------------------------------------------------
-- A Step That May Cancel
------------------------------------------------------------

/-
  A step of a plain run heeds the cancellations that come
  from within it: they reach the first token, and nothing is
  done after them but to stop.
-/
structure Heeds
    (sc : Scene r)
    (t : Told W K k r) : Prop where
  plain :
    ∀ run, t.1.1 = .go run ∨ t.1.1 = .wait run → run.Plain
  reached :
    sc.tokens.isCancelled Scene.root = true ∨ .cancel ∈ t.2 →
      t.1.2.1.tokens.isCancelled Scene.root = true
  quiet : Effect.Quiet t.2
  stopped :
    .cancel ∈ t.2 → ∀ o, t.1.1 = .done o → o = .stopped

section heeds

variable {around : List Nat} {a : Action k} {token : Nat}
variable {sc : Scene r}

/- Effects that are no cancellations may come before. -/
theorem Heeds.after
    {t : Told W K k r}
    (hHeeds : Heeds sc t)
    (es : List (Effect r))
    (hUncancelled : .cancel ∉ es) :
    Heeds sc (t.after es) where
  plain := hHeeds.plain
  reached := by
    intro hBefore
    apply hHeeds.reached
    simpa [hUncancelled] using hBefore
  quiet := by
    apply Effect.quiet_append _ hHeeds.quiet
    · intro hCancelled
      exact absurd hCancelled hUncancelled
    · exact Effect.quiet_of_not_mem hUncancelled
  stopped := by
    intro hCancelled
    apply hHeeds.stopped
    simpa [hUncancelled] using hCancelled

/- It is the tokens of a scene that count. -/
theorem Heeds.of_tokens
    {sc' : Scene r}
    {t : Told W K k r}
    (hTokens : sc'.tokens = sc.tokens)
    (hHeeds : Heeds sc' t) :
    Heeds sc t where
  plain := hHeeds.plain
  reached := hTokens ▸ hHeeds.reached
  quiet := hHeeds.quiet
  stopped := hHeeds.stopped

/- A run that is cancelled on the way, and ends. -/
theorem heeds_cancelled
    (w : W)
    (hLine : sc.tokens.Line (around ++ [token]))
    (hHead : (around ++ [token]).head? = some Scene.root) :
    Heeds sc
      (((.done .stopped, sc.cancel, w), [.cancel]) :
        Told W K k r) where
  plain := by simp
  reached := fun _ =>
    Scene.isCancelled_cancel hLine hHead Scene.root
      (List.mem_of_mem_head? hHead)
  quiet := Effect.quiet_ofCancel true
  stopped := by
    intro _ o hTurn
    simpa using hTurn.symm

/- To go on in a state heeds them: nothing is cancelled. -/
theorem heeds_resume
    (s : a.plan.State)
    (w : W)
    (hPlain : a.Plain) :
    Heeds sc (resume (K := K) a token s sc w) where
  plain := by
    intro run hTurn
    unfold resume at hTurn
    split at hTurn
    · simp at hTurn
    · obtain rfl : here a token false (.ready s) = run := by
        simpa using hTurn
      exact ⟨hPlain, by simp⟩
  reached := by simp
  quiet := Effect.quiet_of_not_mem (by simp)
  stopped := by simp

/- So does to wait. -/
theorem heeds_hold
    (x : Sender W K)
    {stage : Stage a.plan.State a.plan.Task K}
    (w : W)
    (hPlain : a.Plain)
    (hStage : ∀ t, stage ≠ .working t) :
    Heeds sc (hold x a token stage sc w, []) where
  plain := by
    intro run hTurn
    unfold hold at hTurn
    split at hTurn
    · simp at hTurn
    · obtain rfl : here a token false stage = run := by
        simpa using hTurn
      exact ⟨hPlain, hStage⟩
  reached := by simp
  quiet := Effect.quiet_of_not_mem (by simp)
  stopped := by simp

/- A call is made before a cancellation, or not at all. -/
theorem heeds_makeCall
    (x : Sender W K)
    (now : Nat)
    (silent : Bool)
    (w : W)
    (call :
      Call a.plan.State a.plan.Task a.plan.Child a.plan.kind)
    (hPlain : a.Plain)
    (hCall : ∀ t, call ≠ .task t)
    (hLine : sc.tokens.Line (around ++ [token]))
    (hHead : (around ++ [token]).head? = some Scene.root) :
    Heeds sc (makeCall x now a token silent sc w call) := by
  have hRoot : Scene.root ∈ around ++ [token] :=
    List.mem_of_mem_head? hHead
  cases call with
  | send apdu options next =>
      suffices hCancels :
          Heeds sc
            ((makeCall x now a token silent sc w
              (.send apdu options next)).1,
            Effect.ofCancel
              (x.submit now apdu options w).2.1) from
        hCancels.after [.send apdu options] (by simp)
      refine ⟨?_, ?_, Effect.quiet_ofCancel _, ?_⟩
      · rintro run (hTurn | hTurn)
        · obtain rfl : here a token false _ = run := by
            simpa [makeCall] using hTurn
          exact ⟨hPlain, by simp⟩
        · simp [makeCall] at hTurn
      · rintro (hBefore | hCancel)
        · exact Scene.isCancelled_cancelIf _ hBefore
        · rw [Effect.cancel_mem_ofCancel] at hCancel
          simp only [makeCall, hCancel]
          exact Scene.isCancelled_cancel hLine hHead _ hRoot
      · simp [makeCall]
  | wait ms next =>
      refine ⟨?_, by simp [makeCall],
        Effect.quiet_of_not_mem (by simp [makeCall]),
        by simp [makeCall]⟩
      rintro run (hTurn | hTurn)
      · obtain rfl : here a token false _ = run := by
          simpa [makeCall] using hTurn
        exact ⟨hPlain, by simp⟩
      · simp [makeCall] at hTurn
  | task t => exact absurd rfl (hCall t)
  | child i next =>
      refine ⟨?_, ?_, Effect.quiet_of_not_mem (by simp [makeCall]),
        by simp [makeCall]⟩
      · rintro run (hTurn | hTurn)
        · obtain rfl : within a token i next _ = run := by
            simpa [makeCall] using hTurn
          exact ⟨hPlain, hPlain.child i, by simp⟩
        · simp [makeCall] at hTurn
      · rintro (hBefore | hCancel)
        · simp only [makeCall]
          rw [TokenForest.isCancelled_child_of_ne]
          · exact hBefore
          · exact Nat.ne_of_lt
              (TokenForest.lt_size_of_isCancelled hBefore)
        · simp [makeCall] at hCancel

/- An action that finds itself cancelled only stops. -/
theorem heeds_act
    (x : Sender W K)
    (now : Nat)
    (up : k.Progress → r.Progress)
    (silent : Bool)
    (s : a.plan.State)
    (w : W)
    (hPlain : a.Plain)
    (hLine : sc.tokens.Line (around ++ [token]))
    (hHead : (around ++ [token]).head? = some Scene.root) :
    Heeds sc (act x now up a token silent s sc w) := by
  unfold act
  split
  · exact ⟨by simp, by simp, Effect.quiet_of_not_mem (by simp),
      by simp⟩
  · have hAct := hPlain.act_ne now s
    cases hNode : a.plan.act now s with
    | decide next =>
        refine ⟨?_, by simp, Effect.quiet_of_not_mem (by simp),
          by simp⟩
        rintro run (hTurn | hTurn)
        · obtain rfl : here a token false (.ready next) = run := by
            simpa using hTurn
          exact ⟨hPlain, by simp⟩
        · simp at hTurn
    | finish o =>
        exact ⟨by simp, by simp,
          Effect.quiet_of_not_mem (by simp), by simp⟩
    | invoke here call =>
        have hCall : ∀ t, call ≠ .task t := by
          rintro t rfl
          exact hAct here t hNode
        cases silent with
        | true =>
            exact (heeds_makeCall x now true w call hPlain hCall
              hLine hHead).after _ (by simp)
        | false =>
            have hTokens :=
              sc.tokens_report token (up (a.plan.view here))
            apply Heeds.after _ _ (by simp)
            apply Heeds.of_tokens hTokens
            apply heeds_makeCall x now false w call hPlain hCall
              _ hHead
            rw [hTokens]
            exact hLine

/- At any stage but that of a task. -/
theorem heeds_stageStep
    (x : Sender W K)
    (now : Nat)
    (up : k.Progress → r.Progress)
    (silent : Bool)
    (stage : Stage a.plan.State a.plan.Task K)
    (w : W)
    (hPlain : a.Plain)
    (hStage : ∀ t, stage ≠ .working t)
    (hLine : sc.tokens.Line (around ++ [token]))
    (hHead : (around ++ [token]).head? = some Scene.root) :
    Heeds sc
      (stageStep x now up a token silent stage sc w) := by
  have hToken : sc.cancel.tokens.isCancelled token = true :=
    Scene.isCancelled_cancel hLine hHead token (by simp)
  cases stage with
  | ready s =>
      exact heeds_act x now up silent s w hPlain hLine hHead
  | waiting due next =>
      simp only [stageStep]
      split
      · exact heeds_resume _ w hPlain
      · exact heeds_hold x w hPlain (by simp)
  | sending key next =>
      rcases hPoll : x.poll now key w with
        ⟨_ | answer, _ | _, w'⟩ <;>
        simp only [stageStep, hPoll]
      · exact heeds_hold x w' hPlain (by simp)
      · simp only [hold, Scene.cancelIf, hToken, if_true]
        exact heeds_cancelled _ hLine hHead
      · exact heeds_resume _ w' hPlain
      · simp only [resume, Scene.cancelIf, hToken, if_true]
        exact heeds_cancelled _ hLine hHead
  | working t => exact absurd rfl (hStage t)

end heeds

/- One step of a plain run heeds its cancellations. -/
theorem tell_heeds
    (x : Sender W K)
    (now : Nat)
    (run : Run K k)
    (up : k.Progress → r.Progress)
    {sc : Scene r}
    {around : List Nat}
    (w : W)
    (hPlain : run.Plain)
    (hLine : sc.tokens.Line (around ++ run.tokens))
    (hHead : (around ++ run.tokens).head? = some Scene.root) :
    Heeds sc (run.tell x now up sc w) := by
  induction run generalizing around with
  | here a token silent stage =>
      exact heeds_stageStep x now up silent stage w hPlain.1
        hPlain.2 hLine hHead
  | within a token i next inner ih =>
      rw [tokens, List.append_cons] at hLine hHead
      have hInner :=
        ih (up ∘ a.plan.lift i) hPlain.2 hLine hHead
      have hAfter :=
        inner.tell_line x now (up ∘ a.plan.lift i) w hLine
      rw [tell]
      rcases hTell :
          inner.tell x now (up ∘ a.plan.lift i) sc w with
        ⟨⟨turn, sc', w'⟩, ds⟩
      rw [hTell] at hInner hAfter
      cases turn with
      | go inner' =>
          simp only [enclose]
          refine ⟨?_, hInner.reached, hInner.quiet, by simp⟩
          rintro run (hTurn | hTurn)
          · obtain rfl : within a token i next inner' = run := by
              simpa using hTurn
            exact ⟨hPlain.1, hInner.plain inner' (.inl rfl)⟩
          · simp at hTurn
      | wait inner' =>
          simp only [enclose]
          split
          · refine ⟨by simp, ?_, hInner.quiet, ?_⟩
            · intro hBefore
              simpa using hInner.reached hBefore
            · intro _ o hTurn
              simpa using hTurn.symm
          · refine ⟨?_, hInner.reached, hInner.quiet, by simp⟩
            rintro run (hTurn | hTurn)
            · simp at hTurn
            · obtain rfl :
                  within a token i next inner' = run := by
                simpa using hTurn
              exact ⟨hPlain.1, hInner.plain inner' (.inr rfl)⟩
      | done o =>
          -- A cancellation within has reached this action too.
          have hToken :
              .cancel ∈ ds →
                sc'.tokens.isCancelled token = true := by
            intro hCancel
            apply hAfter.isCancelled_of_head _
              (hInner.reached (.inr hCancel)) token (by simp)
            simpa [List.head?_append] using hHead
          let later : Scene r :=
            { sc' with
              tokens := sc'.tokens.release inner.token }
          have hResume :
              Heeds later
                (resume (K := K) a token (next now o) later w') :=
            heeds_resume (next now o) w' hPlain.1
          simp only [enclose]
          refine ⟨hResume.plain, ?_,
            Effect.quiet_append hInner.quiet hResume.quiet ?_, ?_⟩
          · intro hBefore
            simpa using hInner.reached (by simpa using hBefore)
          · intro hCancel
            simp [Effect.ofResult, hToken hCancel]
          · intro hCancel o' hTurn
            replace hCancel := hToken (by simpa using hCancel)
            simpa [resume, hCancel] using hTurn.symm

end Run

------------------------------------------------------------
-- Performances
------------------------------------------------------------

/-
  What may happen to an action that has no tasks: nobody else
  has a token of it, or may show progress for it.
-/
def Cue.IsOwn {W : Type} {k : ActionKind} : Cue W k → Prop
  | step _ => True
  | cancel => True
  | outside _ => True
  | report _ _ => False
  | cut _ => False

namespace Performance

variable {W K : Type} {k : ActionKind}

/-
  A plain run that goes on is on a line of tokens, of which
  the first one tells whether it has been cancelled.  What it
  has done since then is quiet.
-/
structure Attends (p : Performance W K k) : Prop where
  plain : ∀ run ∈ p.execution.run, run.Plain
  first : ∀ run ∈ p.execution.run, run.token = Scene.root
  line :
    ∀ run ∈ p.execution.run,
      p.execution.scene.tokens.Line run.tokens
  cancelled :
    .cancel ∈ p.effects → ∀ run ∈ p.execution.run,
      p.execution.scene.tokens.isCancelled Scene.root = true
  quiet : Effect.Quiet p.effects

/- At the start nothing has been cancelled. -/
theorem attends_start
    {a : Action k}
    (hPlain : a.Plain)
    (w : W) :
    (start (K := K) a w).Attends where
  plain := by
    rintro run ⟨rfl⟩
    exact ⟨hPlain, by simp⟩
  first := by
    rintro run ⟨rfl⟩
    rfl
  line := by
    rintro run ⟨rfl⟩
    refine ⟨?_, List.isChain_singleton _⟩
    intro t hMem
    obtain rfl : t = Scene.root := by
      simpa [Run.start, Run.tokens] using hMem
    rfl
  cancelled := by simp [start]
  quiet := Effect.quiet_of_not_mem (by simp [start])

/- What is added after a cancellation is quiet. -/
theorem Attends.isQuiet_of_append
    {p : Performance W K k}
    {ds es : List (Effect k)}
    (hAttends : p.Attends)
    (hEffects : p.effects = ds ++ es)
    (hCancel : .cancel ∈ ds) :
    ∀ d ∈ es, d.IsQuiet := by
  obtain ⟨fs, gs, rfl⟩ := List.append_of_mem hCancel
  intro d hMem
  apply hAttends.quiet fs (gs ++ es) _ d
  · exact List.mem_append_right gs hMem
  · rw [hEffects, List.append_assoc, List.cons_append]

namespace Attends

variable {x : Sender W K} {p : Performance W K k}

/- The line starts with the first token. -/
theorem head?
    (hAttends : p.Attends)
    {run : Run K k}
    (hRun : run ∈ p.execution.run) :
    run.tokens.head? = some Scene.root := by
  rw [run.head?_tokens, hAttends.first run hRun]

/- Once there has been a cancellation, all are cancelled. -/
theorem isCancelled
    (hAttends : p.Attends)
    (hCancelled : .cancel ∈ p.effects)
    {run : Run K k}
    (hRun : run ∈ p.execution.run) :
    ∀ t ∈ run.tokens,
      p.execution.scene.tokens.isCancelled t = true := by
  exact (hAttends.line run hRun).isCancelled_of_head
    (hAttends.head? hRun)
    (hAttends.cancelled hCancelled run hRun)

/- The next step of a cancelled run is its last one. -/
theorem step_of_cancelled
    (hAttends : p.Attends)
    (hCancelled : .cancel ∈ p.effects)
    (now : Nat) :
    (p.next x (.step now)).execution.run = none ∧
    ∀ d ∈ p.execution.effects x now p.world, d.IsQuiet := by
  cases hRun : p.execution.run with
  | none =>
      simp [next, Execution.step, Execution.effects,
        Execution.tell, hRun]
  | some run =>
      obtain ⟨sc', w', ds, hTell, -, hEffects⟩ :=
        run.tell_of_cancelled x now id p.world
          (hAttends.plain run hRun)
          (hAttends.isCancelled hCancelled hRun)
      constructor
      · simp [next, Execution.step, Execution.tell, hRun, hTell]
      · intro d hMem
        have hMem : d ∈ ds ∨ d = .resolve .stopped := by
          simpa [Execution.effects, Execution.tell, hRun, hTell]
            using hMem
        rcases hMem with hMem | rfl
        · exact .inl (hEffects d hMem)
        · exact .inr rfl

/- A run that goes on after a step, or waits. -/
theorem of_goes
    {run run' : Run K k}
    {sc sc' : Scene k}
    {w' : W}
    {turn : Turn (Run K k) k.Outcome}
    {ds es : List (Effect k)}
    (hQuiet : Effect.Quiet ds)
    (hUncancelled : .cancel ∉ ds)
    (hFirst : run.token = Scene.root)
    (hTurn : turn = .go run' ∨ turn = .wait run')
    (hHeeds : Run.Heeds sc ((turn, sc', w'), es))
    (hAfter :
      run'.token = run.token ∧ sc'.tokens.Line run'.tokens) :
    Performance.Attends ⟨⟨some run', sc'⟩, w', ds ++ es⟩ where
  plain := by
    rintro _ ⟨rfl⟩
    exact hHeeds.plain run' hTurn
  first := by
    rintro _ ⟨rfl⟩
    exact hAfter.1.trans hFirst
  line := by
    rintro _ ⟨rfl⟩
    exact hAfter.2
  cancelled := by
    intro hCancel _ _
    apply hHeeds.reached
    exact .inr (by simpa [hUncancelled] using hCancel)
  quiet :=
    Effect.quiet_append hQuiet hHeeds.quiet
      fun hCancel => absurd hCancel hUncancelled

/- A poll attends to it. -/
theorem next_step
    (hAttends : p.Attends)
    (now : Nat) :
    (p.next x (.step now)).Attends := by
  by_cases hCancelled : .cancel ∈ p.effects
  · have hStep :=
      hAttends.step_of_cancelled (x := x) hCancelled now
    refine ⟨by simp [hStep.1], by simp [hStep.1],
      by simp [hStep.1], by simp [hStep.1], ?_⟩
    exact Effect.quiet_append hAttends.quiet
      (Effect.quiet_of_forall hStep.2) fun _ => hStep.2
  · rcases p with ⟨⟨_ | run, sc⟩, w, ds⟩
    · simpa [Performance.next, Execution.step,
        Execution.effects, Execution.tell] using hAttends
    · have hLine : sc.tokens.Line ([] ++ run.tokens) :=
        hAttends.line run rfl
      have hHeeds := run.tell_heeds x now id w
        (hAttends.plain run rfl) hLine (hAttends.head? rfl)
      have hAfter := run.tell_line x now id w hLine
      have hFirst := hAttends.first run rfl
      rcases hTell : run.tell x now id sc w with
        ⟨⟨run' | run' | o, sc', w'⟩, es⟩ <;>
        rw [hTell] at hHeeds hAfter <;>
        simp only [Performance.next, Execution.step,
          Execution.effects, Execution.tell, hTell]
      · exact of_goes hAttends.quiet hCancelled hFirst
          (.inl rfl) hHeeds hAfter
      · exact of_goes hAttends.quiet hCancelled hFirst
          (.inr rfl) hHeeds hAfter
      · refine ⟨by simp, by simp, by simp, by simp, ?_⟩
        apply Effect.quiet_append hAttends.quiet
        · apply Effect.quiet_append hHeeds.quiet
          · exact Effect.quiet_of_not_mem (by simp)
          · intro hCancel d hMem
            obtain rfl : d = .resolve o := by simpa using hMem
            rw [hHeeds.stopped hCancel o rfl]
            exact .inr rfl
        · intro hCancel
          exact absurd hCancel hCancelled

/- So does a cancellation from outside. -/
theorem next_cancel
    (hAttends : p.Attends) :
    (p.next x .cancel).Attends where
  plain := hAttends.plain
  first := hAttends.first
  line := fun run hRun =>
    (hAttends.line run hRun).closes
      (TokenForest.closes_cancel _ Scene.root)
  cancelled := by
    intro _ run hRun
    apply Scene.isCancelled_cancel (hAttends.line run hRun)
    · exact hAttends.head? hRun
    · exact List.mem_of_mem_head? (hAttends.head? hRun)
  quiet := by
    apply Effect.quiet_append hAttends.quiet
      (Effect.quiet_ofCancel true)
    intro _ d hMem
    exact .inl (by simpa [Effect.ofCancel] using hMem)

/- Whatever the performance goes on with. -/
theorem next
    (hAttends : p.Attends)
    {cue : Cue W k}
    (hOwn : cue.IsOwn) :
    (p.next x cue).Attends := by
  cases cue with
  | step now => exact hAttends.next_step now
  | cancel => exact hAttends.next_cancel
  | outside f =>
      exact ⟨hAttends.plain, hAttends.first, hAttends.line,
        hAttends.cancelled, hAttends.quiet⟩
  | report token i => exact hOwn.elim
  | cut token => exact hOwn.elim

end Attends

/- So it is throughout a run. -/
theorem attends_run
    (x : Sender W K)
    {a : Action k}
    (w : W)
    {cues : List (Cue W k)}
    (hPlain : a.Plain)
    (hOwn : ∀ cue ∈ cues, cue.IsOwn) :
    ((start a w).run x cues : Performance W K k).Attends :=
  run_induction cues (attends_start hPlain w)
    fun _ hAttends cue hMem => hAttends.next (hOwn cue hMem)

/-
  After a cancellation, all actions that still run are
  cancelled, and the next step is the last.  Nothing is
  entered, routed or shown, and nothing is sent.
-/
theorem run_stops
    (x : Sender W K)
    {a : Action k}
    (w : W)
    (cues : List (Cue W k))
    (hPlain : a.Plain)
    (hOwn : ∀ cue ∈ cues, cue.IsOwn) :
    let p : Performance W K k := (start a w).run x cues
    (∀ ds es,
      p.effects = ds ++ .cancel :: es →
      ∀ d ∈ es, d = .cancel ∨ d = .resolve .stopped) ∧
    (.cancel ∈ p.effects →
      (∀ run ∈ p.execution.run, ∀ t ∈ run.tokens,
        p.execution.scene.tokens.isCancelled t = true) ∧
      (∀ now, (p.next x (.step now)).execution.run = none) ∧
      ∀ more, (∀ cue ∈ more, cue.IsOwn) →
        (p.run x more).states = p.states ∧
        ∀ q, p.Tapes q →
          (q.run x.taped (more.map Cue.taped)).world.2 =
            q.world.2) := by
  intro p
  have hAttends : p.Attends := attends_run x w hPlain hOwn
  refine ⟨hAttends.quiet, ?_⟩
  intro hCancel
  refine ⟨fun run hRun => hAttends.isCancelled hCancel hRun,
    fun now => (hAttends.step_of_cancelled hCancel now).1, ?_⟩
  intro more hMore
  constructor
  · apply states_run_of_finished
    rw [isFinished_run]
    exact Effect.isSome_verdict_of_cancel hCancel
  · intro q hTapes
    have hQuiet : (p.run x more).Attends := by
      rw [← run_append]
      apply attends_run x w hPlain
      simpa [or_imp, forall_and] using ⟨hOwn, hMore⟩
    obtain ⟨es, hEffects, -⟩ := p.run_log x more
    have hLater : ∀ d ∈ es, d.IsQuiet :=
      hQuiet.isQuiet_of_append hEffects hCancel
    rw [(hTapes.run more).world, hTapes.world, hEffects,
      Effect.commands_append, Effect.commands_of_quiet hLater,
      List.append_nil]

end Performance

------------------------------------------------------------
-- An Action That Is Left Waiting
------------------------------------------------------------

namespace Unheard

/- A sender that never gets an answer. -/
def sender : Sender Unit Unit where
  submit := fun _ _ _ _ => ((), false, ())
  poll := fun _ _ _ => (none, false, ())
  withdraw := fun _ w => w

def action : Action (DashboardKind Unit) :=
  .openWith "Bitcoin"
    { apdu := .ofHeader 0xe0 0xd8 0 0
      restartsLink := true
      parse := fun _ => .ok () }
    {}

/- The action asks for the status, and is cancelled. -/
def cues : List (Cue Unit (DashboardKind Unit)) :=
  [.step 0, .step 0, .step 0, .cancel]

/- To open an app takes no task, as above. -/
theorem plain_action : action.Plain :=
  Action.plain_openWith _ _ _

/- Both actions are cancelled, and the next step ends them. -/
theorem action_stops :
    let p : Performance Unit Unit (DashboardKind Unit) :=
      (Performance.start action ()).run sender cues
    p.effects =
      [.enter 0, .enter 1,
        .send Command.getApp.apdu Command.getApp.options,
        .cancel] ∧
    p.states = [.pending .none, .stopped] ∧
    (∃ run ∈ p.execution.run,
      run.tokens = [0, 1] ∧
      ∀ t ∈ run.tokens,
        p.execution.scene.tokens.isCancelled t = true) ∧
    (p.next sender (.step 0)).execution.run = none := by
  intro p
  have hEffects :
      p.effects =
        [.enter 0, .enter 1,
          .send Command.getApp.apdu Command.getApp.options,
          .cancel] :=
    rfl
  have hStops := Performance.run_stops sender () cues
    plain_action (by simp [cues, Cue.IsOwn])
  have hCancelled := hStops.2 (by simp [p, hEffects])
  refine ⟨hEffects, rfl, ⟨_, rfl, rfl, ?_⟩, hCancelled.2.1 0⟩
  exact hCancelled.1 _ rfl

end Unheard

end DeviceSession
