import DeviceSession.Proofs.Action.Trace

/-
  Actions that do as other ones do.

  Two plans are alike if their states can be related so that
  related states ask for the same, and what becomes of it
  leads to related states again.  Actions whose plans are
  alike at every depth cannot be told apart: they show the
  same, hand in the same and end alike, whatever happens.

  Key definitions include:
    * `Outline`
    * `Outline.Like`
    * `Action.Like`
    * `Run.Like`
    * `Performance.Like`

  Main declarations:
    * `Run.Like.tell`
    * `Performance.Like.run`
    * `Performance.run_like`
-/

------------------------------------------------------------
-- Outlines
------------------------------------------------------------

namespace DeviceSession

/- A plan without tasks that may run the given actions. -/
structure Outline
    (k : ActionKind)
    (C : Type)
    (kind : C → ActionKind) where
  State : Type
  start : State
  view : State → k.Progress
  act : Nat → State → Node k State Empty C kind
  lift : (i : C) → (kind i).Progress → k.Progress

abbrev Outline.plan
    {k : ActionKind}
    {C : Type}
    {kind : C → ActionKind}
    (o : Outline k C kind) : Plan k where
  State := o.State
  Task := Empty
  Child := C
  kind := kind
  start := o.start
  view := o.view
  act := o.act
  work := fun _ t => nomatch t
  lift := o.lift

------------------------------------------------------------
-- Likeness
------------------------------------------------------------

/- Calls that are the same but for the states they lead to. -/
inductive Call.Like
    {S S' C : Type}
    {kind : C → ActionKind}
    (R : S → S' → Prop) :
    Call S Empty C kind → Call S' Empty C kind → Prop where
  | send
      (a : Apdu)
      (options : RequestOptions)
      {next : Nat → Answer → S}
      {next' : Nat → Answer → S'}
      (hNext :
        ∀ now answer, R (next now answer) (next' now answer)) :
      Like R (.send a options next) (.send a options next')
  | wait
      (ms : Nat)
      {next : Nat → S}
      {next' : Nat → S'}
      (hNext : ∀ now, R (next now) (next' now)) :
      Like R (.wait ms next) (.wait ms next')
  | child
      (i : C)
      {next : Nat → (kind i).Outcome → S}
      {next' : Nat → (kind i).Outcome → S'}
      (hNext : ∀ now o, R (next now o) (next' now o)) :
      Like R (.child i next) (.child i next')

/- Nodes that are the same but for their states. -/
inductive Node.Like
    {k : ActionKind}
    {S S' C : Type}
    {kind : C → ActionKind}
    (R : S → S' → Prop)
    (view : S → k.Progress)
    (view' : S' → k.Progress) :
    Node k S Empty C kind → Node k S' Empty C kind → Prop where
  | decide
      {s : S}
      {s' : S'}
      (hState : R s s') :
      Like R view view' (.decide s) (.decide s')
  | invoke
      {here : S}
      {here' : S'}
      {call : Call S Empty C kind}
      {call' : Call S' Empty C kind}
      (hView : view here = view' here')
      (hCall : call.Like R call') :
      Like R view view' (.invoke here call) (.invoke here' call')
  | finish (o : k.Outcome) :
      Like R view view' (.finish o) (.finish o)

/- Related states have nodes that are the same. -/
structure Outline.Like
    {k : ActionKind}
    {C : Type}
    {kind : C → ActionKind}
    (o o' : Outline k C kind)
    (R : o.State → o'.State → Prop) : Prop where
  start : R o.start o'.start
  view : o.view o.start = o'.view o'.start
  act :
    ∀ now s s', R s s' →
      (o.act now s).Like R o.view o'.view (o'.act now s')
  lift : o.lift = o'.lift

/- Actions whose plans are alike, at every depth. -/
inductive Action.Like :
    {k : ActionKind} → Action k → Action k → Prop where
  | mk
      {k : ActionKind}
      {C : Type}
      {kind : C → ActionKind}
      {o o' : Outline k C kind}
      {R : o.State → o'.State → Prop}
      {child child' : (i : C) → Action (kind i)}
      (hOutline : o.Like o' R)
      (hChildren : ∀ i, (child i).Like (child' i)) :
      Like (.mk o.plan child) (.mk o'.plan child')

/- Stages from which related states are come to. -/
inductive Stage.Like
    {S S' K : Type}
    (R : S → S' → Prop) :
    Stage S Empty K → Stage S' Empty K → Prop where
  | ready
      {s : S}
      {s' : S'}
      (hState : R s s') :
      Like R (.ready s) (.ready s')
  | sending
      (key : K)
      {next : Nat → Answer → S}
      {next' : Nat → Answer → S'}
      (hNext :
        ∀ now answer, R (next now answer) (next' now answer)) :
      Like R (.sending key next) (.sending key next')
  | waiting
      (due : Nat)
      {next : Nat → S}
      {next' : Nat → S'}
      (hNext : ∀ now, R (next now) (next' now)) :
      Like R (.waiting due next) (.waiting due next')

/- Runs of actions that are alike, at related states. -/
inductive Run.Like {K : Type} :
    {k : ActionKind} → Run K k → Run K k → Prop where
  | here
      {k : ActionKind}
      {C : Type}
      {kind : C → ActionKind}
      {o o' : Outline k C kind}
      {R : o.State → o'.State → Prop}
      {child child' : (i : C) → Action (kind i)}
      (hOutline : o.Like o' R)
      (hChildren : ∀ i, (child i).Like (child' i))
      (token : Nat)
      (silent : Bool)
      {stage : Stage o.State Empty K}
      {stage' : Stage o'.State Empty K}
      (hStage : stage.Like R stage') :
      Like
        (.here (.mk o.plan child) token silent stage)
        (.here (.mk o'.plan child') token silent stage')
  | within
      {k : ActionKind}
      {C : Type}
      {kind : C → ActionKind}
      {o o' : Outline k C kind}
      {R : o.State → o'.State → Prop}
      {child child' : (i : C) → Action (kind i)}
      (hOutline : o.Like o' R)
      (hChildren : ∀ i, (child i).Like (child' i))
      (token : Nat)
      (i : C)
      {next : Nat → (kind i).Outcome → o.State}
      {next' : Nat → (kind i).Outcome → o'.State}
      (hNext : ∀ now out, R (next now out) (next' now out))
      {inner inner' : Run K (kind i)}
      (hInner : inner.Like inner') :
      Like
        (.within (.mk o.plan child) token i next inner)
        (.within (.mk o'.plan child') token i next' inner')

namespace Run

variable {W K : Type} {k r : ActionKind}

/- Turns that lead to runs that are alike, or end alike. -/
inductive TurnLike :
    Turn (Run K k) k.Outcome →
    Turn (Run K k) k.Outcome → Prop where
  | go
      {run run' : Run K k}
      (hRun : run.Like run') : TurnLike (.go run) (.go run')
  | wait
      {run run' : Run K k}
      (hRun : run.Like run') : TurnLike (.wait run) (.wait run')
  | done (o : k.Outcome) : TurnLike (.done o) (.done o)

/- Steps in which the same happens. -/
structure Told.Like (t t' : Told W K k r) : Prop where
  turn : TurnLike t.1.1 t'.1.1
  rest : t.1.2 = t'.1.2
  effects : t.2 = t'.2

------------------------------------------------------------
-- Steps
------------------------------------------------------------

theorem Told.Like.after
    {t t' : Told W K k r}
    (hLike : t.Like t')
    (ds : List (Effect r)) :
    (t.after ds).Like (t'.after ds) where
  turn := hLike.turn
  rest := hLike.rest
  effects := congrArg (ds ++ ·) hLike.effects

/- Actions that are alike start alike. -/
theorem like_start
    {a a' : Action k}
    (hLike : a.Like a')
    (token : Nat)
    (silent : Bool) :
    (start (K := K) a token silent).Like
      (start a' token silent) := by
  cases hLike with
  | mk hOutline hChildren =>
      exact .here hOutline hChildren token silent
        (.ready hOutline.start)

theorem Like.token_eq
    {run run' : Run K k}
    (hLike : run.Like run') :
    run.token = run'.token := by
  cases hLike <;> rfl

/- Runs that are alike have handed in the same. -/
theorem Like.abandon_eq
    {run run' : Run K k}
    (hLike : run.Like run')
    (x : Sender W K)
    (tokens : TokenForest)
    (w : W) :
    run.abandon x tokens w = run'.abandon x tokens w := by
  induction hLike with
  | here hOutline hChildren token silent hStage =>
      cases hStage <;> rfl
  | within hOutline hChildren token i hNext hInner ih =>
      exact congrArg
        (fun p : TokenForest × W => (p.1.release token, p.2)) ih

section Stages

variable {C : Type} {kind : C → ActionKind}
variable {o o' : Outline k C kind} {R : o.State → o'.State → Prop}
variable {child child' : (i : C) → Action (kind i)}

theorem like_resume
    (hOutline : o.Like o' R)
    (hChildren : ∀ i, (child i).Like (child' i))
    (token : Nat)
    {s : o.State}
    {s' : o'.State}
    (hState : R s s')
    (sc : Scene r)
    (w : W) :
    Told.Like
      (resume (K := K) (.mk o.plan child) token s sc w)
      (resume (.mk o'.plan child') token s' sc w) := by
  unfold resume
  split
  · exact ⟨.done _, rfl, rfl⟩
  · exact ⟨.go (.here hOutline hChildren _ _ (.ready hState)),
      rfl, rfl⟩

theorem like_hold
    (x : Sender W K)
    (hOutline : o.Like o' R)
    (hChildren : ∀ i, (child i).Like (child' i))
    (token : Nat)
    {stage : Stage o.State Empty K}
    {stage' : Stage o'.State Empty K}
    (hStage : stage.Like R stage')
    (sc : Scene r)
    (w : W)
    (ds : List (Effect r)) :
    Told.Like
      (hold x (.mk o.plan child) token stage sc w, ds)
      (hold x (.mk o'.plan child') token stage' sc w, ds) := by
  unfold hold
  split
  · exact ⟨.done _, by cases hStage <;> rfl, rfl⟩
  · exact ⟨.wait (.here hOutline hChildren _ _ hStage), rfl, rfl⟩

theorem like_makeCall
    (x : Sender W K)
    (now : Nat)
    (hOutline : o.Like o' R)
    (hChildren : ∀ i, (child i).Like (child' i))
    (token : Nat)
    (silent : Bool)
    (sc : Scene r)
    (w : W)
    {call : Call o.State Empty C kind}
    {call' : Call o'.State Empty C kind}
    (hCall : call.Like R call') :
    Told.Like
      (makeCall x now (.mk o.plan child) token silent sc w call)
      (makeCall x now (.mk o'.plan child') token silent sc w
        call') := by
  cases hCall with
  | send a options hNext =>
      exact ⟨.go (.here hOutline hChildren _ _
        (.sending _ hNext)), rfl, rfl⟩
  | wait ms hNext =>
      exact ⟨.go (.here hOutline hChildren _ _
        (.waiting _ hNext)), rfl, rfl⟩
  | child i hNext =>
      refine ⟨.go (.within hOutline hChildren _ i hNext ?_),
        rfl, rfl⟩
      exact like_start (hChildren i) _ _

/-
  A state asks for what a related one asks for, and shows
  the same before it.
-/
theorem like_act
    (x : Sender W K)
    (now : Nat)
    (up : k.Progress → r.Progress)
    (hOutline : o.Like o' R)
    (hChildren : ∀ i, (child i).Like (child' i))
    (token : Nat)
    (silent : Bool)
    {s : o.State}
    {s' : o'.State}
    (hState : R s s')
    (sc : Scene r)
    (w : W) :
    Told.Like
      (act x now up (.mk o.plan child) token silent s sc w)
      (act x now up (.mk o'.plan child') token silent s' sc
        w) := by
  have hNode := hOutline.act now s s' hState
  unfold act
  split
  · exact ⟨.done _, rfl, rfl⟩
  · have hLeft :
        (Action.mk o.plan child).plan.act now s = o.act now s :=
      rfl
    have hRight :
        (Action.mk o'.plan child').plan.act now s' =
          o'.act now s' :=
      rfl
    rw [hLeft, hRight]
    revert hNode
    generalize o.act now s = n
    generalize o'.act now s' = n'
    intro hNode
    cases hNode with
    | decide hState =>
        exact ⟨.go (.here hOutline hChildren _ _ (.ready hState)),
          rfl, rfl⟩
    | finish out => exact ⟨.done _, rfl, rfl⟩
    | @invoke here here' call call' hView hCall =>
        have hShown :
            (Action.mk o.plan child).plan.view here =
              (Action.mk o'.plan child').plan.view here' :=
          hView
        simp only [hShown]
        exact (like_makeCall x now hOutline hChildren token
          silent _ w hCall).after _

/- A stage goes on as a related one does. -/
theorem like_stageStep
    (x : Sender W K)
    (now : Nat)
    (up : k.Progress → r.Progress)
    (hOutline : o.Like o' R)
    (hChildren : ∀ i, (child i).Like (child' i))
    (token : Nat)
    (silent : Bool)
    {stage : Stage o.State Empty K}
    {stage' : Stage o'.State Empty K}
    (hStage : stage.Like R stage')
    (sc : Scene r)
    (w : W) :
    Told.Like
      (stageStep x now up (.mk o.plan child) token silent stage
        sc w)
      (stageStep x now up (.mk o'.plan child') token silent
        stage' sc w) := by
  have hKept := hStage
  cases hStage with
  | ready hState =>
      exact like_act x now up hOutline hChildren token silent
        hState sc w
  | sending key hNext =>
      simp only [stageStep]
      rcases x.poll now key w with ⟨_ | answer, cancels, w'⟩
      · exact like_hold x hOutline hChildren token hKept _ w' _
      · exact (like_resume hOutline hChildren token
          (hNext now answer) _ w').after _
  | waiting due hNext =>
      simp only [stageStep]
      split
      · exact like_resume hOutline hChildren token (hNext now)
          sc w
      · exact like_hold x hOutline hChildren token hKept sc w []

/-
  What an inner action does is the same to the one around
  it, which comes to related states after it.
-/
theorem like_enclose
    (x : Sender W K)
    (now : Nat)
    (hOutline : o.Like o' R)
    (hChildren : ∀ i, (child i).Like (child' i))
    (token inside : Nat)
    (i : C)
    {next : Nat → (kind i).Outcome → o.State}
    {next' : Nat → (kind i).Outcome → o'.State}
    (hNext : ∀ now out, R (next now out) (next' now out))
    {t t' : Told W K (kind i) r}
    (hLike : t.Like t') :
    Told.Like
      (enclose x now (.mk o.plan child) token inside i next t)
      (enclose x now (.mk o'.plan child') token inside i next'
        t') := by
  rcases t with ⟨⟨turn, sc, w⟩, ds⟩
  rcases t' with ⟨⟨turn', sc', w'⟩, ds'⟩
  rcases hLike with ⟨hTurn, hRest, hEffects⟩
  obtain ⟨rfl, rfl⟩ := Prod.mk.inj hRest
  obtain rfl : ds = ds' := hEffects
  cases hTurn with
  | go hRun =>
      exact ⟨.go (.within hOutline hChildren token i hNext hRun),
        rfl, rfl⟩
  | wait hRun =>
      have hGone := hRun.abandon_eq x sc.tokens w
      simp only [enclose]
      split
      · exact ⟨.done _,
          congrArg (fun p => ({ sc with tokens := p.1 }, p.2))
            hGone, rfl⟩
      · exact ⟨.wait (.within hOutline hChildren token i hNext
          hRun), rfl, rfl⟩
  | done out =>
      exact (like_resume hOutline hChildren token
        (hNext now out) _ w).after ds

end Stages

/-
  A step of a run is the step of one that is like it.  The
  induction is on the depth of the runs; what becomes of the
  inner action leads to related states of the outer ones.
-/
theorem Like.tell
    {run run' : Run K k}
    (hLike : run.Like run')
    (x : Sender W K)
    (now : Nat)
    (up : k.Progress → r.Progress)
    (sc : Scene r)
    (w : W) :
    Told.Like
      (run.tell x now up sc w)
      (run'.tell x now up sc w) := by
  induction hLike with
  | here hOutline hChildren token silent hStage =>
      exact like_stageStep x now up hOutline hChildren token
        silent hStage sc w
  | @within k C kind o o' R child child' hOutline hChildren
      token i next next' hNext inner inner' hInner ih =>
      have hStep :
          Told.Like
            (enclose x now (.mk o.plan child) token inner.token i
              next (inner.tell x now (up ∘ o.lift i) sc w))
            (enclose x now (.mk o'.plan child') token
              inner'.token i next'
              (inner'.tell x now (up ∘ o'.lift i) sc w)) := by
        rw [← hInner.token_eq, ← hOutline.lift]
        exact like_enclose x now hOutline hChildren token _ i
          hNext (ih (up ∘ o.lift i))
      exact hStep

end Run

------------------------------------------------------------
-- Performances
------------------------------------------------------------

/- Actions that are alike show the same before they begin. -/
theorem Action.Like.preview_eq
    {k : ActionKind}
    {a a' : Action k}
    (hLike : a.Like a') :
    a.preview = a'.preview := by
  cases hLike with
  | mk hOutline hChildren => exact hOutline.view

namespace Performance

variable {W K : Type} {k : ActionKind}

/- Performances in which all has gone the same way. -/
structure Like (p p' : Performance W K k) : Prop where
  runs : Option.Rel Run.Like p.execution.run p'.execution.run
  scene : p.execution.scene = p'.execution.scene
  world : p.world = p'.world
  effects : p.effects = p'.effects

theorem like_start
    {a a' : Action k}
    (hLike : a.Like a')
    (w : W) :
    (start (K := K) a w).Like (start a' w) where
  runs := .some (Run.like_start hLike _ _)
  scene := by
    simp only [start, Execution.start, hLike.preview_eq]
  world := rfl
  effects := rfl

/- A step takes both of them the same way. -/
theorem Like.next_step
    {p p' : Performance W K k}
    (hLike : p.Like p')
    (x : Sender W K)
    (now : Nat) :
    (p.next x (.step now)).Like (p'.next x (.step now)) := by
  rcases p with ⟨⟨run, sc⟩, w, ds⟩
  rcases p' with ⟨⟨run', sc'⟩, w', ds'⟩
  rcases hLike with ⟨hRun, hScene, hWorld, hEffects⟩
  obtain rfl : sc = sc' := hScene
  obtain rfl : w = w' := hWorld
  obtain rfl : ds = ds' := hEffects
  cases hRun with
  | none => exact ⟨.none, rfl, rfl, rfl⟩
  | @some run run' hRun =>
      have hTold := hRun.tell x now id sc w
      simp only [next, Execution.step, Execution.effects,
        Execution.tell]
      rcases hTell : run.tell x now id sc w with
        ⟨⟨turn, sc₁, w₁⟩, es⟩
      rcases hTell' : run'.tell x now id sc w with
        ⟨⟨turn', sc₂, w₂⟩, es'⟩
      rw [hTell, hTell'] at hTold
      rcases hTold with ⟨hTurn, hRest, hTold⟩
      obtain ⟨rfl, rfl⟩ := Prod.mk.inj hRest
      obtain rfl : es = es' := hTold
      cases hTurn with
      | go hRun => exact ⟨.some hRun, rfl, rfl, rfl⟩
      | wait hRun => exact ⟨.some hRun, rfl, rfl, rfl⟩
      | done o => exact ⟨.none, rfl, rfl, rfl⟩

theorem Like.next
    {p p' : Performance W K k}
    (hLike : p.Like p')
    (x : Sender W K)
    (cue : Cue W k) :
    (p.next x cue).Like (p'.next x cue) := by
  cases cue with
  | step now => exact hLike.next_step x now
  | _ =>
      rcases hLike with ⟨hRun, hScene, hWorld, hEffects⟩
      refine ⟨hRun, ?_, ?_, ?_⟩ <;>
        simp [Performance.next, Execution.cancel, hScene, hWorld,
          hEffects]

/- Whatever happens, it happens the same way. -/
theorem Like.run
    {p p' : Performance W K k}
    (hLike : p.Like p')
    (x : Sender W K)
    (cues : List (Cue W k)) :
    (p.run x cues).Like (p'.run x cues) := by
  induction cues generalizing p p' with
  | nil => exact hLike
  | cons cue cues ih => exact ih (hLike.next x cue)

/-
  Actions that are alike cannot be told apart: whatever
  happens to them, the same has been shown and handed in, and
  they have ended or not.
-/
theorem run_like
    {a a' : Action k}
    (hLike : a.Like a')
    (x : Sender W K)
    (w : W)
    (cues : List (Cue W k)) :
    let p := (start a w).run x cues
    let p' := (start a' w).run x cues
    p'.effects = p.effects ∧
    p'.execution.scene = p.execution.scene ∧
    p'.world = p.world ∧
    p'.execution.run.isSome = p.execution.run.isSome := by
  intro p p'
  have hRun : p.Like p' := (like_start hLike w).run x cues
  refine ⟨hRun.effects.symm, hRun.scene.symm, hRun.world.symm,
    ?_⟩
  have hRuns := hRun.runs
  revert hRuns
  generalize p.execution.run = run
  generalize p'.execution.run = run'
  intro hRuns
  cases hRuns <;> rfl

end Performance

end DeviceSession
