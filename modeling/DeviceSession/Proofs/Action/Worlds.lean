import DeviceSession.Proofs.Action.Trace

/-
  Actions in worlds that agree.

  A run asks a sender for all that it wants of the world.  So
  when one sender answers as another one does, the run goes
  the same way with both.

  Key definitions include:
    * `Sender.Covers`
    * `Run.Result.map`
    * `Performance.map`

  Main declarations:
    * `Run.step_map`
    * `Run.effects_map`
    * `Performance.run_map`
-/

------------------------------------------------------------
-- Senders That Agree
------------------------------------------------------------

namespace DeviceSession

/-
  One sender answers as another one does on the worlds that
  its own stand for.
-/
structure Sender.Covers
    {W W' K : Type}
    (x' : Sender W' K)
    (x : Sender W K)
    (g : W' → W) : Prop where
  submit : ∀ now a options w,
    x.submit now a options (g w) =
      Prod.map id (Prod.map id g) (x'.submit now a options w)
  poll : ∀ now key w,
    x.poll now key (g w) =
      Prod.map id (Prod.map id g) (x'.poll now key w)
  withdraw : ∀ key w,
    x.withdraw key (g w) = g (x'.withdraw key w)

------------------------------------------------------------
-- The Same Steps
------------------------------------------------------------

namespace Run

variable {W W' K : Type} {k r : ActionKind}

/- The same result in another world. -/
def Result.map
    (g : W' → W) :
    Result W' K k r → Result W K k r :=
  Prod.map id (Prod.map id g)

/- The same step in another world. -/
def Told.map
    (g : W' → W) :
    Told W' K k r → Told W K k r :=
  Prod.map (Result.map g) id

section Steps

variable {x' : Sender W' K} {x : Sender W K} {g : W' → W}

/- A command is withdrawn from either world. -/
theorem withdraw_map
    {S T : Type}
    (hCovers : x'.Covers x g)
    (w : W')
    (stage : Stage S T K) :
    withdraw x (g w) stage = g (withdraw x' w stage) := by
  cases stage with
  | sending key next => exact hCovers.withdraw key w
  | working t =>
      cases t with
      | sending key next => exact hCovers.withdraw key w
      | _ => rfl
  | _ => rfl

/- So is one of an action that is given up. -/
theorem abandon_map
    (hCovers : x'.Covers x g)
    (tokens : TokenForest)
    (w : W')
    (run : Run K k) :
    run.abandon x tokens (g w) =
      Prod.map id g (run.abandon x' tokens w) := by
  induction run with
  | here a t silent stage =>
      simp [abandon, withdraw_map hCovers]
  | within a t i next inner ih => simp [abandon, ih]

/- To go on in a state asks nothing of the world. -/
theorem resume_map
    (g : W' → W)
    (a : Action k)
    (token : Nat)
    (s : a.plan.State)
    (sc : Scene r)
    (w : W') :
    resume (K := K) a token s sc (g w) =
      (resume a token s sc w).map g := by
  unfold resume
  split <;> rfl

/- To wait depends on what the sender says. -/
theorem hold_map
    (hCovers : x'.Covers x g)
    (a : Action k)
    (token : Nat)
    (stage : Stage a.plan.State a.plan.Task K)
    (sc : Scene r)
    (w : W') :
    hold x a token stage sc (g w) =
      (hold x' a token stage sc w).map g := by
  unfold hold
  rw [withdraw_map hCovers]
  split <;> rfl

/- A call, of whatever kind. -/
theorem makeCall_map
    (hCovers : x'.Covers x g)
    (now : Nat)
    (a : Action k)
    (token : Nat)
    (silent : Bool)
    (sc : Scene r)
    (w : W')
    (call :
      Call a.plan.State a.plan.Task a.plan.Child a.plan.kind) :
    makeCall x now a token silent sc (g w) call =
      (makeCall x' now a token silent sc w call).map g := by
  cases call with
  | send apdu options next =>
      simp [makeCall, hCovers.submit, Told.map, Result.map]
  | _ => rfl

/- What an action does in a state. -/
theorem act_map
    (hCovers : x'.Covers x g)
    (now : Nat)
    (up : k.Progress → r.Progress)
    (a : Action k)
    (token : Nat)
    (silent : Bool)
    (s : a.plan.State)
    (sc : Scene r)
    (w : W') :
    act x now up a token silent s sc (g w) =
      (act x' now up a token silent s sc w).map g := by
  unfold act
  split
  · rfl
  · cases a.plan.act now s with
    | invoke s call =>
        cases silent <;>
          simp [makeCall_map hCovers, Told.map, Told.after]
    | _ => rfl

/- A step of a retried command. -/
theorem taskStep_map
    (hCovers : x'.Covers x g)
    (now : Nat)
    (up : k.Progress → r.Progress)
    (a : Action k)
    (token : Nat)
    (stage : TaskStage a.plan.Task K)
    (sc : Scene r)
    (w : W') :
    taskStep x now up a token stage sc (g w) =
      (taskStep x' now up a token stage sc w).map g := by
  cases stage with
  | ready t =>
      simp only [taskStep]
      cases a.plan.work now t with
      | send apdu options next =>
          simp [hCovers.submit, Told.map, Result.map]
      | finish s => exact resume_map g ..
      | _ => rfl
  | sending key next =>
      simp only [taskStep, hCovers.poll]
      rcases x'.poll now key w with ⟨_ | answer, cancels, w'⟩
      · simp [hold_map hCovers, Told.map]
      · rfl
  | sleeping due next =>
      simp only [taskStep]
      split
      · rfl
      · simp [hold_map hCovers, Told.map]
  | held next =>
      simp only [taskStep]
      split
      · rfl
      · simp [hold_map hCovers, Told.map]

/- A step at any stage. -/
theorem stageStep_map
    (hCovers : x'.Covers x g)
    (now : Nat)
    (up : k.Progress → r.Progress)
    (a : Action k)
    (token : Nat)
    (silent : Bool)
    (stage : Stage a.plan.State a.plan.Task K)
    (sc : Scene r)
    (w : W') :
    stageStep x now up a token silent stage sc (g w) =
      (stageStep x' now up a token silent stage sc w).map g := by
  cases stage with
  | ready s => exact act_map hCovers ..
  | sending key next =>
      simp only [stageStep, hCovers.poll]
      rcases x'.poll now key w with ⟨_ | answer, cancels, w'⟩
      · simp [hold_map hCovers, Told.map]
      · simp [resume_map g, Told.map, Told.after]
  | waiting due next =>
      simp only [stageStep]
      split
      · exact resume_map g ..
      · simp [hold_map hCovers, Told.map]
  | working t => exact taskStep_map hCovers ..

/-
  A step with one sender is the step with another one that
  answers as it does.
-/
theorem tell_map
    (hCovers : x'.Covers x g)
    (now : Nat)
    (run : Run K k)
    (up : k.Progress → r.Progress)
    (sc : Scene r)
    (w : W') :
    run.tell x now up sc (g w) =
      (run.tell x' now up sc w).map g := by
  induction run with
  | here a token silent stage => exact stageStep_map hCovers ..
  | within a token i next inner ih =>
      rw [tell, tell, ih]
      rcases inner.tell x' now (up ∘ a.plan.lift i) sc w with
        ⟨⟨turn, sc', w'⟩, ds⟩
      cases turn with
      | go inner' => rfl
      | wait inner' =>
          simp only [enclose, Told.map, Result.map, Prod.map, id,
            abandon_map hCovers]
          split <;> rfl
      | done o =>
          simp [enclose, Told.map, Told.after, Result.map,
            resume_map g]

end Steps

end Run

------------------------------------------------------------
-- The Same Performances
------------------------------------------------------------

namespace Execution

variable {W W' K : Type} {k : ActionKind}
variable {x' : Sender W' K} {x : Sender W K} {g : W' → W}

/- So an execution tells the same of either world. -/
theorem tell_map
    (hCovers : x'.Covers x g)
    (now : Nat)
    (e : Execution K k)
    (w : W') :
    e.tell x now (g w) =
      Prod.map (Prod.map id (Prod.map id g)) id
        (e.tell x' now w) := by
  rcases e with ⟨_ | run, sc⟩
  · rfl
  · simp only [tell, Run.tell_map hCovers]
    rcases run.tell x' now id sc w with ⟨⟨turn, sc', w'⟩, ds⟩
    cases turn <;> rfl

end Execution

/- A cue in one world that is one in another. -/
inductive Cue.Covers
    {W W' : Type}
    {k : ActionKind}
    (g : W' → W) : Cue W' k → Cue W k → Prop
  | step (now : Nat) : Covers g (.step now) (.step now)
  | cancel : Covers g .cancel .cancel
  | outside
      {f' : W' → W'}
      {f : W → W}
      (hWorld : ∀ w, f (g w) = g (f' w)) :
      Covers g (.outside f') (.outside f)
  | report (token : Nat) (i : k.Progress) :
      Covers g (.report token i) (.report token i)
  | cut (token : Nat) : Covers g (.cut token) (.cut token)

namespace Performance

variable {W W' K : Type} {k : ActionKind}

/- The same performance in another world. -/
def map
    (g : W' → W)
    (p : Performance W' K k) : Performance W K k where
  execution := p.execution
  world := g p.world
  effects := p.effects

/- What happens in one world happens in the other. -/
theorem next_map
    {x' : Sender W' K}
    {x : Sender W K}
    {g : W' → W}
    (hCovers : x'.Covers x g)
    (p : Performance W' K k)
    {cue' : Cue W' k}
    {cue : Cue W k}
    (hCue : Cue.Covers g cue' cue) :
    (p.map g).next x cue = (p.next x' cue').map g := by
  cases hCue with
  | step now =>
      simp [next, map, Execution.step, Execution.effects,
        Execution.tell_map hCovers]
  | cancel => rfl
  | outside hWorld => simp [next, map, hWorld]
  | report token i => rfl
  | cut token => rfl

/- The same happens all along, for cues that correspond. -/
theorem run_map
    {x' : Sender W' K}
    {x : Sender W K}
    {g : W' → W}
    (hCovers : x'.Covers x g)
    {B : Type}
    {f' : B → Cue W' k}
    {f : B → Cue W k}
    (hCues : ∀ b, Cue.Covers g (f' b) (f b))
    (p : Performance W' K k)
    (bs : List B) :
    (p.map g).run x (bs.map f) = (p.run x' (bs.map f')).map g := by
  induction bs generalizing p with
  | nil => rfl
  | cons b bs ih =>
      rw [List.map_cons, List.map_cons, run_cons, run_cons,
        next_map hCovers p (hCues b), ih]

end Performance

end DeviceSession
