import DeviceSession.Action.Run
import DeviceSession.Proofs.Action.Log

/-
  What the run of an action does, in order.

  A performance is an execution in a world, with its effects
  so far.  Its log and what its sender has been given can be
  read off them.

  Key definitions include:
    * `Effect.states`
    * `Effect.commands`
    * `Cue`
    * `Performance`
    * `Sender.taped`
    * `Performance.Tapes`

  Main declarations:
    * `Run.tell_log`
    * `Run.tell_taped`
    * `Performance.run_log`
    * `Performance.Tapes.run`
-/

------------------------------------------------------------
-- Effects
------------------------------------------------------------

namespace DeviceSession

namespace Effect

variable {r : ActionKind}

/- What an effect offers to the log. -/
def state? : Effect r → Option r.State
  | report i => some (.pending i)
  | cancel => some .stopped
  | resolve o => some o.state
  | _ => none

/- What effects offer to the log. -/
def states (ds : List (Effect r)) : List r.State :=
  ds.filterMap state?

@[simp]
theorem states_nil : states ([] : List (Effect r)) = [] :=
  rfl

theorem states_cons (d : Effect r) (ds : List (Effect r)) :
    states (d :: ds) = d.state?.toList ++ states ds := by
  cases h : d.state? <;> simp [states, h]

/- Effects offer what each part of them offers, in turn. -/
@[simp]
theorem states_append (ds es : List (Effect r)) :
    states (ds ++ es) = states ds ++ states es :=
  List.filterMap_append

/- The command that an effect hands in. -/
def command? : Effect r → Option (Apdu × RequestOptions)
  | send a options => some (a, options)
  | _ => none

/- The commands that effects hand in. -/
def commands (ds : List (Effect r)) :
    List (Apdu × RequestOptions) :=
  ds.filterMap command?

@[simp]
theorem commands_nil : commands ([] : List (Effect r)) = [] :=
  rfl

theorem commands_cons (d : Effect r) (ds : List (Effect r)) :
    commands (d :: ds) = d.command?.toList ++ commands ds := by
  cases h : d.command? <;> simp [commands, h]

/- Effects hand in what each part of them hands in, in turn. -/
@[simp]
theorem commands_append (ds es : List (Effect r)) :
    commands (ds ++ es) = commands ds ++ commands es :=
  List.filterMap_append

------------------------------------------------------------
-- Single Effects
------------------------------------------------------------

/- The effects of a result. -/
def ofResult (sc : Scene r) (token : Nat) : List (Effect r) :=
  if sc.tokens.isCancelled token then [] else [route token]

/- To cancel, to report and to route hand nothing in. -/
@[simp]
theorem commands_ofCancel (wanted : Bool) :
    commands (ofCancel (r := r) wanted) = [] := by
  cases wanted <;> rfl

@[simp]
theorem commands_ofReport
    (sc : Scene r)
    (token : Nat)
    (i : r.Progress) :
    commands (ofReport sc token i) = [] := by
  unfold ofReport
  split <;> rfl

@[simp]
theorem commands_ofResult
    (sc : Scene r)
    (token : Nat) :
    commands (ofResult sc token) = [] := by
  unfold ofResult
  split <;> rfl

/- What is routed is not shown. -/
@[simp]
theorem states_ofResult
    (sc : Scene r)
    (token : Nat) :
    states (ofResult sc token) = [] := by
  unfold ofResult
  split <;> rfl

end Effect

namespace Scene

variable {r : ActionKind}

/- The log takes a cancellation as one of the effects. -/
@[simp]
theorem log_cancelIf (sc : Scene r) (wanted : Bool) :
    (sc.cancelIf wanted).log =
      sc.log.offerAll (Effect.states (Effect.ofCancel wanted)) := by
  cases wanted <;> rfl

/- It takes a report, unless its token has been cancelled. -/
@[simp]
theorem log_report
    (sc : Scene r)
    (token : Nat)
    (i : r.Progress) :
    (sc.report token i).log =
      sc.log.offerAll
        (Effect.states (Effect.ofReport sc token i)) := by
  unfold report Effect.ofReport
  split <;> rfl

/- To report does nothing to the tokens. -/
@[simp]
theorem tokens_report
    (sc : Scene r)
    (token : Nat)
    (i : r.Progress) :
    (sc.report token i).tokens = sc.tokens := by
  unfold report
  split <;> rfl

end Scene

------------------------------------------------------------
-- The Effects of a Step
------------------------------------------------------------

namespace Run

variable {W K : Type} {k r : ActionKind}

@[simp]
theorem result_after
    (t : Told W K k r)
    (ds : List (Effect r)) :
    (t.after ds).1 = t.1 :=
  rfl

/- What has happened before comes first. -/
@[simp]
theorem effects_after
    (t : Told W K k r)
    (ds : List (Effect r)) :
    (t.after ds).2 = ds ++ t.2 :=
  rfl

/- A state is routed to, unless the token has been cancelled. -/
@[simp]
theorem effects_resume
    (a : Action k)
    (token : Nat)
    (s : a.plan.State)
    (sc : Scene r)
    (w : W) :
    (resume (K := K) a token s sc w).2 =
      Effect.ofResult sc token := by
  unfold resume Effect.ofResult
  split <;> rfl

/- What an action within does is done by the whole run. -/
theorem effects_within
    {x : Sender W K}
    {now : Nat}
    {a : Action k}
    {token : Nat}
    {i : a.plan.Child}
    {next : Nat → (a.plan.kind i).Outcome → a.plan.State}
    {inner : Run K (a.plan.kind i)}
    {up : k.Progress → r.Progress}
    {sc : Scene r}
    {w : W}
    {d : Effect r}
    (hEffect :
      d ∈ inner.effects x now (up ∘ a.plan.lift i) sc w) :
    d ∈ (within a token i next inner).effects x now up sc w := by
  rw [effects] at hEffect
  rw [effects, tell]
  rcases hTell :
      inner.tell x now (up ∘ a.plan.lift i) sc w with
    ⟨⟨turn, sc', w'⟩, ds⟩
  rw [hTell] at hEffect
  cases turn with
  | go inner' => exact hEffect
  | wait inner' =>
      simp only [enclose]
      split <;> exact hEffect
  | done o => exact List.mem_append_left _ hEffect

------------------------------------------------------------
-- The Log after a Step
------------------------------------------------------------

/- A result is taken or dropped, and nothing is shown. -/
@[simp]
theorem scene_resume
    (a : Action k)
    (token : Nat)
    (s : a.plan.State)
    (sc : Scene r)
    (w : W) :
    (resume (K := K) a token s sc w).1.2.1 = sc := by
  unfold resume
  split <;> rfl

/- To wait shows nothing either. -/
@[simp]
theorem scene_hold
    (x : Sender W K)
    (a : Action k)
    (token : Nat)
    (stage : Stage a.plan.State a.plan.Task K)
    (sc : Scene r)
    (w : W) :
    (hold x a token stage sc w).2.1 = sc := by
  unfold hold
  split <;> rfl

/- After a step the log has taken what its effects offer. -/
def Told.Logs (sc : Scene r) (t : Told W K k r) : Prop :=
  t.1.2.1.log = sc.log.offerAll (Effect.states t.2)

/- To make a call shows nothing but that it cancels the run. -/
theorem makeCall_log
    (x : Sender W K)
    (now : Nat)
    (a : Action k)
    (token : Nat)
    (silent : Bool)
    (sc : Scene r)
    (w : W)
    (call :
      Call a.plan.State a.plan.Task a.plan.Child a.plan.kind) :
    (makeCall x now a token silent sc w call).Logs sc := by
  cases call with
  | send apdu options next =>
      simp [Told.Logs, makeCall, Effect.states_cons,
        Effect.state?]
  | wait ms next => rfl
  | task t => rfl
  | child i next => rfl

/- A state shows itself before the call that it makes. -/
theorem act_log
    (x : Sender W K)
    (now : Nat)
    (up : k.Progress → r.Progress)
    (a : Action k)
    (token : Nat)
    (silent : Bool)
    (s : a.plan.State)
    (sc : Scene r)
    (w : W) :
    (act x now up a token silent s sc w).Logs sc := by
  unfold act
  split
  · rfl
  · cases a.plan.act now s with
    | decide next => rfl
    | finish o => rfl
    | invoke s call =>
        have hCall (sc' : Scene r) :=
          makeCall_log x now a token silent sc' w call
        cases silent <;>
          simp_all [Told.Logs, Effect.states_cons,
            Effect.state?, ActionLog.offerAll_append]

/- A task shows what it reports. -/
theorem taskStep_log
    (x : Sender W K)
    (now : Nat)
    (up : k.Progress → r.Progress)
    (a : Action k)
    (token : Nat)
    (stage : TaskStage a.plan.Task K)
    (sc : Scene r)
    (w : W) :
    (taskStep x now up a token stage sc w).Logs sc := by
  cases stage with
  | ready t =>
      simp only [taskStep]
      cases a.plan.work now t <;>
        simp [Told.Logs, Effect.states_cons, Effect.state?]
  | sending key next =>
      simp only [taskStep]
      rcases x.poll now key w with ⟨_ | answer, cancels, w'⟩ <;>
        simp [Told.Logs]
  | sleeping due next =>
      simp only [taskStep]
      split <;> simp [Told.Logs]
  | held next =>
      simp only [taskStep]
      split <;> simp [Told.Logs]

/- A stage shows what its state or its task does. -/
theorem stageStep_log
    (x : Sender W K)
    (now : Nat)
    (up : k.Progress → r.Progress)
    (a : Action k)
    (token : Nat)
    (silent : Bool)
    (stage : Stage a.plan.State a.plan.Task K)
    (sc : Scene r)
    (w : W) :
    (stageStep x now up a token silent stage sc w).Logs sc := by
  cases stage with
  | ready s => exact act_log x now up a token silent s sc w
  | sending key next =>
      simp only [stageStep]
      rcases x.poll now key w with ⟨_ | answer, cancels, w'⟩ <;>
        simp [Told.Logs]
  | waiting due next =>
      simp only [stageStep]
      split <;> simp [Told.Logs]
  | working t => exact taskStep_log x now up a token t sc w

/-
  Whatever the depth of the run, the log takes what its
  effects offer: the actions around the innermost one add
  routes only, which are not shown.
-/
theorem tell_log
    (x : Sender W K)
    (now : Nat)
    (run : Run K k)
    (up : k.Progress → r.Progress)
    (sc : Scene r)
    (w : W) :
    (run.tell x now up sc w).Logs sc := by
  induction run with
  | here a token silent stage =>
      exact stageStep_log x now up a token silent stage sc w
  | within a token i next inner ih =>
      have hInner := ih (up ∘ a.plan.lift i)
      rw [tell]
      rcases hTell :
          inner.tell x now (up ∘ a.plan.lift i) sc w with
        ⟨⟨turn, sc', w'⟩, ds⟩
      rw [hTell] at hInner
      cases turn with
      | go inner' => exact hInner
      | wait inner' =>
          simp only [enclose]
          split <;> exact hInner
      | done o => simpa [enclose, Told.Logs] using hInner

------------------------------------------------------------
-- The Commands of a Step
------------------------------------------------------------

end Run

/- A sender that notes what it is given to send. -/
def Sender.taped
    {W K : Type}
    (x : Sender W K) :
    Sender (W × List (Apdu × RequestOptions)) K where
  submit := fun now a options w =>
    let (key, cancels, w') := x.submit now a options w.1
    (key, cancels, w', w.2 ++ [(a, options)])
  poll := fun now key w =>
    let (answer, cancels, w') := x.poll now key w.1
    (answer, cancels, w', w.2)
  withdraw := fun key w => (x.withdraw key w.1, w.2)

/- To ask for an answer leaves the tape as it is. -/
theorem Sender.poll_taped
    {W K : Type}
    {x : Sender W K}
    {now : Nat}
    {key : K}
    {w w' : W}
    {answer : Option Answer}
    {cancels : Bool}
    (hPoll : x.poll now key w = (answer, cancels, w'))
    (tape : List (Apdu × RequestOptions)) :
    x.taped.poll now key (w, tape) =
      (answer, cancels, w', tape) := by
  simp [taped, hPoll]

namespace Run

variable {W K : Type} {k r : ActionKind}

/- The same result with a tape in the world. -/
def Result.withTape
    (tape : List (Apdu × RequestOptions))
    (p : Result W K k r) :
    Result (W × List (Apdu × RequestOptions)) K k r :=
  (p.1, p.2.1, p.2.2, tape)

/- The same step in a world with a tape. -/
def Told.onTape
    (tape : List (Apdu × RequestOptions))
    (t : Told W K k r) :
    Told (W × List (Apdu × RequestOptions)) K k r :=
  (t.1.withTape (tape ++ Effect.commands t.2), t.2)

/- So does it to withdraw a command, or to give up a run. -/
theorem withdraw_taped
    {S T : Type}
    (x : Sender W K)
    (w : W)
    (tape : List (Apdu × RequestOptions))
    (stage : Stage S T K) :
    withdraw x.taped (w, tape) stage =
      (withdraw x w stage, tape) := by
  cases stage with
  | working t => cases t <;> rfl
  | _ => rfl

theorem abandon_taped
    (x : Sender W K)
    (tokens : TokenForest)
    (w : W)
    (tape : List (Apdu × RequestOptions))
    (run : Run K k) :
    run.abandon x.taped tokens (w, tape) =
      ((run.abandon x tokens w).1,
        (run.abandon x tokens w).2, tape) := by
  induction run with
  | here a t silent stage =>
      simp [abandon, withdraw_taped]
  | within a t i next inner ih => simp [abandon, ih]

/- A result that is routed, or a wait, writes nothing either. -/
theorem resume_taped
    (a : Action k)
    (token : Nat)
    (s : a.plan.State)
    (sc : Scene r)
    (w : W)
    (tape : List (Apdu × RequestOptions)) :
    resume (K := K) a token s sc (w, tape) =
      (resume a token s sc w).onTape tape := by
  unfold resume
  split <;>
    simp [Told.onTape, Result.withTape, Effect.commands_cons,
      Effect.command?]

theorem hold_taped
    (x : Sender W K)
    (a : Action k)
    (token : Nat)
    (stage : Stage a.plan.State a.plan.Task K)
    (sc : Scene r)
    (w : W)
    (tape : List (Apdu × RequestOptions)) :
    hold x.taped a token stage sc (w, tape) =
      (hold x a token stage sc w).withTape tape := by
  unfold hold
  rw [withdraw_taped]
  split <;> rfl

/- The tape of a call is the command that its effects tell. -/
theorem makeCall_taped
    (x : Sender W K)
    (now : Nat)
    (a : Action k)
    (token : Nat)
    (silent : Bool)
    (sc : Scene r)
    (w : W)
    (tape : List (Apdu × RequestOptions))
    (call :
      Call a.plan.State a.plan.Task a.plan.Child a.plan.kind) :
    makeCall x.taped now a token silent sc (w, tape) call =
      (makeCall x now a token silent sc w call).onTape tape := by
  cases call with
  | send apdu options next =>
      simp [makeCall, Sender.taped, Told.onTape,
        Result.withTape, Effect.commands_cons, Effect.command?]
  | wait ms next =>
      simp [makeCall, Told.onTape, Result.withTape]
  | task t => simp [makeCall, Told.onTape, Result.withTape]
  | child i next =>
      simp [makeCall, Told.onTape, Result.withTape]

/- A state writes what its call writes. -/
theorem act_taped
    (x : Sender W K)
    (now : Nat)
    (up : k.Progress → r.Progress)
    (a : Action k)
    (token : Nat)
    (silent : Bool)
    (s : a.plan.State)
    (sc : Scene r)
    (w : W)
    (tape : List (Apdu × RequestOptions)) :
    act x.taped now up a token silent s sc (w, tape) =
      (act x now up a token silent s sc w).onTape tape := by
  unfold act
  split
  · simp [Told.onTape, Result.withTape]
  · cases a.plan.act now s with
    | decide next =>
        simp [Told.onTape, Result.withTape,
          Effect.commands_cons, Effect.command?]
    | finish o =>
        simp [Told.onTape, Result.withTape,
          Effect.commands_cons, Effect.command?]
    | invoke s call =>
        cases silent <;>
          simp [makeCall_taped, Told.onTape, Told.after,
            Effect.commands_cons, Effect.command?]

/- A task writes the commands that it hands in. -/
theorem taskStep_taped
    (x : Sender W K)
    (now : Nat)
    (up : k.Progress → r.Progress)
    (a : Action k)
    (token : Nat)
    (stage : TaskStage a.plan.Task K)
    (sc : Scene r)
    (w : W)
    (tape : List (Apdu × RequestOptions)) :
    taskStep x.taped now up a token stage sc (w, tape) =
      (taskStep x now up a token stage sc w).onTape tape := by
  cases stage with
  | ready t =>
      simp only [taskStep]
      cases a.plan.work now t with
      | finish s => exact resume_taped ..
      | _ =>
          simp [Effect.commands_cons, Effect.command?,
            Sender.taped, Told.onTape, Result.withTape]
  | sending key next =>
      rcases hPoll : x.poll now key w with
        ⟨_ | answer, cancels, w'⟩ <;>
        simp [taskStep, hPoll, Sender.poll_taped hPoll,
          hold_taped, Told.onTape, Result.withTape]
  | sleeping due next =>
      simp only [taskStep]
      split <;> simp [Told.onTape, Result.withTape, hold_taped]
  | held next =>
      simp only [taskStep]
      split <;> simp [Told.onTape, Result.withTape, hold_taped]

/- A stage writes what its state or its task does. -/
theorem stageStep_taped
    (x : Sender W K)
    (now : Nat)
    (up : k.Progress → r.Progress)
    (a : Action k)
    (token : Nat)
    (silent : Bool)
    (stage : Stage a.plan.State a.plan.Task K)
    (sc : Scene r)
    (w : W)
    (tape : List (Apdu × RequestOptions)) :
    stageStep x.taped now up a token silent stage sc (w, tape) =
      (stageStep x now up a token silent stage sc w).onTape
        tape := by
  cases stage with
  | ready s =>
      exact act_taped x now up a token silent s sc w tape
  | sending key next =>
      rcases hPoll : x.poll now key w with
        ⟨_ | answer, cancels, w'⟩ <;>
        simp [stageStep, hPoll, Sender.poll_taped hPoll,
          hold_taped, resume_taped, Told.onTape, Told.after]
  | waiting due next =>
      simp only [stageStep]
      split
      · exact resume_taped ..
      · simp [hold_taped, Told.onTape]
  | working t =>
      exact taskStep_taped x now up a token t sc w tape

/- The effects of a step tell what its sender is given. -/
theorem tell_taped
    (x : Sender W K)
    (now : Nat)
    (run : Run K k)
    (up : k.Progress → r.Progress)
    (sc : Scene r)
    (w : W)
    (tape : List (Apdu × RequestOptions)) :
    run.tell x.taped now up sc (w, tape) =
      (run.tell x now up sc w).onTape tape := by
  induction run with
  | here a token silent stage =>
      exact stageStep_taped x now up a token silent stage sc w
        tape
  | within a token i next inner ih =>
      have hInner := ih (up ∘ a.plan.lift i)
      rw [tell, tell, hInner]
      rcases inner.tell x now (up ∘ a.plan.lift i) sc w with
        ⟨⟨turn, sc', w'⟩, ds⟩
      cases turn with
      | go inner' => rfl
      | wait inner' =>
          simp only [enclose, Told.onTape, Result.withTape,
            abandon_taped]
          split <;> rfl
      | done o =>
          simp [enclose, Told.onTape, Told.after,
            Result.withTape, resume_taped]

end Run

------------------------------------------------------------
-- Executions
------------------------------------------------------------

namespace Execution

variable {W K : Type} {k : ActionKind}

/- An execution shows what its run does, and then its outcome. -/
theorem step_log
    (x : Sender W K)
    (now : Nat)
    (e : Execution K k)
    (w : W) :
    (e.step x now w).2.1.scene.log =
      e.scene.log.offerAll
        (Effect.states (e.effects x now w)) := by
  rcases e with ⟨_ | run, sc⟩
  · rfl
  · have hRun := run.tell_log x now id sc w
    simp only [step, effects, tell]
    rcases hTell : run.tell x now id sc w with
      ⟨⟨turn, sc', w'⟩, ds⟩
    rw [hTell] at hRun
    cases turn with
    | go run' => exact hRun
    | wait run' => exact hRun
    | done o =>
        simp only [Run.Told.Logs] at hRun
        simp [hRun, ActionLog.offerAll_append,
          Effect.states_cons, Effect.state?]

/- An outcome is not written to the tape. -/
theorem step_taped
    (x : Sender W K)
    (now : Nat)
    (e : Execution K k)
    (w : W)
    (tape : List (Apdu × RequestOptions)) :
    e.step x.taped now (w, tape) =
      ((e.step x now w).1, (e.step x now w).2.1,
        (e.step x now w).2.2,
        tape ++ Effect.commands (e.effects x now w)) := by
  rcases e with ⟨_ | run, sc⟩
  · simp [step, effects, tell]
  · simp only [step, effects, tell,
      run.tell_taped x now id sc w tape]
    rcases run.tell x now id sc w with ⟨⟨turn, sc', w'⟩, ds⟩
    cases turn <;>
      simp [Run.Told.onTape, Run.Result.withTape,
        Effect.commands_cons, Effect.command?]

/- What happens in a step of the run happens in one of it. -/
theorem mem_effects
    {x : Sender W K}
    {now : Nat}
    {e : Execution K k}
    {w : W}
    {run : Run K k}
    {d : Effect k}
    (hRun : e.run = some run)
    (hEffect : d ∈ run.effects x now id e.scene w) :
    d ∈ e.effects x now w := by
  rw [Run.effects] at hEffect
  simp only [effects, tell, hRun]
  rcases hTell : run.tell x now id e.scene w with
    ⟨⟨turn, sc', w'⟩, ds⟩
  rw [hTell] at hEffect
  cases turn with
  | go run' => exact hEffect
  | wait run' => exact hEffect
  | done o => exact List.mem_append_left _ hEffect

end Execution

------------------------------------------------------------
-- Performances
------------------------------------------------------------

/- What may happen next to an execution. -/
inductive Cue (W : Type) (k : ActionKind) where
  /- The run is stepped, at a time. -/
  | step (now : Nat)
  | cancel
  /- Something else happens in the world. -/
  | outside (f : W → W)
  /- Progress is shown on behalf of a token, by something that
     a task has left behind. -/
  | report (token : Nat) (progress : k.Progress)
  /- A token is cancelled by a task that holds it. -/
  | cut (token : Nat)

/- An execution in a world, with its effects so far. -/
structure Performance (W K : Type) (k : ActionKind) where
  execution : Execution K k
  world : W
  effects : List (Effect k)

namespace Performance

variable {W K : Type} {k : ActionKind}

/- An action that has not been stepped. -/
def start (a : Action k) (w : W) : Performance W K k where
  execution := .start a
  world := w
  effects := []

/- What the log holds. -/
def states (p : Performance W K k) : List k.State :=
  p.execution.scene.log.entries.toList

/- Let one thing happen. -/
def next
    (x : Sender W K)
    (p : Performance W K k)
    (cue : Cue W k) : Performance W K k :=
  let { execution, world, effects } := p
  let { run, scene } := execution
  match cue with
  | .step now =>
      let (_, execution', world') := execution.step x now world
      { execution := execution'
        world := world'
        effects := effects ++ execution.effects x now world }
  | .cancel =>
      { execution := execution.cancel
        world
        effects := effects ++ [.cancel] }
  | .outside f => { execution, world := f world, effects }
  | .report token i =>
      { execution := { run, scene := scene.report token i }
        world
        effects := effects ++ Effect.ofReport scene token i }
  | .cut token =>
      let tokens := (scene.tokens.cancel token).2
      { execution := { run, scene := { scene with tokens } }
        world
        effects }

/- A step of an action that has ended does nothing. -/
theorem next_step_of_ended
    (x : Sender W K)
    {p : Performance W K k}
    (hEnded : p.execution.run = none)
    (now : Nat) :
    p.next x (.step now) = p := by
  simp [next, Execution.step, Execution.effects,
    Execution.tell, hEnded]

/- Let things happen in turn. -/
def run
    (x : Sender W K)
    (p : Performance W K k)
    (cues : List (Cue W k)) : Performance W K k :=
  cues.foldl (next x) p

@[simp]
theorem run_nil (x : Sender W K) (p : Performance W K k) :
    p.run x [] = p :=
  rfl

@[simp]
theorem run_cons
    (x : Sender W K)
    (p : Performance W K k)
    (cue : Cue W k)
    (cues : List (Cue W k)) :
    p.run x (cue :: cues) = (p.next x cue).run x cues :=
  rfl

/- What happens in two parts happens in turn. -/
theorem run_append
    (x : Sender W K)
    (p : Performance W K k)
    (cues more : List (Cue W k)) :
    p.run x (cues ++ more) = (p.run x cues).run x more :=
  List.foldl_append

/- What each thing that happens keeps is kept all along. -/
theorem run_induction
    {x : Sender W K}
    {Keeps : Performance W K k → Prop}
    {p : Performance W K k}
    (cues : List (Cue W k))
    (hStart : Keeps p)
    (hNext :
      ∀ q, Keeps q → ∀ cue ∈ cues, Keeps (q.next x cue)) :
    Keeps (p.run x cues) := by
  induction cues generalizing p with
  | nil => exact hStart
  | cons cue cues ih =>
      apply ih
      · exact hNext p hStart cue List.mem_cons_self
      · intro q hKeeps cue' hCue
        exact hNext q hKeeps cue' (List.mem_cons_of_mem cue hCue)

/- Effects are added at the end, and the log takes them. -/
theorem next_log
    (x : Sender W K)
    (p : Performance W K k)
    (cue : Cue W k) :
    ∃ ds,
      (p.next x cue).effects = p.effects ++ ds ∧
      (p.next x cue).execution.scene.log =
        p.execution.scene.log.offerAll (Effect.states ds) := by
  cases cue with
  | step now =>
      exact ⟨_, rfl, p.execution.step_log x now p.world⟩
  | cancel => exact ⟨_, rfl, rfl⟩
  | outside f => exact ⟨[], by simp [next], rfl⟩
  | report token i => exact ⟨_, rfl, by simp [next]⟩
  | cut token => exact ⟨[], by simp [next], rfl⟩

/- So they are all along. -/
theorem run_log
    (x : Sender W K)
    (p : Performance W K k)
    (cues : List (Cue W k)) :
    ∃ ds,
      (p.run x cues).effects = p.effects ++ ds ∧
      (p.run x cues).execution.scene.log =
        p.execution.scene.log.offerAll (Effect.states ds) := by
  induction cues generalizing p with
  | nil => exact ⟨[], by simp, rfl⟩
  | cons cue cues ih =>
      rcases p.next_log x cue with ⟨ds, hEffects, hLog⟩
      rcases ih (p.next x cue) with ⟨es, hEffects', hLog'⟩
      refine ⟨ds ++ es, ?_, ?_⟩
      · rw [run_cons, hEffects', hEffects, List.append_assoc]
      · rw [run_cons, hLog', hLog, Effect.states_append,
          ActionLog.offerAll_append]

------------------------------------------------------------
-- What the Sender Is Given
------------------------------------------------------------

end Performance

/- The same cue in a world with a tape. -/
def Cue.taped
    {W : Type}
    {k : ActionKind} :
    Cue W k → Cue (W × List (Apdu × RequestOptions)) k
  | step now => step now
  | cancel => cancel
  | outside f => outside fun w => (f w.1, w.2)
  | report token i => report token i
  | cut token => cut token

namespace Performance

variable {W K : Type} {k : ActionKind}

/- One performance with a tape of what another one has sent. -/
structure Tapes
    (p : Performance W K k)
    (q : Performance (W × List (Apdu × RequestOptions)) K k) :
    Prop where
  execution : q.execution = p.execution
  world : q.world = (p.world, Effect.commands p.effects)

/- Each thing that happens keeps the tape. -/
theorem Tapes.next
    {x : Sender W K}
    {p : Performance W K k}
    {q : Performance (W × List (Apdu × RequestOptions)) K k}
    (hTapes : p.Tapes q)
    (cue : Cue W k) :
    (p.next x cue).Tapes (q.next x.taped cue.taped) := by
  rcases p with ⟨e, w, ds⟩
  rcases q with ⟨e', w', ds'⟩
  obtain rfl : e' = e := hTapes.execution
  obtain rfl : w' = (w, Effect.commands ds) := hTapes.world
  cases cue with
  | step now =>
      have hStep :=
        e'.step_taped x now w (Effect.commands ds)
      constructor
      · simp [Performance.next, Cue.taped, hStep]
      · simp [Performance.next, Cue.taped, hStep]
  | report token i =>
      exact ⟨rfl, by simp [Performance.next, Cue.taped]⟩
  | cancel =>
      refine ⟨rfl, ?_⟩
      simp [Performance.next, Cue.taped, Effect.commands_cons,
        Effect.command?]
  | outside f => exact ⟨rfl, rfl⟩
  | cut token => exact ⟨rfl, rfl⟩

/- The effects tell what a sender is given all along. -/
theorem Tapes.run
    {x : Sender W K}
    {p : Performance W K k}
    {q : Performance (W × List (Apdu × RequestOptions)) K k}
    (hTapes : p.Tapes q)
    (cues : List (Cue W k)) :
    (p.run x cues).Tapes
      (q.run x.taped (cues.map Cue.taped)) := by
  induction cues generalizing p q with
  | nil => exact hTapes
  | cons cue cues ih => exact ih (hTapes.next cue)

end Performance

end DeviceSession
