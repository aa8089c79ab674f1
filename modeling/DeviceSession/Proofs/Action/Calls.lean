import DeviceSession.Action.Run

/-
  The call that a run has under way.

  At most one command of a run is under way at a time.  A
  step hands one in when there is none, and otherwise asks
  for the answer: it takes the answer, or waits for it, or
  gives up on it and ends.

  Key definitions include:
    * `Run.key?`
    * `Run.Handles`

  Main declarations:
    * `Run.step_handles`
-/

------------------------------------------------------------
-- Calls under Way
------------------------------------------------------------

namespace DeviceSession

/- The key of the command whose answer is awaited. -/
def Stage.key? {S T K : Type} : Stage S T K → Option K
  | .sending key _ => some key
  | .working (.sending key _) => some key
  | _ => none

namespace Run

variable {W K : Type} {k r : ActionKind}

/- The key of the command whose answer is awaited. -/
def key? {k : ActionKind} : Run K k → Option K
  | here _ _ _ stage => stage.key?
  | within _ _ _ _ inner => inner.key?

/- The command that is under way after a step. -/
def Result.key? : Result W K k r → Option K
  | (.go run, _, _) => run.key?
  | (.wait run, _, _) => run.key?
  | (.done _, _, _) => none

/- The world after giving up on a command, if there is one. -/
def withdrawn
    (x : Sender W K)
    (w : W)
    (key : Option K) : W :=
  key.elim w fun key => x.withdraw key w

/- A stage withdraws the command it waits for. -/
theorem withdraw_eq
    {S T : Type}
    (x : Sender W K)
    (w : W)
    (stage : Stage S T K) :
    withdraw x w stage = withdrawn x w stage.key? := by
  cases stage with
  | working t => cases t <;> rfl
  | _ => rfl

/- A run withdraws the one of its innermost action. -/
theorem abandon_eq
    (x : Sender W K)
    (tokens : TokenForest)
    (w : W)
    (run : Run K k) :
    (run.abandon x tokens w).2 = withdrawn x w run.key? := by
  induction run with
  | here a t silent stage => exact withdraw_eq x w stage
  | within a t i next inner ih => exact ih

------------------------------------------------------------
-- What a Step Does with Them
------------------------------------------------------------

/-
  What a step that begins in a world does with the command
  that is under way, or with a new one.
-/
inductive Handles
    (x : Sender W K)
    (now : Nat)
    (w : W) : Option K → Result W K k r → Prop where
  | nothing
      {p : Result W K k r}
      (hKey : p.key? = none)
      (hWorld : p.2.2 = w) :
      Handles x now w none p
  | submit
      {run : Run K k}
      {sc : Scene r}
      (a : Apdu)
      (options : RequestOptions)
      (hKey : run.key? = some (x.submit now a options w).1) :
      Handles x now w none
        (.go run, sc, (x.submit now a options w).2.2)
  | answer
      {key : K}
      {answer : Answer}
      {p : Result W K k r}
      (hPoll : (x.poll now key w).1 = some answer)
      (hKey : p.key? = none)
      (hWorld : p.2.2 = (x.poll now key w).2.2) :
      Handles x now w (some key) p
  | wait
      {key : K}
      {p : Result W K k r}
      (hPoll : (x.poll now key w).1 = none)
      (hKey : p.key? = some key)
      (hWorld : p.2.2 = (x.poll now key w).2.2) :
      Handles x now w (some key) p
  | withdraw
      {key : K}
      {p : Result W K k r}
      (hPoll : (x.poll now key w).1 = none)
      (hKey : p.key? = none)
      (hWorld :
        p.2.2 = x.withdraw key (x.poll now key w).2.2) :
      Handles x now w (some key) p

section Stages

variable (x : Sender W K) (now : Nat)
variable (a : Action k) (token : Nat) (sc : Scene r) (w : W)

/- An action that goes on waits for no command. -/
theorem key?_resume (s : a.plan.State) :
    Result.key? (resume (K := K) a token s sc w).1 = none := by
  unfold resume
  split <;> rfl

/- It asks nothing of the world. -/
theorem world_resume (s : a.plan.State) :
    (resume (K := K) a token s sc w).1.2.2 = w := by
  unfold resume
  split <;> rfl

/- Nothing is given up where no command is under way. -/
theorem handles_hold
    (stage : Stage a.plan.State a.plan.Task K)
    (hKey : stage.key? = none) :
    Handles x now w none (hold x a token stage sc w) := by
  unfold hold
  rw [withdraw_eq, hKey]
  split
  · exact .nothing rfl rfl
  · exact .nothing hKey rfl

/- A command without an answer is waited for. -/
theorem handles_poll_none
    (key : K)
    (stage : Stage a.plan.State a.plan.Task K)
    (hKey : stage.key? = some key)
    (hPoll : (x.poll now key w).1 = none) :
    Handles x now w (some key)
      (hold x a token stage sc (x.poll now key w).2.2) := by
  unfold hold
  rw [withdraw_eq, hKey]
  split
  · exact .withdraw hPoll rfl rfl
  · exact .wait hPoll hKey rfl

/- A call hands in a command, or does nothing. -/
theorem handles_makeCall
    (silent : Bool)
    (call :
      Call a.plan.State a.plan.Task a.plan.Child a.plan.kind) :
    Handles x now w none
      (makeCall x now a token silent sc w call).1 := by
  cases call with
  | send apdu options next => exact .submit apdu options rfl
  | _ => exact .nothing rfl rfl

/- So does an action in a state. -/
theorem handles_act
    (up : k.Progress → r.Progress)
    (silent : Bool)
    (s : a.plan.State) :
    Handles x now w none
      (act x now up a token silent s sc w).1 := by
  unfold act
  split
  · exact .nothing rfl rfl
  · cases a.plan.act now s with
    | invoke here call => exact handles_makeCall ..
    | _ => exact .nothing rfl rfl

/- A task takes the answer, and may hand in another. -/
theorem handles_taskStep
    (up : k.Progress → r.Progress)
    (stage : TaskStage a.plan.Task K) :
    Handles x now w
      (Stage.working (S := a.plan.State) stage).key?
      (taskStep x now up a token stage sc w).1 := by
  cases stage with
  | ready t =>
      simp only [taskStep]
      cases a.plan.work now t with
      | send apdu options next => exact .submit apdu options rfl
      | finish s =>
          exact .nothing (key?_resume ..) (world_resume ..)
      | _ => exact .nothing rfl rfl
  | sending key next =>
      have hNone :=
        handles_poll_none x now a token
          (sc.cancelIf (x.poll now key w).2.1) w key
          (.working (.sending key next)) rfl
      simp only [taskStep]
      rcases hPoll : x.poll now key w with
        ⟨_ | answer, cancels, w'⟩
      · rw [hPoll] at hNone
        exact hNone rfl
      · exact .answer (by rw [hPoll]) rfl (by rw [hPoll])
  | sleeping due next =>
      simp only [taskStep]
      split
      · exact .nothing rfl rfl
      · exact handles_hold x now a token sc w _ rfl
  | held next =>
      simp only [taskStep]
      split
      · exact .nothing rfl rfl
      · exact handles_hold x now a token sc w _ rfl

/- So does a step at any stage. -/
theorem handles_stageStep
    (up : k.Progress → r.Progress)
    (silent : Bool)
    (stage : Stage a.plan.State a.plan.Task K) :
    Handles x now w stage.key?
      (stageStep x now up a token silent stage sc w).1 := by
  cases stage with
  | ready s => exact handles_act ..
  | sending key next =>
      have hNone :=
        handles_poll_none x now a token
          (sc.cancelIf (x.poll now key w).2.1) w key
          (.sending key next) rfl
      simp only [stageStep]
      rcases hPoll : x.poll now key w with
        ⟨_ | answer, cancels, w'⟩
      · rw [hPoll] at hNone
        exact hNone rfl
      · apply Handles.answer (by rw [hPoll])
        · exact key?_resume ..
        · rw [hPoll]
          exact world_resume ..
  | waiting due next =>
      simp only [stageStep]
      split
      · exact .nothing (key?_resume ..) (world_resume ..)
      · exact handles_hold x now a token sc w _ rfl
  | working t => exact handles_taskStep ..

end Stages

section Nested

variable {k' : ActionKind}
variable {x : Sender W K} {now : Nat} {w w' : W}
variable {key : Option K} {sc : Scene r}

/- An action around it that goes on does nothing more. -/
theorem Handles.around
    {turn : Turn (Run K k') k'.Outcome}
    {f : Run K k' → Run K k}
    (o : k'.Outcome → k.Outcome)
    (hSame : ∀ inner, (f inner).key? = inner.key?)
    (hInner : Handles x now w key (turn, sc, w')) :
    Handles x now w key (turn.map f o, sc, w') := by
  have hKeep :
      Result.key? (turn.map f o, sc, w') =
        Result.key? (turn, sc, w') := by
    cases turn with
    | go inner => exact hSame inner
    | wait inner => exact hSame inner
    | done _ => rfl
  cases hInner with
  | nothing hKey hWorld =>
      exact .nothing (hKeep.trans hKey) hWorld
  | submit a options hKey =>
      exact .submit a options (hKeep.trans hKey)
  | answer hPoll hKey hWorld =>
      exact .answer hPoll (hKeep.trans hKey) hWorld
  | wait hPoll hKey hWorld =>
      exact .wait hPoll (hKeep.trans hKey) hWorld
  | withdraw hPoll hKey hWorld =>
      exact .withdraw hPoll (hKeep.trans hKey) hWorld

/- An action around it may give it up while it waits. -/
theorem Handles.abandon
    {inner : Run K k'}
    {sc' : Scene r}
    {o : k.Outcome}
    (tokens : TokenForest)
    (hInner : Handles x now w key (.wait inner, sc, w')) :
    Handles x now w key
      ((.done o, sc', (inner.abandon x tokens w').2) :
        Result W K k r) := by
  have hAbandon := inner.abandon_eq x tokens w'
  cases hInner with
  | nothing hKey hWorld =>
      change inner.key? = none at hKey
      rw [hKey] at hAbandon
      exact .nothing rfl (hAbandon.trans hWorld)
  | answer hPoll hKey hWorld =>
      change inner.key? = none at hKey
      rw [hKey] at hAbandon
      exact .answer hPoll rfl (hAbandon.trans hWorld)
  | wait hPoll hKey hWorld =>
      change inner.key? = some _ at hKey
      change w' = _ at hWorld
      rw [hKey] at hAbandon
      subst hWorld
      exact .withdraw hPoll rfl hAbandon
  | withdraw hPoll hKey hWorld =>
      change inner.key? = none at hKey
      rw [hKey] at hAbandon
      exact .withdraw hPoll rfl (hAbandon.trans hWorld)

/- An action around it goes on once it has ended. -/
theorem Handles.resume
    {a : Action k}
    {token : Nat}
    {s : a.plan.State}
    {sc' : Scene r}
    {o : k'.Outcome}
    (hInner :
      Handles x now w key
        ((.done o, sc, w') : Result W K k' r)) :
    Handles x now w key
      (Run.resume (K := K) a token s sc' w').1 := by
  have hKey := key?_resume (K := K) a token sc' w' s
  have hWorld := world_resume (K := K) a token sc' w' s
  cases hInner with
  | nothing _ hSame => exact .nothing hKey (hWorld.trans hSame)
  | answer hPoll _ hSame =>
      exact .answer hPoll hKey (hWorld.trans hSame)
  | wait hPoll hOpen hSame => cases hOpen
  | withdraw hPoll _ hSame =>
      exact .withdraw hPoll hKey (hWorld.trans hSame)

end Nested

/- Every step handles commands in one of these ways. -/
theorem step_handles
    (x : Sender W K)
    (now : Nat)
    (run : Run K k)
    (up : k.Progress → r.Progress)
    (sc : Scene r)
    (w : W) :
    Handles x now w run.key? (run.step x now up sc w) := by
  induction run with
  | here a token silent stage => exact handles_stageStep ..
  | within a token i next inner ih =>
      have hInner := ih (up ∘ a.plan.lift i)
      rw [step, tell, key?]
      rcases hTell :
          inner.tell x now (up ∘ a.plan.lift i) sc w with
        ⟨⟨turn, sc', w'⟩, ds⟩
      rw [step, hTell] at hInner
      have hAround : ∀ inner : Run K (a.plan.kind i),
          (within a token i next inner).key? = inner.key? :=
        fun _ => rfl
      cases turn with
      | go inner' =>
          exact hInner.around (fun _ => .stopped) hAround
      | wait inner' =>
          simp only [enclose]
          split
          · exact hInner.abandon sc'.tokens
          · exact hInner.around (fun _ => .stopped) hAround
      | done o => exact hInner.resume

end Run

/- The command of an execution that is under way. -/
def Execution.key?
    {K : Type}
    {k : ActionKind}
    (e : Execution K k) : Option K :=
  e.run.bind Run.key?

end DeviceSession
