import DeviceSession.Proofs.Action.Evidence

/-
  Steps of an action that nobody has cancelled.

  As long as an action runs no other one and makes no use of
  tasks, what a step of it does depends on its stage: a call
  is made, an answer comes, a wait is over, or the run ends.
  There is one fact for each of these.

  Key definitions include:
    * `Performance.Underway`

  Main declarations:
    * `Performance.Underway.send`
    * `Performance.Underway.wait`
    * `Performance.Underway.poll`
    * `Performance.Underway.wake`
    * `Performance.Underway.finish`
-/

------------------------------------------------------------
-- Runs Under Way
------------------------------------------------------------

namespace DeviceSession

/- An open log shows what it has been offered last. -/
theorem ActionLog.latest?_offer
    {I O E : Type}
    {l : ActionLog I O E}
    (s : ActionState I O E)
    (hOpen : l.finished = false) :
    (l.offer s).latest? = some s := by
  simp [latest?, entries_offer s hOpen]

namespace Performance

section Stages

variable {W K : Type} {k : ActionKind}

/-
  A run goes on that has told no outcome yet, and that nobody
  has cancelled.
-/
structure Underway
    (q : Performance W K k)
    (run : Run K k) : Prop where
  run : q.execution.run = some run
  isOpen : q.execution.scene.Open
  unfinished : q.execution.scene.log.finished = false
  outcomes : Effect.outcomes q.effects = []

variable {x : Sender W K} {now : Nat}
variable {q : Performance W K k} {a : Action k}
variable {silent : Bool}

namespace Underway

/- A step that goes on or waits leads to another run. -/
theorem next_step
    {run run' : Run K k}
    {turn : Turn (Run K k) k.Outcome}
    {sc' : Scene k}
    {w' : W}
    (hUnderway : q.Underway run)
    (hStep :
      run.step x now id q.execution.scene q.world =
        (turn, sc', w'))
    (hTurn : turn = .go run' ∨ turn = .wait run')
    (hOpen : sc'.Open)
    (hUnfinished : sc'.log.finished = false) :
    let q' := q.next x (.step now)
    q'.Underway run' ∧ q'.world = w' ∧
      q'.execution.scene = sc' := by
  have hRun := hUnderway.run
  have hOutcomes :=
    run.outcomes_effects x now id q.execution.scene q.world
  intro q'
  have hNext :
      q' =
        ⟨⟨some run', sc'⟩, w',
          q.effects ++
            run.effects x now id q.execution.scene q.world⟩ := by
    rw [Run.step] at hStep
    rcases hTell :
        run.tell x now id q.execution.scene q.world with
      ⟨p, es⟩
    obtain rfl : p = (turn, sc', w') := by
      rw [hTell] at hStep
      exact hStep
    rcases hTurn with rfl | rfl <;>
      simp [q', next, Execution.step, Execution.effects,
        Execution.tell, Run.effects, hRun, hTell]
  rw [hNext]
  refine ⟨⟨rfl, hOpen, hUnfinished, ?_⟩, rfl, rfl⟩
  simp [hUnderway.outcomes, hOutcomes]

theorem cancel_not_mem
    {run : Run K k}
    (hUnderway : q.Underway run)
    (hUncancelled :
      .cancel ∉ (q.next x (.step now)).effects) :
    .cancel ∉
      run.effects x now id q.execution.scene q.world := by
  intro hCancel
  apply hUncancelled
  exact List.mem_append_right _
    (Execution.mem_effects hUnderway.run hCancel)

/- What is shown for a call, unless it has been before. -/
theorem scene_shown
    {run : Run K k}
    (hUnderway : q.Underway run)
    (silent : Bool)
    (i : k.Progress) :
    let sc :=
      if silent then q.execution.scene
      else q.execution.scene.report Scene.root i
    sc.Open ∧ sc.log.finished = false ∧
      sc.log.latest?.getD .notStarted =
        if silent then q.execution.latest else .pending i := by
  have hOpen := hUnderway.isOpen
  have hUnfinished := hUnderway.unfinished
  cases silent with
  | true => exact ⟨hOpen, hUnfinished, rfl⟩
  | false =>
      have hLog := Scene.log_report_of_open Scene.root i hOpen
      refine ⟨Scene.open_report Scene.root i hOpen, ?_, ?_⟩ <;>
        simp only [Bool.false_eq_true, if_false, hLog]
      · rw [ActionLog.finished_offer, hUnfinished]
        rfl
      · rw [ActionLog.latest?_offer _ hUnfinished]
        rfl

theorem tell_invoke
    {s here : a.plan.State}
    {call :
      Call a.plan.State a.plan.Task a.plan.Child a.plan.kind}
    (hUnderway :
      q.Underway (.here a Scene.root silent (.ready s)))
    (hAct : a.plan.act now s = .invoke here call) :
    let sc := q.execution.scene
    let i := a.plan.view here
    Run.tell x now (.here a Scene.root silent (.ready s)) id sc
        q.world =
      (Run.makeCall x now a Scene.root silent
        (if silent then sc else sc.report Scene.root i)
        q.world call).after
        (.enter Scene.root ::
          if silent then []
          else Effect.ofReport sc Scene.root i) := by
  cases silent <;>
    simp [Run.tell, Run.stageStep, Run.act, hAct,
      hUnderway.isOpen Scene.root]

theorem world_send
    {s here : a.plan.State}
    {apdu : Apdu}
    {options : RequestOptions}
    {next : Nat → Answer → a.plan.State}
    (hUnderway :
      q.Underway (.here a Scene.root silent (.ready s)))
    (hAct :
      a.plan.act now s =
        .invoke here (.send apdu options next)) :
    (q.next x (.step now)).world =
      (x.submit now apdu options q.world).2.2 := by
  have hRun := hUnderway.run
  have hTell := hUnderway.tell_invoke (x := x) hAct
  simp only [Performance.next, Execution.step, Execution.tell,
    hRun, hTell]
  rfl

/- A command is handed in. -/
theorem send
    {s here : a.plan.State}
    {apdu : Apdu}
    {options : RequestOptions}
    {next : Nat → Answer → a.plan.State}
    (hUnderway :
      q.Underway (.here a Scene.root silent (.ready s)))
    (hAct :
      a.plan.act now s =
        .invoke here (.send apdu options next))
    (hUncancelled :
      .cancel ∉ (q.next x (.step now)).effects) :
    let q' := q.next x (.step now)
    let submitted := x.submit now apdu options q.world
    q'.Underway
        (.here a Scene.root false
          (.sending submitted.1 next)) ∧
      q'.world = submitted.2.2 ∧
      q'.execution.latest =
        if silent then q.execution.latest
        else .pending (a.plan.view here) := by
  have hNone := hUnderway.cancel_not_mem hUncancelled
  have hTell := hUnderway.tell_invoke (x := x) hAct
  rcases hSubmit : x.submit now apdu options q.world with
    ⟨key, cancels, w'⟩
  obtain rfl : cancels = false := by
    rw [Run.effects, hTell, Run.effects_after,
      List.mem_append, not_or] at hNone
    simpa [Run.makeCall, hSubmit] using hNone.2
  have hStep := congrArg Prod.fst hTell
  simp only [Run.result_after, Run.makeCall, hSubmit] at hStep
  obtain ⟨hOpen, hUnfinished, hLatest⟩ :=
    hUnderway.scene_shown silent (a.plan.view here)
  obtain ⟨hNext, hWorld, hScene⟩ :=
    hUnderway.next_step hStep (.inl rfl) hOpen hUnfinished
  refine ⟨hNext, hWorld, ?_⟩
  rw [Execution.latest, hScene]
  exact hLatest

/- A wait begins. -/
theorem wait
    {s here : a.plan.State}
    {ms : Nat}
    {next : Nat → a.plan.State}
    (hUnderway :
      q.Underway (.here a Scene.root silent (.ready s)))
    (hAct : a.plan.act now s = .invoke here (.wait ms next)) :
    let q' := q.next x (.step now)
    q'.Underway
        (.here a Scene.root false (.waiting (now + ms) next)) ∧
      q'.world = q.world ∧
      q'.execution.latest =
        if silent then q.execution.latest
        else .pending (a.plan.view here) := by
  intro q'
  have hStep :=
    congrArg Prod.fst (hUnderway.tell_invoke (x := x) hAct)
  obtain ⟨hOpen, hUnfinished, hLatest⟩ :=
    hUnderway.scene_shown silent (a.plan.view here)
  obtain ⟨hNext, hWorld, hScene⟩ :=
    hUnderway.next_step hStep (.inl rfl) hOpen hUnfinished
  refine ⟨hNext, hWorld, ?_⟩
  rw [Execution.latest, hScene]
  exact hLatest

/- An answer is asked for, and has come or not. -/
theorem poll
    {key : K}
    {next : Nat → Answer → a.plan.State}
    (hUnderway :
      q.Underway (.here a Scene.root silent (.sending key next)))
    (hUncancelled :
      .cancel ∉ (q.next x (.step now)).effects) :
    let q' := q.next x (.step now)
    let polled := x.poll now key q.world
    q'.Underway
        (.here a Scene.root false
          (polled.1.elim (.sending key next)
            fun answer => .ready (next now answer))) ∧
      q'.world = polled.2.2 ∧
      q'.execution.scene = q.execution.scene := by
  intro q' polled
  have hOpen := hUnderway.isOpen
  have hNone := hUnderway.cancel_not_mem hUncancelled
  rcases hPoll : x.poll now key q.world with
    ⟨answer, cancels, w'⟩
  have hFlag : cancels = false := by
    cases answer <;>
      simp_all [Run.effects, Run.tell, Run.stageStep]
  have hStep :
      ∃ turn,
        Run.step x now
            (.here a Scene.root silent (.sending key next)) id
            q.execution.scene q.world =
          (turn, q.execution.scene, w') ∧
        (∀ stage,
          stage = answer.elim (.sending key next)
            (fun answer => Stage.ready (next now answer)) →
          turn = .go (.here a Scene.root false stage) ∨
          turn = .wait (.here a Scene.root false stage)) := by
    cases answer <;>
      simp [Run.step, Run.tell, Run.stageStep, hPoll, hFlag,
        Run.resume, Run.hold, hOpen Scene.root, Scene.cancelIf]
  obtain ⟨turn, hStep, hTurn⟩ := hStep
  simpa [q', polled, hPoll] using
    hUnderway.next_step hStep (hTurn _ rfl) hOpen
      hUnderway.unfinished

/- A wait goes on before its time. -/
theorem stay
    {due : Nat}
    {next : Nat → a.plan.State}
    (hUnderway :
      q.Underway (.here a Scene.root false (.waiting due next)))
    (hEarly : now < due) :
    q.next x (.step now) = q := by
  rcases q with ⟨⟨run, sc⟩, w, ds⟩
  obtain rfl : run = _ := hUnderway.run
  have hOpen : sc.tokens.isCancelled Scene.root = false :=
    hUnderway.isOpen Scene.root
  simp [Performance.next, Execution.step, Execution.effects,
    Execution.tell, Run.tell, Run.stageStep, Run.hold,
    Nat.not_le.mpr hEarly, hOpen]

/- A wait is over at its time. -/
theorem wake
    {due : Nat}
    {next : Nat → a.plan.State}
    (hUnderway :
      q.Underway (.here a Scene.root silent (.waiting due next)))
    (hDue : due ≤ now) :
    let q' := q.next x (.step now)
    q'.Underway
        (.here a Scene.root false (.ready (next now))) ∧
      q'.world = q.world ∧
      q'.execution.scene = q.execution.scene := by
  have hStep :
      Run.step x now
          (.here a Scene.root silent (.waiting due next)) id
          q.execution.scene q.world =
        (.go (.here a Scene.root false (.ready (next now))),
          q.execution.scene, q.world) := by
    simp [Run.step, Run.tell, Run.stageStep, Run.resume, hDue,
      hUnderway.isOpen Scene.root]
  exact hUnderway.next_step hStep (.inl rfl) hUnderway.isOpen
    hUnderway.unfinished

/- A wait goes on, or it is over. -/
theorem stay_or_wake
    {due : Nat}
    {next : Nat → a.plan.State}
    (now : Nat)
    (hUnderway :
      q.Underway
        (.here a Scene.root false (.waiting due next))) :
    let q' := q.next x (.step now)
    q' = q ∨
      q'.Underway
          (.here a Scene.root false (.ready (next now))) ∧
        q'.world = q.world ∧
        q'.execution.scene = q.execution.scene := by
  by_cases hDue : due ≤ now
  · exact .inr (hUnderway.wake hDue)
  · exact .inl (hUnderway.stay (Nat.not_le.mp hDue))

/- What happens in the world does not lead to another run. -/
theorem outside
    {run : Run K k}
    (hUnderway : q.Underway run)
    (f : W → W) :
    (q.next x (.outside f)).Underway run :=
  ⟨hUnderway.run, hUnderway.isOpen, hUnderway.unfinished,
    hUnderway.outcomes⟩

/- The run ends. -/
theorem finish
    {s : a.plan.State}
    {o : k.Outcome}
    (hUnderway :
      q.Underway (.here a Scene.root silent (.ready s)))
    (hAct : a.plan.act now s = .finish o) :
    let q' := q.next x (.step now)
    q'.execution.run = none ∧
      q'.world = q.world ∧
      Effect.outcomes q'.effects = [o] ∧
      q'.execution.latest = o.state := by
  rcases q with ⟨⟨run, sc⟩, w, ds⟩
  obtain rfl : run = _ := hUnderway.run
  have hOpen : sc.tokens.isCancelled Scene.root = false :=
    hUnderway.isOpen Scene.root
  have hUnfinished : sc.log.finished = false :=
    hUnderway.unfinished
  have hOutcomes : Effect.outcomes ds = [] :=
    hUnderway.outcomes
  simp [next, Execution.step, Execution.effects,
    Execution.tell, Run.tell, Run.stageStep, Run.act, hOpen,
    hAct, hOutcomes, Execution.latest, Effect.outcomes_cons,
    Effect.outcome?, ActionLog.latest?_offer _ hUnfinished]

end Underway

end Stages

end Performance

end DeviceSession
