import DeviceSession.Proofs.Action.Calls
import DeviceSession.Proofs.Action.Evidence

/-
  What an action may do before it ends.

  The outlay of an action is the number of its moves, with
  its correspondence.  An action that runs another one goes
  on with the outlay of that one on top of its own.  A
  contract says which outlays an action may have, and what
  it leaves behind.  It is kept if what is known in the
  states of a plan, at a time and with an outlay, fits it
  node by node.
  Then every run keeps it, whatever is answered and whenever,
  cancelled or not, as long as time does not go back.

  Key definitions include:
    * `Outlay`
    * `Contract`
    * `Notes`
    * `Action.Honours`
    * `Run.Tracks`

  Main declarations:
    * `Run.Tracks.step`
-/

------------------------------------------------------------
-- Outlays
------------------------------------------------------------

namespace DeviceSession

/- What an action has done since it began. -/
structure Outlay where
  /- The number of times that it has gone on. -/
  moves : Nat := 0
  letters : Correspondence := []

namespace Outlay

def move (g : Outlay) : Outlay :=
  { g with moves := g.moves + 1 }

/- A move that hands in a command. -/
def write (g : Outlay) (a : Apdu) : Outlay where
  moves := g.moves + 1
  letters := (a, none) :: g.letters

/- A move that takes the answer to the latest command. -/
def read (g : Outlay) (answer : Answer) : Outlay where
  moves := g.moves + 1
  letters := g.letters.answered (some answer)

/- What one action has done after what went before. -/
def after (g before : Outlay) : Outlay where
  moves := before.moves + g.moves
  letters := g.letters ++ before.letters

end Outlay

/- An answer is noted where its command stands. -/
theorem Sender.poll_noted
    {W K : Type}
    (x : Sender W K)
    (now : Nat)
    (key : K)
    (w : W × Correspondence) :
    x.noted.poll now key w =
      ((x.poll now key w.1).1, (x.poll now key w.1).2.1,
        (x.poll now key w.1).2.2,
        w.2.answered (x.poll now key w.1).1) :=
  rfl

/- No answer, no note. -/
@[simp]
theorem Correspondence.answered_none (l : Correspondence) :
    l.answered none = l := by
  cases l <;> rfl

------------------------------------------------------------
-- Contracts
------------------------------------------------------------

/-
  What is agreed on for an action.  It may be stopped at any
  time, by a move or after one.
-/
structure Contract (k : ActionKind) where
  /- What holds as long as it goes on. -/
  law : Outlay → Prop
  /- What holds at its end. -/
  post : Outlay → k.Outcome → Prop
  stopped :
    ∀ g, law g → post g .stopped ∧ post g.move .stopped

/- What is known in the states of a plan, at a time. -/
structure Notes {k : ActionKind} (p : Plan k) where
  known : Nat → Outlay → p.State → Prop
  /- What is agreed on for the actions that it runs. -/
  child : (i : p.Child) → Contract (p.kind i)

section Plans

variable {k : ActionKind} {p : Plan k}

/-
  What has to hold where a state is known, for what is done
  in it at that time: all that follows is known or agreed on,
  whatever the answer is and whenever it comes.
-/
def Notes.Allows
    (n : Notes p)
    (c : Contract k)
    (now : Nat)
    (g : Outlay) :
    Node k p.State p.Task p.Child p.kind → Prop
  | .decide next => n.known now g.move next
  | .finish o => c.post g.move o
  | .invoke _ (.send a _ next) =>
      c.law (g.write a) ∧
      ∀ now' answer, now ≤ now' →
        n.known now' ((g.write a).read answer) (next now' answer)
  | .invoke _ (.wait ms next) =>
      c.law g.move ∧
      ∀ now', now + ms ≤ now' →
        n.known now' g.move.move (next now')
  | .invoke _ (.task _) => False
  | .invoke _ (.child i next) =>
      (∀ g', (n.child i).law g' → c.law (g'.after g.move)) ∧
      ∀ now' g' o, now ≤ now' → (n.child i).post g' o →
        n.known now' (g'.after g.move) (next now' o)

structure Notes.Fits (n : Notes p) (c : Contract k) :
    Prop where
  start : ∀ now, n.known now {} p.start
  later : ∀ now now' g s, now ≤ now' →
    n.known now g s → n.known now' g s
  lawful : ∀ now g s, n.known now g s → c.law g
  act : ∀ now g s, n.known now g s →
    n.Allows c now g (p.act now s)

/- An action for which there are notes that fit. -/
inductive Action.Honours :
    {k : ActionKind} → Contract k → Action k → Prop
  | mk {k : ActionKind}
      {c : Contract k}
      {plan : Plan k}
      {child : (i : plan.Child) → Action (plan.kind i)}
      (n : Notes plan)
      (fits : n.Fits c)
      (children : ∀ i, Honours (n.child i) (child i)) :
      Honours c (.mk plan child)

/- Notes that fit an action, with all that it runs. -/
structure Notes.Holds
    {a : Action k}
    (n : Notes a.plan)
    (c : Contract k) : Prop where
  fits : n.Fits c
  children : ∀ i, (a.child i).Honours (n.child i)

/- What is known of a plan, for one that keeps its contract. -/
theorem Action.Honours.holds
    {c : Contract k}
    {a : Action k}
    (hHonours : a.Honours c) :
    ∃ n : Notes a.plan, n.Holds c := by
  cases hHonours with
  | mk n fits children => exact ⟨n, fits, children⟩

end Plans

------------------------------------------------------------
-- Runs with an Outlay
------------------------------------------------------------

/- A stage was reached from a state that was known. -/
inductive Stage.Tracks
    {k : ActionKind}
    {K : Type}
    {p : Plan k}
    (n : Notes p)
    (now : Nat) :
    Outlay → Stage p.State p.Task K → Prop
  | ready
      {g : Outlay}
      {s : p.State}
      (hKnown : n.known now g s) :
      Tracks n now g (.ready s)
  | sending
      {since : Nat}
      {g : Outlay}
      {s here : p.State}
      {a : Apdu}
      {options : RequestOptions}
      {key : K}
      {next : Nat → Answer → p.State}
      (hSince : since ≤ now)
      (hKnown : n.known since g s)
      (hCall :
        p.act since s = .invoke here (.send a options next)) :
      Tracks n now (g.write a) (.sending key next)
  | waiting
      {since ms : Nat}
      {g : Outlay}
      {s here : p.State}
      {next : Nat → p.State}
      (hSince : since ≤ now)
      (hKnown : n.known since g s)
      (hCall : p.act since s = .invoke here (.wait ms next)) :
      Tracks n now g.move (.waiting (since + ms) next)

/- A run of an action, at a time and with an outlay. -/
inductive Run.Tracks {K : Type} :
    {k : ActionKind} →
    (a : Action k) →
    Notes a.plan →
    Nat →
    Outlay →
    Run K k → Prop
  | here
      {k : ActionKind}
      {a : Action k}
      {n : Notes a.plan}
      {now : Nat}
      {g : Outlay}
      {token : Nat}
      {silent : Bool}
      {stage : Stage a.plan.State a.plan.Task K}
      (hStage : stage.Tracks n now g) :
      Tracks a n now g (.here a token silent stage)
  | within
      {k : ActionKind}
      {a : Action k}
      {n : Notes a.plan}
      {now since : Nat}
      {g g' : Outlay}
      {token : Nat}
      {s here : a.plan.State}
      {i : a.plan.Child}
      {next : Nat → (a.plan.kind i).Outcome → a.plan.State}
      {inner : Run K (a.plan.kind i)}
      {m : Notes (a.child i).plan}
      (hSince : since ≤ now)
      (hKnown : n.known since g s)
      (hCall :
        a.plan.act since s = .invoke here (.child i next))
      (hHolds : m.Holds (n.child i))
      (hInner : Tracks (a.child i) m now g' inner) :
      Tracks a n now (g'.after g.move)
        (.within a token i next inner)

namespace Run

variable {W K : Type} {k r : ActionKind}
variable {a : Action k} {n : Notes a.plan} {c : Contract k}
variable {now : Nat} {g : Outlay}

namespace Tracks

/- What is known stays true as time goes on. -/
theorem later
    {run : Run K k}
    {now' : Nat}
    (hTracks : run.Tracks a n now g)
    (hHolds : n.Holds c)
    (hLater : now ≤ now') :
    run.Tracks a n now' g := by
  induction hTracks with
  | here hStage =>
      refine .here ?_
      cases hStage with
      | ready hKnown =>
          exact .ready
            (hHolds.fits.later _ _ _ _ hLater hKnown)
      | sending hSince hKnown hCall =>
          exact .sending (hSince.trans hLater) hKnown hCall
      | waiting hSince hKnown hCall =>
          exact .waiting (hSince.trans hLater) hKnown hCall
  | within hSince hKnown hCall hInner _ ih =>
      exact .within (hSince.trans hLater) hKnown hCall hInner
        (ih hInner hLater)

/- The law holds as long as the run goes on. -/
theorem lawful
    {run : Run K k}
    (hTracks : run.Tracks a n now g)
    (hHolds : n.Holds c) :
    c.law g := by
  induction hTracks with
  | here hStage =>
      cases hStage with
      | ready hKnown => exact hHolds.fits.lawful _ _ _ hKnown
      | sending hSince hKnown hCall =>
          have hAllows := hHolds.fits.act _ _ _ hKnown
          rw [hCall] at hAllows
          exact hAllows.1
      | waiting hSince hKnown hCall =>
          have hAllows := hHolds.fits.act _ _ _ hKnown
          rw [hCall] at hAllows
          exact hAllows.1
  | within hSince hKnown hCall hInner _ ih =>
      have hAllows := hHolds.fits.act _ _ _ hKnown
      rw [hCall] at hAllows
      exact hAllows.1 _ (ih hInner)

end Tracks

/-
  There is nothing to do at a time: an answer has not come,
  or it is early.
-/
inductive Idle
    (x : Sender W K)
    (now : Nat)
    (w : W) : Option K → List Nat → Prop
  | unanswered
      {key : K}
      (hPoll : (x.poll now key w).1 = none) :
      Idle x now w (some key) []
  | early
      {due : Nat}
      (hEarly : now < due) :
      Idle x now w none [due]

/-
  What a step of a run comes to, in a world.  The run moves,
  or it waits since there is nothing to do.  The letters of
  before stay behind.
-/
inductive Proceeds
    (x : Sender W K)
    (a : Action k)
    (n : Notes a.plan)
    (c : Contract k)
    (now : Nat)
    (g : Outlay)
    (before : Correspondence)
    (start : Run K k)
    (world : W) :
    Result (W × Correspondence) K k r → Prop
  | go
      {run : Run K k}
      {sc : Scene r}
      {w : W × Correspondence}
      (g' : Outlay)
      (hMoves : g'.moves = g.moves + 1)
      (hLetters : w.2 = g'.letters ++ before)
      (hTracks : run.Tracks a n now g') :
      Proceeds x a n c now g before start world (.go run, sc, w)
  | wait
      {run : Run K k}
      {sc : Scene r}
      {w : W × Correspondence}
      (hLetters : w.2 = g.letters ++ before)
      (hTracks : run.Tracks a n now g)
      (hKey : run.key? = start.key?)
      (hTimers : run.timers = start.timers)
      (hIdle : Idle x now world start.key? start.timers) :
      Proceeds x a n c now g before start world (.wait run, sc, w)
  | done
      {o : k.Outcome}
      {sc : Scene r}
      {w : W × Correspondence}
      (g' : Outlay)
      (hMoves : g'.moves = g.moves + 1)
      (hLetters : w.2 = g'.letters ++ before)
      (hPost : c.post g' o) :
      Proceeds x a n c now g before start world (.done o, sc, w)

/- Giving up on an answer leaves the letters as they are. -/
theorem letters_withdraw
    {S T : Type}
    (x : Sender W K)
    (w : W × Correspondence)
    (stage : Stage S T K) :
    (withdraw x.noted w stage).2 = w.2 := by
  rw [withdraw_eq, withdrawn]
  cases stage.key? <;> rfl

/- To give a run up is not to hand in a command. -/
theorem letters_abandon
    (x : Sender W K)
    (tokens : TokenForest)
    (w : W × Correspondence)
    (run : Run K k) :
    (run.abandon x.noted tokens w).2.2 = w.2 := by
  rw [abandon_eq, withdrawn]
  cases run.key? <;> rfl

/- Whether an action is silent does not delay it. -/
theorem timers_here
    (a : Action k)
    (token : Nat)
    (silent : Bool)
    (stage : Stage a.plan.State a.plan.Task K) :
    (here a token silent stage).timers =
      (here a token false stage).timers := by
  cases stage with
  | working t => cases t <;> rfl
  | _ => rfl

section Stages

variable {x : Sender W K} {before : Correspondence}
variable {token : Nat} {run : Run K k} {world : W}
variable {sc : Scene r} {w : W × Correspondence}

/- The action goes on in a new state, by one move. -/
theorem proceeds_resume
    (g' : Outlay)
    {s : a.plan.State}
    (hFits : n.Fits c)
    (hMoves : g'.moves = g.moves + 1)
    (hLetters : w.2 = g'.letters ++ before)
    (hKnown : n.known now g' s) :
    Proceeds x a n c now g before run world
      (resume (K := K) a token s sc w).1 := by
  unfold resume
  split
  · have hLaw := hFits.lawful _ _ _ hKnown
    exact .done g' hMoves hLetters (c.stopped _ hLaw).1
  · exact .go g' hMoves hLetters (.here (.ready hKnown))

/- It waits, and nothing has been done. -/
theorem proceeds_hold
    {stage : Stage a.plan.State a.plan.Task K}
    (hHolds : n.Holds c)
    (hLetters : w.2 = g.letters ++ before)
    (hStage : stage.Tracks n now g)
    (hIdle :
      Idle x now world stage.key?
        (here a token silent stage).timers) :
    Proceeds x a n c now g before (here a token silent stage)
      world
      (hold x.noted a token stage sc w) := by
  have hTracks :
      (here a token false stage).Tracks a n now g :=
    .here hStage
  unfold hold
  split
  · have hKept := letters_withdraw x w stage
    exact .done g.move rfl (hKept.trans hLetters)
      (c.stopped g (hTracks.lawful hHolds)).2
  · exact .wait hLetters hTracks rfl
      (timers_here a token silent stage).symm hIdle

/- It does what it asks for: a command, a pause, an action. -/
theorem proceeds_makeCall
    (silent : Bool)
    {s here : a.plan.State}
    {call :
      Call a.plan.State a.plan.Task a.plan.Child a.plan.kind}
    (hHolds : n.Holds c)
    (hLetters : w.2 = g.letters ++ before)
    (hKnown : n.known now g s)
    (hCall : a.plan.act now s = .invoke here call) :
    Proceeds x a n c now g before run world
      (makeCall x.noted now a token silent sc w call).1 := by
  have hAllows := hHolds.fits.act _ _ _ hKnown
  rw [hCall] at hAllows
  cases call with
  | send apdu options next =>
      have hNew :
          (x.noted.submit now apdu options w).2.2.2 =
            (g.write apdu).letters ++ before := by
        simp [Sender.noted, Outlay.write, hLetters]
      exact .go (g.write apdu) rfl hNew
        (.here (.sending le_rfl hKnown hCall))
  | wait ms next =>
      exact .go g.move rfl hLetters
        (.here (.waiting le_rfl hKnown hCall))
  | task t => exact hAllows.elim
  | child i next =>
      obtain ⟨m, hInner⟩ := (hHolds.children i).holds
      have hStart := hInner.fits.start now
      exact .go (Outlay.after {} g.move) rfl hLetters
        (.within le_rfl hKnown hCall hInner
          (.here (.ready hStart)))

/- In a state it calls, shows something or ends. -/
theorem proceeds_act
    (up : k.Progress → r.Progress)
    (silent : Bool)
    {s : a.plan.State}
    (hHolds : n.Holds c)
    (hLetters : w.2 = g.letters ++ before)
    (hKnown : n.known now g s) :
    Proceeds x a n c now g before run world
      (act x.noted now up a token silent s sc w).1 := by
  unfold act
  split
  · have hLaw := hHolds.fits.lawful _ _ _ hKnown
    exact .done g.move rfl hLetters (c.stopped g hLaw).2
  · have hAllows := hHolds.fits.act _ _ _ hKnown
    cases hNode : a.plan.act now s with
    | decide next =>
        rw [hNode] at hAllows
        exact .go g.move rfl hLetters (.here (.ready hAllows))
    | finish o =>
        rw [hNode] at hAllows
        exact .done g.move rfl hLetters hAllows
    | invoke here call =>
        exact proceeds_makeCall silent hHolds hLetters hKnown
          hNode

/- A step at any stage is one of these. -/
theorem proceeds_stageStep
    (up : k.Progress → r.Progress)
    (silent : Bool)
    {stage : Stage a.plan.State a.plan.Task K}
    (hHolds : n.Holds c)
    (hLetters : w.2 = g.letters ++ before)
    (hStage : stage.Tracks n now g) :
    Proceeds x a n c now g before (here a token silent stage)
      w.1
      (stageStep x.noted now up a token silent stage sc w).1 := by
  cases hStage with
  | ready hKnown =>
      exact proceeds_act up silent hHolds hLetters hKnown
  | @sending since g s here apdu options key next hSince hKnown
      hCall =>
      have hAllows := hHolds.fits.act _ _ _ hKnown
      rw [hCall] at hAllows
      rcases hPoll : x.poll now key w.1 with
        ⟨_ | answer, cancels, w'⟩
      all_goals
        simp only [stageStep, Sender.poll_noted, hPoll, hLetters]
      · exact proceeds_hold hHolds (by simp)
          (.sending hSince hKnown hCall)
          (.unanswered (by rw [hPoll]))
      · exact proceeds_resume ((g.write apdu).read answer)
          hHolds.fits rfl rfl (hAllows.2 now answer hSince)
  | @waiting since ms g s here next hSince hKnown hCall =>
      have hAllows := hHolds.fits.act _ _ _ hKnown
      rw [hCall] at hAllows
      simp only [stageStep]
      split
      · rename_i hDue
        exact proceeds_resume g.move.move hHolds.fits rfl
          hLetters (hAllows.2 now hDue)
      · rename_i hEarly
        exact proceeds_hold hHolds hLetters
          (.waiting hSince hKnown hCall)
          (.early (Nat.lt_of_not_le hEarly))

end Stages

/- Every step of a run on an outlay goes on in this way. -/
theorem Tracks.step
    (x : Sender W K)
    {run : Run K k}
    (up : k.Progress → r.Progress)
    {sc : Scene r}
    {w : W × Correspondence}
    {before : Correspondence}
    (hTracks : run.Tracks a n now g)
    (hHolds : n.Holds c)
    (hLetters : w.2 = g.letters ++ before) :
    Proceeds x a n c now g before run w.1
      (run.step x.noted now up sc w) := by
  induction hTracks generalizing before with
  | here hStage =>
      exact proceeds_stageStep up _ hHolds hLetters hStage
  | @within k a n now since g g' token s here i next inner m
      hSince hKnown hCall hInner hTracks ih =>
      have hAllows := hHolds.fits.act _ _ _ hKnown
      rw [hCall] at hAllows
      -- The letters of this action are of before for the
      -- inner one.
      have hProceeds :=
        @ih (n.child i) (up ∘ a.plan.lift i)
          (g.move.letters ++ before) hInner
          (by simpa [Outlay.after] using hLetters)
      rw [Run.step, tell]
      rcases hTell :
          inner.tell x.noted now (up ∘ a.plan.lift i) sc w
        with ⟨⟨turn, sc', w'⟩, ds⟩
      rw [Run.step, hTell] at hProceeds
      cases hProceeds with
      | go h hMoves hLetters' hNext =>
          exact .go (h.after g.move)
            (by simp [Outlay.after, hMoves, Nat.add_assoc])
            (by simpa [Outlay.after] using hLetters')
            (.within hSince hKnown hCall hInner hNext)
      | wait hLetters' hNext hKey hTimers hIdle =>
          have hKept :
              w'.2 = (g'.after g.move).letters ++ before := by
            simpa [Outlay.after] using hLetters'
          have hWithin :
              (Run.within a token i next _).Tracks a n now
                (g'.after g.move) :=
            .within hSince hKnown hCall hInner hNext
          simp only [enclose]
          split
          · exact .done (g'.after g.move).move rfl
              ((letters_abandon x sc'.tokens w' _).trans hKept)
              (c.stopped _ (hWithin.lawful hHolds)).2
          · exact .wait hKept hWithin hKey hTimers hIdle
      | done h hMoves hLetters' hPost =>
          exact proceeds_resume (h.after g.move) hHolds.fits
            (by simp [Outlay.after, hMoves, Nat.add_assoc])
            (by simpa [Outlay.after] using hLetters')
            (hAllows.2 now h _ hSince hPost)

end Run

end DeviceSession
