import DeviceSession.Proofs.Action.Outlays

/-
  Actions at times that do not go back.

  If an action keeps to a contract, then so does all that it
  does, in any world, as long as the time does not go back
  from one step to the next.  While it runs another action,
  the contract of that one is kept on top of what went
  before.  If the moves are bounded by the contract, the
  action ends, unless it is left waiting: for a command that
  is never answered, or for a time that is never reached.

  Key definitions include:
    * `Cue.Timely`
    * `Performance.Tracks`
    * `Performance.Stays`
    * `Performance.noted`
    * `Performance.Inner`
    * `Performance.Fair`

  Main declarations:
    * `Performance.run_tracks`
    * `Performance.inner_run`
    * `Performance.Fair.ends`
-/

------------------------------------------------------------
-- Times
------------------------------------------------------------

namespace DeviceSession

section Times

variable {W : Type} {k : ActionKind}

/- The time of a step. -/
def Cue.time? : Cue W k → Option Nat
  | step now => some now
  | _ => none

/- The cues with a time are polls. -/
theorem Cue.eq_step_of_time?
    {cue : Cue W k}
    {now : Nat}
    (hTime : cue.time? = some now) :
    cue = .step now := by
  cases cue with
  | step t => exact congrArg step (Option.some.inj hTime)
  | _ => cases hTime

/- The times of the steps, in turn. -/
def Cue.times (cues : List (Cue W k)) : List Nat :=
  cues.filterMap time?

/- The time does not go back. -/
def Cue.Timely (cues : List (Cue W k)) : Prop :=
  (times cues).Pairwise (· ≤ ·)

/- The time of the latest step. -/
def Cue.clock (cues : List (Cue W k)) : Nat :=
  (times cues).foldl max 0

/- The clock shows the latest time so far. -/
theorem Cue.clock_concat
    (cues : List (Cue W k))
    (cue : Cue W k) :
    clock (cues ++ [cue]) =
      cue.time?.elim (clock cues) (max (clock cues)) := by
  rw [clock, times, List.filterMap_append, List.foldl_append]
  cases cue <;> rfl

/- It is no later than any of them. -/
theorem Cue.clock_le
    {cues : List (Cue W k)}
    {now : Nat}
    (hAll : ∀ t ∈ times cues, t ≤ now) :
    clock cues ≤ now := by
  suffices ∀ l : List Nat, (∀ t ∈ l, t ≤ now) →
      ∀ m ≤ now, l.foldl max m ≤ now from
    this _ hAll 0 (Nat.zero_le now)
  intro l hAll
  induction l with
  | nil => exact fun m hLe => hLe
  | cons t l ih =>
      intro m hLe
      rw [List.forall_mem_cons] at hAll
      exact ih hAll.2 _ (max_le hLe hAll.1)

namespace Cue.Timely

variable {cues more : List (Cue W k)}

/- Cues in time are in time up to any point. -/
theorem init (hTimely : Timely (cues ++ more)) :
    Timely cues := by
  rw [Timely, times, List.filterMap_append,
    List.pairwise_append] at hTimely
  exact hTimely.1

/- A step is not earlier than those of before. -/
theorem clock_le_step
    {now : Nat}
    (hTimely : Timely (cues ++ [.step now])) :
    clock cues ≤ now := by
  rw [Timely, times, List.filterMap_append,
    List.pairwise_append] at hTimely
  exact clock_le fun t hTime =>
    hTimely.2.2 t hTime now (by simp [time?])

/- The last poll is the latest. -/
theorem clock_step
    {now : Nat}
    (hTimely : Timely (cues ++ [.step now])) :
    clock (cues ++ [.step now]) = now := by
  rw [clock_concat]
  exact max_eq_right hTimely.clock_le_step

end Cue.Timely

end Times

------------------------------------------------------------
-- Performances with an Outlay
------------------------------------------------------------

/- Another action is run. -/
def Run.IsWithin {K : Type} {k : ActionKind} : Run K k → Prop
  | here .. => False
  | within .. => True

namespace Performance

variable {W K : Type} {k : ActionKind}
variable {x : Sender W K}
variable {a : Action k} {n : Notes a.plan} {c : Contract k}
variable {now : Nat} {g : Outlay}
variable {p : Performance (W × Correspondence) K k}

/-
  An action has got so far with an outlay, at a time: it is
  under way, or has ended as agreed.
-/
inductive Tracks
    (a : Action k)
    (n : Notes a.plan)
    (c : Contract k)
    (now : Nat)
    (g : Outlay)
    (p : Performance (W × Correspondence) K k) : Prop
  | running
      {run : Run K k}
      (hRun : p.execution.run = some run)
      (hOutcomes : Effect.outcomes p.effects = [])
      (hLetters : p.world.2 = g.letters)
      (hTracks : run.Tracks a n now g)
  | ended
      {o : k.Outcome}
      (hRun : p.execution.run = none)
      (hOutcomes : Effect.outcomes p.effects = [o])
      (hLetters : p.world.2 = g.letters)
      (hPost : c.post g o)

/- A cue that finds nothing to do for the action. -/
structure Stays
    (x : Sender W K)
    (cue : Cue W k)
    (p q : Performance (W × Correspondence) K k) : Prop where
  key : q.execution.key? = p.execution.key?
  timers : q.execution.timers = p.execution.timers
  idle :
    ∀ now, cue = .step now → p.execution.run ≠ none →
      Run.Idle x now p.world.1 p.execution.key?
        p.execution.timers

/- At the start nothing is known but that nothing was done. -/
theorem tracks_start
    (hHolds : n.Holds c)
    (now : Nat)
    (w : W) :
    (start (K := K) a (w, [])).Tracks a n c now {} :=
  .running rfl rfl rfl (.here (.ready (hHolds.fits.start now)))

/- An action moves only by steps. -/
theorem run_next_other
    {cue : Cue W k}
    (p : Performance (W × Correspondence) K k)
    (hOther : cue.time? = none) :
    (p.next x.noted cue.noted).execution.run =
      p.execution.run := by
  cases cue with
  | step t => cases hOther
  | _ => rfl

/- Only a poll hands in commands. -/
theorem letters_next_other
    {cue : Cue W k}
    (p : Performance (W × Correspondence) K k)
    (hOther : cue.time? = none) :
    (p.next x.noted cue.noted).world.2 = p.world.2 := by
  cases cue with
  | step t => cases hOther
  | _ => rfl

/- Only a poll ends an action. -/
theorem outcomes_next_other
    {cue : Cue W k}
    (p : Performance (W × Correspondence) K k)
    (hOther : cue.time? = none) :
    Effect.outcomes (p.next x.noted cue.noted).effects =
      Effect.outcomes p.effects := by
  cases cue with
  | step t => cases hOther
  | _ =>
      simp [next, Cue.noted, Effect.outcomes_cons,
        Effect.outcome?]

namespace Tracks

/- The commands are those of the outlay. -/
theorem letters
    (hTracks : p.Tracks a n c now g) :
    p.world.2 = g.letters := by
  cases hTracks with
  | running _ _ hLetters _ => exact hLetters
  | ended _ _ hLetters _ => exact hLetters

/- What is known stays true as time goes on. -/
theorem later
    {now' : Nat}
    (hTracks : p.Tracks a n c now g)
    (hHolds : n.Holds c)
    (hLater : now ≤ now') :
    p.Tracks a n c now' g := by
  cases hTracks with
  | running hRun hOutcomes hLetters hTracks =>
      exact .running hRun hOutcomes hLetters
        (hTracks.later hHolds hLater)
  | ended hRun hOutcomes hLetters hPost =>
      exact .ended hRun hOutcomes hLetters hPost

/- The law holds, or what has to at the end. -/
theorem lawful
    (hTracks : p.Tracks a n c now g)
    (hHolds : n.Holds c) :
    c.law g ∨ ∃ o, c.post g o := by
  cases hTracks with
  | running _ _ _ hTracks =>
      exact .inl (hTracks.lawful hHolds)
  | ended _ _ _ hPost => exact .inr ⟨_, hPost⟩

/- A poll is one move, or nothing changes. -/
theorem next_step
    (hTracks : p.Tracks a n c now g)
    (hHolds : n.Holds c) :
    let q := p.next x.noted (.step now)
    (∃ g', g'.moves = g.moves + 1 ∧ q.Tracks a n c now g') ∨
    q.Tracks a n c now g ∧ Stays x (.step now) p q := by
  cases hTracks with
  | @running run hRun hOutcomes hLetters hTracks =>
      have hEffects :=
        run.outcomes_effects x.noted now id p.execution.scene
          p.world
      have hProceeds :
          Run.Proceeds x a n c now g [] run p.world.1
            (run.step x.noted now id p.execution.scene
              p.world) :=
        hTracks.step x id hHolds (by simpa using hLetters)
      rw [Run.effects] at hEffects
      rw [Run.step] at hProceeds
      rcases hTell : run.tell x.noted now id p.execution.scene
          p.world with ⟨⟨turn, sc', w'⟩, ds⟩
      rw [hTell] at hProceeds hEffects
      simp only [next, Execution.step, Execution.effects,
        Execution.tell, hRun, hTell]
      cases hProceeds with
      | go g' hMoves hLetters' hNext =>
          refine .inl ⟨g', hMoves, .running rfl ?_ ?_ hNext⟩
          · simp [hOutcomes, hEffects]
          · simpa using hLetters'
      | wait hLetters' hNext hKey hTimers hIdle =>
          refine .inr ⟨.running rfl ?_ ?_ hNext, ?_, ?_, ?_⟩
          · simp [hOutcomes, hEffects]
          · simpa using hLetters'
          · simpa [Execution.key?, hRun] using hKey
          · simpa [Execution.timers, hRun] using hTimers
          · rintro _ ⟨rfl⟩ -
            simpa [Execution.key?, Execution.timers, hRun]
              using hIdle
      | done g' hMoves hLetters' hPost =>
          refine .inl ⟨g', hMoves, .ended rfl ?_ ?_ hPost⟩
          · simp [hOutcomes, hEffects, Effect.outcomes_cons,
              Effect.outcome?]
          · simpa using hLetters'
  | ended hRun hOutcomes hLetters hPost =>
      rw [next_step_of_ended x.noted hRun]
      exact .inr ⟨.ended hRun hOutcomes hLetters hPost,
        rfl, rfl, fun _ _ hSome => absurd hRun hSome⟩

/- Any other cue leaves what is known. -/
theorem next_other
    {cue : Cue W k}
    (hTracks : p.Tracks a n c now g)
    (hOther : cue.time? = none) :
    (p.next x.noted cue.noted).Tracks a n c now g := by
  have hSame := run_next_other (x := x) p hOther
  have hNoMore := outcomes_next_other (x := x) p hOther
  have hKept := letters_next_other (x := x) p hOther
  cases hTracks with
  | running hRun hOutcomes hLetters hTracks =>
      exact .running (hSame.trans hRun) (hNoMore.trans hOutcomes)
        (hKept.trans hLetters) hTracks
  | ended hRun hOutcomes hLetters hPost =>
      exact .ended (hSame.trans hRun) (hNoMore.trans hOutcomes)
        (hKept.trans hLetters) hPost

end Tracks

/- It leaves what is waited for as well. -/
theorem stays_other
    {cue : Cue W k}
    (p : Performance (W × Correspondence) K k)
    (hOther : cue.time? = none) :
    Stays x cue p (p.next x.noted cue.noted) where
  key := congrArg (·.bind Run.key?) (run_next_other p hOther)
  timers := congrArg (·.elim [] Run.timers)
    (run_next_other p hOther)
  idle := by
    rintro now rfl
    cases hOther

------------------------------------------------------------
-- Timely Performances
------------------------------------------------------------

/- An action moves at most once for each cue. -/
theorem Tracks.next
    {cues : List (Cue W k)}
    {cue : Cue W k}
    (hTracks : p.Tracks a n c (Cue.clock cues) g)
    (hHolds : n.Holds c)
    (hTimely : Cue.Timely (cues ++ [cue])) :
    let q := p.next x.noted cue.noted
    let now := Cue.clock (cues ++ [cue])
    (∃ g', g'.moves = g.moves + 1 ∧ q.Tracks a n c now g') ∨
    q.Tracks a n c now g ∧ Stays x cue p q := by
  intro q now
  cases hTime : cue.time? with
  | none =>
      have hSame : now = Cue.clock cues := by
        rw [show now = _ from Cue.clock_concat cues cue, hTime]
        rfl
      rw [hSame]
      exact .inr
        ⟨hTracks.next_other hTime, stays_other p hTime⟩
  | some t =>
      obtain rfl := Cue.eq_step_of_time? hTime
      have hSame : now = t := hTimely.clock_step
      rw [hSame]
      exact (hTracks.later hHolds hTimely.clock_le_step).next_step
        hHolds

/- An action with its correspondence. -/
def noted
    (x : Sender W K)
    (a : Action k)
    (w : W)
    (cues : List (Cue W k)) :
    Performance (W × Correspondence) K k :=
  (start a (w, [])).run x.noted (cues.map Cue.noted)

/- The last cue comes after all others. -/
theorem noted_concat
    (x : Sender W K)
    (a : Action k)
    (w : W)
    (cues : List (Cue W k))
    (cue : Cue W k) :
    noted x a w (cues ++ [cue]) =
      (noted x a w cues).next x.noted cue.noted := by
  rw [noted, List.map_append, run_append]
  rfl

/- Whatever happens, and whenever, what is done is lawful. -/
theorem run_tracks
    (x : Sender W K)
    (w : W)
    {cues : List (Cue W k)}
    (hHolds : n.Holds c)
    (hTimely : Cue.Timely cues) :
    ∃ g,
      (noted x a w cues).Tracks a n c (Cue.clock cues) g := by
  induction cues using List.reverseRecOn with
  | nil => exact ⟨{}, tracks_start hHolds 0 w⟩
  | append_singleton cues cue ih =>
      obtain ⟨g, hTracks⟩ := ih hTimely.init
      rw [noted_concat]
      rcases hTracks.next hHolds hTimely with
        ⟨g', -, hNext⟩ | ⟨hNext, -⟩
      · exact ⟨g', hNext⟩
      · exact ⟨g, hNext⟩

/- A run that has ended has shown its end, or a cancellation. -/
theorem latest_of_outcome
    (x : Sender W K)
    (a : Action k)
    (w : W)
    (cues : List (Cue W k))
    {o : k.Outcome}
    (hOutcomes :
      Effect.outcomes
        ((start a w).run x cues : Performance W K k).effects =
          [o]) :
    let p : Performance W K k := (start a w).run x cues
    p.execution.latest.isTerminal = true ∧
    (.cancel ∉ p.effects → p.execution.latest = o.state) := by
  intro p
  obtain ⟨s, hVerdict⟩ :=
    Option.isSome_iff_exists.mp
      (Effect.isSome_verdict_of_outcome
        (hOutcomes.trans_ne (List.cons_ne_nil _ _)))
  have hLatest : p.execution.latest = s := by
    rw [p.execution.latest_eq]
    exact congrArg (·.getD .notStarted)
      (getLast?_states_run hVerdict)
  rw [hLatest]
  refine ⟨Effect.isTerminal_of_verdict hVerdict, ?_⟩
  intro hUncancelled
  obtain ⟨o', hMem, rfl⟩ :=
    Effect.outcome_of_verdict hVerdict hUncancelled
  rw [hOutcomes] at hMem
  rw [List.mem_singleton.mp hMem]

------------------------------------------------------------
-- While Another Action Is Run
------------------------------------------------------------

/-
  Another action is run, with letters that are allowed, after
  those of before.
-/
inductive Inner
    (allowed : Correspondence → Prop)
    (before : Correspondence)
    (now : Nat)
    (p : Performance (W × Correspondence) K k) : Prop
  | mk
      {a : Action k}
      {token : Nat}
      {i : a.plan.Child}
      {next : Nat → (a.plan.kind i).Outcome → a.plan.State}
      {inner : Run K (a.plan.kind i)}
      {m : Notes (a.child i).plan}
      {c : Contract (a.plan.kind i)}
      {g : Outlay}
      (hRun :
        p.execution.run = some (.within a token i next inner))
      (hHolds : m.Holds c)
      (hAllowed : ∀ g, c.law g → allowed g.letters)
      (hLetters : p.world.2 = g.letters ++ before)
      (hTracks : inner.Tracks (a.child i) m now g)

/- Another action is run by this one. -/
def RunsInner (p : Performance W K k) : Prop :=
  ∃ run, p.execution.run = some run ∧ run.IsWithin

section Inner

variable {allowed : Correspondence → Prop}
variable {before : Correspondence}

/- While an inner action runs, its commands are known. -/
theorem Tracks.inner
    (hTracks : p.Tracks a n c now g)
    (hAllowed : ∀ i g, (n.child i).law g → allowed g.letters)
    (hWithin : p.RunsInner) :
    ∃ before, p.Inner allowed before now := by
  obtain ⟨run, hRun, hWithin⟩ := hWithin
  cases hTracks with
  | running hSame _ hLetters hTracks =>
      obtain rfl := Option.some.inj (hRun.symm.trans hSame)
      cases hTracks with
      | here hStage => exact hWithin.elim
      | within hSince hKnown hCall hInner hTracks =>
          exact ⟨_, .mk hRun hInner (hAllowed _) hLetters
            hTracks⟩
  | ended hNone => cases hRun.symm.trans hNone

namespace Inner

/- They stay so. -/
theorem later
    {now' : Nat}
    (hInner : p.Inner allowed before now)
    (hLater : now ≤ now') :
    p.Inner allowed before now' := by
  cases hInner with
  | mk hRun hHolds hAllowed hLetters hTracks =>
      exact .mk hRun hHolds hAllowed hLetters
        (hTracks.later hHolds hLater)

/- They come on top of those from before. -/
theorem letters
    (hInner : p.Inner allowed before now) :
    ∃ l, allowed l ∧ p.world.2 = l ++ before := by
  cases hInner with
  | mk _ hHolds hAllowed hLetters hTracks =>
      exact ⟨_, hAllowed _ (hTracks.lawful hHolds), hLetters⟩

/- A step leads out of an action before it leads into one. -/
theorem next_step
    (hInner : p.Inner allowed before now)
    (hWithin : (p.next x.noted (.step now)).RunsInner) :
    (p.next x.noted (.step now)).Inner allowed before now := by
  cases hInner with
  | @mk a token i next inner m c g hRun hHolds hAllowed hLetters
      hTracks =>
      have hProceeds :
          Run.Proceeds x _ m c now g before inner p.world.1
            (inner.step x.noted now (id ∘ a.plan.lift i)
              p.execution.scene p.world) :=
        hTracks.step x _ hHolds hLetters
      obtain ⟨run, hNext, hWithin⟩ := hWithin
      rw [Run.step] at hProceeds
      rcases hTell :
          inner.tell x.noted now (id ∘ a.plan.lift i)
            p.execution.scene p.world
        with ⟨⟨turn, sc', w'⟩, ds⟩
      rw [hTell] at hProceeds
      simp only [Performance.next, Execution.step,
        Execution.tell, hRun, Run.tell, hTell, Run.enclose]
        at hNext ⊢
      cases hProceeds with
      | go g' hMoves hLetters' hTracks' =>
          exact .mk rfl hHolds hAllowed hLetters' hTracks'
      | wait hLetters' hTracks' =>
          cases hCancelled : sc'.tokens.isCancelled token with
          | true => simp [hCancelled] at hNext
          | false =>
              simp only [hCancelled]
              exact .mk rfl hHolds hAllowed hLetters' hTracks'
      | done g' hMoves hLetters' hPost =>
          cases hCancelled :
              (sc'.tokens.release inner.token).isCancelled
                token with
          | true =>
              simp [Run.resume, Run.Told.after, hCancelled]
                at hNext
          | false =>
              simp only [Run.resume, Run.Told.after, hCancelled,
                Bool.false_eq_true, if_false,
                Option.some.injEq] at hNext
              subst hNext
              exact hWithin.elim

/- So it is as long as it is the inner action's turn. -/
theorem next
    {cues : List (Cue W k)}
    {cue : Cue W k}
    (hInner : p.Inner allowed before (Cue.clock cues))
    (hTimely : Cue.Timely (cues ++ [cue]))
    (hWithin : (p.next x.noted cue.noted).RunsInner) :
    (p.next x.noted cue.noted).Inner allowed before
      (Cue.clock (cues ++ [cue])) := by
  cases hTime : cue.time? with
  | none =>
      rw [Cue.clock_concat, hTime]
      have hRun := run_next_other (x := x) p hTime
      have hSame := letters_next_other (x := x) p hTime
      cases hInner with
      | mk hSome hHolds hAllowed hLetters hTracks =>
          exact .mk (hRun.trans hSome) hHolds hAllowed
            (hSame.trans hLetters) hTracks
  | some t =>
      obtain rfl := Cue.eq_step_of_time? hTime
      rw [hTimely.clock_step]
      exact (hInner.later hTimely.clock_le_step).next_step
        hWithin

end Inner

/-
  While one and the same action is run by another one, its
  letters are allowed, and come after those of before.
-/
theorem inner_run
    (x : Sender W K)
    (w : W)
    {cues during : List (Cue W k)}
    (allowed : Correspondence → Prop)
    (hHolds : n.Holds c)
    (hAllowed : ∀ i g, (n.child i).law g → allowed g.letters)
    (hTimely : Cue.Timely (cues ++ during))
    (hWithin :
      ∀ early, early <+: during →
        (noted x a w (cues ++ early)).RunsInner) :
    ∃ before l l',
      allowed l ∧ (noted x a w cues).world.2 = l ++ before ∧
      allowed l' ∧
      (noted x a w (cues ++ during)).world.2 =
        l' ++ before := by
  obtain ⟨g, hTracks⟩ := run_tracks x w hHolds hTimely.init
  have hFirst : (noted x a w cues).RunsInner := by
    simpa using hWithin [] List.nil_prefix
  obtain ⟨before, hInner⟩ := hTracks.inner hAllowed hFirst
  suffices (noted x a w (cues ++ during)).Inner allowed before
      (Cue.clock (cues ++ during)) by
    obtain ⟨l, hL, hBefore⟩ := hInner.letters
    obtain ⟨l', hL', hAfter⟩ := this.letters
    exact ⟨before, l, l', hL, hBefore, hL', hAfter⟩
  induction during using List.reverseRecOn with
  | nil => simpa using hInner
  | append_singleton during cue ih =>
      have hLast := hWithin _ List.prefix_rfl
      rw [← List.append_assoc] at hTimely hLast ⊢
      have hEarlier := ih hTimely.init fun early hEarly =>
        hWithin early (hEarly.trans (List.prefix_append _ _))
      rw [noted_concat] at hLast ⊢
      exact hEarlier.next hTimely hLast

end Inner

end Performance

------------------------------------------------------------
-- Fair Schedules
------------------------------------------------------------

section Schedules

variable {W K : Type} {k : ActionKind}

/- The first cues of a schedule. -/
def Cue.upTo (cues : Nat → Cue W k) (n : Nat) :
    List (Cue W k) :=
  (List.range n).map cues

/- The cues up to a number, one by one. -/
theorem Cue.upTo_succ (cues : Nat → Cue W k) (n : Nat) :
    upTo cues (n + 1) = upTo cues n ++ [cues n] := by
  simp [upTo, List.range_succ]

/-
  A schedule on which an action is not left waiting: the time
  goes on, and each command is answered at last, if the
  action still waits for it.
-/
structure Performance.Fair
    (x : Sender W K)
    (p : Performance W K k)
    (cues : Nat → Cue W k) : Prop where
  timely : ∀ n, Cue.Timely (Cue.upTo cues n)
  steps : ∀ n t, ∃ m ≥ n, ∃ now ≥ t, cues m = .step now
  answers :
    ∀ n key,
      (p.run x (Cue.upTo cues n)).execution.key? = some key →
      ∃ m ≥ n,
        (p.run x (Cue.upTo cues m)).execution.key? = some key →
        ∃ now, cues m = .step now ∧
          (x.poll now key (p.run x (Cue.upTo cues m)).world).1 ≠
            none

namespace Performance

variable {x : Sender W K} {cues : Nat → Cue W k}

/- There is something to do at last. -/
theorem Fair.exists_not_idle
    {p : Performance W K k}
    {n : Nat}
    {key : Option K}
    (hFair : p.Fair x cues)
    (timers : List Nat)
    (hKey :
      ∀ m ≥ n,
        (p.run x (Cue.upTo cues m)).execution.key? = key) :
    ∃ m ≥ n, ∃ now, cues m = .step now ∧
      ¬ Run.Idle x now (p.run x (Cue.upTo cues m)).world key
        timers := by
  by_contra hNone
  have hIdle : ∀ m ≥ n, ∀ now, cues m = .step now →
      Run.Idle x now (p.run x (Cue.upTo cues m)).world key
        timers := by
    intro m hLater now hStep
    by_contra hNot
    exact hNone ⟨m, hLater, now, hStep, hNot⟩
  obtain ⟨m, hLater, now, -, hStep⟩ := hFair.steps n 0
  cases hIdle m hLater now hStep with
  | @unanswered key _ =>
      obtain ⟨m, hLater, hAnswered⟩ :=
        hFair.answers n key (hKey n le_rfl)
      obtain ⟨now, hStep, hSome⟩ := hAnswered (hKey m hLater)
      cases hIdle m hLater now hStep with
      | unanswered hPoll => exact hSome hPoll
  | @early due _ =>
      obtain ⟨m, hLater, now, hDue, hStep⟩ :=
        hFair.steps n due
      cases hIdle m hLater now hStep with
      | early hEarly => exact absurd hDue (Nat.not_le.mpr hEarly)

variable {a : Action k} {n : Notes a.plan} {c : Contract k}
variable {w : W}

/- An action that goes on moves again at last. -/
theorem Fair.moves
    {g : Outlay}
    {m : Nat}
    (hFair : (start (K := K) a w).Fair x cues)
    (hHolds : n.Holds c)
    (hGoes :
      ∀ m,
        (noted x a w (Cue.upTo cues m)).execution.run ≠ none)
    (hTracks :
      (noted x a w (Cue.upTo cues m)).Tracks a n c
        (Cue.clock (Cue.upTo cues m)) g) :
    ∃ m' g', g'.moves = g.moves + 1 ∧
      (noted x a w (Cue.upTo cues m')).Tracks a n c
        (Cue.clock (Cue.upTo cues m')) g' := by
  by_contra hNone
  let q (m : Nat) := noted x a w (Cue.upTo cues m)
  have hPlain : ∀ m,
      (q m).map Prod.fst =
        (start a w).run x (Cue.upTo cues m) :=
    fun m => run_noted x a w _
  have hStays : ∀ m,
      (q m).Tracks a n c (Cue.clock (Cue.upTo cues m)) g →
      (q (m + 1)).Tracks a n c
          (Cue.clock (Cue.upTo cues (m + 1))) g ∧
      Stays x (cues m) (q m) (q (m + 1)) := by
    intro m hTracks
    have hTimely := hFair.timely (m + 1)
    rw [Cue.upTo_succ] at hTimely
    simp only [q, Cue.upTo_succ, noted_concat]
    rcases hTracks.next hHolds hTimely with
      ⟨g', hMoves, hNext⟩ | hSame
    · rw [← noted_concat, ← Cue.upTo_succ] at hNext
      exact absurd ⟨m + 1, g', hMoves, hNext⟩ hNone
    · exact hSame
  have hSame : ∀ m' ≥ m,
      (q m').Tracks a n c (Cue.clock (Cue.upTo cues m')) g ∧
      (q m').execution.key? = (q m).execution.key? ∧
      (q m').execution.timers = (q m).execution.timers := by
    intro m' hLater
    induction m', hLater using Nat.le_induction with
    | base => exact ⟨hTracks, rfl, rfl⟩
    | succ m' hLater ih =>
        obtain ⟨hTracks', hKey, hTimers⟩ := ih
        obtain ⟨hNext, hStay⟩ := hStays m' hTracks'
        exact ⟨hNext, hStay.key.trans hKey,
          hStay.timers.trans hTimers⟩
  obtain ⟨m', hLater, now, hStep, hBusy⟩ :=
    hFair.exists_not_idle (q m).execution.timers
      fun m' hLater => by
        rw [← hPlain]
        exact (hSame m' hLater).2.1
  obtain ⟨hTracks', hKey, hTimers⟩ := hSame m' hLater
  have hIdle :=
    (hStays m' hTracks').2.idle now hStep (hGoes m')
  rw [hKey, hTimers] at hIdle
  rw [← hPlain] at hBusy
  exact hBusy hIdle

/- An action comes to an end if its moves are bounded. -/
theorem Fair.ends
    {M : Nat}
    (hFair : (start (K := K) a w).Fair x cues)
    (hHolds : n.Holds c)
    (hMoves : ∀ g, c.law g → g.moves ≤ M) :
    ∃ m,
      let p : Performance W K k :=
        (start a w).run x (Cue.upTo cues m)
      p.execution.run = none ∧
      p.execution.latest.isTerminal = true := by
  suffices ∃ m g,
      (noted x a w (Cue.upTo cues m)).execution.run = none ∧
      (noted x a w (Cue.upTo cues m)).Tracks a n c
        (Cue.clock (Cue.upTo cues m)) g by
    obtain ⟨m, g, hEnded, hTracks⟩ := this
    refine ⟨m, ?_⟩
    rw [← run_noted x a w (Cue.upTo cues m)]
    refine ⟨hEnded, ?_⟩
    cases hTracks with
    | running hRun => cases hEnded.symm.trans hRun
    | ended _ hOutcomes =>
        exact (latest_of_outcome x.noted _ _ _ hOutcomes).1
  by_contra hNone
  have hAll : ∀ j, ∃ m g, g.moves = j ∧
      (noted x a w (Cue.upTo cues m)).Tracks a n c
        (Cue.clock (Cue.upTo cues m)) g := by
    intro j
    induction j with
    | zero => exact ⟨0, {}, rfl, tracks_start hHolds 0 w⟩
    | succ j ih =>
        obtain ⟨m, g, rfl, hTracks⟩ := ih
        refine hFair.moves hHolds (fun m hEnded => ?_) hTracks
        obtain ⟨g, hTracks⟩ :=
          run_tracks x w hHolds (hFair.timely m)
        exact hNone ⟨m, g, hEnded, hTracks⟩
  obtain ⟨m, g, hMany, hTracks⟩ := hAll (M + 1)
  cases hTracks with
  | running _ _ _ hRun =>
      have hFew := hMoves g (hRun.lawful hHolds)
      omega
  | ended hEnded hOutcomes hLetters hPost =>
      exact hNone ⟨m, g, hEnded,
        .ended hEnded hOutcomes hLetters hPost⟩

end Performance

end Schedules

end DeviceSession
