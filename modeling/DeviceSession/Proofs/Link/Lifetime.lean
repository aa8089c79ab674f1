import DeviceSession.Link.Lifecycle
import Mathlib.Data.List.Induction

/-
  The life of a connection, over whole histories.

  All that an input can do to a state is listed once.  From
  this list follows what a history of inputs leaves behind:
  how many links there have been, when the last one was lost,
  and what can have ended the connection.

  Key definitions include:
    * `Lifecycle.Change`
    * `Lifecycle.after`
    * `Lifecycle.Accepts`
    * `Lifecycle.accepted`
    * `Lifecycle.LostAt`
    * `Lifecycle.Lifetime`

  Main declarations:
    * `Lifecycle.next_change`
    * `Lifecycle.toNat_generation_after`
    * `Lifecycle.lostAt_after`
    * `Lifecycle.lifetime_after`
-/

------------------------------------------------------------
-- What an Input Does
------------------------------------------------------------

namespace DeviceSession

namespace Lifecycle

variable {s : Lifecycle} {input : LifecycleInput}
variable {now budget : Nat}

/- What comes of a state by an input, at a time. -/
inductive Change
    (budget : Nat)
    (now : Nat) :
    Lifecycle → LifecycleInput → Lifecycle → Prop where
  /- The input has no meaning in this state. -/
  | stays (s : Lifecycle) (input : LifecycleInput) :
      Change budget now s input s
  | first :
      Change budget now connecting .reconnected (connected 1)
  | again
      (g : UInt32)
      (due : Nat)
      (hInTime : now ≤ due) :
      Change budget now (disconnected g due) .reconnected
        (connected (g + 1))
  | late
      (g : UInt32)
      (due : Nat)
      (hLate : due < now) :
      Change budget now (disconnected g due) .reconnected
        terminated
  | doubts (g : UInt32) :
      Change budget now (connected g) (.exchangeSucceeded true)
        (awaitingDisconnection g)
  | assures (g : UInt32) :
      Change budget now (awaitingDisconnection g) .stillLinked
        (connected g)
  | loses
      (s : Lifecycle)
      (input : LifecycleInput)
      (g : UInt32)
      (hLinked : s.isLinked = true)
      (hSame : s.generation? = some g)
      (hLoses : input.losesLink = true) :
      Change budget now s input (disconnected g (now + budget))
  | expires
      (s : Lifecycle)
      (hUnlinked : s.isLinked = false)
      (hOpen : s ≠ terminated) :
      Change budget now s .budgetExpired terminated
  | closes (s : Lifecycle) (hOpen : s ≠ terminated) :
      Change budget now s .closeRequested terminated

theorem next_change
    (budget now : Nat)
    (s : Lifecycle)
    (input : LifecycleInput) :
    Change budget now s input (s.next input now budget) := by
  cases s with
  | terminated => exact .stays _ _
  | connecting =>
      cases input with
      | reconnected => exact .first
      | budgetExpired => exact .expires _ rfl nofun
      | closeRequested => exact .closes _ nofun
      | _ => exact .stays _ _
  | connected g =>
      cases input with
      | closeRequested => exact .closes _ nofun
      | exchangeSucceeded restarts =>
          cases restarts with
          | true => exact .doubts g
          | false => exact .stays _ _
      | linkLost => exact .loses _ _ g rfl rfl rfl
      | exchangeTimedOut => exact .loses _ _ g rfl rfl rfl
      | exchangeCorrupted => exact .loses _ _ g rfl rfl rfl
      | _ => exact .stays _ _
  | awaitingDisconnection g =>
      cases input with
      | closeRequested => exact .closes _ nofun
      | stillLinked => exact .assures g
      | linkLost => exact .loses _ _ g rfl rfl rfl
      | exchangeTimedOut => exact .loses _ _ g rfl rfl rfl
      | exchangeCorrupted => exact .loses _ _ g rfl rfl rfl
      | _ => exact .stays _ _
  | disconnected g due =>
      cases input with
      | closeRequested => exact .closes _ nofun
      | budgetExpired => exact .expires _ rfl nofun
      | reconnected =>
          simp only [next]
          split
          · exact .late g due ‹_›
          · exact .again g due (Nat.not_lt.mp ‹_›)
      | _ => exact .stays _ _

------------------------------------------------------------
-- Single Inputs
------------------------------------------------------------

/-
  Whether an input brings up a link: a fresh one is ready,
  there was none before, and it is taken into use.
-/
def Accepts
    (budget : Nat)
    (s : Lifecycle)
    (input : LifecycleInput)
    (now : Nat) : Prop :=
  input = .reconnected ∧ s.isLinked = false ∧
    (s.next input now budget).isLinked = true

instance
    (budget : Nat)
    (s : Lifecycle)
    (input : LifecycleInput)
    (now : Nat) :
    Decidable (Accepts budget s input now) := by
  unfold Accepts
  infer_instance

/- A link that is brought up has the next generation. -/
theorem generation_of_accepts
    (hAccepts : Accepts budget s input now) :
    ∃ g, s.generation? = some g ∧
      (s.next input now budget).generation? = some (g + 1) := by
  obtain ⟨rfl, hUnlinked, hLinked⟩ := hAccepts
  have hChange := next_change budget now s .reconnected
  generalize s.next .reconnected now budget = s' at hLinked hChange
  cases hChange with
  | stays => rw [hUnlinked] at hLinked; cases hLinked
  | first => exact ⟨0, rfl, rfl⟩
  | again g due => exact ⟨g, rfl, rfl⟩
  | late => cases hLinked
  | loses => cases hLinked

/- No other input changes the generation, short of the end. -/
theorem generation_of_not_accepts
    (hOther : ¬ Accepts budget s input now) :
    (s.next input now budget).generation? = s.generation? ∨
      s.next input now budget = terminated := by
  have hChange := next_change budget now s input
  unfold Accepts at hOther
  generalize s.next input now budget = s' at hOther hChange
  cases hChange with
  | stays => exact .inl rfl
  | first => exact absurd ⟨rfl, rfl, rfl⟩ hOther
  | again => exact absurd ⟨rfl, rfl, rfl⟩ hOther
  | doubts => exact .inl rfl
  | assures => exact .inl rfl
  | loses _ _ g _ hSame => exact .inl hSame.symm
  | _ => exact .inr rfl

/- A lost link comes back up to the deadline, not later. -/
theorem next_disconnected_eq_connected_iff
    {g g' : UInt32}
    {due : Nat} :
    (disconnected g due).next input now budget =
        connected g' ↔
      input = .reconnected ∧ now ≤ due ∧ g' = g + 1 := by
  constructor
  · intro hNext
    have hChange :=
      next_change budget now (disconnected g due) input
    rw [hNext] at hChange
    cases hChange with
    | again _ _ hInTime => exact ⟨rfl, hInTime, rfl⟩
  · rintro ⟨rfl, hInTime, rfl⟩
    simp [next, Nat.not_lt.mpr hInTime]

/- A link is in doubt after an answer that may end it. -/
theorem next_eq_awaitingDisconnection_iff
    {g : UInt32}
    (hMoves : s.next input now budget ≠ s) :
    s.next input now budget = awaitingDisconnection g ↔
      s = connected g ∧ input = .exchangeSucceeded true := by
  constructor
  · intro hNext
    have hChange := next_change budget now s input
    rw [hNext] at hChange
    cases hChange with
    | stays => exact absurd hNext hMoves
    | doubts => exact ⟨rfl, rfl⟩
  · rintro ⟨rfl, rfl⟩
    rfl

/- A link in doubt is found to be there, or is lost. -/
theorem next_awaitingDisconnection
    (budget now : Nat)
    (g : UInt32)
    (input : LifecycleInput) :
    let s' := (awaitingDisconnection g).next input now budget
    s' = awaitingDisconnection g ∨ s' = connected g ∨
      (∃ due, s' = disconnected g due) ∨ s' = terminated := by
  intro s'
  have hChange : Change budget now _ input s' :=
    next_change budget now (awaitingDisconnection g) input
  generalize s' = t at hChange
  cases hChange with
  | stays => exact .inl rfl
  | assures => exact .inr (.inl rfl)
  | loses _ _ g' _ hSame =>
      obtain rfl : g = g' := Option.some.inj hSame
      exact .inr (.inr (.inl ⟨_, rfl⟩))
  | _ => exact .inr (.inr (.inr rfl))

/- All that ends a connection. -/
theorem next_eq_terminated_iff
    (hOpen : s ≠ terminated) :
    s.next input now budget = terminated ↔
      input = .closeRequested ∨
      input = .budgetExpired ∧ s.isLinked = false ∨
      input = .reconnected ∧
        ∃ g due, s = disconnected g due ∧ due < now := by
  constructor
  · intro hNext
    have hChange := next_change budget now s input
    rw [hNext] at hChange
    cases hChange with
    | stays => exact absurd rfl hOpen
    | late g due hLate =>
        exact .inr (.inr ⟨rfl, g, due, rfl, hLate⟩)
    | expires _ hUnlinked => exact .inr (.inl ⟨rfl, hUnlinked⟩)
    | closes => exact .inl rfl
  · rintro (rfl | ⟨rfl, hUnlinked⟩ | ⟨rfl, g, due, rfl, hLate⟩)
    · cases s <;> rfl
    · cases s with
      | connected g => cases hUnlinked
      | awaitingDisconnection g => cases hUnlinked
      | _ => rfl
    · simp [next, hLate]

------------------------------------------------------------
-- Histories
------------------------------------------------------------

/- The state that a history of timed inputs leads to. -/
def after
    (budget : Nat)
    (s : Lifecycle)
    (inputs : List (LifecycleInput × Nat)) : Lifecycle :=
  inputs.foldl (fun s x => s.next x.1 x.2 budget) s

/- The number of links that a history brings up. -/
def accepted
    (budget : Nat) :
    Lifecycle → List (LifecycleInput × Nat) → Nat
  | _, [] => 0
  | s, (input, now) :: rest =>
      (if Accepts budget s input now then 1 else 0) +
        accepted budget (s.next input now budget) rest

section Histories

variable (budget : Nat) (s : Lifecycle)
variable (inputs : List (LifecycleInput × Nat))

@[simp]
theorem after_concat (input : LifecycleInput) (now : Nat) :
    after budget s (inputs ++ [(input, now)]) =
      (after budget s inputs).next input now budget := by
  rw [after, List.foldl_append]
  rfl

/- A run ends with the state that its inputs lead to. -/
theorem getLast?_run :
    (s :: run budget s inputs).getLast? =
      some (after budget s inputs) := by
  induction inputs generalizing s with
  | nil => rfl
  | cons x inputs ih =>
      rw [run, List.getLast?_cons_cons]
      exact ih (s.next x.1 x.2 budget)

theorem run_concat (input : LifecycleInput) (now : Nat) :
    run budget s (inputs ++ [(input, now)]) =
      run budget s inputs ++
        [(after budget s inputs).next input now budget] := by
  induction inputs generalizing s with
  | nil => rfl
  | cons x inputs ih =>
      simp only [List.cons_append, run, ih]
      rfl

theorem accepted_concat (input : LifecycleInput) (now : Nat) :
    accepted budget s (inputs ++ [(input, now)]) =
      accepted budget s inputs +
        if Accepts budget (after budget s inputs) input now
        then 1 else 0 := by
  induction inputs generalizing s with
  | nil => exact Nat.add_comm _ _
  | cons x inputs ih =>
      simp only [List.cons_append, accepted, ih]
      exact (Nat.add_assoc _ _ _).symm

theorem after_terminated :
    after budget terminated inputs = terminated := by
  induction inputs with
  | nil => rfl
  | cons x inputs ih => exact ih

end Histories

------------------------------------------------------------
-- Generations
------------------------------------------------------------

/- A generation is the number of links so far, in a word. -/
theorem toNat_generation_after
    (budget : Nat)
    (inputs : List (LifecycleInput × Nat)) :
    ∀ g,
      (after budget connecting inputs).generation? = some g →
      g.toNat = accepted budget connecting inputs % UInt32.size := by
  induction inputs using List.reverseRecOn with
  | nil =>
      rintro g ⟨rfl⟩
      rfl
  | append_singleton inputs x ih =>
      obtain ⟨input, now⟩ := x
      intro g hGeneration
      rw [after_concat] at hGeneration
      rw [accepted_concat]
      split
      · rename_i hAccepts
        obtain ⟨g', hOld, hNew⟩ := generation_of_accepts hAccepts
        obtain rfl : g = g' + 1 :=
          Option.some.inj (hGeneration.symm.trans hNew)
        rw [UInt32.toNat_add, ih g' hOld, Nat.mod_add_mod]
        rfl
      · rename_i hOther
        rcases generation_of_not_accepts hOther with hSame | hEnd
        · exact ih g (hSame.symm.trans hGeneration)
        · rw [hEnd] at hGeneration
          cases hGeneration

------------------------------------------------------------
-- Deadlines
------------------------------------------------------------

/-
  The link of a generation was lost at a time, which set the
  deadline, and nothing has changed the state since then.
-/
def LostAt
    (budget : Nat)
    (inputs : List (LifecycleInput × Nat))
    (g : UInt32)
    (due : Nat) : Prop :=
  ∃ early input now later,
    inputs = early ++ (input, now) :: later ∧
    (after budget connecting early).isLinked = true ∧
    (after budget connecting early).generation? = some g ∧
    input.losesLink = true ∧
    due = now + budget ∧
    ∀ mid, mid <+: later →
      after budget connecting (early ++ (input, now) :: mid) =
        disconnected g due

/- The deadline is the time of the loss plus the budget. -/
theorem lostAt_after
    (budget : Nat)
    (inputs : List (LifecycleInput × Nat))
    {g : UInt32}
    {due : Nat}
    (hState :
      after budget connecting inputs = disconnected g due) :
    LostAt budget inputs g due := by
  induction inputs using List.reverseRecOn with
  | nil => cases hState
  | append_singleton inputs x ih =>
      obtain ⟨input, now⟩ := x
      have hNext := hState
      rw [after_concat] at hNext
      have hChange := next_change budget now
        (after budget connecting inputs) input
      rw [hNext] at hChange
      generalize hOld : after budget connecting inputs = s
        at hChange
      cases hChange with
      | stays =>
          obtain ⟨early, cause, at', later, rfl, hLinked, hSame,
            hLoses, hDue, hSince⟩ := ih hOld
          refine ⟨early, cause, at', later ++ [(input, now)],
            by simp, hLinked, hSame, hLoses, hDue, ?_⟩
          intro mid hMid
          rcases List.prefix_concat_iff.mp hMid with rfl | hMid
          · simpa using hState
          · exact hSince mid hMid
      | loses _ _ _ hLinked hSame hLoses =>
          refine ⟨inputs, input, now, [], rfl, ?_, ?_, hLoses, rfl,
            ?_⟩
          · rw [hOld]
            exact hLinked
          · rw [hOld]
            exact hSame
          · intro mid hMid
            rw [List.prefix_nil.mp hMid]
            exact hState

------------------------------------------------------------
-- Lifetimes
------------------------------------------------------------

/-
  What a history tells of the state that it has led to, and
  what an input can do to this state.
-/
structure Lifetime
    (budget : Nat)
    (inputs : List (LifecycleInput × Nat))
    (input : LifecycleInput)
    (now : Nat)
    (s s' : Lifecycle) : Prop where
  /- These are the last two states of a run. -/
  shown :
    (connecting :: run budget connecting inputs).getLast? =
        some s ∧
      run budget connecting (inputs ++ [(input, now)]) =
        run budget connecting inputs ++ [s']
  /- The generation counts the links that were accepted. -/
  counted : ∀ g,
    s.generation? = some g →
      g.toNat = accepted budget connecting inputs % UInt32.size
  /- No other input changes it. -/
  renewed : ∀ g g',
    s.generation? = some g → s'.generation? = some g' →
      g' = if Accepts budget s input now then g + 1 else g
  /- The deadline counts from the loss of the link. -/
  lost : ∀ g due,
    s = disconnected g due → LostAt budget inputs g due
  /- A lost link comes back up to the deadline. -/
  resumed : ∀ g due,
    s = disconnected g due → ∀ g',
      s' = connected g' ↔
        input = .reconnected ∧ now ≤ due ∧ g' = g + 1
  /- A link comes to be in doubt after an answer. -/
  doubted : ∀ g,
    s' ≠ s →
      (s' = awaitingDisconnection g ↔
        s = connected g ∧ input = .exchangeSucceeded true)
  /- It does not stay in doubt, unless nothing happens. -/
  settled : ∀ g,
    s = awaitingDisconnection g →
      s' = s ∨ s' = connected g ∨
        (∃ due, s' = disconnected g due) ∨ s' = terminated
  /- A wish, a deadline, or a link too late is the end. -/
  ended :
    s ≠ terminated →
      (s' = terminated ↔
        input = .closeRequested ∨
        input = .budgetExpired ∧ s.isLinked = false ∨
        input = .reconnected ∧
          ∃ g due, s = disconnected g due ∧ due < now)
  /- The end is never left. -/
  final :
    s = terminated → ∀ more, after budget s more = terminated

theorem lifetime_after
    (budget : Nat)
    (inputs : List (LifecycleInput × Nat))
    (input : LifecycleInput)
    (now : Nat) :
    let s := after budget connecting inputs
    Lifetime budget inputs input now s
      (s.next input now budget) := by
  intro s
  constructor
  case shown =>
    exact ⟨getLast?_run budget connecting inputs,
      run_concat budget connecting inputs input now⟩
  case counted =>
    exact toNat_generation_after budget inputs
  case renewed =>
    intro g g' hOld hNew
    split
    · rename_i hAccepts
      obtain ⟨h, hSame, hNext⟩ := generation_of_accepts hAccepts
      rw [hSame] at hOld
      rw [hNext] at hNew
      cases hOld
      cases hNew
      rfl
    · rename_i hOther
      rcases generation_of_not_accepts hOther with hSame | hEnd
      · rw [hSame, hOld] at hNew
        cases hNew
        rfl
      · rw [hEnd] at hNew
        cases hNew
  case lost =>
    intro g due hState
    exact lostAt_after budget inputs hState
  case resumed =>
    intro g due hState g'
    rw [hState]
    exact next_disconnected_eq_connected_iff
  case doubted =>
    intro g hMoves
    exact next_eq_awaitingDisconnection_iff hMoves
  case settled =>
    intro g hState
    rw [hState]
    exact next_awaitingDisconnection budget now g input
  case ended =>
    intro hOpen
    exact next_eq_terminated_iff hOpen
  case final =>
    intro hState more
    rw [hState]
    exact after_terminated budget more

end Lifecycle

end DeviceSession
