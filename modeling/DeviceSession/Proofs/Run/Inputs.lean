import DeviceSession.Proofs.Run.Account

/-
  Which inputs a driver gives to the lifecycle.

  A step of a driver leaves the state as it is, or changes it
  by one input, after which the driver is idle.  Each input
  has its cause: a wish to close, a deadline that has come, a
  fresh link, or what has become of the link in use.

  Key definitions include:
    * `Driver.Causes`
    * `Driver.Change`

  Main declarations:
    * `Lifecycle.next_disconnected`
    * `Driver.step_change`
-/

------------------------------------------------------------
-- Ways into a State
------------------------------------------------------------

namespace DeviceSession

namespace Lifecycle

variable {s : Lifecycle} {input : LifecycleInput}
variable {now budget : Nat}

theorem next_connecting
    (hNext : s.next input now budget = connecting) :
    s = connecting := by
  have hChange := next_change budget now s input
  rw [hNext] at hChange
  cases hChange with
  | stays => rfl

/-
  A deadline is set when a link is lost, and no input moves
  it after that.
-/
theorem next_disconnected
    {g : UInt32}
    {due : Nat}
    (hNext : s.next input now budget = disconnected g due) :
    s = disconnected g due ∨
      s.isLinked = true ∧ due = now + budget := by
  have hChange := next_change budget now s input
  rw [hNext] at hChange
  cases hChange with
  | stays => exact .inl rfl
  | loses _ _ _ hLinked => exact .inr ⟨hLinked, rfl⟩

end Lifecycle

------------------------------------------------------------
-- Inputs and Their Causes
------------------------------------------------------------

namespace BringUp

variable {W L : Type} {c : Connector W L} {now : Nat}
variable {x x' : BringUp L} {k k' : Connection} {w w' : W}

/- Attempts go on past any deadline. -/
theorem attemptStep_ne_expired
    (c : Connector W L)
    (now : Nat)
    (x : BringUp L)
    (k : Connection)
    (w : W) :
    (x.attemptStep c now k w).1 ≠ .done .expired := by
  unfold attemptStep
  split
  all_goals
    simp only [Turn.pause]
    repeat' split
  all_goals simp

/- Bringing up a link expires at its deadline, not before. -/
theorem deadline_of_expired
    (hStep : x.step c now k w = (.done .expired, k', w')) :
    x.deadline ≤ now := by
  have hKept := (x.attemptStep_connection c now k w).2
  unfold step at hStep
  split at hStep
  · rename_i x' k'' w'' hAttempt
    rw [hAttempt] at hKept
    split at hStep
    · rename_i hLate
      rw [← hKept x' rfl]
      exact hLate
    · cases hStep
  · have hNever := x.attemptStep_ne_expired c now k w
    rw [hStep] at hNever
    exact absurd rfl hNever

/- It waits only before its deadline. -/
theorem deadline_of_wait
    (hStep : x.step c now k w = (.wait x', k', w')) :
    now < x.deadline := by
  have hKept := (x.step_connection c now k w).2 x'
  rw [hStep] at hKept
  unfold step at hStep
  split at hStep
  · split at hStep
    · cases hStep
    · rename_i hEarly
      cases hStep
      rw [← hKept rfl]
      exact Nat.not_le.mp hEarly
  · rename_i hOther
    exact absurd hStep (hOther _ _ _)

end BringUp

namespace Driver

variable {W L : Type}

/- Why the driver gives an input to the lifecycle. -/
def Causes
    (now : Nat)
    (d : Driver L)
    (k : Connection) : LifecycleInput → Prop
  | .closeRequested => k.closing = true
  | .budgetExpired =>
      ∃ x, d.job = .bringingUp x ∧ x.deadline ≤ now
  | .reconnected => ∃ x, d.job = .bringingUp x
  | _ => k.state.isLinked = true

/-
  What a step changes of the state.  It changes nothing, and
  the driver is at work; or it gives an input, and the driver
  is idle.  A driver that ends the connection for another
  reason than a wish to close is to fail what waits.
-/
inductive Change
    (now : Nat)
    (d : Driver L)
    (k k' : Connection) : Turn (Driver L) Unit → Prop where
  | none
      {t : Turn (Driver L) Unit}
      (hState : k'.state = k.state)
      (hBusy : ∀ d' ∈ t.next?, d'.job ≠ .idle) :
      Change now d k k' t
  | input
      {d' : Driver L}
      (input : LifecycleInput)
      (hCause : d.Causes now k input)
      (hState :
        k'.state =
          k.state.next input now
            k.settings.reconnectBudget.toNat)
      (hJob : d'.job = .idle)
      (hFailure :
        k'.state = .terminated → input ≠ .closeRequested →
          d'.failure = .disconnectedBeforeSending) :
      Change now d k k' (.go d')

theorem feed_failure_of_terminated
    (c : Connector W L)
    (now : Nat)
    {input : LifecycleInput}
    (d : Driver L)
    (k : Connection)
    (w : W)
    (hEnd :
      k.state.next input now k.settings.reconnectBudget.toNat =
        .terminated)
    (hInput : input ≠ .closeRequested) :
    (feed c now input d k w).1.failure =
      .disconnectedBeforeSending := by
  simp only [feed, arrive_failure, hEnd]
  exact if_pos ⟨rfl, hInput⟩

theorem change_feed
    (c : Connector W L)
    (now : Nat)
    {input : LifecycleInput}
    {d d₀ : Driver L}
    {k k₀ : Connection}
    (w : W)
    (hCause : d.Causes now k input)
    (hState : k₀.state = k.state)
    (hSettings : k₀.settings = k.settings) :
    d.Change now k (moved (feed c now input d₀ k₀ w)).2.1
      (moved (feed c now input d₀ k₀ w)).1 := by
  rcases feed_connection c now input d₀ k₀ w with ⟨events, hk⟩
  have hNew := congrArg Connection.state hk
  dsimp only at hNew
  have hJob := feed_job c now input d₀ k₀ w
  refine .input input hCause ?_ hJob ?_
  · rw [← hState, ← hSettings]
    exact hNew
  · intro hEnd hOther
    exact feed_failure_of_terminated c now d₀ k₀ w
      (hNew.symm.trans hEnd) hOther

theorem Fits.isLinked
    {d : Driver L}
    {s : Lifecycle}
    {e : HostEnd L}
    (hFits : d.Fits s)
    (hLink : d.link = some e) :
    s.isLinked = true := by
  rw [← hFits.link, hLink]
  rfl

/- Every step changes the state in one of these ways. -/
theorem step_change
    (c : Connector W L)
    (now : Nat)
    {d : Driver L}
    {k : Connection}
    (w : W)
    (hFits : d.Fits k.state) :
    d.Change now k (d.step c now k w).2.1
      (d.step c now k w).1 := by
  have hOutcome := step_outcome c now w hFits
  generalize d.step c now k w = result at hOutcome ⊢
  cases hOutcome with
  | finish hJob hState =>
      exact .none (Connection.state_failEach _ k k.queue)
        (by simp [Turn.next?])
  | bringUp hJob hLink hState =>
      exact .none rfl (by simp [Turn.next?, goto])
  | serve hJob hLink hState =>
      exact .none rfl (by simp [Turn.next?, goto])
  | check hJob hLink hState =>
      exact .none rfl (by simp [Turn.next?, goto])
  | take hJob hQueue hGone =>
      exact .none rfl (by simp [Turn.next?, goto])
  | watch hJob hLink hQueue hStep =>
      refine .none rfl ?_
      rcases hStep with ⟨-, rfl⟩ | ⟨-, rfl⟩ <;>
        simp [Turn.next?, goto]
  | exchange hJob hLink hStep =>
      refine .none rfl ?_
      rcases hStep with ⟨-, rfl⟩ | ⟨-, rfl⟩ <;>
        simp [Turn.next?]
  | probe hJob hLink hStep =>
      refine .none rfl ?_
      rcases hStep with ⟨-, rfl⟩ | ⟨-, rfl⟩ <;>
        simp [Turn.next?]
  | interrupt hJob hClosing =>
      rcases d.heeded_eq k with ⟨slots, hHeeded⟩
      rw [hHeeded]
      exact change_feed c now _ hClosing rfl rfl
  | seek hJob hStep =>
      rename_i x x' t k' w'
      rcases hStep with ⟨hStep, rfl⟩ | ⟨hStep, rfl⟩
      all_goals
        rcases BringUp.connection_of_step hStep with
          ⟨events, rfl⟩
        exact .none rfl (by simp [Turn.next?, goto])
  | linked hJob hStep =>
      rename_i x e k' w'
      rcases BringUp.connection_of_step hStep with ⟨events, rfl⟩
      exact change_feed c now _ ⟨x, hJob⟩ rfl rfl
  | expired hJob hStep =>
      rename_i x k' w'
      have hDue := BringUp.deadline_of_expired hStep
      rcases BringUp.connection_of_step hStep with ⟨events, rfl⟩
      exact change_feed c now _ ⟨x, hJob, hDue⟩ rfl rfl
  | skip hJob hQueue hGone =>
      have hLinked := hFits.link
      simp only [Fits, hJob] at hFits
      exact change_feed c now _
        (hLinked.symm.trans hFits.1) rfl rfl
  | lost hJob hLink hQueue hStep =>
      exact change_feed c now _ (hFits.isLinked hLink) rfl rfl
  | settle hOpen hJob hLink hStep =>
      refine change_feed c now _ ?_ rfl rfl
      unfold Driver.settle
      split <;> exact hFits.isLinked hLink
  | settleCheck hOpen hJob hLink hStep =>
      refine change_feed c now _ ?_ rfl rfl
      unfold Driver.settleCheck
      split <;> exact hFits.isLinked hLink

theorem feed_settings
    (c : Connector W L)
    (now : Nat)
    (input : LifecycleInput)
    (d : Driver L)
    (k : Connection)
    (w : W) :
    (feed c now input d k w).2.1.settings = k.settings := by
  rcases feed_connection c now input d k w with ⟨events, hk⟩
  rw [hk]

theorem feed_queue
    (c : Connector W L)
    (now : Nat)
    (input : LifecycleInput)
    (d : Driver L)
    (k : Connection)
    (w : W) :
    (feed c now input d k w).2.1.queue = k.queue := by
  rcases feed_connection c now input d k w with ⟨events, hk⟩
  rw [hk]

/- The settings stay as they are. -/
theorem step_settings
    (c : Connector W L)
    (now : Nat)
    {d : Driver L}
    {k : Connection}
    (w : W)
    (hFits : d.Fits k.state) :
    (d.step c now k w).2.1.settings = k.settings := by
  have hOutcome := step_outcome c now w hFits
  generalize d.step c now k w = result at hOutcome ⊢
  cases hOutcome with
  | finish hJob hState =>
      exact Connection.settings_failEach _ k k.queue
  | interrupt hJob hClosing =>
      rcases d.heeded_eq k with ⟨slots, hHeeded⟩
      rw [hHeeded]
      exact feed_settings c now _ _ _ _
  | seek hJob hStep =>
      rename_i x x' t k' w'
      rcases hStep with ⟨hStep, -⟩ | ⟨hStep, -⟩
      all_goals
        rcases BringUp.connection_of_step hStep with
          ⟨events, rfl⟩
        rfl
  | linked hJob hStep =>
      rename_i x e k' w'
      rcases BringUp.connection_of_step hStep with ⟨events, rfl⟩
      exact feed_settings c now _ _ _ _
  | expired hJob hStep =>
      rename_i x k' w'
      rcases BringUp.connection_of_step hStep with ⟨events, rfl⟩
      exact feed_settings c now _ _ _ _
  | skip hJob hQueue hGone => exact feed_settings c now _ _ _ _
  | lost hJob hLink hQueue hStep => exact feed_settings c now _ _ _ _
  | settle hOpen hJob hLink hStep => exact feed_settings c now _ _ _ _
  | settleCheck hOpen hJob hLink hStep =>
      exact feed_settings c now _ _ _ _
  | _ => rfl

/-
  A driver that is bringing up a link has just begun, with
  the deadline of the state, or has gone on with it.
-/
theorem step_bringingUp
    (c : Connector W L)
    (now : Nat)
    {d d' : Driver L}
    {k : Connection}
    {w : W}
    {x' : BringUp L}
    (hFits : d.Fits k.state)
    (hStep : d' ∈ (d.step c now k w).1.next?)
    (hJob' : d'.job = .bringingUp x') :
    d.job = .idle ∧ x' = { deadline := x'.deadline } ∧
        (k.state = .connecting ∧
            x'.deadline =
              now + k.settings.reconnectBudget.toNat ∨
          ∃ g, k.state = .disconnected g x'.deadline) ∨
      ∃ x, d.job = .bringingUp x ∧
        x' ∈ (x.step c now k w).1.next? := by
  have hMoved :
      ∀ input (d₀ : Driver L) k₀ w₀,
        d' ∈ (moved (feed c now input d₀ k₀ w₀)).1.next? →
          False := by
    intro input d₀ k₀ w₀ hd'
    have hSame : (feed c now input d₀ k₀ w₀).1 = d' :=
      Option.some.inj hd'
    rw [← hSame, feed_job] at hJob'
    cases hJob'
  have hOutcome := step_outcome c now w hFits
  generalize d.step c now k w = result at hStep hOutcome
  cases hOutcome with
  | finish hJob hState => cases hStep
  | bringUp hJob hLink hState =>
      cases hStep
      cases hJob'
      exact .inl ⟨hJob, rfl, hState⟩
  | seek hJob hStep' =>
      right
      refine ⟨_, hJob, ?_⟩
      rcases hStep' with ⟨hSame, rfl⟩ | ⟨hSame, rfl⟩
      all_goals
        cases hStep
        cases hJob'
        rw [hSame]
        rfl
  | watch hJob hLink hQueue hStep' =>
      rcases hStep' with ⟨-, rfl⟩ | ⟨-, rfl⟩
      all_goals
        cases hStep
        cases hJob'
  | exchange hJob hLink hStep' =>
      rcases hStep' with ⟨-, rfl⟩ | ⟨-, rfl⟩
      all_goals
        cases hStep
        cases hJob'
  | probe hJob hLink hStep' =>
      rcases hStep' with ⟨-, rfl⟩ | ⟨-, rfl⟩
      all_goals
        cases hStep
        cases hJob'
  | serve hJob hLink hState =>
      cases hStep
      cases hJob'
  | check hJob hLink hState =>
      cases hStep
      cases hJob'
  | take hJob hQueue hGone =>
      cases hStep
      cases hJob'
  | _ => exact (hMoved _ _ _ _ hStep).elim

/- Bringing up a link leaves the requests in the queue. -/
theorem step_queue_of_bringingUp
    (c : Connector W L)
    (now : Nat)
    {d : Driver L}
    (k : Connection)
    (w : W)
    {x : BringUp L}
    (hJob : d.job = .bringingUp x) :
    (d.step c now k w).2.1.queue = k.queue := by
  rcases d with ⟨link, job, failure⟩
  cases hJob
  rw [step_of_busy c now k w (by simp)]
  by_cases hClosing : k.closing = true
  · rw [if_pos hClosing]
    exact feed_queue c now _ _ _ _
  · rw [if_neg hClosing]
    rcases (x.step_connection c now k w).1 with ⟨events, hk⟩
    simp only [work]
    generalize x.step c now k w = result at hk
    rcases result with ⟨t, k', w'⟩
    cases hk
    cases t with
    | go x' => rfl
    | wait x' => rfl
    | done ending =>
        cases ending with
        | linked e => exact feed_queue c now _ _ _ _
        | expired => exact feed_queue c now _ _ _ _

/- Without a link, a driver waits only before a deadline. -/
theorem deadline_of_step_wait
    (c : Connector W L)
    (now : Nat)
    {d d' : Driver L}
    {k : Connection}
    {w : W}
    (hFits : d.Fits k.state)
    (hUnlinked : k.state.isLinked = false)
    (hWait : (d.step c now k w).1 = .wait d') :
    ∃ x, d.job = .bringingUp x ∧ now < x.deadline := by
  have hOutcome := step_outcome c now w hFits
  generalize d.step c now k w = result at hOutcome hWait
  have hNone :
      ∀ e, d.link ≠ some e := by
    intro e hLink
    rw [hFits.isLinked hLink] at hUnlinked
    cases hUnlinked
  cases hOutcome with
  | seek hJob hStep =>
      rcases hStep with ⟨-, rfl⟩ | ⟨hStep, -⟩
      · cases hWait
      · exact ⟨_, hJob, BringUp.deadline_of_wait hStep⟩
  | watch hJob hLink hQueue hStep =>
      exact absurd hLink (hNone _)
  | exchange hJob hLink hStep => exact absurd hLink (hNone _)
  | probe hJob hLink hStep => exact absurd hLink (hNone _)
  | _ => cases hWait

end Driver

end DeviceSession
