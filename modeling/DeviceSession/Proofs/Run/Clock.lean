import Mathlib.Data.List.Induction
import DeviceSession.Proofs.Run.Inputs
import DeviceSession.Proofs.Run.Soundness

/-
  Runs under a clock that waits for the driver.

  The clock goes on only when the driver is at work, and stops
  at every time that the driver waits for.  Only the driver
  changes the state, by the inputs that it gives.

  Nothing here says that a driver gets to wait.  One that goes
  on for ever at one time keeps the clock from moving.

  Key definitions include:
    * `Scenario.Allows`
    * `Scenario.Timely`
    * `Scenario.Feeds`

  Main declarations:
    * `Scenario.state_drive`
    * `Scenario.settings_run`
-/

------------------------------------------------------------
-- Clocks
------------------------------------------------------------

namespace DeviceSession

/- The driver is at work, and has not let a time go by. -/
def Driver.InTime
    {L : Type}
    (now : Nat)
    (d : Driver L) : Prop :=
  d.job ≠ .idle ∧ ∀ due ∈ d.timers, now ≤ due

instance {L : Type} (j : Job L) : Decidable (j ≠ .idle) :=
  match j with
  | .idle => isFalse (absurd rfl)
  | .bringingUp _ => isTrue nofun
  | .serving _ => isTrue nofun
  | .exchanging _ _ => isTrue nofun
  | .checking _ => isTrue nofun

instance {L : Type} (now : Nat) :
    DecidablePred (Driver.InTime (L := L) now) := fun d =>
  inferInstanceAs
    (Decidable (d.job ≠ .idle ∧ ∀ due ∈ d.timers, now ≤ due))

namespace Scenario

variable {W L A : Type}

/-
  Time may pass up to the next time that the driver waits
  for; all else may happen at any time.
-/
def Allows (s : Scenario W L) : Move A → Prop
  | .pass ms => ∀ d ∈ s.driver, d.InTime (s.now + ms)
  | _ => True

instance (s : Scenario W L) (m : Move A) :
    Decidable (s.Allows m) :=
  match m with
  | .pass ms =>
      inferInstanceAs
        (Decidable (∀ d ∈ s.driver, d.InTime (s.now + ms)))
  | .submit _ _ => isTrue trivial
  | .abandon _ => isTrue trivial
  | .close => isTrue trivial
  | .outside _ => isTrue trivial
  | .drive => isTrue trivial

/- Every move of the run is allowed when it is made. -/
def Timely
    (c : Connector W L)
    (act : A → W → W)
    (s : Scenario W L) : List (Move A) → Prop
  | [] => True
  | m :: moves =>
      s.Allows m ∧ Timely c act (s.step c act m) moves

instance decidableTimely
    (c : Connector W L)
    (act : A → W → W) :
    (s : Scenario W L) → (moves : List (Move A)) →
      Decidable (s.Timely c act moves)
  | _, [] => isTrue trivial
  | s, m :: moves =>
      have := decidableTimely c act (s.step c act m) moves
      inferInstanceAs
        (Decidable
          (s.Allows m ∧ Timely c act (s.step c act m) moves))

/- The driver gives an input to the lifecycle. -/
structure Feeds
    (c : Connector W L)
    (s : Scenario W L)
    (input : LifecycleInput) : Prop where
  cause : ∃ d ∈ s.driver, d.Causes s.now s.connection input
  state :
    (s.drive c).connection.state =
      s.connection.state.next input s.now
        s.connection.settings.reconnectBudget.toNat
  after :
    ∃ d ∈ (s.drive c).driver, d.job = .idle ∧
      ((s.drive c).connection.state = .terminated →
        input ≠ .closeRequested →
          d.failure = .disconnectedBeforeSending)

/- What holds of the driver at every point of a run. -/
structure Staffed (s : Scenario W L) : Prop where
  fits : ∀ d ∈ s.driver, d.Fits s.connection.state
  ended : s.driver = none → s.connection.state = .terminated

/- In a run the driver is there until the end. -/
theorem staffed_run
    (c : Connector W L)
    (act : A → W → W)
    (settings : Settings)
    (now : Nat)
    (w : W)
    (moves : List (Move A)) :
    Staffed ((start settings now w).run c act moves) := by
  rcases account_run c act settings now w moves with
    ⟨accepted, taken, h⟩
  exact ⟨h.fits, fun hNone => (h.ended hNone).1⟩

section Changes

variable {c : Connector W L} {act : A → W → W}
variable {s : Scenario W L} {m : Move A}

/- Once it has ended, nothing is done. -/
theorem drive_of_none
    (hDriver : s.driver = none) :
    s.drive c = s := by
  unfold drive
  rw [hDriver]

/- A step of a scenario is one of its driver. -/
theorem drive_driver
    {d : Driver L}
    (hDriver : s.driver = some d) :
    (s.drive c).driver =
      (d.step c s.now s.connection s.world).1.next? := by
  unfold drive
  rw [hDriver]

/- The connection is the one that the step leaves. -/
theorem drive_connection
    {d : Driver L}
    (hDriver : s.driver = some d) :
    (s.drive c).connection =
      (d.step c s.now s.connection s.world).2.1 := by
  unfold drive
  rw [hDriver]

/- It takes no time. -/
theorem drive_now : (s.drive c).now = s.now := by
  unfold drive
  split <;> rfl

/- The driver is at work after a step without an input. -/
theorem state_drive
    (h : s.Staffed) :
    (s.drive c).connection.state = s.connection.state ∧
        (∀ d ∈ (s.drive c).driver, s.driver ≠ none →
          d.job ≠ .idle) ∨
      ∃ input, s.Feeds c input := by
  cases hDriver : s.driver with
  | none =>
      rw [drive_of_none hDriver]
      exact .inl ⟨rfl, fun d _ hSome => absurd rfl hSome⟩
  | some d =>
      have hChange :=
        d.step_change c s.now s.world (h.fits d hDriver)
      have hDriver' := drive_driver (c := c) hDriver
      rw [← drive_connection hDriver] at hChange
      generalize (d.step c s.now s.connection s.world).1 = t
        at hChange hDriver'
      cases hChange with
      | none hState hBusy =>
          rw [hDriver']
          exact .inl ⟨hState, fun d' hd' _ => hBusy d' hd'⟩
      | input input hCause hState hJob hFailure =>
          exact .inr ⟨input, ⟨d, hDriver, hCause⟩, hState,
            _, hDriver', hJob, hFailure⟩

/-
  Callers and the world change neither the time, nor the
  driver, nor the state.
-/
theorem step_cases
    (c : Connector W L)
    (act : A → W → W)
    (s : Scenario W L)
    (m : Move A) :
    (∃ ms, m = .pass ms) ∨ m = .drive ∨
      (s.step c act m).now = s.now ∧
        (s.step c act m).driver = s.driver ∧
          (s.step c act m).connection.state =
            s.connection.state := by
  cases m with
  | pass ms => exact .inl ⟨ms, rfl⟩
  | drive => exact .inr (.inl rfl)
  | submit a options =>
      exact .inr (.inr
        ⟨rfl, rfl, Connection.state_submit _ a options⟩)
  | close =>
      exact .inr (.inr ⟨rfl, rfl, Connection.state_close _⟩)
  | _ => exact .inr (.inr ⟨rfl, rfl, rfl⟩)

/- Only the driver changes the state. -/
theorem state_step_of_ne
    (hMove : m ≠ .drive) :
    (s.step c act m).connection.state =
      s.connection.state := by
  rcases step_cases c act s m with ⟨ms, rfl⟩ | hDrive | hSame
  · rfl
  · exact absurd hDrive hMove
  · exact hSame.2.2

/- Nothing changes the settings. -/
theorem settings_step
    (h : s.Staffed) :
    (s.step c act m).connection.settings =
      s.connection.settings := by
  cases m with
  | submit a options =>
      simp only [step, Connection.submit]
      repeat' split
      all_goals rfl
  | close =>
      simp only [step, Connection.close]
      split <;> rfl
  | drive =>
      rw [step]
      cases hDriver : s.driver with
      | none => rw [drive_of_none hDriver]
      | some d =>
          rw [drive_connection hDriver]
          exact d.step_settings c s.now s.world
            (h.fits d hDriver)
  | _ => rfl

/- Without a link, a driver at work is bringing one up. -/
theorem bringingUp_of_unlinked
    {d : Driver L}
    {state : Lifecycle}
    (hFits : d.Fits state)
    (hUnlinked : state.isLinked = false)
    (hBusy : d.job ≠ .idle) :
    ∃ x, d.job = .bringingUp x ∧
      (state = .connecting ∨
        ∃ g, state = .disconnected g x.deadline) := by
  have hLink := hFits.link
  rcases d with ⟨link, job, failure⟩
  rw [hUnlinked] at hLink
  cases job with
  | idle => exact absurd rfl hBusy
  | bringingUp x => exact ⟨x, rfl, hFits.2⟩
  | _ => rw [hFits.1] at hLink; cases hLink

end Changes

/- The settings are the same throughout. -/
theorem settings_run
    (c : Connector W L)
    (act : A → W → W)
    (settings : Settings)
    (now : Nat)
    (w : W)
    (moves : List (Move A)) :
    ((start settings now w).run c act
        moves).connection.settings =
      settings := by
  induction moves using List.reverseRecOn with
  | nil => rfl
  | append_singleton before m hBefore =>
      have hStaffed := staffed_run c act settings now w before
      rw [run_append]
      exact (settings_step hStaffed).trans hBefore

end Scenario

end DeviceSession
