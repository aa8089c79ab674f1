import DeviceSession.Proofs.Run.Hearing
import DeviceSession.Proofs.Run.Requests

/-
  What holds of a driver and its requests in every run.

  A run of a scenario is a story with its log left out, so
  its requests are accounted for as well.  The job of the
  driver fits the state, and its link is as the job needs
  it.

  Key definitions include:
    * `Driver.Sound`

  Main declarations:
    * `Scenario.account_run`
    * `Scenario.sound_run`
-/

------------------------------------------------------------
-- Sound Drivers
------------------------------------------------------------

namespace DeviceSession

/- What holds of a driver in every run. -/
structure Driver.Sound
    {L : Type}
    (p : Profile)
    (d : Driver L)
    (s : Lifecycle) : Prop where
  fits : d.Fits s
  fresh : d.Fresh p
  failure :
    d.failure = .terminated ∨
      d.failure = .disconnectedBeforeSending

theorem Driver.step_sound
    {W L : Type}
    (c : Connector W L)
    (now : Nat)
    {d : Driver L}
    {k : Connection}
    (w : W)
    (h : d.Sound c.profile k.state) :
    ∀ d' ∈ (d.step c now k w).1.next?,
      d'.Sound c.profile (d.step c now k w).2.1.state := by
  intro d' hd'
  refine ⟨step_fits c now w h.fits d' hd',
    step_fresh c now w h.fits h.fresh d' hd', ?_⟩
  rcases step_failure c now w h.fits d' hd' with
    hSame | hLate
  · rw [hSame]
    exact h.failure
  · exact .inr hLate

------------------------------------------------------------
-- Accounts Without a Log
------------------------------------------------------------

/- Names of links do not matter for a job to fit. -/
theorem Driver.fits_map
    {L L' : Type}
    (f : L' → L)
    {d : Driver L'}
    {s : Lifecycle}
    (h : d.Fits s) :
    (d.map f).Fits s := by
  rcases d with ⟨link, job, failure⟩
  cases job with
  | idle => exact Option.isSome_map.trans h
  | bringingUp x =>
      exact ⟨congrArg (Option.map (HostEnd.map f)) h.1, h.2⟩
  | _ => exact ⟨Option.isSome_map.trans h.1, h.2⟩

theorem Driver.request?_map
    {L L' : Type}
    (f : L' → L)
    (d : Driver L') :
    (d.map f).job.request? = d.job.request? := by
  rcases d with ⟨link, job, failure⟩
  cases job <;> rfl

/- Nor do they matter for the requests. -/
theorem Account.map
    {L L' : Type}
    (f : L' → L)
    {driver : Option (Driver L')}
    {k : Connection}
    {accepted : List Request}
    {taken : List (Request × Bool)}
    (h : Account driver k accepted taken) :
    Account (driver.map (Driver.map f)) k accepted taken := by
  cases driver with
  | none =>
      exact { h with
        fits := by simp
        ended := fun _ => h.ended rfl
        current := by simp
        answered := by simpa using h.answered }
  | some d =>
      exact { h with
        fits := by
          intro d' hd'
          cases hd'
          exact Driver.fits_map f (h.fits d rfl)
        ended := by simp
        current := by
          intro d' hd' r hr
          cases hd'
          rw [Driver.request?_map] at hr
          exact h.current d rfl r hr
        answered := by
          intro r hr
          simpa [Driver.request?_map] using h.answered r hr }

------------------------------------------------------------
-- Runs
------------------------------------------------------------

namespace Scenario

variable {W L A : Type}

/- The requests of a run are accounted for. -/
theorem account_run
    (c : Connector W L)
    (act : A → W → W)
    (settings : Settings)
    (now : Nat)
    (w : W)
    (moves : List (Move A)) :
    ∃ accepted taken,
      Account ((start settings now w).run c act moves).driver
        ((start settings now w).run c act moves).connection
        accepted taken := by
  have hAccounts :=
    Story.accounts_run c act settings now w moves
  have hErase :=
    Story.erase_run c act (Story.start settings now w) moves
  have hSame :
      (Story.start settings now w : Story W L A).erase =
        start settings now w := rfl
  rw [hSame] at hErase
  rw [← hErase]
  exact ⟨_, _, Account.map Prod.snd hAccounts⟩

/- The driver is sound throughout every run. -/
theorem sound_run
    (c : Connector W L)
    (act : A → W → W)
    (settings : Settings)
    (now : Nat)
    (w : W)
    (moves : List (Move A)) :
    ∀ d ∈ ((start settings now w).run c act moves).driver,
      d.Sound c.profile
        ((start settings now w).run c act
          moves).connection.state := by
  apply run_induction
    (P := fun s : Scenario W L =>
      ∀ d ∈ s.driver, d.Sound c.profile s.connection.state)
  · intro s m _ h
    cases m with
    | submit a options =>
        simp only [step]
        rw [Connection.state_submit]
        exact h
    | close =>
        simp only [step]
        rw [Connection.state_close]
        exact h
    | drive =>
        simp only [step, drive]
        cases hDriver : s.driver with
        | none =>
            intro d hd
            rw [hDriver] at hd
            cases hd
        | some d =>
            exact d.step_sound c s.now s.world (h d hDriver)
    | _ => exact h
  · intro d hd
    cases hd
    exact ⟨rfl, by simp [Driver.Fresh], .inl rfl⟩

end Scenario

end DeviceSession
