import DeviceSession.Proofs.Run.Clock

/-
  How many attempts a link takes.

  Before the deadline the pause after a failed attempt is at
  least the reconnect delay, so that there are as many
  attempts as such pauses fit into the budget.  At the
  deadline there is no pause, nor is there one without a
  reconnect delay: a device that refuses at once is then
  tried again and again, and the driver never waits.

  Key definitions include:
    * `BringUp.Progress`
    * `BringUp.Spins`
    * `Connector.Refuses`
    * `BringUp.Attempts`

  Main declarations:
    * `BringUp.step_progress`
    * `Scenario.paced_run`
    * `BringUp.spins_endless`
    * `Scenario.attempts_run`
-/

------------------------------------------------------------
-- Pauses
------------------------------------------------------------

namespace DeviceSession

namespace Backoff

/- No pause is shorter than the reconnect delay. -/
theorem le_pauseAfter
    (settings : Settings)
    (number : UInt32)
    (e : LinkError) :
    settings.reconnectDelay.toNat ≤
      (ofSettings settings).pauseAfter number e := by
  have hCeiling :
      settings.reconnectDelay.toNat ≤
        (ofSettings settings).ceiling :=
    Nat.le_max_right _ _
  have hProduct :
      settings.reconnectDelay.toNat ≤
        settings.reconnectDelay.toNat * max number.toNat 1 :=
    Nat.le_mul_of_pos_right _ (by omega)
  have hLongest :
      settings.reconnectDelay.toNat ≤ longest := by
    have hWord := settings.reconnectDelay.toNat_lt
    unfold longest
    omega
  unfold pauseAfter
  split
  · exact hCeiling
  · exact Nat.le_min.mpr
      ⟨Nat.le_min.mpr ⟨hProduct, hLongest⟩, hCeiling⟩

/- Without a delay there is none, for devices in range. -/
theorem pauseAfter_of_zero
    {settings : Settings}
    (hDelay : settings.reconnectDelay.toNat = 0)
    (number : UInt32)
    {e : LinkError}
    (hRange : e ≠ .outOfRange) :
    (ofSettings settings).pauseAfter number e = 0 := by
  unfold pauseAfter saturatingMul ofSettings ofDelays
  rw [if_neg hRange]
  dsimp only
  rw [hDelay, Nat.zero_mul, Nat.zero_min, Nat.zero_min]

end Backoff

------------------------------------------------------------
-- Steps of an Attempt
------------------------------------------------------------

namespace BringUp

variable {W L : Type}

/- Put off the next attempt, after one that has failed. -/
def putOff
    (settings : Settings)
    (now : Nat)
    (x : BringUp L)
    (e : LinkError) : BringUp L :=
  x.goto
    (.pausing
      (now +
        Backoff.capped
          ((Backoff.ofSettings settings).pauseAfter x.number e)
          now x.deadline))

/- What a step makes of the attempt that is under way. -/
inductive Progress
    (settings : Settings)
    (now : Nat)
    (x : BringUp L) : BringUp L → Prop where
  /- The attempt goes on; a pause stays as it is. -/
  | within
      {x' : BringUp L}
      (hNumber : x'.number = x.number)
      (hDeadline : x'.deadline = x.deadline)
      (hPause :
        ∀ due, x'.attempt = .pausing due →
          x.attempt = .pausing due) :
      Progress settings now x x'
  | failed
      (e : LinkError)
      (hTrying : ∀ due, x.attempt ≠ .pausing due) :
      Progress settings now x (x.putOff settings now e)
  | again
      {x' : BringUp L}
      {due : Nat}
      (hPause : x.attempt = .pausing due)
      (hDue : due ≤ now)
      (hNumber : x'.number.toNat = x.number.toNat + 1)
      (hDeadline : x'.deadline = x.deadline)
      (hReach : x'.attempt = .reaching .first) :
      Progress settings now x x'

/- An attempt that is tried goes on, to no pause. -/
theorem progress_goto
    {settings : Settings}
    {now : Nat}
    (x : BringUp L)
    {a : Attempt L}
    (hTrying : ∀ due, a ≠ .pausing due) :
    Progress settings now x (x.goto a) :=
  .within rfl rfl fun due hPause => absurd hPause (hTrying due)

/- After a pause, the next attempt begins if there is one. -/
theorem progress_again
    {settings : Settings}
    {now due : Nat}
    {x : BringUp L}
    (hPause : x.attempt = .pausing due)
    (hDue : due ≤ now) :
    Progress settings now x x.again := by
  rcases x.again_cases with ⟨hNumber, hReach⟩ |
    ⟨-, hNumber, hOverflow⟩
  · exact .again hPause hDue hNumber x.deadline_again hReach
  · refine .within hNumber x.deadline_again ?_
    rw [hOverflow]
    nofun

theorem attemptStep_progress
    (c : Connector W L)
    (now : Nat)
    (x : BringUp L)
    (k : Connection)
    (w : W) :
    ∀ x' ∈ (x.attemptStep c now k w).1.next?,
      Progress k.settings now x x' := by
  intro x' hx'
  cases hAttempt : x.attempt with
  | reaching asked =>
      simp only [attemptStep, hAttempt] at hx'
      split at hx'
      all_goals
        cases hx'
        exact x.progress_goto (by simp)
  | fallingBack due =>
      simp only [attemptStep, hAttempt, Turn.pause] at hx'
      split at hx'
      · cases hx'
        exact x.progress_goto (by simp)
      · cases hx'
        exact .within rfl rfl fun _ h => h
  | connecting asked =>
      simp only [attemptStep, hAttempt] at hx'
      split at hx'
      · cases hx'
        exact x.progress_goto (by simp)
      · cases hx'
        exact x.progress_goto (by simp)
      · rename_i e _ _
        cases hx'
        exact .failed e (by simp [hAttempt])
  | settingUp e s =>
      simp only [attemptStep, hAttempt] at hx'
      split at hx'
      · cases hx'
        exact x.progress_goto (by simp)
      · cases hx'
        exact x.progress_goto (by simp)
      · cases hx'
      · rename_i err _ _ _
        cases hx'
        exact .failed (setupFailure err) (by simp [hAttempt])
  | pausing due =>
      simp only [attemptStep, hAttempt, Turn.pause] at hx'
      split at hx'
      · rename_i hDue
        cases hx'
        exact progress_again hAttempt hDue
      · cases hx'
        exact .within rfl rfl fun _ h => h
  | overflowed =>
      simp only [attemptStep, hAttempt] at hx'
      cases hx'
      exact .within rfl rfl fun _ h => h

/- So does every step of bringing up a link. -/
theorem step_progress
    (c : Connector W L)
    (now : Nat)
    (x : BringUp L)
    (k : Connection)
    (w : W) :
    ∀ x' ∈ (x.step c now k w).1.next?,
      Progress k.settings now x x' := by
  have hAttempt := x.attemptStep_progress c now k w
  intro x' hx'
  unfold step at hx'
  split at hx'
  · rename_i y k' w' hStep
    rw [hStep] at hAttempt
    split at hx'
    · cases hx'
    · exact hAttempt x' hx'
  · exact hAttempt x' hx'

theorem Progress.deadline
    {settings : Settings}
    {now : Nat}
    {x x' : BringUp L}
    (h : Progress settings now x x') :
    x'.deadline = x.deadline := by
  cases h with
  | within hNumber hDeadline hPause => exact hDeadline
  | failed e hTrying => rfl
  | again hPause hDue hNumber hDeadline hReach =>
      exact hDeadline

/- A pause before the deadline lasts. -/
theorem putOff_later
    {settings : Settings}
    {now : Nat}
    {x : BringUp L}
    {due : Nat}
    (hDelay : settings.reconnectDelay.toNat ≠ 0)
    (hEarly : now < x.deadline)
    (e : LinkError)
    (hPause :
      (x.putOff settings now e).attempt = .pausing due) :
    now < due := by
  have hLong := Backoff.le_pauseAfter settings x.number e
  cases hPause
  unfold Backoff.capped
  omega

------------------------------------------------------------
-- Attempts Before the Deadline
------------------------------------------------------------

/-
  Each attempt so far has taken the reconnect delay, out of
  the budget, and a pause takes it once more.
-/
structure Paced
    (delay budget now : Nat)
    (x : BringUp L) : Prop where
  begun :
    x.deadline ≤ now ∨
      x.number.toNat * delay + x.deadline ≤
        now + budget + delay
  paused :
    ∀ due, x.attempt = .pausing due →
      x.deadline ≤ due ∨
        x.number.toNat * delay + x.deadline ≤ due + budget

theorem Paced.later
    {delay budget now : Nat}
    {x : BringUp L}
    (h : Paced delay budget now x)
    {later : Nat}
    (hLater : now ≤ later) :
    Paced delay budget later x where
  begun := by
    have hBegun := h.begun
    omega
  paused := h.paused

theorem paced_first
    {delay budget now deadline : Nat}
    (hDeadline : deadline ≤ now + budget) :
    Paced delay budget now ({ deadline } : BringUp L) where
  begun := by
    simp only [UInt32.toNat_one]
    omega
  paused := nofun

theorem Paced.progress
    {settings : Settings}
    {budget now : Nat}
    {x x' : BringUp L}
    (h : Paced settings.reconnectDelay.toNat budget now x)
    (hProgress : Progress settings now x x') :
    Paced settings.reconnectDelay.toNat budget now x' := by
  cases hProgress with
  | within hNumber hDeadline hPause =>
      constructor
      · rw [hNumber, hDeadline]
        exact h.begun
      · intro due hDue
        rw [hNumber, hDeadline]
        exact h.paused due (hPause due hDue)
  | failed e hTrying =>
      refine ⟨h.begun, ?_⟩
      intro due hDue
      have hLong := Backoff.le_pauseAfter settings x.number e
      have hBegun := h.begun
      cases hDue
      simp only [putOff, goto, Backoff.capped]
      omega
  | again hPause hDue hNumber hDeadline hReach =>
      refine ⟨?_, by simp [hReach]⟩
      have hPaused := h.paused _ hPause
      rw [hNumber, hDeadline, Nat.succ_mul]
      omega

end BringUp

namespace Scenario

variable {W L A : Type}

/-
  Deadlines lie no further ahead than the budget, and the
  attempts are paced.
-/
structure Paced
    (settings : Settings)
    (s : Scenario W L) : Prop where
  ahead :
    ∀ g due,
      s.connection.state = .disconnected g due →
        due ≤ s.now + settings.reconnectBudget.toNat
  attempts :
    ∀ d ∈ s.driver, ∀ x, d.job = .bringingUp x →
      x.Paced settings.reconnectDelay.toNat
        settings.reconnectBudget.toNat s.now

section Pace

variable {c : Connector W L} {act : A → W → W}
variable {settings : Settings} {s : Scenario W L}

theorem Paced.pass
    (h : Paced settings s)
    (ms : Nat) :
    Paced settings { s with now := s.now + ms } where
  ahead g due hState := by
    have hAhead := h.ahead g due hState
    dsimp only
    omega
  attempts d hd x hJob :=
    (h.attempts d hd x hJob).later (Nat.le_add_right _ _)

theorem Paced.drive
    (h : Paced settings s)
    (hSettings : s.connection.settings = settings)
    (hStaffed : s.Staffed) :
    Paced settings (s.drive c) where
  ahead g due hState := by
    rw [drive_now]
    rcases state_drive (c := c) hStaffed with
      ⟨hSame, -⟩ | ⟨input, hFeeds⟩
    · exact h.ahead g due (hSame.symm.trans hState)
    · have hNext := hFeeds.state.symm.trans hState
      rw [hSettings] at hNext
      rcases Lifecycle.next_disconnected hNext with
        hOld | ⟨-, hDue⟩
      · exact h.ahead g due hOld
      · exact Nat.le_of_eq hDue
  attempts d' hd' x' hJob' := by
    rw [drive_now]
    cases hDriver : s.driver with
    | none =>
        rw [drive_of_none hDriver, hDriver] at hd'
        cases hd'
    | some d =>
        rw [drive_driver hDriver] at hd'
        rcases d.step_bringingUp c s.now
            (hStaffed.fits d hDriver) hd' hJob' with
          ⟨-, hNew, hDeadline⟩ | ⟨x, hJob, hNext⟩
        · rw [hNew]
          apply BringUp.paced_first
          rw [hSettings] at hDeadline
          rcases hDeadline with ⟨-, hDeadline⟩ | ⟨g, hState⟩
          · exact Nat.le_of_eq hDeadline
          · exact h.ahead g _ hState
        · have hProgress :=
            x.step_progress c s.now s.connection s.world x' hNext
          rw [hSettings] at hProgress
          exact (h.attempts d hDriver x hJob).progress hProgress

theorem Paced.congr
    (h : Paced settings s)
    {s' : Scenario W L}
    (hNow : s'.now = s.now)
    (hDriver : s'.driver = s.driver)
    (hState : s'.connection.state = s.connection.state) :
    Paced settings s' where
  ahead := by
    rw [hState, hNow]
    exact h.ahead
  attempts := by
    rw [hDriver, hNow]
    exact h.attempts

theorem Paced.step
    (h : Paced settings s)
    (hSettings : s.connection.settings = settings)
    (hStaffed : s.Staffed)
    (m : Move A) :
    Paced settings (s.step c act m) := by
  rcases step_cases c act s m with
    ⟨ms, rfl⟩ | rfl | ⟨hNow, hDriver, hState⟩
  · exact h.pass ms
  · exact h.drive hSettings hStaffed
  · exact h.congr hNow hDriver hState

end Pace

theorem paced_run
    (c : Connector W L)
    (act : A → W → W)
    (settings : Settings)
    (now : Nat)
    (w : W)
    (moves : List (Move A)) :
    Paced settings ((start settings now w).run c act moves) := by
  induction moves using List.reverseRecOn with
  | nil =>
      refine ⟨nofun, ?_⟩
      intro d hd x hJob
      cases hd
      cases hJob
  | append_singleton before m ih =>
      rw [run_append]
      exact ih.step (settings_run c act settings now w before)
        (staffed_run c act settings now w before) m

end Scenario

------------------------------------------------------------
-- Attempts Without a Wait
------------------------------------------------------------

namespace BringUp

variable {W L : Type}

/-
  So many steps at one time, none of which waits: neither
  the deadline nor anything else outside has its turn.
-/
inductive Spins
    (c : Connector W L)
    (now : Nat) :
    Nat → BringUp L → Connection → W →
      BringUp L → Connection → W → Prop where
  | refl
      {x : BringUp L}
      {k : Connection}
      {w : W} :
      Spins c now 0 x k w x k w
  | go
      {n : Nat}
      {x x' x'' : BringUp L}
      {k k' k'' : Connection}
      {w w' w'' : W}
      (hStep : x.step c now k w = (.go x', k', w'))
      (hRest : Spins c now n x' k' w' x'' k'' w'') :
      Spins c now (n + 1) x k w x'' k'' w''

section Spinning

variable {c : Connector W L} {now n m : Nat}
variable {x x' x'' : BringUp L} {k k' k'' : Connection}
variable {w w' w'' : W}

theorem Spins.trans
    (h : Spins c now n x k w x' k' w')
    (h' : Spins c now m x' k' w' x'' k'' w'') :
    Spins c now (n + m) x k w x'' k'' w'' := by
  induction h with
  | refl => rwa [Nat.zero_add]
  | go hStep hRest ih =>
      rw [Nat.succ_add]
      exact .go hStep (ih h')

theorem settings_of_go
    (hStep : x.step c now k w = (.go x', k', w')) :
    k'.settings = k.settings := by
  rcases connection_of_step hStep with ⟨events, rfl⟩
  rfl

theorem progress_of_go
    (hStep : x.step c now k w = (.go x', k', w')) :
    Progress k.settings now x x' := by
  apply x.step_progress c now k w
  rw [hStep]
  rfl

/- A step of the attempts is one, whatever the deadline. -/
theorem step_of_attemptStep
    (hStep : x.attemptStep c now k w = (.go x', k', w')) :
    x.step c now k w = (.go x', k', w') := by
  unfold step
  rw [hStep]

/-
  The number of the attempt, and one more if the next one is
  due.
-/
def quota (now : Nat) (x : BringUp L) : Nat :=
  match x.attempt with
  | .pausing due =>
      if due ≤ now then x.number.toNat + 1
      else x.number.toNat
  | _ => x.number.toNat

theorem number_le_quota (now : Nat) (x : BringUp L) :
    x.number.toNat ≤ x.quota now := by
  unfold quota
  split
  · split <;> omega
  · exact Nat.le_refl _

theorem quota_le (now : Nat) (x : BringUp L) :
    x.quota now ≤ x.number.toNat + 1 := by
  unfold quota
  split
  · split <;> omega
  · exact Nat.le_succ _

/- Before the deadline a failed attempt has to wait. -/
theorem Progress.quota_le
    {settings : Settings}
    (hDelay : settings.reconnectDelay.toNat ≠ 0)
    (hEarly : now < x.deadline)
    (h : Progress settings now x x') :
    x'.quota now ≤ x.quota now := by
  cases h with
  | within hNumber hDeadline hPause =>
      cases hAttempt : x'.attempt with
      | pausing due =>
          simp only [quota, hAttempt, hPause due hAttempt,
            hNumber, Nat.le_refl]
      | _ =>
          simp only [quota, hAttempt, hNumber]
          exact x.number_le_quota now
  | failed e hTrying =>
      have hLater := putOff_later hDelay hEarly e rfl
      have hQuota :
          (x.putOff settings now e).quota now =
            x.number.toNat :=
        if_neg (Nat.not_le.mpr hLater)
      rw [hQuota]
      exact x.number_le_quota now
  | again hPause hDue hNumber hDeadline hReach =>
      simp only [quota, hPause, if_pos hDue, hReach, hNumber,
        Nat.le_refl]

/- Nor are there two more attempts without a wait. -/
theorem Spins.number_le
    (h : Spins c now n x k w x' k' w')
    (hDelay : k.settings.reconnectDelay.toNat ≠ 0)
    (hEarly : now < x.deadline) :
    x'.number.toNat ≤ x.quota now := by
  induction h with
  | refl => exact number_le_quota now _
  | go hStep hRest ih =>
      have hProgress := progress_of_go hStep
      rw [settings_of_go hStep, hProgress.deadline] at ih
      exact Nat.le_trans (ih hDelay hEarly)
        (hProgress.quota_le hDelay hEarly)

end Spinning

end BringUp

/- Every link is refused at once, by a device in range. -/
structure Connector.Refuses
    {W L : Type}
    (c : Connector W L) : Prop where
  reach :
    ∀ asked w, (c.reach asked w).1 = some .reachable
  connect :
    ∀ asked w, ∃ e, e ≠ .outOfRange ∧
      (c.connect asked w).1 = some (.error e)

namespace BringUp

section Refusals

variable {W L : Type} {c : Connector W L} {now : Nat}
variable {x : BringUp L} {k : Connection}

/- No pause is left. -/
def Restless
    (settings : Settings)
    (now deadline : Nat) : Prop :=
  settings.reconnectDelay.toNat = 0 ∨ deadline ≤ now

theorem putOff_of_restless
    {settings : Settings}
    (hRestless : Restless settings now x.deadline)
    {e : LinkError}
    (hRange : e ≠ .outOfRange) :
    x.putOff settings now e = x.goto (.pausing now) := by
  unfold putOff Backoff.capped
  rcases hRestless with hDelay | hLate
  · rw [Backoff.pauseAfter_of_zero hDelay x.number hRange,
      Nat.zero_min]
    rfl
  · rw [Nat.sub_eq_zero_of_le hLate, Nat.min_zero]
    rfl

/- The device is there at once. -/
theorem step_reaching
    (now : Nat)
    (k : Connection)
    (hRefuses : c.Refuses)
    (hAttempt : x.attempt = .reaching .first)
    (w : W) :
    ∃ w',
      x.step c now k w =
        (.go (x.goto (.connecting .first)), k, w') := by
  have hReach := hRefuses.reach .first w
  rcases hReached : c.reach .first w with ⟨r, w'⟩
  rw [hReached] at hReach
  cases hReach
  refine ⟨w', step_of_attemptStep ?_⟩
  simp only [attemptStep, hAttempt, hReached]

/- It refuses the link at once. -/
theorem step_refused
    (now : Nat)
    (k : Connection)
    (hRefuses : c.Refuses)
    (hAttempt : x.attempt = .connecting .first)
    (w : W) :
    ∃ e w',
      e ≠ .outOfRange ∧
        x.step c now k w =
          (.go (x.putOff k.settings now e),
            k.tell now (.attemptFailed x.number e), w') := by
  rcases hRefuses.connect .first w with ⟨e, hRange, hConnect⟩
  rcases hConnected : c.connect .first w with ⟨r, w'⟩
  rw [hConnected] at hConnect
  cases hConnect
  refine ⟨e, w', hRange, step_of_attemptStep ?_⟩
  simp only [attemptStep, hAttempt, hConnected]
  rfl

/- A pause that is over leads to the next attempt. -/
theorem step_again
    (hPause : x.attempt = .pausing now)
    (w : W) :
    x.step c now k w = (.go x.again, k, w) := by
  apply step_of_attemptStep
  simp only [attemptStep, hPause, Turn.pause, Nat.le_refl,
    if_true]

/- Without a pause, the next attempt follows at once. -/
theorem spins_again
    (hRefuses : c.Refuses)
    (hAttempt : x.attempt = .reaching .first)
    (hRestless : Restless k.settings now x.deadline)
    (w : W) :
    ∃ k' w',
      k'.settings = k.settings ∧
        Spins c now 3 x k w x.again k' w' := by
  rcases step_reaching now k hRefuses hAttempt w with
    ⟨w₁, hTrying⟩
  rcases step_refused (x := x.goto (.connecting .first)) now k
      hRefuses rfl w₁ with ⟨e, w₂, hRange, hFailed⟩
  let trying := x.goto (.connecting .first)
  let failed := k.tell now (.attemptFailed x.number e)
  rw [putOff_of_restless (x := trying) hRestless hRange]
    at hFailed
  have hAgain :
      (trying.goto (.pausing now)).step c now failed w₂ =
        (.go x.again, failed, w₂) :=
    step_again rfl w₂
  exact ⟨failed, w₂, rfl,
    .go hTrying (.go hFailed (.go hAgain .refl))⟩

/- A pause that is not over is waited for. -/
theorem not_go_of_pausing
    {due : Nat}
    (hPause : x.attempt = .pausing due)
    (hLater : now < due)
    {w : W}
    {x' : BringUp L}
    {k' : Connection}
    {w' : W} :
    x.step c now k w ≠ (.go x', k', w') := by
  simp only [step, attemptStep, hPause, Turn.pause,
    if_neg (Nat.not_le.mpr hLater)]
  split <;> simp

/- So there are no three steps where there is a pause. -/
theorem not_spins_again
    (hRefuses : c.Refuses)
    (hAttempt : x.attempt = .reaching .first)
    (hDelay : k.settings.reconnectDelay.toNat ≠ 0)
    (hEarly : now < x.deadline)
    {w : W}
    {x' : BringUp L}
    {k' : Connection}
    {w' : W} :
    ¬Spins c now 3 x k w x' k' w' := by
  rcases step_reaching now k hRefuses hAttempt w with
    ⟨w₁, hTrying⟩
  rcases step_refused (x := x.goto (.connecting .first)) now k
      hRefuses rfl w₁ with ⟨e, w₂, hRange, hFailed⟩
  rintro (- | ⟨hFirst, - | ⟨hSecond, - | ⟨hThird, -⟩⟩⟩)
  cases hTrying.symm.trans hFirst
  cases hFailed.symm.trans hSecond
  exact not_go_of_pausing rfl
    (putOff_later hDelay hEarly e rfl) hThird

/- So every number there is comes up. -/
theorem spins_to
    (hRefuses : c.Refuses)
    {number : UInt32}
    {rest : Nat}
    (hRest : number.toNat = x.number.toNat + rest)
    (hAttempt : x.attempt = .reaching .first)
    (hRestless : Restless k.settings now x.deadline)
    (w : W) :
    ∃ n x' k' w',
      Spins c now n x k w x' k' w' ∧ x'.number = number := by
  induction rest generalizing x k w with
  | zero =>
      exact ⟨0, x, k, w, .refl, UInt32.toNat_inj.mp hRest.symm⟩
  | succ rest ih =>
      rcases spins_again hRefuses hAttempt hRestless w with
        ⟨k', w', hSettings, hFirst⟩
      rcases x.again_cases with ⟨hNumber, hReach⟩ | ⟨hFull, -⟩
      · rw [← hSettings, ← x.deadline_again] at hRestless
        rcases ih (by omega) hReach hRestless w' with
          ⟨n, x', k'', w'', hLater, hReached⟩
        exact ⟨3 + n, x', k'', w'', hFirst.trans hLater,
          hReached⟩
      · have hFits := number.toNat_lt_size
        omega

/-
  What such a device is tried with at this time.  None of it
  is a wait, the end of the numbers included.
-/
def Busy (now : Nat) (x : BringUp L) : Prop :=
  x.attempt = .reaching .first ∨
    x.attempt = .connecting .first ∨
      x.attempt = .pausing now ∨ x.attempt = .overflowed

theorem step_busy
    (hRefuses : c.Refuses)
    (hBusy : x.Busy now)
    (hRestless : Restless k.settings now x.deadline)
    (w : W) :
    ∃ x' k' w',
      x.step c now k w = (.go x', k', w') ∧ x'.Busy now := by
  rcases hBusy with hReach | hConnect | hPause | hOverflow
  · rcases step_reaching now k hRefuses hReach w with ⟨w', hStep⟩
    exact ⟨_, _, _, hStep, .inr (.inl rfl)⟩
  · rcases step_refused now k hRefuses hConnect w with
      ⟨e, w', hRange, hStep⟩
    rw [putOff_of_restless hRestless hRange] at hStep
    exact ⟨_, _, _, hStep, .inr (.inr (.inl rfl))⟩
  · refine ⟨_, _, _, step_again hPause w, ?_⟩
    rcases x.again_cases with ⟨-, hReach⟩ | ⟨-, -, hOverflow⟩
    · exact .inl hReach
    · exact .inr (.inr (.inr hOverflow))
  · refine ⟨x, k, w, step_of_attemptStep ?_, ?_⟩
    · simp only [attemptStep, hOverflow]
    · exact .inr (.inr (.inr hOverflow))

/- It goes on for any number of steps. -/
theorem spins_endless
    (hRefuses : c.Refuses)
    (hBusy : x.Busy now)
    (hRestless : Restless k.settings now x.deadline)
    (w : W)
    (n : Nat) :
    ∃ x' k' w', Spins c now n x k w x' k' w' := by
  induction n generalizing x k w with
  | zero => exact ⟨x, k, w, .refl⟩
  | succ n ih =>
      rcases step_busy hRefuses hBusy hRestless w with
        ⟨x', k', w', hStep, hBusy'⟩
      rw [← settings_of_go hStep,
        ← (progress_of_go hStep).deadline] at hRestless
      rcases ih hBusy' hRestless w' with
        ⟨x'', k'', w'', hRest⟩
      exact ⟨x'', k'', w'', .go hStep hRest⟩

end Refusals

------------------------------------------------------------
-- All Attempts
------------------------------------------------------------

variable {W L : Type}

/- What holds of the attempts to bring up a link. -/
structure Attempts
    (c : Connector W L)
    (now : Nat)
    (x : BringUp L)
    (k : Connection)
    (w : W) : Prop where
  /- Before the deadline the delays so far fit the budget. -/
  spaced :
    now < x.deadline →
      x.number.toNat * k.settings.reconnectDelay.toNat <
        k.settings.reconnectBudget.toNat +
          k.settings.reconnectDelay.toNat
  /- With a delay there is one more attempt before a wait. -/
  calm :
    now < x.deadline → k.settings.reconnectDelay.toNat ≠ 0 →
      ∀ n x' k' w', Spins c now n x k w x' k' w' →
        x'.number.toNat ≤ x.number.toNat + 1
  /- There is no wait but before the deadline. -/
  waits :
    ∀ x' k' w', x.step c now k w = (.wait x', k', w') →
      now < x.deadline
  /-
    A device that refuses at once is tried without end, and
    without a wait, exactly if the deadline has come or there
    is no delay.
  -/
  endless :
    c.Refuses → x.attempt = .reaching .first →
      ((∀ n, ∃ x' k' w', Spins c now n x k w x' k' w') ↔
        k.settings.reconnectDelay.toNat = 0 ∨
          x.deadline ≤ now)
  /- Every number of 32 bits then comes up. -/
  reached :
    c.Refuses → x.attempt = .reaching .first →
      k.settings.reconnectDelay.toNat = 0 ∨
          x.deadline ≤ now →
        ∀ number, x.number ≤ number →
          ∃ n x' k' w', Spins c now n x k w x' k' w' ∧
            x'.number = number

end BringUp

/-
  At every point of a run at which a link is being brought
  up, this is how often it has been and will be tried.
-/
theorem Scenario.attempts_run
    {W L A : Type}
    (c : Connector W L)
    (act : A → W → W)
    (settings : Settings)
    (now : Nat)
    (w : W)
    (moves : List (Move A))
    {d : Driver L}
    {x : BringUp L}
    (hDriver :
      ((start settings now w).run c act moves).driver = some d)
    (hJob : d.job = .bringingUp x) :
    x.Attempts c
      ((start settings now w).run c act moves).now
      ((start settings now w).run c act moves).connection
      ((start settings now w).run c act moves).world := by
  have hPaced :=
    (paced_run c act settings now w moves).attempts d hDriver x
      hJob
  have hSettings := settings_run c act settings now w moves
  generalize (start settings now w).run c act moves = s
    at hPaced hSettings ⊢
  rw [← hSettings] at hPaced
  refine {
    spaced := ?spaced
    calm := ?calm
    waits := fun _ _ _ hStep => BringUp.deadline_of_wait hStep
    endless := ?endless
    reached := ?reached }
  case spaced =>
    intro hEarly
    have hBegun := hPaced.begun
    omega
  case calm =>
    intro hEarly hDelay n x' k' w' hSpins
    exact Nat.le_trans (hSpins.number_le hDelay hEarly)
      (x.quota_le s.now)
  case endless =>
    intro hRefuses hAttempt
    constructor
    · intro hEndless
      by_contra hRest
      rcases not_or.mp hRest with ⟨hDelay, hEarly⟩
      rcases hEndless 3 with ⟨x', k', w', hSpins⟩
      exact BringUp.not_spins_again hRefuses hAttempt hDelay
        (Nat.not_le.mp hEarly) hSpins
    · intro hRestless n
      exact BringUp.spins_endless hRefuses (.inl hAttempt)
        hRestless s.world n
  case reached =>
    intro hRefuses hAttempt hRestless number hNumber
    have hSum :=
      Nat.add_sub_of_le (UInt32.le_iff_toNat_le.mp hNumber)
    exact BringUp.spins_to hRefuses hSum.symm hAttempt
      hRestless s.world

------------------------------------------------------------
-- A Device That Refuses
------------------------------------------------------------

namespace Scenario

variable {W L A : Type}

/- What the driver does at one time, unless someone closes. -/
theorem spins_run
    {c : Connector W L}
    (act : A → W → W)
    {now n : Nat}
    {x x' : BringUp L}
    {k k' : Connection}
    {w w' : W}
    (hSpins : BringUp.Spins c now n x k w x' k' w')
    (hOpen : k.closing = false)
    {d : Driver L}
    (hJob : d.job = .bringingUp x) :
    run c act ⟨now, some d, k, w⟩ (List.replicate n .drive) =
      ⟨now, some (d.goto (.bringingUp x')), k', w'⟩ := by
  induction hSpins generalizing d with
  | refl =>
      rcases d with ⟨link, job, failure⟩
      cases hJob
      rfl
  | go hStep hRest ih =>
      rename_i n x x' x'' k k' k'' w w' w''
      have hOpen' : k'.closing = false := by
        rcases BringUp.connection_of_step hStep with
          ⟨events, rfl⟩
        exact hOpen
      have hDrive :
          drive c ⟨now, some d, k, w⟩ =
            ⟨now, some (d.goto (.bringingUp x')), k', w'⟩ := by
        simp only [drive, Driver.step, hJob, hOpen,
          Bool.false_eq_true, if_false, Driver.work, hStep,
          Turn.next?]
      have hRun := ih hOpen' (d := d.goto (.bringingUp x')) rfl
      rw [List.replicate_succ, run, List.foldl_cons]
      exact (congrArg (run c act · _) hDrive).trans hRun

end Scenario

namespace Refusing

/- A device in range that takes no link. -/
def links : Connector Unit Unit where
  profile := .ble
  handshake := .fixed 64
  reach := fun _ w => (some .reachable, w)
  connect := fun _ w => (some (.error (.openFailed "busy")), w)
  write := fun _ _ _ w => (some (.ok ()), w)
  event := fun _ _ w => (none, w)
  close := fun _ w => w

theorem refuses : links.Refuses where
  reach _ _ := rfl
  connect _ _ := ⟨.openFailed "busy", by decide, rfl⟩

def settings : Settings where
  apduTimeout := 2000
  frameRetryDelay := 5
  mtuHandshakeTimeout := 100
  reconnectBudget := 100
  reconnectDelay := 50
  outOfRangeDelay := 50
  reachabilityFallback := 10

/- Two attempts, and the two pauses after them. -/
def moves : List (Move Unit) :=
  List.replicate 4 .drive ++ [.pass 50] ++
    List.replicate 4 .drive ++ [.pass 50, .drive]

/- The third attempt, which begins at the deadline. -/
def third : BringUp Unit :=
  ⟨100, 3, .reaching .first⟩

theorem attempts_third :
    let s :=
      (Scenario.start settings 0 ()).run links (fun _ w => w)
        moves
    s.driver = some ⟨none, .bringingUp third, .terminated⟩ ∧
      third.Attempts links s.now s.connection s.world :=
  ⟨rfl,
    Scenario.attempts_run links _ settings 0 () moves rfl rfl⟩

/-
  The settings are valid and the clock waits for the driver.
  At the deadline the driver makes one attempt after another:
  however many steps it has made, it has not waited, and the
  deadline does not have its turn.  There are as many
  attempts as numbers for them.
-/
theorem attempts_unbounded :
    settings.validate = .ok () ∧
      (Scenario.start settings 0 ()).Timely links
        (fun _ w => w) moves ∧
      let s :=
        (Scenario.start settings 0 ()).run links (fun _ w => w)
          moves
      s.now = third.deadline ∧
        (∀ n, ∃ x k,
          BringUp.Spins links s.now n third s.connection
              s.world x k () ∧
            (Scenario.start settings 0 ()).run links
                (fun _ w => w)
                (moves ++ List.replicate n .drive) =
              ⟨third.deadline,
                some ⟨none, .bringingUp x, .terminated⟩, k,
                ()⟩) ∧
        ∀ number, third.number ≤ number → ∃ n x k,
          BringUp.Spins links s.now n third s.connection
              s.world x k () ∧
            x.number = number := by
  refine ⟨rfl, by decide +kernel, ?_⟩
  intro s
  have hRestless :
      BringUp.Restless s.connection.settings s.now
        third.deadline :=
    .inr (Nat.le_refl _)
  refine ⟨rfl, fun n => ?_, fun number hNumber => ?_⟩
  · rcases BringUp.spins_endless refuses (x := third)
        (.inl rfl) hRestless () n with ⟨x, k, w, hSpins⟩
    refine ⟨x, k, hSpins, ?_⟩
    rw [Scenario.run_append]
    exact Scenario.spins_run (fun _ w => w) hSpins rfl
      (d := ⟨none, .bringingUp third, .terminated⟩) rfl
  · have hSum :=
      Nat.add_sub_of_le (UInt32.le_iff_toNat_le.mp hNumber)
    rcases BringUp.spins_to refuses hSum.symm rfl hRestless ()
      with ⟨n, x, k, w, hSpins, hReached⟩
    exact ⟨n, x, k, hSpins, hReached⟩

end Refusing

end DeviceSession
