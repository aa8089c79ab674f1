import DeviceSession.Proofs.Run.Clock

/-
  The time in which a link has to come up.

  Under a clock that waits for the driver no link is brought
  up past its deadline, and no deadline is moved.  At the
  deadline the connection ends, and with it every request
  that waits.

  Key definitions include:
    * `Scenario.InBudget`
    * `Scenario.LostAt`
    * `Scenario.Drained`
    * `Scenario.Budgeted`

  Main declarations:
    * `Scenario.inBudget_run`
    * `Scenario.lostAt_run`
    * `Scenario.Draining.run`
    * `Scenario.budgeted_run`
-/

------------------------------------------------------------
-- Deadlines
------------------------------------------------------------

namespace DeviceSession

namespace Scenario

variable {W L A : Type}

/-
  A link that has to come up is not late.  For the first one
  the time runs from the start, for a later one the state
  has the deadline.
-/
structure InBudget
    (budget : Nat)
    (start : Nat)
    (s : Scenario W L) : Prop where
  first :
    s.connection.state = .connecting →
      ∀ d ∈ s.driver,
        d.job = .idle ∧ s.now = start ∨
          s.now ≤ start + budget ∧
            ∃ x, d.job = .bringingUp x ∧
              x.deadline = start + budget
  back :
    ∀ g due,
      s.connection.state = .disconnected g due → s.now ≤ due

section Budgets

variable {c : Connector W L} {act : A → W → W}
variable {budget start : Nat}
variable {s : Scenario W L}

theorem InBudget.first_le
    (h : InBudget budget start s)
    (hStaffed : s.Staffed)
    (hState : s.connection.state = .connecting) :
    s.now ≤ start + budget := by
  cases hDriver : s.driver with
  | none =>
      rw [hStaffed.ended hDriver] at hState
      cases hState
  | some d =>
      rcases h.first hState d hDriver with
        ⟨-, hNow⟩ | ⟨hNow, -⟩
      · omega
      · exact hNow

/- An input never leads back to the beginning. -/
theorem Feeds.not_connecting
    {input : LifecycleInput}
    (h : s.Feeds c input) :
    (s.drive c).connection.state ≠ .connecting := by
  intro hState
  have hNext := h.state
  rw [hState] at hNext
  have hOld := Lifecycle.next_connecting hNext.symm
  rcases h.cause with ⟨d, -, hCause⟩
  rw [hOld] at hNext
  cases input with
  | closeRequested => cases hNext
  | reconnected => cases hNext
  | budgetExpired => cases hNext
  | _ =>
      simp only [Driver.Causes, hOld] at hCause
      cases hCause

/- Time that is allowed to pass misses no deadline. -/
theorem InBudget.pass
    (h : InBudget budget start s)
    (hStaffed : s.Staffed)
    {ms : Nat}
    (hAllowed : ∀ d ∈ s.driver, d.InTime (s.now + ms)) :
    InBudget budget start { s with now := s.now + ms } where
  first hState d hd := by
    rcases h.first hState d hd with
      ⟨hIdle, -⟩ | ⟨-, x, hJob, hDeadline⟩
    · exact absurd hIdle (hAllowed d hd).1
    · refine .inr ⟨?_, x, hJob, hDeadline⟩
      rw [← hDeadline]
      apply (hAllowed d hd).2
      simp only [Driver.timers, hJob, BringUp.timers]
      exact List.mem_cons_self
  back g due hState := by
    cases hDriver : s.driver with
    | none =>
        rw [hStaffed.ended hDriver] at hState
        cases hState
    | some d =>
        have hUnlinked :
            s.connection.state.isLinked = false := by
          rw [hState]
          rfl
        rcases bringingUp_of_unlinked (hStaffed.fits d hDriver)
            hUnlinked (hAllowed d hDriver).1 with
          ⟨x, hJob, hOther | ⟨g', hDeadline⟩⟩
        · rw [hState] at hOther
          cases hOther
        · rw [hState] at hDeadline
          cases hDeadline
          apply (hAllowed d hDriver).2
          simp only [Driver.timers, hJob, BringUp.timers]
          exact List.mem_cons_self

/- The first link has one deadline, from the start. -/
theorem InBudget.deadline_of_step
    (h : InBudget budget start s)
    (hBudget :
      s.connection.settings.reconnectBudget.toNat = budget)
    (hStaffed : s.Staffed)
    (hState : s.connection.state = .connecting)
    {d d' : Driver L}
    (hDriver : s.driver = some d)
    (hNext :
      d' ∈ (d.step c s.now s.connection s.world).1.next?)
    {x' : BringUp L}
    (hJob' : d'.job = .bringingUp x') :
    x'.deadline = start + budget := by
  have hFirst := h.first hState d hDriver
  rcases d.step_bringingUp c s.now (hStaffed.fits d hDriver)
      hNext hJob' with
    ⟨hIdle, -, hDeadline⟩ | ⟨x, hJob, hStep⟩
  · rcases hDeadline with ⟨-, hDeadline⟩ | ⟨g, hOther⟩
    · rcases hFirst with ⟨-, hStart⟩ | ⟨-, x, hJob, -⟩
      · rw [hDeadline, hStart, hBudget]
      · rw [hIdle] at hJob
        cases hJob
    · rw [hState] at hOther
      cases hOther
  · rcases hFirst with ⟨hIdle, -⟩ | ⟨-, y, hJob', hSet⟩
    · rw [hIdle] at hJob
      cases hJob
    · rw [hJob] at hJob'
      cases hJob'
      exact ((x.step_connection c s.now s.connection
        s.world).2 x' hStep).trans hSet

/- The driver sets deadlines that are still to come. -/
theorem InBudget.drive
    (h : InBudget budget start s)
    (hBudget :
      s.connection.settings.reconnectBudget.toNat = budget)
    (hStaffed : s.Staffed)
    (hAfter : (s.drive c).Staffed) :
    InBudget budget start (s.drive c) where
  first hState d' hd' := by
    right
    rw [drive_now]
    rcases state_drive (c := c) hStaffed with
      ⟨hSame, hBusy⟩ | ⟨input, hFeeds⟩
    · have hUnlinked :
          (s.drive c).connection.state.isLinked = false := by
        rw [hState]
        rfl
      have hFits := hAfter.fits d' hd'
      rw [hSame] at hState
      refine ⟨h.first_le hStaffed hState, ?_⟩
      cases hDriver : s.driver with
      | none =>
          rw [drive_of_none hDriver, hDriver] at hd'
          cases hd'
      | some d =>
          rcases bringingUp_of_unlinked hFits hUnlinked
              (hBusy d' hd' (by simp [hDriver])) with
            ⟨x', hJob', -⟩
          rw [drive_driver hDriver] at hd'
          exact ⟨x', hJob',
            h.deadline_of_step hBudget hStaffed hState hDriver
              hd' hJob'⟩
    · exact absurd hState hFeeds.not_connecting
  back g due hState := by
    rw [drive_now]
    rcases state_drive (c := c) hStaffed with
      ⟨hSame, -⟩ | ⟨input, hFeeds⟩
    · exact h.back g due (hSame.symm.trans hState)
    · rw [hFeeds.state] at hState
      rcases Lifecycle.next_disconnected hState with
        hOld | ⟨-, hDue⟩
      · exact h.back g due hOld
      · rw [hDue]
        exact Nat.le_add_right _ _

/- Callers and the world do not change what there is to do. -/
theorem InBudget.congr
    (h : InBudget budget start s)
    {s' : Scenario W L}
    (hNow : s'.now = s.now)
    (hDriver : s'.driver = s.driver)
    (hState : s'.connection.state = s.connection.state) :
    InBudget budget start s' where
  first := by
    rw [hState, hDriver, hNow]
    exact h.first
  back := by
    rw [hState, hNow]
    exact h.back

theorem InBudget.step
    (h : InBudget budget start s)
    {m : Move A}
    (hBudget :
      s.connection.settings.reconnectBudget.toNat = budget)
    (hStaffed : s.Staffed)
    (hAfter : (s.step c act m).Staffed)
    (hAllowed : s.Allows m) :
    InBudget budget start (s.step c act m) := by
  rcases step_cases c act s m with
    ⟨ms, rfl⟩ | rfl | ⟨hNow, hDriver, hState⟩
  · exact h.pass hStaffed hAllowed
  · exact h.drive hBudget hStaffed hAfter
  · exact h.congr hNow hDriver hState

end Budgets

/-
  A step of the run has lost a link, and set a deadline that
  has been kept ever since.
-/
def LostAt
    (c : Connector W L)
    (act : A → W → W)
    (s₀ : Scenario W L)
    (moves : List (Move A))
    (g : UInt32)
    (due : Nat) : Prop :=
  ∃ before after,
    moves = before ++ .drive :: after ∧
      (s₀.run c act before).connection.state.isLinked = true ∧
      due =
        (s₀.run c act before).now +
          s₀.connection.settings.reconnectBudget.toNat ∧
      ∀ kept, kept <+: after →
        (s₀.run c act
            (before ++ .drive :: kept)).connection.state =
          .disconnected g due

/- The requests in the queue are about to be failed. -/
structure Draining
    (rs : List Request)
    (s : Scenario W L) : Prop where
  driver :
    ∃ d, s.driver = some d ∧ d.job = .idle ∧
      d.failure = .disconnectedBeforeSending
  state : s.connection.state = .terminated
  queue : s.connection.queue = rs
  apart : (rs.map Request.id).Nodup
  slots : ∀ r ∈ rs, r.id < s.connection.slots.size
  waiting : ∀ r ∈ rs, s.connection.answersTo r.id = []

/- They have been failed, once, and nothing else will come. -/
structure Drained
    (rs : List Request)
    (s : Scenario W L) : Prop where
  driver : s.driver = none
  state : s.connection.state = .terminated
  queue : s.connection.queue = []
  failed :
    ∀ r ∈ rs,
      s.connection.answersTo r.id =
        [.error .disconnectedBeforeSending]

section Endings

variable {c : Connector W L} {act : A → W → W}
variable {rs : List Request} {s : Scenario W L}

theorem Draining.step
    (h : Draining rs s)
    {m : Move A}
    (hMove : m ≠ .drive) :
    Draining rs (s.step c act m) := by
  cases m with
  | submit a options =>
      simp only [Scenario.step]
      rw [Connection.submit_of_ended h.state]
      exact h
  | abandon id =>
      constructor
      · exact h.driver
      · exact h.state
      · exact h.queue
      · exact h.apart
      · intro r hr
        exact Nat.lt_of_lt_of_eq (h.slots r hr)
          Array.size_modify.symm
      · intro r hr
        exact (Connection.answersTo_abandon _ id _).trans
          (h.waiting r hr)
  | close =>
      simp only [Scenario.step]
      rw [Connection.close_of_ended h.state]
      exact h
  | drive => exact absurd rfl hMove
  | _ => exact { h with }

theorem Draining.drive
    (h : Draining rs s) :
    Drained rs (s.drive c) := by
  rcases h.driver with ⟨d, hDriver, hJob, hFailure⟩
  have hStep :
      d.step c s.now s.connection s.world =
        (.done (), s.connection.failAll d.failure, s.world) := by
    simp only [Driver.step, hJob, Driver.begin, h.state]
  have hConnection := drive_connection (c := c) hDriver
  rw [hStep] at hConnection
  constructor
  · rw [drive_driver hDriver, hStep]
    rfl
  · rw [hConnection]
    exact (Connection.state_failEach _ _ _).trans h.state
  · rw [hConnection]
    rfl
  · intro r hr
    have hFailed :=
      Connection.answersTo_failEach d.failure s.connection
        h.apart h.slots hr
    rw [hConnection,
      Connection.answersTo_congr (Connection.slots_failAll _ _),
      h.queue, hFailed, h.waiting r hr, hFailure]

theorem Drained.step
    (h : Drained rs s)
    (m : Move A) :
    Drained rs (s.step c act m) := by
  cases m with
  | submit a options =>
      simp only [Scenario.step]
      rw [Connection.submit_of_ended h.state]
      exact h
  | abandon id =>
      constructor
      · exact h.driver
      · exact h.state
      · exact h.queue
      · intro r hr
        exact (Connection.answersTo_abandon _ id _).trans
          (h.failed r hr)
  | close =>
      simp only [Scenario.step]
      rw [Connection.close_of_ended h.state]
      exact h
  | drive =>
      simp only [Scenario.step]
      rw [drive_of_none h.driver]
      exact h
  | _ => exact { h with }

/- The next step of the driver fails them, for good. -/
theorem Draining.run
    (h : Draining rs s)
    {moves : List (Move A)}
    (hMoves : .drive ∈ moves) :
    Drained rs (s.run c act moves) := by
  induction moves generalizing s with
  | nil => cases hMoves
  | cons m moves ih =>
      by_cases hMove : m = .drive
      · subst hMove
        have hRest :
            Drained rs ((s.drive c).run c act moves) :=
          run_induction (fun s m _ hs => hs.step m) h.drive
        exact hRest
      · rcases List.mem_cons.mp hMoves with hFirst | hRest
        · exact absurd hFirst.symm hMove
        · exact ih (h.step hMove) hRest

end Endings

------------------------------------------------------------
-- Budgets
------------------------------------------------------------

section Endings

variable {c : Connector W L} {act : A → W → W}
variable {budget start : Nat} {s : Scenario W L}

/- What it is that ends a connection nobody closes. -/
theorem InBudget.expired
    (h : InBudget budget start s)
    (hStaffed : s.Staffed)
    {input : LifecycleInput}
    (hFeeds : s.Feeds c input)
    (hOpen : s.connection.closing = false)
    (hState : s.connection.state ≠ .terminated)
    (hEnd : (s.drive c).connection.state = .terminated) :
    input = .budgetExpired ∧
      ∃ d x, s.driver = some d ∧ d.job = .bringingUp x ∧
        (s.connection.state = .connecting ∧
            s.now = start + budget ∨
          ∃ g, s.connection.state = .disconnected g s.now) := by
  rcases hFeeds.cause with ⟨d, hDriver, hCause⟩
  have hNext := hFeeds.state.symm.trans hEnd
  rcases (Lifecycle.next_eq_terminated_iff hState).mp hNext with
    rfl | ⟨rfl, hUnlinked⟩ | ⟨-, g, due, hBack, hLate⟩
  · have hClosing : s.connection.closing = true := hCause
    rw [hOpen] at hClosing
    cases hClosing
  · rcases hCause with ⟨x, hJob, hDue⟩
    refine ⟨rfl, d, x, hDriver, hJob, ?_⟩
    have hFits := hStaffed.fits d hDriver
    simp only [Driver.Fits, hJob] at hFits
    rcases hFits.2 with hFirst | ⟨g, hBack⟩
    · left
      refine ⟨hFirst, ?_⟩
      rcases h.first hFirst d hDriver with
        ⟨hIdle, -⟩ | ⟨hNow, y, hJob', hDeadline⟩
      · rw [hJob] at hIdle
        cases hIdle
      · rw [hJob] at hJob'
        cases hJob'
        omega
    · right
      have hNow := h.back g _ hBack
      have hSame : s.now = x.deadline :=
        Nat.le_antisymm hNow hDue
      exact ⟨g, by rw [hSame]; exact hBack⟩
  · have hNow := h.back g due hBack
    omega

/- Without a link the driver waits only before a deadline. -/
theorem InBudget.waits
    (h : InBudget budget start s)
    (hStaffed : s.Staffed)
    {d d' : Driver L}
    (hDriver : s.driver = some d)
    (hWait :
      (d.step c s.now s.connection s.world).1 = .wait d') :
    (s.connection.state = .connecting →
      s.now < start + budget) ∧
    ∀ g due,
      s.connection.state = .disconnected g due →
        s.now < due := by
  have hFits := hStaffed.fits d hDriver
  have hWaiting :
      s.connection.state.isLinked = false →
        ∃ x, d.job = .bringingUp x ∧ s.now < x.deadline :=
    fun hUnlinked =>
      d.deadline_of_step_wait c s.now hFits hUnlinked hWait
  constructor
  · intro hState
    rcases hWaiting (by rw [hState]; rfl) with ⟨x, hJob, hNow⟩
    rcases h.first hState d hDriver with
      ⟨hIdle, -⟩ | ⟨-, y, hJob', hDeadline⟩
    · rw [hJob] at hIdle
      cases hIdle
    · rw [hJob] at hJob'
      cases hJob'
      rw [hDeadline] at hNow
      exact hNow
  · intro g due hState
    rcases hWaiting (by rw [hState]; rfl) with ⟨x, hJob, hNow⟩
    simp only [Driver.Fits, hJob, hState] at hFits
    rcases hFits.2 with hOther | ⟨g', hDue⟩
    · cases hOther
    · cases hDue
      exact hNow

/- A link that comes back is accepted before it is late. -/
theorem accepted_step
    (hStaffed : s.Staffed)
    {m : Move A}
    {g g' : UInt32}
    {due : Nat}
    (hState : s.connection.state = .disconnected g due)
    (hLinked :
      (s.step c act m).connection.state = .connected g') :
    m = .drive ∧ s.now ≤ due ∧ g' = g + 1 := by
  by_cases hMove : m = .drive
  · subst hMove
    rcases state_drive (c := c) hStaffed with
      ⟨hSame, -⟩ | ⟨input, hFeeds⟩
    · rw [← hSame] at hState
      cases hState.symm.trans hLinked
    · have hNext := hFeeds.state.symm.trans hLinked
      rw [hState] at hNext
      exact ⟨rfl,
        (Lifecycle.next_disconnected_eq_connected_iff.mp hNext).2⟩
  · rw [state_step_of_ne hMove, hState] at hLinked
    cases hLinked

/- The driver that has ended a connection fails its queue. -/
theorem Feeds.draining
    {input : LifecycleInput}
    (hFeeds : s.Feeds c input)
    (hInput : input ≠ .closeRequested)
    (hEnd : (s.drive c).connection.state = .terminated)
    {accepted : List Request}
    {taken : List (Request × Bool)}
    (hAccount :
      Account (s.drive c).driver (s.drive c).connection
        accepted taken) :
    Draining (s.drive c).connection.queue (s.drive c) := by
  rcases hFeeds.after with ⟨d, hDriver, hIdle, hFailure⟩
  constructor
  · exact ⟨d, hDriver, hIdle, hFailure hEnd hInput⟩
  · exact hEnd
  · rfl
  · exact hAccount.queue_nodup
  · intro r hr
    exact hAccount.id_lt (hAccount.mem_of_waiting hr)
  · exact hAccount.waiting

/- Only a deadline ends a connection that nobody closes. -/
theorem InBudget.exhausted
    (h : InBudget budget start s)
    (hStaffed : s.Staffed)
    {accepted : List Request}
    {taken : List (Request × Bool)}
    (hAccount :
      Account (s.drive c).driver (s.drive c).connection
        accepted taken)
    {m : Move A}
    (hState : s.connection.state ≠ .terminated)
    (hOpen : s.connection.closing = false)
    (hEnd :
      (s.step c act m).connection.state = .terminated) :
    m = .drive ∧
      (s.connection.state = .connecting ∧
          s.now = start + budget ∨
        ∃ g, s.connection.state = .disconnected g s.now) ∧
      ∀ later, .drive ∈ later →
        Drained s.connection.queue
          ((s.step c act m).run c act later) := by
  have hMove : m = .drive := by
    apply Classical.byContradiction
    intro hMove
    exact hState ((state_step_of_ne hMove).symm.trans hEnd)
  subst hMove
  rcases state_drive (c := c) hStaffed with
    ⟨hSame, -⟩ | ⟨input, hFeeds⟩
  · exact absurd (hSame.symm.trans hEnd) hState
  · rcases h.expired hStaffed hFeeds hOpen hState hEnd with
      ⟨rfl, d, x, hDriver, hJob, hTime⟩
    have hQueue :
        (s.drive c).connection.queue =
          s.connection.queue := by
      rw [drive_connection hDriver]
      exact d.step_queue_of_bringingUp c s.now s.connection
        s.world hJob
    have hDraining := hFeeds.draining nofun hEnd hAccount
    rw [hQueue] at hDraining
    exact ⟨rfl, hTime, fun later => hDraining.run⟩

end Endings

end Scenario

------------------------------------------------------------
-- A Device That Vanishes
------------------------------------------------------------

namespace Vanishing

/- A device that is there or not, on links of one kind. -/
def links : Connector Bool Unit where
  profile := .ble
  handshake := .fixed 64
  reach := fun _ here =>
    (if here then some .reachable else none, here)
  connect := fun _ here => (some (.ok ()), here)
  write := fun _ _ _ here => (some (.ok ()), here)
  event := fun _ _ here =>
    (if here then none else some .lost, here)
  close := fun _ here => here

/-
  A link is up and is lost, a command is handed in, and the
  time goes by in which the device should have come back.
-/
def moves : List (Move Bool) :=
  List.replicate 6 .drive ++
    [.outside false, .drive,
      .submit (.ofHeader 0xe0 0x01 0 0) {}, .drive, .drive,
      .pass 5000]

example :
    let s :=
      (Scenario.start {} 0 true).run links (fun x _ => x) moves
    s.connection.state = .disconnected 1 5000 ∧
      s.now = 5000 ∧
        (s.drive links).connection.state = .terminated := by
  decide +kernel

end Vanishing

end DeviceSession
