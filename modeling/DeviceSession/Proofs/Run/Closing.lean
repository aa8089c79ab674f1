import DeviceSession.Proofs.Run.Inputs
import DeviceSession.Proofs.Run.Requests

/-
  The end of a connection that is closed.

  A wish to close is kept until the driver is polled.  The
  driver then looks at it before all else, whatever it was
  doing: it gives up the links that it holds, and fails the
  request on the link and all that wait for it.

  The driver looks before each of its steps.  During a poll
  nobody else has a turn, so this is the same as looking
  whenever it is polled and whenever it takes up a new job.

  Key definitions include:
    * `Note.isUse`
    * `Story.poll`
    * `Story.Closed`

  Main declarations:
    * `Driver.step_unharmed`
    * `Story.Doomed.poll`
    * `Story.Closed.run`
    * `Story.run_closed`
-/

------------------------------------------------------------
-- Reasons to Fail
------------------------------------------------------------

namespace DeviceSession

namespace Lifecycle

/- Nothing follows on the end. -/
theorem next_of_terminated
    {s : Lifecycle}
    {input : LifecycleInput}
    {now budget : Nat}
    (hOpen : s.next input now budget ≠ terminated) :
    s ≠ terminated := by
  rintro rfl
  exact hOpen rfl

theorem next_closeRequested
    (s : Lifecycle)
    (now budget : Nat) :
    s.next .closeRequested now budget = terminated := by
  cases s <;> rfl

end Lifecycle

namespace Driver

variable {W L : Type}

/-
  Before the end, the reason why requests will fail is that
  someone closes the connection.
-/
def Unharmed (d : Driver L) (s : Lifecycle) : Prop :=
  s ≠ .terminated → d.failure = .terminated

theorem feed_unharmed
    (c : Connector W L)
    (now : Nat)
    (input : LifecycleInput)
    {d : Driver L}
    {k : Connection}
    (w : W)
    (h : d.Unharmed k.state) :
    (feed c now input d k w).1.Unharmed
      (feed c now input d k w).2.1.state := by
  rcases feed_connection c now input d k w with ⟨events, hk⟩
  intro hOpen
  rw [hk] at hOpen
  dsimp only at hOpen
  have hFailure := h (Lifecycle.next_of_terminated hOpen)
  have hNot :
      (k.state.next input now
        k.settings.reconnectBudget.toNat).isTerminated =
        false :=
    Connection.isTerminated_of_ne
      (k := { k with state := k.state.next input now _ }) hOpen
  simp only [feed, arrive_failure, hNot, Bool.false_eq_true,
    false_and, if_false]
  exact hFailure

/- A step leaves a driver unharmed, if it goes on. -/
theorem step_unharmed
    (c : Connector W L)
    (now : Nat)
    {d : Driver L}
    {k : Connection}
    (w : W)
    (hFits : d.Fits k.state)
    (h : d.Unharmed k.state) :
    ∀ d' ∈ (d.step c now k w).1.next?,
      d'.Unharmed (d.step c now k w).2.1.state := by
  have hMoved :
      ∀ input (d₀ : Driver L) k₀ w₀,
        d₀.failure = d.failure → k₀.state = k.state →
          ∀ d' ∈
            (moved (feed c now input d₀ k₀ w₀)).1.next?,
            d'.Unharmed
              (moved (feed c now input d₀ k₀ w₀)).2.1.state := by
    intro input d₀ k₀ w₀ hFailure hState d' hd'
    cases hd'
    apply feed_unharmed
    rw [Unharmed, hFailure, hState]
    exact h
  have hOutcome := step_outcome c now w hFits
  generalize d.step c now k w = result at hOutcome ⊢
  cases hOutcome with
  | finish hJob hState => simp [Turn.next?]
  | interrupt hJob hClosing =>
      rcases d.heeded_eq k with ⟨slots, hHeeded⟩
      rw [hHeeded]
      exact hMoved _ _ _ _ rfl rfl
  | linked hJob hStep =>
      rcases BringUp.connection_of_step hStep with ⟨events, rfl⟩
      exact hMoved _ _ _ _ rfl rfl
  | expired hJob hStep =>
      rcases BringUp.connection_of_step hStep with ⟨events, rfl⟩
      exact hMoved _ _ _ _ rfl rfl
  | skip hJob hQueue hGone => exact hMoved _ _ _ _ rfl rfl
  | lost hJob hLink hQueue hStep => exact hMoved _ _ _ _ rfl rfl
  | settle hOpen hJob hLink hStep =>
      exact hMoved _ _ _ _ rfl rfl
  | settleCheck hOpen hJob hLink hStep =>
      exact hMoved _ _ _ _ rfl rfl
  | seek hJob hStep =>
      intro d' hd'
      rcases hStep with ⟨hStep, rfl⟩ | ⟨hStep, rfl⟩
      all_goals
        rcases BringUp.connection_of_step hStep with
          ⟨events, rfl⟩
        cases hd'
        exact h
  | watch hJob hLink hQueue hStep =>
      intro d' hd'
      rcases hStep with ⟨-, rfl⟩ | ⟨-, rfl⟩
      all_goals
        cases hd'
        exact h
  | exchange hJob hLink hStep =>
      intro d' hd'
      rcases hStep with ⟨-, rfl⟩ | ⟨-, rfl⟩
      all_goals
        cases hd'
        exact h
  | probe hJob hLink hStep =>
      intro d' hd'
      rcases hStep with ⟨-, rfl⟩ | ⟨-, rfl⟩
      all_goals
        cases hd'
        exact h
  | _ =>
      intro d' hd'
      cases hd'
      exact h

/- A wish to close is told as the end, whatever was going on. -/
theorem feed_closeRequested
    (c : Connector W L)
    (now : Nat)
    (d : Driver L)
    {k : Connection}
    (w : W)
    (hOpen : k.state ≠ .terminated) :
    feed c now .closeRequested d k w =
      ({ d with link := none, job := .idle },
        { k with
          state := .terminated
          events := k.events.push (now, .terminated) },
        d.hungUp c w) := by
  simp only [feed, Lifecycle.next_closeRequested, arrive,
    if_neg hOpen, closeLink_eq, ne_eq, not_true_eq_false,
    and_false, if_false]
  rfl

end Driver

------------------------------------------------------------
-- Notes of an End
------------------------------------------------------------

/- A note tells that a link was opened, written to or read. -/
def Note.isUse {A : Type} : Note A → Bool
  | .opened _ => true
  | .wrote _ _ _ _ => true
  | .heard _ _ _ => true
  | _ => false

namespace Story

variable {W L A : Type}

/- Of the use of links, nothing has been noted since. -/
def Quiet (s s' : Story W L A) : Prop :=
  ∃ notes, s'.world.log = s.world.log ++ notes ∧
    ∀ n ∈ notes, n.isUse = false

theorem Quiet.trans
    {s s' s'' : Story W L A}
    (h : s.Quiet s')
    (h' : s'.Quiet s'') :
    s.Quiet s'' := by
  rcases h with ⟨notes, hLog, hNotes⟩
  rcases h' with ⟨notes', hLog', hNotes'⟩
  refine ⟨notes ++ notes', ?_, ?_⟩
  · rw [hLog', hLog, List.append_assoc]
  · intro n hn
    rcases List.mem_append.mp hn with hn | hn
    · exact hNotes n hn
    · exact hNotes' n hn

/- The notes of a step are not about the use of links. -/
theorem isUse_marks
    (c : Connector W L)
    (s : Story W L A)
    (d : Driver (Nat × L))
    (s' : Story W L A) :
    ∀ n ∈ marks c s d s', n.isUse = false := by
  intro n hn
  unfold marks at hn
  rcases List.mem_append.mp hn with hn | hn
  · rcases List.mem_append.mp hn with hn | hn
    · rcases List.mem_map.mp hn with ⟨r, -, rfl⟩
      rfl
    · unfold arrivals at hn
      split at hn
      · rcases List.mem_map.mp hn with ⟨x, -, rfl⟩
        rfl
      · cases hn
  · unfold turns at hn
    split at hn
    · split at hn
      · rcases List.mem_singleton.mp hn with rfl
        rfl
      · cases hn
    · rcases List.mem_map.mp hn with ⟨e, -, rfl⟩
      rfl
    · cases hn

/- A step is quiet that does no more than to shut links. -/
theorem quiet_drive
    (c : Connector W L)
    {s : Story W L A}
    {d : Driver (Nat × L)}
    (hDriver : s.driver = some d)
    (links : List Nat)
    (hLog :
      (d.step (c.taped A d.job.purpose) s.now s.connection
          s.world).2.2.log =
        s.world.log ++ links.map .shut) :
    s.Quiet (s.drive c) := by
  refine ⟨links.map .shut ++ marks c s d (s.drive c), ?_, ?_⟩
  · rw [drive_world c hDriver, Taped.note_log, hLog,
      List.append_assoc]
  · intro n hn
    rcases List.mem_append.mp hn with hn | hn
    · rcases List.mem_map.mp hn with ⟨l, -, rfl⟩
      rfl
    · exact isUse_marks c s d _ n hn

end Story

/- Giving up links is all that an interruption does to them. -/
theorem Driver.log_hungUp
    {W L A : Type}
    (c : Connector W L)
    (why : Purpose)
    (d : Driver (Nat × L))
    (t : Taped W A) :
    ∃ links : List Nat,
      (d.hungUp (c.taped A why) (d.aborted (c.taped A why) t)).log =
        t.log ++ links.map .shut := by
  have hAborted :
      ∃ links : List Nat,
        (d.aborted (c.taped A why) t).log =
          t.log ++ links.map .shut := by
    unfold aborted BringUp.abort
    split
    · split
      · rename_i e x hAttempt
        exact ⟨[e.link.1], rfl⟩
      · exact ⟨[], (List.append_nil _).symm⟩
    · exact ⟨[], (List.append_nil _).symm⟩
  rcases hAborted with ⟨links, hLinks⟩
  unfold hungUp
  split
  · rename_i e hLink
    refine ⟨links ++ [e.link.1], ?_⟩
    rw [Connector.taped_close, Taped.note_log, Taped.put_log,
      hLinks, List.map_append, List.append_assoc]
    rfl
  · exact ⟨links, hLinks⟩

------------------------------------------------------------
-- Polls
------------------------------------------------------------

namespace Story

variable {W L A : Type}

/- The next step of the driver leads to another one at once. -/
def goesOn (c : Connector W L) (s : Story W L A) : Bool :=
  match s.driver with
  | none => false
  | some d =>
      match (d.step (c.taped A d.job.purpose) s.now
          s.connection s.world).1 with
      | .go _ => true
      | _ => false

/-
  The driver is polled: it takes steps until it waits or
  ends, at most as many as given.
-/
def poll (c : Connector W L) : Nat → Story W L A → Story W L A
  | 0, s => s
  | n + 1, s =>
      if s.goesOn c then poll c n (s.drive c) else s.drive c

theorem poll_of_goesOn
    {c : Connector W L}
    {s : Story W L A}
    (hGoesOn : s.goesOn c = true)
    (n : Nat) :
    s.poll c (n + 1) = (s.drive c).poll c n := by
  rw [poll, if_pos hGoesOn]

theorem poll_of_stops
    {c : Connector W L}
    {s : Story W L A}
    (hStops : s.goesOn c = false)
    (n : Nat) :
    s.poll c (n + 1) = s.drive c := by
  rw [poll, if_neg (by simp [hStops])]

------------------------------------------------------------
-- Closed Connections
------------------------------------------------------------

/- The connection is not at its end, and someone closes it. -/
structure Doomed (s : Story W L A) : Prop where
  accounts : s.Accounts
  unharmed : ∀ d ∈ s.driver, d.Unharmed s.connection.state
  closing : s.connection.closing = true
  opened : s.connection.state ≠ .terminated

/-
  The driver has given way to the wish to close, and is about
  to fail the requests that still wait.
-/
structure Failing (s s' : Story W L A) : Prop where
  accounts : s'.Accounts
  driver :
    ∃ d, s'.driver = some d ∧ d.job = .idle ∧
      d.failure = .terminated
  state : s'.connection.state = .terminated
  queue : s'.connection.queue = s.connection.queue
  quiet : s.Quiet s'
  events :
    s'.connection.events =
      s.connection.events.push (s.now, .terminated)
  current :
    ∀ d ∈ s.driver, ∀ r, d.job.request? = some r →
      s'.connection.answersTo r.id = [.error .terminated] ∧
        (r, false) ∈ s'.taken

/-
  The connection has ended by a wish to close.  Nothing was
  sent, each request that had not been answered has been
  answered once, in the same way, and the end is the last
  that was told.
-/
structure Closed (s s' : Story W L A) : Prop where
  driver : s'.driver = none
  state : s'.connection.state = .terminated
  queue : s'.connection.queue = []
  quiet : s.Quiet s'
  events :
    s'.connection.events =
      s.connection.events.push (s.now, .terminated)
  current :
    ∀ d ∈ s.driver, ∀ r, d.job.request? = some r →
      s'.connection.answersTo r.id = [.error .terminated]
  waiting :
    ∀ r ∈ s.connection.queue,
      s'.connection.answersTo r.id = [.error .terminated]

section Steps

variable {c : Connector W L} {act : A → W → W}
variable {s s' : Story W L A}

/- A driver at work gives way at once. -/
theorem Doomed.interrupt
    (h : s.Doomed)
    {d : Driver (Nat × L)}
    (hDriver : s.driver = some d)
    (hBusy : d.job ≠ .idle) :
    s.goesOn c = true ∧ s.Failing (s.drive c) := by
  have hUnharmed := h.unharmed d hDriver h.opened
  have hHeeded :
      (d.heeded s.connection).state ≠ .terminated ∧
        (d.heeded s.connection).queue = s.connection.queue ∧
          (d.heeded s.connection).events =
            s.connection.events := by
    rcases d.heeded_eq s.connection with ⟨slots, hHeeded⟩
    rw [hHeeded]
    exact ⟨h.opened, rfl, rfl⟩
  have hStep :
      d.step (c.taped A d.job.purpose) s.now s.connection
          s.world =
        Driver.moved _ :=
    (d.step_of_busy _ s.now s.connection s.world hBusy).trans
      (if_pos h.closing)
  rw [Driver.feed_closeRequested _ _ _ _ hHeeded.1] at hStep
  rcases d.log_hungUp c d.job.purpose s.world with
    ⟨links, hLinks⟩
  have hConnection := drive_connection c hDriver
  rw [hStep] at hConnection
  refine ⟨by simp [goesOn, hDriver, hStep, Driver.moved], ?_⟩
  constructor
  · exact accounts_drive c h.accounts
  · refine ⟨{ d with link := none, job := .idle }, ?_, rfl,
      hUnharmed⟩
    rw [drive_driver c hDriver, hStep]
    rfl
  · rw [hConnection]
    rfl
  · rw [hConnection]
    exact hHeeded.2.1
  · apply quiet_drive c hDriver _
    rw [hStep]
    exact hLinks
  · rw [hConnection]
    exact congrArg (·.push (s.now, .terminated)) hHeeded.2.2
  · intro d' hd' r hr
    rw [hDriver] at hd'
    cases hd'
    rcases d with ⟨link, job, failure⟩
    cases job with
    | exchanging r' x =>
        cases hr
        rcases h.accounts.current _ hDriver r rfl with
          ⟨hTaken, hNone⟩
        have hSlot :=
          h.accounts.id_lt (h.accounts.mem_of_taken hTaken)
        constructor
        · rw [hConnection]
          exact (Connection.answersTo_answer_self _
            (.error .terminated) hSlot).trans
              (congrArg _ hNone)
        · rw [(drive_requests c hDriver).2]
          exact List.mem_append_left _ hTaken
    | _ => cases hr

/- An idle one takes up its next job first. -/
theorem Doomed.begin
    (h : s.Doomed)
    {d : Driver (Nat × L)}
    (hDriver : s.driver = some d)
    (hIdle : d.job = .idle) :
    s.goesOn c = true ∧ s.Quiet (s.drive c) ∧
      (s.drive c).Doomed ∧
        (s.drive c).connection = s.connection ∧
          (s.drive c).now = s.now ∧
            ∃ d' ∈ (s.drive c).driver, d'.job ≠ .idle := by
  have hFits := h.accounts.fits d hDriver
  have hOutcome :=
    d.step_outcome (c.taped A d.job.purpose) s.now s.world hFits
  have hUnharmed' :=
    d.step_unharmed (c.taped A d.job.purpose) s.now s.world hFits
      (h.unharmed d hDriver)
  have hNow : (s.drive c).now = s.now := by
    simp only [drive, Scenario.drive, hDriver]
  have hBegun :
      ∃ d', d.step (c.taped A d.job.purpose) s.now
          s.connection s.world =
            (.go d', s.connection, s.world) ∧
        d'.job ≠ .idle := by
    generalize d.step (c.taped A d.job.purpose) s.now
      s.connection s.world = result at hOutcome
    cases hOutcome with
    | finish hJob hState => exact absurd hState h.opened
    | bringUp hJob hLink hState => exact ⟨_, rfl, by simp [Driver.goto]⟩
    | serve hJob hLink hState => exact ⟨_, rfl, by simp [Driver.goto]⟩
    | check hJob hLink hState => exact ⟨_, rfl, by simp [Driver.goto]⟩
    | interrupt hJob hClosing => exact absurd hIdle hJob
    | _ => simp_all
  rcases hBegun with ⟨d', hStep, hBusy⟩
  have hConnection := drive_connection c hDriver
  have hDriver' := drive_driver c hDriver
  rw [hStep] at hConnection hDriver' hUnharmed'
  refine ⟨by simp [goesOn, hDriver, hStep], ?_, ?_,
    hConnection, hNow, d', hDriver', hBusy⟩
  · apply quiet_drive c hDriver []
    rw [hStep]
    exact (List.append_nil _).symm
  · constructor
    · exact accounts_drive c h.accounts
    · rw [hDriver', hConnection]
      exact hUnharmed'
    · rw [hConnection]
      exact h.closing
    · rw [hConnection]
      exact h.opened

/- The driver fails the requests that still wait, and ends. -/
theorem Failing.drive
    (h : s.Failing s') :
    s'.goesOn c = false ∧ s.Closed (s'.drive c) := by
  rcases h.driver with ⟨d, hDriver, hJob, hFailure⟩
  have hStep :
      d.step (c.taped A d.job.purpose) s'.now s'.connection
          s'.world =
        (.done (), s'.connection.failAll d.failure,
          s'.world) := by
    simp only [Driver.step, hJob, Driver.begin, h.state]
  have hConnection := drive_connection c hDriver
  rw [hStep, hFailure] at hConnection
  have hSlots :
      ∀ id, (s'.drive c).connection.answersTo id =
        (Connection.failEach .terminated s'.connection
          s'.connection.queue).answersTo id := by
    rw [hConnection]
    exact Connection.answersTo_congr
      (Connection.slots_failAll _ _)
  refine ⟨by simp [goesOn, hDriver, hStep], ?_⟩
  constructor
  · rw [drive_driver c hDriver, hStep]
    rfl
  · rw [hConnection]
    exact (Connection.state_failEach _ _ _).trans h.state
  · rw [hConnection]
    rfl
  · apply h.quiet.trans
    apply quiet_drive c hDriver []
    rw [hStep]
    exact (List.append_nil _).symm
  · rw [hConnection]
    exact (Connection.events_failEach _ _ _).trans h.events
  · intro d' hd' r hr
    rcases h.current d' hd' r hr with ⟨hAnswer, hTaken⟩
    have hOther :
        r.id ∉ s'.connection.queue.map Request.id := by
      intro hMem
      rcases List.mem_map.mp hMem with ⟨r', hr', hSame⟩
      exact h.accounts.id_ne hTaken hr' hSame.symm
    rw [hSlots,
      Connection.answersTo_failEach_of_notMem _ _ hOther]
    exact hAnswer
  · intro r hr
    rw [← h.queue] at hr
    rw [hSlots,
      Connection.answersTo_failEach _ _ h.accounts.queue_nodup
        (fun r hr =>
          h.accounts.id_lt (h.accounts.mem_of_waiting hr)) hr,
      h.accounts.waiting r hr]

/- The next poll ends the connection, in three steps at most. -/
theorem Doomed.poll
    (act : A → W → W)
    (h : s.Doomed) :
    ∃ m, m ≤ 3 ∧
      (∀ n, 3 ≤ n →
        s.poll c n = s.run c act (List.replicate m .drive)) ∧
        s.Closed (s.run c act (List.replicate m .drive)) := by
  cases hDriver : s.driver with
  | none =>
      exact absurd (h.accounts.ended hDriver).1 h.opened
  | some d =>
      by_cases hIdle : d.job = .idle
      · rcases h.begin (c := c) hDriver hIdle with
          ⟨hFirst, hQuiet, hDoomed, hConnection, hNow, d',
            hDriver', hBusy⟩
        rcases hDoomed.interrupt (c := c) hDriver' hBusy with
          ⟨hSecond, hFailing⟩
        rcases hFailing.drive (c := c) with ⟨hLast, hClosed⟩
        refine ⟨3, Nat.le_refl 3, ?_, ?_⟩
        · intro n hSteps
          obtain ⟨n, rfl⟩ : ∃ m, n = m + 3 := ⟨n - 3, by omega⟩
          rw [poll_of_goesOn hFirst, poll_of_goesOn hSecond,
            poll_of_stops hLast]
          rfl
        · constructor
          · exact hClosed.driver
          · exact hClosed.state
          · exact hClosed.queue
          · exact hQuiet.trans hClosed.quiet
          · rw [← hConnection, ← hNow]
            exact hClosed.events
          · intro d₀ hd₀ r hr
            rw [hDriver] at hd₀
            cases hd₀
            rw [hIdle] at hr
            cases hr
          · rw [← hConnection]
            exact hClosed.waiting
      · rcases h.interrupt (c := c) hDriver hIdle with
          ⟨hFirst, hFailing⟩
        rcases hFailing.drive (c := c) with ⟨hLast, hClosed⟩
        refine ⟨2, by decide, ?_, hClosed⟩
        intro n hSteps
        obtain ⟨n, rfl⟩ : ∃ m, n = m + 3 := ⟨n - 3, by omega⟩
        rw [poll_of_goesOn hFirst, poll_of_stops hLast]
        rfl

/- Nothing changes that any more. -/
theorem Closed.step
    (h : s.Closed s')
    (m : Move A) :
    s.Closed (s'.step c act m) := by
  cases m with
  | submit a options =>
      simp only [Story.step, Story.submit,
        Connection.submit_of_ended h.state]
      exact h
  | abandon id =>
      have hAnswers := s'.connection.answersTo_abandon id
      refine { h with current := ?_, waiting := ?_ }
      · intro d hd r hr
        exact (hAnswers _).trans (h.current d hd r hr)
      · intro r hr
        exact (hAnswers _).trans (h.waiting r hr)
  | close =>
      simp only [Story.step, Connection.close_of_ended h.state]
      exact h
  | outside a =>
      refine { h with quiet := h.quiet.trans ?_ }
      refine ⟨[.outside a], rfl, ?_⟩
      intro n hn
      rcases List.mem_singleton.mp hn with rfl
      rfl
  | pass ms => exact { h with }
  | drive =>
      simp only [Story.step, drive_of_none c h.driver]
      exact h

theorem Closed.run
    (h : s.Closed s')
    (moves : List (Move A)) :
    s.Closed (s'.run c act moves) :=
  run_induction (fun _ m _ h => h.step m) h

/- A wish to close stays until the driver is polled. -/
theorem Doomed.step
    (h : s.Doomed)
    {m : Move A}
    (hMove : m ≠ .drive) :
    (s.step c act m).Doomed := by
  have hAccounts := accounts_step c act s m h.accounts
  have hKept :
      (s.step c act m).driver = s.driver ∧
        (s.step c act m).connection.state =
            s.connection.state ∧
          (s.step c act m).connection.closing = true := by
    cases m with
    | submit a options =>
        refine ⟨?_, ?_, ?_⟩
        · simp only [Story.step, Story.submit]
          split <;> rfl
        · rw [Story.step, submit_connection]
          exact Connection.state_submit _ a options
        · rw [Story.step, submit_connection, Connection.submit]
          split
          · exact h.closing
          · split <;> exact h.closing
    | close =>
        refine ⟨rfl, Connection.state_close _, ?_⟩
        simp only [Story.step, Connection.close]
        split
        · exact h.closing
        · rfl
    | drive => exact absurd rfl hMove
    | _ => exact ⟨rfl, rfl, h.closing⟩
  rcases hKept with ⟨hDriver, hState, hClosing⟩
  refine ⟨hAccounts, ?_, hClosing, ?_⟩
  · rw [hDriver, hState]
    exact h.unharmed
  · rw [hState]
    exact h.opened

end Steps

end Story

------------------------------------------------------------
-- A Device That Does Not Answer
------------------------------------------------------------

namespace Unanswered

/- Links that take every frame and bring none. -/
def links : Connector Unit Unit where
  profile := .ble
  handshake := .fixed 64
  reach := fun _ w => (some .reachable, w)
  connect := fun _ w => (some (.ok ()), w)
  write := fun _ _ _ w => (some (.ok ()), w)
  event := fun _ _ w => (none, w)
  close := fun _ w => w

def command : Apdu :=
  .ofHeader 0xe0 0x01 0 0

/- The first of two commands is about to be written. -/
def before : List (Move Unit) :=
  List.replicate 5 .drive ++
    [.submit command {}, .submit command {}, .drive, .drive,
      .drive]

/- A third one is handed in after the wish to close. -/
def between : List (Move Unit) :=
  [.pass 5, .submit command {}]

/- All three are answered in the same way. -/
example :
    let s : Story Unit Unit Unit :=
      (Story.start {} 0 ()).run links (fun _ w => w)
        (before ++ .close :: between)
    s.driver.any (fun d => d.job.request?.isSome) = true ∧
      (List.range 3).map (s.poll links 3).connection.answersTo =
        List.replicate 3 [.error .terminated] :=
  ⟨by decide +kernel, by rfl⟩

end Unanswered

end DeviceSession
