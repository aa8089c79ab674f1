import DeviceSession.Proofs.Link.Lifetime
import DeviceSession.Proofs.Run.Scenario

/-
  What one step of a driver can do.

  Every step is one of a few: it begins or ends a job, goes
  on within one, gives way to a wish to close, or drains the
  queue at the end.  All that a step does to the lifecycle
  goes through `Driver.feed`.

  Main declarations:
    * `Driver.Fits`
    * `Driver.feed_connection`
    * `Driver.feed_link`
    * `Driver.Outcome`
    * `Driver.step_outcome`
    * `Driver.Suits`
    * `Driver.step_fits`
    * `Driver.step_failure`
-/

------------------------------------------------------------
-- Lifecycle States
------------------------------------------------------------

namespace DeviceSession

namespace Lifecycle

/-
  A state without a link is one that was there before, the
  end, or the loss of a link.
-/
theorem next_of_unlinked
    {s : Lifecycle}
    {input : LifecycleInput}
    {now budget : Nat}
    (hNew : (s.next input now budget).isLinked = false) :
    s.next input now budget = s ∨
      s.next input now budget = terminated ∨
        s.isLinked = true ∧
          ∃ g, s.next input now budget =
            disconnected g (now + budget) := by
  have hChange := next_change budget now s input
  generalize s.next input now budget = s' at hNew hChange ⊢
  cases hChange with
  | stays => exact .inl rfl
  | loses _ _ g hLinked => exact .inr (.inr ⟨hLinked, g, rfl⟩)
  | late => exact .inr (.inl rfl)
  | expires => exact .inr (.inl rfl)
  | closes => exact .inr (.inl rfl)
  | _ => cases hNew

/- Only a fresh link leads to a state with a link. -/
theorem isLinked_of_next
    {s : Lifecycle}
    {input : LifecycleInput}
    {now budget : Nat}
    (hInput : input ≠ .reconnected)
    (hNew : (s.next input now budget).isLinked = true) :
    s.isLinked = true := by
  have hChange := next_change budget now s input
  generalize s.next input now budget = s' at hNew hChange
  cases hChange with
  | stays => exact hNew
  | first => exact absurd rfl hInput
  | again => exact absurd rfl hInput
  | doubts => rfl
  | assures => rfl
  | _ => cases hNew

end Lifecycle

------------------------------------------------------------
-- Jobs and States
------------------------------------------------------------

namespace Driver

variable {W L : Type}

/- The job and the link fit the state of the connection. -/
def Fits (d : Driver L) (s : Lifecycle) : Prop :=
  match d.job with
  | .idle => d.link.isSome = s.isLinked
  | .bringingUp x =>
      d.link = none ∧
        (s = .connecting ∨ ∃ g, s = .disconnected g x.deadline)
  | .serving _ => d.link.isSome ∧ ∃ g, s = .connected g
  | .exchanging _ _ =>
      d.link.isSome ∧ ∃ g, s = .connected g
  | .checking _ =>
      d.link.isSome ∧ ∃ g, s = .awaitingDisconnection g

------------------------------------------------------------
-- Inputs of the Lifecycle
------------------------------------------------------------

/- The world once the link in use is given up. -/
def hungUp (c : Connector W L) (d : Driver L) (w : W) : W :=
  match d.link with
  | some e => c.close e.link w
  | none => w

theorem closeLink_eq
    (c : Connector W L)
    (d : Driver L)
    (w : W) :
    d.closeLink c w =
      ({ d with link := none }, d.hungUp c w) := by
  rcases d with ⟨link, job, failure⟩
  cases link <;> rfl

/-
  An input changes the state and the events of a connection,
  and nothing else of it.
-/
theorem feed_connection
    (c : Connector W L)
    (now : Nat)
    (input : LifecycleInput)
    (d : Driver L)
    (k : Connection)
    (w : W) :
    ∃ events,
      (feed c now input d k w).2.1 =
        { k with
          state := k.state.next input now
            k.settings.reconnectBudget.toNat
          events } := by
  simp only [feed, arrive, Connection.tell]
  split
  · exact ⟨_, rfl⟩
  · split
    all_goals repeat' split
    all_goals exact ⟨_, rfl⟩

@[simp] theorem feed_job
    (c : Connector W L)
    (now : Nat)
    (input : LifecycleInput)
    (d : Driver L)
    (k : Connection)
    (w : W) :
    (feed c now input d k w).1.job = .idle := by
  simp only [feed, arrive, closeLink_eq]
  split
  · rfl
  · split
    all_goals repeat' split
    all_goals rfl

/-
  A change of state keeps the link if the new state has one,
  and gives it up otherwise.
-/
theorem arrive_link
    (c : Connector W L)
    (now : Nat)
    {old new : Lifecycle}
    (d : Driver L)
    (k : Connection)
    (w : W)
    (hNone :
      old = new → new.isLinked = false → d.link = none)
    (hLost :
      new.isLinked = false →
        new = old ∨ new = .terminated ∨
          old.isLinked = true ∧
            ∃ g due, new = .disconnected g due) :
    ((arrive c now old new d k w).1.link,
        (arrive c now old new d k w).2.2) =
      if new.isLinked then (d.link, w)
      else (none, d.hungUp c w) := by
  by_cases hSame : old = new
  · subst hSame
    cases hLinked : old.isLinked with
    | true => simp [arrive]
    | false =>
        have hLink := hNone rfl hLinked
        simp [arrive, hLink, hungUp]
  · simp only [arrive, if_neg hSame, closeLink_eq]
    have hOther : ∀ new', new = new' → ¬ new' = old := by
      rintro new' rfl h
      exact hSame h.symm
    cases new with
    | connecting =>
        rcases hLost rfl with h | h | ⟨-, g, due, h⟩
        · exact absurd h (hOther _ rfl)
        · cases h
        · cases h
    | connected g =>
        dsimp only
        change _ = (d.link, w)
        split
        · rfl
        · split <;> rfl
    | awaitingDisconnection g => rfl
    | disconnected g due =>
        rcases hLost rfl with h | h | ⟨hLinked, -⟩
        · exact absurd h (hOther _ rfl)
        · cases h
        · dsimp only
          rw [if_pos hLinked]
          rfl
    | terminated => rfl

/-
  An input about the link in use, or the news of a fresh
  link.
-/
def Concerns
    (input : LifecycleInput)
    (d : Driver L)
    (s : Lifecycle) : Prop :=
  d.link.isSome = s.isLinked ∧ input ≠ .reconnected ∨
    d.link.isSome ∧ input = .reconnected ∧
      (s = .connecting ∨ ∃ g due, s = .disconnected g due)

/- The same for an input of the lifecycle. -/
theorem feed_link
    (c : Connector W L)
    (now : Nat)
    {input : LifecycleInput}
    {d : Driver L}
    {k : Connection}
    (w : W)
    (hInput : Concerns input d k.state) :
    ((feed c now input d k w).1.link,
        (feed c now input d k w).2.2) =
      if (k.state.next input now
          k.settings.reconnectBudget.toNat).isLinked then
        (d.link, w)
      else (none, d.hungUp c w) := by
  have hNone :
      k.state =
          k.state.next input now
            k.settings.reconnectBudget.toNat →
        k.state.isLinked = false → d.link = none := by
    intro hSame hUnlinked
    rcases hInput with ⟨hSome, -⟩ | ⟨-, rfl, hState⟩
    · rw [hUnlinked] at hSome
      simpa using hSome
    · rcases hState with hState | ⟨g, due, hState⟩
      · rw [hState] at hSame
        cases hSame
      · rw [hState] at hSame
        simp only [Lifecycle.next] at hSame
        split at hSame <;> cases hSame
  have hArrive :=
    arrive_link c now
      { d with
        job := .idle
        failure :=
          if (k.state.next input now
              k.settings.reconnectBudget.toNat).isTerminated ∧
              input ≠ .closeRequested then
            .disconnectedBeforeSending
          else d.failure }
      { k with
        state := k.state.next input now
          k.settings.reconnectBudget.toNat }
      w
      (fun hSame hLinked => hNone hSame (by rwa [hSame]))
      (by
        intro hLinked
        rcases Lifecycle.next_of_unlinked hLinked with
          h | h | ⟨hOld, g, h⟩
        · exact .inl h
        · exact .inr (.inl h)
        · exact .inr (.inr ⟨hOld, g, _, h⟩))
  exact hArrive

/- In a state with a link, the link is kept. -/
theorem feed_of_linked
    (c : Connector W L)
    (now : Nat)
    {input : LifecycleInput}
    {d : Driver L}
    {k : Connection}
    (w : W)
    (hInput : Concerns input d k.state)
    (hLinked :
      (k.state.next input now
        k.settings.reconnectBudget.toNat).isLinked = true) :
    ∃ failure,
      (feed c now input d k w).1 = ⟨d.link, .idle, failure⟩ ∧
        (feed c now input d k w).2.2 = w := by
  have hLink := feed_link c now w hInput
  have hJob := feed_job c now input d k w
  rw [if_pos hLinked] at hLink
  generalize feed c now input d k w = result at hLink hJob ⊢
  rcases result with ⟨⟨link, job, failure⟩, k', w'⟩
  cases hLink
  cases hJob
  exact ⟨failure, rfl, rfl⟩

/- In any other state, it is given up. -/
theorem feed_of_unlinked
    (c : Connector W L)
    (now : Nat)
    {input : LifecycleInput}
    {d : Driver L}
    {k : Connection}
    (w : W)
    (hInput : Concerns input d k.state)
    (hUnlinked :
      (k.state.next input now
        k.settings.reconnectBudget.toNat).isLinked = false) :
    ∃ failure,
      (feed c now input d k w).1 = ⟨none, .idle, failure⟩ ∧
        (feed c now input d k w).2.2 = d.hungUp c w := by
  have hLink := feed_link c now w hInput
  have hJob := feed_job c now input d k w
  rw [if_neg (Bool.eq_false_iff.mp hUnlinked)] at hLink
  generalize feed c now input d k w = result at hLink hJob ⊢
  rcases result with ⟨⟨link, job, failure⟩, k', w'⟩
  cases hJob
  rcases Prod.mk.inj hLink with ⟨rfl, rfl⟩
  exact ⟨failure, rfl, rfl⟩

------------------------------------------------------------
-- Steps
------------------------------------------------------------

/- The connection once a wish to close has been heeded. -/
def heeded (d : Driver L) (k : Connection) : Connection :=
  match d.job with
  | .exchanging r _ =>
      { k with closing := false }.answer r
        (.error .terminated)
  | _ => { k with closing := false }

/- Of a connection, that touches the answers alone. -/
theorem heeded_eq (d : Driver L) (k : Connection) :
    ∃ slots,
      d.heeded k = { k with closing := false, slots } := by
  unfold heeded
  split
  · exact ⟨_, rfl⟩
  · exact ⟨_, rfl⟩

/- The world once what is under way has been given up. -/
def aborted (c : Connector W L) (d : Driver L) (w : W) : W :=
  match d.job with
  | .bringingUp x => x.abort c w
  | _ => w

/- All that a step of a driver can come to. -/
inductive Outcome
    (c : Connector W L)
    (now : Nat)
    (d : Driver L)
    (k : Connection)
    (w : W) : Result W L → Prop where
  | finish
      (hJob : d.job = .idle)
      (hState : k.state = .terminated) :
      Outcome c now d k w
        (.done (), k.failAll d.failure, w)
  | bringUp
      {deadline : Nat}
      (hJob : d.job = .idle)
      (hLink : d.link = none)
      (hState :
        k.state = .connecting ∧
            deadline =
              now + k.settings.reconnectBudget.toNat ∨
          ∃ g, k.state = .disconnected g deadline) :
      Outcome c now d k w
        (.go (d.goto (.bringingUp { deadline })), k, w)
  | serve
      {g : UInt32}
      {e : HostEnd L}
      (hJob : d.job = .idle)
      (hLink : d.link = some e)
      (hState : k.state = .connected g) :
      Outcome c now d k w
        (.go (d.goto (.serving .first)), k, w)
  | check
      {g : UInt32}
      {e : HostEnd L}
      (hJob : d.job = .idle)
      (hLink : d.link = some e)
      (hState : k.state = .awaitingDisconnection g) :
      Outcome c now d k w
        (.go (d.goto (.checking
          (.ofCommand Command.getApp.apdu now
            k.apduTimeout))), k, w)
  | interrupt
      (hJob : d.job ≠ .idle)
      (hClosing : k.closing = true) :
      Outcome c now d k w
        (moved (feed c now .closeRequested d (d.heeded k)
          (d.aborted c w)))
  | seek
      {x x' : BringUp L}
      {t : Turn (Driver L) Unit}
      {k' : Connection}
      {w' : W}
      (hJob : d.job = .bringingUp x)
      (hStep :
        x.step c now k w = (.go x', k', w') ∧
            t = .go (d.goto (.bringingUp x')) ∨
          x.step c now k w = (.wait x', k', w') ∧
            t = .wait (d.goto (.bringingUp x'))) :
      Outcome c now d k w (t, k', w')
  | linked
      {x : BringUp L}
      {e : HostEnd L}
      {k' : Connection}
      {w' : W}
      (hJob : d.job = .bringingUp x)
      (hStep : x.step c now k w = (.done (.linked e), k', w')) :
      Outcome c now d k w
        (moved (feed c now .reconnected
          { d with link := some e } k' w'))
  | expired
      {x : BringUp L}
      {k' : Connection}
      {w' : W}
      (hJob : d.job = .bringingUp x)
      (hStep : x.step c now k w = (.done .expired, k', w')) :
      Outcome c now d k w
        (moved (feed c now .budgetExpired d k' w'))
  | skip
      {asked : Asked}
      {r : Request}
      {rest : List Request}
      (hJob : d.job = .serving asked)
      (hQueue : k.queue = r :: rest)
      (hGone : k.callerGone r = true) :
      Outcome c now d k w
        (moved (feed c now .exchangeRejected d
          { k with queue := rest } w))
  | take
      {asked : Asked}
      {r : Request}
      {rest : List Request}
      (hJob : d.job = .serving asked)
      (hQueue : k.queue = r :: rest)
      (hGone : k.callerGone r = false) :
      Outcome c now d k w
        (.go (d.goto (.exchanging r
          (.ofCommand r.apdu now
            (r.options.timeout.getD k.apduTimeout)))),
          { k with queue := rest }, w)
  | watch
      {asked asked' : Asked}
      {e : HostEnd L}
      {t : Turn (Driver L) Unit}
      {w' : W}
      (hJob : d.job = .serving asked)
      (hLink : d.link = some e)
      (hQueue : k.queue = [])
      (hStep :
        Watch.step c asked e w = (.go asked', w') ∧
            t = .go (d.goto (.serving asked')) ∨
          Watch.step c asked e w = (.wait asked', w') ∧
            t = .wait (d.goto (.serving asked'))) :
      Outcome c now d k w (t, k, w')
  | lost
      {asked : Asked}
      {e : HostEnd L}
      {w' : W}
      (hJob : d.job = .serving asked)
      (hLink : d.link = some e)
      (hQueue : k.queue = [])
      (hStep : Watch.step c asked e w = (.done (), w')) :
      Outcome c now d k w
        (moved (feed c now .linkLost d k w'))
  | exchange
      {r : Request}
      {x x' : Exchange}
      {e e' : HostEnd L}
      {t : Turn (Driver L) Unit}
      {w' : W}
      (hJob : d.job = .exchanging r x)
      (hLink : d.link = some e)
      (hStep :
        Exchange.step c (.ofSettings k.settings) now x e w =
              (.go x', e', w') ∧
            t = .go { d with
              job := .exchanging r x', link := some e' } ∨
          Exchange.step c (.ofSettings k.settings) now x e w =
              (.wait x', e', w') ∧
            t = .wait { d with
              job := .exchanging r x', link := some e' }) :
      Outcome c now d k w (t, k, w')
  | settle
      {r : Request}
      {x : Exchange}
      {e e' : HostEnd L}
      {result : Except ExchangeError Response}
      {w' : W}
      (hOpen : k.closing = false)
      (hJob : d.job = .exchanging r x)
      (hLink : d.link = some e)
      (hStep :
        Exchange.step c (.ofSettings k.settings) now x e w =
          (.done result, e', w')) :
      Outcome c now d k w
        (moved (feed c now (Driver.settle r result).2
          { d with link := some e' }
          (k.answer r (Driver.settle r result).1) w'))
  | probe
      {x x' : Exchange}
      {e e' : HostEnd L}
      {t : Turn (Driver L) Unit}
      {w' : W}
      (hJob : d.job = .checking x)
      (hLink : d.link = some e)
      (hStep :
        Exchange.step c (.ofSettings k.settings) now x e w =
              (.go x', e', w') ∧
            t = .go { d with
              job := .checking x', link := some e' } ∨
          Exchange.step c (.ofSettings k.settings) now x e w =
              (.wait x', e', w') ∧
            t = .wait { d with
              job := .checking x', link := some e' }) :
      Outcome c now d k w (t, k, w')
  | settleCheck
      {x : Exchange}
      {e e' : HostEnd L}
      {result : Except ExchangeError Response}
      {w' : W}
      (hOpen : k.closing = false)
      (hJob : d.job = .checking x)
      (hLink : d.link = some e)
      (hStep :
        Exchange.step c (.ofSettings k.settings) now x e w =
          (.done result, e', w')) :
      Outcome c now d k w
        (moved (feed c now (Driver.settleCheck result)
          { d with link := some e' } k w'))

/- A driver that is idle begins what the state asks for. -/
theorem begin_outcome
    (c : Connector W L)
    (now : Nat)
    {d : Driver L}
    {k : Connection}
    (w : W)
    (hJob : d.job = .idle)
    (hLink : d.link.isSome = k.state.isLinked) :
    Outcome c now d k w (d.begin c now k w) := by
  simp only [begin, bringUp, closeLink_eq]
  cases hState : k.state with
  | terminated => exact .finish hJob hState
  | connecting =>
      simp only [hState, Lifecycle.isLinked,
        Option.isSome_eq_false_iff, Option.isNone_iff_eq_none]
        at hLink
      rcases d with ⟨link, job, failure⟩
      subst hLink
      exact .bringUp hJob rfl (.inl ⟨hState, rfl⟩)
  | disconnected g deadline =>
      simp only [hState, Lifecycle.isLinked,
        Option.isSome_eq_false_iff, Option.isNone_iff_eq_none]
        at hLink
      rcases d with ⟨link, job, failure⟩
      subst hLink
      exact .bringUp hJob rfl (.inr ⟨g, hState⟩)
  | connected g =>
      simp only [hState, Lifecycle.isLinked] at hLink
      rcases Option.isSome_iff_exists.mp hLink with ⟨e, hSome⟩
      dsimp only
      rw [if_pos hLink]
      exact .serve hJob hSome hState
  | awaitingDisconnection g =>
      simp only [hState, Lifecycle.isLinked] at hLink
      rcases Option.isSome_iff_exists.mp hLink with ⟨e, hSome⟩
      dsimp only
      rw [if_pos hLink]
      exact .check hJob hSome hState

/- A driver at work goes on with its job, or ends it. -/
theorem work_outcome
    (c : Connector W L)
    (now : Nat)
    {d : Driver L}
    {k : Connection}
    (w : W)
    (hOpen : k.closing = false)
    (hJob : d.job ≠ .idle)
    (hFits : d.Fits k.state) :
    Outcome c now d k w (d.work c now k w) := by
  rcases d with ⟨link, job, failure⟩
  simp only [work]
  cases job with
  | idle => exact absurd rfl hJob
  | bringingUp x =>
      dsimp only
      rcases hStep : x.step c now k w with ⟨t, k', w'⟩
      cases t with
      | go x' => exact .seek rfl (.inl ⟨hStep, rfl⟩)
      | wait x' => exact .seek rfl (.inr ⟨hStep, rfl⟩)
      | done ending =>
          cases ending with
          | linked e => exact .linked rfl hStep
          | expired => exact .expired rfl hStep
  | serving asked =>
      rcases Option.isSome_iff_exists.mp hFits.1 with
        ⟨e, rfl⟩
      dsimp only
      cases hQueue : k.queue with
      | cons r rest =>
          have hSame :
              Connection.callerGone
                { k with queue := rest } r =
              k.callerGone r := rfl
          simp only [serve, hSame]
          cases hGone : k.callerGone r with
          | true => exact .skip rfl hQueue hGone
          | false => exact .take rfl hQueue hGone
      | nil =>
          rcases hStep : Watch.step c asked e w with ⟨t, w'⟩
          cases t with
          | go asked' =>
              exact .watch rfl rfl hQueue (.inl ⟨hStep, rfl⟩)
          | wait asked' =>
              exact .watch rfl rfl hQueue (.inr ⟨hStep, rfl⟩)
          | done r => exact .lost rfl rfl hQueue hStep
  | exchanging r x =>
      rcases Option.isSome_iff_exists.mp hFits.1 with
        ⟨e, rfl⟩
      dsimp only
      rcases hStep :
          Exchange.step c (.ofSettings k.settings) now x e w
        with ⟨t, e', w'⟩
      cases t with
      | go x' => exact .exchange rfl rfl (.inl ⟨hStep, rfl⟩)
      | wait x' => exact .exchange rfl rfl (.inr ⟨hStep, rfl⟩)
      | done result => exact .settle hOpen rfl rfl hStep
  | checking x =>
      rcases Option.isSome_iff_exists.mp hFits.1 with
        ⟨e, rfl⟩
      dsimp only
      rcases hStep :
          Exchange.step c (.ofSettings k.settings) now x e w
        with ⟨t, e', w'⟩
      cases t with
      | go x' => exact .probe rfl rfl (.inl ⟨hStep, rfl⟩)
      | wait x' => exact .probe rfl rfl (.inr ⟨hStep, rfl⟩)
      | done result => exact .settleCheck hOpen rfl rfl hStep

/- A wish to close comes before all else but idleness. -/
theorem step_of_busy
    (c : Connector W L)
    (now : Nat)
    {d : Driver L}
    (k : Connection)
    (w : W)
    (hJob : d.job ≠ .idle) :
    d.step c now k w =
      if k.closing then
        moved (feed c now .closeRequested d (d.heeded k)
          (d.aborted c w))
      else d.work c now k w := by
  rcases d with ⟨link, job, failure⟩
  cases job with
  | idle => exact absurd rfl hJob
  | _ => rfl

/- Every step of a driver whose job fits is one of these. -/
theorem step_outcome
    (c : Connector W L)
    (now : Nat)
    {d : Driver L}
    {k : Connection}
    (w : W)
    (hFits : d.Fits k.state) :
    Outcome c now d k w (d.step c now k w) := by
  by_cases hJob : d.job = .idle
  · simp only [Fits, hJob] at hFits
    simp only [step, hJob]
    exact begin_outcome c now w hJob hFits
  · rw [step_of_busy c now k w hJob]
    cases hClosing : k.closing with
    | true => exact .interrupt hJob hClosing
    | false => exact work_outcome c now w hClosing hJob hFits

end Driver

namespace BringUp

variable {W L : Type}

/-
  An attempt tells of events and changes nothing else of the
  connection; the deadline stays.
-/
theorem attemptStep_connection
    (c : Connector W L)
    (now : Nat)
    (x : BringUp L)
    (k : Connection)
    (w : W) :
    (∃ events,
      (x.attemptStep c now k w).2.1 = { k with events }) ∧
      ∀ x' ∈ (x.attemptStep c now k w).1.next?,
        x'.deadline = x.deadline := by
  unfold attemptStep
  split
  all_goals
    simp only [fail, goto, Connection.tell, Turn.pause]
    repeat' split
  all_goals
    exact ⟨⟨_, rfl⟩, by simp [Turn.next?]⟩

/- So does bringing up a link. -/
theorem step_connection
    (c : Connector W L)
    (now : Nat)
    (x : BringUp L)
    (k : Connection)
    (w : W) :
    (∃ events,
      (x.step c now k w).2.1 = { k with events }) ∧
      ∀ x' ∈ (x.step c now k w).1.next?,
        x'.deadline = x.deadline := by
  have hAttempt := x.attemptStep_connection c now k w
  unfold step
  split
  · rename_i x' k' w' hStep
    simp only [hStep] at hAttempt
    split
    · exact ⟨hAttempt.1, by simp [Turn.next?]⟩
    · exact hAttempt
  · exact hAttempt

theorem connection_of_step
    {c : Connector W L}
    {now : Nat}
    {x : BringUp L}
    {k k' : Connection}
    {w w' : W}
    {t : Turn (BringUp L) (BringUp.Ending L)}
    (hStep : x.step c now k w = (t, k', w')) :
    ∃ events, k' = { k with events } := by
  have hConnection := (x.step_connection c now k w).1
  rw [hStep] at hConnection
  exact hConnection

end BringUp

------------------------------------------------------------
-- Jobs Keep Fitting
------------------------------------------------------------

namespace Driver

variable {W L : Type}

/- There is a link exactly in the states that have one. -/
theorem Fits.link
    {d : Driver L}
    {s : Lifecycle}
    (hFits : d.Fits s) :
    d.link.isSome = s.isLinked := by
  rcases d with ⟨link, job, failure⟩
  cases job with
  | idle => exact hFits
  | bringingUp x =>
      rcases hFits with ⟨hLink, rfl | ⟨g, rfl⟩⟩
      · exact congrArg Option.isSome hLink
      · exact congrArg Option.isSome hLink
  | serving asked =>
      rcases hFits with ⟨hLink, g, rfl⟩
      exact hLink
  | exchanging r x =>
      rcases hFits with ⟨hLink, g, rfl⟩
      exact hLink
  | checking x =>
      rcases hFits with ⟨hLink, g, rfl⟩
      exact hLink

/- A driver that brings up a link has none. -/
theorem Fits.link_of_bringingUp
    {d : Driver L}
    {s : Lifecycle}
    {x : BringUp L}
    (hFits : d.Fits s)
    (hJob : d.job = .bringingUp x) :
    d.link = none := by
  simp only [Fits, hJob] at hFits
  exact hFits.1

/- An input other than a fresh link is about the old one. -/
theorem Fits.concerns
    {input : LifecycleInput}
    {d d' : Driver L}
    {s : Lifecycle}
    (hFits : d.Fits s)
    (hLink : d'.link.isSome = d.link.isSome)
    (hInput : input ≠ .reconnected) :
    Concerns input d' s :=
  .inl ⟨hLink.trans hFits.link, hInput⟩

section Outcomes

variable {c : Connector W L}
variable {now : Nat}
variable {d : Driver L}
variable {k k' : Connection} {w w' : W}

/- A wish to close is about the link in use. -/
theorem Fits.concerns_close (hFits : d.Fits k.state) :
    Concerns .closeRequested d (d.heeded k).state := by
  rcases d.heeded_eq k with ⟨slots, hHeeded⟩
  rw [hHeeded]
  exact hFits.concerns rfl (by simp)

/- A link comes up where there is none. -/
theorem Fits.concerns_linked
    {x : BringUp L}
    {e : HostEnd L}
    (hFits : d.Fits k.state)
    (hJob : d.job = .bringingUp x)
    (hStep : x.step c now k w = (.done (.linked e), k', w')) :
    Concerns .reconnected { d with link := some e }
      k'.state := by
  rcases BringUp.connection_of_step hStep with ⟨events, rfl⟩
  simp only [Fits, hJob] at hFits
  refine .inr ⟨rfl, rfl, ?_⟩
  rcases hFits.2 with hState | ⟨g, hState⟩
  · exact .inl hState
  · exact .inr ⟨g, _, hState⟩

/- If none comes up, the state is as it was. -/
theorem Fits.concerns_expired
    {x : BringUp L}
    (hFits : d.Fits k.state)
    (hStep : x.step c now k w = (.done .expired, k', w')) :
    Concerns .budgetExpired d k'.state := by
  rcases BringUp.connection_of_step hStep with ⟨events, rfl⟩
  exact hFits.concerns rfl (by simp)

/- The end of a request is about the link it was on. -/
theorem Fits.concerns_settle
    {s : Lifecycle}
    {e e' : HostEnd L}
    (hFits : d.Fits s)
    (hLink : d.link = some e)
    (r : Request)
    (result : Except ExchangeError Response) :
    Concerns (Driver.settle r result).2
      { d with link := some e' } s := by
  apply hFits.concerns
  · rw [hLink]
    rfl
  · unfold Driver.settle
    split <;> simp

/- So is the end of a check. -/
theorem Fits.concerns_settleCheck
    {s : Lifecycle}
    {e e' : HostEnd L}
    (hFits : d.Fits s)
    (hLink : d.link = some e)
    (result : Except ExchangeError Response) :
    Concerns (Driver.settleCheck result)
      { d with link := some e' } s := by
  apply hFits.concerns
  · rw [hLink]
    rfl
  · unfold Driver.settleCheck
    split <;> simp

/- The driver that a step leaves, if there is one, fits. -/
def Suits (r : Result W L) : Prop :=
  ∀ d' ∈ r.1.next?, d'.Fits r.2.1.state

/- An input leaves a driver that fits. -/
theorem feed_fits
    (c : Connector W L)
    (now : Nat)
    {input : LifecycleInput}
    {d : Driver L}
    {k : Connection}
    (w : W)
    (hInput : Concerns input d k.state) :
    (feed c now input d k w).1.Fits
      (feed c now input d k w).2.1.state := by
  rcases feed_connection c now input d k w with
    ⟨events, hConnection⟩
  have hLink :=
    congrArg Prod.fst (feed_link c now w hInput)
  rw [Fits, feed_job, hConnection]
  dsimp only at hLink ⊢
  rw [hLink]
  cases hNew :
      (k.state.next input now
        k.settings.reconnectBudget.toNat).isLinked with
  | false => rfl
  | true =>
      rcases hInput with ⟨hSome, hOther⟩ | ⟨hSome, -⟩
      · rw [if_pos rfl, hSome]
        exact Lifecycle.isLinked_of_next hOther hNew
      · exact hSome

theorem suits_feed
    {input : LifecycleInput}
    (hInput : Concerns input d k.state) :
    Suits (moved (feed c now input d k w)) := by
  intro d' hNext
  cases hNext
  exact feed_fits c now w hInput

/- A link is brought up for as long as the state allows. -/
theorem suits_bringUp
    {deadline : Nat}
    (hLink : d.link = none)
    (hState :
      k.state = .connecting ∧
          deadline = now + k.settings.reconnectBudget.toNat ∨
        ∃ g, k.state = .disconnected g deadline) :
    Suits (.go (d.goto (.bringingUp { deadline })), k, w) := by
  intro d' hNext
  cases hNext
  refine ⟨hLink, ?_⟩
  rcases hState with ⟨hState, -⟩ | ⟨g, hState⟩
  · exact .inl hState
  · exact .inr ⟨g, hState⟩

/- Bringing up a link keeps to the deadline of the state. -/
theorem suits_seek
    {x x' : BringUp L}
    {t : Turn (Driver L) Unit}
    (hFits : d.Fits k.state)
    (hJob : d.job = .bringingUp x)
    (hStep :
      x.step c now k w = (.go x', k', w') ∧
          t = .go (d.goto (.bringingUp x')) ∨
        x.step c now k w = (.wait x', k', w') ∧
          t = .wait (d.goto (.bringingUp x'))) :
    Suits (t, k', w') := by
  simp only [Fits, hJob] at hFits
  have hKept := x.step_connection c now k w
  intro d' hNext
  rcases hStep with ⟨hStep, rfl⟩ | ⟨hStep, rfl⟩
  all_goals
    cases hNext
    rw [hStep] at hKept
    rcases hKept with ⟨⟨events, hEvents⟩, hDeadline⟩
    subst hEvents
    rw [← hDeadline x' rfl] at hFits
    exact hFits

/- A step within a job for which the state is right. -/
theorem suits_of_turn
    {d' : Driver L}
    {t : Turn (Driver L) Unit}
    (hTurn : t = .go d' ∨ t = .wait d')
    (hFits : d'.Fits k.state) :
    Suits (t, k, w) := by
  intro d'' hNext
  rcases hTurn with rfl | rfl
  all_goals
    cases hNext
    exact hFits

/- A step leaves a driver that fits, if it goes on. -/
theorem step_fits
    (c : Connector W L)
    (now : Nat)
    {d : Driver L}
    {k : Connection}
    (w : W)
    (hFits : d.Fits k.state) :
    Suits (d.step c now k w) := by
  have hOutcome := step_outcome c now w hFits
  generalize d.step c now k w = result at hOutcome ⊢
  cases hOutcome with
  | finish hJob hState =>
      intro d' hNext
      cases hNext
  | bringUp hJob hLink hState => exact suits_bringUp hLink hState
  | serve hJob hLink hState =>
      apply suits_of_turn (.inl rfl)
      exact ⟨by simp [goto, hLink], _, hState⟩
  | check hJob hLink hState =>
      apply suits_of_turn (.inl rfl)
      exact ⟨by simp [goto, hLink], _, hState⟩
  | interrupt hJob hClosing =>
      exact suits_feed hFits.concerns_close
  | seek hJob hStep => exact suits_seek hFits hJob hStep
  | linked hJob hStep =>
      exact suits_feed (hFits.concerns_linked hJob hStep)
  | expired hJob hStep =>
      exact suits_feed (hFits.concerns_expired hStep)
  | skip hJob hQueue hGone =>
      exact suits_feed (hFits.concerns rfl (by simp))
  | take hJob hQueue hGone =>
      simp only [Fits, hJob] at hFits
      exact suits_of_turn (.inl rfl) hFits
  | watch hJob hLink hQueue hStep =>
      simp only [Fits, hJob] at hFits
      exact suits_of_turn (hStep.imp And.right And.right) hFits
  | lost hJob hLink hQueue hStep =>
      exact suits_feed (hFits.concerns rfl (by simp))
  | exchange hJob hLink hStep =>
      simp only [Fits, hJob] at hFits
      exact suits_of_turn (hStep.imp And.right And.right)
        ⟨rfl, hFits.2⟩
  | settle hOpen hJob hLink hStep =>
      exact suits_feed (hFits.concerns_settle hLink _ _)
  | probe hJob hLink hStep =>
      simp only [Fits, hJob] at hFits
      exact suits_of_turn (hStep.imp And.right And.right)
        ⟨rfl, hFits.2⟩
  | settleCheck hOpen hJob hLink hStep =>
      exact suits_feed (hFits.concerns_settleCheck hLink _)

end Outcomes

------------------------------------------------------------
-- Why Waiting Requests Fail
------------------------------------------------------------

theorem arrive_failure
    (c : Connector W L)
    (now : Nat)
    (old new : Lifecycle)
    (d : Driver L)
    (k : Connection)
    (w : W) :
    (arrive c now old new d k w).1.failure = d.failure := by
  simp only [arrive, closeLink_eq]
  split
  · rfl
  · split
    all_goals repeat' split
    all_goals rfl

theorem feed_failure
    (c : Connector W L)
    (now : Nat)
    (input : LifecycleInput)
    (d : Driver L)
    (k : Connection)
    (w : W) :
    (feed c now input d k w).1.failure = d.failure ∨
      (feed c now input d k w).1.failure =
        .disconnectedBeforeSending := by
  simp only [feed, arrive_failure]
  split
  · exact .inr rfl
  · exact .inl rfl

/- A step keeps the reason, or finds that no link comes up. -/
theorem step_failure
    (c : Connector W L)
    (now : Nat)
    {d : Driver L}
    {k : Connection}
    (w : W)
    (hFits : d.Fits k.state) :
    ∀ d' ∈ (d.step c now k w).1.next?,
      d'.failure = d.failure ∨
        d'.failure = .disconnectedBeforeSending := by
  have hMoved :
      ∀ input (d' : Driver L) k' w',
        d'.failure = d.failure →
          ∀ d'' ∈
            (moved (feed c now input d' k' w')).1.next?,
            d''.failure = d.failure ∨
              d''.failure = .disconnectedBeforeSending := by
    intro input d' k' w' hSame d'' hd''
    have hd : (feed c now input d' k' w').1 = d'' :=
      Option.some.inj hd''
    rw [← hd, ← hSame]
    exact feed_failure c now input d' k' w'
  have hOutcome := step_outcome c now w hFits
  generalize d.step c now k w = result at hOutcome ⊢
  cases hOutcome with
  | finish hJob hState => simp [Turn.next?]
  | interrupt hJob hClosing => exact hMoved _ _ _ _ rfl
  | linked hJob hStep => exact hMoved _ _ _ _ rfl
  | expired hJob hStep => exact hMoved _ _ _ _ rfl
  | skip hJob hQueue hGone => exact hMoved _ _ _ _ rfl
  | lost hJob hLink hQueue hStep => exact hMoved _ _ _ _ rfl
  | settle hOpen hJob hLink hStep => exact hMoved _ _ _ _ rfl
  | settleCheck hOpen hJob hLink hStep =>
      exact hMoved _ _ _ _ rfl
  | seek hJob hStep =>
      intro d' hd'
      rcases hStep with ⟨-, rfl⟩ | ⟨-, rfl⟩
      all_goals
        cases hd'
        exact .inl rfl
  | watch hJob hLink hQueue hStep =>
      intro d' hd'
      rcases hStep with ⟨-, rfl⟩ | ⟨-, rfl⟩
      all_goals
        cases hd'
        exact .inl rfl
  | exchange hJob hLink hStep =>
      intro d' hd'
      rcases hStep with ⟨-, rfl⟩ | ⟨-, rfl⟩
      all_goals
        cases hd'
        exact .inl rfl
  | probe hJob hLink hStep =>
      intro d' hd'
      rcases hStep with ⟨-, rfl⟩ | ⟨-, rfl⟩
      all_goals
        cases hd'
        exact .inl rfl
  | _ =>
      intro d' hd'
      cases hd'
      exact .inl rfl

end Driver

end DeviceSession
