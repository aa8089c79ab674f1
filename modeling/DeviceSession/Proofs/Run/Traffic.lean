import DeviceSession.Proofs.Run.Account
import DeviceSession.Proofs.Run.Machines

/-
  The driver keeps to the rules of the wire.

  A step of the driver is a step of one of its machines, or
  the passage from one job to the next.  Either way the
  notes of the step are what the rules allow next, and the
  wire is used as the new job asks.

  Key definitions include:
    * `Driver.Uses`
    * `Driver.Leaves`

  Main declarations:
    * `Driver.leaves_of_linked`
    * `Driver.leaves_of_unlinked`
    * `Driver.step_shows`
-/

------------------------------------------------------------
-- What a Step Is Noted as
------------------------------------------------------------

namespace DeviceSession

namespace Story

variable {L A : Type}

theorem departures_eq (k k' : Connection) :
    departures (A := A) k k' =
      (k.leaving k').map fun x => .took x.1 x.2 := by
  unfold departures Connection.leaving
  rw [List.map_map]
  rfl

theorem arrivals_of_some
    {d : Driver (Nat × L)}
    {e : HostEnd (Nat × L)}
    (hLink : d.link = some e)
    (d' : Option (Driver (Nat × L))) :
    arrivals (A := A) d d' = [] := by
  unfold arrivals
  rw [hLink]

theorem arrivals_of_none
    (d : Driver (Nat × L))
    {d' : Option (Driver (Nat × L))}
    (hLink : d'.bind Driver.link = none) :
    arrivals (A := A) d d' = [] := by
  unfold arrivals
  rw [hLink]
  cases d.link <;> rfl

variable {result : Option (Except ExchangeError Response)}
variable {d d' : Driver (Nat × L)}

theorem turns_of_none
    {next : Option (Driver (Nat × L))}
    (hBefore : d.job.exchange? = none)
    (hAfter : next.bind (fun d => d.job.exchange?) = none) :
    turns (A := A) result d next = [] := by
  unfold turns
  rw [hBefore]
  split
  · rename_i e job failure hNone
    have hJob : job.exchange? = none := hAfter
    rw [hJob]
  · rename_i hSome
    cases hSome
  · rfl

theorem turns_of_begun
    (result : Option (Except ExchangeError Response))
    (job : Job (Nat × L))
    {e : HostEnd (Nat × L)}
    {x : Exchange}
    (hBefore : d.job.exchange? = none)
    (hLink : d.link = some e)
    (hAfter : job.exchange? = some x) :
    turns (A := A) result d (some (d.goto job)) =
      [.began e.link.1 job.purpose (e.plan x.apdu)] := by
  unfold turns Driver.goto
  rw [hBefore, hLink]
  simp only [hAfter]

theorem turns_of_same
    {x x' : Exchange}
    (hBefore : d.job.exchange? = some x)
    (hAfter : d'.job.exchange? = some x') :
    turns (A := A) result d (some d') = [] := by
  rcases d' with ⟨link, job, failure⟩
  unfold turns
  rw [hBefore]
  cases job with
  | idle => cases hAfter
  | _ => rfl

theorem turns_of_ended
    {e : HostEnd (Nat × L)}
    {x : Exchange}
    (hBefore : d.job.exchange? = some x)
    (hLink : d.link = some e)
    (link : Option (HostEnd (Nat × L)))
    (failure : ConnectionError) :
    turns (A := A) result d (some ⟨link, .idle, failure⟩) =
      [.ended e.link.1 d.job.purpose result] := by
  unfold turns
  rw [hBefore, hLink]
  rfl

end Story

------------------------------------------------------------
-- Drivers and the Wire
------------------------------------------------------------

namespace Driver

variable {W L A : Type}

/- The link in use is ready for the next exchange. -/
def Rests (e : HostEnd (Nat × L)) (w : Wire) : Prop :=
  ∃ s, e.On w.opened s ∧ w.usage = .ready s

/- The link in use is in the middle of an exchange. -/
def Works
    (e : HostEnd (Nat × L))
    (why : Purpose)
    (x : Exchange)
    (w : Wire) : Prop :=
  ∃ s, e.On w.opened s ∧ w.usage = .busy s why (x.todo s)

/- What the job of a driver makes of the wire. -/
def Uses (h : Handshake) (d : Driver (Nat × L)) (w : Wire) :
    Prop :=
  match d.job, d.link with
  | .idle, none => w.usage = .off
  | .idle, some e => Rests e w
  | .bringingUp x, none => x.attempt.Uses h w
  | .serving _, some e => Rests e w
  | .exchanging r x, some e =>
      x.apdu = r.apdu ∧ Works e (.request r) x w
  | .checking x, some e => Works e .check x w
  | _, _ => False

/- No link is in use once the driver has ended. -/
def Occupies (h : Handshake) (d : Option (Driver (Nat × L)))
    (w : Wire) : Prop :=
  match d with
  | some d => d.Uses h w
  | none => w.usage = .off

/-
  What a step leaves: with its notes, the log is a trace,
  and the wire is used as the new job asks.
-/
def Leaves
    (c : Connector W L)
    (d : Driver (Nat × L))
    (k : Connection)
    (result : Option (Except ExchangeError Response))
    (r : Result (Taped W A) (Nat × L)) : Prop :=
  ∃ w,
    (r.2.2.note
      (Story.departures k r.2.1 ++
        Story.arrivals d r.1.next? ++
        Story.turns result d r.1.next?)).Shows
      c.profile c.handshake w ∧
      Occupies c.handshake r.1.next? w

section Steps

variable {c : Connector W L}
variable {d d' : Driver (Nat × L)}
variable {k k' : Connection} {t t' : Taped W A}
variable {w : Wire}
variable {result : Option (Except ExchangeError Response)}

/- A step within a job that neither begins nor ends. -/
theorem leaves_of_quiet
    {turn : Turn (Driver (Nat × L)) Unit}
    (hShows : t'.Shows c.profile c.handshake w)
    (hUses : Occupies c.handshake turn.next? w)
    (hQueue : k'.queue = k.queue)
    (hArrivals : Story.arrivals (A := A) d turn.next? = [])
    (hTurns : Story.turns (A := A) result d turn.next? = []) :
    Leaves c d k result (turn, k', t') := by
  refine ⟨w, ?_, hUses⟩
  rw [Story.departures_eq, Connection.leaving_of_same hQueue,
    hArrivals, hTurns]
  exact hShows.nothing

theorem shows_drained
    {n : Nat}
    (hShows : t.Shows c.profile c.handshake ⟨n, .off⟩)
    (xs : List (Request × Bool)) :
    (t.note (xs.map fun x => .took x.1 x.2)).Shows c.profile
      c.handshake ⟨n, .off⟩ := by
  induction xs generalizing t with
  | nil => exact hShows.nothing
  | cons x xs ih =>
      rw [List.map_cons, ← List.singleton_append,
        Taped.note_append]
      exact ih (hShows.note (.drained n x.1 x.2) rfl)

theorem departures_feed
    (c' : Connector (Taped W A) (Nat × L))
    (now : Nat)
    (input : LifecycleInput)
    (d₀ : Driver (Nat × L))
    {k₀ : Connection}
    (t₀ : Taped W A) :
    Story.departures (A := A) k
        (feed c' now input d₀ k₀ t₀).2.1 =
      (k.leaving k₀).map fun x => .took x.1 x.2 := by
  rcases feed_connection c' now input d₀ k₀ t₀ with ⟨events, hk⟩
  rw [Story.departures_eq, hk]
  rfl

/- An input after which the link is kept. -/
theorem leaves_of_linked
    {why : Purpose}
    {now : Nat}
    {input : LifecycleInput}
    {d₀ : Driver (Nat × L)}
    (k₀ : Connection)
    {t₀ : Taped W A}
    (notes : List (Note A))
    (hInput : Concerns input d₀ k₀.state)
    (hLinked :
      (k₀.state.next input now
        k₀.settings.reconnectBudget.toNat).isLinked = true)
    (hNotes : ∀ failure,
      ((k.leaving k₀).map fun x => .took x.1 x.2) ++
          Story.arrivals d (some ⟨d₀.link, .idle, failure⟩) ++
          Story.turns result d
            (some ⟨d₀.link, .idle, failure⟩) = notes)
    (hShows :
      (t₀.note notes).Shows c.profile c.handshake w)
    (hUses : ∀ failure,
      Uses c.handshake ⟨d₀.link, .idle, failure⟩ w) :
    Leaves c d k result
      (moved (feed (c.taped A why) now input d₀ k₀ t₀)) := by
  rcases feed_of_linked (c.taped A why) now t₀ hInput hLinked
    with
    ⟨failure, hDriver, hWorld⟩
  refine ⟨w, ?_, ?_⟩
  · simp only [moved, Turn.next?]
    rw [departures_feed, hDriver, hWorld, hNotes]
    exact hShows
  · simp only [moved, Turn.next?]
    rw [hDriver]
    exact hUses failure

/- An input after which the link is given up. -/
theorem leaves_of_unlinked
    {why : Purpose}
    {now : Nat}
    {input : LifecycleInput}
    {d₀ : Driver (Nat × L)}
    (k₀ : Connection)
    {t₀ : Taped W A}
    {notes : List (Note A)}
    (hInput : Concerns input d₀ k₀.state)
    (hUnlinked :
      (k₀.state.next input now
        k₀.settings.reconnectBudget.toNat).isLinked = false)
    (hQueue : k₀.queue = k.queue)
    (hTurns : ∀ failure,
      Story.turns result d (some ⟨none, .idle, failure⟩) =
        notes)
    (hShows :
      ((d₀.hungUp (c.taped A why) t₀).note notes).Shows
        c.profile c.handshake w)
    (hOff : w.usage = .off) :
    Leaves c d k result
      (moved (feed (c.taped A why) now input d₀ k₀ t₀)) := by
  rcases feed_of_unlinked (c.taped A why) now t₀ hInput hUnlinked
    with
    ⟨failure, hDriver, hWorld⟩
  refine ⟨w, ?_, ?_⟩
  · simp only [moved, Turn.next?]
    rw [departures_feed, hDriver, hWorld,
      Story.arrivals_of_none d rfl, hTurns,
      Connection.leaving_of_same hQueue]
    exact hShows
  · simp only [moved, Turn.next?]
    rw [hDriver]
    exact hOff

/- Giving up the link in use is noted. -/
theorem hungUp_shows
    {why : Purpose}
    {e : HostEnd (Nat × L)}
    {w' : Wire}
    (hLink : d.link = some e)
    (hShows : t.Shows c.profile c.handshake w)
    (hStep :
      Wire.Step (A := A) c.profile c.handshake w
        (.shut e.link.1) w')
    (hOpened : w'.opened = w.opened) :
    (d.hungUp (c.taped A why) t).Shows c.profile c.handshake
      w' := by
  unfold hungUp
  rw [hLink]
  simp only [Connector.taped_close]
  exact (hShows.put _).note hStep hOpened

/- The link is lost, or given up, between exchanges. -/
theorem leaves_of_lost
    {why : Purpose}
    {now : Nat}
    {input : LifecycleInput}
    {d₀ : Driver (Nat × L)}
    (k₀ : Connection)
    {t₀ : Taped W A}
    {e : HostEnd (Nat × L)}
    (hInput : Concerns input d₀ k₀.state)
    (hUnlinked :
      (k₀.state.next input now
        k₀.settings.reconnectBudget.toNat).isLinked = false)
    (hQueue : k₀.queue = k.queue)
    (hJob : d.job.exchange? = none)
    (hLink : d₀.link = some e)
    (hRests : Rests e w)
    (hShows : t₀.Shows c.profile c.handshake w) :
    Leaves c d k result
      (moved (feed (c.taped A why) now input d₀ k₀ t₀)) := by
  rcases w with ⟨n, usage⟩
  rcases hRests with ⟨s, ⟨hNumber, -⟩, hReady⟩
  cases hReady
  apply leaves_of_unlinked k₀ (w := ⟨n, .off⟩) hInput hUnlinked
    hQueue
  · exact fun failure => Story.turns_of_none hJob rfl
  · apply Taped.Shows.nothing
    refine hungUp_shows hLink hShows ?_ rfl
    rw [hNumber]
    exact .shutReady n s
  · rfl

/- The link is lost, or given up, within an exchange. -/
theorem leaves_of_broken
    {why : Purpose}
    {now : Nat}
    {input : LifecycleInput}
    {d₀ : Driver (Nat × L)}
    (k₀ : Connection)
    {t₀ : Taped W A}
    {e e₀ : HostEnd (Nat × L)}
    {x : Exchange}
    {s : Slicer}
    {n : Nat}
    (todo : List (List UInt8))
    (hInput : Concerns input d₀ k₀.state)
    (hUnlinked :
      (k₀.state.next input now
        k₀.settings.reconnectBudget.toNat).isLinked = false)
    (hQueue : k₀.queue = k.queue)
    (hJob : d.job.exchange? = some x)
    (hLink : d.link = some e)
    (hNumber : e.link.1 = n)
    (hLink₀ : d₀.link = some e₀)
    (hNumber₀ : e₀.link.1 = n)
    (hShows :
      t₀.Shows c.profile c.handshake
        ⟨n, .busy s d.job.purpose todo⟩)
    (hFailed : ∀ r, result ≠ some (.ok r)) :
    Leaves c d k result
      (moved (feed (c.taped A why) now input d₀ k₀ t₀)) := by
  apply leaves_of_unlinked k₀ (w := ⟨n, .off⟩) hInput hUnlinked
    hQueue
  · exact fun failure =>
      Story.turns_of_ended hJob hLink none failure
  · rw [hNumber]
    apply Taped.Shows.note _ (.broken n _ hFailed) rfl
    refine hungUp_shows hLink₀ hShows ?_ rfl
    rw [hNumber₀]
    exact .shutBusy n s d.job.purpose todo
  · rfl

/- An exchange has been answered in full. -/
theorem leaves_of_answered
    {why : Purpose}
    {now : Nat}
    {input : LifecycleInput}
    {d₀ : Driver (Nat × L)}
    (k₀ : Connection)
    {t₀ : Taped W A}
    {e e₀ : HostEnd (Nat × L)}
    {x : Exchange}
    {s : Slicer}
    {n : Nat}
    {response : Response}
    (hInput : Concerns input d₀ k₀.state)
    (hLinked :
      (k₀.state.next input now
        k₀.settings.reconnectBudget.toNat).isLinked = true)
    (hQueue : k₀.queue = k.queue)
    (hJob : d.job.exchange? = some x)
    (hLink : d.link = some e)
    (hNumber : e.link.1 = n)
    (hLink₀ : d₀.link = some e₀)
    (hOn₀ : e₀.On n s)
    (hShows :
      t₀.Shows c.profile c.handshake
        ⟨n, .busy s d.job.purpose []⟩) :
    Leaves c d k (some (.ok response))
      (moved (feed (c.taped A why) now input d₀ k₀ t₀)) := by
  apply leaves_of_linked k₀
    [.ended n d.job.purpose (some (.ok response))]
    (w := ⟨n, .ready s⟩) hInput hLinked
  · intro failure
    rw [Connection.leaving_of_same hQueue,
      Story.arrivals_of_some hLink,
      Story.turns_of_ended hJob hLink, hNumber]
    rfl
  · exact hShows.note (.answered n s d.job.purpose response) rfl
  · intro failure
    rw [hLink₀]
    exact ⟨s, hOn₀, rfl⟩

/- A failed exchange takes the link with it. -/
theorem settle_unlinked
    {g : UInt32}
    {r : Request}
    {err : ExchangeError}
    (hReady : err ≠ .notReady)
    (now budget : Nat) :
    ((Lifecycle.connected g).next (settle r (.error err)).2 now
      budget).isLinked = false := by
  cases err with
  | notReady => exact absurd rfl hReady
  | _ => rfl

theorem settle_linked
    {g : UInt32}
    (r : Request)
    (x : Response)
    (now budget : Nat) :
    ((Lifecycle.connected g).next (settle r (.ok x)).2 now
      budget).isLinked = true := by
  simp only [settle]
  cases triggers r x <;> rfl

theorem settleCheck_unlinked
    {g : UInt32}
    {err : ExchangeError}
    (hReady : err ≠ .notReady)
    (now budget : Nat) :
    ((Lifecycle.awaitingDisconnection g).next
      (settleCheck (.error err)) now budget).isLinked =
        false := by
  cases err with
  | notReady => exact absurd rfl hReady
  | _ => rfl

------------------------------------------------------------
-- Step by Step
------------------------------------------------------------

variable {now : Nat} {why : Purpose}
variable {e e' : HostEnd (Nat × L)}

/- The queue is drained once no link is in use. -/
theorem leaves_finish
    {failure : ConnectionError}
    (hFits : d.Fits k.state)
    (hUses : d.Uses c.handshake w)
    (hShows : t.Shows c.profile c.handshake w)
    (hJob : d.job = .idle)
    (hState : k.state = .terminated) :
    Leaves c d k result (.done (), k.failAll failure, t) := by
  have hLink := hFits.link
  rw [hState] at hLink
  have hNone : d.link = none := by
    simpa [Lifecycle.isLinked] using hLink
  simp only [Uses, hJob, hNone] at hUses
  rcases w with ⟨n, usage⟩
  cases hUses
  refine ⟨⟨n, .off⟩, ?_, rfl⟩
  have hExchange : d.job.exchange? = none :=
    congrArg Job.exchange? hJob
  rw [Story.departures_eq, Story.arrivals_of_none d rfl,
    Story.turns_of_none hExchange rfl, List.append_nil,
    List.append_nil]
  exact shows_drained hShows _

/- To bring up a link begins while none is in use. -/
theorem leaves_bringUp
    {deadline : Nat}
    (hUses : d.Uses c.handshake w)
    (hShows : t.Shows c.profile c.handshake w)
    (hJob : d.job = .idle)
    (hLink : d.link = none) :
    Leaves c d k result
      (.go (d.goto (.bringingUp { deadline })), k, t) := by
  have hExchange : d.job.exchange? = none :=
    congrArg Job.exchange? hJob
  simp only [Uses, hJob, hLink] at hUses
  apply leaves_of_quiet hShows _ rfl
  · apply Story.arrivals_of_none
    simp [Turn.next?, goto, hLink]
  · exact Story.turns_of_none hExchange rfl
  · simp only [Turn.next?, Occupies, Uses, goto, hLink]
    exact hUses

/- To wait for requests leaves the link as it is. -/
theorem leaves_serve
    (hUses : d.Uses c.handshake w)
    (hShows : t.Shows c.profile c.handshake w)
    (hJob : d.job = .idle)
    (hLink : d.link = some e) :
    Leaves c d k result
      (.go (d.goto (.serving .first)), k, t) := by
  have hExchange : d.job.exchange? = none :=
    congrArg Job.exchange? hJob
  simp only [Uses, hJob, hLink] at hUses
  apply leaves_of_quiet hShows _ rfl
  · exact Story.arrivals_of_some hLink _
  · exact Story.turns_of_none hExchange rfl
  · simp only [Turn.next?, Occupies, Uses, goto, hLink]
    exact hUses

/- A check begins. -/
theorem leaves_check
    {timeout : Nat}
    (hUses : d.Uses c.handshake w)
    (hShows : t.Shows c.profile c.handshake w)
    (hJob : d.job = .idle)
    (hLink : d.link = some e) :
    Leaves c d k result
      (.go (d.goto (.checking
        (.ofCommand Command.getApp.apdu now timeout))), k,
        t) := by
  simp only [Uses, hJob, hLink] at hUses
  rcases w with ⟨n, usage⟩
  rcases hUses with ⟨s, ⟨hNumber, a, hCodec⟩, hReady⟩
  cases hReady
  refine ⟨⟨n, .busy s .check
    (s.command Command.getApp.apdu).toList⟩, ?_, ?_⟩
  · have hExchange : d.job.exchange? = none :=
      congrArg Job.exchange? hJob
    have hTurns :=
      Story.turns_of_begun (A := A) result
        (.checking
          (.ofCommand Command.getApp.apdu now timeout))
        hExchange hLink rfl
    simp only [Turn.next?]
    rw [Story.departures_eq, Connection.leaving_of_same rfl,
      Story.arrivals_of_some hLink, hTurns, hNumber,
      HostEnd.plan, hCodec]
    exact hShows.note (.beganCheck n s) rfl
  · simp only [Turn.next?, Occupies, Uses, goto, hLink]
    exact ⟨s, ⟨hNumber, a, hCodec⟩, rfl⟩

/- A wish to close ends the job, and the link with it. -/
theorem leaves_interrupt
    (hFits : d.Fits k.state)
    (hUses : d.Uses c.handshake w)
    (hShows : t.Shows c.profile c.handshake w)
    (hJob : d.job ≠ .idle) :
    Leaves c d k none
      (moved (feed (c.taped A d.job.purpose) now .closeRequested
        d (d.heeded k)
        (d.aborted (c.taped A d.job.purpose) t))) := by
  have hEnd :
      ∀ s : Lifecycle, ∀ budget,
        (s.next .closeRequested now budget).isLinked =
          false := by
    intro s budget
    cases s <;> rfl
  have hInput : Concerns .closeRequested d k.state :=
    hFits.concerns rfl (by simp)
  rcases d with ⟨link, job, failure⟩
  cases job with
  | idle => exact absurd rfl hJob
  | bringingUp x =>
      rcases hFits with ⟨rfl, -⟩
      rcases BringUp.abort_shows c hUses hShows with
        ⟨n, hAborted⟩
      exact leaves_of_unlinked _ (w := ⟨n, .off⟩) hInput
        (hEnd _ _) rfl (fun _ => Story.turns_of_none rfl rfl)
        hAborted.nothing rfl
  | serving asked =>
      rcases hFits with ⟨hSome, -⟩
      rcases Option.isSome_iff_exists.mp hSome with ⟨e, rfl⟩
      exact leaves_of_lost _ hInput (hEnd _ _) rfl rfl rfl hUses
        hShows
  | exchanging r x =>
      rcases hFits with ⟨hSome, -⟩
      rcases Option.isSome_iff_exists.mp hSome with ⟨e, rfl⟩
      rcases w with ⟨n, usage⟩
      rcases hUses with ⟨-, s, ⟨hNumber, -⟩, hBusy⟩
      cases hBusy
      exact leaves_of_broken _ _ (x := x) hInput (hEnd _ _) rfl rfl
        rfl hNumber rfl hNumber hShows (by simp)
  | checking x =>
      rcases hFits with ⟨hSome, -⟩
      rcases Option.isSome_iff_exists.mp hSome with ⟨e, rfl⟩
      rcases w with ⟨n, usage⟩
      rcases hUses with ⟨s, ⟨hNumber, -⟩, hBusy⟩
      cases hBusy
      exact leaves_of_broken _ _ (x := x) hInput (hEnd _ _) rfl rfl
        rfl hNumber rfl hNumber hShows (by simp)

/-
  While a link is brought up, the wire is used as the attempt
  asks, and of the connection only the events change.
-/
theorem seeks
    {x : BringUp (Nat × L)}
    {turn : Turn (BringUp (Nat × L)) (BringUp.Ending (Nat × L))}
    (hFits : d.Fits k.state)
    (hUses : d.Uses c.handshake w)
    (hShows : t.Shows c.profile c.handshake w)
    (hJob : d.job = .bringingUp x)
    (hStep :
      x.step (c.taped A d.job.purpose) now k t = (turn, k', t')) :
    BringUp.Leaves c (turn, k', t') ∧
      ∃ events, k' = { k with events } := by
  simp only [hJob, Job.purpose] at hStep
  simp only [Uses, hJob, hFits.link_of_bringingUp hJob] at hUses
  have hSought := BringUp.step_shows c now k hUses hShows
  rw [hStep] at hSought
  exact ⟨hSought, BringUp.connection_of_step hStep⟩

/- The attempt goes on, and no link is in use yet. -/
theorem leaves_seek
    {x x' : BringUp (Nat × L)}
    {turn : Turn (Driver (Nat × L)) Unit}
    (hFits : d.Fits k.state)
    (hUses : d.Uses c.handshake w)
    (hShows : t.Shows c.profile c.handshake w)
    (hJob : d.job = .bringingUp x)
    (hStep :
      x.step (c.taped A d.job.purpose) now k t =
            (.go x', k', t') ∧
          turn = .go (d.goto (.bringingUp x')) ∨
        x.step (c.taped A d.job.purpose) now k t =
            (.wait x', k', t') ∧
          turn = .wait (d.goto (.bringingUp x'))) :
    Leaves c d k result (turn, k', t') := by
  have hExchange : d.job.exchange? = none :=
    congrArg Job.exchange? hJob
  have hNone := hFits.link_of_bringingUp hJob
  rcases hStep with ⟨hStep, rfl⟩ | ⟨hStep, rfl⟩
  all_goals
    rcases seeks hFits hUses hShows hJob hStep with
      ⟨⟨w', hUses', hShows'⟩, events, rfl⟩
    apply leaves_of_quiet hShows' _ rfl
    · apply Story.arrivals_of_none
      simp [Turn.next?, goto, hNone]
    · exact Story.turns_of_none hExchange rfl
    · simp only [Turn.next?, Occupies, Uses, goto, hNone]
      exact hUses'

/- A fresh link is ready, unless it comes too late. -/
theorem leaves_linked
    {x : BringUp (Nat × L)}
    (hFits : d.Fits k.state)
    (hUses : d.Uses c.handshake w)
    (hShows : t.Shows c.profile c.handshake w)
    (hJob : d.job = .bringingUp x)
    (hStep :
      x.step (c.taped A d.job.purpose) now k t =
        (.done (.linked e), k', t')) :
    Leaves c d k result
      (moved (feed (c.taped A d.job.purpose) now .reconnected
        { d with link := some e } k' t')) := by
  have hInput := hFits.concerns_linked hJob hStep
  rcases seeks hFits hUses hShows hJob hStep with
    ⟨⟨hShows, s, a, hCodec, hProfile⟩, events, rfl⟩
  have hNone := hFits.link_of_bringingUp hJob
  have hExchange : d.job.exchange? = none :=
    congrArg Job.exchange? hJob
  cases hNew :
      (k.state.next .reconnected now
        k.settings.reconnectBudget.toNat).isLinked with
  | true =>
      have hSame : k.leaving { k with events } = [] :=
        Connection.leaving_of_same rfl
      apply leaves_of_linked { k with events }
        [.ready e.link.1 s] (w := ⟨e.link.1, .ready s⟩) hInput
        hNew
      · intro failure
        rw [hSame, Story.turns_of_none hExchange rfl, Story.arrivals,
          hNone]
        simp [hCodec]
      · exact hShows.note (.ready _ hProfile) rfl
      · exact fun _ => ⟨s, ⟨rfl, a, hCodec⟩, rfl⟩
  | false =>
      apply leaves_of_unlinked { k with events }
        (w := ⟨e.link.1, .off⟩) hInput hNew rfl
      · exact fun _ => Story.turns_of_none hExchange rfl
      · apply Taped.Shows.nothing
        exact hungUp_shows rfl hShows (.shut _ _) rfl
      · rfl

/- No link came up in time. -/
theorem leaves_expired
    {x : BringUp (Nat × L)}
    (hFits : d.Fits k.state)
    (hUses : d.Uses c.handshake w)
    (hShows : t.Shows c.profile c.handshake w)
    (hJob : d.job = .bringingUp x)
    (hStep :
      x.step (c.taped A d.job.purpose) now k t =
        (.done .expired, k', t')) :
    Leaves c d k result
      (moved (feed (c.taped A d.job.purpose) now .budgetExpired d
        k' t')) := by
  have hInput := hFits.concerns_expired hStep
  rcases seeks hFits hUses hShows hJob hStep with
    ⟨⟨n, hShows⟩, events, rfl⟩
  simp only [Fits, hJob] at hFits
  rcases hFits with ⟨hNone, hState⟩
  have hExchange : d.job.exchange? = none :=
    congrArg Job.exchange? hJob
  apply leaves_of_unlinked { k with events }
    (w := ⟨n, .off⟩) hInput _ rfl
  · exact fun _ => Story.turns_of_none hExchange rfl
  · apply Taped.Shows.nothing
    unfold hungUp
    rw [hNone]
    exact hShows
  · rfl
  · rcases hState with hState | ⟨g, hState⟩
    · simp only [hState]
      rfl
    · simp only [hState]
      rfl

/- A request is passed over: its caller has gone. -/
theorem leaves_skip
    {asked : Asked}
    {r : Request}
    {rest : List Request}
    (hFits : d.Fits k.state)
    (hUses : d.Uses c.handshake w)
    (hShows : t.Shows c.profile c.handshake w)
    (hJob : d.job = .serving asked)
    (hQueue : k.queue = r :: rest)
    (hGone : k.callerGone r = true) :
    Leaves c d k result
      (moved (feed (c.taped A why) now .exchangeRejected d
        { k with queue := rest } t)) := by
  have hInput : Concerns .exchangeRejected d k.state :=
    hFits.concerns rfl (by simp)
  have hExchange : d.job.exchange? = none :=
    congrArg Job.exchange? hJob
  simp only [Fits, hJob] at hFits
  rcases hFits with ⟨hSome, g, hState⟩
  rcases Option.isSome_iff_exists.mp hSome with ⟨e, hLink⟩
  simp only [Uses, hJob, hLink] at hUses
  rcases w with ⟨n, usage⟩
  rcases hUses with ⟨s, hOn, hReady⟩
  cases hReady
  apply leaves_of_linked { k with queue := rest }
    [.took r true] (w := ⟨n, .ready s⟩) hInput
  · simp only [hState]
    rfl
  · intro failure
    rw [Connection.leaving_of_first hQueue,
      Story.arrivals_of_some hLink,
      Story.turns_of_none hExchange rfl, hGone]
    rfl
  · exact hShows.note (.skipped n s r) rfl
  · intro failure
    simp only [Uses, hLink]
    exact ⟨s, hOn, rfl⟩

/- A request goes on the link. -/
theorem leaves_take
    {asked : Asked}
    {r : Request}
    {rest : List Request}
    {timeout : Nat}
    (hFits : d.Fits k.state)
    (hUses : d.Uses c.handshake w)
    (hShows : t.Shows c.profile c.handshake w)
    (hJob : d.job = .serving asked)
    (hQueue : k.queue = r :: rest)
    (hGone : k.callerGone r = false) :
    Leaves c d k result
      (.go (d.goto (.exchanging r
        (.ofCommand r.apdu now timeout))),
        { k with queue := rest }, t) := by
  have hExchange : d.job.exchange? = none :=
    congrArg Job.exchange? hJob
  simp only [Fits, hJob] at hFits
  rcases hFits with ⟨hSome, -⟩
  rcases Option.isSome_iff_exists.mp hSome with ⟨e, hLink⟩
  simp only [Uses, hJob, hLink] at hUses
  rcases w with ⟨n, usage⟩
  rcases hUses with ⟨s, ⟨hNumber, a, hCodec⟩, hReady⟩
  cases hReady
  refine ⟨⟨n, .busy s (.request r)
    (s.command r.apdu).toList⟩, ?_, ?_⟩
  · have hTurns :=
      Story.turns_of_begun (A := A) result
        (.exchanging r (.ofCommand r.apdu now timeout))
        hExchange hLink rfl
    simp only [Turn.next?]
    rw [Story.departures_eq,
      Connection.leaving_of_first hQueue, hGone,
      Story.arrivals_of_some hLink, hTurns, hNumber,
      HostEnd.plan, hCodec, List.append_nil,
      Taped.note_append]
    exact (hShows.note (.taken n s r) rfl).note
      (.began n s r) rfl
  · simp only [Turn.next?, Occupies, Uses, goto, hLink]
    exact ⟨rfl, s, ⟨hNumber, a, hCodec⟩, rfl⟩

/- The exchange of a request comes to its end. -/
theorem leaves_settle
    {r : Request}
    {x : Exchange}
    {outcome : Except ExchangeError Response}
    {t' : Taped W A}
    (hFits : d.Fits k.state)
    (hUses : d.Uses c.handshake w)
    (hShows : t.Shows c.profile c.handshake w)
    (hJob : d.job = .exchanging r x)
    (hLink : d.link = some e)
    (hStep :
      Exchange.step (c.taped A (.request r))
          (.ofSettings k.settings) now x e t =
        (.done outcome, e', t')) :
    Leaves c d k (some outcome)
      (moved (feed (c.taped A why) now
        (Driver.settle r outcome).2
        { d with link := some e' }
        (k.answer r (Driver.settle r outcome).1) t')) := by
  have hPurpose : d.job.purpose = .request r :=
    congrArg Job.purpose hJob
  have hExchange : d.job.exchange? = some x :=
    congrArg Job.exchange? hJob
  have hInput :
      Concerns (Driver.settle r outcome).2
        { d with link := some e' } k.state :=
    hFits.concerns_settle hLink r outcome
  simp only [Fits, hJob] at hFits
  rcases hFits with ⟨-, g, hState⟩
  simp only [Uses, hJob, hLink] at hUses
  rcases w with ⟨n, usage⟩
  rcases hUses with ⟨-, s, hOn, hBusy⟩
  cases hBusy
  have hWorked :=
    Exchange.step_shows c (.request r)
      (.ofSettings k.settings) now hOn hShows
  rw [hStep] at hWorked
  cases outcome with
  | ok response =>
      rcases hWorked with ⟨hOn', hShows'⟩
      apply leaves_of_answered (k := k)
        (k.answer r (Driver.settle r (.ok response)).1)
        hInput _ rfl hExchange hLink hOn.1 rfl hOn'
      · rw [hPurpose]
        exact hShows'
      · simp only [Connection.answer, hState]
        exact settle_linked r response _ _
  | error err =>
      rcases hWorked with ⟨hOn', hReady, todo, hShows'⟩
      apply leaves_of_broken (k := k) (s := s)
        (k.answer r (Driver.settle r (.error err)).1) todo
        hInput _ rfl hExchange hLink hOn.1 rfl hOn'.1 _
        (by simp)
      · simp only [Connection.answer, hState]
        exact settle_unlinked hReady _ _
      · rw [hPurpose]
        exact hShows'

/- A check comes to its end. -/
theorem leaves_settleCheck
    {x : Exchange}
    {outcome : Except ExchangeError Response}
    {t' : Taped W A}
    (hFits : d.Fits k.state)
    (hUses : d.Uses c.handshake w)
    (hShows : t.Shows c.profile c.handshake w)
    (hJob : d.job = .checking x)
    (hLink : d.link = some e)
    (hStep :
      Exchange.step (c.taped A .check)
          (.ofSettings k.settings) now x e t =
        (.done outcome, e', t')) :
    Leaves c d k (some outcome)
      (moved (feed (c.taped A why) now
        (Driver.settleCheck outcome)
        { d with link := some e' } k t')) := by
  have hPurpose : d.job.purpose = .check :=
    congrArg Job.purpose hJob
  have hExchange : d.job.exchange? = some x :=
    congrArg Job.exchange? hJob
  have hInput :
      Concerns (Driver.settleCheck outcome)
        { d with link := some e' } k.state :=
    hFits.concerns_settleCheck hLink outcome
  simp only [Fits, hJob] at hFits
  rcases hFits with ⟨-, g, hState⟩
  simp only [Uses, hJob, hLink] at hUses
  rcases w with ⟨n, usage⟩
  rcases hUses with ⟨s, hOn, hBusy⟩
  cases hBusy
  have hWorked :=
    Exchange.step_shows c .check
      (.ofSettings k.settings) now hOn hShows
  rw [hStep] at hWorked
  cases outcome with
  | ok response =>
      rcases hWorked with ⟨hOn', hShows'⟩
      apply leaves_of_answered k hInput _ rfl hExchange hLink
        hOn.1 rfl hOn'
      · rw [hPurpose]
        exact hShows'
      · simp only [hState]
        rfl
  | error err =>
      rcases hWorked with ⟨hOn', hReady, todo, hShows'⟩
      apply leaves_of_broken k todo (s := s) hInput _
        rfl hExchange hLink hOn.1 rfl hOn'.1 _ (by simp)
      · simp only [hState]
        exact settleCheck_unlinked hReady _ _
      · rw [hPurpose]
        exact hShows'

/- The link in use is watched, and nothing has come of it. -/
theorem leaves_watch
    {asked asked' : Asked}
    {turn : Turn (Driver (Nat × L)) Unit}
    (hUses : d.Uses c.handshake w)
    (hShows : t.Shows c.profile c.handshake w)
    (hJob : d.job = .serving asked)
    (hLink : d.link = some e)
    (hStep :
      Watch.step (c.taped A d.job.purpose) asked e t =
            (.go asked', t') ∧
          turn = .go (d.goto (.serving asked')) ∨
        Watch.step (c.taped A d.job.purpose) asked e t =
            (.wait asked', t') ∧
          turn = .wait (d.goto (.serving asked'))) :
    Leaves c d k result (turn, k, t') := by
  have hExchange : d.job.exchange? = none :=
    congrArg Job.exchange? hJob
  simp only [Uses, hJob, hLink] at hUses
  have hWatched := Watch.step_shows c asked e hShows
  simp only [hJob, Job.purpose] at hStep
  rcases hStep with ⟨hStep, rfl⟩ | ⟨hStep, rfl⟩
  all_goals
    rw [hStep] at hWatched
    apply leaves_of_quiet hWatched _ rfl
    · exact Story.arrivals_of_some hLink _
    · exact Story.turns_of_none hExchange rfl
    · simp only [Turn.next?, Occupies, Uses, goto, hLink]
      exact hUses

/- The link is lost while no request is on it. -/
theorem leaves_unserved
    {asked : Asked}
    (hFits : d.Fits k.state)
    (hUses : d.Uses c.handshake w)
    (hShows : t.Shows c.profile c.handshake w)
    (hJob : d.job = .serving asked)
    (hLink : d.link = some e)
    (hStep :
      Watch.step (c.taped A d.job.purpose) asked e t =
        (.done (), t')) :
    Leaves c d k result
      (moved (feed (c.taped A d.job.purpose) now .linkLost d k
        t')) := by
  have hExchange : d.job.exchange? = none :=
    congrArg Job.exchange? hJob
  have hInput : Concerns .linkLost d k.state :=
    hFits.concerns rfl (by simp)
  have hWatched := Watch.step_shows c asked e hShows
  simp only [hJob, Job.purpose] at hStep
  rw [hStep] at hWatched
  simp only [Uses, hJob, hLink] at hUses
  simp only [Fits, hJob] at hFits
  rcases hFits with ⟨-, g, hState⟩
  apply leaves_of_lost k hInput _ rfl hExchange hLink hUses
    hWatched
  rw [hState]
  rfl

/- A request goes on being exchanged. -/
theorem leaves_exchange
    {r : Request}
    {x x' : Exchange}
    {turn : Turn (Driver (Nat × L)) Unit}
    (hUses : d.Uses c.handshake w)
    (hShows : t.Shows c.profile c.handshake w)
    (hJob : d.job = .exchanging r x)
    (hLink : d.link = some e)
    (hStep :
      Exchange.step (c.taped A d.job.purpose)
            (.ofSettings k.settings) now x e t =
            (.go x', e', t') ∧
          turn = .go { d with
            job := .exchanging r x', link := some e' } ∨
        Exchange.step (c.taped A d.job.purpose)
            (.ofSettings k.settings) now x e t =
            (.wait x', e', t') ∧
          turn = .wait { d with
            job := .exchanging r x', link := some e' }) :
    Leaves c d k result (turn, k, t') := by
  have hExchange : d.job.exchange? = some x :=
    congrArg Job.exchange? hJob
  simp only [Uses, hJob, hLink] at hUses
  rcases w with ⟨n, usage⟩
  rcases hUses with ⟨hAbout, s, hOn, hBusy⟩
  cases hBusy
  have hWorked :=
    Exchange.step_shows c (.request r)
      (.ofSettings k.settings) now hOn hShows
  simp only [hJob, Job.purpose] at hStep
  rcases hStep with ⟨hStep, rfl⟩ | ⟨hStep, rfl⟩
  all_goals
    rw [hStep] at hWorked
    rcases hWorked with ⟨hOn', hSame, hShows'⟩
    apply leaves_of_quiet hShows' _ rfl
    · exact Story.arrivals_of_some hLink _
    · exact Story.turns_of_same hExchange rfl
    · exact ⟨hSame.trans hAbout, s, hOn', rfl⟩

/- A check goes on. -/
theorem leaves_probe
    {x x' : Exchange}
    {turn : Turn (Driver (Nat × L)) Unit}
    (hUses : d.Uses c.handshake w)
    (hShows : t.Shows c.profile c.handshake w)
    (hJob : d.job = .checking x)
    (hLink : d.link = some e)
    (hStep :
      Exchange.step (c.taped A d.job.purpose)
            (.ofSettings k.settings) now x e t =
            (.go x', e', t') ∧
          turn = .go { d with
            job := .checking x', link := some e' } ∨
        Exchange.step (c.taped A d.job.purpose)
            (.ofSettings k.settings) now x e t =
            (.wait x', e', t') ∧
          turn = .wait { d with
            job := .checking x', link := some e' }) :
    Leaves c d k result (turn, k, t') := by
  have hExchange : d.job.exchange? = some x :=
    congrArg Job.exchange? hJob
  simp only [Uses, hJob, hLink] at hUses
  rcases w with ⟨n, usage⟩
  rcases hUses with ⟨s, hOn, hBusy⟩
  cases hBusy
  have hWorked :=
    Exchange.step_shows c .check
      (.ofSettings k.settings) now hOn hShows
  simp only [hJob, Job.purpose] at hStep
  rcases hStep with ⟨hStep, rfl⟩ | ⟨hStep, rfl⟩
  all_goals
    rw [hStep] at hWorked
    rcases hWorked with ⟨hOn', -, hShows'⟩
    apply leaves_of_quiet hShows' _ rfl
    · exact Story.arrivals_of_some hLink _
    · exact Story.turns_of_same hExchange rfl
    · exact ⟨s, hOn', rfl⟩

/- An exchange that is given up comes to nothing. -/
theorem result?_of_closing
    {c' : Connector (Taped W A) (Nat × L)}
    (hClosing : k.closing = true) :
    d.result? c' now k t = none := by
  unfold result?
  rw [hClosing]

/- What comes of the exchange that ends with a step. -/
theorem result?_eq
    (c' : Connector (Taped W A) (Nat × L))
    {x : Exchange}
    {outcome : Except ExchangeError Response}
    {t' : Taped W A}
    (hOpen : k.closing = false)
    (hExchange : d.job.exchange? = some x)
    (hLink : d.link = some e)
    (hStep :
      Exchange.step c' (.ofSettings k.settings) now x e t =
        (.done outcome, e', t')) :
    d.result? c' now k t = some outcome := by
  unfold result?
  rw [hOpen, hExchange, hLink]
  dsimp only
  rw [hStep]

/-
  Every step of a driver keeps to the discipline of the
  wire: each of its outcomes does.
-/
theorem step_shows
    (now : Nat)
    (hFits : d.Fits k.state)
    (hUses : d.Uses c.handshake w)
    (hShows : t.Shows c.profile c.handshake w) :
    Leaves c d k
      (d.result? (c.taped A d.job.purpose) now k t)
      (d.step (c.taped A d.job.purpose) now k t) := by
  have hOutcome :=
    step_outcome (c.taped A d.job.purpose) now t hFits
  generalize d.step (c.taped A d.job.purpose) now k t = r
    at hOutcome ⊢
  cases hOutcome with
  | finish hJob hState =>
      exact leaves_finish hFits hUses hShows hJob hState
  | bringUp hJob hLink hState =>
      exact leaves_bringUp hUses hShows hJob hLink
  | serve hJob hLink hState =>
      exact leaves_serve hUses hShows hJob hLink
  | check hJob hLink hState =>
      exact leaves_check hUses hShows hJob hLink
  | interrupt hJob hClosing =>
      rw [result?_of_closing hClosing]
      exact leaves_interrupt hFits hUses hShows hJob
  | seek hJob hStep =>
      exact leaves_seek hFits hUses hShows hJob hStep
  | linked hJob hStep =>
      exact leaves_linked hFits hUses hShows hJob hStep
  | expired hJob hStep =>
      exact leaves_expired hFits hUses hShows hJob hStep
  | skip hJob hQueue hGone =>
      exact leaves_skip hFits hUses hShows hJob hQueue hGone
  | take hJob hQueue hGone =>
      exact leaves_take hFits hUses hShows hJob hQueue hGone
  | watch hJob hLink hQueue hStep =>
      exact leaves_watch hUses hShows hJob hLink hStep
  | lost hJob hLink hQueue hStep =>
      exact leaves_unserved hFits hUses hShows hJob hLink hStep
  | exchange hJob hLink hStep =>
      exact leaves_exchange hUses hShows hJob hLink hStep
  | @settle r x e e' outcome t' hOpen hJob hLink hStep =>
      rw [result?_eq _ hOpen (congrArg Job.exchange? hJob) hLink
        hStep]
      rw [show d.job.purpose = .request r from
        congrArg Job.purpose hJob] at hStep
      exact leaves_settle hFits hUses hShows hJob hLink hStep
  | probe hJob hLink hStep =>
      exact leaves_probe hUses hShows hJob hLink hStep
  | settleCheck hOpen hJob hLink hStep =>
      rw [result?_eq _ hOpen (congrArg Job.exchange? hJob) hLink
        hStep]
      rw [show d.job.purpose = .check from
        congrArg Job.purpose hJob] at hStep
      exact leaves_settleCheck hFits hUses hShows hJob hLink
        hStep

end Steps

end Driver

end DeviceSession
