import DeviceSession.Proofs.Run.Clock
import DeviceSession.Proofs.Run.Erasure
import DeviceSession.Proofs.Run.Hearing
import DeviceSession.Proofs.Run.Machines

/-
  Who holds the links of a connection.

  Beside any world stands a list of the links that were
  opened and not given up since.  It holds what the driver
  has a handle of, and nothing else: the link in use, the one
  that is being set up, or none.  So a driver never opens a
  link while it holds one, and whatever a connector did in
  that case would make no difference to a run.

  Key definitions include:
    * `Custody`
    * `Connector.custody`
    * `Connector.guarded`
    * `Driver.handle?`

  Main declarations:
    * `Driver.step_held`
    * `Driver.step_guarded`
    * `Scenario.held_run`
    * `Scenario.run_guarded`
-/

------------------------------------------------------------
-- Links That Are Held
------------------------------------------------------------

namespace DeviceSession

/- A world, with the links that have not been given up. -/
structure Custody (W L : Type) where
  world : W
  held : List L := []

namespace Custody

variable {W L : Type}

/- The same links, in another world. -/
def put (t : Custody W L) (w : W) : Custody W L :=
  { t with world := w }

/- The world changes by itself. -/
def act
    {A : Type}
    (f : A → W → W)
    (a : A)
    (t : Custody W L) : Custody W L :=
  t.put (f a t.world)

end Custody

namespace Connector

variable {W L : Type}

/- The same links, which are held from opening to closing. -/
def custody
    [DecidableEq L]
    (c : Connector W L) : Connector (Custody W L) L where
  profile := c.profile
  handshake := c.handshake
  reach := fun asked t =>
    let (r, w) := c.reach asked t.world
    (r, t.put w)
  connect := fun asked t =>
    match c.connect asked t.world with
    | (some (.ok l), w) =>
        (some (.ok l), { world := w, held := t.held ++ [l] })
    | (r, w) => (r, t.put w)
  write := fun asked l frame t =>
    let (r, w) := c.write asked l frame t.world
    (r, t.put w)
  event := fun asked l t =>
    let (r, w) := c.event asked l t.world
    (r, t.put w)
  close := fun l t =>
    { world := c.close l t.world, held := t.held.erase l }

theorem custody_covers
    [DecidableEq L]
    (c : Connector W L) :
    c.custody.Covers c Custody.world id where
  profile := rfl
  handshake := rfl
  reach _ _ := rfl
  connect asked t := by
    simp only [custody]
    generalize c.connect asked t.world = result
    rcases result with ⟨r, w⟩
    rcases r with - | (e | l) <;> rfl
  write _ _ _ _ := rfl
  event _ _ _ := rfl
  close _ _ := rfl

/-
  The same links, except that another way to open them is
  taken when a world is not fit for it.
-/
def guarded
    (c : Connector W L)
    (fit : W → Bool)
    (other : Asked → W → Option (Except LinkError L) × W) :
    Connector W L :=
  { c with
    connect := fun asked w =>
      if fit w then c.connect asked w else other asked w }

end Connector

------------------------------------------------------------
-- Handles
------------------------------------------------------------

section Handles

variable {L : Type}

/- The link of the attempt that is under way. -/
def BringUp.handle? (x : BringUp L) : Option L :=
  x.link?.map HostEnd.link

/- The link that is left of bringing one up, by a step. -/
def BringUp.left? :
    Turn (BringUp L) (BringUp.Ending L) → Option L
  | .go x => x.handle?
  | .wait x => x.handle?
  | .done (.linked e) => some e.link
  | .done .expired => none

/- The link that a driver uses or brings up. -/
def Driver.handle? (d : Driver L) : Option L :=
  match d.job with
  | .bringingUp x => x.handle?
  | _ => d.link.map HostEnd.link

end Handles

------------------------------------------------------------
-- Steps on a Link
------------------------------------------------------------

section Steps

variable {W L : Type} [DecidableEq L]
variable (c : Connector W L)

theorem FrameWrite.step_held
    (p : WritePolicy)
    (l : L)
    (now : Nat)
    (x : FrameWrite)
    (w : Custody W L) :
    (FrameWrite.step c.custody p l now x w).2.held =
      w.held := by
  unfold step
  split
  · rfl
  · split
    all_goals
      rename_i hWrite
      have hHeld := congrArg (fun y => y.2.held) hWrite
    · exact hHeld.symm
    · exact hHeld.symm
    · exact hHeld.symm
    · split <;> exact hHeld.symm

theorem Setup.step_held
    (p : WritePolicy)
    (timeout now : Nat)
    (x : Setup)
    (e : HostEnd L)
    (w : Custody W L) :
    (Setup.step c.custody p timeout now x e w).2.2.held =
      w.held := by
  cases x with
  | start =>
      simp only [step]
      split <;> rfl
  | writing deadline x =>
      have hWrite := FrameWrite.step_held c p e.link now x w
      simp only [step]
      split
      all_goals
        rename_i hStep
        rw [hStep] at hWrite
        exact hWrite
  | reading deadline asked =>
      simp only [step]
      split
      all_goals
        rename_i hEvent
        have hHeld := congrArg (fun y => y.2.held) hEvent
      · exact hHeld.symm
      · exact hHeld.symm
      · split
        · split <;> exact hHeld.symm
        · exact hHeld.symm

theorem Exchange.step_held
    (p : WritePolicy)
    (now : Nat)
    (x : Exchange)
    (e : HostEnd L)
    (w : Custody W L) :
    (Exchange.step c.custody p now x e w).2.2.held =
      w.held := by
  unfold step
  split
  · split <;> rfl
  · split <;> rfl
  · rename_i rest f hPhase
    have hWrite := FrameWrite.step_held c p e.link now f w
    split
    all_goals
      rename_i hStep
      rw [hStep] at hWrite
      exact hWrite
  · split
    all_goals
      rename_i hEvent
      have hHeld := congrArg (fun y => y.2.held) hEvent
      exact hHeld.symm

theorem Watch.step_held
    (asked : Asked)
    (e : HostEnd L)
    (w : Custody W L) :
    (Watch.step c.custody asked e w).2.held = w.held := by
  unfold step
  split
  all_goals
    rename_i hEvent
    have hHeld := congrArg (fun y => y.2.held) hEvent
    exact hHeld.symm

omit [DecidableEq L] in
/- An exchange stays on its link. -/
theorem Exchange.step_link
    (p : WritePolicy)
    (now : Nat)
    (x : Exchange)
    (e : HostEnd L)
    (w : W) :
    (Exchange.step c p now x e w).2.1.link = e.link := by
  unfold step
  split
  · split <;> rfl
  · split <;> rfl
  · split <;> rfl
  · split
    · rfl
    · rfl
    · simp only [receive]
      repeat' split
      all_goals rfl

/- The link of an exchange is held all along. -/
theorem Exchange.step_keeps_held
    (p : WritePolicy)
    (now : Nat)
    (x : Exchange)
    (e : HostEnd L)
    {w : Custody W L}
    (hHeld : w.held = [e.link]) :
    (Exchange.step c.custody p now x e w).2.2.held =
      [(Exchange.step c.custody p now x e w).2.1.link] := by
  rw [x.step_held c, x.step_link c.custody, hHeld]

------------------------------------------------------------
-- Bringing Up a Link
------------------------------------------------------------

theorem BringUp.abort_held
    (x : BringUp L)
    {w : Custody W L}
    (hHeld : w.held = x.handle?.toList) :
    (x.abort c.custody w).held = [] := by
  rcases x with ⟨deadline, number, attempt⟩
  cases attempt with
  | settingUp e x =>
      change w.held.erase e.link = []
      rw [hHeld]
      exact List.erase_cons_head _ _
  | _ => exact hHeld

theorem BringUp.attemptStep_held
    (now : Nat)
    (x : BringUp L)
    (k : Connection)
    {w : Custody W L}
    (hHeld : w.held = x.handle?.toList) :
    (x.attemptStep c.custody now k w).2.2.held =
      (left? (x.attemptStep c.custody now k w).1).toList := by
  rcases x with ⟨deadline, number, attempt⟩
  cases attempt with
  | reaching asked =>
      simp only [attemptStep]
      split
      all_goals
        rename_i hReach
        have hSame := congrArg (fun y => y.2.held) hReach
        exact hSame.symm.trans hHeld
  | fallingBack due =>
      simp only [attemptStep, Turn.pause]
      split <;> exact hHeld
  | connecting asked =>
      have hNone : w.held = [] := hHeld
      simp only [attemptStep, Connector.custody]
      generalize c.connect asked w.world = result
      rcases result with ⟨r, w'⟩
      rcases r with - | (e | l)
      · exact hNone
      · exact hNone
      · change w.held ++ [l] = [l]
        rw [hNone, List.nil_append]
  | settingUp e s =>
      have hOne : w.held = [e.link] := hHeld
      simp only [attemptStep]
      generalize hPolicy : WritePolicy.ofSettings k.settings = p
      generalize k.settings.mtuHandshakeTimeout.toNat = timeout
      have hStep := Setup.step_held c p timeout now s e w
      have hLink :=
        Setup.step_link c.custody p timeout now s e w
      rw [hOne, ← hLink] at hStep
      split
      all_goals
        rename_i hResult
        rw [hResult] at hStep
      · exact hStep
      · exact hStep
      · exact hStep
      · rename_i e' w'
        change w'.held.erase e'.link = []
        rw [hStep]
        exact List.erase_cons_head _ _
  | pausing due =>
      simp only [attemptStep, Turn.pause, again]
      repeat' split
      all_goals exact hHeld
  | overflowed => exact hHeld

theorem BringUp.step_held
    (now : Nat)
    (x : BringUp L)
    (k : Connection)
    {w : Custody W L}
    (hHeld : w.held = x.handle?.toList) :
    (x.step c.custody now k w).2.2.held =
      (left? (x.step c.custody now k w).1).toList := by
  have hAttempt := x.attemptStep_held c now k hHeld
  unfold step
  split
  · rename_i x' k' w' hStep
    rw [hStep] at hAttempt
    split
    · exact x'.abort_held c hAttempt
    · exact hAttempt
  · exact hAttempt

------------------------------------------------------------
-- Steps of a Driver
------------------------------------------------------------

namespace Driver

theorem hungUp_held
    (d : Driver L)
    {w : Custody W L}
    (hHeld : w.held = (d.link.map HostEnd.link).toList) :
    (d.hungUp c.custody w).held = [] := by
  rcases d with ⟨link, job, failure⟩
  cases link with
  | none => exact hHeld
  | some e =>
      change w.held.erase e.link = []
      rw [hHeld]
      exact List.erase_cons_head _ _

/- What is held after a step is what the driver has then. -/
def Keeps : Result (Custody W L) L → Prop
  | (t, _, w) => w.held = (t.next?.bind handle?).toList

section Outcomes

variable {c : Connector W L}
variable {now : Nat}
variable {d : Driver L}
variable {k k' : Connection} {w w' : Custody W L}

theorem keeps_feed
    {input : LifecycleInput}
    (hInput : Concerns input d k.state)
    (hHeld : w.held = (d.link.map HostEnd.link).toList) :
    Keeps (moved (feed c.custody now input d k w)) := by
  cases hNew :
      (k.state.next input now
        k.settings.reconnectBudget.toNat).isLinked with
  | true =>
      rcases feed_of_linked c.custody now w hInput hNew with
        ⟨failure, hDriver, hWorld⟩
      change (feed c.custody now input d k w).2.2.held =
        (handle? (feed c.custody now input d k w).1).toList
      rw [hDriver, hWorld]
      exact hHeld
  | false =>
      rcases feed_of_unlinked c.custody now w hInput hNew with
        ⟨failure, hDriver, hWorld⟩
      change (feed c.custody now input d k w).2.2.held =
        (handle? (feed c.custody now input d k w).1).toList
      rw [hDriver, hWorld]
      exact d.hungUp_held c hHeld

omit [DecidableEq L] in
/- A driver that does not bring up a link has the one in use. -/
theorem handle?_of_job
    (hJob : ∀ x, d.job ≠ .bringingUp x) :
    d.handle? = d.link.map HostEnd.link := by
  unfold handle?
  split
  · rename_i x hOther
    exact absurd hOther (hJob x)
  · rfl

omit [DecidableEq L] in
/- So the link in use is what is held. -/
theorem held_of_job
    (hHeld : w.held = d.handle?.toList)
    (hJob : ∀ x, d.job ≠ .bringingUp x) :
    w.held = (d.link.map HostEnd.link).toList := by
  rw [hHeld, handle?_of_job hJob]

omit [DecidableEq L] in
/- While a link is brought up, it is that of the attempt. -/
theorem held_of_bringingUp
    {x : BringUp L}
    (hHeld : w.held = d.handle?.toList)
    (hJob : d.job = .bringingUp x) :
    w.held = x.handle?.toList := by
  rw [hHeld, handle?, hJob]

/- Giving up an attempt leaves what is in use. -/
theorem aborted_held
    (hFits : d.Fits k.state)
    (hHeld : w.held = d.handle?.toList) :
    (d.aborted c.custody w).held =
      (d.link.map HostEnd.link).toList := by
  unfold aborted
  split
  · rename_i x hJob
    rw [hFits.link_of_bringingUp hJob]
    exact x.abort_held c (held_of_bringingUp hHeld hJob)
  · rename_i hJob
    exact held_of_job hHeld hJob

/- A step of an attempt is what its link makes of it. -/
theorem keeps_seek
    {x x' : BringUp L}
    {t : Turn (Driver L) Unit}
    (hHeld : w.held = d.handle?.toList)
    (hJob : d.job = .bringingUp x)
    (hStep :
      x.step c.custody now k w = (.go x', k', w') ∧
          t = .go (d.goto (.bringingUp x')) ∨
        x.step c.custody now k w = (.wait x', k', w') ∧
          t = .wait (d.goto (.bringingUp x'))) :
    Keeps (t, k', w') := by
  have hNext :=
    x.step_held c now k (held_of_bringingUp hHeld hJob)
  rcases hStep with ⟨hStep, rfl⟩ | ⟨hStep, rfl⟩
  all_goals
    rw [hStep] at hNext
    exact hNext

/- The link that has come up is held, and in use. -/
theorem keeps_linked
    {x : BringUp L}
    {e : HostEnd L}
    (hFits : d.Fits k.state)
    (hHeld : w.held = d.handle?.toList)
    (hJob : d.job = .bringingUp x)
    (hStep :
      x.step c.custody now k w = (.done (.linked e), k', w')) :
    Keeps (moved (feed c.custody now .reconnected
      { d with link := some e } k' w')) := by
  have hNext :=
    x.step_held c now k (held_of_bringingUp hHeld hJob)
  rw [hStep] at hNext
  exact keeps_feed (hFits.concerns_linked hJob hStep) hNext

/- If none has, then none is held. -/
theorem keeps_expired
    {x : BringUp L}
    (hFits : d.Fits k.state)
    (hHeld : w.held = d.handle?.toList)
    (hJob : d.job = .bringingUp x)
    (hStep :
      x.step c.custody now k w = (.done .expired, k', w')) :
    Keeps (moved (feed c.custody now .budgetExpired d k'
      w')) := by
  have hNext :=
    x.step_held c now k (held_of_bringingUp hHeld hJob)
  rw [hStep] at hNext
  apply keeps_feed (hFits.concerns_expired hStep)
  rw [hFits.link_of_bringingUp hJob]
  exact hNext

/- To watch a link is to hold it. -/
theorem keeps_watch
    {asked asked' : Asked}
    {e : HostEnd L}
    {t : Turn (Driver L) Unit}
    (hHeld : w.held = (d.link.map HostEnd.link).toList)
    (hStep :
      Watch.step c.custody asked e w = (.go asked', w') ∧
          t = .go (d.goto (.serving asked')) ∨
        Watch.step c.custody asked e w = (.wait asked', w') ∧
          t = .wait (d.goto (.serving asked'))) :
    Keeps (t, k, w') := by
  have hSame := Watch.step_held c asked e w
  rw [hHeld] at hSame
  rcases hStep with ⟨hStep, rfl⟩ | ⟨hStep, rfl⟩
  all_goals
    rw [hStep] at hSame
    exact hSame

/- What was held until the link was lost is given up now. -/
theorem keeps_lost
    {asked : Asked}
    {e : HostEnd L}
    (hFits : d.Fits k.state)
    (hHeld : w.held = (d.link.map HostEnd.link).toList)
    (hStep :
      Watch.step c.custody asked e w = (.done (), w')) :
    Keeps (moved (feed c.custody now .linkLost d k w')) := by
  have hSame := Watch.step_held c asked e w
  rw [hStep, hHeld] at hSame
  exact keeps_feed (hFits.concerns rfl (by simp)) hSame

/- A step of an exchange leaves a driver on the same link. -/
theorem keeps_exchange
    {p : WritePolicy}
    {x x' : Exchange}
    {e e' : HostEnd L}
    {t : Turn (Driver L) Unit}
    {job : Job L}
    (hHeld : w.held = (d.link.map HostEnd.link).toList)
    (hLink : d.link = some e)
    (hBusy : ∀ y, job ≠ .bringingUp y)
    (hStep :
      Exchange.step c.custody p now x e w =
            (.go x', e', w') ∧
          t = .go { d with job, link := some e' } ∨
        Exchange.step c.custody p now x e w =
            (.wait x', e', w') ∧
          t = .wait { d with job, link := some e' }) :
    Keeps (t, k, w') := by
  rw [hLink] at hHeld
  have hSame := x.step_keeps_held c p now e hHeld
  have hHandle :
      handle? { d with job, link := some e' } =
        some e'.link :=
    handle?_of_job hBusy
  rcases hStep with ⟨hStep, rfl⟩ | ⟨hStep, rfl⟩
  all_goals
    rw [hStep] at hSame
    unfold Keeps
    simp only [Turn.next?, Option.bind_some]
    rw [hHandle]
    exact hSame

/- So does its end, before anything comes of it. -/
theorem keeps_settled
    {p : WritePolicy}
    {x : Exchange}
    {e e' : HostEnd L}
    {input : LifecycleInput}
    {result : Except ExchangeError Response}
    (hHeld : w.held = (d.link.map HostEnd.link).toList)
    (hLink : d.link = some e)
    (hInput : Concerns input { d with link := some e' } k.state)
    (hStep :
      Exchange.step c.custody p now x e w =
        (.done result, e', w')) :
    Keeps (moved (feed c.custody now input
      { d with link := some e' } k w')) := by
  rw [hLink] at hHeld
  have hSame := x.step_keeps_held c p now e hHeld
  rw [hStep] at hSame
  exact keeps_feed hInput hSame

end Outcomes

/- A step of a driver leaves held what it has then. -/
theorem step_held
    (now : Nat)
    {d : Driver L}
    {k : Connection}
    {w : Custody W L}
    (hFits : d.Fits k.state)
    (hHeld : w.held = d.handle?.toList) :
    Keeps (d.step c.custody now k w) := by
  have hOutcome := step_outcome c.custody now w hFits
  generalize d.step c.custody now k w = result
    at hOutcome ⊢
  have hUsed := held_of_job hHeld
  cases hOutcome with
  | finish hJob hState =>
      have hUnlinked := hFits.link
      rw [hState] at hUnlinked
      have hNone := Option.not_isSome_iff_eq_none.mp
        (Bool.eq_false_iff.mp hUnlinked)
      rw [hNone] at hUsed
      exact hUsed (by simp [hJob])
  | bringUp hJob hLink hState =>
      rw [hLink] at hUsed
      exact hUsed (by simp [hJob])
  | serve hJob hLink hState => exact hUsed (by simp [hJob])
  | check hJob hLink hState => exact hUsed (by simp [hJob])
  | interrupt hJob hClosing =>
      exact keeps_feed hFits.concerns_close
        (aborted_held hFits hHeld)
  | seek hJob hStep => exact keeps_seek hHeld hJob hStep
  | linked hJob hStep => exact keeps_linked hFits hHeld hJob hStep
  | expired hJob hStep =>
      exact keeps_expired hFits hHeld hJob hStep
  | skip hJob hQueue hGone =>
      exact keeps_feed (hFits.concerns rfl (by simp))
        (hUsed (by simp [hJob]))
  | take hJob hQueue hGone => exact hUsed (by simp [hJob])
  | watch hJob hLink hQueue hStep =>
      exact keeps_watch (hUsed (by simp [hJob])) hStep
  | lost hJob hLink hQueue hStep =>
      exact keeps_lost hFits (hUsed (by simp [hJob])) hStep
  | exchange hJob hLink hStep =>
      exact keeps_exchange (hUsed (by simp [hJob])) hLink
        (by simp) hStep
  | settle hOpen hJob hLink hStep =>
      exact keeps_settled (hUsed (by simp [hJob])) hLink
        (hFits.concerns_settle hLink _ _) hStep
  | probe hJob hLink hStep =>
      exact keeps_exchange (hUsed (by simp [hJob])) hLink
        (by simp) hStep
  | settleCheck hOpen hJob hLink hStep =>
      exact keeps_settled (hUsed (by simp [hJob])) hLink
        (hFits.concerns_settleCheck hLink _) hStep

end Driver

end Steps

------------------------------------------------------------
-- Steps That Open a Link
------------------------------------------------------------

section Guards

variable {W L : Type}
variable {c : Connector W L} {fit : W → Bool}
variable {other : Asked → W → Option (Except LinkError L) × W}

/- The next thing that is done is to open a link. -/
def BringUp.Opens (x : BringUp L) : Prop :=
  ∃ asked, x.attempt = .connecting asked

/- The same for a driver that has no wish to heed. -/
def Driver.Opens (d : Driver L) (k : Connection) : Prop :=
  k.closing = false ∧ ∃ x, d.job = .bringingUp x ∧ x.Opens

theorem BringUp.step_guarded
    (now : Nat)
    (x : BringUp L)
    (k : Connection)
    {w : W}
    (hFit : x.Opens → fit w = true) :
    x.step (c.guarded fit other) now k w =
      x.step c now k w := by
  have hAttempt :
      x.attemptStep (c.guarded fit other) now k w =
        x.attemptStep c now k w := by
    rcases x with ⟨deadline, number, attempt⟩
    cases attempt with
    | connecting asked =>
        have hConnect :
            (c.guarded fit other).connect asked w =
              c.connect asked w :=
          if_pos (hFit ⟨asked, rfl⟩)
        simp only [attemptStep, hConnect]
    | _ => rfl
  unfold step
  rw [hAttempt]
  rfl

/- Nothing else asks for a link. -/
theorem Driver.step_guarded
    (now : Nat)
    (d : Driver L)
    (k : Connection)
    {w : W}
    (hFit : d.Opens k → fit w = true) :
    d.step (c.guarded fit other) now k w =
      d.step c now k w := by
  rcases d with ⟨link, job, failure⟩
  cases job with
  | bringingUp x =>
      simp only [step]
      cases hClosing : k.closing with
      | true => rfl
      | false =>
          have hStep :
              x.step (c.guarded fit other) now k w =
                x.step c now k w :=
            x.step_guarded now k
              fun hOpens => hFit ⟨hClosing, x, rfl, hOpens⟩
          simp only [work, hStep]
          rfl
  | idle => rfl
  | serving asked => cases link <;> rfl
  | exchanging r x => cases link <;> rfl
  | checking x => cases link <;> rfl

/- A driver that opens a link has none. -/
theorem Driver.handle?_of_opens
    {d : Driver L}
    {k : Connection}
    (hOpens : d.Opens k) :
    d.handle? = none := by
  rcases hOpens with ⟨-, x, hJob, asked, hAttempt⟩
  simp only [handle?, hJob, BringUp.handle?, BringUp.link?,
    hAttempt, Option.map_none]

end Guards

------------------------------------------------------------
-- Runs
------------------------------------------------------------

namespace Scenario

variable {W L A : Type} [DecidableEq L]

/- What is held is what the driver has a handle of. -/
def Held (s : Scenario (Custody W L) L) : Prop :=
  s.world.held = (s.driver.bind Driver.handle?).toList

theorem held_step
    (c : Connector W L)
    (act : A → W → W)
    {s : Scenario (Custody W L) L}
    (hStaffed : s.Staffed)
    (hHeld : s.Held)
    (m : Move A) :
    (s.step c.custody (Custody.act act) m).Held := by
  cases m with
  | drive =>
      cases hDriver : s.driver with
      | none =>
          rw [step, drive_of_none hDriver]
          exact hHeld
      | some d =>
          unfold Held at hHeld
          rw [hDriver] at hHeld
          have hStep :=
            Driver.step_held c s.now (hStaffed.fits d hDriver)
              hHeld
          simp only [step, drive, hDriver]
          exact hStep
  | _ => exact hHeld

theorem held_run
    (c : Connector W L)
    (act : A → W → W)
    (settings : Settings)
    (now : Nat)
    (w : W)
    (moves : List (Move A)) :
    ((start settings now { world := w }).run c.custody
      (Custody.act act) moves).Held := by
  induction moves using List.reverseRecOn with
  | nil => rfl
  | append_singleton before m ih =>
      rw [run_append]
      exact held_step c act
        (staffed_run c.custody (Custody.act act) settings now _
          before) ih m

/- Without the list, a run is the one of the same moves. -/
theorem map_custody_run
    (c : Connector W L)
    (act : A → W → W)
    (s : Scenario (Custody W L) L)
    (moves : List (Move A)) :
    (s.run c.custody (Custody.act act) moves).map
        Custody.world id =
      (s.map Custody.world id).run c act moves := by
  induction moves generalizing s with
  | nil => rfl
  | cons m moves ih =>
      refine (ih _).trans (congrArg (run c act · moves) ?_)
      cases m with
      | drive => exact (drive_map c.custody_covers s).symm
      | _ => rfl

/-
  A driver never opens a link while one is held.  Whatever
  would come of that, by another way to open links, does not
  come up.
-/
theorem run_guarded
    (c : Connector W L)
    (act : A → W → W)
    (settings : Settings)
    (now : Nat)
    (w : W)
    {P : Custody W L → Prop}
    {fit : Custody W L → Bool}
    (hFit : ∀ t, P t → t.held = [] → fit t = true)
    (other :
      Asked → Custody W L →
        Option (Except LinkError L) × Custody W L)
    (moves : List (Move A))
    (hAlways :
      ∀ before, before <+: moves →
        P ((start settings now { world := w }).run c.custody
          (Custody.act act) before).world) :
    (start settings now { world := w }).run
        (c.custody.guarded fit other) (Custody.act act) moves =
      (start settings now { world := w }).run c.custody
        (Custody.act act) moves := by
  induction moves using List.reverseRecOn with
  | nil => rfl
  | append_singleton before m ih =>
      have hBefore :=
        ih fun earlier hEarlier =>
          hAlways earlier
            (hEarlier.trans (List.prefix_append _ _))
      have hHeld := held_run c act settings now w before
      have hWorld := hAlways before (List.prefix_append _ _)
      rw [run_append, run_append, hBefore]
      generalize (start settings now { world := w }).run
        c.custody (Custody.act act) before = s at hHeld hWorld ⊢
      cases m with
      | drive =>
          change s.drive _ = s.drive _
          cases hDriver : s.driver with
          | none =>
              rw [drive_of_none hDriver, drive_of_none hDriver]
          | some d =>
              have hStep :
                  d.step (c.custody.guarded fit other) s.now
                      s.connection s.world =
                    d.step c.custody s.now s.connection
                      s.world := by
                apply d.step_guarded
                intro hOpens
                apply hFit _ hWorld
                unfold Held at hHeld
                rw [hDriver] at hHeld
                rw [hHeld]
                exact congrArg Option.toList
                  (Driver.handle?_of_opens hOpens)
              simp only [drive, hDriver, hStep]
      | _ => rfl

end Scenario

end DeviceSession
