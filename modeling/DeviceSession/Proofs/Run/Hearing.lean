import DeviceSession.Proofs.Framing.Verdict
import DeviceSession.Proofs.Run.DriverStep
import DeviceSession.Proofs.Run.Inbox

/-
  What an exchange makes of the frames in an inbox.

  When a command is written, the assembler of the link has
  nothing in progress.  From then on the frames of the inbox
  are taken in one after another, also those that were there
  before, until they come to a verdict.

  Key definitions include:
    * `Exchange.Fresh`
    * `Exchange.Unread`
    * `Exchange.Hears`
    * `Heard`
    * `Exchange.Listens`

  Main declarations:
    * `Driver.step_fresh`
    * `Exchange.step_hears`
-/

------------------------------------------------------------
-- Assemblers of Links
------------------------------------------------------------

namespace DeviceSession

/- The assembler of a link is for its profile. -/
def HostEnd.Tuned
    {L : Type}
    (p : Profile)
    (e : HostEnd L) : Prop :=
  ∀ y ∈ e.codec, y.2.profile = p

/-
  While a command is being written, the assembler of the link
  has nothing in progress.
-/
def Exchange.Fresh
    {L : Type}
    (p : Profile)
    (x : Exchange)
    (e : HostEnd L) : Prop :=
  match x.phase with
  | .cutting _ => ∀ y ∈ e.codec, y.2 = .ofProfile p
  | .writing _ _ => ∀ y ∈ e.codec, y.2 = .ofProfile p
  | _ => e.Tuned p

section Fresh

variable {W L : Type}
variable {p : Profile} {x : Exchange} {e : HostEnd L}

theorem Exchange.Fresh.tuned (h : x.Fresh p e) :
    e.Tuned p := by
  have hTuned :
      (∀ y ∈ e.codec, y.2 = .ofProfile p) → e.Tuned p := by
    intro hAll y hy
    rw [hAll y hy]
    rfl
  unfold Fresh at h
  split at h
  · exact hTuned h
  · exact hTuned h
  · exact h

theorem Exchange.fresh_ofCommand
    (a : Apdu)
    (now timeout : Nat)
    (h : e.Tuned p) :
    (Exchange.ofCommand a now timeout).Fresh p e := h

/- A frame leaves an assembler for the same profile. -/
theorem Exchange.receive_fresh
    (x : Exchange)
    (frame : List UInt8)
    (h : e.Tuned p) :
    (x.receive e frame).2.Tuned p ∧
      ∀ x' ∈ (x.receive e frame).1.next?,
        x'.Fresh p (x.receive e frame).2 := by
  have hAgain :
      ∀ e' : HostEnd L, e'.Tuned p →
        ∀ x' ∈ (Turn.go (x.goto (.reading .first)) :
          Result).next?, x'.Fresh p e' := by
    intro e' h' x' hx'
    cases hx'
    exact h'
  unfold receive
  split
  · exact ⟨h, hAgain e h⟩
  · split
    · exact ⟨h, by simp [Turn.next?]⟩
    · rename_i s a hCodec
      have hProfile := a.feedResponse_profile frame
      have hTuned :
          HostEnd.Tuned p { e with
            codec := some (s, (a.feedResponse frame).2) } := by
        intro y hy
        cases hy
        exact hProfile.trans (h (s, a) hCodec)
      split
      all_goals
        rename_i hFeed
        rw [hFeed] at hTuned
        refine ⟨hTuned, ?_⟩
      · simp [Turn.next?]
      · exact hAgain _ hTuned
      · simp [Turn.next?]

/- To wait is to stay in a phase that is fit for it. -/
theorem Exchange.fresh_waiting
    {phase : Phase}
    (now : Nat)
    (h : (x.goto phase).Fresh p e) :
    ∀ x' ∈ (x.waiting now phase).next?, x'.Fresh p e := by
  intro x' hNext
  unfold waiting Turn.orAt at hNext
  dsimp only at hNext
  split at hNext
  · cases hNext
  · cases hNext
    exact h

/- The assembler of a command that starts has been reset. -/
theorem Exchange.fresh_reset
    {s : Slicer}
    {a : Assembler}
    (hTuned : e.Tuned p)
    (hCodec : e.codec = some (s, a))
    (rest : Slices) :
    (x.goto (.cutting rest)).Fresh p
      { e with codec := some (s, a.reset) } := by
  intro y hy
  cases hy
  rw [← hTuned (s, a) hCodec]
  rfl

/- An exchange keeps the assembler of its link so. -/
theorem Exchange.step_fresh
    (c : Connector W L)
    (policy : WritePolicy)
    (now : Nat)
    (w : W)
    (h : x.Fresh p e) :
    (Exchange.step c policy now x e w).2.1.Tuned p ∧
      ∀ x' ∈ (Exchange.step c policy now x e w).1.next?,
        x'.Fresh p (Exchange.step c policy now x e w).2.1 := by
  have hTuned := h.tuned
  unfold step
  unfold Fresh at h
  cases hPhase : x.phase with
  | start =>
      dsimp only
      split
      · exact ⟨hTuned, by simp [Turn.next?]⟩
      · rename_i s a hCodec
        have hReset :=
          fresh_reset (x := x) hTuned hCodec
            (s.command x.apdu)
        refine ⟨hReset.tuned, ?_⟩
        intro x' hNext
        cases hNext
        exact hReset
  | cutting rest =>
      rw [hPhase] at h
      dsimp only at h ⊢
      split
      all_goals
        refine ⟨hTuned, ?_⟩
        intro x' hNext
        cases hNext
      · exact hTuned
      · exact h
  | writing rest f =>
      rw [hPhase] at h
      dsimp only at h ⊢
      split
      · refine ⟨hTuned, ?_⟩
        intro x' hNext
        cases hNext
        exact h
      · exact ⟨hTuned, by simp [Turn.next?]⟩
      · refine ⟨hTuned, ?_⟩
        intro x' hNext
        cases hNext
        exact h
      · exact ⟨hTuned, fresh_waiting now h⟩
  | reading asked =>
      dsimp only
      split
      · exact ⟨hTuned, fresh_waiting now hTuned⟩
      · exact ⟨hTuned, by simp [Turn.next?]⟩
      · exact x.receive_fresh _ hTuned

/- The exchange that a step has come to, if it goes on. -/
theorem Exchange.Fresh.stepped
    {c : Connector W L}
    {policy : WritePolicy}
    {now : Nat}
    {w w' : W}
    {x' : Exchange}
    {e' : HostEnd L}
    (h : x.Fresh p e)
    (hStep :
      Exchange.step c policy now x e w = (.go x', e', w') ∨
        Exchange.step c policy now x e w =
          (.wait x', e', w')) :
    x'.Fresh p e' := by
  rcases Exchange.step_fresh c policy now w h with ⟨-, hKept⟩
  rcases hStep with hStep | hStep
  all_goals
    rw [hStep] at hKept
    exact hKept x' rfl

/- The link on which an exchange has ended. -/
theorem Exchange.Fresh.ended
    {c : Connector W L}
    {policy : WritePolicy}
    {now : Nat}
    {w w' : W}
    {e' : HostEnd L}
    {t : Result}
    (h : x.Fresh p e)
    (hStep :
      Exchange.step c policy now x e w = (t, e', w')) :
    e'.Tuned p := by
  rcases Exchange.step_fresh c policy now w h with ⟨hKept, -⟩
  rw [hStep] at hKept
  exact hKept

/- A link that has been set up has a fresh assembler. -/
theorem Setup.step_tuned
    (c : Connector W L)
    (policy : WritePolicy)
    (timeout now : Nat)
    (x : Setup)
    (w : W)
    (h : e.Tuned c.profile) :
    (Setup.step c policy timeout now x e w).2.1.Tuned
      c.profile := by
  have hSettle :
      ∀ mtu (e : HostEnd L), e.Tuned c.profile →
        (settle c.profile mtu e).2.Tuned c.profile := by
    intro mtu e h
    unfold settle
    split
    · intro y hy
      cases hy
      rfl
    · exact h
  unfold step
  cases x with
  | start =>
      have hNone :
          HostEnd.Tuned c.profile { e with codec := none } := by
        intro y hy
        cases hy
      dsimp only
      split
      · exact hSettle _ _ hNone
      · exact hNone
  | writing deadline f =>
      dsimp only
      split <;> exact h
  | reading deadline asked =>
      dsimp only
      split
      · exact h
      · exact h
      · split
        · split
          · exact hSettle _ _ h
          · exact h
        · exact h

/- The link that is being set up, if there is one. -/
def BringUp.link? (x : BringUp L) : Option (HostEnd L) :=
  match x.attempt with
  | .settingUp e _ => some e
  | _ => none

/- A link that has come up is as its setup has left it. -/
theorem BringUp.step_tuned
    (c : Connector W L)
    (now : Nat)
    (x : BringUp L)
    (k : Connection)
    (w : W)
    (h : ∀ e ∈ x.link?, e.Tuned c.profile) :
    (∀ x' ∈ (x.step c now k w).1.next?,
        ∀ e ∈ x'.link?, e.Tuned c.profile) ∧
      ∀ e, (x.step c now k w).1 = .done (.linked e) →
        e.Tuned c.profile := by
  have hAttempt :
      (∀ x' ∈ (x.attemptStep c now k w).1.next?,
          ∀ e ∈ x'.link?, e.Tuned c.profile) ∧
        ∀ e, (x.attemptStep c now k w).1 = .done (.linked e) →
          e.Tuned c.profile := by
    rcases x with ⟨deadline, number, attempt⟩
    cases attempt with
    | settingUp e x =>
        have hSetup :=
          Setup.step_tuned c (.ofSettings k.settings)
            k.settings.mtuHandshakeTimeout.toNat now x w
            (h e rfl)
        simp only [attemptStep]
        split
        all_goals
          rename_i hStep
          rw [hStep] at hSetup
        · simpa [Turn.next?, goto, link?] using hSetup
        · simpa [Turn.next?, goto, link?] using hSetup
        · simpa [Turn.next?] using hSetup
        · simp [Turn.next?, fail, goto, link?]
    | connecting asked =>
        simp only [attemptStep]
        split
        · simp [Turn.next?, goto, link?]
        · simp [Turn.next?, goto, link?, HostEnd.Tuned]
        · simp [Turn.next?, fail, goto, link?]
    | _ =>
        simp only [attemptStep, Turn.pause, again]
        repeat' split
        all_goals simp [Turn.next?, goto, link?]
  unfold step
  split
  · rename_i x' k' w' hStep
    rw [hStep] at hAttempt
    split
    · simp [Turn.next?]
    · exact hAttempt
  · exact hAttempt

end Fresh

------------------------------------------------------------
-- Fresh Assemblers Throughout
------------------------------------------------------------

namespace Driver

variable {W L : Type}

/- The link of a driver is as its job needs it. -/
def Fresh (p : Profile) (d : Driver L) : Prop :=
  match d.job with
  | .bringingUp x => ∀ e ∈ x.link?, e.Tuned p
  | .exchanging _ x => ∀ e ∈ d.link, x.Fresh p e
  | .checking x => ∀ e ∈ d.link, x.Fresh p e
  | _ => ∀ e ∈ d.link, e.Tuned p

/- An input of the lifecycle makes no link. -/
theorem feed_link_mem
    (c : Connector W L)
    (now : Nat)
    (input : LifecycleInput)
    (d : Driver L)
    (k : Connection)
    (w : W) :
    ∀ e ∈ (feed c now input d k w).1.link, e ∈ d.link := by
  simp only [feed, arrive, closeLink_eq]
  split
  · exact fun e he => he
  · split
    all_goals repeat' split
    all_goals first
      | exact fun e he => he
      | simp

/- The driver that a step leaves has its link so. -/
def Refreshes (p : Profile) (r : Result W L) : Prop :=
  ∀ d' ∈ r.1.next?, d'.Fresh p

section Outcomes

variable {c : Connector W L} {p : Profile}
variable {now : Nat}
variable {d : Driver L}
variable {k k' : Connection} {w w' : W}

theorem refreshes_feed
    {input : LifecycleInput}
    (h : ∀ e ∈ d.link, e.Tuned p) :
    Refreshes p (moved (feed c now input d k w)) := by
  intro d' hNext
  have hSame : (feed c now input d k w).1 = d' :=
    Option.some.inj hNext
  rw [← hSame, Fresh, feed_job]
  intro e he
  exact h e (feed_link_mem c now input d k w e he)

/- A step within a job for which the link is right. -/
theorem refreshes_of_turn
    {d' : Driver L}
    {t : Turn (Driver L) Unit}
    (hTurn : t = .go d' ∨ t = .wait d')
    (h : d'.Fresh p) :
    Refreshes p (t, k, w) := by
  intro d'' hNext
  rcases hTurn with rfl | rfl
  all_goals
    cases hNext
    exact h

/- The link that a driver uses has a tuned assembler. -/
theorem Fresh.tuned
    {s : Lifecycle}
    (hFits : d.Fits s)
    (h : d.Fresh p) :
    ∀ e ∈ d.link, e.Tuned p := by
  intro e he
  rcases d with ⟨link, job, failure⟩
  cases job with
  | idle => exact h e he
  | bringingUp x =>
      rcases hFits with ⟨hNone, -⟩
      cases hNone.symm.trans he
  | serving asked => exact h e he
  | exchanging r x => exact (h e he).tuned
  | checking x => exact (h e he).tuned

/- A link that is being set up stays so. -/
theorem refreshes_seek
    {x x' : BringUp L}
    {t : Turn (Driver L) Unit}
    (h : d.Fresh c.profile)
    (hJob : d.job = .bringingUp x)
    (hStep :
      x.step c now k w = (.go x', k', w') ∧
          t = .go (d.goto (.bringingUp x')) ∨
        x.step c now k w = (.wait x', k', w') ∧
          t = .wait (d.goto (.bringingUp x'))) :
    Refreshes c.profile (t, k', w') := by
  simp only [Fresh, hJob] at h
  rcases BringUp.step_tuned c now x k w h with ⟨hKept, -⟩
  rcases hStep with ⟨hStep, hTurn⟩ | ⟨hStep, hTurn⟩
  all_goals rw [hStep] at hKept
  · exact refreshes_of_turn (.inl hTurn) (hKept x' rfl)
  · exact refreshes_of_turn (.inr hTurn) (hKept x' rfl)

/- So is one that has come up. -/
theorem refreshes_linked
    {x : BringUp L}
    {e : HostEnd L}
    (h : d.Fresh c.profile)
    (hJob : d.job = .bringingUp x)
    (hStep : x.step c now k w = (.done (.linked e), k', w')) :
    Refreshes c.profile (moved (feed c now .reconnected
      { d with link := some e } k' w')) := by
  simp only [Fresh, hJob] at h
  rcases BringUp.step_tuned c now x k w h with ⟨-, hLinked⟩
  apply refreshes_feed
  intro e' he
  cases he
  exact hLinked e (congrArg Prod.fst hStep)

/- An exchange goes on, on the link it has. -/
theorem refreshes_exchange
    {x x' : Exchange}
    {e e' : HostEnd L}
    {job : Job L}
    {t : Turn (Driver L) Unit}
    (h : x.Fresh p e)
    (hJob :
      job = .checking x' ∨ ∃ r, job = .exchanging r x')
    (hStep :
      Exchange.step c (.ofSettings k.settings) now x e w =
            (.go x', e', w') ∧
          t = .go { d with job, link := some e' } ∨
        Exchange.step c (.ofSettings k.settings) now x e w =
            (.wait x', e', w') ∧
          t = .wait { d with job, link := some e' }) :
    Refreshes p (t, k, w') := by
  have hKept := h.stepped (hStep.imp And.left And.left)
  apply refreshes_of_turn (hStep.imp And.right And.right)
  rcases hJob with rfl | ⟨r, rfl⟩
  all_goals
    intro e'' he
    cases he
    exact hKept

/- An exchange ends, and the link may be used again. -/
theorem refreshes_settled
    {x : Exchange}
    {e e' : HostEnd L}
    {input : LifecycleInput}
    {outcome : Except ExchangeError Response}
    (h : x.Fresh p e)
    (hStep :
      Exchange.step c (.ofSettings k.settings) now x e w =
        (.done outcome, e', w')) :
    Refreshes p (moved (feed c now input
      { d with link := some e' } k' w')) := by
  apply refreshes_feed
  intro e'' he
  cases he
  exact h.ended hStep

end Outcomes

/- Every step of a driver leaves its link so. -/
theorem step_fresh
    (c : Connector W L)
    (now : Nat)
    {d : Driver L}
    {k : Connection}
    (w : W)
    (hFits : d.Fits k.state)
    (h : d.Fresh c.profile) :
    Refreshes c.profile (d.step c now k w) := by
  have hTuned := h.tuned hFits
  have hOutcome := step_outcome c now w hFits
  generalize d.step c now k w = result at hOutcome ⊢
  cases hOutcome with
  | finish hJob hState =>
      intro d' hNext
      cases hNext
  | bringUp hJob hLink hState =>
      apply refreshes_of_turn (.inl rfl)
      simp [Fresh, goto, BringUp.link?]
  | serve hJob hLink hState =>
      exact refreshes_of_turn (.inl rfl) hTuned
  | check hJob hLink hState =>
      apply refreshes_of_turn (.inl rfl)
      exact fun e he =>
        Exchange.fresh_ofCommand _ _ _ (hTuned e he)
  | interrupt hJob hClosing => exact refreshes_feed hTuned
  | seek hJob hStep => exact refreshes_seek h hJob hStep
  | linked hJob hStep => exact refreshes_linked h hJob hStep
  | expired hJob hStep => exact refreshes_feed hTuned
  | skip hJob hQueue hGone => exact refreshes_feed hTuned
  | take hJob hQueue hGone =>
      apply refreshes_of_turn (.inl rfl)
      exact fun e he =>
        Exchange.fresh_ofCommand _ _ _ (hTuned e he)
  | watch hJob hLink hQueue hStep =>
      exact refreshes_of_turn (hStep.imp And.right And.right)
        hTuned
  | lost hJob hLink hQueue hStep => exact refreshes_feed hTuned
  | exchange hJob hLink hStep =>
      simp only [Fresh, hJob] at h
      exact refreshes_exchange (h _ hLink) (.inr ⟨_, rfl⟩) hStep
  | settle hOpen hJob hLink hStep =>
      simp only [Fresh, hJob] at h
      exact refreshes_settled (h _ hLink) hStep
  | probe hJob hLink hStep =>
      simp only [Fresh, hJob] at h
      exact refreshes_exchange (h _ hLink) (.inl rfl) hStep
  | settleCheck hOpen hJob hLink hStep =>
      simp only [Fresh, hJob] at h
      exact refreshes_settled (h _ hLink) hStep

end Driver

------------------------------------------------------------
-- Frames of an Exchange
------------------------------------------------------------

/- The first of the frames come to a verdict. -/
def Heard
    (p : Profile)
    (frames : List (List UInt8))
    (v : Except FrameError Response) : Prop :=
  ∃ made,
    made <+: frames ∧
      (Assembler.ofProfile p).Makes (Mtu.dataFrames made) v

theorem Heard.later
    {p : Profile}
    {frames : List (List UInt8)}
    {v : Except FrameError Response}
    (h : Heard p frames v)
    (more : List (List UInt8)) :
    Heard p (frames ++ more) v := by
  rcases h with ⟨made, hMade, hVerdict⟩
  exact ⟨made, hMade.trans (List.prefix_append _ _), hVerdict⟩

namespace Exchange

variable {W L A : Type}

/- Nothing has been read for an exchange so far. -/
def Unread (x : Exchange) : Prop :=
  match x.phase with
  | .reading _ => False
  | _ => True

/-
  Of the frames for an exchange, those in the inbox have not
  been read, and the others have been taken in.
-/
def Hears
    (p : Profile)
    (frames inbox : List (List UInt8))
    (x : Exchange)
    (e : HostEnd L) : Prop :=
  match x.phase with
  | .start => e.Tuned p ∧ frames = inbox
  | _ =>
      ∃ seen,
        frames = seen ++ inbox ∧
          ∀ y ∈ e.codec,
            Assembler.Awaits p (Mtu.dataFrames seen) y.2

section Hears

variable {p : Profile} {frames inbox : List (List UInt8)}
variable {x : Exchange} {e : HostEnd L}

theorem hears_of_unread
    (hFresh : x.Fresh p e)
    (hUnread : x.Unread) :
    x.Hears p inbox inbox e := by
  have hNothing :
      (∀ y ∈ e.codec, y.2 = .ofProfile p) →
        ∃ seen,
          inbox = seen ++ inbox ∧
            ∀ y ∈ e.codec,
              Assembler.Awaits p (Mtu.dataFrames seen) y.2 := by
    intro hAll
    refine ⟨[], rfl, ?_⟩
    intro y hy
    rw [hAll y hy]
    exact Assembler.awaits_ofProfile p
  unfold Fresh at hFresh
  unfold Unread at hUnread
  unfold Hears
  cases hPhase : x.phase with
  | start =>
      rw [hPhase] at hFresh
      exact ⟨hFresh, rfl⟩
  | cutting rest =>
      rw [hPhase] at hFresh
      exact hNothing hFresh
  | writing rest f =>
      rw [hPhase] at hFresh
      exact hNothing hFresh
  | reading asked =>
      rw [hPhase] at hUnread
      exact absurd hUnread id

/- Frames that come in are for the exchange as well. -/
theorem Hears.arrive
    (h : x.Hears p frames inbox e)
    (more : List (List UInt8)) :
    x.Hears p (frames ++ more) (inbox ++ more) e := by
  have hMore :
      (∃ seen,
        frames = seen ++ inbox ∧
          ∀ y ∈ e.codec,
            Assembler.Awaits p (Mtu.dataFrames seen) y.2) →
        ∃ seen,
          frames ++ more = seen ++ (inbox ++ more) ∧
            ∀ y ∈ e.codec,
              Assembler.Awaits p (Mtu.dataFrames seen) y.2 := by
    rintro ⟨seen, rfl, hAwaits⟩
    exact ⟨seen, List.append_assoc .., hAwaits⟩
  unfold Hears at h ⊢
  split at h
  · exact ⟨h.1, by rw [h.2]⟩
  · exact hMore h

/-
  What is left of an exchange: it goes on with the frames on
  the same link, or has come to their verdict.
-/
def Takes
    (p : Profile)
    (frames inbox : List (List UInt8))
    (e : HostEnd L)
    (r : Result × HostEnd L) : Prop :=
  r.2.link = e.link ∧
    (∀ x' ∈ r.1.next?, x'.Hears p frames inbox r.2) ∧
      ∀ v,
        r.1 = .done (v.mapError .protocol) → Heard p frames v

/- It goes on. -/
theorem takes_go
    {x' : Exchange}
    {e' : HostEnd L}
    (hLink : e'.link = e.link)
    (h : x'.Hears p frames inbox e') :
    Takes p frames inbox e (.go x', e') := by
  refine ⟨hLink, ?_, by simp⟩
  intro x'' hNext
  cases hNext
  exact h

/- It ends, but not because of what it has read. -/
theorem takes_failed
    {err : ExchangeError}
    (hErr : ∀ err', err ≠ .protocol err') :
    Takes p frames inbox e (.done (.error err), e) := by
  refine ⟨rfl, by simp [Turn.next?], ?_⟩
  intro v hv
  cases v with
  | error err' =>
      cases hv
      exact absurd rfl (hErr err')
  | ok r => cases hv

/- It ends with what the frames come to. -/
theorem takes_done
    {e' : HostEnd L}
    {v : Except FrameError Response}
    (hLink : e'.link = e.link)
    (h : Heard p frames v) :
    Takes p frames inbox e
      (.done (v.mapError .protocol), e') := by
  refine ⟨hLink, by simp [Turn.next?], ?_⟩
  intro v' hv
  have hSame : v = v' := by
    cases v <;> cases v' <;> cases hv <;> rfl
  exact hSame ▸ h

/- It waits, or it is too late. -/
theorem takes_waiting
    {now : Nat}
    {phase : Phase}
    (h : (x.goto phase).Hears p frames inbox e) :
    Takes p frames inbox e (x.waiting now phase, e) := by
  unfold waiting Turn.orAt
  dsimp only
  split
  · exact takes_failed (by simp)
  · refine ⟨rfl, ?_, by simp⟩
    intro x' hNext
    cases hNext
    exact h

/- A frame that has been read is no longer in the inbox. -/
theorem hears_read
    {seen : List (List UInt8)}
    {frame : List UInt8}
    (hAwaits :
      ∀ y ∈ e.codec,
        Assembler.Awaits p
          (Mtu.dataFrames (seen ++ [frame])) y.2) :
    (x.goto (.reading .first)).Hears p
      (seen ++ frame :: inbox) inbox e :=
  ⟨seen ++ [frame], by simp, hAwaits⟩

/- A frame that is read is taken in, or ends the exchange. -/
theorem receive_takes
    (x : Exchange)
    (frame : List UInt8)
    {seen : List (List UInt8)}
    (hAwaits :
      ∀ y ∈ e.codec,
        Assembler.Awaits p (Mtu.dataFrames seen) y.2) :
    Takes p (seen ++ frame :: inbox) inbox e
      (x.receive e frame) := by
  unfold receive
  split
  · rename_i hSize
    refine takes_go rfl (hears_read ?_)
    intro y hy
    rw [Mtu.dataFrames_append]
    simpa [Mtu.dataFrames, hSize] using hAwaits y hy
  · rename_i hData
    have hFrames :
        Mtu.dataFrames (seen ++ [frame]) =
          Mtu.dataFrames seen ++ [frame] := by
      rw [Mtu.dataFrames_append]
      simp [Mtu.dataFrames, hData]
    split
    · exact takes_failed (by simp)
    · rename_i s a hCodec
      have hTaken := hAwaits (s, a) hCodec
      have hHeard :
          ∀ v, (a.feedResponse frame).1 = v.map some →
            Heard p (seen ++ frame :: inbox) v := by
        intro v hLast
        refine ⟨seen ++ [frame], by simp, ?_⟩
        rw [hFrames]
        exact hTaken.last hLast
      split
      · rename_i err a' hFeed
        apply takes_done (v := .error err) rfl
        apply hHeard
        rw [hFeed]
        rfl
      · rename_i a' hFeed
        refine takes_go rfl (hears_read ?_)
        intro y hy
        cases hy
        rw [hFrames]
        exact hTaken.more hFeed
      · rename_i r a' hFeed
        apply takes_done (v := .ok r) rfl
        apply hHeard
        rw [hFeed]
        rfl

end Hears

/- A frame of the command is written, or is still to be. -/
theorem inbox_frameWrite
    (b : Buffered W L A)
    (policy : WritePolicy)
    (l : L)
    (now : Nat)
    (x : FrameWrite)
    (w : W) :
    b.inbox l
        (FrameWrite.step b.connector policy l now x w).2 =
      b.inbox l w := by
  unfold FrameWrite.step
  cases x.pausedUntil with
  | some due => rfl
  | none =>
      have hWrite := b.inbox_write x.asked l x.frame w
      dsimp only
      generalize
        b.connector.write x.asked l x.frame w = result
        at hWrite ⊢
      rcases result with ⟨answer, w'⟩
      rcases answer with _ | (err | _)
      · exact hWrite
      · cases err with
        | disconnected => exact hWrite
        | _ => dsimp only; split <;> exact hWrite
      · exact hWrite

/- A write does not fail because of what was read. -/
theorem frameWrite_not_protocol
    (c : Connector W L)
    (policy : WritePolicy)
    (l : L)
    (now : Nat)
    (x : FrameWrite)
    (w : W)
    (err : FrameError) :
    (FrameWrite.step c policy l now x w).1 ≠
      .done (.error (.protocol err)) := by
  unfold FrameWrite.step
  cases x.pausedUntil with
  | some due =>
      dsimp only [Turn.pause]
      split <;> simp
  | none =>
      dsimp only
      generalize c.write x.asked l x.frame w = result
      rcases result with ⟨answer, w'⟩
      rcases answer with _ | (fault | _)
      · simp
      · cases fault with
        | disconnected => simp
        | _ => dsimp only; split <;> simp
      · simp

/- The same, with the inbox as it is in the new world. -/
def Listens
    (b : Buffered W L A)
    (frames : List (List UInt8))
    (e : HostEnd L)
    (r : Result × HostEnd L × W) : Prop :=
  Takes b.connector.profile frames (b.inbox e.link r.2.2) e
    (r.1, r.2.1)

section Outcomes

variable {b : Buffered W L A}
variable {policy : WritePolicy}
variable {now : Nat}
variable {frames : List (List UInt8)}
variable {x : Exchange} {e : HostEnd L}
variable {w : W}

/- The command starts with an assembler that is reset. -/
theorem start_listens
    (hPhase : x.phase = .start)
    (h : x.Hears b.connector.profile frames
      (b.inbox e.link w) e) :
    Listens b frames e
      (Exchange.step b.connector policy now x e w) := by
  unfold Hears at h
  unfold step
  rw [hPhase] at h ⊢
  rcases h with ⟨hTuned, hFrames⟩
  dsimp only
  split
  · exact takes_failed (by simp)
  · rename_i s a hCodec
    have hReset : a.reset = .ofProfile b.connector.profile := by
      rw [← hTuned (s, a) hCodec]
      rfl
    refine takes_go rfl ⟨[], hFrames, ?_⟩
    intro y hy
    cases hy
    change Assembler.Awaits _ _ a.reset
    rw [hReset]
    exact Assembler.awaits_ofProfile _

/- Frames are cut from the command; none is read. -/
theorem cutting_listens
    {rest : Slices}
    (hPhase : x.phase = .cutting rest)
    (h : x.Hears b.connector.profile frames
      (b.inbox e.link w) e) :
    Listens b frames e
      (Exchange.step b.connector policy now x e w) := by
  unfold Hears at h
  unfold step
  rw [hPhase] at h ⊢
  dsimp only at h ⊢
  split
  · exact takes_go rfl h
  · exact takes_go rfl h

/- A frame is written, and the inbox stays as it is. -/
theorem writing_listens
    {rest : Slices}
    {f : FrameWrite}
    (hPhase : x.phase = .writing rest f)
    (h : x.Hears b.connector.profile frames
      (b.inbox e.link w) e) :
    Listens b frames e
      (Exchange.step b.connector policy now x e w) := by
  have hWrite := inbox_frameWrite b policy e.link now f w
  unfold Hears at h
  unfold step
  rw [hPhase] at h ⊢
  rw [← hWrite] at h
  dsimp only at h ⊢
  split
  all_goals
    rename_i hStep
    rw [hStep] at h
  · exact takes_go rfl h
  · apply takes_failed
    intro err hErr
    apply frameWrite_not_protocol b.connector policy e.link now
      f w err
    rw [hStep, hErr]
  · exact takes_go rfl h
  · exact takes_waiting h

/- The oldest frame of the inbox is read, if there is one. -/
theorem reading_listens
    {asked : Asked}
    (hPhase : x.phase = .reading asked)
    (h : x.Hears b.connector.profile frames
      (b.inbox e.link w) e) :
    Listens b frames e
      (Exchange.step b.connector policy now x e w) := by
  unfold Hears at h
  unfold step
  rw [hPhase] at h ⊢
  rcases h with ⟨seen, hFrames, hAwaits⟩
  dsimp only
  split
  · rename_i w' hEvent
    have hInbox := b.inbox_pending asked e.link w w' hEvent
    exact takes_waiting
      ⟨seen, by rw [hInbox, hFrames], hAwaits⟩
  · exact takes_failed (by simp)
  · rename_i frame w' hEvent
    have hInbox := b.inbox_heard asked e.link w frame w' hEvent
    rw [hFrames, hInbox]
    exact x.receive_takes frame hAwaits

/-
  A step of an exchange takes frames in from the inbox in
  their order, and ends it with what they come to.
-/
theorem step_hears
    (policy : WritePolicy)
    (now : Nat)
    (h : x.Hears b.connector.profile frames
      (b.inbox e.link w) e) :
    Listens b frames e
      (Exchange.step b.connector policy now x e w) := by
  cases hPhase : x.phase with
  | start => exact start_listens hPhase h
  | cutting rest => exact cutting_listens hPhase h
  | writing rest f => exact writing_listens hPhase h
  | reading asked => exact reading_listens hPhase h

end Outcomes

end Exchange

end DeviceSession
