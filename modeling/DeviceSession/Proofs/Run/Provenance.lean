import Mathlib.Data.List.Induction
import DeviceSession.Proofs.Run.Soundness

/-
  Which frames an answer is made of.

  An exchange forgets the response in progress when it
  begins, but not the frames that wait in the inbox.  So the
  answer to a request is what the frames come to that were
  left over there, followed by those that came in later.  It
  is made of later frames only exactly when none but frames
  about the frame size were left over.

  Key definitions include:
    * `Scenario.Sending`
    * `Buffered.Follows`
    * `Provenance`
    * `Buffered.Explains`

  Main declarations:
    * `Driver.step_exchanging`
    * `Buffered.follows_run`
    * `Buffered.tells_run`
    * `Buffered.run_explained`
-/

------------------------------------------------------------
-- Exchanges in Runs
------------------------------------------------------------

namespace DeviceSession

namespace Driver

variable {W L : Type}

/- What a caller is told of a verdict comes of that verdict. -/
theorem settle_eq
    {r : Request}
    {result : Except ExchangeError Response}
    {v : Except FrameError Response}
    (h : (settle r result).1 = v.mapError .protocol) :
    result = v.mapError .protocol := by
  rcases result with err | x
  · cases err with
    | protocol err =>
        cases v <;> cases h
        rfl
    | _ => cases v <;> cases h
  · cases v <;> cases h
    rfl

/-
  A driver with a request on the link goes on with it, or
  answers it, with a verdict only if the exchange has come
  to that verdict.
-/
theorem step_exchanging
    (c : Connector W L)
    (now : Nat)
    {d : Driver L}
    {k : Connection}
    {r : Request}
    {x : Exchange}
    {e : HostEnd L}
    (w : W)
    (hJob : d.job = .exchanging r x)
    (hLink : d.link = some e) :
    (∃ x' e' w',
        (Exchange.step c (.ofSettings k.settings) now x e w =
              (.go x', e', w') ∨
            Exchange.step c (.ofSettings k.settings) now x e w =
              (.wait x', e', w')) ∧
          (d.step c now k w).1.next? =
              some { d with
                job := .exchanging r x', link := some e' } ∧
            (d.step c now k w).2 = (k, w')) ∨
      ∃ a,
        (d.step c now k w).2.1.slots = (k.answer r a).slots ∧
          ∀ v : Except FrameError Response,
            a = v.mapError .protocol →
              (Exchange.step c (.ofSettings k.settings) now x e
                w).1 = .done (v.mapError .protocol) := by
  rcases d with ⟨link, job, failure⟩
  cases hJob
  cases hLink
  simp only [step]
  by_cases hClosing : k.closing = true
  · rw [if_pos hClosing]
    right
    rcases feed_connection c now .closeRequested
        ⟨some e, .exchanging r x, failure⟩
        (Connection.answer { k with closing := false } r
          (.error .terminated)) w with
      ⟨events, hk⟩
    refine ⟨.error .terminated,
      (congrArg Connection.slots hk).trans rfl, ?_⟩
    intro v hv
    cases v <;> cases hv
  · rw [if_neg hClosing]
    simp only [work]
    rcases hStep :
        Exchange.step c (.ofSettings k.settings) now x e w
      with ⟨t, e', w'⟩
    cases t with
    | go x' => exact .inl ⟨x', e', w', .inl rfl, rfl, rfl⟩
    | wait x' => exact .inl ⟨x', e', w', .inr rfl, rfl, rfl⟩
    | done result =>
        right
        rcases feed_connection c now (settle r result).2
            ⟨some e', .exchanging r x, failure⟩
            (k.answer r (settle r result).1) w' with
          ⟨events, hk⟩
        refine ⟨(settle r result).1,
          (congrArg Connection.slots hk).trans rfl, ?_⟩
        intro v hv
        rw [settle_eq hv]

end Driver

------------------------------------------------------------
-- Frames for a Request
------------------------------------------------------------

/- A request is on a link; nothing has been read for it. -/
def Scenario.Sending
    {W L : Type}
    (s : Scenario W L)
    (r : Request)
    (l : L) : Prop :=
  ∃ d x e,
    s.driver = some d ∧ d.job = .exchanging r x ∧
      d.link = some e ∧ e.link = l ∧ x.Unread

namespace Buffered

variable {W L A : Type}

/-
  A request is being answered with what the frames come to
  that are for it, or it has been answered.
-/
inductive Follows
    (b : Buffered W L A)
    (r : Request)
    (l : L)
    (frames : List (List UInt8))
    (s : Scenario W L) : Prop where
  | pending
      {d : Driver L}
      {x : Exchange}
      {e : HostEnd L}
      (hDriver : s.driver = some d)
      (hJob : d.job = .exchanging r x)
      (hLink : d.link = some e)
      (hSame : e.link = l)
      (hHears :
        x.Hears b.connector.profile frames (b.inbox l s.world)
          e)
  | answered
      {a : Answer}
      (hAnswer : s.connection.answersTo r.id = [a])
      (hHeard :
        ∀ v : Except FrameError Response,
          a = v.mapError .protocol →
            Heard b.connector.profile frames v)

theorem follows_of_sending
    {b : Buffered W L A}
    {r : Request}
    {l : L}
    {s : Scenario W L}
    (hFresh :
      ∀ d ∈ s.driver, d.Fresh b.connector.profile)
    (hSending : s.Sending r l) :
    b.Follows r l (b.inbox l s.world) s := by
  rcases hSending with
    ⟨d, x, e, hDriver, hJob, hLink, hSame, hUnread⟩
  have hExchange := hFresh d hDriver
  simp only [Driver.Fresh, hJob] at hExchange
  exact .pending hDriver hJob hLink hSame
    (Exchange.hears_of_unread (hExchange e hLink) hUnread)

/- What else happens changes neither driver nor answers. -/
theorem Follows.congr
    {b : Buffered W L A}
    {r : Request}
    {l : L}
    {frames : List (List UInt8)}
    {s s' : Scenario W L}
    (h : b.Follows r l frames s)
    (hDriver : s'.driver = s.driver)
    (hWorld : s'.world = s.world)
    (hAnswers :
      s'.connection.answersTo r.id =
        s.connection.answersTo r.id) :
    b.Follows r l frames s' := by
  cases h with
  | pending hDriver' hJob hLink hSame hHears =>
      rw [← hWorld] at hHears
      exact .pending (hDriver.trans hDriver') hJob hLink hSame
        hHears
  | answered hAnswer hHeard =>
      exact .answered (hAnswers.trans hAnswer) hHeard

/- A step of the driver takes frames in, or answers. -/
theorem follows_drive
    {b : Buffered W L A}
    {r : Request}
    {l : L}
    {frames : List (List UInt8)}
    {s : Scenario W L}
    {accepted : List Request}
    {taken : List (Request × Bool)}
    (hAccount :
      Account s.driver s.connection accepted taken)
    (h : b.Follows r l frames s) :
    b.Follows r l frames (s.drive b.connector) := by
  unfold Scenario.drive
  cases hDriver : s.driver with
  | none => exact h
  | some d =>
      rw [hDriver] at hAccount
      have hFits := hAccount.fits d rfl
      cases h with
      | pending hDriver' hJob hLink hSame hHears =>
          rename_i d' x e
          cases hDriver.symm.trans hDriver'
          subst hSame
          rcases Exchange.step_hears
              (.ofSettings s.connection.settings) s.now hHears
            with
            ⟨hSameLink, hNext, hDone⟩
          rcases d.step_exchanging b.connector s.now s.world
            hJob hLink with
            ⟨x', e', w', hStep, hNext', hRest⟩ |
              ⟨a, hSlots, hVerdict⟩
          · have hNow : e'.link = e.link ∧
                x'.Hears b.connector.profile frames
                  (b.inbox e.link w') e' := by
              rcases hStep with hStep | hStep
              all_goals
                rw [hStep] at hSameLink hNext
                exact ⟨hSameLink, hNext x' rfl⟩
            have hWorld :
                (d.step b.connector s.now s.connection
                  s.world).2.2 = w' := congrArg Prod.snd hRest
            rw [← hWorld] at hNow
            exact .pending hNext' rfl rfl hNow.1 hNow.2
          · rcases hAccount.current d rfl r (by rw [hJob]; rfl)
              with
              ⟨hTaken, hNone⟩
            refine .answered (a := a) ?_ ?_
            · rw [Connection.answersTo_congr hSlots,
                Connection.answersTo_answer_self _ a
                  (hAccount.id_lt (hAccount.mem_of_taken hTaken)),
                hNone]
            · intro v hv
              exact hDone v (hVerdict v hv)
      | answered hAnswer hHeard =>
          have hDealing :=
            d.step_dealing b.connector s.now s.world hFits
          refine .answered ?_ hHeard
          rw [← hAnswer]
          apply hAccount.answered_deal hDealing
          rw [hAnswer]
          exact List.cons_ne_nil _ _

theorem follows_step
    {b : Buffered W L A}
    {r : Request}
    {l : L}
    {frames : List (List UInt8)}
    {s : Scenario W L}
    {accepted : List Request}
    {taken : List (Request × Bool)}
    (hAccount :
      Account s.driver s.connection accepted taken)
    (h : b.Follows r l frames s)
    (m : Move A) :
    b.Follows r l (frames ++ b.arriving l s.world m)
      (s.step b.connector b.act m) := by
  have hSilent :
      ∀ s' : Scenario W L, b.Follows r l frames s' →
        b.Follows r l (frames ++ []) s' := by
    intro s' h'
    rw [List.append_nil]
    exact h'
  cases m with
  | submit a options =>
      exact hSilent _ (h.congr rfl rfl
        (s.connection.answersTo_submit a options r.id))
  | abandon id =>
      exact hSilent _ (h.congr rfl rfl
        (s.connection.answersTo_abandon id r.id))
  | close =>
      exact hSilent _ (h.congr rfl rfl
        (s.connection.answersTo_close r.id))
  | outside a =>
      cases h with
      | pending hDriver hJob hLink hSame hHears =>
          refine .pending hDriver hJob hLink hSame ?_
          simp only [Scenario.step]
          rw [b.inbox_outside]
          exact hHears.arrive _
      | answered hAnswer hHeard =>
          exact .answered hAnswer
            fun v hv => (hHeard v hv).later _
  | pass ms => exact hSilent _ (h.congr rfl rfl rfl)
  | drive => exact hSilent _ (follows_drive hAccount h)

/-
  From a moment on at which nothing has been read for it, a
  request is answered with what the frames come to that were
  in the inbox then, followed by those that came in later.
-/
theorem follows_run
    (b : Buffered W L A)
    (settings : Settings)
    (now : Nat)
    (w : W)
    {r : Request}
    {l : L}
    (before after : List (Move A))
    {frames : List (List UInt8)}
    (h :
      b.Follows r l frames
        (b.run settings now w before)) :
    b.Follows r l
      (frames ++
        b.incoming l (b.run settings now w before)
          after)
      (b.run settings now w (before ++ after)) := by
  induction after generalizing before frames with
  | nil =>
      rw [incoming, List.append_nil, List.append_nil]
      exact h
  | cons m after ih =>
      rcases Scenario.account_run b.connector b.act settings now w
          before with
        ⟨accepted, taken, hAccount⟩
      have hNext :
          b.run settings now w (before ++ [m]) =
            (b.run settings now w before).step
              b.connector b.act m :=
        Scenario.run_append ..
      have hStep := follows_step hAccount h m
      rw [← hNext] at hStep
      have hRest := ih (before ++ [m]) hStep
      rw [hNext, List.append_assoc, List.append_assoc]
        at hRest
      exact hRest

------------------------------------------------------------
-- Where Verdicts Come From
------------------------------------------------------------

/- At some moment of a run a request was being sent. -/
def Sent
    (b : Buffered W L A)
    (settings : Settings)
    (now : Nat)
    (w : W)
    (moves : List (Move A))
    (id : Nat) : Prop :=
  ∃ before after r l,
    moves = before ++ after ∧ r.id = id ∧
      (b.run settings now w before).Sending r l

/-
  What is on the link was sent before, and so was what has
  been answered with a verdict.
-/
structure Tells
    (b : Buffered W L A)
    (settings : Settings)
    (now : Nat)
    (w : W)
    (moves : List (Move A)) : Prop where
  current :
    ∀ d ∈ (b.run settings now w moves).driver, ∀ r,
      d.job.request? = some r →
        b.Sent settings now w moves r.id
  answers :
    ∀ id, ∀ v : Except FrameError Response,
      v.mapError .protocol ∈
          (b.run settings now w moves).connection.answersTo
            id →
        b.Sent settings now w moves id

section Sent

variable {b : Buffered W L A}
variable {settings : Settings} {now : Nat} {w : W}
variable {moves : List (Move A)} {id : Nat}

theorem Sent.snoc
    (h : b.Sent settings now w moves id)
    (m : Move A) :
    b.Sent settings now w (moves ++ [m]) id := by
  rcases h with ⟨before, after, r, l, rfl, hId, hSending⟩
  exact ⟨before, after ++ [m], r, l, List.append_assoc ..,
    hId, hSending⟩

/- A driver that has a request sends it, or did so before. -/
theorem sent_of_start
    {d : Driver L}
    {r : Request}
    {x : Exchange}
    (hDriver : (b.run settings now w moves).driver = some d)
    (hJob : d.job = .exchanging r x)
    (hStart : x.phase = .start) :
    b.Sent settings now w moves r.id := by
  have hFits :=
    (Scenario.sound_run b.connector b.act settings now w moves
      d hDriver).fits
  simp only [Driver.Fits, hJob] at hFits
  rcases Option.isSome_iff_exists.mp hFits.1 with ⟨e, hLink⟩
  have hUnread : x.Unread := by
    unfold Exchange.Unread
    rw [hStart]
    trivial
  exact ⟨moves, [], r, e.link, (List.append_nil _).symm, rfl,
    d, x, e, hDriver, hJob, hLink, rfl, hUnread⟩

theorem tells_drive
    (h : b.Tells settings now w moves) :
    b.Tells settings now w (moves ++ [.drive]) := by
  have hNext :
      b.run settings now w (moves ++ [.drive]) =
        (b.run settings now w moves).drive b.connector :=
    Scenario.run_append ..
  rcases Scenario.account_run b.connector b.act settings now w moves
    with
    ⟨accepted, taken, hAccount⟩
  cases hDriver : (b.run settings now w moves).driver with
  | none =>
      have hSame :
          b.run settings now w (moves ++ [.drive]) =
            b.run settings now w moves := by
        rw [hNext, Scenario.drive, hDriver]
      constructor
      · rw [hSame]
        exact fun d hd r hr => (h.current d hd r hr).snoc _
      · rw [hSame]
        exact fun id v hv => (h.answers id v hv).snoc _
  | some d =>
      rw [hDriver] at hAccount
      have hSound :=
        Scenario.sound_run b.connector b.act settings now w
          moves d hDriver
      have hDealing :=
        d.step_dealing b.connector
          (b.run settings now w moves).now
          (b.run settings now w moves).world hSound.fits
      have hStep :
          (b.run settings now w (moves ++ [.drive])).driver =
              (d.step b.connector
                (b.run settings now w moves).now
                (b.run settings now w moves).connection
                (b.run settings now w moves).world).1.next? ∧
            (b.run settings now w
                (moves ++ [.drive])).connection =
              (d.step b.connector
                (b.run settings now w moves).now
                (b.run settings now w moves).connection
                (b.run settings now w moves).world).2.1 := by
        rw [hNext, Scenario.drive, hDriver]
        exact ⟨rfl, rfl⟩
      rw [← hStep.1, ← hStep.2] at hDealing
      constructor
      · intro d' hd' r hr
        rw [hd'] at hDealing
        cases hDealing with
        | keep hRequest hQueue hSlots =>
            rw [hRequest] at hr
            exact (h.current d hDriver r hr).snoc _
        | skip hFree hFree' hQueue hSlots hGone =>
            cases hFree'.symm.trans hr
        | take hFree hJob hStart hQueue hSlots hGone =>
            rename_i r' x
            rw [hJob] at hr
            cases hr
            exact sent_of_start hd' hJob hStart
        | answer hRequest hFree' hQueue hSlots hSent =>
            cases hFree'.symm.trans hr
      · intro id v hv
        rcases hAccount.mem_deal hDealing hv with
          hOld | ⟨r, hr, rfl⟩ | hFailed
        · exact (h.answers id v hOld).snoc _
        · exact (h.current d hDriver r hr).snoc _
        · rcases hSound.failure with hReason | hReason
          all_goals
            rw [hReason] at hFailed
            cases v <;> cases hFailed

theorem tells_snoc
    (h : b.Tells settings now w moves)
    (m : Move A) :
    b.Tells settings now w (moves ++ [m]) := by
  have hNext :
      b.run settings now w (moves ++ [m]) =
        (b.run settings now w moves).step b.connector b.act
          m :=
    Scenario.run_append ..
  have hOther :
      (b.run settings now w (moves ++ [m])).driver =
          (b.run settings now w moves).driver →
        (∀ id,
          (b.run settings now w
              (moves ++ [m])).connection.answersTo id =
            (b.run settings now w moves).connection.answersTo
              id) →
          b.Tells settings now w (moves ++ [m]) := by
    intro hDriver hAnswers
    constructor
    · rw [hDriver]
      exact fun d hd r hr => (h.current d hd r hr).snoc m
    · intro id v hv
      rw [hAnswers] at hv
      exact (h.answers id v hv).snoc m
  cases m with
  | submit a options =>
      apply hOther
      · rw [hNext]
        rfl
      · intro id
        rw [hNext]
        exact Connection.answersTo_submit _ a options id
  | abandon id =>
      apply hOther
      · rw [hNext]
        rfl
      · intro id'
        rw [hNext]
        exact Connection.answersTo_abandon _ id id'
  | close =>
      apply hOther
      · rw [hNext]
        rfl
      · intro id
        rw [hNext]
        exact Connection.answersTo_close _ id
  | drive => exact tells_drive h
  | _ =>
      apply hOther
      all_goals
        rw [hNext]
        first
          | rfl
          | exact fun id => rfl

theorem tells_run
    (b : Buffered W L A)
    (settings : Settings)
    (now : Nat)
    (w : W)
    (moves : List (Move A)) :
    b.Tells settings now w moves := by
  induction moves using List.reverseRecOn with
  | nil =>
      constructor
      · intro d hd r hr
        cases hd
        cases hr
      · intro id v hv
        simp [Scenario.run, Scenario.start,
          Connection.answersTo] at hv
  | append_singleton moves m ih => exact tells_snoc ih m

end Sent

end Buffered

------------------------------------------------------------
-- What Answers Are Made Of
------------------------------------------------------------

/-
  A verdict, made of some frames that were left over and
  some that came in later.
-/
structure Provenance
    (p : Profile)
    (leftOver later : List (List UInt8))
    (v : Except FrameError Response)
    (old new : List (List UInt8)) : Prop where
  /- These frames are just enough for the verdict. -/
  made : (Assembler.ofProfile p).Makes (old ++ new) v
  /- They are the first ones, in their order. -/
  old_first : old <+: Mtu.dataFrames leftOver
  new_first : new <+: Mtu.dataFrames later
  in_order : new = [] ∨ old = Mtu.dataFrames leftOver
  /- All of them are new exactly if no data was left over. -/
  clean : old = [] ↔ Mtu.dataFrames leftOver = []
  /- No other verdict can be made of the frames. -/
  determined : ∀ frames v',
    frames <+:
        Mtu.dataFrames leftOver ++ Mtu.dataFrames later →
      (Assembler.ofProfile p).Makes frames v' →
        frames = old ++ new ∧ v' = v

theorem provenance_of_heard
    {p : Profile}
    {leftOver later : List (List UInt8)}
    {v : Except FrameError Response}
    (h : Heard p (leftOver ++ later) v) :
    ∃ old new, Provenance p leftOver later v old new := by
  rcases h with ⟨made, hMade, hVerdict⟩
  have hFirst :
      Mtu.dataFrames made <+:
        Mtu.dataFrames leftOver ++ Mtu.dataFrames later := by
    rw [← Mtu.dataFrames_append]
    exact hMade.filter _
  have hDetermined :
      ∀ frames v',
        frames <+:
            Mtu.dataFrames leftOver ++ Mtu.dataFrames later →
          (Assembler.ofProfile p).Makes frames v' →
            frames = Mtu.dataFrames made ∧ v' = v :=
    fun frames v' hFrames h' =>
      h'.unique hVerdict hFrames hFirst
  have hSome := hVerdict.ne_nil
  rcases hFirst with ⟨rest, hRest⟩
  rcases List.append_eq_append_iff.mp hRest with
    ⟨unused, hOld, -⟩ | ⟨new, hMadeOf, hLater⟩
  · refine ⟨Mtu.dataFrames made, [], ?_⟩
    constructor
    · rw [List.append_nil]
      exact hVerdict
    · exact ⟨unused, hOld.symm⟩
    · exact List.nil_prefix
    · exact .inl rfl
    · constructor
      · intro hNone
        exact absurd hNone hSome
      · intro hNone
        rw [hNone] at hOld
        exact (List.append_eq_nil_iff.mp hOld.symm).1
    · rw [List.append_nil]
      exact hDetermined
  · refine ⟨Mtu.dataFrames leftOver, new, ?_⟩
    rw [hMadeOf] at hVerdict hDetermined
    constructor
    · exact hVerdict
    · exact List.prefix_refl _
    · exact ⟨rest, hLater.symm⟩
    · exact .inr rfl
    · exact Iff.rfl
    · exact hDetermined

/-
  Where the answer to a request comes from: it was being sent
  at some moment, and at every such moment the answer is made
  of what was in the inbox then and what came in later.
-/
structure Buffered.Explains
    {W L A : Type}
    (b : Buffered W L A)
    (settings : Settings)
    (now : Nat)
    (w : W)
    (moves : List (Move A))
    (id : Nat)
    (v : Except FrameError Response) : Prop where
  sent : b.Sent settings now w moves id
  made : ∀ before after r l,
    moves = before ++ after → r.id = id →
      (b.run settings now w before).Sending r l →
        ∃ old new,
          Provenance b.connector.profile
            (b.inbox l (b.run settings now w before).world)
            (b.incoming l (b.run settings now w before) after)
            v old new

/-
  Whatever device and callers do, and in whatever order: a
  response or protocol error that a request is answered with
  is what the frames come to that were in the inbox of its
  link when it was being sent, followed by those that came
  in later.  Frames that were there before it was sent are
  part of the answer exactly if they are not about the frame
  size.
-/
theorem Buffered.run_explained
    {W L A : Type}
    (b : Buffered W L A)
    (settings : Settings)
    (now : Nat)
    (w : W)
    (moves : List (Move A))
    (id : Nat)
    (v : Except FrameError Response)
    (hAnswer :
      (b.run settings now w moves).connection.answer? id =
        some (v.mapError .protocol)) :
    b.Explains settings now w moves id v := by
  rw [Connection.answer?_eq] at hAnswer
  have hMem := List.mem_of_mem_head? hAnswer
  constructor
  · exact (b.tells_run settings now w moves).answers id v hMem
  · intro before after r l hMoves hId hSending
    subst hMoves
    subst hId
    have hFresh :
        ∀ d ∈ (b.run settings now w before).driver,
          d.Fresh b.connector.profile :=
      fun d hd =>
        (Scenario.sound_run b.connector b.act settings now w
          before d hd).fresh
    have hFollows :=
      b.follows_run settings now w before after
        (follows_of_sending hFresh hSending)
    apply provenance_of_heard
    cases hFollows with
    | pending hDriver hJob hLink hSame hHears =>
        rcases Scenario.account_run b.connector b.act settings now
            w (before ++ after) with
          ⟨accepted, taken, hAccount⟩
        rcases hAccount.current _ hDriver r (by rw [hJob]; rfl)
          with
          ⟨-, hNone⟩
        rw [hNone] at hMem
        cases hMem
    | answered hOne hHeard =>
        rw [hOne] at hMem
        exact hHeard v (List.mem_singleton.mp hMem).symm

------------------------------------------------------------
-- A Surplus Response
------------------------------------------------------------

namespace Surplus

/- A frame with a whole response of one byte. -/
def frame (x : UInt8) : List UInt8 :=
  [Profile.apduTag, 0, 0, 0, 3, x, 0x90, 0]

def first : Apdu :=
  .ofHeader 0xe0 0x11 0 0

def second : Apdu :=
  .ofHeader 0xe0 0x22 0 0

/-
  Two commands are handed in.  The device answers the first
  one twice before the second one has been written.
-/
def before : List (Move DeviceAct) :=
  List.replicate 5 .drive ++
    [.submit first {}, .submit second {}] ++
      List.replicate 4 .drive ++
        [.outside (.send .first 1 (frame 0xaa)),
          .outside (.send .first 1 (frame 0xdd))] ++
          List.replicate 7 .drive

/- Then it answers the second one. -/
def after : List (Move DeviceAct) :=
  .outside (.send .first 1 (frame 0xbb)) ::
    List.replicate 4 .drive

def links : Buffered PipeHub Nat DeviceAct :=
  PipeHub.buffered .ble (.fixed 64)

/- The surplus response is what the second caller gets. -/
theorem answer?_second :
    (links.run {} 0 {} (before ++ after)).connection.answer?
        1 =
      some (Except.mapError .protocol
        (.ok ⟨.success, [0xdd]⟩)) := by
  rfl

/- The answer is explained, by a frame that was left over. -/
theorem answer_explained :
    (links.run {} 0 {} (before ++ after)).connection.answer?
          1 =
        some (Except.mapError .protocol
          (.ok ⟨.success, [0xdd]⟩)) ∧
      links.Explains {} 0 {} (before ++ after) 1
        (.ok ⟨.success, [0xdd]⟩) :=
  ⟨answer?_second,
    links.run_explained {} 0 {} _ 1 _ answer?_second⟩

/-
  The second caller is answered with what the device sent
  before that command was written, and with nothing that it
  sent later.
-/
theorem answer_not_heard :
    (links.run {} 0 {} before).Sending ⟨1, second, {}⟩ 1 ∧
      links.inbox 1 (links.run {} 0 {} before).world =
          [frame 0xdd] ∧
        (links.run {} 0 {}
            (before ++ after)).connection.answer? 1 =
            some (.ok ⟨.success, [0xdd]⟩) ∧
          ¬ Heard .ble
            (links.incoming 1 (links.run {} 0 {} before) after)
            (.ok ⟨.success, [0xdd]⟩) := by
  refine ⟨⟨_, _, _, rfl, rfl, rfl, rfl, trivial⟩, ?_,
    answer?_second, ?_⟩
  · decide +kernel
  · have hLater :
        links.incoming 1 (links.run {} 0 {} before) after =
          [frame 0xbb] := by
      decide +kernel
    have hOwn :
        (Assembler.ofProfile .ble).Makes [frame 0xbb]
          (.ok ⟨.success, [0xbb]⟩) :=
      .last rfl
    rw [hLater]
    rintro ⟨made, hMade, hVerdict⟩
    have hData :
        Mtu.dataFrames made <+:
          Mtu.dataFrames [frame 0xbb] :=
      hMade.filter _
    have hSame :
        Mtu.dataFrames [frame 0xbb] = [frame 0xbb] := by
      decide
    rw [hSame] at hData
    have hClash :=
      (hVerdict.unique hOwn hData (List.prefix_refl _)).2
    cases hClash

end Surplus

end DeviceSession
