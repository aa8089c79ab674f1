import DeviceSession.Proofs.Run.Clock
import DeviceSession.Proofs.Run.Forsaken
import DeviceSession.Proofs.Run.Inbox
import DeviceSession.Proofs.Run.Severance
import Mathlib.Data.List.Nodup

/-
  What it means that a link was lost while sending.

  A caller is told so exactly if the exchange for its request
  has broken down.  The frame that was denied may have been
  the first one: a request that has left the queue never
  waits again, even if its link was gone by then.  So what
  callers are told does not say whether anything was
  accepted.

  Key definitions include:
    * `Story.Broken`
    * `Story.Tracked`
    * `Story.Forthright`

  Main declarations:
    * `Story.tracked_drive`
    * `Story.run_forthright`
-/

------------------------------------------------------------
-- Stories
------------------------------------------------------------

namespace DeviceSession

namespace Story

variable {W L A : Type}

/- What is noted of a step is not what was tried in it. -/
theorem writes_marks
    (c : Connector W L)
    (r : Request)
    (s : Story W L A)
    (d : Driver (Nat × L))
    (s' : Story W L A) :
    (marks c s d s').filterMap (Note.write? r) = [] := by
  apply List.filterMap_eq_nil_iff.mpr
  intro n hn
  unfold marks at hn
  rcases List.mem_append.mp hn with hn | hn
  · rcases List.mem_append.mp hn with hn | hn
    · rcases List.mem_map.mp hn with ⟨r', -, rfl⟩
      rfl
    · unfold arrivals at hn
      split at hn
      · rcases List.mem_map.mp hn with ⟨x, -, rfl⟩
        rfl
      · cases hn
  · unfold turns at hn
    split at hn
    · split at hn
      · cases List.mem_singleton.mp hn
        rfl
      · cases hn
    · rcases List.mem_map.mp hn with ⟨e, -, rfl⟩
      rfl
    · cases hn

/- An exchange ends when the driver has none any more. -/
theorem ended_marks
    {c : Connector W L}
    {s : Story W L A}
    {d : Driver (Nat × L)}
    {s' : Story W L A}
    {n : Nat}
    {why : Purpose}
    {result : Option (Except ExchangeError Response)}
    (hEnded :
      (why, result) ∈
        (marks c s d s').filterMap (Note.ended? n)) :
    why = d.job.purpose ∧
      result =
          d.result? (c.taped A d.job.purpose) s.now
            s.connection s.world ∧
        ∃ d', s'.driver = some d' ∧ d'.job = .idle := by
  rcases List.mem_filterMap.mp hEnded with ⟨note, hn, hNote⟩
  unfold marks at hn
  rcases List.mem_append.mp hn with hn | hn
  · rcases List.mem_append.mp hn with hn | hn
    · rcases List.mem_map.mp hn with ⟨r', -, rfl⟩
      cases hNote
    · unfold arrivals at hn
      split at hn
      · rcases List.mem_map.mp hn with ⟨x, -, rfl⟩
        cases hNote
      · cases hn
  · unfold turns at hn
    split at hn
    · split at hn
      · cases List.mem_singleton.mp hn
        cases hNote
      · cases hn
    · rename_i x link failure hSome hDriver
      rcases List.mem_map.mp hn with ⟨e, -, rfl⟩
      simp only [Note.ended?] at hNote
      split at hNote
      · cases hNote
        exact ⟨rfl, rfl, _, hDriver, rfl⟩
      · cases hNote
    · cases hn

theorem mem_ended_marks
    {c : Connector W L}
    {s : Story W L A}
    {d d' : Driver (Nat × L)}
    {s' : Story W L A}
    {x : Exchange}
    {e : HostEnd (Nat × L)}
    (hExchange : d.job.exchange? = some x)
    (hLink : d.link = some e)
    (hDriver : s'.driver = some d')
    (hIdle : d'.job = .idle) :
    (d.job.purpose,
        d.result? (c.taped A d.job.purpose) s.now s.connection
          s.world) ∈
      (marks c s d s').filterMap (Note.ended? e.link.1) := by
  rcases d' with ⟨link, job, failure⟩
  cases hIdle
  unfold marks
  rw [hDriver, turns_of_ended hExchange hLink,
    List.filterMap_append]
  apply List.mem_append_right
  simp [Note.ended?]

section Drive

variable {c : Connector W L}
variable {s : Story W L A} {d : Driver (Nat × L)}
variable {r : Request}

theorem ended_drive
    (hDriver : s.driver = some d)
    (n : Nat) :
    Wire.ended n (s.drive c).world.log =
      Wire.ended n s.world.log ++
        (marks c s d (s.drive c)).filterMap
          (Note.ended? n) := by
  apply drive_log c hDriver
  intro note hNote
  cases note <;> first | rfl | cases hNote

/- An exchange that breaks down has done so, or ends now. -/
theorem brokeDown_drive
    (hDriver : s.driver = some d)
    (h : Wire.BrokeDown r (s.drive c).world.log) :
    Wire.BrokeDown r s.world.log ∨
      d.job.purpose = .request r ∧
        (∃ d', (s.drive c).driver = some d' ∧ d'.job = .idle) ∧
          ∃ e,
            d.result? (c.taped A d.job.purpose) s.now
                  s.connection s.world =
                some (.error e) ∧
              e.breaksLink = true := by
  rcases h with ⟨n, e, hEnded, hBreaks⟩
  rw [ended_drive hDriver] at hEnded
  rcases List.mem_append.mp hEnded with hOld | hNew
  · exact .inl ⟨n, e, hOld, hBreaks⟩
  · rcases ended_marks hNew with ⟨hWhy, hResult, hIdle⟩
    exact .inr ⟨hWhy.symm, hIdle, e, hResult.symm, hBreaks⟩

theorem grows_of_step
    (hDriver : s.driver = some d) :
    Wire.Grows r
      (d.step (c.taped A d.job.purpose) s.now s.connection
        s.world).2.2.log
      (s.drive c).world.log := by
  rw [drive_world c hDriver]
  exact (Wire.Grows.refl _).note (writes_marks c r s d _)

/- A request is tried only while it is on the link. -/
theorem grows_drive
    (hDriver : s.driver = some d)
    (hOther : d.job.purpose ≠ .request r) :
    Wire.Grows r s.world.log (s.drive c).world.log := by
  have hGrows :=
    Driver.step_keeps (c.taped_grows hOther s.world.log) s.now
      d s.connection (w := s.world) (.refl _)
  rw [drive_world c hDriver]
  exact hGrows.note (writes_marks c r s d _)

/- An exchange that has begun stays in the log. -/
theorem begun_drive
    (hDriver : s.driver = some d)
    (n : Nat) :
    Wire.begun n s.world.log ⊆
      Wire.begun n (s.drive c).world.log := by
  unfold Wire.begun
  rw [drive_log c hDriver (by
    intro note hNote
    cases note <;> first | rfl | cases hNote)]
  exact List.subset_append_left _ _

end Drive

/- The link of a request was lost while it was being sent. -/
def Broken
    (retries : Nat)
    (r : Request)
    (log : List (Note A)) : Prop :=
  Wire.BrokeDown r log ∧
    ∃ n plan,
      (.request r, plan) ∈ Wire.begun n log ∧ plan ≠ [] ∧
        Severed retries n r plan log

theorem Broken.later
    {retries : Nat}
    {r : Request}
    {log log' : List (Note A)}
    (h : Broken retries r log)
    (hGrows : Wire.Grows r log log') :
    Broken retries r log' := by
  rcases h with ⟨hDown, n, plan, hBegun, hPlan, hSevered⟩
  exact ⟨hDown.later hGrows.subset, n, plan,
    List.filterMap_subset _ hGrows.subset hBegun, hPlan,
    hSevered.later hGrows⟩

/- An exchange for a request is under way, as it is noted. -/
def Pursues
    (retries : Nat)
    (log : List (Note A))
    (d : Driver (Nat × L)) : Prop :=
  ∀ r x, d.job = .exchanging r x →
    ∃ e n slicer plan,
      d.link = some e ∧ e.On n slicer ∧
        (.request r, plan) ∈ Wire.begun n log ∧ plan ≠ [] ∧
          x.Sends retries slicer plan (Wire.writes r log)

/-
  What was tried for requests is known: for the one that is
  on the link, and for those that lost their link.
-/
structure Tracked (retries : Nat) (s : Story W L A) : Prop where
  pursued : ∀ d ∈ s.driver, Pursues retries s.world.log d
  broken :
    ∀ r ∈ s.accepted,
      .error .disconnectedWhileSending ∈
          s.connection.answersTo r.id →
        Broken retries r s.world.log
  told :
    ∀ r,
      Wire.BrokeDown r s.world.log →
        r ∈ s.accepted ∧
          .error .disconnectedWhileSending ∈
            s.connection.answersTo r.id
  /- Those that wait will not be told of a lost link. -/
  failure :
    ∀ d ∈ s.driver, d.failure ≠ .disconnectedWhileSending

/- Nothing has been tried for a request that waits. -/
theorem writes_of_waiting
    {c : Connector W L}
    {s : Story W L A}
    {r : Request}
    (hUnsent : s.Unsent c)
    (hWaiting : r ∈ s.connection.queue) :
    Wire.writes r s.world.log = [] := by
  apply List.eq_nil_iff_forall_not_mem.mpr
  intro x hWrite
  rcases Wire.tried_of_writes hWrite with ⟨n, hTried⟩
  rcases hUnsent.shows with ⟨w, hShows, -⟩
  rcases hShows.trace.begun_of_tried hTried with ⟨plan, hBegun⟩
  have hTaken :=
    taken_of_served hUnsent.shows (Wire.served_of_begun hBegun)
  exact hUnsent.accounts.id_ne hTaken hWaiting rfl

section Tracking

variable {c : Connector W L}
variable {s : Story W L A} {d : Driver (Nat × L)}
variable {retries : Nat}

/- Requests with the same slot are the same. -/
theorem eq_of_id
    (hAccounts : s.Accounts)
    {r r' : Request}
    (hr : r ∈ s.accepted)
    (hr' : r' ∈ s.accepted)
    (hSame : r.id = r'.id) :
    r = r' :=
  List.inj_on_of_nodup_map hAccounts.ids_nodup hr hr' hSame

/- A request that goes on the link is pursued. -/
theorem pursues_take
    {d' : Driver (Nat × L)}
    (hUnsent : s.Unsent c)
    (hDriver : s.driver = some d)
    (hFree : d.Free)
    (hNext : (s.drive c).driver = some d') :
    Pursues retries (s.drive c).world.log d' := by
  intro r x hJob
  have hFits := hUnsent.accounts.fits d hDriver
  rw [drive_driver c hDriver] at hNext
  rcases Driver.taken_of_step hFits hFree hNext hJob with
    ⟨asked, rest, timeout, hServing, hQueue, -, rfl⟩
  cases hJob
  rcases hUnsent.shows with ⟨w, -, hOccupies⟩
  rw [hDriver] at hOccupies
  simp only [Driver.Fits, hServing] at hFits
  rcases Option.isSome_iff_exists.mp hFits.1 with ⟨e, hLink⟩
  simp only [Driver.Occupies, Driver.Uses, hServing, hLink]
    at hOccupies
  rcases hOccupies with ⟨slicer, hOn, -⟩
  have hExchange : d.job.exchange? = none :=
    congrArg Job.exchange? hServing
  have hPlan : e.plan r.apdu = (slicer.command r.apdu).toList := by
    rcases hOn.2 with ⟨a, hCodec⟩
    rw [HostEnd.plan, hCodec]
  refine ⟨e, w.opened, slicer, e.plan r.apdu, hLink, hOn, ?_,
    ?_, ?_⟩
  · have hTurns :=
      turns_of_begun (A := A)
        (d.result? (c.taped A d.job.purpose) s.now s.connection
          s.world)
        (.exchanging r (.ofCommand r.apdu s.now timeout))
        hExchange hLink rfl
    rw [drive_world c hDriver, Taped.note_log, Wire.begun,
      List.filterMap_append]
    apply List.mem_append_right
    unfold marks
    rw [drive_driver c hDriver, hNext, hTurns,
      List.filterMap_append]
    apply List.mem_append_right
    simp [Note.begun?, hOn.1, Job.purpose, Exchange.ofCommand]
  · rw [hPlan, Slicer.command, Slices.toList_of_unfinished rfl]
    exact List.cons_ne_nil _ _
  · have hWaiting : r ∈ s.connection.queue := by
      rw [hQueue]
      exact List.mem_cons_self
    have hOther : d.job.purpose ≠ .request r := by
      rw [hServing]
      simp [Job.purpose]
    rw [(grows_drive hDriver hOther).writes_eq,
      writes_of_waiting hUnsent hWaiting]
    exact ⟨[], [], [], rfl, .start, hPlan, rfl⟩

/- No step is a reason to tell those that wait of a loss. -/
theorem failure_drive
    (hAccounts : s.Accounts)
    (hDriver : s.driver = some d)
    (h : s.Tracked retries) :
    ∀ d' ∈ (s.drive c).driver,
      d'.failure ≠ .disconnectedWhileSending := by
  intro d' hd' hSending
  rw [drive_driver c hDriver] at hd'
  rcases Driver.step_failure (c.taped A d.job.purpose) s.now
      s.world (hAccounts.fits d hDriver) d' hd' with
    hKept | hBefore
  · exact h.failure d hDriver (hKept.symm.trans hSending)
  · cases hBefore.symm.trans hSending

/- What is known of a request that is not on the link. -/
theorem Tracked.broken_drive
    {r : Request}
    (h : s.Tracked retries)
    (hDriver : s.driver = some d)
    (hOther : d.job.purpose ≠ .request r)
    (hAccepted : r ∈ s.accepted)
    (hTold :
      .error .disconnectedWhileSending ∈
        s.connection.answersTo r.id) :
    Broken retries r (s.drive c).world.log :=
  (h.broken r hAccepted hTold).later
    (grows_drive hDriver hOther)

/- A step with no request on the link. -/
theorem tracked_free
    (hUnsent : s.Unsent c)
    (hDriver : s.driver = some d)
    (hFree : d.Free)
    (h : s.Tracked retries) :
    (s.drive c).Tracked retries := by
  have hAccount := hUnsent.accounts
  unfold Accounts at hAccount
  rw [hDriver] at hAccount
  have hDealing :=
    Driver.step_dealing (c.taped A d.job.purpose) s.now
      s.world (hAccount.fits d rfl)
  rw [← drive_driver c hDriver, ← drive_connection c hDriver]
    at hDealing
  have hAccepted := (drive_requests c hDriver).1
  have hOther : ∀ r, d.job.purpose ≠ .request r := by
    intro r hPurpose
    unfold Driver.Free at hFree
    cases hJob : d.job with
    | exchanging r' x =>
        rw [hJob] at hFree
        cases hFree
    | _ =>
        rw [hJob] at hPurpose
        cases hPurpose
  refine ⟨fun d' hNext =>
    pursues_take hUnsent hDriver hFree hNext, ?_, ?_,
    failure_drive hUnsent.accounts hDriver h⟩
  · intro r hr hTold
    rw [hAccepted] at hr
    rcases hAccount.mem_deal hDealing hTold with
      hOld | ⟨r', hRequest, -⟩ | hFailed
    · exact h.broken_drive hDriver (hOther r) hr hOld
    · rw [hFree] at hRequest
      cases hRequest
    · cases hSame : d.failure with
      | disconnectedWhileSending =>
          exact absurd hSame (h.failure d hDriver)
      | _ =>
          rw [hSame] at hFailed
          cases hFailed
  · intro r hDown
    rcases brokeDown_drive hDriver hDown with
      hOld | ⟨hMine, -⟩
    · rcases h.told r hOld with ⟨hr, hTold⟩
      rw [hAccepted, hAccount.answered_deal hDealing
        (List.ne_nil_of_mem hTold)]
      exact ⟨hr, hTold⟩
    · exact absurd hMine (hOther r)

section Busy

variable {r₀ : Request} {x : Exchange}

theorem purpose_ne
    (hJob : d.job = .exchanging r₀ x)
    {r : Request}
    (hApart : r ≠ r₀) :
    d.job.purpose ≠ .request r := by
  rw [hJob]
  intro hSame
  cases hSame
  exact hApart rfl

/- The exchange on the link goes on. -/
theorem tracked_going
    {x' : Exchange}
    {link : Option (HostEnd (Nat × L))}
    (hAccounts : s.Accounts)
    (hDriver : s.driver = some d)
    (hJob : d.job = .exchanging r₀ x)
    (hNext :
      (s.drive c).driver =
        some { d with job := .exchanging r₀ x', link })
    (hSame : (s.drive c).connection = s.connection)
    (hPursues :
      Pursues retries (s.drive c).world.log
        { d with job := .exchanging r₀ x', link })
    (h : s.Tracked retries) :
    (s.drive c).Tracked retries := by
  have hNone :=
    (hAccounts.current d hDriver r₀ (by rw [hJob]; rfl)).2
  have hAccepted := (drive_requests c hDriver).1
  refine ⟨?_, ?_, ?_, failure_drive hAccounts hDriver h⟩
  · intro d' hd'
    rw [hNext] at hd'
    cases hd'
    exact hPursues
  · intro r hr hTold
    rw [hAccepted] at hr
    rw [hSame] at hTold
    apply h.broken_drive hDriver _ hr hTold
    apply purpose_ne hJob
    rintro rfl
    rw [hNone] at hTold
    cases hTold
  · intro r hDown
    rw [hAccepted, hSame]
    rcases brokeDown_drive hDriver hDown with
      hOld | ⟨-, ⟨d', hd', hIdle⟩, -⟩
    · exact h.told r hOld
    · rw [hNext] at hd'
      cases hd'
      cases hIdle

/- The request on the link is answered. -/
theorem tracked_answered
    {d' : Driver (Nat × L)}
    {a : Answer}
    (hAccounts : s.Accounts)
    (hDriver : s.driver = some d)
    (hJob : d.job = .exchanging r₀ x)
    (hNext : (s.drive c).driver = some d')
    (hIdle : d'.job = .idle)
    (hSlots :
      (s.drive c).connection.slots =
        (s.connection.answer r₀ a).slots)
    (hTells :
      (∃ e,
        d.result? (c.taped A d.job.purpose) s.now s.connection
              s.world =
            some (.error e) ∧
          e.breaksLink = true) →
        a = .error .disconnectedWhileSending)
    (hBroken :
      a = .error .disconnectedWhileSending →
        Broken retries r₀ (s.drive c).world.log)
    (h : s.Tracked retries) :
    (s.drive c).Tracked retries := by
  rcases hAccounts.current d hDriver r₀ (by rw [hJob]; rfl)
    with
    ⟨hTaken, hNone⟩
  have hMine := hAccounts.mem_of_taken hTaken
  have hAccepted := (drive_requests c hDriver).1
  have hNow :
      (s.drive c).connection.answersTo r₀.id = [a] := by
    rw [Connection.answersTo_congr hSlots,
      Connection.answersTo_answer_self _ a
        (hAccounts.id_lt hMine), hNone]
  have hOther :
      ∀ r ∈ s.accepted, r ≠ r₀ →
        (s.drive c).connection.answersTo r.id =
          s.connection.answersTo r.id := by
    intro r hr hApart
    rw [Connection.answersTo_congr hSlots]
    apply Connection.answersTo_answer_of_ne
    intro hIds
    exact hApart (eq_of_id hAccounts hr hMine hIds.symm)
  refine ⟨?_, ?_, ?_, failure_drive hAccounts hDriver h⟩
  · intro d'' hd'' r x'' hJob'
    rw [hNext] at hd''
    cases hd''
    rw [hIdle] at hJob'
    cases hJob'
  · intro r hr hTold
    rw [hAccepted] at hr
    by_cases hSame : r = r₀
    · subst hSame
      rw [hNow] at hTold
      exact hBroken (List.mem_singleton.mp hTold).symm
    · rw [hOther r hr hSame] at hTold
      exact h.broken_drive hDriver (purpose_ne hJob hSame) hr
        hTold
  · intro r hDown
    rw [hAccepted]
    rcases brokeDown_drive hDriver hDown with
      hOld | ⟨hWhy, -, hResult⟩
    · rcases h.told r hOld with ⟨hr, hTold⟩
      have hApart : r ≠ r₀ := by
        rintro rfl
        rw [hNone] at hTold
        cases hTold
      rw [hOther r hr hApart]
      exact ⟨hr, hTold⟩
    · rw [hJob] at hWhy
      cases hWhy
      rw [hNow, hTells hResult]
      exact ⟨hMine, List.mem_singleton_self _⟩

/- A step with a request on the link. -/
theorem tracked_busy
    (hUnsent : s.Unsent c)
    (hRetries :
      s.connection.settings.frameWriteRetries.toNat = retries)
    (hDriver : s.driver = some d)
    (hJob : d.job = .exchanging r₀ x)
    (h : s.Tracked retries) :
    (s.drive c).Tracked retries := by
  rcases h.pursued d hDriver r₀ x hJob with
    ⟨e, n, slicer, plan, hLink, hOn, hBegun, hPlan, hSends⟩
  have hBegun' := begun_drive (c := c) hDriver n hBegun
  have hGrows : Wire.Grows r₀ _ (s.drive c).world.log :=
    grows_of_step hDriver
  have hDriver' := drive_driver c hDriver
  have hConnection := drive_connection c hDriver
  have hWorked :=
    Driver.step_sends (c := c) s.now hJob hLink hOn
      (by rw [hRetries]; exact hSends)
  have hPurpose : d.job.purpose = .request r₀ :=
    congrArg Job.purpose hJob
  rw [← hPurpose] at hWorked
  unfold Driver.LeavesSent at hWorked
  rw [hRetries] at hWorked
  rcases hStep :
      d.step (c.taped A d.job.purpose) s.now s.connection
        s.world with
    ⟨turn, k', t'⟩
  rw [hStep] at hGrows hDriver' hConnection hWorked
  rcases hWorked with
    ⟨hSame, x', e', hNext, hOn', hSends'⟩ |
      ⟨⟨d', hNext, hIdle⟩, a, hSlots, hTells, hLost⟩
  · apply tracked_going hUnsent.accounts hDriver hJob
      (hDriver'.trans hNext) (hConnection.trans hSame) _ h
    intro r x'' hJob'
    cases hJob'
    rw [hGrows.writes_eq]
    exact ⟨e', n, slicer, plan, rfl, hOn', hBegun', hPlan,
      hSends'⟩
  · have hNow := hDriver'.trans hNext
    apply tracked_answered hUnsent.accounts hDriver hJob hNow
      hIdle ((congrArg Connection.slots hConnection).trans
        hSlots) hTells.mpr _ h
    intro hSending
    rcases hTells.mp hSending with ⟨err, hResult, hBreaks⟩
    have hEnded :=
      mem_ended_marks (c := c) (s := s)
        (congrArg Job.exchange? hJob) hLink hNow hIdle
    rw [hResult, hPurpose] at hEnded
    refine ⟨⟨e.link.1, err, ?_, hBreaks⟩, n, plan, hBegun',
      hPlan, (hLost hSending).later hGrows⟩
    rw [ended_drive hDriver]
    exact List.mem_append_right _ hEnded

end Busy

theorem tracked_drive
    (c : Connector W L)
    (hUnsent : s.Unsent c)
    (hRetries :
      s.connection.settings.frameWriteRetries.toNat = retries)
    (h : s.Tracked retries) :
    (s.drive c).Tracked retries := by
  cases hDriver : s.driver with
  | none =>
      rw [drive_of_none c hDriver]
      exact h
  | some d =>
      cases hJob : d.job with
      | exchanging r x =>
          exact tracked_busy hUnsent hRetries hDriver hJob h
      | _ =>
          exact tracked_free hUnsent hDriver
            (congrArg Job.request? hJob) h

/- A log that goes on leaves what is known of requests. -/
theorem Tracked.grow
    (h : s.Tracked retries)
    (s' : Story W L A)
    (hDriver : s'.driver = s.driver)
    (hGrows :
      ∀ r, Wire.Grows r s.world.log s'.world.log)
    (hEnded :
      ∀ n,
        Wire.ended n s'.world.log = Wire.ended n s.world.log)
    (hAnswers :
      ∀ id,
        s'.connection.answersTo id = s.connection.answersTo id)
    (hAccepted : s.accepted ⊆ s'.accepted)
    (hNew :
      ∀ r ∈ s'.accepted,
        s.connection.answersTo r.id ≠ [] → r ∈ s.accepted) :
    s'.Tracked retries := by
  constructor
  · intro d hd r x hJob
    rw [hDriver] at hd
    rcases h.pursued d hd r x hJob with
      ⟨e, n, slicer, plan, hLink, hOn, hBegun, hPlan, hSends⟩
    rw [← (hGrows r).writes_eq] at hSends
    exact ⟨e, n, slicer, plan, hLink, hOn,
      List.filterMap_subset _ (hGrows r).subset hBegun, hPlan,
      hSends⟩
  · intro r hr hTold
    rw [hAnswers] at hTold
    have hBefore := hNew r hr (List.ne_nil_of_mem hTold)
    exact (h.broken r hBefore hTold).later (hGrows r)
  · rintro r ⟨n, e, hEnd, hBreaks⟩
    rw [hEnded] at hEnd
    rw [hAnswers]
    rcases h.told r ⟨n, e, hEnd, hBreaks⟩ with ⟨hr, hTold⟩
    exact ⟨hAccepted hr, hTold⟩
  · rw [hDriver]
    exact h.failure

/- A request that is accepted gets the next slot. -/
theorem slot_of_submit
    {k : Connection}
    {a : Apdu}
    {options : RequestOptions}
    {id : Nat}
    (hId : id ∈ (k.submit a options).1.toOption.toList) :
    id = k.slots.size := by
  unfold Connection.submit at hId
  split at hId
  · cases hId
  · split at hId
    · exact List.mem_singleton.mp hId
    · cases hId

theorem tracked_step
    (c : Connector W L)
    (act : A → W → W)
    (m : Move A)
    (hUnsent : s.Unsent c)
    (hRetries :
      s.connection.settings.frameWriteRetries.toNat = retries)
    (h : s.Tracked retries) :
    (s.step c act m).Tracked retries := by
  have hOld := (s.accepted_step c act m).subset
  have hSame :
      ∀ s' : Story W L A,
        s'.driver = s.driver → s'.world = s.world →
          (∀ id,
            s'.connection.answersTo id =
              s.connection.answersTo id) →
            s'.Tracked retries := by
    intro s' hDriver hWorld hAnswers
    have hAccepted : s'.accepted = s.accepted := by
      rw [accepted, hWorld]
      rfl
    apply h.grow s' hDriver _ _ hAnswers
    · rw [hAccepted]
      exact List.Subset.refl _
    · intro r hr hSome
      rwa [hAccepted] at hr
    · intro r
      rw [hWorld]
      exact .refl _
    · intro n
      rw [hWorld]
  cases m with
  | submit a options =>
      apply h.grow (s.submit a options) _ _ _ _ hOld
      · intro r hr hSome
        rw [accepted_submit] at hr
        rcases List.mem_append.mp hr with hBefore | hNew
        · exact hBefore
        · rcases List.mem_map.mp hNew with ⟨id, hId, rfl⟩
          rw [slot_of_submit hId] at hSome
          simp [Connection.answersTo] at hSome
      · simp only [submit]
        split <;> rfl
      · intro r
        simp only [submit]
        split
        · exact (Wire.Grows.refl s.world.log).note rfl
        · exact .refl _
      · intro n
        simp only [submit]
        split
        · rw [Taped.note_log, Wire.ended_concat]
          exact List.append_nil _
        · rfl
      · intro id
        rw [submit_connection, Connection.answersTo_submit]
  | abandon id =>
      exact hSame _ rfl rfl (s.connection.answersTo_abandon id)
  | close =>
      exact hSame _ rfl rfl s.connection.answersTo_close
  | outside a =>
      apply h.grow (s.step c act (.outside a)) rfl _ _
        (fun id => rfl) hOld
      · intro r hr hSome
        simpa [accepted, step, Taped.act, Note.accepted?]
          using hr
      · intro r
        exact (Wire.Grows.refl s.world.log).note rfl
      · intro n
        rw [step, Taped.act, Taped.note_log, Wire.ended_concat]
        exact List.append_nil _
  | pass ms => exact hSame _ rfl rfl fun id => rfl
  | drive => exact tracked_drive c hUnsent hRetries h

end Tracking

theorem settings_run
    (c : Connector W L)
    (act : A → W → W)
    (settings : Settings)
    (now : Nat)
    (w : W)
    (moves : List (Move A)) :
    ((start settings now w).run c act
        moves).connection.settings =
      settings := by
  have hSame := erase_run c act (start settings now w) moves
  exact (congrArg (fun s => s.connection.settings) hSame).trans
    (Scenario.settings_run c act settings now w moves)

theorem tracked_run
    (c : Connector W L)
    (act : A → W → W)
    (settings : Settings)
    (now : Nat)
    (w : W)
    (moves : List (Move A)) :
    Tracked settings.frameWriteRetries.toNat
      ((start settings now w).run c act moves) := by
  induction moves using List.reverseRecOn with
  | nil =>
      constructor
      · intro d hd r x hJob
        cases hd
        cases hJob
      · intro r hAccepted
        cases hAccepted
      · rintro r ⟨n, e, hEnded, -⟩
        cases hEnded
      · intro d hd hSending
        cases hd
        cases hSending
  | append_singleton before m ih =>
      rw [run_append]
      apply tracked_step c act m
      · exact unsent_run c act settings now w before
      · rw [settings_run]
      · exact ih

------------------------------------------------------------
-- What Callers Are Told
------------------------------------------------------------

/- What callers may make of a link that is lost. -/
structure Forthright
    (retries : Nat)
    (s : Story W L A) : Prop where
  /- Nothing was tried for what waits, and it is untold. -/
  waiting :
    ∀ r ∈ s.connection.queue,
      Wire.writes r s.world.log = [] ∧
        s.connection.answersTo r.id = []
  /- What has gone on a link does not wait any more. -/
  committed :
    ∀ r ∈ Wire.served s.world.log, r ∉ s.connection.queue
  /-
    The link is said to have been lost while sending exactly
    if the exchange for the request has failed with it.
  -/
  told :
    ∀ r ∈ s.accepted,
      .error .disconnectedWhileSending ∈
          s.connection.answersTo r.id ↔
        Wire.BrokeDown r s.world.log
  /-
    Then all frames are out and the loss was heard, or one of
    them was denied.  Nothing was accepted exactly if it was
    the first one that was denied.
  -/
  severed :
    ∀ r ∈ s.accepted,
      .error .disconnectedWhileSending ∈
          s.connection.answersTo r.id →
        ∃ n plan,
          (.request r, plan) ∈ Wire.begun n s.world.log ∧
            Severed retries n r plan s.world.log ∧
              (Wire.onWire r s.world.log = [] ↔
                ∃ frame rest,
                  plan = frame :: rest ∧
                    Write.Denied retries frame
                      (Wire.writes r s.world.log))

/-
  Whatever callers, links and the passing of time do, and in
  whatever order: a caller is told that the link was lost
  while sending exactly if an exchange for its request failed
  with the link, by a loss after the last frame or by a frame
  that was denied; and that may have been the first one.
-/
theorem run_forthright
    (c : Connector W L)
    (act : A → W → W)
    (settings : Settings)
    (now : Nat)
    (w : W)
    (moves : List (Move A)) :
    let s := (start settings now w).run c act moves
    s.erase =
        (Scenario.start settings now w).run c act moves ∧
      s.Forthright settings.frameWriteRetries.toNat := by
  intro s
  have hUnsent : s.Unsent c :=
    unsent_run c act settings now w moves
  have hTracked := tracked_run c act settings now w moves
  refine ⟨erase_run c act (start settings now w) moves, ?_⟩
  constructor
  · intro r hWaiting
    exact ⟨writes_of_waiting hUnsent hWaiting,
      hUnsent.accounts.waiting r hWaiting⟩
  · intro r hServed hWaiting
    have hTaken := taken_of_served hUnsent.shows hServed
    exact hUnsent.accounts.id_ne hTaken hWaiting rfl
  · intro r hAccepted
    exact ⟨fun hTold => (hTracked.broken r hAccepted hTold).1,
      fun hDown => (hTracked.told r hDown).2⟩
  · intro r hAccepted hTold
    rcases (hTracked.broken r hAccepted hTold).2 with
      ⟨n, plan, hBegun, hPlan, hSevered⟩
    exact ⟨n, plan, hBegun, hSevered,
      hSevered.onWire_eq_nil_iff hPlan⟩

end Story

------------------------------------------------------------
-- A Request for a Link That Is Gone
------------------------------------------------------------

namespace Stranded

def first : Apdu :=
  .ofHeader 0xe0 0x11 0 0

def second : Request :=
  ⟨1, .ofHeader 0xe0 0x22 0 0, {}⟩

/-
  Two commands are handed in.  The device answers the first
  one and hangs up, and the first caller has its answer.
-/
def before : List (Move DeviceAct) :=
  List.replicate 5 .drive ++
    [.submit first {}, .submit second.apdu {}] ++
      List.replicate 5 .drive ++
        [.outside (.send .first 1
            [Profile.apduTag, 0, 0, 0, 3, 0xaa, 0x90, 0]),
          .outside (.hangUp 1)] ++
          List.replicate 2 .drive

/- Then the driver goes on until another link is up. -/
def after : List (Move DeviceAct) :=
  List.replicate 9 .drive

def story (moves : List (Move DeviceAct)) :
    Story PipeHub Nat DeviceAct :=
  (Story.start {} 0 {}).run (PipeHub.connector .ble (.fixed 64))
    PipeHub.act moves

/-
  The second command waits as its link goes, and is taken
  all the same.  Its caller is told that the link was lost
  while sending, with none of its frames accepted.
-/
theorem told_with_nothing_accepted :
    (story before).connection.queue = [second] ∧
      ((story before).world.world.link 1).closed = true ∧
        (story (before ++ after)).connection.state =
            .connected 2 ∧
          second ∈ (story (before ++ after)).accepted ∧
            .error .disconnectedWhileSending ∈
                (story (before ++
                  after)).connection.answersTo second.id ∧
              Wire.onWire second
                  (story (before ++ after)).world.log =
                [] := by
  decide +kernel

end Stranded

end DeviceSession
