import DeviceSession.Proofs.Run.Requests
import DeviceSession.Proofs.Run.Traffic

/-
  The discipline of the wire, in every run.

  The log of every story is a trace.  So a request goes on
  at most one link, once and in one piece, and a link on
  which an exchange has failed is not written to any more.
  A request that is answered without having been sent was
  not sent at all.

  Key definitions include:
    * `Story.Shows`
    * `Story.Disciplined`

  Main declarations:
    * `Story.shows_run`
    * `Story.unsent_run`
    * `Story.run_disciplined`
-/

------------------------------------------------------------
-- Stories Are Traces
------------------------------------------------------------

namespace DeviceSession

namespace Story

variable {W L A : Type}

/- The log is a trace, and the driver's job fits it. -/
def Shows (c : Connector W L) (s : Story W L A) : Prop :=
  ∃ w,
    s.world.Shows c.profile c.handshake w ∧
      Driver.Occupies c.handshake s.driver w

/- A step of the driver keeps to the rules of the wire. -/
theorem shows_drive
    (c : Connector W L)
    {s : Story W L A}
    (hAccounts : s.Accounts)
    (hShows : s.Shows c) :
    (s.drive c).Shows c := by
  rcases hShows with ⟨w, hTrace, hOccupies⟩
  cases hDriver : s.driver with
  | none =>
      rw [drive_of_none c hDriver]
      exact ⟨w, hTrace, hOccupies⟩
  | some d =>
      rw [hDriver] at hOccupies
      rcases Driver.step_shows (c := c) s.now
          (hAccounts.fits d hDriver) hOccupies hTrace with
        ⟨w', hTrace', hOccupies'⟩
      refine ⟨w', ?_, ?_⟩
      · rw [drive_world c hDriver, marks,
          drive_driver c hDriver, drive_connection c hDriver]
        exact hTrace'
      · rw [drive_driver c hDriver]
        exact hOccupies'

/- So does any other move, which leaves the wire alone. -/
theorem shows_step
    (c : Connector W L)
    (act : A → W → W)
    (s : Story W L A)
    (m : Move A)
    (hAccounts : s.Accounts)
    (hShows : s.Shows c) :
    (s.step c act m).Shows c := by
  rcases hShows with ⟨w, hTrace, hOccupies⟩
  cases m with
  | submit a options =>
      simp only [step, submit]
      split
      · exact ⟨w, hTrace.note (.accepted w _) rfl, hOccupies⟩
      · exact ⟨w, hTrace, hOccupies⟩
  | outside a =>
      exact ⟨w, (hTrace.put _).note (.outside w a) rfl,
        hOccupies⟩
  | drive =>
      exact shows_drive c hAccounts ⟨w, hTrace, hOccupies⟩
  | _ => exact ⟨w, hTrace, hOccupies⟩

/- At the start nothing has been written. -/
theorem shows_start
    (c : Connector W L)
    (settings : Settings)
    (now : Nat)
    (w : W) :
    Shows c (start settings now w : Story W L A) :=
  ⟨{}, ⟨.nil, rfl⟩, rfl⟩

------------------------------------------------------------
-- Requests That Are Not Sent
------------------------------------------------------------

/-
  What goes on a link is never answered as if it had not
  been sent.
-/
structure Unsent
    (c : Connector W L)
    (s : Story W L A) : Prop where
  accounts : s.Accounts
  shows : s.Shows c
  answers :
    ∀ r ∈ Wire.served s.world.log,
      .error .disconnectedBeforeSending ∉
        s.connection.answersTo r.id

/- What is served was taken from the queue in that order. -/
theorem heeded_sublist (s : Story W L A) :
    (Wire.heeded s.world.log).Sublist
      (s.taken.map Prod.fst) := by
  unfold Wire.heeded taken
  rw [List.map_filterMap]
  apply Wire.filterMap_sublist
  intro n r hr
  unfold Note.heeded? at hr
  split at hr
  · cases hr
    rfl
  · cases hr

/- Its caller had not gone by then. -/
theorem taken_of_heeded
    {s : Story W L A}
    {r : Request}
    (hHeeded : r ∈ Wire.heeded s.world.log) :
    (r, false) ∈ s.taken := by
  rcases List.mem_filterMap.mp hHeeded with ⟨n, hn, hr⟩
  apply List.mem_filterMap.mpr
  refine ⟨n, hn, ?_⟩
  unfold Note.heeded? at hr
  split at hr
  · cases hr
    rfl
  · cases hr

/- The same holds of what has gone on a link. -/
theorem taken_of_served
    {c : Connector W L}
    {s : Story W L A}
    (hShows : s.Shows c)
    {r : Request}
    (hServed : r ∈ Wire.served s.world.log) :
    (r, false) ∈ s.taken := by
  rcases hShows with ⟨w, hTrace, -⟩
  exact taken_of_heeded
    (hTrace.trace.served_sublist.subset hServed)

/- What begins with a step is what the driver then does. -/
theorem current_of_served_marks
    {c : Connector W L}
    {s : Story W L A}
    {d : Driver (Nat × L)}
    {s' : Story W L A}
    {r : Request}
    (hServed : r ∈ Wire.served (marks c s d s')) :
    ∃ d' ∈ s'.driver, d'.job.request? = some r := by
  rcases List.mem_filterMap.mp hServed with ⟨n, hn, hr⟩
  have hBegan : ∃ link plan, n = .began link (.request r) plan := by
    unfold Note.served? at hr
    split at hr
    · cases hr
      exact ⟨_, _, rfl⟩
    · cases hr
  rcases hBegan with ⟨link, plan, rfl⟩
  unfold marks at hn
  rcases List.mem_append.mp hn with hn | hn
  · rcases List.mem_append.mp hn with hn | hn
    · unfold departures at hn
      rcases List.mem_map.mp hn with ⟨r', -, hTook⟩
      cases hTook
    · unfold arrivals at hn
      split at hn
      · simp at hn
      · cases hn
  · unfold turns at hn
    split at hn
    · rename_i e job failure hNone hDriver
      cases job with
      | exchanging r' x =>
          simp only [Job.exchange?, Job.purpose,
            List.mem_singleton] at hn
          cases hn
          exact ⟨_, hDriver, rfl⟩
      | checking x =>
          simp [Job.exchange?, Job.purpose] at hn
      | _ => simp [Job.exchange?] at hn
    · simp at hn
    · cases hn

/- A step answers nothing as unsent that went on a link. -/
theorem unsent_drive
    (c : Connector W L)
    {s : Story W L A}
    (h : s.Unsent c) :
    (s.drive c).Unsent c := by
  have hAccounts := accounts_drive c h.accounts
  refine ⟨hAccounts, shows_drive c h.accounts h.shows, ?_⟩
  intro r hr
  cases hDriver : s.driver with
  | none =>
      rw [drive_of_none c hDriver] at hr ⊢
      exact h.answers r hr
  | some d =>
      unfold Wire.served at hr
      rw [drive_log c hDriver (by
        intro n hn
        cases n <;> first | rfl | cases hn)] at hr
      rcases List.mem_append.mp hr with hOld | hNew
      · have hTaken := taken_of_served h.shows hOld
        have hAnswers := h.answers r hOld
        have hDealing :=
          Driver.step_dealing (c.taped A d.job.purpose) s.now
            s.world (h.accounts.fits d hDriver)
        rw [← drive_driver c hDriver,
          ← drive_connection c hDriver] at hDealing
        generalize (s.drive c).driver = driver' at hDealing
        generalize (s.drive c).connection = k' at hDealing ⊢
        cases hDealing with
        | keep hRequest hQueue hSlots =>
            rw [Connection.answersTo_congr hSlots]
            exact hAnswers
        | skip hFree hFree' hQueue hSlots hGone =>
            rw [Connection.answersTo_congr hSlots]
            exact hAnswers
        | take hFree hJob hStart hQueue hSlots hGone =>
            rw [Connection.answersTo_congr hSlots]
            exact hAnswers
        | answer hRequest hFree' hQueue hSlots hSent =>
            rename_i d' r' a
            rw [Connection.answersTo_congr hSlots]
            have hCurrent :=
              (h.accounts.current d hDriver r' hRequest).1
            by_cases hSame : r'.id = r.id
            · rw [← hSame] at hAnswers ⊢
              rw [Connection.answersTo_answer_self _ _
                (h.accounts.id_lt
                  (h.accounts.mem_of_taken hCurrent))]
              intro hMem
              rcases List.mem_cons.mp hMem with hEq | hMem
              · exact hSent hEq.symm
              · exact hAnswers hMem
            · rw [Connection.answersTo_answer_of_ne _ _ hSame]
              exact hAnswers
        | finish hFree hState =>
            rw [Connection.answersTo_congr
                (Connection.slots_failAll _ _),
              Connection.answersTo_failEach_of_notMem]
            · exact hAnswers
            · intro hWaiting
              rcases List.mem_map.mp hWaiting with
                ⟨r', hr', hSame⟩
              exact h.accounts.id_ne hTaken hr' hSame.symm
      · rcases current_of_served_marks hNew with
          ⟨d', hd', hRequest⟩
        rw [(hAccounts.current d' hd' r hRequest).2]
        exact List.not_mem_nil

/- No other move answers what has been sent. -/
theorem unsent_step
    (c : Connector W L)
    (act : A → W → W)
    (s : Story W L A)
    (m : Move A)
    (h : s.Unsent c) :
    (s.step c act m).Unsent c := by
  have hAccounts := accounts_step c act s m h.accounts
  have hShows := shows_step c act s m h.accounts h.shows
  cases m with
  | submit a options =>
      refine ⟨hAccounts, hShows, ?_⟩
      intro r hr
      rw [step, submit_connection, Connection.answersTo_submit]
      apply h.answers
      simp only [step, submit] at hr
      split at hr
      · simpa [Note.served?] using hr
      · exact hr
  | abandon id =>
      refine ⟨hAccounts, hShows, ?_⟩
      intro r hr
      rw [step, Connection.answersTo_abandon]
      exact h.answers r hr
  | close =>
      refine ⟨hAccounts, hShows, ?_⟩
      intro r hr
      rw [step, Connection.answersTo_close]
      exact h.answers r hr
  | outside a =>
      refine ⟨hAccounts, hShows, ?_⟩
      intro r hr
      apply h.answers
      simpa [step, Taped.act, Note.served?] using hr
  | pass ms => exact ⟨hAccounts, hShows, h.answers⟩
  | drive => exact unsent_drive c h

/- So it is throughout a run. -/
theorem unsent_run
    (c : Connector W L)
    (act : A → W → W)
    (settings : Settings)
    (now : Nat)
    (w : W)
    (moves : List (Move A)) :
    Unsent c ((start settings now w).run c act moves) := by
  apply run_induction (fun s m _ => unsent_step c act s m)
  refine ⟨accounts_start settings now w,
    shows_start c settings now w, ?_⟩
  intro r hr
  cases hr

------------------------------------------------------------
-- One Link, One Exchange, One Block
------------------------------------------------------------

/- How requests go on the wire. -/
structure Disciplined
    (c : Connector W L)
    (s : Story W L A) : Prop where
  /- No request goes on links twice. -/
  servedOnce :
    ((Wire.served s.world.log).map Request.id).Nodup
  /- They go on links in the order of leaving the queue. -/
  servedInOrder :
    (Wire.served s.world.log).Sublist (s.taken.map Prod.fst)
  /- All that is tried for a request is tried on one link. -/
  oneLink : ∀ n n' r,
    (n, r) ∈ Wire.tried s.world.log →
      (n', r) ∈ Wire.tried s.world.log → n = n'
  /-
    A frame is tried within the exchange that is under way,
    or to greet a fresh link; an exchange begins once all
    earlier ones on its link have been answered in full.
  -/
  lawful : Wire.Lawful s.world.log
  /- What is written to a link is a greeting, and blocks. -/
  layout : ∀ n,
    Wire.Layout c.profile c.handshake n s.world.log
  /- The blocks of a link are for requests in their order. -/
  blocksInOrder : ∀ n,
    ((Wire.begun n s.world.log).filterMap
      fun x => x.1.request?).Sublist (s.taken.map Prod.fst)
  /- Nothing is tried after an exchange that has failed. -/
  silent : ∀ before n why result after,
    s.world.log = before ++ .ended n why result :: after →
      (∀ x, result ≠ some (.ok x)) →
        ∀ why' frame answer,
          .wrote n why' frame answer ∉ after
  /- A request that is refused leaves everything as it is. -/
  refused : ∀ a options e,
    (s.connection.submit a options).1 = .error e →
      s.submit a options = s
  /-
    Nothing is tried for a request that was not accepted, or
    whose caller had gone, or that was answered as unsent.
  -/
  unsent : ∀ n r,
    (n, r) ∈ Wire.tried s.world.log →
      r ∈ s.accepted ∧ (r, true) ∉ s.taken ∧
        .error .disconnectedBeforeSending ∉
          s.connection.answersTo r.id

/-
  Whatever callers, links and the passing of time do, and in
  whatever order: the frames of a request are tried in at
  most one exchange, on one link; what is written to a link
  is the greeting and then a block for each exchange, each
  block the first frames of its command; an exchange begins
  only once all before it on that link have been answered in
  full; and what was answered as unsent was not sent.
-/
theorem run_disciplined
    (c : Connector W L)
    (act : A → W → W)
    (settings : Settings)
    (now : Nat)
    (w : W)
    (moves : List (Move A)) :
    let s := (start settings now w).run c act moves
    s.erase =
        (Scenario.start settings now w).run c act moves ∧
      s.Disciplined c := by
  intro s
  have h : s.Unsent c := unsent_run c act settings now w moves
  refine ⟨erase_run c act (start settings now w) moves, ?_⟩
  rcases h.shows with ⟨wire, hShows, -⟩
  have hTrace := hShows.trace
  have hInOrder :
      (Wire.served s.world.log).Sublist
        (s.taken.map Prod.fst) :=
    hTrace.served_sublist.trans s.heeded_sublist
  have hTakenOnce :
      ((s.taken.map Prod.fst).map Request.id).Nodup := by
    have hApart := h.accounts.ids_nodup
    rw [h.accounts.order, List.map_append,
      List.nodup_append] at hApart
    exact hApart.1
  have hOnce :
      ((Wire.served s.world.log).map Request.id).Nodup :=
    hTakenOnce.sublist (hInOrder.map Request.id)
  have hApart :
      ∀ rs : List Request,
        (rs.map Request.id).Nodup → rs.Nodup := by
    intro rs
    apply List.Pairwise.of_map
    intro r r' hIds hSame
    exact hIds (congrArg Request.id hSame)
  constructor
  · exact hOnce
  · exact hInOrder
  · intro n n' r
    exact hTrace.link_unique (hApart _ hOnce)
  · exact hTrace.lawful
  · exact hTrace.layout
  · intro n
    exact (Wire.begun_sublist n s.world.log).trans hInOrder
  · intro before n why result after hSplit hFailed
    exact hTrace.lawful.silent hSplit hFailed
  · intro a options e hRefused
    exact submit_of_refused hRefused
  · intro n r hTried
    rcases hTrace.begun_of_tried hTried with ⟨plan, hBegun⟩
    have hServed := Wire.served_of_begun hBegun
    have hTaken := taken_of_served h.shows hServed
    refine ⟨h.accounts.mem_of_taken hTaken, ?_,
      h.answers r hServed⟩
    intro hGone
    have hNodup :
        (s.taken.filterMap fun x => some x.1).Nodup := by
      rw [List.filterMap_eq_map']
      exact hApart _ hTakenOnce
    cases Wire.eq_of_filterMap_nodup hNodup hTaken hGone rfl
      rfl

end Story

end DeviceSession
