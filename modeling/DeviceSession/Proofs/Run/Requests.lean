import DeviceSession.Proofs.Run.Account
import DeviceSession.Proofs.Run.Erasure

/-
  One answer to each request.

  The requests of a story are those that its log tells of.
  In every run they are accounted for, so that a request is
  refused at once or answered in its turn.

  Key definitions include:
    * `Story.accepted`
    * `Story.taken`
    * `Story.Accounts`
    * `Story.Served`

  Main declarations:
    * `Story.accounts_run`
    * `Story.givenUp_run`
    * `Story.run_served`
-/

------------------------------------------------------------
-- Requests in a Log
------------------------------------------------------------

namespace DeviceSession

namespace Note

variable {A : Type}

/- The request that a note tells was accepted. -/
def accepted? : Note A → Option Request
  | .accepted r => some r
  | _ => none

/-
  The request that a note tells has left the queue, and
  whether its caller had gone.
-/
def taken? : Note A → Option (Request × Bool)
  | .took r gone => some (r, gone)
  | _ => none

end Note

/- Notes that are written down as a link is used. -/
def Note.OfLink {A : Type} : Note A → Prop
  | .opened _ => True
  | .wrote _ _ _ _ => True
  | .heard _ _ _ => True
  | .shut _ => True
  | _ => False

/- A note about a link tells nothing of requests. -/
theorem filterMap_of_ofLink
    {A B : Type}
    {f : Note A → Option B}
    (hOther : ∀ n : Note A, n.OfLink → f n = none)
    {n : Note A}
    (hLink : n.OfLink)
    (log : List (Note A)) :
    (log ++ [n]).filterMap f = log.filterMap f := by
  rw [List.filterMap_append,
    List.filterMap_cons_none (hOther n hLink)]
  exact List.append_nil _

/- The use of links keeps what a log tells of the rest. -/
theorem Connector.taped_keeps
    {W L A B : Type}
    (c : Connector W L)
    (why : Purpose)
    {f : Note A → Option B}
    (hOther : ∀ n : Note A, n.OfLink → f n = none)
    (told : List B) :
    (c.taped A why).Keeps
      fun t => t.log.filterMap f = told where
  reach _ _ h := h
  connect asked t h := by
    simp only [taped]
    split
    · exact h
    · exact h
    · exact (filterMap_of_ofLink hOther (n := .opened _)
        trivial t.log).trans h
  write asked l frame t h :=
    (filterMap_of_ofLink hOther
      (n := .wrote l.1 why frame _) trivial t.log).trans h
  event asked l t h := by
    rw [taped_event]
    cases (c.event asked l.2 t.world).1 with
    | none =>
        rw [Taped.note_log]
        exact (congrArg _ (List.append_nil _)).trans h
    | some event =>
        exact (filterMap_of_ofLink hOther
          (n := .heard l.1 why event) trivial t.log).trans h
  close l t h :=
    (filterMap_of_ofLink hOther
      (n := .shut l.1) trivial t.log).trans h

namespace Story

variable {W L A : Type}

/- The requests accepted so far, oldest first. -/
def accepted (s : Story W L A) : List Request :=
  s.world.log.filterMap Note.accepted?

/-
  The requests that have left the queue so far, oldest first,
  and whether their callers had gone by then.
-/
def taken (s : Story W L A) : List (Request × Bool) :=
  s.world.log.filterMap Note.taken?

/- A story hands a request to its connection. -/
theorem submit_connection
    (s : Story W L A)
    (a : Apdu)
    (options : RequestOptions) :
    (s.submit a options).connection =
      (s.connection.submit a options).2 := by
  unfold submit
  split
  · rename_i hSubmit
    rw [hSubmit]
  · rename_i hSubmit
    rw [hSubmit]

/- A request that is refused is not in the story. -/
theorem submit_of_refused
    {s : Story W L A}
    {a : Apdu}
    {options : RequestOptions}
    {e : ConnectionError}
    (hRefused : (s.connection.submit a options).1 = .error e) :
    s.submit a options = s := by
  unfold submit
  rw [Connection.submit_of_error hRefused]

/- What is accepted is noted, with the slot that it gets. -/
theorem accepted_submit
    (s : Story W L A)
    (a : Apdu)
    (options : RequestOptions) :
    (s.submit a options).accepted =
      s.accepted ++
        ((s.connection.submit a options).1.toOption.toList.map
          fun id => ⟨id, a, options⟩) := by
  unfold submit
  split
  · rename_i id connection hSubmit
    simp [accepted, Note.accepted?, hSubmit, Except.toOption]
  · rename_i e connection hSubmit
    simp only [hSubmit, Except.toOption, Option.toList_none,
      List.map_nil, List.append_nil]
    rfl

section Drive

variable (c : Connector W L)
variable {s : Story W L A} {d : Driver (Nat × L)}

/- A step of a story is one of its driver. -/
theorem drive_driver (hDriver : s.driver = some d) :
    (s.drive c).driver =
      (d.step (c.taped A d.job.purpose) s.now s.connection
        s.world).1.next? := by
  simp only [drive, Scenario.drive, hDriver]

/- The connection is the one that the step leaves. -/
theorem drive_connection (hDriver : s.driver = some d) :
    (s.drive c).connection =
      (d.step (c.taped A d.job.purpose) s.now s.connection
        s.world).2.1 := by
  simp only [drive, Scenario.drive, hDriver]

/- So is the world, with the marks of the step. -/
theorem drive_world (hDriver : s.driver = some d) :
    (s.drive c).world =
      (d.step (c.taped A d.job.purpose) s.now s.connection
        s.world).2.2.note (marks c s d (s.drive c)) := by
  simp only [drive, Scenario.drive, hDriver]
  rfl

/- Once the driver has ended, nothing is done. -/
theorem drive_of_none (hDriver : s.driver = none) :
    s.drive c = s := by
  simp only [drive, hDriver]

end Drive

/- The notes of a step are about the queue and the link. -/
theorem filterMap_marks
    (c : Connector W L)
    (s : Story W L A)
    (d : Driver (Nat × L))
    (s' : Story W L A) :
    (marks c s d s').filterMap Note.accepted? = [] ∧
      (marks c s d s').filterMap Note.taken? =
        s.connection.leaving s'.connection := by
  have hArrivals :
      ∀ n ∈ arrivals (A := A) d s'.driver,
        n.accepted? = none ∧ n.taken? = none := by
    unfold arrivals
    split
    · rename_i e hNone hSome
      cases e.codec <;> simp [Note.accepted?, Note.taken?]
    · simp
  have hTurns :
      ∀ result, ∀ n ∈ turns (A := A) result d s'.driver,
        n.accepted? = none ∧ n.taken? = none := by
    intro result
    unfold turns
    split
    · split
      · simp [Note.accepted?, Note.taken?]
      · simp
    · cases d.link <;> simp [Note.accepted?, Note.taken?]
    · simp
  unfold marks
  rw [List.filterMap_append, List.filterMap_append,
    List.filterMap_append, List.filterMap_append]
  constructor
  · rw [List.filterMap_eq_nil_iff.mpr
        fun n hn => (hArrivals n hn).1,
      List.filterMap_eq_nil_iff.mpr
        fun n hn => (hTurns _ n hn).1]
    unfold departures
    rw [List.filterMap_map, List.append_nil, List.append_nil]
    exact List.filterMap_eq_nil_iff.mpr fun r hr => rfl
  · rw [List.filterMap_eq_nil_iff.mpr
        fun n hn => (hArrivals n hn).2,
      List.filterMap_eq_nil_iff.mpr
        fun n hn => (hTurns _ n hn).2]
    unfold departures
    rw [List.filterMap_map, List.append_nil, List.append_nil]
    unfold Connection.leaving
    rw [← List.filterMap_eq_map]
    rfl

/- The requests of a story are accounted for. -/
def Accounts (s : Story W L A) : Prop :=
  Account s.driver s.connection s.accepted s.taken

/- At the start there are no requests. -/
theorem accounts_start
    (settings : Settings)
    (now : Nat)
    (w : W) :
    Accounts (start settings now w : Story W L A) where
  fits d hd := by
    cases hd
    rfl
  ended hDone := by cases hDone
  room := Nat.zero_le _
  order := rfl
  numbers := rfl
  waiting r hr := by cases hr
  current d hd r hr := by
    cases hd
    cases hr
  answered r hr := by cases hr
  once id := by
    simp [start, Scenario.start, Connection.answersTo]

/- What the links note in a step is not about requests. -/
theorem drive_log
    {B : Type}
    (c : Connector W L)
    {s : Story W L A}
    {d : Driver (Nat × L)}
    (hDriver : s.driver = some d)
    {f : Note A → Option B}
    (hOther : ∀ n : Note A, n.OfLink → f n = none) :
    (s.drive c).world.log.filterMap f =
      s.world.log.filterMap f ++
        (marks c s d (s.drive c)).filterMap f := by
  have hLog :=
    Driver.step_keeps
      (c.taped_keeps d.job.purpose hOther
        (s.world.log.filterMap f))
      s.now d s.connection (w := s.world) rfl
  rw [drive_world c hDriver, Taped.note_log,
    List.filterMap_append, hLog]

/- What a step of the driver notes about requests. -/
theorem drive_requests
    (c : Connector W L)
    {s : Story W L A}
    {d : Driver (Nat × L)}
    (hDriver : s.driver = some d) :
    (s.drive c).accepted = s.accepted ∧
      (s.drive c).taken =
        s.taken ++
          s.connection.leaving (s.drive c).connection := by
  rcases filterMap_marks c s d (s.drive c) with
    ⟨hAccepted, hTaken⟩
  constructor
  · rw [accepted, drive_log c hDriver, hAccepted,
      List.append_nil]
    · rfl
    · intro n hn
      cases n <;> first | rfl | cases hn
  · rw [taken, drive_log c hDriver, hTaken]
    · rfl
    · intro n hn
      cases n <;> first | rfl | cases hn

/- A step of the driver keeps the accounts. -/
theorem accounts_drive
    (c : Connector W L)
    {s : Story W L A}
    (h : s.Accounts) :
    (s.drive c).Accounts := by
  cases hDriver : s.driver with
  | none =>
      rw [drive_of_none c hDriver]
      exact h
  | some d =>
      rcases drive_requests c hDriver with ⟨hAccepted, hTaken⟩
      unfold Accounts at h ⊢
      rw [hDriver] at h
      rw [hAccepted, hTaken]
      have hFits := h.fits d rfl
      apply h.deal
      · rw [drive_driver c hDriver, drive_connection c hDriver]
        exact Driver.step_fits _ s.now s.world hFits
      · rw [drive_driver c hDriver, drive_connection c hDriver]
        exact Driver.step_dealing _ s.now s.world hFits

/- So does any other move. -/
theorem accounts_step
    (c : Connector W L)
    (act : A → W → W)
    (s : Story W L A)
    (m : Move A)
    (h : s.Accounts) :
    (s.step c act m).Accounts := by
  cases m with
  | submit a options =>
      simp only [step, submit]
      split
      · rename_i id k' hSubmit
        have hNext := Account.submit h hSubmit
        unfold accepted taken at hNext
        unfold Accounts accepted taken
        rw [Taped.note_log, List.filterMap_append,
          List.filterMap_append]
        simpa [Note.accepted?, Note.taken?,
          List.filterMap_cons] using hNext
      · rename_i e k' hSubmit
        have hSame :=
          Connection.submit_of_error
            (congrArg Prod.fst hSubmit)
        rw [hSubmit] at hSame
        cases hSame
        exact h
  | abandon id =>
      exact h.keep (fun d hd => h.fits d hd)
        (fun hDone => (h.ended hDone).1) rfl (fun hDone => hDone)
        rfl Array.size_modify
        (s.connection.answersTo_abandon id)
  | close =>
      simp only [step, Connection.close]
      split
      · exact h
      · exact h.keep (fun d hd => h.fits d hd)
          (fun hDone => (h.ended hDone).1) rfl
          (fun hDone => hDone) rfl rfl (fun id => rfl)
  | outside a =>
      unfold Accounts accepted taken at h ⊢
      simpa [step, Taped.act, Note.accepted?, Note.taken?,
        List.filterMap_cons] using h
  | pass ms => exact h
  | drive => exact accounts_drive c h

/- The requests are accounted for throughout every run. -/
theorem accounts_run
    (c : Connector W L)
    (act : A → W → W)
    (settings : Settings)
    (now : Nat)
    (w : W)
    (moves : List (Move A)) :
    Accounts ((start settings now w).run c act moves) :=
  run_induction (fun s m _ => accounts_step c act s m)
    (accounts_start settings now w)

------------------------------------------------------------
-- Requests That Are Given Up
------------------------------------------------------------

/-
  Of the callers, those have gone that some move takes away.
-/
structure GivenUp
    (moves : List (Move A))
    (s : Story W L A) : Prop where
  accounts : s.Accounts
  slots :
    ∀ id,
      s.connection.slots[id]?.map Slot.abandoned = some true →
        .abandon id ∈ moves
  taken : ∀ r, (r, true) ∈ s.taken → .abandon r.id ∈ moves

/- Answers do not change which callers have gone. -/
theorem abandoned_dealing
    {d : Driver (Nat × L)}
    {driver' : Option (Driver (Nat × L))}
    {k k' : Connection}
    (hDealing : d.Dealing k driver' k')
    (id : Nat) :
    k'.slots[id]?.map Slot.abandoned =
      k.slots[id]?.map Slot.abandoned := by
  have hAnswer :
      ∀ (k : Connection) r a,
        (k.answer r a).slots[id]?.map Slot.abandoned =
          k.slots[id]?.map Slot.abandoned := by
    intro k r a
    unfold Connection.answer
    rw [Array.getElem?_modify]
    split
    · cases k.slots[id]? <;> rfl
    · rfl
  have hFail :
      ∀ e rs (k : Connection),
        (Connection.failEach e k rs).slots[id]?.map
            Slot.abandoned =
          k.slots[id]?.map Slot.abandoned := by
    intro e rs
    induction rs with
    | nil => exact fun k => rfl
    | cons r rs ih =>
        intro k
        rw [← hAnswer k r (.error e)]
        exact ih _
  cases hDealing with
  | keep hRequest hQueue hSlots => rw [hSlots]
  | skip hFree hFree' hQueue hSlots hGone => rw [hSlots]
  | take hFree hJob hStart hQueue hSlots hGone => rw [hSlots]
  | answer hRequest hFree' hQueue hSlots hSent =>
      rw [hSlots, hAnswer]
  | finish hFree hState =>
      rw [Connection.slots_failAll, hFail]

/- The driver takes nobody for gone who is there. -/
theorem givenUp_drive
    (c : Connector W L)
    {moves : List (Move A)}
    {s : Story W L A}
    (h : s.GivenUp moves) :
    (s.drive c).GivenUp moves := by
  cases hDriver : s.driver with
  | none =>
      rw [drive_of_none c hDriver]
      exact h
  | some d =>
      rcases drive_requests c hDriver with ⟨-, hTaken⟩
      have hDealing :=
        Driver.step_dealing (c.taped A d.job.purpose) s.now
          s.world (h.accounts.fits d hDriver)
      rw [← drive_driver c hDriver,
        ← drive_connection c hDriver] at hDealing
      constructor
      · exact accounts_drive c h.accounts
      · intro id hGone
        rw [abandoned_dealing hDealing] at hGone
        exact h.slots id hGone
      · intro r hr
        rw [hTaken] at hr
        rcases List.mem_append.mp hr with hr | hr
        · exact h.taken r hr
        · rcases List.mem_map.mp hr with ⟨r', hr', hSame⟩
          rcases Prod.mk.inj hSame with ⟨rfl, hGone⟩
          have hSlot :=
            h.accounts.id_lt
              (h.accounts.mem_of_waiting
                (List.mem_of_mem_take hr'))
          apply h.slots
          unfold Connection.callerGone at hGone
          rw [Array.getElem?_eq_getElem hSlot] at hGone ⊢
          exact congrArg some hGone

/- Whoever goes has been told to by a move. -/
theorem givenUp_step
    (c : Connector W L)
    (act : A → W → W)
    {moves : List (Move A)}
    (s : Story W L A)
    (m : Move A)
    (hm : m ∈ moves)
    (h : s.GivenUp moves) :
    (s.step c act m).GivenUp moves := by
  have hAccounts := accounts_step c act s m h.accounts
  cases m with
  | submit a options =>
      simp only [step, submit] at hAccounts ⊢
      split at hAccounts
      · rename_i id k' hSubmit
        have hSlots :
            ∀ id,
              k'.slots[id]?.map Slot.abandoned = some true →
                .abandon id ∈ moves := by
          intro id hGone
          apply h.slots
          unfold Connection.submit at hSubmit
          repeat' split at hSubmit
          all_goals cases hSubmit
          rw [Array.getElem?_push] at hGone
          split at hGone
          · cases hGone
          · exact hGone
        refine ⟨hAccounts, hSlots, ?_⟩
        intro r hr
        apply h.taken
        simpa [taken, Note.taken?, List.filterMap_cons]
          using hr
      · rename_i e k' hSubmit
        have hSame :=
          Connection.submit_of_error
            (congrArg Prod.fst hSubmit)
        rw [hSubmit] at hSame
        cases hSame
        exact h
  | abandon id =>
      refine ⟨hAccounts, ?_, h.taken⟩
      intro id' hGone
      by_cases hSame : id = id'
      · rw [← hSame]
        exact hm
      · apply h.slots
        simp only [step, Connection.abandon] at hGone
        rw [Array.getElem?_modify, if_neg hSame] at hGone
        exact hGone
  | close =>
      refine ⟨hAccounts, ?_, h.taken⟩
      intro id hGone
      apply h.slots
      rw [step, Connection.slots_close] at hGone
      exact hGone
  | outside a =>
      refine ⟨hAccounts, h.slots, ?_⟩
      intro r hr
      apply h.taken
      simpa [taken, step, Taped.act, Note.taken?,
        List.filterMap_cons] using hr
  | pass ms => exact ⟨hAccounts, h.slots, h.taken⟩
  | drive => exact givenUp_drive c h

/- So it is throughout a run. -/
theorem givenUp_run
    (c : Connector W L)
    (act : A → W → W)
    (settings : Settings)
    (now : Nat)
    (w : W)
    (moves : List (Move A)) :
    GivenUp moves ((start settings now w).run c act moves) := by
  apply run_induction (givenUp_step c act)
  constructor
  · exact accounts_start settings now w
  · intro id hGone
    simp [start, Scenario.start] at hGone
  · intro r hr
    cases hr

------------------------------------------------------------
-- One Answer to Each Request
------------------------------------------------------------

/- How requests fare, after and before any moves. -/
structure Served
    (c : Connector W L)
    (act : A → W → W)
    (moves : List (Move A))
    (s : Story W L A) : Prop where
  /- What is handed in after the end is refused. -/
  refusedAtEnd : ∀ a options,
    s.connection.submit a options =
        (.error .terminated, s.connection) ↔
      s.connection.state = .terminated
  /- So is what finds as many waiting as may wait. -/
  refusedAsFull : ∀ a options,
    s.connection.submit a options =
        (.error .queueFull, s.connection) ↔
      s.connection.state ≠ .terminated ∧
        s.connection.queue.length = Connection.queueDepth
  /- Everything else is accepted, with a fresh slot. -/
  acceptedElse : ∀ a options,
    s.connection.state ≠ .terminated →
      s.connection.queue.length ≠ Connection.queueDepth →
        ∃ k id,
          s.connection.submit a options = (.ok id, k) ∧
            k.queue =
              s.connection.queue ++ [⟨id, a, options⟩] ∧
            ∀ r ∈ s.accepted, r.id ≠ id
  /- Requests leave the queue in the order they came. -/
  inOrder :
    s.accepted = s.taken.map Prod.fst ++ s.connection.queue
  /- No two of them have the same slot. -/
  apart : (s.accepted.map Request.id).Nodup
  atMostOnce :
    ∀ id, (s.connection.answersTo id).length ≤ 1
  /- At the end all are answered but those given up before. -/
  exactlyOnce :
    s.driver = none →
      s.connection.queue = [] ∧
        ∀ r ∈ s.accepted,
          (r, true) ∈ s.taken ∨
            (s.connection.answersTo r.id).length = 1
  /- Those are given up whose callers have gone away. -/
  givenUp :
    ∀ r, (r, true) ∈ s.taken → .abandon r.id ∈ moves
  /- After the end nothing is accepted any more. -/
  final :
    s.driver = none →
      ∀ later : List (Move A),
        (s.run c act later).driver = none ∧
          (s.run c act later).connection.state =
              .terminated ∧
            (s.run c act later).accepted = s.accepted

/- After the end, no move starts anything again. -/
theorem step_of_ended
    (c : Connector W L)
    (act : A → W → W)
    {s : Story W L A}
    (hDriver : s.driver = none)
    (hState : s.connection.state = .terminated)
    (m : Move A) :
    (s.step c act m).driver = none ∧
      (s.step c act m).connection.state = .terminated ∧
        (s.step c act m).accepted = s.accepted := by
  cases m with
  | submit a options =>
      have hRefused :=
        Connection.submit_of_ended hState a options
      have hSame : s.step c act (.submit a options) = s := by
        simp [step, submit, hRefused]
      rw [hSame]
      exact ⟨hDriver, hState, rfl⟩
  | close =>
      have hSame : s.step c act .close = s := by
        simp [step, Connection.close, hState,
          Lifecycle.isTerminated]
      rw [hSame]
      exact ⟨hDriver, hState, rfl⟩
  | outside a =>
      refine ⟨hDriver, hState, ?_⟩
      simp [accepted, step, Taped.act, Note.accepted?,
        List.filterMap_cons]
  | drive =>
      have hSame : s.step c act .drive = s := by
        simp [step, drive, hDriver]
      rw [hSame]
      exact ⟨hDriver, hState, rfl⟩
  | _ => exact ⟨hDriver, hState, rfl⟩

/- Nothing is accepted after the end. -/
theorem run_of_ended
    (c : Connector W L)
    (act : A → W → W)
    {s : Story W L A}
    (hDriver : s.driver = none)
    (hState : s.connection.state = .terminated)
    (moves : List (Move A)) :
    (s.run c act moves).driver = none ∧
      (s.run c act moves).connection.state = .terminated ∧
        (s.run c act moves).accepted = s.accepted := by
  apply run_induction
    (P := fun s' =>
      s'.driver = none ∧ s'.connection.state = .terminated ∧
        s'.accepted = s.accepted)
  · intro s' m _ h
    rcases step_of_ended c act h.1 h.2.1 m with
      ⟨hDriver', hState', hSame⟩
    exact ⟨hDriver', hState', hSame.trans h.2.2⟩
  · exact ⟨hDriver, hState, rfl⟩

/-
  Whatever callers, links and the passing of time do, and in
  whatever order: a request is refused at once or accepted,
  the accepted ones leave the queue in the order in which
  they came, and each is answered at most once.  When the
  driver ends, each has been answered exactly once, unless
  its caller had gone when its turn came; from then on none
  is accepted.  The run is the one without the log.
-/
theorem run_served
    (c : Connector W L)
    (act : A → W → W)
    (settings : Settings)
    (now : Nat)
    (w : W)
    (moves : List (Move A)) :
    let s := (start settings now w).run c act moves
    s.erase =
        (Scenario.start settings now w).run c act moves ∧
      s.Served c act moves := by
  intro s
  have hGone : s.GivenUp moves :=
    givenUp_run c act settings now w moves
  have h := hGone.accounts
  refine ⟨erase_run c act (start settings now w) moves, ?_⟩
  constructor
  · exact s.connection.submit_terminated_iff
  · exact Connection.submit_queueFull_iff h.room
  · intro a options hState hFull
    have hSubmit :=
      Connection.submit_of_room hState
        (Nat.lt_of_le_of_ne h.room hFull) a options
    refine ⟨_, _, hSubmit, rfl, ?_⟩
    intro r hr
    exact Nat.ne_of_lt (h.id_lt hr)
  · exact h.order
  · exact h.ids_nodup
  · exact h.once
  · intro hDone
    rcases h.ended hDone with ⟨-, hEmpty⟩
    refine ⟨hEmpty, ?_⟩
    intro r hr
    rw [h.order, hEmpty, List.append_nil] at hr
    rcases List.mem_map.mp hr with ⟨⟨r', gone⟩, hTaken, rfl⟩
    cases gone with
    | true => exact .inl hTaken
    | false =>
        rcases h.answered r' hTaken with ⟨d, hd, -⟩ | hOne
        · rw [hDone] at hd
          cases hd
        · exact .inr hOne
  · exact hGone.taken
  · intro hDone
    exact run_of_ended c act hDone (h.ended hDone).1

end Story

end DeviceSession
