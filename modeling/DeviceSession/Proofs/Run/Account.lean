import DeviceSession.Proofs.Run.DriverStep

/-
  How a connection accounts for its requests.

  A step of the driver leaves the requests alone, or deals
  with one of them, or fails all that wait.  The account is
  what these steps keep: the requests leave the queue in the
  order in which they came, and none is answered twice or
  forgotten.

  Key definitions include:
    * `Connection.answersTo`
    * `Driver.Dealing`
    * `Account`

  Main declarations:
    * `Driver.step_dealing`
    * `Account.submit`
    * `Account.deal`
    * `Account.answered_deal`
-/

------------------------------------------------------------
-- Handing In Requests
------------------------------------------------------------

namespace DeviceSession

namespace Connection

/- Nothing is accepted once the connection has ended. -/
theorem submit_of_ended
    {k : Connection}
    (hState : k.state = .terminated)
    (a : Apdu)
    (options : RequestOptions) :
    k.submit a options = (.error .terminated, k) := by
  unfold submit
  rw [hState]
  rfl

/- There is nothing to close any more. -/
theorem close_of_ended
    {k : Connection}
    (hState : k.state = .terminated) :
    k.close = k := by
  unfold close
  rw [hState]
  rfl

theorem isTerminated_of_ne
    {k : Connection}
    (hState : k.state ≠ .terminated) :
    k.state.isTerminated = false := by
  cases hCase : k.state with
  | terminated => exact absurd hCase hState
  | _ => rfl

/- Nothing is when the queue is full. -/
theorem submit_of_full
    {k : Connection}
    (hState : k.state ≠ .terminated)
    (hFull : queueDepth ≤ k.queue.length)
    (a : Apdu)
    (options : RequestOptions) :
    k.submit a options = (.error .queueFull, k) := by
  unfold submit
  rw [isTerminated_of_ne hState, if_neg Bool.false_ne_true,
    if_neg (Nat.not_lt.mpr hFull)]

/- Anything else is, and has a new slot. -/
theorem submit_of_room
    {k : Connection}
    (hState : k.state ≠ .terminated)
    (hRoom : k.queue.length < queueDepth)
    (a : Apdu)
    (options : RequestOptions) :
    k.submit a options =
      (.ok k.slots.size,
        { k with
          queue := k.queue ++ [⟨k.slots.size, a, options⟩]
          slots := k.slots.push {} }) := by
  unfold submit
  rw [isTerminated_of_ne hState, if_neg Bool.false_ne_true,
    if_pos hRoom]

/- A request that is refused leaves the connection as it is. -/
theorem submit_of_error
    {k : Connection}
    {a : Apdu}
    {options : RequestOptions}
    {e : ConnectionError}
    (hRefused : (k.submit a options).1 = .error e) :
    k.submit a options = (.error e, k) := by
  by_cases hState : k.state = .terminated
  · rw [submit_of_ended hState] at hRefused ⊢
    cases hRefused
    rfl
  · by_cases hRoom : k.queue.length < queueDepth
    · rw [submit_of_room hState hRoom] at hRefused
      cases hRefused
    · rw [submit_of_full hState (Nat.not_lt.mp hRoom)]
        at hRefused ⊢
      cases hRefused
      rfl

/- So a refusal tells which of the two it was. -/
theorem submit_terminated_iff
    (k : Connection)
    (a : Apdu)
    (options : RequestOptions) :
    k.submit a options = (.error .terminated, k) ↔
      k.state = .terminated := by
  constructor
  · intro hRefused
    by_cases hState : k.state = .terminated
    · exact hState
    · by_cases hRoom : k.queue.length < queueDepth
      · rw [submit_of_room hState hRoom] at hRefused
        cases hRefused
      · rw [submit_of_full hState (Nat.not_lt.mp hRoom)]
          at hRefused
        cases hRefused
  · intro hState
    exact submit_of_ended hState a options

/- The same for a full queue. -/
theorem submit_queueFull_iff
    {k : Connection}
    (hDepth : k.queue.length ≤ queueDepth)
    (a : Apdu)
    (options : RequestOptions) :
    k.submit a options = (.error .queueFull, k) ↔
      k.state ≠ .terminated ∧ k.queue.length = queueDepth := by
  constructor
  · intro hRefused
    by_cases hState : k.state = .terminated
    · rw [submit_of_ended hState] at hRefused
      cases hRefused
    · by_cases hRoom : k.queue.length < queueDepth
      · rw [submit_of_room hState hRoom] at hRefused
        cases hRefused
      · exact ⟨hState,
          Nat.le_antisymm hDepth (Nat.not_lt.mp hRoom)⟩
  · rintro ⟨hState, hFull⟩
    exact submit_of_full hState (Nat.le_of_eq hFull.symm) a
      options

/- Handing in a request does not change the state. -/
theorem state_submit
    (k : Connection)
    (a : Apdu)
    (options : RequestOptions) :
    (k.submit a options).2.state = k.state := by
  unfold submit
  split
  · rfl
  · split <;> rfl

/- Nor does a wish to close; the driver has to heed it. -/
theorem state_close (k : Connection) :
    k.close.state = k.state := by
  unfold close
  split <;> rfl

/- A wish to close answers nobody. -/
theorem slots_close (k : Connection) :
    k.close.slots = k.slots := by
  unfold close
  split <;> rfl

------------------------------------------------------------
-- Answers in Slots
------------------------------------------------------------

/- The answers to a request, the latest first. -/
def answersTo (k : Connection) (id : Nat) : List Answer :=
  (k.slots[id]?.map Slot.answers).getD []

/- A caller gets the latest answer. -/
theorem answer?_eq (k : Connection) (id : Nat) :
    k.answer? id = (k.answersTo id).head? := by
  unfold answer? answersTo
  cases k.slots[id]? <;> rfl

/- Answers are in the slots. -/
theorem answersTo_congr
    {k k' : Connection}
    (hSlots : k'.slots = k.slots)
    (id : Nat) :
    k'.answersTo id = k.answersTo id := by
  unfold answersTo
  rw [hSlots]

/- Nobody has been answered by a wish to close. -/
theorem answersTo_close (k : Connection) (id : Nat) :
    k.close.answersTo id = k.answersTo id :=
  answersTo_congr k.slots_close id

/- Nor by a caller that goes. -/
theorem answersTo_abandon
    (k : Connection)
    (id id' : Nat) :
    (k.abandon id).answersTo id' = k.answersTo id' := by
  unfold answersTo abandon
  rw [Array.getElem?_modify]
  by_cases hSame : id = id'
  · rw [if_pos hSame]
    cases k.slots[id']? <;> rfl
  · rw [if_neg hSame]

/- A request that is answered has one answer more. -/
theorem answersTo_answer_self
    (k : Connection)
    {r : Request}
    (a : Answer)
    (hSlot : r.id < k.slots.size) :
    (k.answer r a).answersTo r.id = a :: k.answersTo r.id := by
  unfold answersTo answer
  rw [Array.getElem?_modify, if_pos rfl,
    Array.getElem?_eq_getElem hSlot]
  rfl

/- All others have as many as before. -/
theorem answersTo_answer_of_ne
    (k : Connection)
    {r : Request}
    (a : Answer)
    {id : Nat}
    (hOther : r.id ≠ id) :
    (k.answer r a).answersTo id = k.answersTo id := by
  unfold answersTo answer
  rw [Array.getElem?_modify, if_neg hOther]

/- A slot that has just been made holds no answer. -/
theorem answersTo_push
    (k : Connection)
    (queue : List Request)
    (id : Nat) :
    answersTo { k with queue, slots := k.slots.push {} } id =
      k.answersTo id := by
  unfold answersTo
  rw [Array.getElem?_push]
  by_cases hNew : id = k.slots.size
  · rw [if_pos hNew, hNew, Array.getElem?_size]
    rfl
  · rw [if_neg hNew]

/- Handing in a request answers none. -/
theorem answersTo_submit
    (k : Connection)
    (a : Apdu)
    (options : RequestOptions)
    (id : Nat) :
    (k.submit a options).2.answersTo id = k.answersTo id := by
  by_cases hState : k.state = .terminated
  · rw [submit_of_ended hState]
  · by_cases hRoom : k.queue.length < queueDepth
    · rw [submit_of_room hState hRoom]
      exact answersTo_push k _ id
    · rw [submit_of_full hState (Nat.not_lt.mp hRoom)]

/- Fail each of a list of requests. -/
def failEach
    (e : ConnectionError)
    (k : Connection)
    (rs : List Request) : Connection :=
  rs.foldl (fun k r => k.answer r (.error e)) k

/- Failing all that wait is failing one by one. -/
theorem slots_failAll (k : Connection) (e : ConnectionError) :
    (k.failAll e).slots = (failEach e k k.queue).slots := rfl

/- No slot comes of it. -/
theorem size_failEach
    (e : ConnectionError)
    (k : Connection)
    (rs : List Request) :
    (failEach e k rs).slots.size = k.slots.size := by
  induction rs generalizing k with
  | nil => rfl
  | cons r rs ih =>
      have hSize :
          (k.answer r (.error e)).slots.size = k.slots.size :=
        Array.size_modify
      rw [← hSize]
      exact ih _

/- Whoever does not wait is not answered. -/
theorem answersTo_failEach_of_notMem
    (e : ConnectionError)
    (k : Connection)
    {rs : List Request}
    {id : Nat}
    (hOther : id ∉ rs.map Request.id) :
    (failEach e k rs).answersTo id = k.answersTo id := by
  induction rs generalizing k with
  | nil => rfl
  | cons r rs ih =>
      simp only [List.map_cons, List.mem_cons, not_or]
        at hOther
      have hTail :
          (failEach e (k.answer r (.error e)) rs).answersTo
              id = (k.answer r (.error e)).answersTo id :=
        ih _ hOther.2
      rw [k.answersTo_answer_of_ne _ (Ne.symm hOther.1)]
        at hTail
      exact hTail

/- Failing them changes nothing but answers. -/
theorem state_failEach
    (e : ConnectionError)
    (k : Connection)
    (rs : List Request) :
    (failEach e k rs).state = k.state := by
  induction rs generalizing k with
  | nil => rfl
  | cons r rs ih => exact ih (k.answer r (.error e))

theorem settings_failEach
    (e : ConnectionError)
    (k : Connection)
    (rs : List Request) :
    (failEach e k rs).settings = k.settings := by
  induction rs generalizing k with
  | nil => rfl
  | cons r rs ih => exact ih (k.answer r (.error e))

theorem events_failEach
    (e : ConnectionError)
    (k : Connection)
    (rs : List Request) :
    (failEach e k rs).events = k.events := by
  induction rs generalizing k with
  | nil => rfl
  | cons r rs ih => exact ih (k.answer r (.error e))

/- Of requests with slots of their own, each is failed once. -/
theorem answersTo_failEach
    (e : ConnectionError)
    (k : Connection)
    {rs : List Request}
    (hApart : (rs.map Request.id).Nodup)
    (hSlots : ∀ r ∈ rs, r.id < k.slots.size)
    {r : Request}
    (hr : r ∈ rs) :
    (failEach e k rs).answersTo r.id =
      .error e :: k.answersTo r.id := by
  induction rs generalizing k with
  | nil => cases hr
  | cons r' rs ih =>
      simp only [List.map_cons, List.nodup_cons] at hApart
      have hSlot : r'.id < k.slots.size :=
        hSlots r' List.mem_cons_self
      have hRest :
          ∀ r ∈ rs,
            r.id < (k.answer r' (.error e)).slots.size := by
        intro r hr
        have hSize :
            (k.answer r' (.error e)).slots.size =
              k.slots.size := Array.size_modify
        rw [hSize]
        exact hSlots r (List.mem_cons_of_mem _ hr)
      rcases List.mem_cons.mp hr with rfl | hr
      · have hTail :=
          answersTo_failEach_of_notMem e
            (k.answer r (.error e)) hApart.1
        rw [k.answersTo_answer_self _ hSlot] at hTail
        exact hTail
      · have hTail := ih _ hApart.2 hRest hr
        have hOther : r'.id ≠ r.id := by
          intro hSame
          apply hApart.1
          rw [hSame]
          exact List.mem_map_of_mem hr
        rw [k.answersTo_answer_of_ne _ hOther] at hTail
        exact hTail

end Connection

------------------------------------------------------------
-- Steps and Requests
------------------------------------------------------------

/- The request that is on the link. -/
def Job.request?
    {L : Type} : Job L → Option Request
  | .exchanging r _ => some r
  | _ => none

namespace Driver

variable {W L : Type}

/- The driver has no request on the link. -/
def Free (d : Driver L) : Prop :=
  d.job.request? = none

/- What a step of a driver does with the requests. -/
inductive Dealing (d : Driver L) (k : Connection) :
    Option (Driver L) → Connection → Prop where
  | keep
      {d' : Driver L}
      {k' : Connection}
      (hRequest : d'.job.request? = d.job.request?)
      (hQueue : k'.queue = k.queue)
      (hSlots : k'.slots = k.slots) :
      Dealing d k (some d') k'
  | skip
      {d' : Driver L}
      {k' : Connection}
      {r : Request}
      (hFree : d.Free)
      (hFree' : d'.Free)
      (hQueue : k.queue = r :: k'.queue)
      (hSlots : k'.slots = k.slots)
      (hGone : k.callerGone r = true) :
      Dealing d k (some d') k'
  | take
      {d' : Driver L}
      {k' : Connection}
      {r : Request}
      {x : Exchange}
      (hFree : d.Free)
      (hJob : d'.job = .exchanging r x)
      (hStart : x.phase = .start)
      (hQueue : k.queue = r :: k'.queue)
      (hSlots : k'.slots = k.slots)
      (hGone : k.callerGone r = false) :
      Dealing d k (some d') k'
  | answer
      {d' : Driver L}
      {k' : Connection}
      {r : Request}
      {a : Answer}
      (hRequest : d.job.request? = some r)
      (hFree' : d'.Free)
      (hQueue : k'.queue = k.queue)
      (hSlots : k'.slots = (k.answer r a).slots)
      (hSent : a ≠ .error .disconnectedBeforeSending) :
      Dealing d k (some d') k'
  | finish
      (hFree : d.Free)
      (hState : k.state = .terminated) :
      Dealing d k none (k.failAll d.failure)

/- After an input no request is on the link. -/
theorem feed_free
    (c : Connector W L)
    (now : Nat)
    (input : LifecycleInput)
    (d : Driver L)
    (k : Connection)
    (w : W) :
    (feed c now input d k w).1.Free := by
  unfold Free
  rw [feed_job]
  rfl

/- An input of the lifecycle leaves the requests alone. -/
theorem dealing_feed
    (c : Connector W L)
    (now : Nat)
    (input : LifecycleInput)
    (d₀ : Driver L)
    {d : Driver L}
    {k k₀ : Connection}
    (w : W)
    (hFree : d.Free)
    (hQueue : k₀.queue = k.queue)
    (hSlots : k₀.slots = k.slots) :
    Dealing d k (moved (feed c now input d₀ k₀ w)).1.next?
      (moved (feed c now input d₀ k₀ w)).2.1 := by
  rcases feed_connection c now input d₀ k₀ w with ⟨events, hk⟩
  refine .keep ?_ ?_ ?_
  · rw [hFree]
    exact feed_free c now input d₀ k₀ w
  · exact (congrArg Connection.queue hk).trans hQueue
  · exact (congrArg Connection.slots hk).trans hSlots

/-
  An input of the lifecycle after the answer to the request
  that is on the link.
-/
theorem dealing_answer_feed
    (c : Connector W L)
    (now : Nat)
    (input : LifecycleInput)
    (d₀ : Driver L)
    {d : Driver L}
    {k k₀ : Connection}
    {r : Request}
    {a : Answer}
    (w : W)
    (hRequest : d.job.request? = some r)
    (hQueue : k₀.queue = k.queue)
    (hSlots : k₀.slots = (k.answer r a).slots)
    (hSent : a ≠ .error .disconnectedBeforeSending) :
    Dealing d k (moved (feed c now input d₀ k₀ w)).1.next?
      (moved (feed c now input d₀ k₀ w)).2.1 := by
  rcases feed_connection c now input d₀ k₀ w with ⟨events, hk⟩
  refine .answer hRequest (feed_free c now input d₀ k₀ w)
    ?_ ?_ hSent
  · exact (congrArg Connection.queue hk).trans hQueue
  · exact (congrArg Connection.slots hk).trans hSlots

/- Every step deals with the requests in one of these ways. -/
theorem step_dealing
    (c : Connector W L)
    (now : Nat)
    {d : Driver L}
    {k : Connection}
    (w : W)
    (hFits : d.Fits k.state) :
    Dealing d k (d.step c now k w).1.next?
      (d.step c now k w).2.1 := by
  have hOutcome := step_outcome c now w hFits
  generalize d.step c now k w = result at hOutcome ⊢
  have hFree :
      (∀ r x, d.job ≠ .exchanging r x) → d.Free := by
    intro hOther
    unfold Free Job.request?
    split
    · rename_i r x hJob
      exact absurd hJob (hOther r x)
    · rfl
  cases hOutcome with
  | finish hJob hState =>
      exact .finish (hFree (by simp [hJob])) hState
  | bringUp hJob hLink hState =>
      exact .keep (hFree (by simp [hJob])).symm rfl rfl
  | serve hJob hLink hState =>
      exact .keep (hFree (by simp [hJob])).symm rfl rfl
  | check hJob hLink hState =>
      exact .keep (hFree (by simp [hJob])).symm rfl rfl
  | interrupt hJob hClosing =>
      rcases d with ⟨link, job, failure⟩
      cases job with
      | exchanging r x =>
          exact dealing_answer_feed c now _ _
            (a := .error .terminated) _ rfl rfl rfl (by simp)
      | _ => exact dealing_feed c now _ _ _ rfl rfl rfl
  | seek hJob hStep =>
      rename_i x x' t k' w'
      rcases hStep with ⟨hStep, rfl⟩ | ⟨hStep, rfl⟩
      all_goals
        rcases BringUp.connection_of_step hStep with
          ⟨events, rfl⟩
        exact .keep (hFree (by simp [hJob])).symm rfl rfl
  | linked hJob hStep =>
      rename_i x e k' w'
      rcases BringUp.connection_of_step hStep with ⟨events, rfl⟩
      exact dealing_feed c now _ _ _
        (hFree (by simp [hJob])) rfl rfl
  | expired hJob hStep =>
      rename_i x k' w'
      rcases BringUp.connection_of_step hStep with ⟨events, rfl⟩
      exact dealing_feed c now _ _ _
        (hFree (by simp [hJob])) rfl rfl
  | skip hJob hQueue hGone =>
      rename_i asked r rest
      rcases feed_connection c now .exchangeRejected d
          { k with queue := rest } w with
        ⟨events, hk⟩
      refine .skip (hFree (by simp [hJob]))
        (feed_free c now _ d _ w) ?_ ?_ hGone
      · rw [hQueue]
        exact congrArg (r :: Connection.queue ·) hk.symm
      · exact (congrArg Connection.slots hk).trans rfl
  | take hJob hQueue hGone =>
      exact .take (hFree (by simp [hJob])) rfl rfl hQueue rfl
        hGone
  | watch hJob hLink hQueue hStep =>
      rcases hStep with ⟨-, rfl⟩ | ⟨-, rfl⟩
      all_goals
        exact .keep (hFree (by simp [hJob])).symm rfl rfl
  | lost hJob hLink hQueue hStep =>
      exact dealing_feed c now _ _ _
        (hFree (by simp [hJob])) rfl rfl
  | exchange hJob hLink hStep =>
      rcases hStep with ⟨-, rfl⟩ | ⟨-, rfl⟩
      all_goals
        exact .keep (by rw [hJob]; rfl) rfl rfl
  | settle hOpen hJob hLink hStep =>
      rename_i r x e e' result w'
      refine dealing_answer_feed c now _ _
        (a := (Driver.settle r result).1) _
        (by rw [hJob]; rfl) rfl rfl ?_
      unfold Driver.settle
      split <;> simp
  | probe hJob hLink hStep =>
      rcases hStep with ⟨-, rfl⟩ | ⟨-, rfl⟩
      all_goals
        exact .keep (hFree (by simp [hJob])).symm rfl rfl
  | settleCheck hOpen hJob hLink hStep =>
      exact dealing_feed c now _ _ _
        (hFree (by simp [hJob])) rfl rfl

end Driver

------------------------------------------------------------
-- Accounts
------------------------------------------------------------

/-
  The requests that leave a queue, oldest first, and which
  of their callers have gone.
-/
def Connection.leaving (k k' : Connection) :
    List (Request × Bool) :=
  (k.queue.take (k.queue.length - k'.queue.length)).map
    fun r => (r, k.callerGone r)

/- A queue that stays has nobody leaving. -/
theorem Connection.leaving_of_same
    {k k' : Connection}
    (hQueue : k'.queue = k.queue) :
    k.leaving k' = [] := by
  unfold leaving
  rw [hQueue, Nat.sub_self]
  rfl

/- The first one leaves. -/
theorem Connection.leaving_of_first
    {k k' : Connection}
    {r : Request}
    (hQueue : k.queue = r :: k'.queue) :
    k.leaving k' = [(r, k.callerGone r)] := by
  unfold leaving
  rw [hQueue, List.length_cons, Nat.add_sub_cancel_left]
  rfl

/- All of them leave. -/
theorem Connection.leaving_of_all
    {k k' : Connection}
    (hQueue : k'.queue = []) :
    k.leaving k' =
      k.queue.map fun r => (r, k.callerGone r) := by
  unfold leaving
  rw [hQueue, List.length_nil, Nat.sub_zero, List.take_length]

/-
  How a connection and its driver stand to the requests that
  were accepted and to those that have left the queue.
-/
structure Account
    {L : Type}
    (driver : Option (Driver L))
    (k : Connection)
    (accepted : List Request)
    (taken : List (Request × Bool)) : Prop where
  fits : ∀ d ∈ driver, d.Fits k.state
  ended :
    driver = none → k.state = .terminated ∧ k.queue = []
  room : k.queue.length ≤ Connection.queueDepth
  /- First in, first out. -/
  order : accepted = taken.map Prod.fst ++ k.queue
  /- Each request has a slot of its own. -/
  numbers :
    accepted.map Request.id = List.range k.slots.size
  waiting : ∀ r ∈ k.queue, k.answersTo r.id = []
  current :
    ∀ d ∈ driver, ∀ r, d.job.request? = some r →
      (r, false) ∈ taken ∧ k.answersTo r.id = []
  answered :
    ∀ r, (r, false) ∈ taken →
      (∃ d ∈ driver, d.job.request? = some r) ∨
        (k.answersTo r.id).length = 1
  once : ∀ id, (k.answersTo id).length ≤ 1

namespace Account

variable {L : Type}
variable {driver : Option (Driver L)} {k : Connection}
variable {accepted : List Request}
variable {taken : List (Request × Bool)}

/- Each request has its own number. -/
theorem ids_nodup
    (h : Account driver k accepted taken) :
    (accepted.map Request.id).Nodup := by
  rw [h.numbers]
  exact List.nodup_range

/- There is a slot for it. -/
theorem id_lt
    (h : Account driver k accepted taken)
    {r : Request}
    (hr : r ∈ accepted) :
    r.id < k.slots.size := by
  apply List.mem_range.mp
  rw [← h.numbers]
  exact List.mem_map_of_mem hr

/- Only what was accepted is taken. -/
theorem mem_of_taken
    (h : Account driver k accepted taken)
    {r : Request}
    {gone : Bool}
    (hr : (r, gone) ∈ taken) :
    r ∈ accepted := by
  rw [h.order]
  exact List.mem_append_left _
    (List.mem_map_of_mem (f := Prod.fst) hr)

/- Only that waits. -/
theorem mem_of_waiting
    (h : Account driver k accepted taken)
    {r : Request}
    (hr : r ∈ k.queue) :
    r ∈ accepted := by
  rw [h.order]
  exact List.mem_append_right _ hr

/- A request that has left the queue is not in it. -/
theorem id_ne
    (h : Account driver k accepted taken)
    {r r' : Request}
    {gone : Bool}
    (hr : (r, gone) ∈ taken)
    (hr' : r' ∈ k.queue) :
    r.id ≠ r'.id := by
  have hApart := h.ids_nodup
  rw [h.order, List.map_append, List.nodup_append] at hApart
  apply hApart.2.2
  · exact List.mem_map_of_mem
      (List.mem_map_of_mem (f := Prod.fst) hr)
  · exact List.mem_map_of_mem hr'

/- No request waits twice. -/
theorem queue_nodup
    (h : Account driver k accepted taken) :
    (k.queue.map Request.id).Nodup := by
  have hApart := h.ids_nodup
  rw [h.order, List.map_append, List.nodup_append] at hApart
  exact hApart.2.1

/-
  A change that leaves the queue and the answers alone keeps
  the account.
-/
theorem keep
    (h : Account driver k accepted taken)
    {driver' : Option (Driver L)}
    {k' : Connection}
    (hFits : ∀ d ∈ driver', d.Fits k'.state)
    (hEnded : driver' = none → k'.state = .terminated)
    (hDriver :
      driver'.bind (fun d => d.job.request?) =
        driver.bind (fun d => d.job.request?))
    (hNone : driver' = none → driver = none)
    (hQueue : k'.queue = k.queue)
    (hSize : k'.slots.size = k.slots.size)
    (hAnswers : ∀ id, k'.answersTo id = k.answersTo id) :
    Account driver' k' accepted taken where
  fits := hFits
  ended hDone :=
    ⟨hEnded hDone, hQueue.trans (h.ended (hNone hDone)).2⟩
  room := by rw [hQueue]; exact h.room
  order := by rw [hQueue]; exact h.order
  numbers := by rw [hSize]; exact h.numbers
  waiting r hr := by
    rw [hAnswers]
    exact h.waiting r (hQueue ▸ hr)
  current d' hd' r hr := by
    rw [hAnswers]
    have hBind :
        driver'.bind (fun d => d.job.request?) = some r :=
      Option.bind_eq_some_iff.mpr ⟨d', hd', hr⟩
    rw [hDriver] at hBind
    rcases Option.bind_eq_some_iff.mp hBind with ⟨d, hd, hr⟩
    exact h.current d hd r hr
  answered r hr := by
    rw [hAnswers]
    rcases h.answered r hr with ⟨d, hd, hCurrent⟩ | hOne
    · have hBind :
          driver.bind (fun d => d.job.request?) = some r :=
        Option.bind_eq_some_iff.mpr ⟨d, hd, hCurrent⟩
      rw [← hDriver] at hBind
      exact .inl (Option.bind_eq_some_iff.mp hBind)
    · exact .inr hOne
  once id := by
    rw [hAnswers]
    exact h.once id

/- A request that is accepted joins the queue. -/
theorem submit
    (h : Account driver k accepted taken)
    {a : Apdu}
    {options : RequestOptions}
    {id : Nat}
    {k' : Connection}
    (hSubmit : k.submit a options = (.ok id, k')) :
    Account driver k' (accepted ++ [⟨id, a, options⟩])
      taken := by
  unfold Connection.submit at hSubmit
  split at hSubmit
  · cases hSubmit
  · rename_i hState
    split at hSubmit
    · rename_i hRoom
      cases hSubmit
      have hNew :
          k.answersTo k.slots.size = [] := by
        simp [Connection.answersTo]
      constructor
      · exact h.fits
      · intro hNone
        rw [(h.ended hNone).1] at hState
        simp [Lifecycle.isTerminated] at hState
      · rw [List.length_append]
        exact hRoom
      · rw [← List.append_assoc, ← h.order]
      · rw [List.map_append, h.numbers, Array.size_push,
          List.range_succ]
        rfl
      · intro r hr
        rw [Connection.answersTo_push]
        rcases List.mem_append.mp hr with hr | hr
        · exact h.waiting r hr
        · rw [List.mem_singleton.mp hr]
          exact hNew
      · intro d hd r hr
        rw [Connection.answersTo_push]
        exact h.current d hd r hr
      · intro r hr
        rw [Connection.answersTo_push]
        exact h.answered r hr
      · intro id
        rw [Connection.answersTo_push]
        exact h.once id
    · cases hSubmit

/- The oldest request leaves the queue. -/
theorem leave
    {d d' : Driver L}
    {k' : Connection}
    {r : Request}
    (h : Account (some d) k accepted taken)
    (hFits : d'.Fits k'.state)
    (hFree : d.Free)
    (hFree' :
      d'.Free ∨
        d'.job.request? = some r ∧ k.callerGone r = false)
    (hGone : k.callerGone r = false → d'.job.request? = some r)
    (hQueue : k.queue = r :: k'.queue)
    (hSlots : k'.slots = k.slots) :
    Account (some d') k' accepted
      (taken ++ [(r, k.callerGone r)]) := by
  have hAnswers := Connection.answersTo_congr hSlots
  constructor
  · intro d'' hd
    cases hd
    exact hFits
  · intro hNone
    cases hNone
  · have hRoom := h.room
    rw [hQueue] at hRoom
    exact Nat.le_of_succ_le hRoom
  · rw [List.map_append, List.append_assoc, h.order, hQueue]
    rfl
  · rw [hSlots]
    exact h.numbers
  · intro r' hr'
    rw [hAnswers]
    apply h.waiting
    rw [hQueue]
    exact List.mem_cons_of_mem _ hr'
  · intro d'' hd r' hr'
    cases hd
    rcases hFree' with hFree' | ⟨hRequest, hHere⟩
    · rw [hFree'] at hr'
      cases hr'
    · rw [hRequest] at hr'
      cases hr'
      rw [hAnswers, hHere]
      constructor
      · exact List.mem_append_right _ List.mem_cons_self
      · apply h.waiting
        rw [hQueue]
        exact List.mem_cons_self
  · intro r' hr'
    rw [hAnswers]
    rcases List.mem_append.mp hr' with hr' | hr'
    · right
      rcases h.answered r' hr' with ⟨d'', hd, hCurrent⟩ | hOne
      · cases hd
        rw [hFree] at hCurrent
        cases hCurrent
      · exact hOne
    · left
      have hSame := List.mem_singleton.mp hr'
      rw [Prod.mk.injEq] at hSame
      rw [hSame.1]
      exact ⟨d', rfl, hGone hSame.2.symm⟩
  · intro id
    rw [hAnswers]
    exact h.once id

/- The request on the link is answered. -/
theorem answer
    {d d' : Driver L}
    {k' : Connection}
    {r : Request}
    {a : Answer}
    (h : Account (some d) k accepted taken)
    (hFits : d'.Fits k'.state)
    (hRequest : d.job.request? = some r)
    (hFree' : d'.Free)
    (hQueue : k'.queue = k.queue)
    (hSlots : k'.slots = (k.answer r a).slots) :
    Account (some d') k' accepted taken := by
  have hAnswers := Connection.answersTo_congr hSlots
  rcases h.current d rfl r hRequest with ⟨hTaken, hNone⟩
  have hSelf : k'.answersTo r.id = [a] := by
    rw [hAnswers, k.answersTo_answer_self a
      (h.id_lt (h.mem_of_taken hTaken)), hNone]
  have hOther :
      ∀ id, r.id ≠ id → k'.answersTo id = k.answersTo id := by
    intro id hid
    rw [hAnswers, k.answersTo_answer_of_ne a hid]
  constructor
  · intro d'' hd
    cases hd
    exact hFits
  · intro hDone
    cases hDone
  · rw [hQueue]
    exact h.room
  · rw [hQueue]
    exact h.order
  · rw [hSlots]
    exact h.numbers.trans
      (congrArg List.range Array.size_modify.symm)
  · intro r' hr'
    rw [hQueue] at hr'
    rw [hOther _ (h.id_ne hTaken hr')]
    exact h.waiting r' hr'
  · intro d'' hd r' hr'
    cases hd
    rw [hFree'] at hr'
    cases hr'
  · intro r' hr'
    right
    by_cases hSame : r.id = r'.id
    · rw [← hSame, hSelf]
      rfl
    · rw [hOther _ hSame]
      rcases h.answered r' hr' with ⟨d'', hd, hCurrent⟩ | hOne
      · cases hd
        rw [hRequest] at hCurrent
        cases hCurrent
        exact absurd rfl hSame
      · exact hOne
  · intro id
    by_cases hSame : r.id = id
    · rw [← hSame, hSelf]
      exact Nat.le_refl 1
    · rw [hOther _ hSame]
      exact h.once id

/- Every request that waits is failed, and no more come. -/
theorem finish
    {d : Driver L}
    {e : ConnectionError}
    (h : Account (some d) k accepted taken)
    (hFree : d.Free)
    (hState : k.state = .terminated) :
    Account (none : Option (Driver L)) (k.failAll e) accepted
      (taken ++ k.queue.map fun r => (r, k.callerGone r)) := by
  have hAnswers :=
    Connection.answersTo_congr (k.slots_failAll e)
  have hFailed :
      ∀ r ∈ k.queue,
        (k.failAll e).answersTo r.id = [.error e] := by
    intro r hr
    rw [hAnswers, Connection.answersTo_failEach e k
      h.queue_nodup (fun r hr => h.id_lt (h.mem_of_waiting hr))
      hr, h.waiting r hr]
  have hOther :
      ∀ id, id ∉ k.queue.map Request.id →
        (k.failAll e).answersTo id = k.answersTo id := by
    intro id hid
    rw [hAnswers,
      Connection.answersTo_failEach_of_notMem e k hid]
  constructor
  · intro d' hd
    cases hd
  · intro _
    exact ⟨(Connection.state_failEach e k k.queue).trans hState,
      rfl⟩
  · exact Nat.zero_le _
  · rw [List.map_append, List.map_map, h.order]
    simp [Function.comp_def, Connection.failAll]
  · rw [k.slots_failAll, Connection.size_failEach]
    exact h.numbers
  · intro r hr
    cases hr
  · intro d' hd
    cases hd
  · intro r hr
    right
    rcases List.mem_append.mp hr with hr | hr
    · rw [hOther]
      · rcases h.answered r hr with ⟨d', hd, hCurrent⟩ | hOne
        · cases hd
          rw [hFree] at hCurrent
          cases hCurrent
        · exact hOne
      · intro hWaiting
        rcases List.mem_map.mp hWaiting with ⟨r', hr', hSame⟩
        exact h.id_ne hr hr' hSame.symm
    · rcases List.mem_map.mp hr with ⟨r', hr', hSame⟩
      rcases Prod.mk.inj hSame with ⟨rfl, -⟩
      rw [hFailed r' hr']
      rfl
  · intro id
    by_cases hWaiting : id ∈ k.queue.map Request.id
    · rcases List.mem_map.mp hWaiting with ⟨r, hr, rfl⟩
      rw [hFailed r hr]
      exact Nat.le_refl 1
    · rw [hOther id hWaiting]
      exact h.once id

/- A step of the driver keeps the account. -/
theorem deal
    {d : Driver L}
    {driver' : Option (Driver L)}
    {k' : Connection}
    (h : Account (some d) k accepted taken)
    (hFits : ∀ d' ∈ driver', d'.Fits k'.state)
    (hDealing : d.Dealing k driver' k') :
    Account driver' k' accepted (taken ++ k.leaving k') := by
  cases hDealing with
  | keep hRequest hQueue hSlots =>
      rw [Connection.leaving_of_same hQueue, List.append_nil]
      exact h.keep hFits (by simp) hRequest (by simp) hQueue
        (by rw [hSlots]) (Connection.answersTo_congr hSlots)
  | skip hFree hFree' hQueue hSlots hGone =>
      rw [Connection.leaving_of_first hQueue]
      exact h.leave (hFits _ rfl) hFree (.inl hFree')
        (by simp [hGone]) hQueue hSlots
  | take hFree hJob hStart hQueue hSlots hGone =>
      rename_i d' r x
      have hRequest : d'.job.request? = some r := by
        rw [hJob]
        rfl
      rw [Connection.leaving_of_first hQueue]
      exact h.leave (hFits _ rfl) hFree (.inr ⟨hRequest, hGone⟩)
        (fun _ => hRequest) hQueue hSlots
  | answer hRequest hFree' hQueue hSlots hSent =>
      rw [Connection.leaving_of_same hQueue, List.append_nil]
      exact h.answer (hFits _ rfl) hRequest hFree' hQueue hSlots
  | finish hFree hState =>
      rw [Connection.leaving_of_all rfl]
      exact h.finish hFree hState

/- A request that has been answered stays as it is. -/
theorem answered_deal
    {d : Driver L}
    {driver' : Option (Driver L)}
    {k' : Connection}
    (h : Account (some d) k accepted taken)
    (hDealing : d.Dealing k driver' k')
    {id : Nat}
    (hAnswered : k.answersTo id ≠ []) :
    k'.answersTo id = k.answersTo id := by
  cases hDealing with
  | keep hRequest hQueue hSlots =>
      exact Connection.answersTo_congr hSlots id
  | skip hFree hFree' hQueue hSlots hGone =>
      exact Connection.answersTo_congr hSlots id
  | take hFree hJob hStart hQueue hSlots hGone =>
      exact Connection.answersTo_congr hSlots id
  | answer hRequest hFree' hQueue hSlots hSent =>
      rename_i d' r a
      rcases h.current d rfl r hRequest with ⟨-, hNone⟩
      have hOther : r.id ≠ id := by
        rintro rfl
        exact hAnswered hNone
      rw [Connection.answersTo_congr hSlots,
        k.answersTo_answer_of_ne a hOther]
  | finish hFree hState =>
      have hOther : id ∉ k.queue.map Request.id := by
        intro hMem
        rcases List.mem_map.mp hMem with ⟨r, hr, rfl⟩
        exact hAnswered (h.waiting r hr)
      rw [Connection.answersTo_congr (k.slots_failAll _),
        Connection.answersTo_failEach_of_notMem _ k hOther]

/-
  An answer is to the request that is on the link, or it is
  given to all that wait, for the same reason.
-/
theorem mem_deal
    {d : Driver L}
    {driver' : Option (Driver L)}
    {k' : Connection}
    (h : Account (some d) k accepted taken)
    (hDealing : d.Dealing k driver' k')
    {id : Nat}
    {a : Answer}
    (hAnswer : a ∈ k'.answersTo id) :
    a ∈ k.answersTo id ∨
      (∃ r, d.job.request? = some r ∧ r.id = id) ∨
        a = .error d.failure := by
  cases hDealing with
  | keep hRequest hQueue hSlots =>
      rw [Connection.answersTo_congr hSlots] at hAnswer
      exact .inl hAnswer
  | skip hFree hFree' hQueue hSlots hGone =>
      rw [Connection.answersTo_congr hSlots] at hAnswer
      exact .inl hAnswer
  | take hFree hJob hStart hQueue hSlots hGone =>
      rw [Connection.answersTo_congr hSlots] at hAnswer
      exact .inl hAnswer
  | answer hRequest hFree' hQueue hSlots hSent =>
      rename_i d' r a'
      by_cases hSame : r.id = id
      · exact .inr (.inl ⟨r, hRequest, hSame⟩)
      · rw [Connection.answersTo_congr hSlots,
          k.answersTo_answer_of_ne a' hSame] at hAnswer
        exact .inl hAnswer
  | finish hFree hState =>
      rw [Connection.answersTo_congr (k.slots_failAll _)]
        at hAnswer
      by_cases hMem : id ∈ k.queue.map Request.id
      · rcases List.mem_map.mp hMem with ⟨r, hr, rfl⟩
        rw [Connection.answersTo_failEach _ k h.queue_nodup
          (fun r hr => h.id_lt (h.mem_of_waiting hr)) hr]
          at hAnswer
        rcases List.mem_cons.mp hAnswer with hFailed | hOld
        · exact .inr (.inr hFailed)
        · exact .inl hOld
      · rw [Connection.answersTo_failEach_of_notMem _ k hMem]
          at hAnswer
        exact .inl hAnswer

end Account

end DeviceSession
