import DeviceSession.Link.Pipe
import DeviceSession.Proofs.Action.Calls
import DeviceSession.Proofs.Action.Desk
import DeviceSession.Proofs.Action.Stopping
import DeviceSession.Proofs.Run.Forsaken

/-
  How a cancelled action goes away from its requests.

  A cancellation by itself does not touch the queue.  The
  next step of the run ends it, and only this step takes the
  action away from the request that is under way.  If the
  request still waits by then, nothing is ever written for
  it; but the driver may have been faster.

  Key definitions include:
    * `Desk.Attended`
    * `Desk.Keeps`
    * `Desk.Parted`

  Main declarations:
    * `Performance.step_handles`
    * `Desk.keeps_perform`
    * `Desk.perform_withdrawn`
-/

------------------------------------------------------------
-- Steps of an Execution
------------------------------------------------------------

namespace DeviceSession

/- A step of an execution handles commands as its run does. -/
theorem Performance.step_handles
    {W K : Type}
    {k : ActionKind}
    (x : Sender W K)
    (p : Performance W K k)
    (now : Nat)
    {run : Run K k}
    (hRun : p.execution.run = some run) :
    ∃ result : Run.Result W K k k,
      Run.Handles x now p.world p.execution.key? result ∧
      (p.next x (.step now)).execution.key? = result.key? ∧
      (p.next x (.step now)).world = result.2.2 := by
  rcases p with ⟨⟨_, sc⟩, w, ds⟩
  obtain rfl := hRun
  refine ⟨_, run.step_handles x now id sc w, ?_⟩
  simp only [next, Execution.step, Execution.tell, Run.step]
  rcases run.tell x now id sc w with
    ⟨⟨run' | run' | o, sc', w'⟩, es⟩
  all_goals exact ⟨rfl, rfl⟩

------------------------------------------------------------
-- Requests That Are Attended To
------------------------------------------------------------

namespace Desk

variable {W L A : Type} {k : ActionKind}

/-
  The requests that an action has handed in were accepted.
  The only one of them that may wait is the one under way,
  but for those that the action has gone away from.
-/
structure Attended
    (s : Story W L A)
    (handed : List Request)
    (key : Option Ticket) : Prop where
  accepted : ∀ r ∈ handed, r ∈ s.accepted
  waiting :
    ∀ r ∈ handed, r ∈ s.connection.queue →
      s.connection.callerGone r = true ∨
      key = some (.ok r.id)

namespace Attended

variable {s : Story W L A} {handed : List Request}
variable {key : Option Ticket}

theorem step
    (c : Connector W L)
    (act : A → W → W)
    (m : Move A)
    (hAccounts : s.Accounts)
    (hAttended : Attended s handed key) :
    Attended (s.step c act m) handed key where
  accepted := by
    intro r hMem
    exact (s.accepted_step c act m).subset
      (hAttended.accepted r hMem)
  waiting := by
    intro r hMem hQueue
    have hAccepted := hAttended.accepted r hMem
    have hBefore :=
      Story.mem_queue_of_step c act m hAccounts hAccepted hQueue
    rcases hAttended.waiting r hMem hBefore with hGone | hKey
    · left
      exact Story.callerGone_step c act m hAccounts hAccepted
        hGone
    · exact .inr hKey

/- A request that is handed in is under way. -/
theorem submit
    (c : Connector W L)
    (a : Apdu)
    (options : RequestOptions)
    (hAccounts : s.Accounts)
    (hAttended : Attended s handed none) :
    let ticket := (s.connection.submit a options).1
    Attended (s.submit a options)
      (handed ++ ticket.toOption.toList.map fun id =>
        ⟨id, a, options⟩)
      (some ticket) := by
  intro ticket
  have hOld :=
    hAttended.step c (fun _ w => w) (.submit a options) hAccounts
  constructor
  · intro r hMem
    rcases List.mem_append.mp hMem with hEarlier | hNew
    · exact hOld.accepted r hEarlier
    · rw [Story.accepted_submit]
      exact List.mem_append_right s.accepted hNew
  · intro r hMem hQueue
    rcases List.mem_append.mp hMem with hEarlier | hNew
    · rcases hOld.waiting r hEarlier hQueue with hGone | hKey
      · exact .inl hGone
      · cases hKey
    · right
      cases hTicket : ticket with
      | ok id =>
          obtain rfl : r = ⟨id, a, options⟩ := by
            simpa [hTicket, Except.toOption] using hNew
          rfl
      | error e => simp [hTicket, Except.toOption] at hNew

/- A request that has been answered does not wait. -/
theorem answer
    {ticket : Ticket}
    {answer : Answer}
    (hAccounts : s.Accounts)
    (hAttended : Attended s handed (some ticket))
    (hLook : s.connection.look ticket = some answer) :
    Attended s handed none where
  accepted := hAttended.accepted
  waiting := by
    intro r hMem hQueue
    rcases hAttended.waiting r hMem hQueue with hGone | hKey
    · exact .inl hGone
    · obtain rfl : ticket = .ok r.id := by simpa using hKey
      rw [Connection.look, Connection.answer?_eq,
        hAccounts.waiting r hQueue] at hLook
      cases hLook

/- A request that is left has nobody who waits for it. -/
theorem leave
    (c : Connector W L)
    (ticket : Ticket)
    (hAccounts : s.Accounts)
    (hAttended : Attended s handed (some ticket)) :
    Attended (s.put (s.connection.leave ticket)) handed none := by
  cases ticket with
  | error e =>
      refine ⟨hAttended.accepted, ?_⟩
      intro r hMem hQueue
      rcases hAttended.waiting r hMem hQueue with hGone | hKey
      · exact .inl hGone
      · cases hKey
  | ok id =>
      have hAfter :=
        hAttended.step c (fun _ w => w) (.abandon id) hAccounts
      refine ⟨hAfter.accepted, ?_⟩
      intro r hMem hQueue
      rcases hAfter.waiting r hMem hQueue with hGone | hKey
      · exact .inl hGone
      · left
        obtain rfl : id = r.id := by simpa using hKey
        have hSlot : r.id < s.connection.slots.size :=
          hAccounts.id_lt (hAttended.accepted r hMem)
        simp only [Scenario.put, Connection.leave,
          Connection.callerGone, Connection.abandon,
          Array.getElem?_modify, if_pos]
        rw [Array.getElem?_eq_getElem hSlot]
        rfl

end Attended

------------------------------------------------------------
-- Actions That Attend to Their Requests
------------------------------------------------------------

/- An action that attends to its requests, on a fair story. -/
structure Keeps
    (c : Connector W L)
    (p : Performance (Desk W L A) Ticket k) : Prop where
  unsent : p.world.story.Unsent c
  attended :
    Attended p.world.story p.world.handed p.execution.key?

section Keeps

variable (c : Connector W L) (act : A → W → W)

/- However commands are handled, they are attended to. -/
theorem attended_of_handles
    {now : Nat}
    {d : Desk W L A}
    {key : Option Ticket}
    {result : Run.Result (Desk W L A) Ticket k k}
    (hHandles : Run.Handles sender now d key result)
    (hUnsent : d.story.Unsent c)
    (hAttended : Attended d.story d.handed key) :
    result.2.2.story.Unsent c ∧
    Attended result.2.2.story result.2.2.handed result.key? := by
  have hAccounts := hUnsent.accounts
  cases hHandles with
  | nothing hKey hWorld =>
      rw [hKey, hWorld]
      exact ⟨hUnsent, hAttended⟩
  | submit a options hKey =>
      constructor
      · exact Story.unsent_step c (fun _ w => w) d.story
          (.submit a options) hUnsent
      · rw [Run.Result.key?, hKey]
        exact hAttended.submit c a options hAccounts
  | answer hPoll hKey hWorld =>
      rw [hKey, hWorld]
      exact ⟨hUnsent, hAttended.answer hAccounts hPoll⟩
  | wait hPoll hKey hWorld =>
      rw [hKey, hWorld]
      exact ⟨hUnsent, hAttended⟩
  | withdraw hPoll hKey hWorld =>
      rename_i ticket
      rw [hKey, hWorld]
      refine ⟨?_, hAttended.leave c ticket hAccounts⟩
      cases ticket with
      | ok id =>
          exact Story.unsent_step c (fun _ w => w) d.story
            (.abandon id) hUnsent
      | error e => exact hUnsent

variable {p : Performance (Desk W L A) Ticket k}

theorem keeps_step
    (now : Nat)
    (hKeeps : Keeps c p) :
    Keeps c (p.next sender (.step now)) := by
  cases hRun : p.execution.run with
  | none =>
      rw [Performance.next_step_of_ended sender hRun]
      exact hKeeps
  | some run =>
      obtain ⟨result, hHandles, hKey, hWorld⟩ :=
        p.step_handles sender now hRun
      have hAfter :=
        attended_of_handles c hHandles hKeeps.unsent
          hKeeps.attended
      constructor
      · rw [hWorld]
        exact hAfter.1
      · rw [hKey, hWorld]
        exact hAfter.2

theorem keeps_next
    (h : Happening A)
    (hKeeps : Keeps c p) :
    Keeps c (p.next sender (h.cue (move c act))) := by
  cases h with
  | step now => exact keeps_step c now hKeeps
  | cancel => exact ⟨hKeeps.unsent, hKeeps.attended⟩
  | move m =>
      constructor
      · exact Story.unsent_step c act _ m hKeeps.unsent
      · exact hKeeps.attended.step c act m
          hKeeps.unsent.accounts

theorem keeps_perform
    (a : Action k)
    (settings : Settings)
    (now : Nat)
    (w : W)
    (hs : List (Happening A)) :
    Keeps c
      (perform c act a (Story.start settings now w) hs) := by
  apply Performance.run_induction
  · constructor
    · exact Story.unsent_run c act settings now w []
    · constructor <;> simp [Performance.start]
  · intro p hKeeps cue hCue
    obtain ⟨h, -, rfl⟩ := List.mem_map.mp hCue
    exact keeps_next c act h hKeeps

end Keeps

------------------------------------------------------------
-- The Step after a Cancellation
------------------------------------------------------------

section Withdrawal

variable {p : Performance (Desk W L A) Ticket k} {r : Request}

/- A step of the action takes no request from the queue. -/
theorem grows_of_handles
    {now : Nat}
    {d : Desk W L A}
    {key : Option Ticket}
    {result : Run.Result (Desk W L A) Ticket k k}
    (hHandles : Run.Handles sender now d key result) :
    d.handed <+: result.2.2.handed ∧
    d.story.connection.queue <+:
      result.2.2.story.connection.queue := by
  have hSame : ∀ {d' : Desk W L A}, d' = d →
      d.handed <+: d'.handed ∧
      d.story.connection.queue <+:
        d'.story.connection.queue := by
    rintro d' rfl
    exact ⟨List.prefix_refl _, List.prefix_refl _⟩
  cases hHandles with
  | nothing hKey hWorld => exact hSame hWorld
  | submit a options hKey =>
      refine ⟨List.prefix_append _ _, ?_⟩
      simp only [sender, submit, Story.submit_connection]
      unfold Connection.submit
      split
      · exact List.prefix_refl _
      · split
        · exact List.prefix_append _ _
        · exact List.prefix_refl _
  | answer hPoll hKey hWorld => exact hSame hWorld
  | wait hPoll hKey hWorld => exact hSame hWorld
  | withdraw hPoll hKey hWorld =>
      rename_i ticket
      rw [hWorld]
      cases ticket <;>
        exact ⟨List.prefix_refl _, List.prefix_refl _⟩

/-
  The step that ends a cancelled action takes it away from
  the request that waits.
-/
theorem forsaken_of_cancelled
    {c : Connector W L}
    (hKeeps : Keeps c p)
    (hAttends : p.Attends)
    (hCancelled : .cancel ∈ p.effects)
    (hHanded : r ∈ p.world.handed)
    (hQueue : r ∈ p.world.story.connection.queue)
    (now : Nat) :
    (p.next sender (.step now)).world.story.Forsaken r := by
  let q := p.next sender (.step now)
  have hEnded : q.execution.key? = none := by
    rw [Execution.key?,
      (hAttends.step_of_cancelled hCancelled now).1]
    rfl
  have hStill :
      r ∈ q.world.handed ∧
      r ∈ q.world.story.connection.queue := by
    cases hRun : p.execution.run with
    | none =>
        rw [show q = p from
          Performance.next_step_of_ended sender hRun now]
        exact ⟨hHanded, hQueue⟩
    | some run =>
        obtain ⟨result, hHandles, -, hWorld⟩ :=
          p.step_handles sender now hRun
        have hGrows := grows_of_handles hHandles
        rw [show q.world = result.2.2 from hWorld]
        exact ⟨hGrows.1.subset hHanded, hGrows.2.subset hQueue⟩
  rcases (keeps_step c now hKeeps).attended.waiting r hStill.1
      hStill.2 with hGone | hKey
  · exact .inl ⟨hStill.2, hGone⟩
  · rw [show (p.next sender (.step now)).execution.key? = none
      from hEnded] at hKey
    cases hKey

/- An action that has ended and has forsaken a request. -/
structure Parted
    (c : Connector W L)
    (r : Request)
    (p : Performance (Desk W L A) Ticket k) : Prop where
  keeps : Keeps c p
  ended : p.execution.run = none
  forsaken : p.world.story.Forsaken r

theorem parted_run
    {c : Connector W L}
    (act : A → W → W)
    (hs : List (Happening A))
    (hParted : Parted c r p) :
    Parted c r
      (p.run sender (hs.map (Happening.cue (move c act)))) := by
  apply Performance.run_induction _ hParted
  intro q hParted cue hCue
  obtain ⟨h, -, rfl⟩ := List.mem_map.mp hCue
  have hKeeps := keeps_next c act h hParted.keeps
  cases h with
  | step now =>
      rw [Happening.cue,
        Performance.next_step_of_ended sender hParted.ended]
      exact hParted
  | cancel => exact ⟨hKeeps, hParted.ended, hParted.forsaken⟩
  | move m =>
      refine ⟨hKeeps, hParted.ended, ?_⟩
      exact Story.forsaken_step c act m
        hParted.keeps.unsent.accounts hParted.forsaken

end Withdrawal

end Desk

/- A cancellation is among the effects from then on. -/
theorem Performance.cancel_mem_effects
    {W K : Type}
    {k : ActionKind}
    (x : Sender W K)
    (p : Performance W K k)
    {cues : List (Cue W k)}
    (hCancel : .cancel ∈ cues) :
    .cancel ∈ (p.run x cues).effects := by
  obtain ⟨before, after, rfl⟩ := List.append_of_mem hCancel
  rw [run_append, run_cons]
  obtain ⟨ds, hEffects, -⟩ :=
    ((p.run x before).next x .cancel).run_log x after
  rw [hEffects]
  exact List.mem_append_left ds (by simp [next])

theorem Happening.isOwn_cue
    {W A : Type}
    {k : ActionKind}
    (f : Move A → W → W)
    (h : Happening A) :
    (h.cue f : Cue W k).IsOwn := by
  cases h <;> trivial

/-
  However the steps of the action, of the driver and of all
  others are ordered: if a request of a cancelled action
  still waits when the action is stepped again, then nothing
  is ever written for it, on any link.  The action goes the
  same way without the log.
-/
theorem Desk.perform_withdrawn
    {W L A : Type}
    {k : ActionKind}
    (c : Connector W L)
    (act : A → W → W)
    {a : Action k}
    (settings : Settings)
    (start : Nat)
    (w : W)
    (before after : List (Happening A))
    (now : Nat)
    (hPlain : a.Plain)
    (hCancelled : .cancel ∈ before) :
    let s : Story W L A := Story.start settings start w
    let p := perform c act a s before
    let q := perform c act a s (before ++ .step now :: after)
    q.map erase =
      Scenario.perform c act a
        (Scenario.start settings start w)
        (before ++ .step now :: after) ∧
    ∀ r ∈ p.world.handed,
      r ∈ p.world.story.connection.queue →
      ∀ n, (n, r) ∉ Wire.tried q.world.story.world.log := by
  intro s p q
  refine ⟨perform_map c act a s _, ?_⟩
  intro r hHanded hQueue n
  have hKeeps : Keeps c p :=
    keeps_perform c act a settings start w before
  have hAttends : p.Attends := by
    apply Performance.attends_run _ _ hPlain
    intro cue hCue
    obtain ⟨h, -, rfl⟩ := List.mem_map.mp hCue
    exact h.isOwn_cue _
  have hCancel : .cancel ∈ p.effects := by
    apply Performance.cancel_mem_effects
    exact List.mem_map.mpr ⟨.cancel, hCancelled, rfl⟩
  have hParted : Parted c r (p.next sender (.step now)) :=
    ⟨keeps_step c now hKeeps,
      (hAttends.step_of_cancelled hCancel now).1,
      forsaken_of_cancelled hKeeps hAttends hCancel hHanded
        hQueue now⟩
  have hLater := parted_run act after hParted
  have hSplit :
      q = (p.next sender (.step now)).run sender
        (after.map (Happening.cue (move c act))) := by
    rw [show q = _ from perform_append c act a s before _]
    rfl
  rw [hSplit]
  exact hLater.forsaken.not_tried hLater.keeps.unsent n

------------------------------------------------------------
-- A Cancellation and Its Two Outcomes
------------------------------------------------------------

namespace Overtaken

/- The action asks which app is running. -/
def action : Action (DashboardKind AppInfo) :=
  .status {}

def links : Connector PipeHub Nat :=
  PipeHub.connector .ble (.fixed 64)

def story : Story PipeHub Nat Empty :=
  Story.start {} 0 {}

def drives (n : Nat) : List (Happening Empty) :=
  List.replicate n (.move .drive)

/- The action asks over a fresh link, and is cancelled. -/
def before : List (Happening Empty) :=
  drives 5 ++ [.step 0, .cancel]

/- What the action asks the device. -/
def question : Request :=
  ⟨0, Command.getApp.apdu, Command.getApp.options⟩

/- The action, after all that happens. -/
def after (hs : List (Happening Empty)) :
    Performance (Desk PipeHub Nat Empty) Ticket
      (DashboardKind AppInfo) :=
  Desk.perform links (fun a _ => a.elim) action story hs

/- What has been written to the device by then. -/
def tried (hs : List (Happening Empty)) :
    List (Nat × Request) :=
  Wire.tried (after hs).world.story.world.log

/- The question is the action's, and waits. -/
theorem question_waits :
    question ∈ (after before).world.handed ∧
    question ∈
      (after before).world.story.connection.queue := by
  have hHanded : (after before).world.handed = [question] := rfl
  have hQueue :
      (after before).world.story.connection.queue =
        [question] :=
    rfl
  rw [hHanded, hQueue]
  simp

/- If the action is stepped first, it is never asked. -/
theorem question_withdrawn :
    action.Plain ∧
    .cancel ∈ before ∧
    question ∈ (after before).world.handed ∧
    question ∈ (after before).world.story.connection.queue ∧
    ∀ n, (n, question) ∉
      tried (before ++ .step 0 :: drives 5) := by
  have hPlain : action.Plain := Action.plain_status {}
  have hCancelled : .cancel ∈ before := by simp [before]
  have hWithdrawn :=
    Desk.perform_withdrawn links (fun a _ => a.elim) {} 0 {}
      before (drives 5) 0 hPlain hCancelled
  have hWaits := question_waits
  exact ⟨hPlain, hCancelled, hWaits.1, hWaits.2,
    hWithdrawn.2 question hWaits.1 hWaits.2⟩

/- The driver may be faster, and then the device is asked. -/
theorem question_overtaken :
    ¬ ∀ before later : List (Happening Empty),
      .cancel ∈ before →
      ∀ r ∈ (after before).world.handed,
        r ∈ (after before).world.story.connection.queue →
        ∀ n, (n, r) ∉ tried (before ++ later) := by
  intro hNever
  have hTried : tried (before ++ drives 4) = [(1, question)] :=
    rfl
  apply hNever before (drives 4) (by simp [before]) question
    question_waits.1 question_waits.2 1
  rw [hTried]
  exact List.mem_singleton_self _

end Overtaken

end DeviceSession
