import DeviceSession.Proofs.Action.Limits
import DeviceSession.Proofs.Action.Schedules
import DeviceSession.Proofs.Action.Underway

/-
  Waiting for a device to be unlocked.

  A diary holds the questions to a device, with the times at
  which they were asked and answered.  As long as the device
  is found locked, and there is time left since it was found
  so first, the action rests and asks again.  Any other answer
  decides how it ends.

  Key definitions include:
    * `Diary`
    * `Sender.dated`
    * `Diary.Locked`
    * `Status.Decides`
    * `Diary.Settles`
    * `Performance.Asks`
    * `Performance.Patient`

  Main declarations:
    * `Performance.Asks.next`
    * `Performance.asks_run`
    * `Performance.status_patient`
-/

------------------------------------------------------------
-- Diaries
------------------------------------------------------------

namespace DeviceSession

/- A command that was handed in at a time. -/
structure Question where
  apdu : Apdu
  askedAt : Nat
  /- The answer, with the time at which it came. -/
  answer? : Option (Nat × Answer) := none

/- The commands that were handed in, the latest first. -/
abbrev Diary : Type :=
  List Question

namespace Diary

/- What is answered at a time is the latest command. -/
def answered (now : Nat) : Diary → Option Answer → Diary
  | q :: d, some answer =>
      { q with answer? := some (now, answer) } :: d
  | d, _ => d

/- The correspondence of a diary, without the times. -/
def letters (d : Diary) : Correspondence :=
  d.map fun q => (q.apdu, q.answer?.map Prod.snd)

@[simp]
theorem answered_none (now : Nat) (d : Diary) :
    d.answered now none = d := by
  cases d <;> rfl

theorem letters_answered
    (now : Nat)
    (d : Diary)
    (answer : Option Answer) :
    (d.answered now answer).letters =
      d.letters.answered answer := by
  cases d <;> cases answer <;> rfl

end Diary

/- A sender that keeps a diary. -/
def Sender.dated
    {W K : Type}
    (x : Sender W K) :
    Sender (W × Diary) K where
  submit := fun now a options w =>
    let (key, cancels, w') := x.submit now a options w.1
    (key, cancels, w', { apdu := a, askedAt := now } :: w.2)
  poll := fun now key w =>
    let (answer, cancels, w') := x.poll now key w.1
    (answer, cancels, w', w.2.answered now answer)
  withdraw := fun key w => (x.withdraw key w.1, w.2)

/- The same cue in a world with a diary. -/
def Cue.dated
    {W : Type}
    {k : ActionKind} :
    Cue W k → Cue (W × Diary) k
  | step now => step now
  | cancel => cancel
  | outside f => outside fun w => (f w.1, w.2)
  | report token i => report token i
  | cut token => cut token

/- A diary tells more than a correspondence. -/
theorem Sender.dated_covers
    {W K : Type}
    (x : Sender W K) :
    x.dated.Covers x.noted (Prod.map id Diary.letters) where
  submit _ _ _ _ := rfl
  poll now key w := by
    simp [noted, dated, Diary.letters_answered]
  withdraw _ _ := rfl

namespace Performance

variable {W K : Type} {k : ActionKind}

/- An action with its diary. -/
def dated
    (x : Sender W K)
    (a : Action k)
    (w : W)
    (cues : List (Cue W k)) :
    Performance (W × Diary) K k :=
  (start a (w, [])).run x.dated (cues.map Cue.dated)

theorem dated_concat
    (x : Sender W K)
    (a : Action k)
    (w : W)
    (cues : List (Cue W k))
    (cue : Cue W k) :
    dated x a w (cues ++ [cue]) =
      (dated x a w cues).next x.dated cue.dated := by
  rw [dated, List.map_append, run_append]
  rfl

/- The diary does not change how an action goes. -/
theorem noted_dated
    (x : Sender W K)
    (a : Action k)
    (w : W)
    (cues : List (Cue W k)) :
    (dated x a w cues).map (Prod.map id Diary.letters) =
      noted x a w cues := by
  have hCues : ∀ cue : Cue W k,
      Cue.Covers (Prod.map id Diary.letters) cue.dated
        cue.noted := by
    intro cue
    cases cue with
    | step now => exact .step now
    | cancel => exact .cancel
    | outside f => exact .outside fun _ => rfl
    | report token i => exact .report token i
    | cut token => exact .cut token
  exact (run_map x.dated_covers hCues (start a (w, [])) cues).symm

theorem run_dated
    (x : Sender W K)
    (a : Action k)
    (w : W)
    (cues : List (Cue W k)) :
    (dated x a w cues).map Prod.fst = (start a w).run x cues := by
  rw [← run_noted x a w cues]
  exact congrArg (map Prod.fst) (noted_dated x a w cues)

end Performance

------------------------------------------------------------
-- What Answers Decide
------------------------------------------------------------

namespace Status

/-
  What an answer decides that comes at the time `now`.  The
  device has been found locked at the time `first` first, or
  is found so just now if this has not happened before.
-/
inductive Decides (p : Patience) (first now : Nat) :
    Answer → Outcome AppInfo OsError → Prop
  | unlocked
      {r : Response}
      {app : AppInfo}
      (hSuccess : r.isSuccess = true)
      (hApp : AppInfo.parse r.data = .ok app) :
      Decides p first now (.ok r) (.completed app)
  | locked
      {r : Response}
      (hLocked : r.status = locked)
      (hLate : p.timeout ≤ now - first) :
      Decides p first now (.ok r) (.error .deviceLocked)
  | refused
      {r : Response}
      (hSuccess : r.isSuccess = false)
      (hLocked : r.status ≠ Status.locked) :
      Decides p first now (.ok r)
        (.error (.unknownExchange r.status))
  | unreadable
      {r : Response}
      {e : ShortRead}
      (hSuccess : r.isSuccess = true)
      (hShort : AppInfo.parse r.data = .error e) :
      Decides p first now (.ok r) (.error (.invalidResponse e))
  | lost
      {e : ConnectionError} :
      Decides p first now (.error e) (.error (.connection e))

end Status

/-
  All commands so far have asked for the running app, and the
  device was found locked each time, with time left since the
  first of these times, if there has been one.
-/
inductive Diary.Locked (p : Status.Patience) :
    Option Nat → Diary → Prop
  | unasked : Locked p none []
  | again
      {since : Option Nat}
      {d : Diary}
      {askedAt now : Nat}
      {r : Response}
      (hEarlier : Locked p since d)
      (hLocked : r.status = Status.locked)
      (hTime : now - since.getD now < p.timeout) :
      Locked p (some (since.getD now))
        (⟨Command.getApp.apdu, askedAt, some (now, .ok r)⟩ :: d)

/-
  The latest answer decides how asking ends; those of before
  have found the device locked, with time left.
-/
inductive Diary.Settles (p : Status.Patience) :
    Diary → Outcome AppInfo OsError → Prop
  | mk
      {since : Option Nat}
      {d : Diary}
      {askedAt now : Nat}
      {answer : Answer}
      {o : Outcome AppInfo OsError}
      (hEarlier : d.Locked p since)
      (hDecides :
        Status.Decides p (since.getD now) now answer o) :
      Settles p
        (⟨Command.getApp.apdu, askedAt, some (now, answer)⟩ :: d)
        o

section Answers

variable {p : Status.Patience}

theorem Status.isSuccess_of_locked
    {r : Response}
    (hLocked : r.status = locked) :
    r.isSuccess = false := by
  simp only [Response.isSuccess, hLocked]
  decide

/- An answer decides one thing at most. -/
theorem Status.Decides.unique
    {first now : Nat}
    {answer : Answer}
    {o o' : Outcome AppInfo OsError}
    (hDecides : Decides p first now answer o)
    (hDecides' : Decides p first now answer o') :
    o = o' := by
  cases hDecides <;> cases hDecides' <;>
    simp_all [isSuccess_of_locked]

namespace Diary

theorem Locked.unique
    {since since' : Option Nat}
    {d : Diary}
    (hLocked : d.Locked p since)
    (hLocked' : d.Locked p since') :
    since = since' := by
  induction hLocked generalizing since' with
  | unasked =>
      cases hLocked'
      rfl
  | again _ _ _ ih =>
      cases hLocked' with
      | again hEarlier' _ _ => rw [ih hEarlier']

/- Once the device was asked, it has been found locked. -/
theorem Locked.exists_first
    {since : Option Nat}
    {d : Diary}
    (hLocked : d.Locked p since)
    (hAsked : d ≠ []) :
    ∃ first, since = some first := by
  cases hLocked with
  | unasked => exact absurd rfl hAsked
  | again => exact ⟨_, rfl⟩

theorem Settles.unique
    {d : Diary}
    {o o' : Outcome AppInfo OsError}
    (hSettles : d.Settles p o)
    (hSettles' : d.Settles p o') :
    o = o' := by
  cases hSettles with
  | mk hEarlier hDecides =>
      cases hSettles' with
      | mk hEarlier' hDecides' =>
          obtain rfl := hEarlier.unique hEarlier'
          exact hDecides.unique hDecides'

/- An answer that decides is none to ask again after. -/
theorem Settles.not_locked
    {d : Diary}
    {since : Option Nat}
    {o : Outcome AppInfo OsError}
    (hSettles : d.Settles p o) :
    ¬ d.Locked p since := by
  intro hLocked
  cases hSettles with
  | mk hEarlier hDecides =>
      cases hLocked with
      | again hEarlier' hStatus hTime =>
          obtain rfl := hEarlier.unique hEarlier'
          have hSuccess := Status.isSuccess_of_locked hStatus
          cases hDecides with
          | locked _ hLate => omega
          | refused _ hOther => exact hOther hStatus
          | unlocked hOther => simp [hSuccess] at hOther
          | unreadable hOther => simp [hSuccess] at hOther

end Diary

/- The device is asked again after an answer, or all is done. -/
theorem Status.asked_cases
    (p : Patience)
    (since : Option Nat)
    (now : Nat)
    (answer : Answer) :
    let s := asked p since now (Command.getApp.settle answer)
    (∃ r, answer = .ok r ∧ r.status = locked ∧
      now - since.getD now < p.timeout ∧
      s = .waiting (since.getD now)) ∨
    ∃ o, Decides p (since.getD now) now answer o ∧
      ∀ now', (plan p).act now' s = .finish o := by
  cases answer with
  | error e => exact .inr ⟨_, .lost, fun _ => rfl⟩
  | ok r =>
      cases hSuccess : r.isSuccess with
      | true =>
          right
          cases hApp : AppInfo.parse r.data with
          | ok app =>
              refine ⟨_, .unlocked hSuccess hApp, fun _ => ?_⟩
              simp [Command.settle, Command.getApp, expectSuccess,
                hSuccess, hApp, asked, plan, bind, Except.bind,
                pure, Except.pure]
          | error e =>
              refine ⟨_, .unreadable hSuccess hApp, fun _ => ?_⟩
              simp [Command.settle, Command.getApp, expectSuccess,
                hSuccess, hApp, asked, plan, bind, Except.bind,
                OsError.ofCommand, OsError.ofFailure]
      | false =>
          have hSettle :
              Command.getApp.settle (.ok r) =
                .error (.unknownExchange r.status) := by
            simp [Command.settle, Command.getApp, expectSuccess,
              hSuccess, ErrorTable.empty, bind, Except.bind]
          rw [hSettle]
          by_cases hLocked : r.status = locked
          · by_cases hLate : p.timeout ≤ now - since.getD now
            · refine .inr ⟨_, .locked hLocked hLate, fun _ => ?_⟩
              simp [asked, hLocked, foundLocked, hLate, plan]
            · left
              refine ⟨r, rfl, hLocked, Nat.not_le.mp hLate, ?_⟩
              simp [asked, hLocked, foundLocked, hLate]
          · refine .inr ⟨_, .refused hSuccess hLocked, fun _ => ?_⟩
            simp [asked, hLocked, plan]

end Answers

------------------------------------------------------------
-- Asking
------------------------------------------------------------

namespace Performance

variable {W K : Type}

/- The user is told to unlock the device. -/
def Prompts
    (q : Performance (W × Diary) K (DashboardKind AppInfo)) :
    Prop :=
  q.execution.latest = .pending .unlockDevice

/- Asking is in a stage, and nobody has cancelled it. -/
abbrev AsksIn
    (p : Status.Patience)
    (q : Performance (W × Diary) K (DashboardKind AppInfo))
    (silent : Bool)
    (stage : Stage Status.State Empty K) : Prop :=
  q.Underway (.here (Action.status p) Scene.root silent stage)

/- How far asking is, by its diary. -/
inductive Asks
    (p : Status.Patience)
    (q : Performance (W × Diary) K (DashboardKind AppInfo)) :
    Prop
  | ready
      {silent : Bool}
      {since : Option Nat}
      (hStage : q.AsksIn p silent (.ready (.asking since)))
      (hLocked : q.world.2.Locked p since)
      (hPrompts : since ≠ none → q.Prompts)
  | asked
      {key : K}
      {since : Option Nat}
      {askedAt : Nat}
      {d : Diary}
      (hStage :
        q.AsksIn p false
          (.sending key fun now answer =>
            Status.asked p since now
              (Command.getApp.settle answer)))
      (hDiary :
        q.world.2 = ⟨Command.getApp.apdu, askedAt, none⟩ :: d)
      (hLocked : d.Locked p since)
  | found
      {first : Nat}
      (hStage : q.AsksIn p false (.ready (.waiting first)))
      (hLocked : q.world.2.Locked p (some first))
  | resting
      {begun first : Nat}
      (hStage :
        q.AsksIn p false
          (.waiting (begun + Status.pause p first begun)
            fun _ => .asking (some first)))
      (hLocked : q.world.2.Locked p (some first))
      (hPrompts : q.Prompts)
  | settled
      {s : Status.State}
      {o : Outcome AppInfo OsError}
      (hStage : q.AsksIn p false (.ready s))
      (hAct : ∀ now, (Status.plan p).act now s = .finish o)
      (hSettles : q.world.2.Settles p o)
  | ended
      {o : Outcome AppInfo OsError}
      (hRun : q.execution.run = none)
      (hOutcomes : Effect.outcomes q.effects = [o])
      (hLatest : q.execution.latest = o.state)
      (hSettles : q.world.2.Settles p o)

section Asking

variable {x : Sender W K} {p : Status.Patience} {now : Nat}
variable {q : Performance (W × Diary) K (DashboardKind AppInfo)}

theorem asks_start
    (p : Status.Patience)
    (w : W) :
    (start (K := K) (Action.status p) (w, [])).Asks p := by
  refine .ready ⟨rfl, ?_, rfl, rfl⟩ .unasked (absurd rfl)
  intro t
  cases t <;> rfl

namespace AsksIn

variable {silent : Bool}

theorem diary_ask
    {since : Option Nat}
    (hStage : q.AsksIn p silent (.ready (.asking since))) :
    (q.next x.dated (.step now)).world.2 =
      ⟨Command.getApp.apdu, now, none⟩ :: q.world.2 := by
  rw [hStage.world_send rfl]
  rfl

theorem ask
    {since : Option Nat}
    (hStage : q.AsksIn p silent (.ready (.asking since)))
    (hLocked : q.world.2.Locked p since)
    (hPrompts : since ≠ none → q.Prompts)
    (hUncancelled :
      .cancel ∉ (q.next x.dated (.step now)).effects) :
    let q' := q.next x.dated (.step now)
    q'.Asks p ∧ (since ≠ none → q'.Prompts) := by
  obtain ⟨hNext, -, hLatest⟩ := hStage.send rfl hUncancelled
  refine ⟨.asked hNext hStage.diary_ask hLocked, ?_⟩
  intro hSince
  rw [Prompts, hLatest]
  cases silent with
  | true => exact hPrompts hSince
  | false =>
      obtain ⟨first, rfl⟩ := Option.ne_none_iff_exists'.mp hSince
      rfl

/- An answer has not come, or decides, or there is time left. -/
theorem hear
    {key : K}
    {since : Option Nat}
    {askedAt : Nat}
    {d : Diary}
    (hStage :
      q.AsksIn p silent
        (.sending key fun now answer =>
          Status.asked p since now
            (Command.getApp.settle answer)))
    (hDiary :
      q.world.2 = ⟨Command.getApp.apdu, askedAt, none⟩ :: d)
    (hLocked : d.Locked p since)
    (hUncancelled :
      .cancel ∉ (q.next x.dated (.step now)).effects) :
    let q' := q.next x.dated (.step now)
    q'.Asks p ∧
    q'.world.2.length = q.world.2.length ∧
    (q'.world.2 = q.world.2 ∨
      (∃ first,
        q'.AsksIn p false (.ready (.waiting first)) ∧
        q'.world.2.Locked p (some first)) ∨
      ∃ o, q'.world.2.Settles p o) := by
  intro q'
  obtain ⟨hNext, hWorld, -⟩ := hStage.poll hUncancelled
  have hDiary' :
      q'.world.2 =
        q.world.2.answered now (x.poll now key q.world.1).1 := by
    rw [hWorld]
    rfl
  cases hPoll : (x.poll now key q.world.1).1 with
  | none =>
      rw [hPoll, Diary.answered_none] at hDiary'
      have hNone : (x.dated.poll now key q.world).1 = none := hPoll
      rw [hNone] at hNext
      exact ⟨.asked hNext (hDiary'.trans hDiary) hLocked,
        congrArg List.length hDiary', .inl hDiary'⟩
  | some answer =>
      rw [hPoll, hDiary] at hDiary'
      have hSome :
          (x.dated.poll now key q.world).1 = some answer :=
        hPoll
      rw [hSome] at hNext
      simp only [Option.elim_some] at hNext
      have hLength : q'.world.2.length = q.world.2.length := by
        rw [hDiary', hDiary]
        rfl
      rcases Status.asked_cases p since now answer with
        ⟨r, rfl, hStatus, hTime, hState⟩ | ⟨o, hDecides, hAct⟩
      · have hAgain :
            q'.world.2.Locked p (some (since.getD now)) := by
          rw [hDiary']
          exact .again hLocked hStatus hTime
        rw [hState] at hNext
        exact ⟨.found hNext hAgain, hLength,
          .inr (.inl ⟨_, hNext, hAgain⟩)⟩
      · have hSettles : q'.world.2.Settles p o :=
          hDiary' ▸ .mk hLocked hDecides
        exact ⟨.settled hNext hAct hSettles, hLength,
          .inr (.inr ⟨o, hSettles⟩)⟩

theorem rest
    {first : Nat}
    (now : Nat)
    (hStage : q.AsksIn p false (.ready (.waiting first))) :
    let q' := q.next x.dated (.step now)
    q'.AsksIn p false
        (.waiting (now + Status.pause p first now)
          fun _ => .asking (some first)) ∧
      q'.world = q.world ∧
      q'.Prompts :=
  hStage.wait rfl

end AsksIn

/- Whatever happens next, asking goes on as it should. -/
theorem Asks.next_step
    (hAsks : q.Asks p)
    (hUncancelled :
      .cancel ∉ (q.next x.dated (.step now)).effects) :
    (q.next x.dated (.step now)).Asks p := by
  cases hAsks with
  | ready hStage hLocked hPrompts =>
      exact (hStage.ask hLocked hPrompts hUncancelled).1
  | asked hStage hDiary hLocked =>
      exact (hStage.hear hDiary hLocked hUncancelled).1
  | found hStage hLocked =>
      obtain ⟨hNext, hWorld, hPrompts⟩ := hStage.rest now
      exact .resting hNext (hWorld ▸ hLocked) hPrompts
  | resting hStage hLocked hPrompts =>
      rcases hStage.stay_or_wake (x := x.dated) now with
        hSame | ⟨hNext, hWorld, hScene⟩
      · rw [hSame]
        exact .resting hStage hLocked hPrompts
      · refine .ready hNext (hWorld ▸ hLocked) fun _ => ?_
        rw [Prompts, Execution.latest, hScene]
        exact hPrompts
  | settled hStage hAct hSettles =>
      obtain ⟨hRun, hWorld, hOutcomes, hLatest⟩ :=
        hStage.finish (hAct now)
      exact .ended hRun hOutcomes hLatest (hWorld ▸ hSettles)
  | ended hRun hOutcomes hLatest hSettles =>
      rw [next_step_of_ended x.dated hRun]
      exact .ended hRun hOutcomes hLatest hSettles

/- What happens in the world leaves it as it is. -/
theorem Asks.next_outside
    (hAsks : q.Asks p)
    (f : W → W) :
    (q.next x.dated (Cue.outside f).dated).Asks p := by
  cases hAsks with
  | ready hStage hLocked hPrompts =>
      exact .ready (hStage.outside _) hLocked hPrompts
  | asked hStage hDiary hLocked =>
      exact .asked (hStage.outside _) hDiary hLocked
  | found hStage hLocked =>
      exact .found (hStage.outside _) hLocked
  | resting hStage hLocked hPrompts =>
      exact .resting (hStage.outside _) hLocked hPrompts
  | settled hStage hAct hSettles =>
      exact .settled (hStage.outside _) hAct hSettles
  | ended hRun hOutcomes hLatest hSettles =>
      exact .ended hRun hOutcomes hLatest hSettles

theorem Asks.next
    {cue : Cue W (DashboardKind AppInfo)}
    (hAsks : q.Asks p)
    (hOwn : cue.IsOwn)
    (hUncancelled : .cancel ∉ (q.next x.dated cue.dated).effects) :
    (q.next x.dated cue.dated).Asks p := by
  cases cue with
  | step now => exact hAsks.next_step hUncancelled
  | cancel => simp [Performance.next, Cue.dated] at hUncancelled
  | outside f => exact hAsks.next_outside f
  | report token i => exact hOwn.elim
  | cut token => exact hOwn.elim

/- Asking goes on as it should, whatever is answered. -/
theorem asks_run
    (x : Sender W K)
    (p : Status.Patience)
    (w : W)
    {cues : List (Cue W (DashboardKind AppInfo))}
    (hOwn : ∀ cue ∈ cues, cue.IsOwn)
    (hUncancelled :
      .cancel ∉ (dated x (Action.status p) w cues).effects) :
    (dated x (Action.status p) w cues).Asks p := by
  induction cues using List.reverseRecOn with
  | nil => exact asks_start p w
  | append_singleton cues cue ih =>
      rw [dated_concat] at hUncancelled ⊢
      obtain ⟨ds, hEffects, -⟩ :=
        (dated x (Action.status p) w cues).next_log x.dated
          cue.dated
      refine (ih (fun c hCue => hOwn c (by simp [hCue])) ?_).next
        (hOwn cue (by simp)) hUncancelled
      intro hCancel
      apply hUncancelled
      rw [hEffects]
      exact List.mem_append_left ds hCancel

end Asking

end Performance

------------------------------------------------------------
-- The Course of Asking
------------------------------------------------------------

/- How a diary looks while the device is asked. -/
inductive Diary.Orderly (p : Status.Patience) : Diary → Prop
  | asked
      {since : Option Nat}
      {askedAt : Nat}
      {d : Diary}
      (hEarlier : d.Locked p since) :
      Orderly p (⟨Command.getApp.apdu, askedAt, none⟩ :: d)
  | locked
      {since : Option Nat}
      {d : Diary}
      (hLocked : d.Locked p since) :
      Orderly p d
  | settled
      {d : Diary}
      {o : Outcome AppInfo OsError}
      (hSettles : d.Settles p o) :
      Orderly p d

namespace Performance

variable {W K : Type}

/- How asking goes on in a step at a time. -/
structure Patient
    (x : Sender W K)
    (p : Status.Patience)
    (now : Nat)
    (q q' : Performance (W × Diary) K (DashboardKind AppInfo)) :
    Prop where
  /- A device is asked again if it was locked, and the user is
     told to unlock it. -/
  asks :
    q'.world.2.length ≠ q.world.2.length →
      q'.world.2 =
        ⟨Command.getApp.apdu, now, none⟩ :: q.world.2 ∧
      (q.world.2 ≠ [] →
        (∃ first, q.world.2.Locked p (some first)) ∧
        q.Prompts ∧ q'.Prompts)
  /- A rest follows an answer that leaves time. -/
  rests :
    ∀ first,
      q'.world.2 ≠ q.world.2 →
      q'.world.2.Locked p (some first) →
      ∀ now',
        let q'' := q'.next x.dated (.step now')
        q''.world.2 = q'.world.2 ∧
        q''.execution.timers =
          [now' + min p.interval (p.timeout - (now' - first))]
  /- It lasts until its time, and then the device is asked. -/
  stays :
    ∀ due, q.execution.timers = [due] → now < due → q' = q
  wakes :
    ∀ due,
      q.execution.timers = [due] →
      due ≤ now →
      q'.world.2 = q.world.2 ∧
      ∀ now',
        (q'.next x.dated (.step now')).world.2 =
          ⟨Command.getApp.apdu, now', none⟩ :: q.world.2
  /- Any other answer decides how it ends. -/
  ends :
    ∀ o,
      Effect.outcomes q'.effects = [o] ↔ q.world.2.Settles p o
  tells :
    ∀ o,
      q.world.2.Settles p o →
      q'.execution.run = none ∧ q'.execution.latest = o.state

section Asking

variable {x : Sender W K} {p : Status.Patience} {now : Nat}
variable {q : Performance (W × Diary) K (DashboardKind AppInfo)}

theorem Asks.orderly (hAsks : q.Asks p) :
    q.world.2.Orderly p := by
  cases hAsks with
  | ready _ hLocked _ => exact .locked hLocked
  | asked _ hDiary hLocked => exact hDiary ▸ .asked hLocked
  | found _ hLocked => exact .locked hLocked
  | resting _ hLocked _ => exact .locked hLocked
  | settled _ _ hSettles => exact .settled hSettles
  | ended _ _ _ hSettles => exact .settled hSettles

/- A question is asked, or answered, or the diary is kept. -/
theorem Asks.diary_next
    (hAsks : q.Asks p)
    (hUncancelled :
      .cancel ∉ (q.next x.dated (.step now)).effects) :
    let q' := q.next x.dated (.step now)
    q'.world.2 = q.world.2 ∨
    (∃ since,
      q'.world.2 =
        ⟨Command.getApp.apdu, now, none⟩ :: q.world.2 ∧
      q.world.2.Locked p since ∧
      (since ≠ none → q.Prompts ∧ q'.Prompts)) ∨
    q'.world.2.length = q.world.2.length ∧
    ((∃ first,
        q'.AsksIn p false (.ready (.waiting first)) ∧
        q'.world.2.Locked p (some first)) ∨
      ∃ o, q'.world.2.Settles p o) := by
  intro q'
  cases hAsks with
  | @ready silent since hStage hLocked hPrompts =>
      have hTold := (hStage.ask hLocked hPrompts hUncancelled).2
      exact .inr (.inl ⟨since, hStage.diary_ask, hLocked,
        fun hSome => ⟨hPrompts hSome, hTold hSome⟩⟩)
  | asked hStage hDiary hLocked =>
      obtain ⟨-, hLength, hHeard⟩ :=
        hStage.hear hDiary hLocked hUncancelled
      rcases hHeard with hSame | hHeard
      · exact .inl hSame
      · exact .inr (.inr ⟨hLength, hHeard⟩)
  | found hStage hLocked =>
      exact .inl (congrArg Prod.snd (hStage.rest now).2.1)
  | resting hStage hLocked hPrompts =>
      rcases hStage.stay_or_wake (x := x.dated) now with
        hSame | ⟨-, hWorld, -⟩
      · exact .inl (congrArg (·.world.2) hSame)
      · exact .inl (congrArg Prod.snd hWorld)
  | settled hStage hAct hSettles =>
      exact .inl (congrArg Prod.snd (hStage.finish (hAct now)).2.1)
  | ended hRun hOutcomes hLatest hSettles =>
      left
      rw [show q' = q from next_step_of_ended x.dated hRun now]

theorem Asks.resting_of_timers
    {due : Nat}
    (hAsks : q.Asks p)
    (hTimers : q.execution.timers = [due]) :
    ∃ first,
      q.AsksIn p false
        (.waiting due fun _ => .asking (some first)) := by
  cases hAsks with
  | @resting begun first hStage hLocked hPrompts =>
      rw [Execution.timers, hStage.run] at hTimers
      obtain rfl : begun + Status.pause p first begun = due :=
        (List.cons.inj hTimers).1
      exact ⟨first, hStage⟩
  | ended hRun =>
      rw [Execution.timers, hRun] at hTimers
      cases hTimers
  | ready hStage | asked hStage | found hStage | settled hStage =>
      rw [Execution.timers, hStage.run] at hTimers
      cases hTimers

/- What is decided is how it ends, at the next step. -/
theorem Asks.next_of_settles
    {o : Outcome AppInfo OsError}
    (hAsks : q.Asks p)
    (hSettles : q.world.2.Settles p o) :
    let q' := q.next x.dated (.step now)
    q'.execution.run = none ∧
      Effect.outcomes q'.effects = [o] ∧
      q'.execution.latest = o.state := by
  intro q'
  cases hAsks with
  | ready _ hLocked _ => exact absurd hLocked hSettles.not_locked
  | asked _ hDiary _ =>
      rw [hDiary] at hSettles
      cases hSettles
  | found _ hLocked => exact absurd hLocked hSettles.not_locked
  | resting _ hLocked _ => exact absurd hLocked hSettles.not_locked
  | settled hStage hAct hSettles' =>
      obtain rfl := hSettles.unique hSettles'
      obtain ⟨hRun, -, hOutcomes, hLatest⟩ :=
        hStage.finish (x := x.dated) (hAct now)
      exact ⟨hRun, hOutcomes, hLatest⟩
  | ended hRun hOutcomes hLatest hSettles' =>
      obtain rfl := hSettles.unique hSettles'
      rw [show q' = q from next_step_of_ended x.dated hRun now]
      exact ⟨hRun, hOutcomes, hLatest⟩

/- It ends only if that was decided. -/
theorem Asks.settles_of_outcome
    {o : Outcome AppInfo OsError}
    (hAsks : q.Asks p)
    (hUncancelled :
      .cancel ∉ (q.next x.dated (.step now)).effects)
    (hOutcome :
      Effect.outcomes (q.next x.dated (.step now)).effects =
        [o]) :
    q.world.2.Settles p o := by
  cases hAsks with
  | ready hStage hLocked hPrompts =>
      have hNext := (hStage.send rfl hUncancelled).1
      cases hNext.outcomes.symm.trans hOutcome
  | asked hStage hDiary hLocked =>
      have hNext := (hStage.poll hUncancelled).1
      cases hNext.outcomes.symm.trans hOutcome
  | found hStage hLocked =>
      have hNext := (hStage.rest (x := x) now).1
      cases hNext.outcomes.symm.trans hOutcome
  | resting hStage hLocked hPrompts =>
      rcases hStage.stay_or_wake (x := x.dated) now with
        hSame | ⟨hNext, -, -⟩
      · rw [hSame] at hOutcome
        cases hStage.outcomes.symm.trans hOutcome
      · cases hNext.outcomes.symm.trans hOutcome
  | settled hStage hAct hSettles =>
      have hEnd := (hStage.finish (x := x.dated) (hAct now)).2.2.1
      cases hEnd.symm.trans hOutcome
      exact hSettles
  | ended hRun hOutcomes hLatest hSettles =>
      rw [next_step_of_ended x.dated hRun] at hOutcome
      cases hOutcomes.symm.trans hOutcome
      exact hSettles

theorem Asks.patient
    (hAsks : q.Asks p)
    (hUncancelled :
      .cancel ∉ (q.next x.dated (.step now)).effects) :
    Patient x p now q (q.next x.dated (.step now)) where
  asks := by
    intro hLonger
    rcases hAsks.diary_next hUncancelled with
      hSame | ⟨since, hAsked, hLocked, hPrompts⟩ | ⟨hSame, -⟩
    · exact absurd (congrArg List.length hSame) hLonger
    · refine ⟨hAsked, fun hSome => ?_⟩
      obtain ⟨first, rfl⟩ := hLocked.exists_first hSome
      exact ⟨⟨first, hLocked⟩, hPrompts nofun⟩
    · exact absurd hSame hLonger
  rests := by
    intro first hNew hLocked now' q''
    rcases hAsks.diary_next hUncancelled with
      hSame | ⟨since, hAsked, -⟩ |
        ⟨-, ⟨first', hStage, hLocked'⟩ | ⟨o, hSettles⟩⟩
    · exact absurd hSame hNew
    · rw [hAsked] at hLocked
      cases hLocked
    · cases hLocked.unique hLocked'
      obtain ⟨hNext, hWorld, -⟩ := hStage.rest (x := x) now'
      refine ⟨congrArg Prod.snd hWorld, ?_⟩
      rw [Execution.timers, hNext.run]
      rfl
    · exact absurd hLocked hSettles.not_locked
  stays := by
    intro due hTimers hEarly
    obtain ⟨first, hStage⟩ := hAsks.resting_of_timers hTimers
    exact hStage.stay hEarly
  wakes := by
    intro due hTimers hDue
    obtain ⟨first, hStage⟩ := hAsks.resting_of_timers hTimers
    obtain ⟨hNext, hWorld, -⟩ := hStage.wake (x := x.dated) hDue
    refine ⟨congrArg Prod.snd hWorld, fun now' => ?_⟩
    rw [AsksIn.diary_ask hNext, hWorld]
  ends o :=
    ⟨hAsks.settles_of_outcome hUncancelled,
      fun hSettles => (hAsks.next_of_settles hSettles).2.1⟩
  tells := by
    intro o hSettles
    obtain ⟨hRun, -, hLatest⟩ := hAsks.next_of_settles hSettles
    exact ⟨hRun, hLatest⟩

theorem length_dated_le
    (x : Sender W K)
    (w : W)
    {cues : List (Cue W (DashboardKind AppInfo))}
    (hInterval : 0 < p.interval)
    (hTimely : Cue.Timely cues) :
    (dated (K := K) x (.status p) w cues).world.2.length ≤
      Status.questions p := by
  obtain ⟨n, hHolds⟩ := (Action.honours_status hInterval).holds
  obtain ⟨g, hTracks⟩ := run_tracks (K := K) x w hHolds hTimely
  have hFew : g.letters.length ≤ Status.questions p := by
    rcases hTracks.lawful hHolds with hLaw | ⟨o, hPost⟩
    · exact hLaw.within.letters
    · exact hPost.within.letters
  rw [← hTracks.letters, ← noted_dated] at hFew
  simpa [map, Diary.letters] using hFew

end Asking

/-
  However a device answers, and whenever, as long as the time
  does not go back.  It is asked which app is running only so
  often.  If nobody cancels, it is asked as long as it is
  found locked and there is time left.  The user is told to
  unlock it for all questions after the first, and there is a
  rest before each.  The first answer that is another one, or
  too late, decides how the action ends, and nothing else
  does.
-/
theorem status_patient
    (x : Sender W K)
    {p : Status.Patience}
    (w : W)
    {cues : List (Cue W (DashboardKind AppInfo))}
    (hInterval : 0 < p.interval)
    (hTimely : Cue.Timely cues) :
    let q := dated (K := K) x (.status p) w cues
    q.map Prod.fst = (start (.status p) w).run x cues ∧
    q.world.2.length ≤ p.timeout ⌈/⌉ p.interval + 1 ∧
    ∀ now,
      let q' := q.next x.dated (.step now)
      (∀ cue ∈ cues, cue.IsOwn) →
      .cancel ∉ q'.effects →
      q.world.2.Orderly p ∧ Patient x p now q q' := by
  intro q
  refine ⟨run_dated .., length_dated_le x w hInterval hTimely, ?_⟩
  intro now q' hOwn hUncancelled
  have hAsks : q.Asks p := by
    apply asks_run x p w hOwn
    intro hCancel
    exact hUncancelled (List.mem_append_left _ hCancel)
  exact ⟨hAsks.orderly, hAsks.patient hUncancelled⟩

end Performance

------------------------------------------------------------
-- A Device That Is Not Unlocked in Time
------------------------------------------------------------

namespace Overdue

/- A sender that gives answers in turn, each at its time. -/
def sender : Sender (List (Nat × Answer)) Unit where
  submit := fun _ _ _ answers => ((), false, answers)
  poll := fun now _ answers =>
    match answers with
    | (due, answer) :: later =>
        if due ≤ now then (some answer, false, later)
        else (none, false, answers)
    | [] => (none, false, [])
  withdraw := fun _ answers => answers

def patience : Status.Patience where
  timeout := 1000
  interval := 300

def locked : Answer :=
  .ok { status := Status.locked }

/- The second answer comes late, the third one too late. -/
def answers : List (Nat × Answer) :=
  [(0, locked), (900, locked), (1000, locked)]

def cues (times : List Nat) :
    List (Cue (List (Nat × Answer)) (DashboardKind AppInfo)) :=
  times.map .step

/- Asking is over, but for its last step. -/
def asked : List Nat :=
  [0, 0, 0, 300, 300, 300, 900, 900, 1000, 1000, 1000]

def after (times : List Nat) :
    Performance (List (Nat × Answer) × Diary) Unit
      (DashboardKind AppInfo) :=
  .dated sender (.status patience) answers (cues times)

/- What is done until the device is asked again. -/
def round : List (Effect (DashboardKind AppInfo)) :=
  [ .send Command.getApp.apdu Command.getApp.options, .route 0,
    .enter 0, .report .unlockDevice, .route 0, .enter 0,
    .report .unlockDevice ]

theorem isOwn_cues (times : List Nat) :
    ∀ cue ∈ cues times, cue.IsOwn := by
  intro cue hCue
  obtain ⟨now, -, rfl⟩ := List.mem_map.mp hCue
  trivial

/-
  The last rest is as long as there is time left, and the
  answer that comes right then is too late.
-/
theorem third_answer_overdue :
    Cue.Timely (cues asked) ∧
    (after asked).world.2.map Question.askedAt =
      [1000, 300, 0] ∧
    3 ≤ patience.timeout ⌈/⌉ patience.interval + 1 ∧
    (after (asked.take 8)).execution.timers = [900 + 100] ∧
    (after asked).world.2.Settles patience
      (.error .deviceLocked) ∧
    ((after asked).next sender.dated
        (.step 1000)).execution.latest =
      .error .deviceLocked := by
  have hTimely : Cue.Timely (cues asked) := by
    simp [Cue.Timely, Cue.times, cues, asked, Cue.time?]
  have hEffects :
      .cancel ∉
        ((after asked).next sender.dated (.step 1000)).effects := by
    rw [show ((after asked).next sender.dated (.step 1000)).effects =
      .enter 0 :: round ++ round ++
        [ .send Command.getApp.apdu Command.getApp.options,
          .route 0, .enter 0,
          .resolve (.error .deviceLocked) ] from rfl]
    simp [round]
  obtain ⟨-, hFew, hPatient⟩ :=
    Performance.status_patient (K := Unit) sender
      (p := patience) answers (by decide) hTimely
  obtain ⟨-, hPatient⟩ :=
    hPatient 1000 (isOwn_cues asked) hEffects
  have hSettles :
      (after asked).world.2.Settles patience
        (.error .deviceLocked) :=
    (hPatient.ends _).mp rfl
  exact ⟨hTimely, rfl, hFew, rfl, hSettles,
    (hPatient.tells _ hSettles).2⟩

end Overdue

end DeviceSession
