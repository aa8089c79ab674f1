import DeviceSession.Proofs.Faultless.Books
import DeviceSession.Proofs.Faultless.Opening

/-
  A connection and its device while nothing goes wrong.

  The first link comes up, and then requests and checks go
  over it one after another, each by an exchange that ends
  with the response of the device.

  Key definitions include:
    * `Slicer.efforts`
    * `Progress`
    * `Progress.Nears`
    * `Quiet`

  Main declarations:
    * `Progress.device_step`
    * `Progress.driver_step`
    * `Progress.agrees`
    * `Progress.quiet`
-/

------------------------------------------------------------
-- Drivers with a Link
------------------------------------------------------------

namespace DeviceSession

namespace Driver

/- A driver between its jobs. -/
def ready (l : HostEnd Nat) (e : ConnectionError) :
    Driver Nat where
  link := some l
  failure := e

/- A driver that waits for a request. -/
def attending
    (l : HostEnd Nat)
    (asked : Asked)
    (e : ConnectionError) : Driver Nat where
  link := some l
  job := .serving asked
  failure := e

/- A driver with a request on its link, or with a check. -/
def carrying
    (l : HostEnd Nat)
    (r? : Option Request)
    (x : Exchange)
    (e : ConnectionError) : Driver Nat where
  link := some l
  job := match r? with
    | some r => .exchanging r x
    | none => .checking x
  failure := e

/- An exchange is early as long as its time has not come. -/
theorem early_carrying
    {l : HostEnd Nat}
    {r? : Option Request}
    {x : Exchange}
    {e : ConnectionError}
    {now : Nat}
    (hUnpaused : x.Unpaused) :
    (carrying l r? x e).Early now ↔ now < x.deadline := by
  have hTimers := Exchange.timers_of_unpaused hUnpaused
  cases r? <;> simp [Early, carrying, timers, hTimers]

/- An exchange with some time to go has begun early. -/
theorem early_ofCommand
    (l : HostEnd Nat)
    (r? : Option Request)
    (e : ConnectionError)
    (a : Apdu)
    (now : Nat)
    {timeout : Nat}
    (hTimeout : 0 < timeout) :
    (carrying l r? (.ofCommand a now timeout) e).Early now := by
  have hUnpaused :
      (Exchange.ofCommand a now timeout).Unpaused := trivial
  rw [early_carrying hUnpaused]
  exact Nat.lt_add_of_pos_right hTimeout

section Steps

variable {W : Type} {c : Connector W Nat} {now : Nat}
variable {l l' : HostEnd Nat} {e : ConnectionError}
variable {k : Connection} {w w' : W} {asked : Asked}
variable {r? : Option Request} {x x' : Exchange}

/- With a link, the driver turns to the queue. -/
theorem step_ready_connected
    (hState : k.state = .connected 1) :
    (ready l e).step c now k w =
      (.go (attending l .first e), k, w) := by
  simp [Driver.step, ready, begin, hState, goto, attending]

/- Where the link may be gone, it asks the device. -/
theorem step_ready_awaiting
    (hState : k.state = .awaitingDisconnection 1) :
    (ready l e).step c now k w =
      (.go (carrying l none
        (.ofCommand Command.getApp.apdu now k.apduTimeout) e),
        k, w) := by
  simp [Driver.step, ready, begin, hState, goto, carrying]

/- No request and no frame: it waits for either. -/
theorem step_attending_nil
    (hClosing : k.closing = false)
    (hQueue : k.queue = [])
    (hEvent : c.event asked l.link w = (none, w')) :
    (attending l asked e).step c now k w =
      (.wait (attending l .again e), k, w') := by
  simp [Driver.step, attending, hClosing, work, hQueue,
    Watch.step, hEvent, goto]

/- The first request goes on the link. -/
theorem step_attending_cons
    {r : Request}
    {rest : List Request}
    (hClosing : k.closing = false)
    (hQueue : k.queue = r :: rest)
    (hCaller : k.callerGone r = false) :
    (attending l asked e).step c now k w =
      (.go (carrying l (some r)
          (.ofCommand r.apdu now
            (r.options.timeout.getD k.apduTimeout)) e),
        { k with queue := rest }, w) := by
  have hSame (queue : List Request) (closing : Bool) :
      { k with queue, closing }.callerGone r = false := hCaller
  simp [Driver.step, attending, hClosing, work, hQueue, serve,
    hSame, moved, goto, carrying, Connection.apduTimeout]

/- An exchange that goes on keeps the driver at it. -/
theorem step_carrying_go
    (hClosing : k.closing = false)
    (hStep :
      Exchange.step c (.ofSettings k.settings) now x l w =
        (.go x', l', w')) :
    (carrying l r? x e).step c now k w =
      (.go (carrying l' r? x' e), k, w') := by
  cases r? <;>
    simp [Driver.step, carrying, hClosing, work, hStep]

/- So does one that waits. -/
theorem step_carrying_wait
    (hClosing : k.closing = false)
    (hStep :
      Exchange.step c (.ofSettings k.settings) now x l w =
        (.wait x', l', w')) :
    (carrying l r? x e).step c now k w =
      (.wait (carrying l' r? x' e), k, w') := by
  cases r? <;>
    simp [Driver.step, carrying, hClosing, work, hStep]

/- A response ends it, and is the answer. -/
theorem step_carrying_done
    {y : Response}
    (hClosing : k.closing = false)
    (hState : k.state = Connection.stateOwing r?.isNone)
    (hStep :
      Exchange.step c (.ofSettings k.settings) now x l w =
        (.done (.ok y), l', w')) :
    (carrying l r? x e).step c now k w =
      (.go (ready l' e), k.conclude r? y, w') := by
  cases r? with
  | none =>
      have hState : k.state = .awaitingDisconnection 1 := hState
      simp [Driver.step, carrying, hClosing, work, hStep,
        settleCheck, moved, feed, arrive, hState,
        Lifecycle.next, Lifecycle.isTerminated,
        Lifecycle.isLinked, ready, Connection.conclude,
        Connection.stateOwing]
  | some r =>
      have hState : k.state = .connected 1 := hState
      have hAnswered :
          (k.answer r (.ok y)).state = .connected 1 := hState
      cases hTriggers : triggers r y <;>
        simp [Driver.step, carrying, hClosing, work, hStep,
          settle, moved, feed, arrive, hAnswered, hTriggers,
          Lifecycle.next, Lifecycle.isTerminated,
          LifecycleInput.losesLink, ready,
          Connection.conclude, Connection.stateOwing]

end Steps

end Driver

------------------------------------------------------------
-- Progress
------------------------------------------------------------

variable {H : Type}

/- How many steps an exchange takes at most. -/
def Slicer.effort (s : Slicer) (e : Exchanged) : Nat :=
  3 * (s.frames e.1.encode).length +
    2 * (s.frames e.2.encode).length + 5

/- How many steps a list of exchanges takes at most. -/
def Slicer.efforts (s : Slicer) : List Exchanged → Nat
  | [] => 0
  | e :: log => s.effort e + s.efforts log

/- The effort for a log is that for its entries. -/
theorem Slicer.efforts_append
    (s : Slicer)
    (log log' : List Exchanged) :
    s.efforts (log ++ log') =
      s.efforts log + s.efforts log' := by
  induction log with
  | nil => exact (Nat.zero_add _).symm
  | cons e log ih =>
      rw [List.cons_append, efforts, ih, efforts, Nat.add_assoc]

theorem Slicer.efforts_concat
    (s : Slicer)
    (log : List Exchanged)
    (e : Exchanged) :
    s.efforts (log ++ [e]) = s.efforts log + s.effort e :=
  s.efforts_append log [e]

/- The next exchange is the last of the log. -/
theorem Dialogue.log_next
    (f : Manner H)
    (t : Dialogue H)
    (r? : Option Request) :
    (t.next f r?).log =
      t.log ++ [(command r?, t.reply f r?)] :=
  rfl

/-
  How far a connection and its device are: the driver, its
  state and the two sides of the link, then the requests that
  have been taken, their answers, all that has been begun to
  be said, and how many steps are left for that.
-/
inductive Progress
    (f : Manner H)
    (m : UInt8)
    (s : Slicer)
    (x : H) :
    Driver Nat → Lifecycle → Emulator H × PipeHub →
      List Request → List Response → List Exchanged → Nat →
        Prop where
  | opening
      {d : Driver Nat}
      {w : Emulator H × PipeHub}
      {n : Nat}
      (link : Opening m x d w n) :
      Progress f m s x d .connecting w [] [] [] n
  | ready
      {t : Dialogue H}
      {a : Assembler}
      {e : ConnectionError}
      {w : Emulator H × PipeHub}
      {n : Nat}
      (proper : t.Proper f x)
      (profile_eq : a.profile = .ble)
      (rest : Rest m t w n) :
      Progress f m s x (.ready ⟨1, some (s, a)⟩ e)
        (Connection.stateOwing t.owes) w t.served t.answers
        t.log (n + 1)
  | attending
      {t : Dialogue H}
      {a : Assembler}
      {asked : Asked}
      {e : ConnectionError}
      {w : Emulator H × PipeHub}
      {n : Nat}
      (proper : t.Proper f x)
      (owes_eq : t.owes = false)
      (profile_eq : a.profile = .ble)
      (rest : Rest m t w n) :
      Progress f m s x (.attending ⟨1, some (s, a)⟩ asked e)
        (Connection.stateOwing t.owes) w t.served t.answers
        t.log n
  | carrying
      {t : Dialogue H}
      {r? : Option Request}
      {y : Exchange}
      {a : Assembler}
      {e : ConnectionError}
      {w : Emulator H × PipeHub}
      {n : Nat}
      (proper : t.Proper f x)
      (owes_eq : t.owes = r?.isNone)
      (profile_eq : a.profile = .ble)
      (unpaused : y.Unpaused)
      (apdu_eq : y.apdu = Dialogue.command r?)
      (passage : Passage f m s t r? y a w n) :
      Progress f m s x (.carrying ⟨1, some (s, a)⟩ r? y e)
        (Connection.stateOwing t.owes) w
        (t.served ++ r?.toList) t.answers (t.next f r?).log
        (n + 1)

variable {h : Handler H} {f : Manner H} {m : UInt8}
variable {s : Slicer} {x : H} {d : Driver Nat}
variable {state : Lifecycle} {w : Emulator H × PipeHub}
variable {taken : List Request} {answers : List Response}
variable {begun : List Exchanged} {n : Nat}

/- What is near is near to all that follows from it. -/
theorem Emulator.Nears.mono
    {P Q : Emulator H × PipeHub → Nat → Prop}
    {now : Nat}
    (hNears : Nears h now P w n)
    {i : Nat}
    (hSome : ∀ w' n', P w' n' → Q w' (n' + i)) :
    Nears h now Q w (n + i) := by
  rcases hNears with ⟨w', n', hHolds, hStep⟩
  refine ⟨w', n' + i, hSome w' n' hHolds, ?_⟩
  rcases hStep with ⟨hGo, hLess⟩ | ⟨hWait, hSame⟩
  · exact .inl ⟨hGo, by omega⟩
  · exact .inr ⟨hWait, by omega⟩

/- A step of the device brings the end nearer, or waits. -/
theorem Progress.device_step
    (hPrompt : h.Prompt f)
    (hSlicer : Slicer.ofMtu .ble m.toNat = .ok s)
    (hProgress :
      Progress f m s x d state w taken answers begun n)
    (now : Nat) :
    Emulator.Nears h now
      (fun w => Progress f m s x d state w taken answers begun)
      w n := by
  cases hProgress with
  | opening hOpening =>
      exact (hOpening.device_step hSlicer now).mono (i := 0)
        fun _ _ => .opening
  | ready hProper hProfile hRest =>
      exact (hRest.device_step now).mono
        fun _ _ => .ready hProper hProfile
  | attending hProper hOwes hProfile hRest =>
      exact (hRest.device_step now).mono (i := 0)
        fun _ _ => .attending hProper hOwes hProfile
  | carrying hProper hOwes hProfile hUnpaused hApdu hPassage =>
      exact (hPassage.device_step hPrompt hSlicer hApdu hProfile
        now).mono fun _ _ =>
          .carrying hProper hOwes hProfile hUnpaused hApdu

/- An exchange begins when nothing is on the way. -/
theorem Rest.passage
    {t : Dialogue H}
    (hSlicer : Slicer.ofMtu .ble m.toNat = .ok s)
    (hRest : Rest m t w n)
    (f : Manner H)
    (r? : Option Request)
    (a : Assembler)
    (now timeout : Nat) :
    ∃ n',
      n' + 2 =
          n + s.effort (Dialogue.command r?, t.reply f r?) ∧
        Passage f m s t r?
          (.ofCommand (Dialogue.command r?) now timeout) a w
          n' := by
  have hKind := Slicer.profile_eq_of_ofMtu hSlicer
  cases hRest with
  | @mk j p b taken hProfile hSends =>
      let c := Dialogue.command r?
      refine ⟨_, ?_, .asking hProfile hSends
        (b.expects_message s (hProfile.trans hKind.symm)
          c.length_encode_le)
        (s.not_isSizeFrame (hKind ▸ rfl) _)⟩
      simp [Exchange.turns, Exchange.unsent, Exchange.ofCommand,
        Slicer.effort]
      omega

------------------------------------------------------------
-- Steps of the Driver
------------------------------------------------------------

/-
  A step of the driver brings the end nearer, or waits.  What
  it begins to say counts for the steps that this takes.
-/
def Progress.Nears
    (f : Manner H)
    (m : UInt8)
    (s : Slicer)
    (x : H)
    (settings : Settings)
    (rs : List Request)
    (now : Nat)
    (d : Driver Nat)
    (k : Connection)
    (w : Emulator H × PipeHub)
    (begun : List Exchanged)
    (n : Nat) : Prop :=
  ∃ d' k' w' taken' answers' begun' n',
    k'.Keeps settings rs taken' answers' ∧ d'.Early now ∧
      Progress f m s x d' k'.state w' taken' answers' begun'
        n' ∧
      (d.step (PipeHub.beside _) now k w = (.go d', k', w') ∧
          n' + s.efforts begun < n + s.efforts begun' ∨
        d.step (PipeHub.beside _) now k w =
            (.wait d', k', w') ∧
          w' = w ∧
          n' + s.efforts begun = n + s.efforts begun')

/- An exchange has time, if the settings give it some. -/
theorem Connection.Keeps.apduTimeout_pos
    {settings : Settings}
    {k : Connection}
    {rs : List Request}
    (hKeeps : k.Keeps settings rs taken answers)
    (hApdu : 0 < settings.apduTimeout.toNat) :
    0 < k.apduTimeout := by
  rw [Connection.apduTimeout, hKeeps.settings_eq]
  exact hApdu

/- So has one with a time of its own. -/
theorem Connection.Keeps.timeout_pos
    {settings : Settings}
    {k : Connection}
    {rs : List Request}
    (hKeeps : k.Keeps settings rs taken answers)
    (hApdu : 0 < settings.apduTimeout.toNat)
    {r : Request}
    (hMem : r ∈ rs) :
    0 < r.options.timeout.getD k.apduTimeout := by
  have hOwn := hKeeps.timeout_ne r hMem
  cases hCase : r.options.timeout with
  | none => exact hKeeps.apduTimeout_pos hApdu
  | some ms =>
      rw [hCase] at hOwn
      exact Nat.pos_of_ne_zero (hOwn <| congrArg _ ·)

section Driver

variable {settings : Settings} {k : Connection}
variable {rs : List Request} {now : Nat} {t : Dialogue H}
variable {a : Assembler} {e : ConnectionError} {asked : Asked}
variable {r? : Option Request} {y : Exchange}

/- While the link comes up, nothing can go wrong. -/
theorem Progress.step_opening
    (hSlicer : Slicer.ofMtu .ble m.toNat = .ok s)
    (hBudget : 0 < settings.reconnectBudget.toNat)
    (hHandshake : 0 < settings.mtuHandshakeTimeout.toNat)
    (hKeeps : k.Keeps settings rs [] [])
    (hEarly : d.Early now)
    (hState : k.state = .connecting)
    (hOpening : Opening m x d w n) :
    Progress.Nears f m s x settings rs now d k w [] n := by
  rw [← hKeeps.settings_eq] at hBudget hHandshake
  rcases hOpening.host_step hSlicer hState hKeeps.closing_eq
      hBudget hHandshake hEarly with
    ⟨d', w', n', hEarly', hOpening', hStep⟩ |
      ⟨e, w', n', hRest, hLess, hStep⟩
  · refine ⟨d', k, w', _, _, _, n', hKeeps, hEarly',
      by rw [hState]; exact .opening hOpening', ?_⟩
    rcases hStep with ⟨hGo, hLess⟩ | ⟨hWait, hSame, hLeft⟩
    · exact .inl ⟨hGo, by omega⟩
    · exact .inr ⟨hWait, hSame, by omega⟩
  · refine ⟨_, _, w', _, _, [], n' + 1,
      hKeeps.connect hState now,
      fun _ hMem => absurd hMem List.not_mem_nil,
      .ready .start rfl hRest, .inl ⟨hStep, ?_⟩⟩
    omega

/- A driver with a link goes on to a request, or to a check. -/
theorem Progress.step_ready
    (hSlicer : Slicer.ofMtu .ble m.toNat = .ok s)
    (hApdu : 0 < settings.apduTimeout.toNat)
    (hKeeps : k.Keeps settings rs t.served t.answers)
    (hState : k.state = Connection.stateOwing t.owes)
    (hProper : t.Proper f x)
    (hProfile : a.profile = .ble)
    (hRest : Rest m t w n) :
    Progress.Nears f m s x settings rs now
      (.ready ⟨1, some (s, a)⟩ e) k w t.log (n + 1) := by
  cases hOwes : t.owes with
  | false =>
      rw [hOwes] at hState
      refine ⟨_, k, w, _, _, t.log, n, hKeeps,
        fun _ hMem => absurd hMem List.not_mem_nil, ?_,
        .inl ⟨Driver.step_ready_connected hState, by omega⟩⟩
      rw [hState, ← hOwes]
      exact .attending hProper hOwes hProfile hRest
  | true =>
      rw [hOwes] at hState
      rcases hRest.passage hSlicer f none a now k.apduTimeout
        with ⟨n', hLeft, hPassage⟩
      have hTimeout := hKeeps.apduTimeout_pos hApdu
      rw [← List.append_nil t.served] at hKeeps
      refine ⟨_, k, w, _, _, (t.next f none).log, n' + 1,
        hKeeps, Driver.early_ofCommand _ _ _ _ _ hTimeout, ?_,
        .inl ⟨Driver.step_ready_awaiting hState, ?_⟩⟩
      · rw [hState, ← hOwes]
        exact .carrying hProper hOwes hProfile trivial rfl
          hPassage
      · rw [t.log_next, s.efforts_concat]
        omega

/- A driver without a check takes the next request. -/
theorem Progress.step_attending
    (hSlicer : Slicer.ofMtu .ble m.toNat = .ok s)
    (hApdu : 0 < settings.apduTimeout.toNat)
    (hKeeps : k.Keeps settings rs t.served t.answers)
    (hState : k.state = Connection.stateOwing t.owes)
    (hProper : t.Proper f x)
    (hOwes : t.owes = false)
    (hProfile : a.profile = .ble)
    (hRest : Rest m t w n) :
    Progress.Nears f m s x settings rs now
      (.attending ⟨1, some (s, a)⟩ asked e) k w t.log n := by
  have hClosing := hKeeps.closing_eq
  rw [hOwes] at hState
  cases hQueue : k.queue with
  | nil =>
      have hEvent :
          (PipeHub.beside (Emulator H)).event asked 1 w =
            (none, w) := by
        cases hRest
        rw [PipeHub.event_beside_nil]
      refine ⟨_, k, w, _, _, _, n, hKeeps,
        fun _ hMem => absurd hMem List.not_mem_nil, ?_,
        .inr ⟨Driver.step_attending_nil hClosing hQueue hEvent,
          rfl, rfl⟩⟩
      rw [hState, ← hOwes]
      exact .attending hProper hOwes hProfile hRest
  | cons r rest =>
      have hMem : r ∈ rs := by
        rw [hKeeps.queue_eq, hQueue]
        simp
      have hTimeout := hKeeps.timeout_pos hApdu hMem
      rcases hRest.passage hSlicer f (some r) a now
          (r.options.timeout.getD k.apduTimeout) with
        ⟨n', hLeft, hPassage⟩
      refine ⟨_, _, w, _, _, (t.next f (some r)).log, n' + 1,
        hKeeps.take hQueue,
        Driver.early_ofCommand _ _ _ _ _ hTimeout, ?_,
        .inl ⟨Driver.step_attending_cons hClosing hQueue
          (hKeeps.callerGone_eq hMem), ?_⟩⟩
      · rw [hState, ← hOwes]
        exact .carrying hProper hOwes hProfile trivial rfl
          hPassage
      · rw [t.log_next, s.efforts_concat]
        omega

/- An exchange goes on, or its response settles the request. -/
theorem Progress.step_carrying
    (hKeeps :
      k.Keeps settings rs (t.served ++ r?.toList) t.answers)
    (hEarly : (Driver.carrying ⟨1, some (s, a)⟩ r? y e).Early
      now)
    (hState : k.state = Connection.stateOwing t.owes)
    (hProper : t.Proper f x)
    (hOwes : t.owes = r?.isNone)
    (hProfile : a.profile = .ble)
    (hUnpaused : y.Unpaused)
    (hCommand : y.apdu = Dialogue.command r?)
    (hPassage : Passage f m s t r? y a w n) :
    Progress.Nears f m s x settings rs now
      (.carrying ⟨1, some (s, a)⟩ r? y e) k w (t.next f r?).log
      (n + 1) := by
  have hClosing := hKeeps.closing_eq
  have hDue := (Driver.early_carrying hUnpaused).mp hEarly
  rcases hPassage.host_step (q := .ofSettings k.settings)
      hUnpaused hDue hProfile with
    ⟨y', a', w', n', hNext, hProfile', hPassage', hStep⟩ |
      ⟨a', w', n', hProfile', hRest, hLess, hDone⟩
  · have hEarly' :
        (Driver.carrying ⟨1, some (s, a')⟩ r? y' e).Early
          now := by
      rw [Driver.early_carrying hNext.unpaused,
        hNext.deadline_eq]
      exact hDue
    refine ⟨_, k, w', _, _, (t.next f r?).log, n' + 1, hKeeps,
      hEarly', ?_, ?_⟩
    · rw [hState]
      exact .carrying hProper hOwes hProfile' hNext.unpaused
        (hNext.apdu_eq.trans hCommand) hPassage'
    · rcases hStep with ⟨hGo, hLess⟩ | ⟨hWait, hSame, hLeft⟩
      · exact .inl ⟨Driver.step_carrying_go hClosing hGo,
          by omega⟩
      · exact .inr ⟨Driver.step_carrying_wait hClosing hWait,
          hSame, by omega⟩
  · have hLinked : k.state ≠ .connecting := by
      rw [hState]
      exact Connection.stateOwing_ne_connecting t.owes
    have hKeeps' :=
      hKeeps.conclude hProper.length_answers hLinked
        (t.reply f r?)
    exact ⟨_, _, w', _, _, (t.next f r?).log, n' + 1, hKeeps',
      fun _ hMem => absurd hMem List.not_mem_nil,
      .ready (hProper.next hOwes) hProfile' hRest,
      .inl ⟨Driver.step_carrying_done hClosing
        (hOwes ▸ hState) hDone, by omega⟩⟩

/- Each step of the driver gets the session further. -/
theorem Progress.driver_step
    (hSlicer : Slicer.ofMtu .ble m.toNat = .ok s)
    (hApdu : 0 < settings.apduTimeout.toNat)
    (hBudget : 0 < settings.reconnectBudget.toNat)
    (hHandshake : 0 < settings.mtuHandshakeTimeout.toNat)
    (hKeeps : k.Keeps settings rs taken answers)
    (hEarly : d.Early now)
    (hProgress :
      Progress f m s x d k.state w taken answers begun n) :
    Progress.Nears f m s x settings rs now d k w begun n := by
  generalize hState : k.state = state at hProgress
  cases hProgress with
  | opening hOpening =>
      exact Progress.step_opening hSlicer hBudget hHandshake
        hKeeps hEarly hState hOpening
  | ready hProper hProfile hRest =>
      exact Progress.step_ready hSlicer hApdu hKeeps hState
        hProper hProfile hRest
  | attending hProper hOwes hProfile hRest =>
      exact Progress.step_attending hSlicer hApdu hKeeps hState
        hProper hOwes hProfile hRest
  | carrying hProper hOwes hProfile hUnpaused hCommand
      hPassage =>
      exact Progress.step_carrying hKeeps hEarly hState hProper
        hOwes hProfile hUnpaused hCommand hPassage

end Driver

------------------------------------------------------------
-- What Has Been Said
------------------------------------------------------------

/- What has been done first is in the journal first. -/
theorem JournalLine.ofLog_prefix
    {log log' : List Exchanged}
    (hPrefix : log <+: log') :
    ofLog log <+: ofLog log' := by
  rcases hPrefix with ⟨rest, rfl⟩
  rw [ofLog_append]
  exact List.prefix_append _ _

/- Before the link is up, the device has done nothing. -/
theorem Opening.deeds_eq_nil
    (hOpening : Opening m x d w n) :
    Emulator.deeds w.1.journal = [] := by
  cases hOpening with
  | idle => rfl
  | reaching => rfl
  | connecting => rfl
  | asking _ hListens =>
      cases hListens with
      | accepting => rfl
      | receiving => rfl
  | answering _ hSends =>
      exact List.prefix_nil.mp hSends.deeds_prefix

/- Between exchanges it has done what it was asked to. -/
theorem Rest.deeds_prefix
    {t : Dialogue H}
    (hRest : Rest m t w n) :
    Emulator.deeds w.1.journal <+: JournalLine.ofLog t.log := by
  cases hRest with
  | mk _ hSends => exact hSends.deeds_prefix

/- Within one it does no more than that. -/
theorem Passage.deeds_prefix
    {t : Dialogue H}
    {r? : Option Request}
    {y : Exchange}
    {a : Assembler}
    (hPassage : Passage f m s t r? y a w n) :
    Emulator.deeds w.1.journal <+:
      JournalLine.ofLog (t.next f r?).log := by
  cases hPassage with
  | asking _ hSends =>
      exact hSends.deeds_prefix.trans
        (JournalLine.ofLog_prefix (List.prefix_append _ _))
  | answering _ _ hSends => exact hSends.deeds_prefix

/- All that has been said is what there was to be said. -/
theorem Progress.agrees
    (hProgress :
      Progress f m s x d state w taken answers begun n)
    (rest : List Request) :
    answers <+: Dialogue.replies f (taken ++ rest) x ∧
      begun <+: Dialogue.transcript f (taken ++ rest) x ∧
      Emulator.deeds w.1.journal <+:
        JournalLine.ofLog begun := by
  cases hProgress with
  | opening hOpening =>
      rw [hOpening.deeds_eq_nil]
      refine ⟨?_, ?_, ?_⟩ <;> exact List.nil_prefix
  | ready hProper _ hRest =>
      refine ⟨?_, hProper.log_begins rest, hRest.deeds_prefix⟩
      rw [hProper.answers_eq, Dialogue.replies_append]
      exact List.prefix_append _ _
  | attending hProper _ _ hRest =>
      refine ⟨?_, hProper.log_begins rest, hRest.deeds_prefix⟩
      rw [hProper.answers_eq, Dialogue.replies_append]
      exact List.prefix_append _ _
  | carrying hProper hOwes _ _ _ hPassage =>
      refine ⟨?_, (hProper.next hOwes).log_begins rest,
        hPassage.deeds_prefix⟩
      rw [hProper.answers_eq, List.append_assoc,
        Dialogue.replies_append]
      exact List.prefix_append _ _

/- No request is answered that has not been taken. -/
theorem Progress.answers_le
    (hProgress :
      Progress f m s x d state w taken answers begun n) :
    answers.length ≤ taken.length := by
  cases hProgress with
  | opening => exact Nat.le_refl _
  | ready hProper => exact Nat.le_of_eq hProper.length_answers
  | attending hProper =>
      exact Nat.le_of_eq hProper.length_answers
  | carrying hProper =>
      rw [hProper.length_answers, List.length_append]
      exact Nat.le_add_right _ _

/- The link that came up first stays. -/
theorem Progress.state_eq
    (hProgress :
      Progress f m s x d state w taken answers begun n) :
    state = .connecting ∨
      ∃ owes, state = Connection.stateOwing owes := by
  cases hProgress with
  | opening => exact .inl rfl
  | _ => exact .inr ⟨_, rfl⟩

/- A session without a fault does not end. -/
theorem Progress.state_ne_terminated
    (hProgress :
      Progress f m s x d state w taken answers begun n) :
    state ≠ .terminated := by
  rcases hProgress.state_eq with rfl | ⟨owes, rfl⟩
  · exact nofun
  · cases owes <;> exact nofun

------------------------------------------------------------
-- No Deadlock
------------------------------------------------------------

/-
  All has been said, and both sides wait: the driver for a
  request, and the device for a frame.
-/
inductive Quiet
    (f : Manner H)
    (m : UInt8)
    (x : H)
    (rs : List Request) :
    Driver Nat → Lifecycle → Emulator H × PipeHub →
      List Response → Prop where
  | mk
      {t : Dialogue H}
      {c : Option (Slicer × Assembler)}
      {asked asked' : Asked}
      {e : ConnectionError}
      {j : Array JournalLine}
      {b : Assembler}
      {taken : Nat}
      (proper : t.Proper f x)
      (owes_eq : t.owes = false)
      (served_eq : t.served = rs)
      (deeds_eq :
        Emulator.deeds j = JournalLine.ofLog t.log) :
      Quiet f m x rs (.attending ⟨1, c⟩ asked e) (.connected 1)
        (.tending m t.device j (.receiving asked') b,
          .single (.carrying [] [] taken) [])
        t.answers

/- When both sides wait, all has been said. -/
theorem Progress.quiet
    (hPrompt : h.Prompt f)
    (hSlicer : Slicer.ofMtu .ble m.toNat = .ok s)
    {settings : Settings}
    {k : Connection}
    {rs : List Request}
    (hKeeps : k.Keeps settings rs taken answers)
    {now now' : Nat}
    (hEarly : d.Early now)
    (hProgress :
      Progress f m s x d k.state w taken answers begun n)
    (hHost :
      (d.step (PipeHub.beside _) now k w).1.isWait = true)
    (hDevice :
      (Emulator.step h now' w.1 w.2).1.isWait = true) :
    k.queue = [] ∧ Quiet f m x rs d k.state w answers := by
  have hClosing := hKeeps.closing_eq
  generalize hState : k.state = state at hProgress
  cases hProgress with
  | opening hOpening =>
      rcases hOpening.moves hSlicer hState hClosing hEarly now'
        with hMoves | hMoves
      · rw [hMoves] at hHost
        cases hHost
      · rw [hMoves] at hDevice
        cases hDevice
  | @ready t a e _ n hProper hProfile hRest =>
      cases hOwes : t.owes with
      | false =>
          rw [hOwes] at hState
          rw [Driver.step_ready_connected hState] at hHost
          cases hHost
      | true =>
          rw [hOwes] at hState
          rw [Driver.step_ready_awaiting hState] at hHost
          cases hHost
  | @attending t a asked e _ n hProper hOwes hProfile hRest =>
      rw [hOwes] at hState ⊢
      cases hQueue : k.queue with
      | cons r rest =>
          have hMem : r ∈ rs := by
            rw [hKeeps.queue_eq, hQueue]
            simp
          rw [Driver.step_attending_cons hClosing hQueue
            (hKeeps.callerGone_eq hMem)] at hHost
          cases hHost
      | nil =>
          have hServed : t.served = rs := by
            rw [hKeeps.queue_eq, hQueue, List.append_nil]
          cases hRest with
          | mk _ hSends =>
              cases hSends with
              | receiving _ hDeeds =>
                  exact ⟨rfl, .mk hProper hOwes hServed hDeeds⟩
              | announced => cases hDevice
              | responded => cases hDevice
  | @carrying t r? y a e _ n hProper hOwes hProfile hUnpaused
      hCommand hPassage =>
      have hDue := (Driver.early_carrying hUnpaused).mp hEarly
      rcases hPassage.moves hPrompt hSlicer
          (q := .ofSettings k.settings) hUnpaused hDue now'
        with hMoves | hMoves
      · rcases hPassage.host_step
            (q := .ofSettings k.settings) hUnpaused hDue
            hProfile with
          ⟨y', a', w', n', -, -, -, ⟨hGo, -⟩ | ⟨hWait, -⟩⟩ |
            ⟨a', w', n', -, -, -, hDone⟩
        · rw [Driver.step_carrying_go hClosing hGo] at hHost
          cases hHost
        · rw [hWait] at hMoves
          cases hMoves
        · rw [Driver.step_carrying_done hClosing
            (hOwes ▸ hState) hDone] at hHost
          cases hHost
      · rw [hMoves] at hDevice
        cases hDevice

section Quiet

variable {rs : List Request}

/- Once all is quiet, all has been answered. -/
theorem Quiet.answers_eq
    (hQuiet : Quiet f m x rs d state w answers) :
    answers = Dialogue.replies f rs x := by
  cases hQuiet with
  | mk hProper hOwes hServed =>
      rw [← hServed]
      exact hProper.answers_eq

/- The journal is that of the whole dialogue. -/
theorem Quiet.deeds_eq
    (hQuiet : Quiet f m x rs d state w answers) :
    Emulator.deeds w.1.journal =
      JournalLine.ofLog (Dialogue.transcript f rs x) := by
  cases hQuiet with
  | mk hProper hOwes hServed hDeeds =>
      rw [← hServed, ← hProper.transcript_eq hOwes]
      exact hDeeds

/- The first link is still the one in use. -/
theorem Quiet.state_eq
    (hQuiet : Quiet f m x rs d state w answers) :
    state = .connected 1 := by
  cases hQuiet
  rfl

/- A driver without requests waits for no time. -/
theorem Quiet.early
    (hQuiet : Quiet f m x rs d state w answers)
    (now : Nat) :
    d.Early now := by
  cases hQuiet
  exact fun _ hDue => absurd hDue List.not_mem_nil

/- A driver without requests goes on waiting. -/
theorem Quiet.driver_step
    (hQuiet : Quiet f m x rs d state w answers)
    {k : Connection}
    (hClosing : k.closing = false)
    (hQueue : k.queue = [])
    (now : Nat) :
    ∃ d', d.step (PipeHub.beside _) now k w = (.wait d', k, w) ∧
      Quiet f m x rs d' state w answers := by
  cases hQuiet with
  | mk hProper hOwes hServed hDeeds =>
      refine ⟨_, Driver.step_attending_nil hClosing hQueue ?_,
        .mk hProper hOwes hServed hDeeds⟩
      rw [PipeHub.event_beside_nil]

/- A device without frames goes on waiting. -/
theorem Quiet.device_step
    (hQuiet : Quiet f m x rs d state w answers)
    (now : Nat) :
    ∃ w', Emulator.step h now w.1 w.2 = (.wait w'.1, w'.2) ∧
      Quiet f m x rs d state w' answers := by
  cases hQuiet with
  | mk hProper hOwes hServed hDeeds =>
      exact ⟨_, Emulator.step_receiving_nil now _,
        .mk hProper hOwes hServed hDeeds⟩

end Quiet

end DeviceSession
