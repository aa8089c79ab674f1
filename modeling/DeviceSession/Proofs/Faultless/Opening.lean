import DeviceSession.Connection.Driver
import DeviceSession.Proofs.Faultless.Passage

/-
  Bringing up the first link, step by step.

  The host opens the link and asks for the frame size; the
  device accepts the link and announces it.  Each step but a
  wait brings the end nearer, and the two sides never both
  wait.

  Key definitions include:
    * `Emulator.fresh`
    * `Opening`
    * `Opening.Nears`
    * `Opening.Ends`

  Main declarations:
    * `Opening.device_step`
    * `Opening.host_step`
    * `Opening.moves`
-/

------------------------------------------------------------
-- Openings
------------------------------------------------------------

namespace DeviceSession

variable {H : Type}

/- A device that has done nothing yet. -/
def Emulator.fresh (m : UInt8) (x : H) : Emulator H where
  profile := .ble
  mtu := m
  handler := x

/- The device has yet to accept the link, or reads from it. -/
inductive Emulator.Listens
    (m : UInt8)
    (x : H) : Emulator H → List Nat → Prop where
  | accepting : Listens m x (.fresh m x) [1]
  | receiving
      {b : Assembler}
      (asked : Asked)
      (profile_eq : b.profile = .ble) :
      Listens m x (.tending m x #[] (.receiving asked) b) []

/- The driver while it brings up its first link. -/
def Driver.opening
    (due : Nat)
    (attempt : Attempt Nat)
    (e : ConnectionError) : Driver Nat where
  job := .bringingUp { deadline := due, attempt }
  failure := e

/-
  The first link on its way up, and how many steps are left
  for the two sides together.
-/
inductive Opening
    (m : UInt8)
    (x : H) :
    Driver Nat → Emulator H × PipeHub → Nat → Prop where
  | idle
      (e : ConnectionError) :
      Opening m x { failure := e } (.fresh m x, {}) 11
  | reaching
      (due : Nat)
      (e : ConnectionError) :
      Opening m x (.opening due (.reaching .first) e)
        (.fresh m x, {}) 10
  | connecting
      (due : Nat)
      (e : ConnectionError) :
      Opening m x (.opening due (.connecting .first) e)
        (.fresh m x, {}) 9
  /- The question goes down. -/
  | asking
      {due : Nat}
      {e : ConnectionError}
      {u : Setup}
      {y : Emulator H}
      {waiting : List Nat}
      {down : List (List UInt8)}
      {taken : Nat}
      (unpaused : u.Unpaused)
      (listens : Emulator.Listens m x y waiting)
      (down_eq : down ++ u.unsent = [Mtu.request]) :
      Opening m x (.opening due (.settingUp ⟨1, none⟩ u) e)
        (y, .single (.carrying down [] taken) waiting)
        (waiting.length + (u.turns + 5))
  /- The announcement comes up. -/
  | answering
      {due deadline : Nat}
      {asked : Asked}
      {e : ConnectionError}
      {j : Array JournalLine}
      {p : Emulator.Phase}
      {b : Assembler}
      {up frames : List (List UInt8)}
      {taken : Nat}
      (profile_eq : b.profile = .ble)
      (sends : Emulator.Sends [] j p frames)
      (up_eq : up ++ frames = [Mtu.response m]) :
      Opening m x
        (.opening due
          (.settingUp ⟨1, none⟩ (.reading deadline asked)) e)
        (.tending m x j p b,
          .single (.carrying [] up taken) [])
        (p.turns + 2)

variable {h : Handler H} {m : UInt8} {s : Slicer} {x : H}
variable {d : Driver Nat} {w : Emulator H × PipeHub} {n : Nat}

theorem Setup.of_turns_eq_zero
    {u : Setup}
    (hTurns : u.turns = 0) :
    u.unsent = [] ∧
      ∃ deadline asked, u = .reading deadline asked := by
  cases u with
  | reading deadline asked => exact ⟨rfl, _, _, rfl⟩
  | _ => cases hTurns

/- A setup that has nothing to write is reading. -/
theorem Setup.of_unsent_eq_nil
    {u : Setup}
    (hUnsent : u.unsent = []) :
    u.turns = 0 := by
  cases u with
  | reading => rfl
  | _ => cases hUnsent

/- One frame leaves room for another. -/
theorem Setup.room_of_append
    {u : Setup}
    {frame : List UInt8}
    {down : List (List UInt8)}
    (hDown : down ++ u.unsent = [frame]) :
    down.length < Pipe.depth := by
  have hLength := congrArg List.length hDown
  simp only [List.length_append, List.length_singleton]
    at hLength
  simp only [Pipe.depth]
  omega

------------------------------------------------------------
-- Steps of the Device
------------------------------------------------------------

/- A device on which no link has been opened waits. -/
theorem Emulator.step_fresh (now : Nat) :
    Emulator.step h now (.fresh m x) {} =
      (.wait (.fresh m x), {}) :=
  rfl

/- A device accepts its first link. -/
theorem Emulator.step_accept
    (hSlicer : Slicer.ofMtu .ble m.toNat = .ok s)
    (p : Pipe)
    (now : Nat) :
    Emulator.step h now (.fresh m x) (.single p [1]) =
      (.go (.tending m x #[] (.receiving .first)
          (.ofProfile .ble)),
        .single p []) := by
  have hAccept :
      (PipeHub.single p [1]).accept =
        (some 1, .single p []) := rfl
  simp [Emulator.step, fresh, hAccept, hSlicer, tending,
    receive, goto]

/- A device that is asked for its frame size announces it. -/
theorem Emulator.step_request
    {j : Array JournalLine}
    {b : Assembler}
    (asked : Asked)
    (up : List (List UInt8))
    (taken now : Nat) :
    Emulator.step h now (.tending m x j (.receiving asked) b)
        (.single (.carrying [Mtu.request] up taken) []) =
      (.go (.tending m x j
          (.sending [Mtu.response m] .first .announced) b),
        .single (.carrying [] up (taken + 1)) []) := by
  have hSize : Mtu.IsSizeFrame Mtu.request := rfl
  simp [Emulator.step, tending, hSize, goto]

theorem Opening.device_step
    (hSlicer : Slicer.ofMtu .ble m.toNat = .ok s)
    (hOpening : Opening m x d w n)
    (now : Nat) :
    Emulator.Nears h now (Opening m x d) w n := by
  cases hOpening with
  | idle e =>
      exact ⟨_, _, .idle e, .inr ⟨Emulator.step_fresh now, rfl⟩⟩
  | reaching due e =>
      exact ⟨_, _, .reaching due e,
        .inr ⟨Emulator.step_fresh now, rfl⟩⟩
  | connecting due e =>
      exact ⟨_, _, .connecting due e,
        .inr ⟨Emulator.step_fresh now, rfl⟩⟩
  | @asking due e u y waiting down taken hUnpaused hListens
      hDown =>
      cases hListens with
      | accepting =>
          refine ⟨_, _,
            .asking hUnpaused (.receiving .first rfl) hDown,
            .inl ⟨Emulator.step_accept hSlicer _ now, ?_⟩⟩
          simp
      | @receiving b asked hProfile =>
          cases down with
          | nil =>
              exact ⟨_, _, .asking hUnpaused
                  (.receiving .again hProfile) hDown,
                .inr ⟨Emulator.step_receiving_nil now asked,
                  rfl⟩⟩
          | cons frame rest =>
              rw [List.cons_append, List.cons_eq_cons] at hDown
              rcases hDown with ⟨rfl, hNone⟩
              rcases List.append_eq_nil_iff.mp hNone with
                ⟨rfl, hUnsent⟩
              rcases Setup.of_turns_eq_zero
                  (Setup.of_unsent_eq_nil hUnsent) with
                ⟨-, deadline, asked', rfl⟩
              exact ⟨_, _, .answering hProfile
                  (.announced [Mtu.response m] .first rfl) rfl,
                .inl ⟨Emulator.step_request asked [] taken now,
                  Nat.lt_succ_self 4⟩⟩
  | answering hProfile hSends hUp =>
      apply hSends.nears (.inr rfl) now
      intro j' p' frames' up' hSends' hFrames
      exact .answering hProfile hSends' (hFrames.trans hUp)

------------------------------------------------------------
-- Steps of the Host
------------------------------------------------------------

namespace Driver

variable {W : Type} {c : Connector W Nat} {now due : Nat}
variable {attempt attempt' : Attempt Nat}
variable {e : ConnectionError} {k : Connection} {w w' : W}

/- No time that the driver waits for has come. -/
def Early {L : Type} (now : Nat) (d : Driver L) : Prop :=
  ∀ due ∈ d.timers, now < due

theorem early_opening :
    (opening due attempt e).Early now ↔
      now < due ∧
        ∀ due' ∈ (BringUp.mk due 1 attempt).timers.tail,
          now < due' := by
  simp [Early, opening, timers, BringUp.timers]

theorem step_opening_go
    (hClosing : k.closing = false)
    (hStep :
      BringUp.attemptStep c now { deadline := due, attempt } k
          w =
        (.go { deadline := due, attempt := attempt' }, k, w')) :
    (opening due attempt e).step c now k w =
      (.go (opening due attempt' e), k, w') := by
  simp [Driver.step, opening, hClosing, work, BringUp.step,
    hStep, goto]

theorem step_opening_wait
    (hClosing : k.closing = false)
    (hStep :
      BringUp.attemptStep c now { deadline := due, attempt } k
          w =
        (.wait { deadline := due, attempt := attempt' }, k,
          w'))
    (hDue : now < due) :
    (opening due attempt e).step c now k w =
      (.wait (opening due attempt' e), k, w') := by
  simp [Driver.step, opening, hClosing, work, BringUp.step,
    hStep, goto, Nat.not_le_of_lt hDue]

theorem step_opening_linked
    {l : HostEnd Nat}
    (hState : k.state = .connecting)
    (hClosing : k.closing = false)
    (hStep :
      BringUp.attemptStep c now { deadline := due, attempt } k
          w =
        (.done (.linked l), k, w')) :
    (opening due attempt e).step c now k w =
      (.go { link := some l, failure := e },
        { k with state := .connected 1 }.tell now
          (.connected 1),
        w') := by
  simp [Driver.step, opening, hClosing, work, BringUp.step,
    hStep, moved, feed, arrive, hState, Lifecycle.next,
    Lifecycle.isTerminated]

section Setups

variable {l l' : HostEnd Nat} {u u' : Setup}

theorem step_setup_go
    (hClosing : k.closing = false)
    (hStep :
      Setup.step c (.ofSettings k.settings)
          k.settings.mtuHandshakeTimeout.toNat now u l w =
        (.go u', l', w')) :
    (opening due (.settingUp l u) e).step c now k w =
      (.go (opening due (.settingUp l' u') e), k, w') := by
  apply step_opening_go hClosing
  simp only [BringUp.attemptStep, hStep]
  rfl

theorem step_setup_wait
    (hClosing : k.closing = false)
    (hStep :
      Setup.step c (.ofSettings k.settings)
          k.settings.mtuHandshakeTimeout.toNat now u l w =
        (.wait u', l', w'))
    (hDue : now < due) :
    (opening due (.settingUp l u) e).step c now k w =
      (.wait (opening due (.settingUp l' u') e), k, w') := by
  apply step_opening_wait hClosing _ hDue
  simp only [BringUp.attemptStep, hStep]
  rfl

theorem step_setup_linked
    (hState : k.state = .connecting)
    (hClosing : k.closing = false)
    (hStep :
      Setup.step c (.ofSettings k.settings)
          k.settings.mtuHandshakeTimeout.toNat now u l w =
        (.done (.ok ()), l', w')) :
    (opening due (.settingUp l u) e).step c now k w =
      (.go { link := some l', failure := e },
        { k with state := .connected 1 }.tell now
          (.connected 1),
        w') := by
  apply step_opening_linked hState hClosing
  simp only [BringUp.attemptStep, hStep]

end Setups

end Driver

theorem Opening.deadlines_of_reading
    {due deadline : Nat}
    {l : HostEnd Nat}
    {asked : Asked}
    {e : ConnectionError}
    {now : Nat}
    (hEarly :
      (Driver.opening due
        (.settingUp l (.reading deadline asked)) e).Early
          now) :
    now < due ∧ now < deadline := by
  simpa [Driver.early_opening, BringUp.timers, Setup.timers]
    using hEarly

/- A step of the host brings the end nearer, or waits. -/
def Opening.Nears
    (m : UInt8)
    (x : H)
    (k : Connection)
    (now : Nat)
    (d : Driver Nat)
    (w : Emulator H × PipeHub)
    (n : Nat) : Prop :=
  ∃ d' w' n',
    d'.Early now ∧ Opening m x d' w' n' ∧
      (d.step (PipeHub.beside _) now k w = (.go d', k, w') ∧
          n' < n ∨
        d.step (PipeHub.beside _) now k w = (.wait d', k, w') ∧
          w' = w ∧ n' = n)

/-
  A step of the host is the end: the link is up, and nothing
  is left over.
-/
def Opening.Ends
    (m : UInt8)
    (s : Slicer)
    (x : H)
    (k : Connection)
    (now : Nat)
    (d : Driver Nat)
    (w : Emulator H × PipeHub)
    (n : Nat) : Prop :=
  ∃ e w' n',
    Rest m { device := x } w' n' ∧ n' + 1 < n ∧
      d.step (PipeHub.beside _) now k w =
        (.go { link := some ⟨1, some (s, .ofProfile .ble)⟩,
               failure := e },
          { k with state := .connected 1 }.tell now
            (.connected 1),
          w')

section Host

variable {k : Connection} {now due deadline : Nat}
variable {u : Setup} {e : ConnectionError} {y : Emulator H}
variable {j : Array JournalLine} {p : Emulator.Phase}
variable {b : Assembler} {waiting : List Nat} {taken : Nat}
variable {down up frames : List (List UInt8)} {asked : Asked}

/- A setup writes its question, and then waits. -/
theorem Opening.step_asking
    (hClosing : k.closing = false)
    (hTimeout : 0 < k.settings.mtuHandshakeTimeout.toNat)
    (hEarly :
      (Driver.opening due (.settingUp ⟨1, none⟩ u) e).Early
        now)
    (hUnpaused : u.Unpaused)
    (hListens : Emulator.Listens m x y waiting)
    (hDown : down ++ u.unsent = [Mtu.request]) :
    Opening.Nears m x k now
      (.opening due (.settingUp ⟨1, none⟩ u) e)
      (y, .single (.carrying down [] taken) waiting)
      (waiting.length + (u.turns + 5)) := by
  by_cases hTurns : u.turns = 0
  · rcases Setup.of_turns_eq_zero hTurns with
      ⟨-, deadline, asked, rfl⟩
    have hDues := Opening.deadlines_of_reading hEarly
    have hEarly' :
        (Driver.opening due (.settingUp ⟨1, none⟩
          (.reading deadline .again)) e).Early now := hEarly
    exact ⟨_, (y, .single (.carrying down [] taken) waiting),
      _, hEarly', .asking trivial hListens hDown,
      .inr ⟨Driver.step_setup_wait hClosing
        (Setup.step_reading_nil hDues.2) hDues.1, rfl, rfl⟩⟩
  · rcases Setup.step_writing y (.ofSettings k.settings)
        k.settings.mtuHandshakeTimeout.toNat now waiting []
        taken hUnpaused (Setup.room_of_append hDown) hTurns with
      ⟨u', down', hStep, hUnpaused', hLess, hFrames, hTimers⟩
    have hEarly' :
        (Driver.opening due (.settingUp ⟨1, none⟩ u') e).Early
          now := by
      rw [Driver.early_opening] at hEarly ⊢
      refine ⟨hEarly.1, fun due' hMem => ?_⟩
      rcases hTimers due' hMem with rfl | hOld
      · omega
      · exact hEarly.2 due' hOld
    exact ⟨_, (y, .single (.carrying down' [] taken) waiting),
      _, hEarly',
      .asking hUnpaused' hListens (hFrames.trans hDown),
      .inl ⟨Driver.step_setup_go hClosing hStep, by omega⟩⟩

/- A setup waits for the announcement, and then ends. -/
theorem Opening.step_answering
    (hSlicer : Slicer.ofMtu .ble m.toNat = .ok s)
    (hState : k.state = .connecting)
    (hClosing : k.closing = false)
    (hEarly :
      (Driver.opening due
        (.settingUp ⟨1, none⟩ (.reading deadline asked))
          e).Early now)
    (hProfile : b.profile = .ble)
    (hSends : Emulator.Sends [] j p frames)
    (hUp : up ++ frames = [Mtu.response m]) :
    let d : Driver Nat := .opening due
      (.settingUp ⟨1, none⟩ (.reading deadline asked)) e
    let w : Emulator H × PipeHub :=
      (.tending m x j p b, .single (.carrying [] up taken) [])
    Opening.Nears m x k now d w (p.turns + 2) ∨
      Opening.Ends m s x k now d w (p.turns + 2) := by
  cases up with
  | nil =>
      have hDues := Opening.deadlines_of_reading hEarly
      have hEarly' :
          (Driver.opening due (.settingUp ⟨1, none⟩
            (.reading deadline .again)) e).Early now := hEarly
      exact .inl ⟨_, (_, .single (.carrying [] [] taken) []), _,
        hEarly', .answering hProfile hSends hUp,
        .inr ⟨Driver.step_setup_wait hClosing
          (Setup.step_reading_nil hDues.2) hDues.1, rfl, rfl⟩⟩
  | cons frame rest =>
      rw [List.cons_append, List.cons_eq_cons] at hUp
      rcases hUp with ⟨rfl, hNone⟩
      rcases List.append_eq_nil_iff.mp hNone with ⟨rfl, rfl⟩
      exact .inr ⟨e, (_, .single (.carrying [] [] taken) []), _,
        .mk hProfile hSends, by omega,
        Driver.step_setup_linked hState hClosing
          (Setup.step_answered hSlicer)⟩

theorem Opening.host_step
    (hSlicer : Slicer.ofMtu .ble m.toNat = .ok s)
    (hState : k.state = .connecting)
    (hClosing : k.closing = false)
    (hBudget : 0 < k.settings.reconnectBudget.toNat)
    (hTimeout : 0 < k.settings.mtuHandshakeTimeout.toNat)
    (hEarly : d.Early now)
    (hOpening : Opening m x d w n) :
    Opening.Nears m x k now d w n ∨
      Opening.Ends m s x k now d w n := by
  cases hOpening with
  | idle e =>
      let due := now + k.settings.reconnectBudget.toNat
      have hEarly' :
          (Driver.opening due (.reaching .first) e).Early
            now := by
        simp [Driver.early_opening, BringUp.timers, due,
          hBudget]
      refine .inl ⟨_, _, _, hEarly', .reaching due e,
        .inl ⟨?_, by decide⟩⟩
      simp [Driver.step, Driver.begin, hState, Driver.bringUp,
        Driver.closeLink, Driver.goto, Driver.opening, due]
  | reaching due e =>
      have hEarly' :
          (Driver.opening due (.connecting .first) e).Early
            now := hEarly
      exact .inl ⟨_, (.fresh m x, {}), _, hEarly',
        .connecting due e,
        .inl ⟨Driver.step_opening_go hClosing rfl,
          Nat.lt_succ_self 9⟩⟩
  | connecting due e =>
      have hEarly' :
          (Driver.opening due
            (.settingUp ⟨1, none⟩ .start) e).Early now := hEarly
      exact .inl ⟨_,
        (.fresh m x, .single (.carrying [] [] 0) [1]), _,
        hEarly', .asking trivial .accepting rfl,
        .inl ⟨Driver.step_opening_go hClosing rfl,
          Nat.lt_succ_self 8⟩⟩
  | asking hUnpaused hListens hDown =>
      exact .inl (Opening.step_asking hClosing hTimeout hEarly
        hUnpaused hListens hDown)
  | answering hProfile hSends hUp =>
      exact Opening.step_answering hSlicer hState hClosing
        hEarly hProfile hSends hUp

end Host

------------------------------------------------------------
-- No Deadlock
------------------------------------------------------------

/- The two sides of an opening never both wait. -/
theorem Opening.moves
    (hSlicer : Slicer.ofMtu .ble m.toNat = .ok s)
    {k : Connection}
    (hState : k.state = .connecting)
    (hClosing : k.closing = false)
    {now : Nat}
    (hEarly : d.Early now)
    (hOpening : Opening m x d w n)
    (now' : Nat) :
    (d.step (PipeHub.beside _) now k w).1.isWait = false ∨
      (Emulator.step h now' w.1 w.2).1.isWait = false := by
  cases hOpening with
  | idle e =>
      left
      simp [Driver.step, Driver.begin, hState, Turn.isWait]
  | reaching due e =>
      left
      rw [Driver.step_opening_go hClosing rfl]
      rfl
  | connecting due e =>
      left
      rw [Driver.step_opening_go hClosing rfl]
      rfl
  | @asking due e u y waiting down taken hUnpaused hListens
      hDown =>
      by_cases hTurns : u.turns = 0
      · right
        have hUnsent := (Setup.of_turns_eq_zero hTurns).1
        rw [hUnsent, List.append_nil] at hDown
        subst hDown
        cases hListens with
        | accepting =>
            rw [Emulator.step_accept hSlicer]
            rfl
        | receiving asked =>
            rw [Emulator.step_request]
            rfl
      · left
        rcases Setup.step_writing y (.ofSettings k.settings)
            k.settings.mtuHandshakeTimeout.toNat now waiting []
            taken hUnpaused (Setup.room_of_append hDown) hTurns
          with
          ⟨u', down', hStep, -⟩
        rw [Driver.step_setup_go hClosing hStep]
        rfl
  | @answering due deadline asked e j p b up frames taken
      hProfile hSends hUp =>
      cases up with
      | nil =>
          right
          have hRoom :
              ([] : List (List UInt8)).length < Pipe.depth := by
            decide
          have hSome : frames ≠ [] := by
            intro hNone
            rw [hNone] at hUp
            cases hUp
          exact hSends.not_isWait_of_room hSome hRoom now'
      | cons frame rest =>
          left
          rw [List.cons_append, List.cons_eq_cons] at hUp
          rcases hUp with ⟨rfl, -⟩
          rw [Driver.step_setup_linked hState hClosing
            (Setup.step_answered hSlicer)]
          rfl

end DeviceSession
