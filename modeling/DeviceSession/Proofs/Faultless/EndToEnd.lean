import DeviceSession.Proofs.Faultless.Session

/-
  From the callers to the device and back.

  Callers hand in requests, time passes, and the driver and
  the device take their steps, in any order.  Nothing is
  closed or given up, and no bound runs out.  Then every
  request is answered with the response of the device, and
  the device sees the transcript of the requests.

  Key definitions include:
    * `Scenario.Faultless`
    * `Scenario.issued`
    * `Scenario.AtRest`
    * `Scenario.Serves`
    * `Scenario.Complete`

  Main declarations:
    * `Scenario.run_complete`
-/

------------------------------------------------------------
-- Sessions with a Device
------------------------------------------------------------

namespace DeviceSession

variable {H : Type}

/- A step of a device, as a change of the world. -/
def Emulator.act
    (h : Handler H)
    (now : Nat)
    (w : Emulator H × PipeHub) : Emulator H × PipeHub :=
  let (t, hub) := Emulator.step h now w.1 w.2
  (t.next?.getD w.1, hub)

namespace Scenario

/- A fresh connection to a fresh device. -/
def withDevice
    (settings : Settings)
    (m : UInt8)
    (x : H)
    (now : Nat) : Scenario (Emulator H × PipeHub) Nat :=
  start settings now (.fresh m x, {})

variable (h : Handler H)

/- The driver and the device are polled in turn. -/
def polls (times : List Nat) : List (Move Nat) :=
  times.flatMap fun now => [.drive, .outside now]

/- Neither the driver nor the device can go on. -/
def AtRest (z : Scenario (Emulator H × PipeHub) Nat) : Prop :=
  (∀ d ∈ z.driver,
    (d.step (PipeHub.beside _) z.now z.connection
      z.world).1.isWait = true) ∧
  ∃ now,
    (Emulator.step h now z.world.1 z.world.2).1.isWait = true

/-
  The move is no fault: nobody gives up or closes, no bound
  is zero, and time passes at rest or short of every bound.
-/
def Spares (z : Scenario (Emulator H × PipeHub) Nat) :
    Move Nat → Prop
  | .submit _ options => options.timeout ≠ some 0
  | .abandon _ => False
  | .close => False
  | .outside _ => True
  | .pass ms =>
      z.AtRest h ∨ ∀ d ∈ z.driver, d.Early (z.now + ms)
  | .drive => True

/- No move of the run is a fault when it is made. -/
def Faultless (z : Scenario (Emulator H × PipeHub) Nat) :
    List (Move Nat) → Prop
  | [] => True
  | mv :: moves =>
      z.Spares h mv ∧
        Faultless
          (z.step (PipeHub.beside _) (Emulator.act h) mv) moves

/- The request that a move hands in, unless it is refused. -/
def issues (z : Scenario (Emulator H × PipeHub) Nat) :
    Move Nat → List Request
  | .submit a options =>
      match (z.connection.submit a options).1 with
      | .ok id => [⟨id, a, options⟩]
      | .error _ => []
  | _ => []

/- The requests that the moves hand in, oldest first. -/
def issued (z : Scenario (Emulator H × PipeHub) Nat) :
    List (Move Nat) → List Request
  | [] => []
  | mv :: moves =>
      z.issues mv ++
        issued (z.step (PipeHub.beside _) (Emulator.act h) mv)
          moves

/-
  The state of affairs for the requests `rs`: the first ones
  have their answers, each once, and the device has seen how
  the transcript begins.
-/
structure Serves
    (f : Manner H)
    (x : H)
    (rs : List Request)
    (answered : Nat)
    (z : Scenario (Emulator H × PipeHub) Nat) : Prop where
  answered_le : answered ≤ rs.length
  answersTo_eq : ∀ i,
    z.connection.answersTo i =
      (((Dialogue.replies f rs x).take answered)[i]?.map
        Except.ok).toList
  deeds_prefix :
    Emulator.deeds z.world.1.journal <+:
      JournalLine.ofLog (Dialogue.transcript f rs x)
  state_eq :
    z.connection.state = .connecting ∨
      ∃ owes, z.connection.state = Connection.stateOwing owes
  events_prefix :
    z.connection.events.toList.map Prod.snd <+:
      [.connected 1]
  /- There is room for some requests without an answer. -/
  submit_ok : ∀ a options,
    rs.length < answered + Connection.queueDepth →
      (z.connection.submit a options).1 = .ok rs.length

/-
  All requests `rs` have their answers, each once, and the
  device has seen the transcript, on the first link.
-/
structure Complete
    (f : Manner H)
    (x : H)
    (rs : List Request)
    (z : Scenario (Emulator H × PipeHub) Nat) : Prop where
  answersTo_eq : ∀ i,
    z.connection.answersTo i =
      ((Dialogue.replies f rs x)[i]?.map Except.ok).toList
  deeds_eq :
    Emulator.deeds z.world.1.journal =
      JournalLine.ofLog (Dialogue.transcript f rs x)
  state_eq : z.connection.state = .connected 1
  events_eq :
    z.connection.events.toList.map Prod.snd = [.connected 1]

------------------------------------------------------------
-- Invariants
------------------------------------------------------------

/- Whether a move gets either side further. -/
def stirs
    (z : Scenario (Emulator H × PipeHub) Nat) :
    Move Nat → Nat
  | .drive =>
      match z.driver with
      | some d =>
          if (d.step (PipeHub.beside _) z.now z.connection
            z.world).1.isWait then 0 else 1
      | none => 0
  | .outside now =>
      if (Emulator.step h now z.world.1 z.world.2).1.isWait
        then 0 else 1
  | _ => 0

/- How many of the moves get either side further. -/
def stirred
    (z : Scenario (Emulator H × PipeHub) Nat) :
    List (Move Nat) → Nat
  | [] => 0
  | mv :: moves =>
      z.stirs h mv +
        stirred (z.step (PipeHub.beside _) (Emulator.act h) mv)
          moves

/-
  A faultless session: the requests `rs` have been issued,
  and `p` moves have got either side further.
-/
inductive Sound
    (f : Manner H)
    (m : UInt8)
    (s : Slicer)
    (x : H)
    (settings : Settings)
    (rs : List Request)
    (p : Nat)
    (z : Scenario (Emulator H × PipeHub) Nat) : Prop where
  | mk
      {d : Driver Nat}
      {taken : List Request}
      {answers : List Response}
      {begun : List Exchanged}
      {n : Nat}
      (driver_eq : z.driver = some d)
      (early : d.Early z.now)
      (keeps : z.connection.Keeps settings rs taken answers)
      (progress :
        Progress f m s x d z.connection.state z.world taken
          answers begun n)
      (count : p + n ≤ 11 + s.efforts begun) :
      Sound f m s x settings rs p z

variable {h} {f : Manner H} {m : UInt8} {s : Slicer} {x : H}
variable {settings : Settings} {rs : List Request} {p : Nat}
variable {z : Scenario (Emulator H × PipeHub) Nat}

/- Before the first move all is as it should be. -/
theorem sound_start (now : Nat) :
    Sound f m s x settings [] 0
      (withDevice settings m x now) :=
  .mk rfl (fun _ hMem => absurd hMem List.not_mem_nil)
    (Connection.keeps_start settings) (.opening (.idle _))
    (Nat.le_refl _)

/- A request that is accepted will be served. -/
theorem Sound.submit
    (hSound : Sound f m s x settings rs p z)
    (a : Apdu)
    {o : RequestOptions}
    (hTimeout : o.timeout ≠ some 0) :
    Sound f m s x settings
      (rs ++ z.issues (.submit a o)) p
      { z with connection := (z.connection.submit a o).2 } := by
  rcases hSound with
    ⟨hDriver, hEarly, hKeeps, hProgress, hCount⟩
  have hState := hProgress.state_ne_terminated
  by_cases hRoom :
      z.connection.queue.length < Connection.queueDepth
  · rename_i d taken answers begun n
    have hAnswers : answers.length ≤ rs.length := by
      have hLess := hProgress.answers_le
      rw [hKeeps.queue_eq, List.length_append]
      omega
    rcases hKeeps.submit hAnswers hState hRoom a hTimeout with
      ⟨hOk, hKeeps'⟩
    have hIssues :
        z.issues (.submit a o) =
          [⟨rs.length, a, o⟩] := by
      simp only [issues, hOk]
    rw [hIssues]
    refine .mk hDriver hEarly hKeeps' ?_ hCount
    rw [Connection.state_submit]
    exact hProgress
  · have hFull :=
      Connection.submit_of_full hState (Nat.not_lt.mp hRoom) a o
    have hIssues :
        z.issues (.submit a o) = [] := by
      simp only [issues, hFull]
    rw [hIssues, hFull, List.append_nil]
    exact .mk hDriver hEarly hKeeps hProgress hCount

/- The device gets further, or is at rest. -/
theorem Sound.outside
    (hPrompt : h.Prompt f)
    (hSlicer : Slicer.ofMtu .ble m.toNat = .ok s)
    (hSound : Sound f m s x settings rs p z)
    (now : Nat) :
    Sound f m s x settings rs (p + z.stirs h (.outside now))
      { z with world := Emulator.act h now z.world } := by
  rcases hSound with
    ⟨hDriver, hEarly, hKeeps, hProgress, hCount⟩
  rcases hProgress.device_step hPrompt hSlicer now with
    ⟨w', n', hProgress', hStep⟩
  have hWorld : Emulator.act h now z.world = w' := by
    rcases hStep with ⟨hGo, -⟩ | ⟨hWait, -⟩
    · simp [Emulator.act, hGo, Turn.next?]
    · simp [Emulator.act, hWait, Turn.next?]
  refine .mk hDriver hEarly hKeeps (hWorld ▸ hProgress') ?_
  rcases hStep with ⟨hGo, hLess⟩ | ⟨hWait, hSame⟩
  · simp only [stirs, hGo, Turn.isWait, Bool.false_eq_true,
      if_false]
    omega
  · simp only [stirs, hWait, Turn.isWait, if_true]
    omega

/- So does the driver. -/
theorem Sound.drive
    (hSlicer : Slicer.ofMtu .ble m.toNat = .ok s)
    (hApdu : 0 < settings.apduTimeout.toNat)
    (hBudget : 0 < settings.reconnectBudget.toNat)
    (hHandshake : 0 < settings.mtuHandshakeTimeout.toNat)
    (hSound : Sound f m s x settings rs p z) :
    Sound f m s x settings rs (p + z.stirs h .drive)
      (z.drive (PipeHub.beside _)) := by
  rcases hSound with
    ⟨hDriver, hEarly, hKeeps, hProgress, hCount⟩
  rcases hProgress.driver_step hSlicer hApdu hBudget hHandshake
      hKeeps hEarly with
    ⟨d', k', w', taken', answers', begun', n', hKeeps',
      hEarly', hProgress', hStep⟩
  have hDrive :
      z.drive (PipeHub.beside _) =
        { z with
          driver := some d'
          connection := k'
          world := w' } := by
    rcases hStep with ⟨hGo, -⟩ | ⟨hWait, -⟩
    · simp [Scenario.drive, hDriver, hGo, Turn.next?]
    · simp [Scenario.drive, hDriver, hWait, Turn.next?]
  rw [hDrive]
  refine .mk rfl hEarly' hKeeps' hProgress' ?_
  rcases hStep with ⟨hGo, hLess⟩ | ⟨hWait, -, hSame⟩
  · simp only [stirs, hDriver, hGo, Turn.isWait,
      Bool.false_eq_true, if_false]
    omega
  · simp only [stirs, hDriver, hWait, Turn.isWait, if_true]
    omega

------------------------------------------------------------
-- Rest
------------------------------------------------------------

/- A session in which all has been said. -/
inductive Spoken
    (f : Manner H)
    (m : UInt8)
    (x : H)
    (settings : Settings)
    (rs : List Request)
    (z : Scenario (Emulator H × PipeHub) Nat) : Prop where
  | mk
      {d : Driver Nat}
      {answers : List Response}
      (driver_eq : z.driver = some d)
      (queue_eq : z.connection.queue = [])
      (keeps : z.connection.Keeps settings rs rs answers)
      (quiet :
        Quiet f m x rs d z.connection.state z.world answers) :
      Spoken f m x settings rs z

/- Where both rest, everything has been said. -/
theorem Sound.spoken
    (hPrompt : h.Prompt f)
    (hSlicer : Slicer.ofMtu .ble m.toNat = .ok s)
    (hSound : Sound f m s x settings rs p z)
    (hRest : z.AtRest h) :
    Spoken f m x settings rs z := by
  rcases hSound with
    ⟨hDriver, hEarly, hKeeps, hProgress, -⟩
  rcases hRest with ⟨hHost, now, hDevice⟩
  rcases hProgress.quiet hPrompt hSlicer hKeeps hEarly
      (hHost _ hDriver) hDevice with
    ⟨hQueue, hQuiet⟩
  have hTaken := hKeeps.queue_eq
  rw [hQueue, List.append_nil] at hTaken
  subst hTaken
  exact .mk hDriver hQueue hKeeps hQuiet

/- Then every request has its answer. -/
theorem Spoken.complete
    (hSpoken : Spoken f m x settings rs z) :
    z.Complete f x rs := by
  rcases hSpoken with ⟨hDriver, hQueue, hKeeps, hQuiet⟩
  have hAnswers := hQuiet.answers_eq
  subst hAnswers
  refine ⟨?_, hQuiet.deeds_eq, hQuiet.state_eq, ?_⟩
  · exact hKeeps.answersTo_eq
      (Nat.le_of_eq (Dialogue.length_replies f rs x))
  · rw [hKeeps.events_eq, hQuiet.state_eq]
    rfl

/- Nothing is waited for that could come too late. -/
theorem Spoken.early
    (hSpoken : Spoken f m x settings rs z)
    (now : Nat) :
    ∀ d ∈ z.driver, d.Early now := by
  rcases hSpoken with ⟨hDriver, -, -, hQuiet⟩
  intro d hMem
  cases hDriver.symm.trans hMem
  exact hQuiet.early now

/- Polling changes nothing of what has been said. -/
theorem Spoken.poll
    (hSpoken : Spoken f m x settings rs z)
    (now : Nat) :
    Spoken f m x settings rs
      (z.run (PipeHub.beside _) (Emulator.act h)
        [.drive, .outside now]) := by
  rcases hSpoken with ⟨hDriver, hQueue, hKeeps, hQuiet⟩
  rcases hQuiet.driver_step hKeeps.closing_eq hQueue z.now with
    ⟨d', hHost, hQuiet'⟩
  rcases hQuiet'.device_step (h := h) now with
    ⟨w', hDevice, hQuiet''⟩
  have hRun :
      z.run (PipeHub.beside _) (Emulator.act h)
          [.drive, .outside now] =
        { z with driver := some d', world := w' } := by
    simp [run, Scenario.step, Scenario.drive, hDriver, hHost,
      Turn.next?, Emulator.act, hDevice]
  rw [hRun]
  exact .mk rfl hQueue hKeeps hQuiet''

/- Polls change nothing about it. -/
theorem Spoken.poll_all
    (hSpoken : Spoken f m x settings rs z)
    (times : List Nat) :
    Spoken f m x settings rs
      (z.run (PipeHub.beside _) (Emulator.act h)
        (polls times)) := by
  induction times generalizing z with
  | nil => exact hSpoken
  | cons now times ih =>
      have hPoll := hSpoken.poll (h := h) now
      exact ih hPoll

------------------------------------------------------------
-- Runs
------------------------------------------------------------

section Runs

variable (hPrompt : h.Prompt f)
variable (hSlicer : Slicer.ofMtu .ble m.toNat = .ok s)
variable (hApdu : 0 < settings.apduTimeout.toNat)
variable (hBudget : 0 < settings.reconnectBudget.toNat)
variable (hHandshake : 0 < settings.mtuHandshakeTimeout.toNat)

include hPrompt hSlicer hApdu hBudget hHandshake

/- Each move keeps a session faultless. -/
theorem Sound.step
    (hSound : Sound f m s x settings rs p z)
    {mv : Move Nat}
    (hSpares : z.Spares h mv) :
    Sound f m s x settings (rs ++ z.issues mv)
      (p + z.stirs h mv)
      (z.step (PipeHub.beside _) (Emulator.act h) mv) := by
  cases mv with
  | submit a o => exact hSound.submit a hSpares
  | abandon id => exact hSpares.elim
  | close => exact hSpares.elim
  | pass ms =>
      have hNone : z.issues (.pass ms) = [] := rfl
      rw [hNone, List.append_nil]
      have hPass : ∀ d ∈ z.driver, d.Early (z.now + ms) := by
        rcases hSpares with hRest | hShort
        · have hSpoken := hSound.spoken hPrompt hSlicer hRest
          exact hSpoken.early (z.now + ms)
        · exact hShort
      rcases hSound with
        ⟨hDriver, hEarly, hKeeps, hProgress, hCount⟩
      exact .mk hDriver (hPass _ hDriver) hKeeps hProgress
        hCount
  | outside now =>
      have hNone : z.issues (.outside now) = [] := rfl
      rw [hNone, List.append_nil]
      exact hSound.outside hPrompt hSlicer now
  | drive =>
      have hNone : z.issues .drive = [] := rfl
      rw [hNone, List.append_nil]
      exact hSound.drive hSlicer hApdu hBudget hHandshake

/- So does a run of moves. -/
theorem Sound.run
    {moves : List (Move Nat)}
    (hSound : Sound f m s x settings rs p z)
    (hFaultless :
      z.Faultless h moves) :
    Sound f m s x settings
      (rs ++ z.issued h moves)
      (p + z.stirred h moves)
      (z.run (PipeHub.beside _) (Emulator.act h) moves) := by
  induction moves generalizing z rs p with
  | nil =>
      rw [issued, List.append_nil]
      exact hSound
  | cons mv moves ih =>
      rcases hFaultless with ⟨hSpares, hRest⟩
      have hStep := hSound.step hPrompt hSlicer hApdu hBudget
        hHandshake hSpares
      have hRun := ih hStep hRest
      rw [List.append_assoc, Nat.add_assoc] at hRun
      exact hRun

end Runs

------------------------------------------------------------
-- Answers and Journals
------------------------------------------------------------

/- Meanwhile, what has been answered is right. -/
theorem Sound.serves
    (hSound : Sound f m s x settings rs p z) :
    ∃ answered, z.Serves f x rs answered := by
  rcases hSound with @⟨d, taken, answers, begun, n, -, -,
    hKeeps, hProgress, -⟩
  have hLess := hProgress.answers_le
  have hLength :
      rs.length =
        taken.length + z.connection.queue.length := by
    rw [hKeeps.queue_eq, List.length_append]
  have hAgrees := hProgress.agrees z.connection.queue
  rw [← hKeeps.queue_eq] at hAgrees
  rcases hAgrees with ⟨hAnswers, hBegun, hDeeds⟩
  refine ⟨answers.length, ?_, ?_, ?_, hProgress.state_eq, ?_,
    ?_⟩
  · omega
  · intro i
    rw [← List.prefix_iff_eq_take.mp hAnswers]
    exact hKeeps.answersTo_eq (by omega) i
  · exact hDeeds.trans (JournalLine.ofLog_prefix hBegun)
  · rw [hKeeps.events_eq]
    split
    · exact List.nil_prefix
    · exact List.prefix_rfl
  · intro a options hRoom
    rw [Connection.submit_of_room
      hProgress.state_ne_terminated (by omega),
      hKeeps.size_slots]

/- No more moves than what is said takes get anyone further. -/
theorem Sound.stirred_le
    (hSound : Sound f m s x settings rs p z) :
    p ≤ 11 + s.efforts (Dialogue.transcript f rs x) := by
  rcases hSound with @⟨d, taken, answers, begun, n, -, -,
    hKeeps, hProgress, hCount⟩
  have hAgrees := hProgress.agrees z.connection.queue
  rw [← hKeeps.queue_eq] at hAgrees
  rcases hAgrees with ⟨-, ⟨rest, hBegun⟩, -⟩
  rw [← hBegun, Slicer.efforts_append]
  omega

------------------------------------------------------------
-- Polling in Turn
------------------------------------------------------------

/- Less progress is less. -/
theorem Sound.mono
    {q : Nat}
    (hSound : Sound f m s x settings rs p z)
    (hLess : q ≤ p) :
    Sound f m s x settings rs q z := by
  rcases hSound with
    ⟨hDriver, hEarly, hKeeps, hProgress, hCount⟩
  exact .mk hDriver hEarly hKeeps hProgress (by omega)

section Polls

variable (hPrompt : h.Prompt f)
variable (hSlicer : Slicer.ofMtu .ble m.toNat = .ok s)
variable (hApdu : 0 < settings.apduTimeout.toNat)
variable (hBudget : 0 < settings.reconnectBudget.toNat)
variable (hHandshake : 0 < settings.mtuHandshakeTimeout.toNat)

include hSlicer hApdu hBudget hHandshake

/- A driver that does not get further leaves the world alone. -/
theorem Sound.drive_of_stirs_eq_zero
    (hSound : Sound f m s x settings rs p z)
    (hStirs : z.stirs h .drive = 0) :
    (z.drive (PipeHub.beside _)).world = z.world ∧
      ∀ d ∈ z.driver,
        (d.step (PipeHub.beside _) z.now z.connection
          z.world).1.isWait = true := by
  rcases hSound with
    ⟨hDriver, hEarly, hKeeps, hProgress, -⟩
  rcases hProgress.driver_step hSlicer hApdu hBudget hHandshake
      hKeeps hEarly with
    ⟨d', k', w', _, _, _, _, -, -, -,
      ⟨hGo, -⟩ | ⟨hWait, hSame, -⟩⟩
  · simp [stirs, hDriver, hGo, Turn.isWait] at hStirs
  · constructor
    · simp [Scenario.drive, hDriver, hWait, hSame]
    · intro d hMem
      cases hDriver.symm.trans hMem
      rw [hWait]
      rfl

include hPrompt

/- Both get their turn: one gets further, or all is said. -/
theorem Sound.poll
    (hSound : Sound f m s x settings rs p z)
    (now : Nat) :
    Spoken f m x settings rs
        (z.run (PipeHub.beside _) (Emulator.act h)
          [.drive, .outside now]) ∨
      Sound f m s x settings rs (p + 1)
        (z.run (PipeHub.beside _) (Emulator.act h)
          [.drive, .outside now]) := by
  have hDrive :=
    hSound.drive (h := h) hSlicer hApdu hBudget hHandshake
  have hOutside := hDrive.outside hPrompt hSlicer now
  by_cases hFirst : z.stirs h .drive = 0
  · rcases hSound.drive_of_stirs_eq_zero hSlicer hApdu hBudget
        hHandshake hFirst with
      ⟨hWorld, hHost⟩
    by_cases hSecond :
        (z.drive (PipeHub.beside _)).stirs h (.outside now) = 0
    · left
      have hDevice :
          (Emulator.step h now z.world.1 z.world.2).1.isWait =
            true := by
        simp only [stirs, hWorld] at hSecond
        split at hSecond
        · assumption
        · cases hSecond
      have hSpoken :=
        hSound.spoken hPrompt hSlicer ⟨hHost, now, hDevice⟩
      exact hSpoken.poll now
    · right
      exact hOutside.mono (by omega)
  · right
    exact hOutside.mono (by omega)

/- Polls lead to the end, or each is progress. -/
theorem Sound.poll_all
    (hSound : Sound f m s x settings rs p z)
    (times : List Nat) :
    Spoken f m x settings rs
        (z.run (PipeHub.beside _) (Emulator.act h)
          (polls times)) ∨
      Sound f m s x settings rs (p + times.length)
        (z.run (PipeHub.beside _) (Emulator.act h)
          (polls times)) := by
  induction times generalizing z p with
  | nil => exact .inr hSound
  | cons now times ih =>
      rcases hSound.poll hPrompt hSlicer hApdu hBudget
          hHandshake now with
        hSpoken | hNext
      · exact .inl (hSpoken.poll_all times)
      · rcases ih hNext with hSpoken | hRest
        · exact .inl hSpoken
        · right
          rw [List.length_cons, Nat.add_comm times.length,
            ← Nat.add_assoc]
          exact hRest

end Polls

------------------------------------------------------------
-- Correctness
------------------------------------------------------------

/-
  Without a fault, each request that is issued is answered
  once, with the response of the device, and nothing else
  happens to it.  There is room for eight requests without
  an answer.  What the device sees begins the transcript, and
  at rest it is the transcript: no frame waits when it begins
  to respond, and the first link stays.  The two sides come
  to rest: together they get further only so many times, in
  whatever order they are polled, and so does polling them in
  turn.
-/
theorem run_complete
    {h : Handler H}
    {f : Manner H}
    (hPrompt : h.Prompt f)
    {m : UInt8}
    (hLeast : Profile.ble.leastMtu ≤ m.toNat)
    {settings : Settings}
    (hApdu : 0 < settings.apduTimeout.toNat)
    (hBudget : 0 < settings.reconnectBudget.toNat)
    (hHandshake : 0 < settings.mtuHandshakeTimeout.toNat)
    (x : H)
    (now : Nat)
    {moves : List (Move Nat)}
    (hFaultless :
      (withDevice settings m x now).Faultless h moves) :
    let c := PipeHub.beside (Emulator H)
    let fresh := withDevice settings m x now
    let rs := fresh.issued h moves
    let z := fresh.run c (Emulator.act h) moves
    let s : Slicer := ⟨.ble, m.toNat, hLeast⟩
    let effort :=
      11 + s.efforts (Dialogue.transcript f rs x)
    (∃ answered, z.Serves f x rs answered) ∧
      (z.AtRest h → z.Complete f x rs) ∧
      fresh.stirred h moves ≤ effort ∧
      ∀ times : List Nat, effort < times.length →
        (z.run c (Emulator.act h) (polls times)).Complete f x
          rs := by
  intro c fresh rs z s effort
  have hSlicer : Slicer.ofMtu .ble m.toNat = .ok s := by
    rw [Slicer.ofMtu, dif_pos hLeast]
  have hSound : Sound f m s x settings rs
      (fresh.stirred h moves) z := by
    have hRun := (sound_start (f := f) (s := s) now).run
      hPrompt hSlicer hApdu hBudget hHandshake hFaultless
    rw [List.nil_append, Nat.zero_add] at hRun
    exact hRun
  refine ⟨hSound.serves, fun hRest =>
    (hSound.spoken hPrompt hSlicer hRest).complete,
    hSound.stirred_le, fun times hLong => ?_⟩
  rcases hSound.poll_all hPrompt hSlicer hApdu hBudget
      hHandshake times with
    hSpoken | hLate
  · exact hSpoken.complete
  · have hLess := hLate.stirred_le
    omega

end Scenario

/-
  A device that answers with the number of the command, for a
  request that restarts the link and one that does not.
-/
namespace Tally

def manner : Manner Nat := fun _ n =>
  ({ status := .success, data := [UInt8.ofNat n] }, n + 1)

def handler : Handler Nat where
  handle := fun a _ n hub =>
    (.respond (manner a n).1, (manner a n).2, hub)

/- The device of the example is prompt. -/
theorem prompt : handler.Prompt manner where
  handle_eq _ _ _ := rfl
  length_le _ _ := by simp [manner]

/- Two requests, some time, and a first step. -/
def moves : List (Move Nat) :=
  [ .submit Command.closeApp.apdu { restartsLink := true },
    .submit Command.getApp.apdu {}, .drive, .pass 4000 ]

/- No move of the example is a fault. -/
theorem faultless :
    (Scenario.withDevice {} 64 0 0).Faultless handler
      moves := by
  refine ⟨nofun, nofun, trivial, .inr ?_, trivial⟩
  intro d hMem
  cases hMem
  change ∀ due ∈ [5000], 0 + 4000 < due
  decide

/- Both requests are answered after enough turns. -/
theorem moves_complete :
    let settings : Settings := {}
    let fresh := Scenario.withDevice settings 64 0 0
    let c := PipeHub.beside (Emulator Nat)
    let rs := fresh.issued handler moves
    let z := fresh.run c (Emulator.act handler) moves
    let hLeast : Profile.ble.leastMtu ≤ (64 : UInt8).toNat :=
      by decide
    let s : Slicer := ⟨.ble, (64 : UInt8).toNat, hLeast⟩
    let effort :=
      11 + s.efforts (Dialogue.transcript manner rs 0)
    (handler.Prompt manner ∧
      0 < settings.apduTimeout.toNat ∧
      0 < settings.reconnectBudget.toNat ∧
      0 < settings.mtuHandshakeTimeout.toNat ∧
      fresh.Faultless handler moves) ∧
      (∃ answered, z.Serves manner 0 rs answered) ∧
      (z.AtRest handler → z.Complete manner 0 rs) ∧
      fresh.stirred handler moves ≤ effort ∧
      ∀ times : List Nat, effort < times.length →
        (z.run c (Emulator.act handler)
          (Scenario.polls times)).Complete manner 0 rs :=
  ⟨⟨prompt, by decide, by decide, by decide, faultless⟩,
    Scenario.run_complete prompt (by decide) (by decide)
      (by decide) (by decide) 0 0 faultless⟩

end Tally

/-
  A request with no time for its answer, on a link that
  nothing else is wrong with.
-/
namespace Hasty

/- The link is brought up, and then the driver is polled. -/
def moves : List (Move Nat) :=
  [.submit Command.getApp.apdu { timeout := some 0 }] ++
    List.replicate 5 .drive ++
    List.replicate 3 (.outside 0) ++
    List.replicate 8 .drive

/- It fails, though the device would have answered. -/
theorem moves_timeout :
    let fresh := Scenario.withDevice {} 64 0 0
    let rs := fresh.issued Tally.handler moves
    let z :=
      fresh.run (PipeHub.beside _) (Emulator.act Tally.handler)
        moves
    Tally.handler.Prompt Tally.manner ∧
      Profile.ble.leastMtu ≤ (64 : UInt8).toNat ∧
      Dialogue.replies Tally.manner rs 0 =
        [{ status := .success, data := [0] }] ∧
      z.connection.answersTo 0 = [.error .timeout] :=
  ⟨Tally.prompt, by decide, by decide, rfl⟩

end Hasty

end DeviceSession
