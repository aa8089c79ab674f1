import DeviceSession.Proofs.Device.Outposts

/-
  Devices that serve a link which has been shut.

  A device that the host has left takes the frames that are
  still on their way to it, fails to answer them, and goes
  back to accepting links.  Each of its steps brings it
  nearer, save those in which it waits for a time.

  It never gets away if it was waiting for room to send when
  the link was shut: there is none, and no one tells it that
  there will be none.

  Key definitions include:
    * `Outpost.Jammed`
    * `Outpost.Leaving`
    * `Outpost.Deserted`

  Main declarations:
    * `Outpost.Leaving.step`
    * `Outpost.Jammed.apply`
    * `Outpost.Deserted.leaves_iff`
    * `Outpost.released_unless_sending`
-/

------------------------------------------------------------
-- On the Way Out
------------------------------------------------------------

namespace DeviceSession

/- The host does nothing to a link. -/
def OutpostMove.Spares (id : Nat) : OutpostMove → Prop
  | .host a => a.Spares id
  | .step _ => True

/- The device goes on taking steps as time goes on. -/
def OutpostMove.Steady (moves : Nat → OutpostMove) : Prop :=
  ∀ k t, ∃ m, k ≤ m ∧ ∃ now, t ≤ now ∧ moves m = .step now

namespace Outpost

variable {H : Type}

/- The device waits for room to send, and there is none. -/
def Jammed (o : Outpost H) : Prop :=
  ∃ frame rest next,
    o.emulator.phase = .sending (frame :: rest) .again next ∧
      Pipe.depth ≤ o.line.toHost.length

/- The time that the device waits for, if for any. -/
def due (o : Outpost H) : Nat :=
  match o.emulator.phase with
  | .delaying due _ => due
  | _ => 0

/- The device serves a link that is shut, and can leave it. -/
structure Leaving (id : Nat) (o : Outpost H) : Prop where
  sound : o.Sound
  link : o.emulator.link = id
  serving : o.emulator.phase ≠ .accepting
  closed : o.line.closed = true
  free : ¬ o.Jammed

variable {h : Handler H} {o : Outpost H} {id now : Nat}

/- What is not pending is not jammed. -/
theorem not_jammed_of_fresh
    (hFresh : o.emulator.phase.pending = false) :
    ¬ o.Jammed := by
  rintro ⟨frame, rest, next, hPhase, -⟩
  rw [hPhase] at hFresh
  cases hFresh

/- The device does not wait for a frame, nor for room. -/
theorem Leaving.not_waiting
    (hLeaving : o.Leaving id)
    {asked : Asked}
    (hPhase : o.emulator.phase = .receiving asked)
    (hNone : (PipeCall.recv.poll asked o.line).1 = none) :
    False := by
  have hClosed := hLeaving.closed
  rcases PipeCall.not_ready_of_none hNone hClosed with
    ⟨rfl, hNotReady⟩
  exact hNotReady (hLeaving.sound.alert hPhase hClosed)

theorem Leaving.not_blocked
    (hLeaving : o.Leaving id)
    {frame : List UInt8}
    {rest : List (List UInt8)}
    {asked : Asked}
    {next : Emulator.After}
    (hPhase :
      o.emulator.phase = .sending (frame :: rest) asked next)
    (hNone :
      ((PipeCall.send frame).poll asked o.line).1 = none) :
    False := by
  rcases PipeCall.not_ready_of_none hNone hLeaving.closed with
    ⟨rfl, hNotReady⟩
  exact hLeaving.free
    ⟨frame, rest, next, hPhase, Nat.le_of_not_lt hNotReady⟩

/-
  A step takes the device off the link, or nearer to that, or
  comes before the time that it waits for.
-/
theorem Leaving.step
    (hLeaving : o.Leaving id)
    (hActs : h.Acts)
    (now : Nat) :
    (o.step h now).emulator.phase = .accepting ∨
      (o.step h now).Leaving id ∧
        (o.step h now).rank < o.rank ∨
      o.step h now = o ∧ now < o.due := by
  have hStepped := stepped_step hActs hLeaving.sound.serving now
  have hSound : (o.step h now).Sound :=
    hLeaving.sound.step hActs now
  generalize o.step h now = o' at hStepped hSound
  cases hStepped with
  | idle hPhase => exact absurd hPhase hLeaving.serving
  | accepts hPhase => exact absurd hPhase hLeaving.serving
  | listens hPhase hNone =>
      exact (hLeaving.not_waiting hPhase hNone).elim
  | blocks hPhase hNone =>
      exact (hLeaving.not_blocked hPhase hNone).elim
  | pauses hPhase hEarly =>
      refine .inr (.inr ⟨rfl, ?_⟩)
      rw [due, hPhase]
      exact hEarly
  | @moves x hub hServing hLink hFresh hWorn hNearer =>
      by_cases hLeft : x.phase = .accepting
      · exact .inl hLeft
      · refine .inr (.inl ⟨⟨hSound, ?_, hLeft, ?_, ?_⟩, ?_⟩)
        · exact hLink.trans hLeaving.link
        · rw [line]
          dsimp only
          rw [hLink]
          exact hWorn.closed _ hLeaving.closed
        · exact not_jammed_of_fresh hFresh
        · exact (hNearer hLeaving.closed).resolve_left hLeft

/- What the host does to other links is no matter. -/
theorem line_host
    (hSound : o.Sound)
    (hServing : o.emulator.phase ≠ .accepting)
    {a : HostAct}
    (hSpares : a.Spares o.emulator.link) :
    (o.apply h (.host a)).line = o.line :=
  PipeHub.link_host_of_spares hSound.numbered
    (hSound.serving hServing).1 (hSound.serving hServing).2
    hSpares

theorem Leaving.host
    (hLeaving : o.Leaving id)
    {a : HostAct}
    (hSpares : a.Spares id) :
    (o.apply h (.host a)).Leaving id ∧
      (o.apply h (.host a)).rank = o.rank := by
  have hLine : (o.apply h (.host a)).line = o.line :=
    line_host hLeaving.sound hLeaving.serving
      (hLeaving.link ▸ hSpares)
  refine ⟨⟨hLeaving.sound.host a, hLeaving.link,
    hLeaving.serving, ?_, ?_⟩, ?_⟩
  · rw [hLine]
    exact hLeaving.closed
  · rintro ⟨frame, rest, next, hPhase, hFull⟩
    rw [hLine] at hFull
    exact hLeaving.free ⟨frame, rest, next, hPhase, hFull⟩
  · rw [rank, hLine]
    rfl

/- A device that is not getting nearer waits for a time. -/
theorem Leaving.apply
    (hLeaving : o.Leaving id)
    (hActs : h.Acts)
    {m : OutpostMove}
    (hSpares : m.Spares id) :
    (o.apply h m).emulator.phase = .accepting ∨
      (o.apply h m).Leaving id ∧
        ((o.apply h m).rank < o.rank ∨
          (o.apply h m).rank = o.rank ∧
            (o.apply h m).due = o.due ∧
            ∀ now, m = .step now → now < o.due) := by
  cases m with
  | host a =>
      rcases hLeaving.host (h := h) hSpares with ⟨hStill, hRank⟩
      exact .inr ⟨hStill, .inr ⟨hRank, rfl, nofun⟩⟩
  | step now =>
      change (o.step h now).emulator.phase = _ ∨
        (o.step h now).Leaving id ∧
          ((o.step h now).rank < o.rank ∨
            (o.step h now).rank = o.rank ∧
              (o.step h now).due = o.due ∧ _)
      rcases hLeaving.step hActs now with
        hLeft | ⟨hStill, hNearer⟩ | ⟨hSame, hEarly⟩
      · exact .inl hLeft
      · exact .inr ⟨hStill, .inl hNearer⟩
      · rw [hSame]
        refine .inr ⟨hLeaving, .inr ⟨rfl, rfl, ?_⟩⟩
        rintro now' hMove
        cases hMove
        exact hEarly

------------------------------------------------------------
-- No Way Out
------------------------------------------------------------

/- A device that is jammed does not move. -/
theorem Jammed.step (hJammed : o.Jammed) :
    o.step h now = o := by
  rcases hJammed with ⟨frame, rest, next, hPhase, hFull⟩
  rcases o.hub.onLink_send o.emulator.link .again frame with
    ⟨r, hub, hOut, -, hReply, hNone⟩
  have hNoRoom :
      ¬ (o.hub.link o.emulator.link).toHost.length <
        Pipe.depth :=
    Nat.not_lt.mpr hFull
  simp only [Pipe.send, reduceCtorEq, false_and, if_false,
    hNoRoom] at hReply
  have hSame := hNone hReply.symm
  subst hSame
  subst hReply
  simp only [Outpost.step, Emulator.step, hPhase, hOut,
    Emulator.goto]
  rw [← hPhase]

theorem Jammed.apply
    (hJammed : o.Jammed)
    (hSound : o.Sound)
    {m : OutpostMove}
    (hSpares : m.Spares o.emulator.link) :
    (o.apply h m).Jammed ∧
      (o.apply h m).emulator.link = o.emulator.link := by
  cases m with
  | step now =>
      have hSame : o.apply h (.step now) = o := hJammed.step
      rw [hSame]
      exact ⟨hJammed, rfl⟩
  | host a =>
      rcases hJammed with ⟨frame, rest, next, hPhase, hFull⟩
      have hLine : (o.apply h (.host a)).line = o.line :=
        line_host hSound (by rw [hPhase]; nofun) hSpares
      refine ⟨⟨frame, rest, next, hPhase, ?_⟩, rfl⟩
      rw [hLine]
      exact hFull

------------------------------------------------------------
-- Deserted Devices
------------------------------------------------------------

/-
  From some move on, a device serves a link that is shut, the
  host does nothing more to that link, and the device takes
  steps again and again as time goes on.
-/
structure Deserted
    (h : Handler H)
    (o : Outpost H)
    (moves : Nat → OutpostMove)
    (n : Nat) : Prop where
  serving : (o.after h moves n).emulator.phase ≠ .accepting
  closed : (o.after h moves n).line.closed = true
  apart : ∀ m, n ≤ m →
    (moves m).Spares (o.after h moves n).emulator.link
  steady : OutpostMove.Steady moves

section Deserted

variable {moves : Nat → OutpostMove} {n : Nat}

/-
  As long as the device has not come nearer, all is as it was
  for it.
-/
theorem nearer_or_same
    (hActs : h.Acts)
    (hApart : ∀ m, n ≤ m → (moves m).Spares id)
    (hLeaving : (o.after h moves n).Leaving id)
    (d : Nat) :
    (∃ m, n ≤ m ∧
      ((o.after h moves m).emulator.phase = .accepting ∨
        (o.after h moves m).Leaving id ∧
          (o.after h moves m).rank <
            (o.after h moves n).rank)) ∨
      (o.after h moves (n + d)).Leaving id ∧
        (o.after h moves (n + d)).rank =
          (o.after h moves n).rank ∧
        (o.after h moves (n + d)).due =
          (o.after h moves n).due := by
  induction d with
  | zero => exact .inr ⟨hLeaving, rfl, rfl⟩
  | succ d ih =>
      rcases ih with hNearer | ⟨hStill, hRank, hDue⟩
      · exact .inl hNearer
      · have hSpares := hApart (n + d) (Nat.le_add_right n d)
        have hLater : n ≤ n + d + 1 := by omega
        rcases hStill.apply hActs hSpares with
          hLeft | ⟨hNext, hLess | ⟨hSame, hDue', -⟩⟩
        · exact .inl ⟨n + d + 1, hLater, .inl hLeft⟩
        · exact .inl ⟨n + d + 1, hLater,
            .inr ⟨hNext, hRank ▸ hLess⟩⟩
        · exact .inr ⟨hNext, hSame.trans hRank,
            hDue'.trans hDue⟩

/- Some step is late enough to bring it nearer. -/
theorem exists_nearer
    (hActs : h.Acts)
    (hApart : ∀ m, n ≤ m → (moves m).Spares id)
    (hSteady : OutpostMove.Steady moves)
    (hLeaving : (o.after h moves n).Leaving id) :
    ∃ m, n ≤ m ∧
      ((o.after h moves m).emulator.phase = .accepting ∨
        (o.after h moves m).Leaving id ∧
          (o.after h moves m).rank <
            (o.after h moves n).rank) := by
  rcases hSteady n (o.after h moves n).due with
    ⟨m, hLater, now, hDue, hMove⟩
  rcases Nat.exists_eq_add_of_le hLater with ⟨d, rfl⟩
  rcases nearer_or_same hActs hApart hLeaving d with
    hNearer | ⟨hStill, hRank, hSame⟩
  · exact hNearer
  · have hNext : n ≤ n + d + 1 := Nat.le_succ_of_le hLater
    rcases hStill.apply hActs (hApart _ hLater) with
      hLeft | ⟨hStill', hLess | ⟨-, -, hEarly⟩⟩
    · exact ⟨n + d + 1, hNext, .inl hLeft⟩
    · exact ⟨n + d + 1, hNext, .inr ⟨hStill', hRank ▸ hLess⟩⟩
    · have hTooEarly := hEarly now hMove
      omega

theorem Leaving.exists_accepting
    (hActs : h.Acts)
    (hApart : ∀ m, n ≤ m → (moves m).Spares id)
    (hSteady : OutpostMove.Steady moves)
    (hLeaving : (o.after h moves n).Leaving id) :
    ∃ m, n ≤ m ∧
      (o.after h moves m).emulator.phase = .accepting := by
  generalize hRank : (o.after h moves n).rank = r
  induction r using Nat.strongRecOn generalizing n with
  | ind r ih =>
      rcases exists_nearer hActs hApart hSteady hLeaving with
        ⟨m, hLater, hLeft | ⟨hStill, hLess⟩⟩
      · exact ⟨m, hLater, hLeft⟩
      · rcases ih _ (hRank ▸ hLess)
            (fun k hk => hApart k (Nat.le_trans hLater hk))
            hStill rfl with ⟨k, hk, hLeft⟩
        exact ⟨k, Nat.le_trans hLater hk, hLeft⟩

/- A device that is jammed stays so. -/
theorem Jammed.after
    (hActs : h.Acts)
    (hSound : o.Sound)
    (hApart : ∀ m, n ≤ m →
      (moves m).Spares (o.after h moves n).emulator.link)
    (hJammed : (o.after h moves n).Jammed)
    {m : Nat}
    (hLater : n ≤ m) :
    (o.after h moves m).Jammed := by
  have hBoth :
      (o.after h moves m).Jammed ∧
        (o.after h moves m).emulator.link =
          (o.after h moves n).emulator.link := by
    induction hLater with
    | refl => exact ⟨hJammed, rfl⟩
    | @step m hLater ih =>
        have hSpares := hApart m hLater
        rw [← ih.2] at hSpares
        have hNext := ih.1.apply (h := h)
          (sound_after hActs hSound moves m) hSpares
        exact ⟨hNext.1, hNext.2.trans ih.2⟩
  exact hBoth.1

/- A deserted device leaves the link unless it is jammed. -/
theorem Deserted.leaves_iff
    (hDeserted : o.Deserted h moves n)
    (hActs : h.Acts)
    (hSound : o.Sound) :
    (∃ m, n ≤ m ∧
        (o.after h moves m).emulator.phase = .accepting) ↔
      ¬ (o.after h moves n).Jammed := by
  constructor
  · rintro ⟨m, hLater, hLeft⟩ hJammed
    rcases hJammed.after hActs hSound hDeserted.apart hLater with
      ⟨frame, rest, next, hPhase, -⟩
    rw [hPhase] at hLeft
    cases hLeft
  · intro hFree
    exact Leaving.exists_accepting hActs hDeserted.apart
      hDeserted.steady
      ⟨sound_after hActs hSound moves n, rfl,
        hDeserted.serving, hDeserted.closed, hFree⟩

end Deserted

/-
  When a link is shut, whatever waits at its ends is answered
  at the next poll, except what the device waits to send to a
  host that has left no room; that is never answered unless
  the host takes a frame.

  A device that serves a shut link goes back to accepting
  links, whatever it was doing, unless it waits like that; it
  never does so then.
-/
theorem released_unless_sending
    (uses : List PipeMove)
    (hActs : h.Acts)
    (p : Profile)
    (mtu : UInt8)
    (x : H)
    (moves : Nat → OutpostMove)
    (n : Nat) :
    let b := BusyPipe.run {} uses
    let o := start p mtu x
    (b.pipe.closed = true →
      (∀ c ∈ b.pending,
        ((c.poll .again b.pipe).1.isSome = true ↔
          c.heeds = true ∨
            b.pipe.toHost.length < Pipe.depth)) ∧
      (Pipe.depth ≤ b.pipe.toHost.length →
        ∀ later,
          (∀ r ∈ b.replies later, r.isData = false) →
            ∀ frame,
              (PipeCall.send frame).poll .again
                  (b.run later).pipe =
                (none, (b.run later).pipe))) ∧
    (o.Deserted h moves n →
      ((∃ m, n ≤ m ∧
          (o.after h moves m).emulator.phase = .accepting) ↔
        ¬ (o.after h moves n).Jammed)) := by
  intro b o
  have hSound : b.Sound := BusyPipe.sound_run uses
  refine ⟨?_, ?_⟩
  · intro hClosed
    refine ⟨?_, ?_⟩
    · exact fun c hMem => hSound.answered_iff hClosed hMem
    · exact fun hFull later hUnread frame =>
        b.poll_send_run hFull later hUnread frame
  · exact fun hDeserted =>
      hDeserted.leaves_iff hActs (.start p mtu x)

end Outpost

------------------------------------------------------------
-- Two Hosts That Leave
------------------------------------------------------------

/- A handler that always does the same. -/
def Handler.always (r : Reply) : Handler Unit where
  handle := fun _ _ x hub => (r, x, hub)

theorem Handler.acts_always (r : Reply) : (always r).Acts :=
  fun _ _ _ _ => ⟨[], rfl⟩

/- The given moves, and then steps of the device for ever. -/
def OutpostMove.thenSteps
    (script : List OutpostMove)
    (n : Nat) : OutpostMove :=
  script[n]?.getD (.step n)

namespace OutpostMove

variable {script : List OutpostMove}

theorem steady_thenSteps : Steady (thenSteps script) := by
  intro k t
  refine ⟨max script.length (max k t), by omega,
    max script.length (max k t), by omega, ?_⟩
  rw [thenSteps, List.getElem?_eq_none (Nat.le_max_left _ _)]
  rfl

theorem spares_thenSteps
    {id n : Nat}
    (hSpares : ∀ m ∈ script.drop n, m.Spares id)
    {k : Nat}
    (hLater : n ≤ k) :
    (thenSteps script k).Spares id := by
  rw [thenSteps]
  cases hMove : script[k]? with
  | none => trivial
  | some m =>
      apply hSpares m
      apply List.mem_of_getElem? (i := k - n)
      rw [List.getElem?_drop, Nat.add_sub_cancel' hLater]
      exact hMove

end OutpostMove

/- A host that leaves a device while it waits for a frame. -/
namespace Parting

def waits : List PipeMove :=
  [.start .nextEvent, .start .recv, .shut]

def script : List OutpostMove :=
  [.host .connect, .step 0, .step 0,
    .host (.write .first 1 [5, 0, 0, 0, 5, 0xe0, 0x11, 0, 0, 0]),
    .host (.close 1)]

def device : Outpost Unit :=
  .start .ble 64 ()

theorem deserted :
    device.Deserted (.always .ignore) (.thenSteps script) 5 where
  serving := by decide +kernel
  closed := by decide +kernel
  apart := fun _ hLater =>
    OutpostMove.spares_thenSteps (by simp [script]) hLater
  steady := OutpostMove.steady_thenSteps

theorem released :
    (BusyPipe.run {} waits).pipe.closed = true ∧
    (BusyPipe.run {} waits).pending = [.nextEvent, .recv] ∧
    (PipeCall.recv.poll .again
      (BusyPipe.run {} waits).pipe).1.isSome = true ∧
    (Handler.always .ignore).Acts ∧
    device.Deserted (.always .ignore) (.thenSteps script) 5 ∧
    ∃ m, 5 ≤ m ∧
      (device.after (.always .ignore) (.thenSteps script)
        m).emulator.phase = .accepting := by
  rcases Outpost.released_unless_sending waits
      (Handler.acts_always .ignore) .ble 64 ()
      (.thenSteps script) 5 with
    ⟨hPipes, hDevices⟩
  have hClosed : (BusyPipe.run {} waits).pipe.closed = true := by
    decide
  have hPending :
      (BusyPipe.run {} waits).pending = [.nextEvent, .recv] := by
    decide
  have hAnswered :=
    (hPipes hClosed).1 .recv (by simp [hPending])
  have hLeaves := hDevices deserted
  have hPhase :
      (device.after (.always .ignore) (.thenSteps script)
        5).emulator.phase = .receiving .again := by
    decide +kernel
  refine ⟨hClosed, hPending, hAnswered.mpr (.inl rfl),
    Handler.acts_always _, deserted, hLeaves.mpr ?_⟩
  rintro ⟨frame, rest, next, hSending, -⟩
  exact nomatch hPhase.symm.trans hSending

end Parting

/- A host that leaves a device while it waits for room. -/
namespace Flooded

def frame : List UInt8 :=
  [0]

def waits : List PipeMove :=
  List.replicate 17 (.start (.send frame)) ++ [.shut]

/- The device sends a frame more than the link has room for. -/
def handler : Handler Unit :=
  .always (.frames (List.replicate 17 frame))

def script : List OutpostMove :=
  [.host .connect, .step 0,
    .host (.write .first 1 [5, 0, 0, 0, 5, 0xe0, 0x11, 0, 0, 0])]
  ++ List.replicate 18 (.step 0) ++
  [.host (.close 1), .host .connect]

def device : Outpost Unit :=
  .start .ble 64 ()

theorem deserted :
    device.Deserted handler (.thenSteps script) 22 where
  serving := by decide +kernel
  closed := by decide +kernel
  apart := fun _ hLater =>
    OutpostMove.spares_thenSteps
      (by simp [script, OutpostMove.Spares, HostAct.Spares,
        HostAct.link?])
      hLater
  steady := OutpostMove.steady_thenSteps

theorem jammed :
    (device.after handler (.thenSteps script) 22).Jammed :=
  ⟨frame, [], .sent, by decide +kernel, by decide +kernel⟩

/-
  The send is pending when the link is shut, and is for ever;
  the device is never back, though a link waits for it.
-/
theorem never_released :
    (BusyPipe.run {} waits).pipe.closed = true ∧
    .send frame ∈ (BusyPipe.run {} waits).pending ∧
    (∀ later,
      (∀ r ∈ (BusyPipe.run {} waits).replies later,
        r.isData = false) →
      (((PipeCall.send frame).poll .again
        ((BusyPipe.run {} waits).run later).pipe).1 = none)) ∧
    handler.Acts ∧
    device.Deserted handler (.thenSteps script) 22 ∧
    (device.after handler (.thenSteps script) 23).hub.waiting =
      [2] ∧
    ∀ m, 22 ≤ m →
      (device.after handler (.thenSteps script)
        m).emulator.phase ≠ .accepting := by
  refine ⟨by decide, by decide, ?_, Handler.acts_always _,
    deserted, by decide +kernel, ?_⟩
  · intro later hUnread
    have hFull :
        Pipe.depth ≤
          (BusyPipe.run {} waits).pipe.toHost.length := by
      decide
    rw [BusyPipe.poll_send_run _ hFull later hUnread]
  · intro m hLater hLeft
    rcases jammed.after (Handler.acts_always _)
        (.start .ble 64 ()) deserted.apart hLater with
      ⟨_, _, _, hPhase, -⟩
    exact nomatch hPhase.symm.trans hLeft

end Flooded

end DeviceSession
