import DeviceSession.Exchange.Basic
import DeviceSession.Exchange.Setup
import DeviceSession.Proofs.Faultless.Messages
import DeviceSession.Proofs.Faultless.Wires

/-
  The host's side of a faultless link.

  An exchange has frames left to write, or it reads.  What it
  writes stays in order, and it goes on as long as there is
  room.  The setup of the link is the same with one frame in
  either direction.

  Key definitions include:
    * `Exchange.unsent`
    * `Exchange.turns`
    * `Setup.unsent`

  Main declarations:
    * `Exchange.step_writing`
    * `Exchange.step_reading_cons`
    * `Setup.step_answered`
-/

------------------------------------------------------------
-- Exchanges
------------------------------------------------------------

namespace DeviceSession

theorem Slicer.frames_ne_nil
    (s : Slicer)
    (message : List UInt8) :
    s.frames message ≠ [] := by
  rw [frames, Slices.toList_of_unfinished rfl]
  exact List.cons_ne_nil _ _

namespace Exchange

/- The frames that have yet to be written. -/
def unsent (s : Slicer) (x : Exchange) :
    List (List UInt8) :=
  match x.phase with
  | .start => s.frames x.apdu.encode
  | .cutting rest => rest.toList
  | .writing rest f => f.frame :: rest.toList
  | .reading _ => []

/- How many steps there are until the host reads. -/
def turns (s : Slicer) (x : Exchange) : Nat :=
  match x.phase with
  | .start => 2 * (x.unsent s).length + 2
  | .cutting _ => 2 * (x.unsent s).length + 1
  | .writing _ _ => 2 * (x.unsent s).length
  | .reading _ => 0

/- No write is put off. -/
def Unpaused (x : Exchange) : Prop :=
  match x.phase with
  | .writing _ f => f.pausedUntil = none
  | _ => True

theorem timers_of_unpaused
    {x : Exchange}
    (hUnpaused : x.Unpaused) :
    x.timers = [x.deadline] := by
  rcases x with ⟨a, deadline, phase⟩
  cases phase with
  | writing rest f =>
      have hPaused : f.pausedUntil = none := hUnpaused
      simp [timers, FrameWrite.timers, hPaused]
  | _ => rfl

/- An exchange that has no steps left to take is reading. -/
theorem of_turns_eq_zero
    {s : Slicer}
    {x : Exchange}
    (hTurns : x.turns s = 0) :
    x.unsent s = [] ∧ ∃ asked, x.phase = .reading asked := by
  rcases x with ⟨a, deadline, phase⟩
  cases phase with
  | reading asked => exact ⟨rfl, asked, rfl⟩
  | _ => simp [turns, unsent] at hTurns

variable {D : Type} {y : D} {p : WritePolicy} {now : Nat}
variable {x : Exchange} {s : Slicer} {a : Assembler}
variable {down up : List (List UInt8)} {taken : Nat}

variable (y p a down up taken) in
/-
  An exchange that is not reading goes on, or there is no
  room for its next frame.
-/
theorem step_writing
    (hUnpaused : x.Unpaused)
    (hDue : now < x.deadline)
    (hTurns : x.turns s ≠ 0) :
    ∃ x' a' down',
      x'.apdu = x.apdu ∧ x'.deadline = x.deadline ∧
        x'.Unpaused ∧ a'.profile = a.profile ∧
        (x.unsent s = [] → a' = a) ∧
        down' ++ x'.unsent s = down ++ x.unsent s ∧
        (Exchange.step (PipeHub.beside D) p now x
              ⟨1, some (s, a)⟩
              (y, .single (.carrying down up taken) []) =
            (.go x', ⟨1, some (s, a')⟩, y,
              .single (.carrying down' up taken) []) ∧
            x'.turns s + 1 = x.turns s ∨
          Exchange.step (PipeHub.beside D) p now x
              ⟨1, some (s, a)⟩
              (y, .single (.carrying down up taken) []) =
            (.wait x', ⟨1, some (s, a')⟩, y,
              .single (.carrying down' up taken) []) ∧
            x'.turns s = x.turns s ∧ down' = down ∧
            Pipe.depth ≤ down.length) := by
  rcases x with ⟨apdu, deadline, phase⟩
  cases phase with
  | start =>
      have hSome := s.frames_ne_nil apdu.encode
      exact ⟨⟨apdu, deadline, .cutting (s.command apdu)⟩,
        a.reset, down, rfl, rfl, trivial, rfl,
        fun hNone => absurd hNone hSome, rfl,
        .inl ⟨rfl, rfl⟩⟩
  | cutting rest =>
      cases hFinished : rest.finished with
      | true =>
          have hNone : rest.next? = none := by
            rw [Slices.next?, if_pos hFinished]
          have hDone := Slices.toList_of_finished hFinished
          refine ⟨⟨apdu, deadline, .reading .first⟩, a, down,
            rfl, rfl, trivial, rfl, fun _ => rfl, ?_,
            .inl ⟨?_, ?_⟩⟩
          · simp [unsent, hDone]
          · simp [Exchange.step, goto, hNone]
          · simp [turns, unsent, hDone]
      | false =>
          have hNext := Slices.next?_of_unfinished hFinished
          have hMore := Slices.toList_of_unfinished hFinished
          refine ⟨⟨apdu, deadline,
              .writing rest.advance { frame := rest.frame }⟩,
            a, down, rfl, rfl, rfl, rfl, fun _ => rfl, ?_,
            .inl ⟨?_, ?_⟩⟩
          · simp [unsent, hMore]
          · simp [Exchange.step, goto, hNext]
          · simp [turns, unsent, hMore]
  | writing rest f =>
      have hPaused : f.pausedUntil = none := hUnpaused
      by_cases hRoom : down.length < Pipe.depth
      · refine ⟨⟨apdu, deadline, .cutting rest⟩, a,
          down ++ [f.frame], rfl, rfl, trivial, rfl,
          fun _ => rfl, ?_, .inl ⟨?_, ?_⟩⟩
        · simp [unsent]
        · simp [Exchange.step, goto, FrameWrite.step, hPaused,
            hRoom]
        · simp [turns, unsent]
          omega
      · refine ⟨⟨apdu, deadline,
            .writing rest { f with asked := .again }⟩,
          a, down, rfl, rfl, hPaused, rfl, fun _ => rfl, rfl,
          .inr ⟨?_, rfl, rfl, Nat.le_of_not_lt hRoom⟩⟩
        simp [Exchange.step, goto, FrameWrite.step, hPaused,
          hRoom, waiting, Turn.orAt, Nat.not_le_of_lt hDue]
  | reading asked => exact absurd rfl hTurns

/- An exchange that reads waits for the next frame. -/
theorem step_reading_nil
    {asked : Asked}
    (hPhase : x.phase = .reading asked)
    (hDue : now < x.deadline) :
    Exchange.step (PipeHub.beside D) p now x
        ⟨1, some (s, a)⟩
        (y, .single (.carrying down [] taken) []) =
      (.wait { x with phase := .reading .again },
        ⟨1, some (s, a)⟩, y,
        .single (.carrying down [] taken) []) := by
  simp [Exchange.step, hPhase, waiting, Turn.orAt, goto,
    Nat.not_le_of_lt hDue]

variable (y p now s down up taken) in
/-
  An exchange takes a frame of a response that it expects,
  and ends with the last one.
-/
theorem step_reading_cons
    {asked : Asked}
    {r : Response}
    {frame : List UInt8}
    {rest : List (List UInt8)}
    (hPhase : x.phase = .reading asked)
    (hPlain : ¬ Mtu.IsSizeFrame frame)
    (hExpects : a.Expects (frame :: rest) r.encode) :
    ∃ a', a'.profile = a.profile ∧
      (Exchange.step (PipeHub.beside D) p now x
            ⟨1, some (s, a)⟩
            (y, .single (.carrying down (frame :: up) taken)
              []) =
          (.go { x with phase := .reading .first },
            ⟨1, some (s, a')⟩, y,
            .single (.carrying down up taken) []) ∧
          a'.Expects rest r.encode ∨
        Exchange.step (PipeHub.beside D) p now x
            ⟨1, some (s, a)⟩
            (y, .single (.carrying down (frame :: up) taken)
              []) =
          (.done (.ok r), ⟨1, some (s, a')⟩, y,
            .single (.carrying down up taken) []) ∧
          rest = []) := by
  have hProfile := a.feedResponse_profile frame
  rcases hExpects.feedResponse with
    ⟨a', hFeed, hRest⟩ | ⟨hLast, a', hFeed⟩
  all_goals rw [hFeed] at hProfile
  · refine ⟨a', hProfile, .inl ⟨?_, hRest⟩⟩
    simp [Exchange.step, hPhase, receive, hPlain, hFeed, goto]
  · refine ⟨a', hProfile, .inr ⟨?_, hLast⟩⟩
    simp [Exchange.step, hPhase, receive, hPlain, hFeed]

end Exchange

------------------------------------------------------------
-- Setups
------------------------------------------------------------

namespace Setup

/- The frames that have yet to be written. -/
def unsent : Setup → List (List UInt8)
  | .start => [Mtu.request]
  | .writing _ f => [f.frame]
  | .reading _ _ => []

/- How many steps there are until the host reads. -/
def turns : Setup → Nat
  | .start => 2
  | .writing _ _ => 1
  | .reading _ _ => 0

/- No write is put off. -/
def Unpaused : Setup → Prop
  | .writing _ f => f.pausedUntil = none
  | _ => True

variable {D : Type} {y : D} {p : WritePolicy}
variable {timeout now : Nat} {waiting : List Nat}
variable {down up : List (List UInt8)} {taken : Nat}

variable (y p timeout now waiting up taken) in
/- A setup that is not reading goes on. -/
theorem step_writing
    {x : Setup}
    (hUnpaused : x.Unpaused)
    (hRoom : down.length < Pipe.depth)
    (hTurns : x.turns ≠ 0) :
    ∃ x' down',
      Setup.step (PipeHub.beside D) p timeout now x ⟨1, none⟩
          (y, .single (.carrying down up taken) waiting) =
        (.go x', ⟨1, none⟩, y,
          .single (.carrying down' up taken) waiting) ∧
        x'.Unpaused ∧ x'.turns + 1 = x.turns ∧
        down' ++ x'.unsent = down ++ x.unsent ∧
        ∀ due ∈ x'.timers,
          due = now + timeout ∨ due ∈ x.timers := by
  cases x with
  | start =>
      refine ⟨.writing (now + timeout) { frame := Mtu.request },
        down, rfl, rfl, rfl, rfl, ?_⟩
      simp [timers, FrameWrite.timers]
  | writing deadline f =>
      have hPaused : f.pausedUntil = none := hUnpaused
      refine ⟨.reading deadline .first, down ++ [f.frame], ?_,
        trivial, rfl, ?_, ?_⟩
      · simp [Setup.step, FrameWrite.step, hPaused, hRoom]
      · simp [unsent]
      · simp [timers]
  | reading deadline asked => exact absurd rfl hTurns

/- A setup that reads waits for the answer. -/
theorem step_reading_nil
    {deadline : Nat}
    {asked : Asked}
    (hDue : now < deadline) :
    Setup.step (PipeHub.beside D) p timeout now
        (.reading deadline asked) ⟨1, none⟩
        (y, .single (.carrying down [] taken) waiting) =
      (.wait (.reading deadline .again), ⟨1, none⟩, y,
        .single (.carrying down [] taken) waiting) := by
  simp [Setup.step, Turn.orAt, Nat.not_le_of_lt hDue]

/- A setup ends with the answer of the device. -/
theorem step_answered
    {deadline : Nat}
    {asked : Asked}
    {m : UInt8}
    {s : Slicer}
    (hSlicer : Slicer.ofMtu .ble m.toNat = .ok s) :
    Setup.step (PipeHub.beside D) p timeout now
        (.reading deadline asked) ⟨1, none⟩
        (y, .single
          (.carrying down (Mtu.response m :: up) taken)
          waiting) =
      (.done (.ok ()),
        ⟨1, some (s, Assembler.ofProfile .ble)⟩, y,
        .single (.carrying down up taken) waiting) := by
  have hSize : Mtu.IsSizeFrame (Mtu.response m) := rfl
  have hParse :
      Mtu.parse (Mtu.response m) = .ok m.toNat := by
    rw [Mtu.parse, if_pos hSize]
    rfl
  have hProfile :
      (PipeHub.beside D).profile = .ble := rfl
  simp [Setup.step, hSize, hParse, hProfile, settle, hSlicer]

end Setup

end DeviceSession
