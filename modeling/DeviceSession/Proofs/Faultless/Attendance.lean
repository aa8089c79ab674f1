import DeviceSession.Proofs.Faultless.Dialogue
import DeviceSession.Proofs.Faultless.Messages
import DeviceSession.Proofs.Faultless.Wires

/-
  The device's side of a faultless link.

  A device on its first link has frames left to send, or it
  reads.  What it sends stays in order, and it goes on as
  long as there is room.  What it has said stands in its
  journal once all frames are gone.

  Key definitions include:
    * `Emulator.deeds`
    * `Emulator.tending`
    * `Emulator.Sends`

  Main declarations:
    * `Emulator.Sends.step`
    * `Emulator.step_frame`
-/

------------------------------------------------------------
-- Journals
------------------------------------------------------------

namespace DeviceSession

/- What a journal says about an exchange. -/
def JournalLine.ofExchanged (e : Exchanged) :
    List JournalLine :=
  [.command 1 e.1, .responded 1 e.2.status 0]

/- What a journal says about exchanges, one after another. -/
def JournalLine.ofLog (log : List Exchanged) :
    List JournalLine :=
  log.flatMap ofExchanged

def JournalLine.isFrame : JournalLine → Bool
  | .frameIn _ => true
  | _ => false

namespace Emulator

/- A journal without the frames that came in. -/
def deeds (j : Array JournalLine) : List JournalLine :=
  j.toList.filter fun line => !line.isFrame

theorem deeds_push
    (j : Array JournalLine)
    (line : JournalLine) :
    deeds (j.push line) =
      deeds j ++ if line.isFrame then [] else [line] := by
  simp only [deeds, Array.toList_push, List.filter_append]
  cases hFrame : line.isFrame <;> simp [hFrame]

------------------------------------------------------------
-- Devices at Work
------------------------------------------------------------

variable {H : Type}

/- How many steps the device can take by itself. -/
def Phase.turns : Phase → Nat
  | .sending frames _ _ => frames.length + 1
  | _ => 0

/- A device on its first link. -/
def tending
    (m : UInt8)
    (x : H)
    (j : Array JournalLine)
    (p : Phase)
    (b : Assembler) : Emulator H where
  profile := .ble
  mtu := m
  handler := x
  journal := j
  phase := p
  link := 1
  assembler := b

/-
  The device has these frames left to send, and then its
  journal says so much.
-/
inductive Sends (said : List JournalLine) :
    Array JournalLine → Phase → List (List UInt8) → Prop where
  | receiving
      {j : Array JournalLine}
      (asked : Asked)
      (deeds_eq : deeds j = said) :
      Sends said j (.receiving asked) []
  | announced
      {j : Array JournalLine}
      (frames : List (List UInt8))
      (asked : Asked)
      (deeds_eq : deeds j = said) :
      Sends said j (.sending frames asked .announced) frames
  | responded
      {j : Array JournalLine}
      (frames : List (List UInt8))
      (asked : Asked)
      (status : StatusWord)
      (deeds_eq :
        deeds j ++ [.responded 1 status 0] = said) :
      Sends said j
        (.sending frames asked (.responded status 0 false))
        frames

section Steps

variable {h : Handler H} {m : UInt8} {x : H}
variable {j : Array JournalLine} {p : Phase} {b : Assembler}
variable {said : List JournalLine}
variable {down up frames : List (List UInt8)} {taken : Nat}

theorem Sends.deeds_prefix
    (hSends : Sends said j p frames) :
    deeds j <+: said := by
  cases hSends with
  | receiving _ hDeeds => exact hDeeds ▸ List.prefix_rfl
  | announced _ _ hDeeds => exact hDeeds ▸ List.prefix_rfl
  | responded _ _ _ hDeeds =>
      rw [← hDeeds]
      exact List.prefix_append _ _

/- A device that reads has nothing left to send. -/
theorem Sends.of_turns_eq_zero
    (hSends : Sends said j p frames)
    (hTurns : p.turns = 0) :
    frames = [] ∧ deeds j = said ∧
      ∃ asked, p = .receiving asked := by
  cases hSends with
  | receiving asked hDeeds => exact ⟨rfl, hDeeds, asked, rfl⟩
  | announced => simp [Phase.turns] at hTurns
  | responded => simp [Phase.turns] at hTurns

/- A device that nothing comes to goes on waiting. -/
theorem step_receiving_nil
    (now : Nat)
    (asked : Asked) :
    Emulator.step h now (tending m x j (.receiving asked) b)
        (.single (.carrying [] up taken) []) =
      (.wait (tending m x j (.receiving .again) b),
        .single (.carrying [] up taken) []) := by
  simp [Emulator.step, tending, goto]

/- A device sends its next frame when there is room. -/
theorem step_sending
    (now : Nat)
    (frame : List UInt8)
    (asked : Asked)
    (after : After) :
    Emulator.step h now
        (tending m x j (.sending (frame :: frames) asked after)
          b)
        (.single (.carrying down up taken) []) =
      if up.length < Pipe.depth then
        (.go (tending m x j (.sending frames .first after) b),
          .single (.carrying down (up ++ [frame]) taken) [])
      else
        (.wait (tending m x j
            (.sending (frame :: frames) .again after) b),
          .single (.carrying down up taken) []) := by
  by_cases hRoom : up.length < Pipe.depth <;>
    simp [Emulator.step, tending, goto, Pipe.send_carrying,
      hRoom]

variable (h m x b up taken) in
/-
  A device that has frames left, or that none are on the way
  to, sends what it can.
-/
theorem Sends.step
    (hSends : Sends said j p frames)
    (hQuiet : p.turns ≠ 0 ∨ down = [])
    (now : Nat) :
    ∃ j' p' frames' up',
      Sends said j' p' frames' ∧
        up' ++ frames' = up ++ frames ∧
        (Emulator.step h now (tending m x j p b)
              (.single (.carrying down up taken) []) =
            (.go (tending m x j' p' b),
              .single (.carrying down up' taken) []) ∧
            p'.turns + 1 = p.turns ∨
          Emulator.step h now (tending m x j p b)
              (.single (.carrying down up taken) []) =
            (.wait (tending m x j' p' b),
              .single (.carrying down up' taken) []) ∧
            p'.turns = p.turns ∧
            (p.turns = 0 ∨ Pipe.depth ≤ up.length)) := by
  cases hSends with
  | receiving asked hDeeds =>
      have hNone : down = [] := by
        simpa [Phase.turns] using hQuiet
      subst hNone
      exact ⟨j, .receiving .again, [], up,
        .receiving _ hDeeds, rfl,
        .inr ⟨step_receiving_nil now asked, rfl, .inl rfl⟩⟩
  | announced _ asked hDeeds =>
      cases frames with
      | nil =>
          exact ⟨j, .receiving .first, [], up,
            .receiving _ hDeeds, rfl, .inl ⟨rfl, rfl⟩⟩
      | cons frame rest =>
          rw [step_sending]
          by_cases hRoom : up.length < Pipe.depth
          · rw [if_pos hRoom]
            exact ⟨j, _, rest, up ++ [frame],
              .announced _ _ hDeeds, by simp,
              .inl ⟨rfl, rfl⟩⟩
          · rw [if_neg hRoom]
            exact ⟨j, _, frame :: rest, up,
              .announced _ _ hDeeds, rfl,
              .inr ⟨rfl, rfl, .inr (Nat.le_of_not_lt hRoom)⟩⟩
  | responded _ asked status hDeeds =>
      cases frames with
      | nil =>
          refine ⟨j.push (.responded 1 status 0),
            .receiving .first, [], up, .receiving _ ?_, rfl,
            .inl ⟨rfl, rfl⟩⟩
          rw [deeds_push]
          exact hDeeds
      | cons frame rest =>
          rw [step_sending]
          by_cases hRoom : up.length < Pipe.depth
          · rw [if_pos hRoom]
            exact ⟨j, _, rest, up ++ [frame],
              .responded _ _ status hDeeds, by simp,
              .inl ⟨rfl, rfl⟩⟩
          · rw [if_neg hRoom]
            exact ⟨j, _, frame :: rest, up,
              .responded _ _ status hDeeds, rfl,
              .inr ⟨rfl, rfl, .inr (Nat.le_of_not_lt hRoom)⟩⟩

/-
  The device steps to what `P` holds of and is nearer to its
  end then, or it waits and is as near as before.
-/
def Nears
    (h : Handler H)
    (now : Nat)
    (P : Emulator H × PipeHub → Nat → Prop)
    (w : Emulator H × PipeHub)
    (n : Nat) : Prop :=
  ∃ w' n', P w' n' ∧
    (Emulator.step h now w.1 w.2 = (.go w'.1, w'.2) ∧
        n' < n ∨
      Emulator.step h now w.1 w.2 = (.wait w'.1, w'.2) ∧
        n' = n)

/- What keeps frames in order is as near after a step. -/
theorem Sends.nears
    {P : Emulator H × PipeHub → Nat → Prop}
    (hSends : Sends said j p frames)
    (hQuiet : p.turns ≠ 0 ∨ down = [])
    (now : Nat)
    {n : Nat}
    (hNext :
      ∀ j' p' frames' up',
        Sends said j' p' frames' →
          up' ++ frames' = up ++ frames →
            P (tending m x j' p' b,
                .single (.carrying down up' taken) [])
              (p'.turns + n)) :
    Nears h now P
      (tending m x j p b, .single (.carrying down up taken) [])
      (p.turns + n) := by
  rcases hSends.step h m x b up taken hQuiet now with
    ⟨j', p', frames', up', hSends', hFrames, hStep⟩
  refine ⟨_, _, hNext j' p' frames' up' hSends' hFrames, ?_⟩
  rcases hStep with ⟨hGo, hTurns⟩ | ⟨hWait, hTurns, -⟩
  · exact .inl ⟨hGo, by omega⟩
  · exact .inr ⟨hWait, by omega⟩

variable (x j up taken) in
/-
  A device takes a frame of a command that it expects.  At
  the last one it responds; no frame is waiting then.
-/
theorem step_frame
    {f : Manner H}
    (hPrompt : h.Prompt f)
    {s : Slicer}
    (hSlicer : Slicer.ofMtu .ble m.toNat = .ok s)
    (now : Nat)
    {a : Apdu}
    (asked : Asked)
    {frame : List UInt8}
    {rest : List (List UInt8)}
    (hPlain : ¬ Mtu.IsSizeFrame frame)
    (hExpects : b.Expects (frame :: down ++ rest) a.encode) :
    ∃ j' b', b'.profile = b.profile ∧
      (Emulator.step h now (tending m x j (.receiving asked) b)
            (.single (.carrying (frame :: down) up taken) []) =
          (.go (tending m x j' (.receiving .first) b'),
            .single (.carrying down up (taken + 1)) []) ∧
          deeds j' = deeds j ∧
          b'.Expects (down ++ rest) a.encode ∨
        Emulator.step h now (tending m x j (.receiving asked) b)
            (.single (.carrying (frame :: down) up taken) []) =
          (.go (tending m (f a x).2 j'
              (.sending (s.frames (f a x).1.encode) .first
                (.responded (f a x).1.status 0 false)) b'),
            .single (.carrying down up (taken + 1)) []) ∧
          deeds j' = deeds j ++ [.command 1 a] ∧
          down = [] ∧ rest = []) := by
  have hProfile := b.feed_profile frame
  have hLength :
      (f a x).1.encode.length ≤ 65535 := by
    have hData := hPrompt.length_le a x
    rw [Response.length_encode]
    omega
  rw [List.cons_append] at hExpects
  generalize hFrames : down ++ rest = frames at hExpects
  cases hExpects with
  | @last _ b' _ _ hFeed =>
      rw [hFeed] at hProfile
      rcases List.append_eq_nil_iff.mp hFrames with
        ⟨rfl, rfl⟩
      refine ⟨(j.push (.frameIn 1)).push (.command 1 a), b',
        hProfile, .inr ⟨?_, ?_, rfl, rfl⟩⟩
      · simp [Emulator.step, tending, hPlain, take, note, hFeed,
          a.decode?_encode, hPrompt.handle_eq, reply, respond,
          hSlicer, Slicer.message, hLength, goto, Slicer.frames,
          bind, Except.bind]
      · rw [deeds_push, deeds_push]
        simp [JournalLine.isFrame]
  | @more _ b' _ _ _ hFeed hRest =>
      rw [hFeed] at hProfile
      refine ⟨j.push (.frameIn 1), b', hProfile,
        .inl ⟨?_, ?_, hFrames ▸ hRest⟩⟩
      · simp [Emulator.step, tending, hPlain, take, note, hFeed,
          receive, goto]
      · rw [deeds_push]
        simp [JournalLine.isFrame]

end Steps

end Emulator

end DeviceSession
