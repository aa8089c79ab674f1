import DeviceSession.Proofs.Framing.Delivery

/-
  Messages that are broken off by a frame with index 0.

  Such a frame starts a message.  If it declares a length,
  then whatever was in progress is abandoned: all that comes
  out later is made of this frame and of later ones.  If it
  is too short for a length, it is refused, and the message
  in progress stays as it was, so that a continuation goes
  on with it.

  Key definitions include:
    * `Assembler.Abandons`
    * `Assembler.Outlives`

  Main declarations:
    * `Assembler.feed_framed_zero_of_long`
    * `Assembler.feed_framed_zero_of_short`
    * `Assembler.Outlives.takeAll`
    * `Assembler.abandons_iff`
-/

------------------------------------------------------------
-- Frames with Index 0
------------------------------------------------------------

namespace DeviceSession

namespace Assembler

theorem splitWord_of_short
    {bytes : List UInt8}
    (hShort : bytes.length < 2) :
    splitWord bytes = .error .frameTooShort := by
  unfold splitWord
  split
  · simp only [List.length_cons] at hShort
    omega
  · rfl

theorem exists_bytes16_append
    {bytes : List UInt8}
    (hLong : 2 ≤ bytes.length) :
    ∃ w rest, bytes = Word.bytes16 w ++ rest := by
  match bytes, hLong with
  | hi :: lo :: rest, _ =>
      refine ⟨Word.of16 hi lo, rest, ?_⟩
      rw [Word.bytes16_of16]
      simp

/- Accepting payload makes no use of what was in progress. -/
theorem accept_reset
    (a : Assembler)
    (m : Partial)
    (payload : List UInt8) :
    a.reset.accept m payload = a.accept m payload := by
  simp [accept, reset]

/- A frame that declares a length is a new start. -/
theorem feed_framed_zero_of_long
    (a : Assembler)
    {body : List UInt8}
    (hLong : 2 ≤ body.length) :
    a.feed (a.profile.framed 0 body) =
      a.reset.feed (a.profile.framed 0 body) := by
  obtain ⟨length, payload, rfl⟩ := exists_bytes16_append hLong
  have hFeed := a.feed_opening length payload
  have hReset := a.reset.feed_opening length payload
  simp only [accept_reset] at hReset
  exact hFeed.trans hReset.symm

/- One that is too short for it is as good as none. -/
theorem feed_framed_zero_of_short
    (a : Assembler)
    {body : List UInt8}
    (hShort : body.length < 2) :
    a.feed (a.profile.framed 0 body) =
      (.error .frameTooShort, a) := by
  unfold feed
  simp only [openFrame_framed, if_true,
    splitWord_of_short hShort]

------------------------------------------------------------
-- Messages Beyond Their Last Frame
------------------------------------------------------------

/-
  All the same from now on, or one of two assemblers has a
  message in progress that can have no other frame: its next
  index would be 0 again.
-/
inductive Outlives : Assembler → Assembler → Prop where
  | same (a : Assembler) : Outlives a a
  | spent
      {p : Profile}
      {m : Partial}
      (hNext : m.next = 0) :
      Outlives ⟨p, some m⟩ ⟨p, none⟩

namespace Outlives

variable {a b : Assembler}

theorem profile (h : a.Outlives b) : a.profile = b.profile := by
  cases h <;> rfl

/- Both deliver the same messages, and go on like this. -/
theorem feed
    (h : a.Outlives b)
    (frame : List UInt8) :
    (∀ message,
      (a.feed frame).1 = .ok (some message) ↔
        (b.feed frame).1 = .ok (some message)) ∧
      (a.feed frame).2.Outlives (b.feed frame).2 := by
  cases h with
  | same => exact ⟨fun _ => Iff.rfl, .same _⟩
  | @spent p m hNext =>
      by_cases hLegible : p.Legible frame
      · cases hLegible with
        | opening length payload =>
            have hLong :
                2 ≤ (Word.bytes16 length ++ payload).length := by
              simp [Word.length_bytes16]
            rw [Profile.opening,
              feed_framed_zero_of_long ⟨p, some m⟩ hLong]
            exact ⟨fun _ => Iff.rfl, .same _⟩
        | @continuation index hIndex payload =>
            have hGap : index ≠ m.next := by
              rw [hNext]
              exact hIndex
            rw [feed_continuation_of_gap p m hIndex hGap,
              feed_continuation_of_idle p hIndex]
            exact ⟨by simp, .same _⟩
      · obtain ⟨e, -, hFeed⟩ :=
          feed_of_illegible ⟨p, some m⟩ hLegible
        obtain ⟨e', -, hFeed'⟩ :=
          feed_of_illegible ⟨p, none⟩ hLegible
        rw [hFeed, hFeed']
        exact ⟨by simp, .spent hNext⟩

theorem take
    (h : a.Outlives b)
    (x : Intake) :
    (a.take x).Outlives (b.take x) := by
  cases x with
  | frame bytes => exact (h.feed bytes).2
  | reset =>
      have hSame : a.reset = b.reset := by
        simp [reset, h.profile]
      rw [Assembler.take, Assembler.take, hSame]
      exact .same _

theorem takeAll
    (h : a.Outlives b)
    (history : List Intake) :
    (a.takeAll history).Outlives (b.takeAll history) := by
  induction history generalizing a b with
  | nil => exact h
  | cons x history ih => exact ih (h.take x)

end Outlives

------------------------------------------------------------
-- Abandoned Messages
------------------------------------------------------------

/-
  Whatever comes in after a frame, each message that comes
  out is one of that frame and of later ones alone.
-/
def Abandons
    (p : Profile)
    (before : List Intake)
    (frame : List UInt8) : Prop :=
  ∀ later last message,
    (((ofProfile p).takeAll
      (before ++ .frame frame :: later)).feed last).1 =
        .ok (some message) →
      p.Delivers (p.heard (.frame frame :: later) ++ [last])
        message

/- It is enough to do as an assembler that starts with it. -/
theorem abandons_of_outlives
    {p : Profile}
    {before : List Intake}
    {frame : List UInt8}
    (h :
      (((ofProfile p).takeAll before).take
        (.frame frame)).Outlives
          ((ofProfile p).take (.frame frame))) :
    Abandons p before frame := by
  intro later last message hMessage
  have hLater := h.takeAll later
  have hHistory :
      (ofProfile p).takeAll (before ++ .frame frame :: later) =
        (((ofProfile p).takeAll before).take
          (.frame frame)).takeAll later := by
    simp [takeAll]
  rw [hHistory] at hMessage
  have hFresh :
      (((ofProfile p).takeAll
        (.frame frame :: later)).feed last).1 =
          .ok (some message) :=
    ((hLater.feed last).1 message).mp hMessage
  have hConforms := takeAll_conforms p (.frame frame :: later)
  by_cases hLegible : p.Legible last
  · exact (hConforms.delivered last hLegible message).mp hFresh
  · have hRefused := (hConforms.refused last).mpr hLegible
    rw [refuses, hFresh] at hRefused
    cases hRefused

section InProgress

variable {p : Profile} {before : List Intake} {m : Partial}

theorem takeAll_of_current
    (hCurrent :
      ((ofProfile p).takeAll before).current = some m) :
    (ofProfile p).takeAll before = ⟨p, some m⟩ := by
  have hProfile := (reflects_takeAll p before).profile
  cases hState : (ofProfile p).takeAll before
  simp_all

/- A continuation goes on with the message in progress. -/
theorem feed_next
    (hCurrent :
      ((ofProfile p).takeAll before).current = some m)
    (hNext : m.next ≠ 0)
    {payload : List UInt8}
    (hFilled :
      m.expected ≤ m.buffer.size + payload.length) :
    (((ofProfile p).takeAll before).feed
      (p.framed m.next payload)).1 =
        .ok (some (m.buffer.toList ++
          payload.take (m.expected - m.buffer.size))) := by
  let taken := payload.take (m.expected - m.buffer.size)
  have hWhole :
      ¬ (m.buffer.toList ++ taken).length < m.expected := by
    rw [List.length_append, Array.length_toList,
      List.length_take]
    omega
  have hAccept :=
    accept_of_take ⟨p, none⟩ m.expected (m.next + 1)
      m.buffer.toList payload taken rfl
  rw [if_neg hWhole] at hAccept
  rw [takeAll_of_current hCurrent,
    feed_continuation_of_next p m hNext]
  exact congrArg (fun x => Except.ok x.1) hAccept

/- A frame too short for a length does not abandon it. -/
theorem not_abandons_of_short
    (hCurrent :
      ((ofProfile p).takeAll before).current = some m)
    (hNext : m.next ≠ 0)
    {body : List UInt8}
    (hShort : body.length < 2) :
    ¬ Abandons p before (p.framed 0 body) := by
  intro hAbandons
  let payload := List.replicate m.expected (0 : UInt8)
  have hProfile := (reflects_takeAll p before).profile
  have hRefused :=
    ((ofProfile p).takeAll before).feed_framed_zero_of_short
      hShort
  rw [hProfile] at hRefused
  have hAfter :
      (ofProfile p).takeAll
          (before ++ [.frame (p.framed 0 body)]) =
        (ofProfile p).takeAll before := by
    rw [takeAll_concat, take, hRefused]
  have hFilled :
      m.expected ≤ m.buffer.size + payload.length := by
    simp [payload]
  have hMessage := feed_next hCurrent hNext hFilled
  rw [← hAfter] at hMessage
  have hDelivers := hAbandons [] _ _ hMessage
  -- An assembler that has seen no more cannot deliver it.
  have hConforms :=
    takeAll_conforms p [.frame (p.framed 0 body)]
  have hFresh :=
    (hConforms.delivered _ (.continuation hNext payload) _).mpr
      hDelivers
  have hIdle :
      (ofProfile p).takeAll [.frame (p.framed 0 body)] =
        ⟨p, none⟩ := by
    have hFeed := (ofProfile p).feed_framed_zero_of_short hShort
    exact congrArg Prod.snd hFeed
  rw [hIdle, feed_continuation_of_idle p hNext] at hFresh
  cases hFresh

/-
  A frame with index 0 that comes while a message is in
  progress.  If it declares a length, it is answered as if it
  were the first frame of all.  Otherwise it is refused and
  changes nothing: the next continuation goes on with what
  had come before it, and may complete that.  So the message
  is abandoned exactly if a length is declared, or if it has
  run out of indices.
-/
theorem abandons_iff
    (hCurrent :
      ((ofProfile p).takeAll before).current = some m)
    (body : List UInt8) :
    let a := (ofProfile p).takeAll before
    let frame := p.framed 0 body
    (Abandons p before frame ↔
      2 ≤ body.length ∨ m.next = 0) ∧
    (2 ≤ body.length →
      a.feed frame = (ofProfile p).feed frame) ∧
    (body.length < 2 →
      a.feed frame = (.error .frameTooShort, a) ∧
      ∀ payload,
        m.next ≠ 0 →
        m.expected ≤ m.buffer.size + payload.length →
        ((a.feed frame).2.feed
          (p.framed m.next payload)).1 =
            .ok (some (m.buffer.toList ++
              payload.take
                (m.expected - m.buffer.size)))) := by
  intro a frame
  have hProfile : a.profile = p :=
    (reflects_takeAll p before).profile
  have hReset : a.reset = ofProfile p := by
    simp [reset, ofProfile, hProfile]
  have hLong :
      2 ≤ body.length →
        a.feed frame = (ofProfile p).feed frame := by
    intro hLength
    have hFeed := a.feed_framed_zero_of_long hLength
    rwa [hProfile, hReset] at hFeed
  have hShort :
      body.length < 2 →
        a.feed frame = (.error .frameTooShort, a) := by
    intro hLength
    have hFeed := a.feed_framed_zero_of_short hLength
    rwa [hProfile] at hFeed
  refine ⟨⟨?only, ?all⟩, hLong, ?refused⟩
  case only =>
    intro hAbandons
    by_contra hNeither
    rw [not_or, Nat.not_le] at hNeither
    exact not_abandons_of_short hCurrent hNeither.2 hNeither.1
      hAbandons
  case all =>
    intro hEither
    apply abandons_of_outlives
    by_cases hLength : 2 ≤ body.length
    · have hSame :
          a.take (.frame frame) =
            (ofProfile p).take (.frame frame) :=
        congrArg Prod.snd (hLong hLength)
      rw [hSame]
      exact .same _
    · have hNext := hEither.resolve_left hLength
      have hFew := Nat.not_le.mp hLength
      have hAfter : a.take (.frame frame) = ⟨p, some m⟩ := by
        rw [take, hShort hFew]
        exact takeAll_of_current hCurrent
      have hFresh :
          (ofProfile p).take (.frame frame) = ⟨p, none⟩ :=
        congrArg Prod.snd
          ((ofProfile p).feed_framed_zero_of_short hFew)
      rw [hAfter, hFresh]
      exact .spent hNext
  case refused =>
    intro hFew
    refine ⟨hShort hFew, fun payload hNext hFilled => ?_⟩
    rw [hShort hFew]
    exact feed_next hCurrent hNext hFilled

end InProgress

end Assembler

------------------------------------------------------------
-- A Message That Comes Back
------------------------------------------------------------

namespace Revived

/- Two bytes out of four, and a frame with no length. -/
def before : List Intake :=
  [.frame [5, 0, 0, 0, 4, 0xaa, 0xbb]]

def started : Partial :=
  ⟨4, 1, #[0xaa, 0xbb]⟩

theorem current_before :
    ((Assembler.ofProfile .ble).takeAll before).current =
      some started := by
  decide

/-
  A frame with one byte in place of a length leaves the
  message to be completed; one with a length abandons it.
-/
theorem started_abandoned :
    let a := (Assembler.ofProfile .ble).takeAll before
    a.current = some started ∧
      ¬ Assembler.Abandons .ble before
        (Profile.ble.framed 0 [0]) ∧
      ((a.feed (Profile.ble.framed 0 [0])).2.feed
          (Profile.ble.framed 1 [0xcc, 0xdd, 0xee])).1 =
        .ok (some [0xaa, 0xbb, 0xcc, 0xdd]) ∧
      Assembler.Abandons .ble before
        (Profile.ble.framed 0 [0, 1]) ∧
      a.feed (Profile.ble.framed 0 [0, 1]) =
        (Assembler.ofProfile .ble).feed
          (Profile.ble.framed 0 [0, 1]) := by
  intro a
  obtain ⟨hShort, -, hRefused⟩ :=
    Assembler.abandons_iff current_before [0]
  obtain ⟨hLong, hFresh, -⟩ :=
    Assembler.abandons_iff current_before [0, 1]
  have hNext : started.next ≠ 0 := by decide
  refine ⟨current_before, ?_, ?_, ?_, ?_⟩
  · rw [hShort]
    decide
  · exact (hRefused (by decide)).2 [0xcc, 0xdd, 0xee] hNext
      (by decide)
  · exact hLong.mpr (.inl (by decide))
  · exact hFresh (by decide)

/-
  The short frame is refused, and the continuation after it
  completes a message with the bytes that had come before.
  An assembler that has seen only these two frames has no
  message.
-/
theorem message_completed :
    let a := (Assembler.ofProfile .ble).takeAll before
    let frames : List (List UInt8) :=
      [[5, 0, 0, 0], [5, 0, 1, 0xcc, 0xdd]]
    a.inMessage = true ∧
      Assembler.openFrame .ble [5, 0, 0, 0] = .ok (0, [0]) ∧
      (a.feedAll frames).1 =
        [.error .frameTooShort,
          .ok (some [0xaa, 0xbb, 0xcc, 0xdd])] ∧
      ((Assembler.ofProfile .ble).feedAll frames).1 =
        [.error .frameTooShort,
          .error (.unexpectedContinuation 1)] ∧
      ¬ Assembler.Abandons .ble before [5, 0, 0, 0] := by
  refine ⟨by decide, by decide, by decide, by decide, ?_⟩
  have hNext : started.next ≠ 0 := by decide
  have hShort : [(0 : UInt8)].length < 2 := by decide
  exact Assembler.not_abandons_of_short current_before hNext
    hShort

end Revived

end DeviceSession
