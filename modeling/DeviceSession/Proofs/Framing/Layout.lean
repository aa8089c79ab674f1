import DeviceSession.Proofs.Framing.Slices

/-
  Frames as bytes.

  A frame that can be read begins with the lead of its
  profile and goes on with an index and a body; index 0 marks
  the first frame of a message, whose body declares a length.
  Every other frame is turned down, whatever came before it,
  and leaves an assembler as it is.

  Key definitions include:
    * `Profile.framed`
    * `Profile.opening`
    * `Profile.Legible`
    * `FrameError.isRefusal`

  Main declarations:
    * `Assembler.openFrame_eq_ok_iff`
    * `Assembler.feed_opening`
    * `Assembler.feed_of_illegible`
    * `Assembler.isRefusal_of_feed`
-/

------------------------------------------------------------
-- The Bytes of a Frame
------------------------------------------------------------

namespace DeviceSession

namespace Profile

/- What every frame of a profile begins with. -/
def lead (p : Profile) : List UInt8 :=
  p.channel.elim [] Word.bytes16 ++ [apduTag]

/- The frame with the given index and body. -/
def framed
    (p : Profile)
    (index : UInt16)
    (body : List UInt8) : List UInt8 :=
  p.lead ++ Word.bytes16 index ++ body

/- The first frame of a message with the given length. -/
def opening
    (p : Profile)
    (length : UInt16)
    (payload : List UInt8) : List UInt8 :=
  p.framed 0 (Word.bytes16 length ++ payload)

/- The frame is a first frame or a continuation. -/
inductive Legible (p : Profile) : List UInt8 → Prop where
  | opening (length : UInt16) (payload : List UInt8) :
      Legible p (p.opening length payload)
  | continuation
      {index : UInt16}
      (hIndex : index ≠ 0)
      (payload : List UInt8) :
      Legible p (p.framed index payload)

end Profile

------------------------------------------------------------
-- Reading a Frame
------------------------------------------------------------

/- A frame is turned down without being taken in. -/
def FrameError.isRefusal : FrameError → Bool
  | .frameTooShort => true
  | .unexpectedTag _ => true
  | .channelMismatch _ _ => true
  | _ => false

namespace Assembler

theorem splitWord_eq_ok_iff
    (bytes : List UInt8)
    (w : UInt16)
    (rest : List UInt8) :
    splitWord bytes = .ok (w, rest) ↔
      bytes = Word.bytes16 w ++ rest := by
  constructor
  · intro hSplit
    unfold splitWord at hSplit
    split at hSplit
    · cases hSplit
      rw [Word.bytes16_of16]
      rfl
    · cases hSplit
  · rintro rfl
    exact Slices.splitWord_bytes16 w rest

theorem splitWord_eq_error
    {bytes : List UInt8}
    {e : FrameError}
    (hSplit : splitWord bytes = .error e) :
    e = .frameTooShort := by
  unfold splitWord at hSplit
  split at hSplit
  · cases hSplit
  · cases hSplit
    rfl

theorem openChannel_eq_ok_iff
    (p : Profile)
    (frame rest : List UInt8) :
    openChannel p frame = .ok rest ↔
      frame = p.channel.elim [] Word.bytes16 ++ rest := by
  unfold openChannel
  cases p.channel with
  | none =>
      simp only [Except.ok.injEq, Option.elim]
      rfl
  | some expected =>
      constructor
      · intro hOpen
        cases hSplit : splitWord frame with
        | error e => simp [hSplit, bind, Except.bind] at hOpen
        | ok parts =>
            rcases parts with ⟨received, tail⟩
            simp only [hSplit, bind, Except.bind] at hOpen
            split at hOpen
            · rename_i hSame
              cases hOpen
              rw [← hSame]
              exact (splitWord_eq_ok_iff _ _ _).mp hSplit
            · cases hOpen
      · rintro rfl
        simp [Slices.splitWord_bytes16, bind, Except.bind]

/- Opening a frame finds its index and body, as written. -/
theorem openFrame_eq_ok_iff
    (p : Profile)
    (frame : List UInt8)
    (index : UInt16)
    (body : List UInt8) :
    openFrame p frame = .ok (index, body) ↔
      frame = p.framed index body := by
  constructor
  · intro hOpen
    cases hChannel : openChannel p frame with
    | error e =>
        simp [openFrame, hChannel, bind, Except.bind] at hOpen
    | ok rest =>
        simp only [openFrame, hChannel, bind, Except.bind]
          at hOpen
        split at hOpen
        · cases hOpen
        · rename_i tag tail
          split at hOpen
          · rename_i hTag
            have hTail := (splitWord_eq_ok_iff _ _ _).mp hOpen
            have hFrame :=
              (openChannel_eq_ok_iff _ _ _).mp hChannel
            rw [hFrame, hTail, hTag]
            simp [Profile.framed, Profile.lead]
          · cases hOpen
  · rintro rfl
    have hChannel :
        openChannel p (p.framed index body) =
          .ok (Profile.apduTag ::
            (Word.bytes16 index ++ body)) := by
      apply (openChannel_eq_ok_iff _ _ _).mpr
      simp [Profile.framed, Profile.lead]
    rw [Slices.openFrame_of_openChannel hChannel]
    exact Slices.splitWord_bytes16 index body

theorem openFrame_framed
    (p : Profile)
    (index : UInt16)
    (body : List UInt8) :
    openFrame p (p.framed index body) = .ok (index, body) :=
  (openFrame_eq_ok_iff p _ index body).mpr rfl

/- A frame that cannot be opened is refused. -/
theorem isRefusal_of_openFrame
    {p : Profile}
    {frame : List UInt8}
    {e : FrameError}
    (hOpen : openFrame p frame = .error e) :
    e.isRefusal = true := by
  have hChannel :
      ∀ e, openChannel p frame = .error e →
        e.isRefusal = true := by
    intro e hChannel
    unfold openChannel at hChannel
    split at hChannel
    · cases hChannel
    · cases hSplit : splitWord frame with
      | error e' =>
          simp only [hSplit, bind, Except.bind,
            Except.error.injEq] at hChannel
          rw [← hChannel, splitWord_eq_error hSplit]
          rfl
      | ok parts =>
          simp only [hSplit, bind, Except.bind] at hChannel
          split at hChannel
          · cases hChannel
          · cases hChannel
            rfl
  unfold openFrame at hOpen
  cases hRest : openChannel p frame with
  | error e' =>
      simp only [hRest, bind, Except.bind, Except.error.injEq]
        at hOpen
      rw [← hOpen]
      exact hChannel e' hRest
  | ok rest =>
      simp only [hRest, bind, Except.bind] at hOpen
      split at hOpen
      · cases hOpen
        rfl
      · split at hOpen
        · rw [splitWord_eq_error hOpen]
          rfl
        · cases hOpen
          rfl

------------------------------------------------------------
-- Feeding a Frame
------------------------------------------------------------

/- A first frame starts afresh, whatever was in progress. -/
theorem feed_opening
    (a : Assembler)
    (length : UInt16)
    (payload : List UInt8) :
    a.feed (a.profile.opening length payload) =
      (.ok (a.accept ⟨length.toNat, 1, #[]⟩ payload).1,
        (a.accept ⟨length.toNat, 1, #[]⟩ payload).2) := by
  unfold feed Profile.opening
  rw [openFrame_framed]
  simp only [if_true, Slices.splitWord_bytes16]

/- A continuation is of no use to an idle assembler. -/
theorem feed_continuation_of_idle
    (p : Profile)
    {index : UInt16}
    (hIndex : index ≠ 0)
    (payload : List UInt8) :
    feed ⟨p, none⟩ (p.framed index payload) =
      (.error (.unexpectedContinuation index), ⟨p, none⟩) := by
  unfold feed
  simp only [openFrame_framed, if_neg hIndex]

/- A continuation that comes next adds its payload. -/
theorem feed_continuation_of_next
    (p : Profile)
    (m : Partial)
    (hIndex : m.next ≠ 0)
    (payload : List UInt8) :
    feed ⟨p, some m⟩ (p.framed m.next payload) =
      (.ok (accept ⟨p, none⟩
          { m with next := m.next + 1 } payload).1,
        (accept ⟨p, none⟩
          { m with next := m.next + 1 } payload).2) := by
  unfold feed
  simp only [openFrame_framed, if_neg hIndex, if_true]

/- Any other continuation ends the message in progress. -/
theorem feed_continuation_of_gap
    (p : Profile)
    (m : Partial)
    {index : UInt16}
    (hIndex : index ≠ 0)
    (hGap : index ≠ m.next)
    (payload : List UInt8) :
    feed ⟨p, some m⟩ (p.framed index payload) =
      (.error (.sequenceGap m.next index), ⟨p, none⟩) := by
  unfold feed
  simp only [openFrame_framed, if_neg hIndex, if_neg hGap]

/- A frame that cannot be read changes nothing. -/
theorem feed_of_illegible
    (a : Assembler)
    {frame : List UInt8}
    (hIllegible : ¬ a.profile.Legible frame) :
    ∃ e, e.isRefusal = true ∧
      a.feed frame = (.error e, a) := by
  unfold feed
  cases hOpen : openFrame a.profile frame with
  | error e => exact ⟨e, isRefusal_of_openFrame hOpen, rfl⟩
  | ok parts =>
      rcases parts with ⟨index, body⟩
      have hFrame := (openFrame_eq_ok_iff _ _ _ _).mp hOpen
      by_cases hIndex : index = 0
      · cases hSplit : splitWord body with
        | error e =>
            refine ⟨e, ?_, ?_⟩
            · rw [splitWord_eq_error hSplit]
              rfl
            · simp only [if_pos hIndex, hSplit]
        | ok parts =>
            rcases parts with ⟨length, payload⟩
            have hBody := (splitWord_eq_ok_iff _ _ _).mp hSplit
            rw [hFrame, hIndex, hBody] at hIllegible
            exact absurd (.opening length payload) hIllegible
      · rw [hFrame] at hIllegible
        exact absurd (.continuation hIndex body) hIllegible

/- A frame that can be read is not refused. -/
theorem isRefusal_of_feed
    (a : Assembler)
    {frame : List UInt8}
    (hLegible : a.profile.Legible frame)
    {e : FrameError}
    (hError : (a.feed frame).1 = .error e) :
    e.isRefusal = false := by
  rcases a with ⟨p, current⟩
  cases hLegible with
  | opening length payload =>
      have hFeed := feed_opening ⟨p, current⟩ length payload
      rw [hFeed] at hError
      cases hError
  | continuation hIndex payload =>
      rename_i index
      cases current with
      | none =>
          rw [feed_continuation_of_idle p hIndex] at hError
          cases hError
          rfl
      | some m =>
          by_cases hNext : index = m.next
          · subst hNext
            rw [feed_continuation_of_next p m hIndex] at hError
            cases hError
          · rw [feed_continuation_of_gap p m hIndex hNext]
              at hError
            cases hError
            rfl

/- Whether the answer to a frame is a refusal. -/
def refuses (a : Assembler) (frame : List UInt8) : Bool :=
  match (a.feed frame).1 with
  | .error e => e.isRefusal
  | .ok _ => false

/- Exactly the frames that cannot be read are refused. -/
theorem refuses_iff
    (a : Assembler)
    (frame : List UInt8) :
    a.refuses frame = true ↔ ¬ a.profile.Legible frame := by
  constructor
  · intro hRefused hLegible
    unfold refuses at hRefused
    split at hRefused
    · rename_i e hError
      rw [a.isRefusal_of_feed hLegible hError] at hRefused
      cases hRefused
    · cases hRefused
  · intro hIllegible
    rcases a.feed_of_illegible hIllegible with
      ⟨e, hRefusal, hFeed⟩
    unfold refuses
    rw [hFeed]
    exact hRefusal

end Assembler

instance (p : Profile) : DecidablePred p.Legible := fun frame =>
  decidable_of_iff
    (¬ (Assembler.ofProfile p).refuses frame = true)
    (by
      rw [Assembler.refuses_iff, Classical.not_not]
      exact Iff.rfl)

end DeviceSession
