import DeviceSession.Frame.Mtu
import DeviceSession.Proofs.Framing.Verdict
import DeviceSession.Proofs.Framing.Reassembly

/-
  Messages on the way.

  An assembler expects a message when the frames that are
  still to come make up the rest of it.  Each frame but the
  last keeps the expectation, and the last one meets it.

  Key definitions include:
    * `Assembler.Expects`
    * `Slicer.frames`
    * `Profile.Mistakable`

  Main declarations:
    * `Apdu.decode?_encode`
    * `Response.ofMessage_encode`
    * `Assembler.expects_message`
    * `Assembler.Expects.feedResponse`
    * `Slicer.isSizeFrame_iff`
-/

------------------------------------------------------------
-- Wire Forms
------------------------------------------------------------

namespace DeviceSession

/- A command reads back from its wire form. -/
theorem Apdu.decode?_encode (a : Apdu) :
    Apdu.decode? a.encode = some a := by
  have hLength :
      (UInt8.ofNat a.data.length).toNat = a.data.length := by
    have hBound := a.data_le
    rw [UInt8.toNat_ofNat']
    simp only [maxPayload] at hBound
    omega
  simp [decode?, encode, hLength, ofPayload, a.data_le,
    Except.toOption]

theorem Apdu.length_encode_le (a : Apdu) :
    a.encode.length ≤ 65535 := by
  have hBound := a.data_le
  rw [a.length_encode, encodedLength, headerLength]
  simp only [maxPayload] at hBound
  omega

namespace Response

theorem length_encode (r : Response) :
    r.encode.length = r.data.length + 2 := by
  simp [encode, Word.length_bytes16]

/- A response reads back from its wire form. -/
theorem decode?_encode (r : Response) :
    Response.decode? r.encode = some r := by
  have hLength : r.encode.length - 2 = r.data.length := by
    rw [r.length_encode, Nat.add_sub_cancel]
  have hDrop :
      r.encode.drop r.data.length =
        Word.bytes16 r.status.code := by
    rw [encode, List.drop_left]
  have hTake : r.encode.take r.data.length = r.data := by
    rw [encode, List.take_left]
  simp only [decode?, hLength, hDrop, hTake]
  rw [Word.bytes16]
  simp only [Word.of16_bytes16]

theorem ofMessage_encode (r : Response) :
    Response.ofMessage r.encode = .ok r := by
  rw [ofMessage, r.decode?_encode]

end Response

------------------------------------------------------------
-- Expected Messages
------------------------------------------------------------

theorem Slicer.profile_eq_of_ofMtu
    {p : Profile}
    {mtu : Nat}
    {s : Slicer}
    (hSlicer : Slicer.ofMtu p mtu = .ok s) :
    s.profile = p := by
  unfold ofMtu at hSlicer
  split at hSlicer <;> cases hSlicer
  rfl

/- All frames of a message. -/
def Slicer.frames
    (s : Slicer)
    (message : List UInt8) : List (List UInt8) :=
  (Slices.ofMessage s message).toList

namespace Assembler

/- The frames are just enough for a message. -/
inductive Expects :
    Assembler → List (List UInt8) → List UInt8 → Prop where
  | last
      {a b : Assembler}
      {frame message : List UInt8}
      (feed_eq : a.feed frame = (.ok (some message), b)) :
      Expects a [frame] message
  | more
      {a b : Assembler}
      {frame message : List UInt8}
      {frames : List (List UInt8)}
      (feed_eq : a.feed frame = (.ok none, b))
      (rest : Expects b frames message) :
      Expects a (frame :: frames) message

theorem Expects.ne_nil
    {a : Assembler}
    {frames : List (List UInt8)}
    {message : List UInt8}
    (hExpects : a.Expects frames message) :
    frames ≠ [] := by
  cases hExpects <;> simp

/- The rest of a message that is followed is expected. -/
theorem Follows.expects
    {a : Assembler}
    {x : Slices}
    {seen : List UInt8}
    (hFollows : a.Follows x seen) :
    a.Expects x.toList (seen ++ x.rest) := by
  rw [Slices.toList_of_unfinished hFollows.unfinished]
  by_cases hLast : x.rest.length ≤ x.capacity
  · have hFinished := x.advance_finished_iff.mpr hLast
    rw [Slices.toList_of_finished hFinished]
    exact .last (hFollows.feed_frame_of_last hLast)
  · have hMore := Nat.lt_of_not_le hLast
    rcases hFollows.feed_frame_of_more hMore with
      ⟨b, hFeed, -, hNext⟩
    have hShorter :
        x.advance.rest.length < x.rest.length := by
      have hPos := x.capacity_pos
      simp only [Slices.advance, List.length_drop]
      omega
    have hRest := hNext.expects
    rw [List.append_assoc, x.payload_append_advance_rest]
      at hRest
    exact .more hFeed hRest
termination_by x.rest.length

/- Any assembler of the profile expects a message whole. -/
theorem expects_message
    (a : Assembler)
    (s : Slicer)
    {message : List UInt8}
    (hProfile : a.profile = s.profile)
    (hLength : message.length ≤ 65535) :
    a.Expects (s.frames message) message :=
  (a.follows_ofMessage s message hProfile hLength).expects

/-
  The next frame of a response that is expected: either the
  rest is expected then, or this was all of it.
-/
theorem Expects.feedResponse
    {a : Assembler}
    {frame : List UInt8}
    {frames : List (List UInt8)}
    {r : Response}
    (hExpects : a.Expects (frame :: frames) r.encode) :
    (∃ b, a.feedResponse frame = (.ok none, b) ∧
      b.Expects frames r.encode) ∨
    frames = [] ∧
      ∃ b, a.feedResponse frame = (.ok (some r), b) := by
  cases hExpects with
  | @last _ b _ _ hFeed =>
      refine .inr ⟨rfl, b, ?_⟩
      rw [Assembler.feedResponse, hFeed]
      simp only [r.ofMessage_encode]
      rfl
  | more hFeed hRest =>
      refine .inl ⟨_, ?_, hRest⟩
      rw [Assembler.feedResponse, hFeed]

end Assembler

------------------------------------------------------------
-- Frames That Carry Messages
------------------------------------------------------------

/- What holds of every next frame holds of all of them. -/
theorem Slices.forall_mem_toList
    (P : List UInt8 → Prop)
    (s : Slicer)
    (hFrame : ∀ x : Slices, x.slicer = s → P x.frame)
    (x : Slices)
    (hSlicer : x.slicer = s) :
    ∀ frame ∈ x.toList, P frame := by
  cases hFinished : x.finished with
  | true => simp [hFinished]
  | false =>
      have hNext := next?_of_unfinished hFinished
      have hLess := measure_next? hNext
      rw [toList_of_next hNext]
      intro frame hMem
      rcases List.mem_cons.mp hMem with rfl | hLater
      · exact hFrame x hSlicer
      · exact forall_mem_toList P s hFrame x.advance hSlicer
          frame hLater
termination_by x.measure

/-
  Whether frames of a profile look as if they were about the
  frame size: the channel in front begins with that tag.
-/
def Profile.Mistakable (p : Profile) : Prop :=
  ∃ ch ∈ p.channel, ch.toNat / 256 = Mtu.tag.toNat

instance (p : Profile) : Decidable p.Mistakable := by
  unfold Profile.Mistakable
  infer_instance

theorem Slices.isSizeFrame_frame_iff (x : Slices) :
    Mtu.IsSizeFrame x.frame ↔ x.slicer.profile.Mistakable := by
  unfold Mtu.IsSizeFrame Profile.Mistakable
  cases hChannel : x.slicer.profile.channel with
  | none =>
      simp [frame, header, hChannel, Profile.apduTag, Mtu.tag]
  | some ch =>
      have hHead :
          x.frame.head? =
            some (UInt8.ofNat (ch.toNat / 256)) := by
        simp [frame, header, hChannel, Word.bytes16]
      have hSmall : ch.toNat / 256 < 256 := by
        have hLess := ch.toNat_lt
        omega
      rw [hHead, Option.some_inj, ← UInt8.toNat_inj,
        UInt8.toNat_ofNat', Nat.mod_eq_of_lt hSmall]
      simp

/- All frames of a message look so, or none does. -/
theorem Slicer.isSizeFrame_iff
    (s : Slicer)
    (message : List UInt8) :
    ∀ frame ∈ s.frames message,
      Mtu.IsSizeFrame frame ↔ s.profile.Mistakable := by
  apply Slices.forall_mem_toList
    (fun frame =>
      Mtu.IsSizeFrame frame ↔ s.profile.Mistakable) s _ _ rfl
  intro x hSlicer
  rw [x.isSizeFrame_frame_iff, hSlicer]

/- Without a channel, frames are not about the frame size. -/
theorem Slicer.not_isSizeFrame
    {s : Slicer}
    (hChannel : s.profile.channel = none)
    (message : List UInt8) :
    ∀ frame ∈ s.frames message, ¬ Mtu.IsSizeFrame frame := by
  intro frame hMem
  rw [s.isSizeFrame_iff message frame hMem]
  simp [Profile.Mistakable, hChannel]

end DeviceSession
