import DeviceSession.Frame.Assembler
import DeviceSession.Frame.Slicer

/-
  What each frame of a message consists of.

  A frame is a header, payload and filler.  The filler is
  there only when the payload is the rest of the message,
  and the header reads back as the index of the frame.

  Main declarations:
    * `Slices.toList_of_unfinished`
    * `Slices.advance_finished_iff`
    * `Slices.take_payload_filler`
    * `Slices.openFrame_frame`
-/

------------------------------------------------------------
-- Parts of a Frame
------------------------------------------------------------

namespace DeviceSession

namespace Slicer

/- A first frame leaves room for a byte, a later for three. -/
theorem three_le_nextRoom (s : Slicer) :
    3 ≤ s.nextRoom := by
  have hMin := s.min_le
  simp only [Profile.leastMtu, Profile.firstHeaderLength]
    at hMin
  simp only [nextRoom]
  omega

end Slicer

namespace Slices

/- The message bytes in the next frame. -/
def payload (x : Slices) : List UInt8 :=
  x.rest.take x.capacity

/- The zeros at the end of the next frame. -/
def filler (x : Slices) : List UInt8 :=
  if x.slicer.profile.padding then
    List.replicate
      (x.slicer.mtu - (x.header ++ x.payload).length) 0
  else []

/- The next frame. -/
def frame (x : Slices) : List UInt8 :=
  x.header ++ x.payload ++ x.filler

/- The message without its next frame. -/
def advance (x : Slices) : Slices :=
  { x with
    rest := x.rest.drop x.capacity
    index := x.index + 1
    finished := (x.rest.drop x.capacity).isEmpty }

/- The frames still to be cut begin with the next one. -/
theorem toList_of_next
    {x y : Slices}
    {frame : List UInt8}
    (hNext : x.next? = some (frame, y)) :
    x.toList = frame :: y.toList := by
  rw [toList]
  split
  · rename_i hNone
    rw [hNone] at hNext
    cases hNext
  · rename_i hSome
    rw [hSome] at hNext
    cases hNext
    rfl

theorem toList_of_none
    {x : Slices}
    (hNone : x.next? = none) :
    x.toList = [] := by
  rw [toList]
  split
  · rfl
  · rename_i hSome
    rw [hSome] at hNone
    cases hNone

theorem next?_of_unfinished
    {x : Slices}
    (hUnfinished : x.finished = false) :
    x.next? = some (x.frame, x.advance) := by
  simp only [next?, hUnfinished, Bool.false_eq_true,
    if_false, Option.some.injEq, Prod.mk.injEq]
  refine ⟨?_, rfl⟩
  simp only [frame, filler, payload, pad]
  split <;> simp

/- The frames of an unfinished message, one by one. -/
theorem toList_of_unfinished
    {x : Slices}
    (hUnfinished : x.finished = false) :
    x.toList = x.frame :: x.advance.toList :=
  toList_of_next (next?_of_unfinished hUnfinished)

@[simp] theorem toList_of_finished
    {x : Slices}
    (hFinished : x.finished = true) :
    x.toList = [] := by
  apply toList_of_none
  unfold next?
  rw [if_pos hFinished]

/- The last frame is the one that takes all of the rest. -/
theorem advance_finished_iff (x : Slices) :
    x.advance.finished = true ↔
      x.rest.length ≤ x.capacity := by
  simp [advance]

@[simp] theorem advance_slicer (x : Slices) :
    x.advance.slicer = x.slicer := rfl

@[simp] theorem advance_length (x : Slices) :
    x.advance.length = x.length := rfl

@[simp] theorem advance_index (x : Slices) :
    x.advance.index = x.index + 1 := rfl

theorem payload_append_advance_rest (x : Slices) :
    x.payload ++ x.advance.rest = x.rest :=
  List.take_append_drop _ _

theorem length_payload (x : Slices) :
    x.payload.length = min x.capacity x.rest.length :=
  List.length_take

------------------------------------------------------------
-- Headers
------------------------------------------------------------

/- A header is as long as the profile says. -/
theorem length_header (x : Slices) :
    x.header.length =
      if x.index = 0 then x.slicer.profile.firstHeaderLength
      else x.slicer.profile.headerLength := by
  simp only [header, Profile.firstHeaderLength,
    Profile.headerLength]
  cases x.slicer.profile.channel <;>
    by_cases hIndex : x.index = 0 <;>
      simp [hIndex, Word.length_bytes16]

/- A frame is full when its header and payload fill it. -/
theorem length_header_add_capacity (x : Slices) :
    x.header.length + x.capacity = x.slicer.mtu := by
  have hMin := x.slicer.min_le
  simp only [Profile.leastMtu, Profile.firstHeaderLength]
    at hMin
  rw [length_header]
  by_cases hIndex : x.index = 0
  · simp only [capacity, hIndex, if_true, Slicer.firstRoom,
      Profile.firstHeaderLength]
    omega
  · simp only [capacity, hIndex, if_false, Slicer.nextRoom]
    omega

/- A frame with more of the message to come has no filler. -/
theorem filler_of_more
    {x : Slices}
    (hMore : x.capacity < x.rest.length) :
    x.filler = [] := by
  have hFull := x.length_header_add_capacity
  have hPayload := x.length_payload
  unfold filler
  split
  · simp only [List.length_append, hPayload]
    rw [Nat.min_eq_left (Nat.le_of_lt hMore), hFull]
    simp
  · rfl

/-
  Who takes no more than the rest of the message out of
  payload and filler gets payload only.
-/
theorem take_payload_filler (x : Slices) :
    (x.payload ++ x.filler).take x.rest.length =
      x.payload := by
  by_cases hMore : x.capacity < x.rest.length
  · rw [filler_of_more hMore, List.append_nil]
    apply List.take_of_length_le
    rw [length_payload]
    exact Nat.min_le_right _ _
  · have hAll : x.payload = x.rest :=
      List.take_of_length_le (Nat.le_of_not_lt hMore)
    rw [hAll]
    exact List.take_left

theorem splitWord_bytes16
    (w : UInt16)
    (rest : List UInt8) :
    Assembler.splitWord (Word.bytes16 w ++ rest) =
      .ok (w, rest) := by
  simp only [Assembler.splitWord, Word.bytes16,
    List.cons_append, List.nil_append, Word.of16_bytes16]

/- Past the channel, a frame of ours has a tag and an index. -/
theorem openFrame_of_openChannel
    {p : Profile}
    {frame rest : List UInt8}
    (hChannel :
      Assembler.openChannel p frame =
        .ok (Profile.apduTag :: rest)) :
    Assembler.openFrame p frame =
      Assembler.splitWord rest := by
  unfold Assembler.openFrame
  rw [hChannel]
  rfl

/-
  The header of a frame reads back as its index; after the
  index of a first frame comes the length of the message.
-/
theorem openFrame_frame (x : Slices) :
    Assembler.openFrame x.slicer.profile x.frame =
      .ok (x.index,
        (if x.index = 0 then
          Word.bytes16 (UInt16.ofNat x.length)
        else []) ++ (x.payload ++ x.filler)) := by
  have hChannel :
      Assembler.openChannel x.slicer.profile x.frame =
        .ok (Profile.apduTag ::
          (Word.bytes16 x.index ++
            ((if x.index = 0 then
              Word.bytes16 (UInt16.ofNat x.length)
            else []) ++ (x.payload ++ x.filler)))) := by
    unfold Assembler.openChannel
    cases hChannel : x.slicer.profile.channel with
    | none => simp [frame, header, hChannel]
    | some channel =>
        simp only [frame, header, hChannel, Option.elim,
          List.append_assoc, List.cons_append]
        rw [splitWord_bytes16]
        simp [bind, Except.bind]
  rw [openFrame_of_openChannel hChannel, splitWord_bytes16]

end Slices

end DeviceSession
