import DeviceSession.Proofs.Bytes.Checked
import DeviceSession.Proofs.Framing.Layout
import DeviceSession.Proofs.Framing.Numbering

/-
  Messages that are cut where they are stored.

  A cutter keeps the whole message and the offset up to which
  it has been cut.  It counts the frames to come in one way
  before the first of them and in another one later, and its
  differences, sums, quotients and slices may fault, and so
  may setting aside the room for a frame.

  None of them does, if there is room for a frame at all.
  One frame after another comes out, as many as were counted,
  each with its number, and nothing ever after.  A size that
  no memory has room for is accepted, and messages of that
  size are counted, but the first frame never comes.

  Key definitions include:
    * `Cutter`
    * `Cutter.framesIn?`
    * `Cutter.remaining?`
    * `Cutter.next?`
    * `Cutter.pulls?`
    * `Slicer.CutsExactly`

  Main declarations:
    * `Cutter.next?_after`
    * `Cutter.remaining?_after`
    * `Cutter.pulls?_ofMessage`
    * `Cutter.next?_of_large`
    * `Slicer.cuts_exactly`
-/

------------------------------------------------------------
-- Cutters
------------------------------------------------------------

namespace DeviceSession

/- A message, cut up to some offset. -/
structure Cutter where
  slicer : Slicer
  message : List UInt8
  offset : Nat := 0
  /- The index of the next frame. -/
  index : UInt16 := 0
  /- The last frame has been cut. -/
  finished : Bool := false
deriving DecidableEq

namespace Cutter

open Checked

/- A message of which nothing has been cut. -/
def ofMessage (s : Slicer) (message : List UInt8) : Cutter :=
  { slicer := s, message }

def firstRoom? (s : Slicer) : Option Nat :=
  sub? s.mtu s.profile.firstHeaderLength

def nextRoom? (s : Slicer) : Option Nat :=
  sub? s.mtu s.profile.headerLength

/- The number of frames of a message of `n` bytes. -/
def framesIn? (s : Slicer) (n : Nat) : Option Nat := do
  let first ← firstRoom? s
  if n ≤ first then return 1
  else
    let later ← ceilDiv? (← sub? n first) (← nextRoom? s)
    add? 1 later

/- The number of frames not yet cut. -/
def remaining? (c : Cutter) : Option Nat :=
  if c.finished then some 0
  else if c.index = 0 then framesIn? c.slicer c.message.length
  else do
    let left ← sub? c.message.length c.offset
    ceilDiv? left (← nextRoom? c.slicer)

/- A frame that is cut or filled up to the given length. -/
def resize (frame : List UInt8) (n : Nat) : List UInt8 :=
  frame.take n ++ List.replicate (n - frame.length) 0

/- The bytes in front of the payload with a number. -/
def head (s : Slicer) (length : Nat) (index : UInt16) :
    List UInt8 :=
  s.profile.channel.elim [] Word.bytes16 ++
    Profile.apduTag :: Word.bytes16 index ++
    (if index = 0 then Word.bytes16 (UInt16.ofNat length)
    else [])

/- The payload of the next frame, if it is full. -/
def room? (c : Cutter) : Option Nat :=
  if c.index = 0 then firstRoom? c.slicer
  else nextRoom? c.slicer

/- The next frame, if there is one, and the cutter then. -/
def next? (c : Cutter) : Option (Option (List UInt8) × Cutter) :=
  if c.finished then some (none, c)
  else do
    c.slicer.reserve.toOption
    let stop :=
      min (← add? c.offset (← c.room?)) c.message.length
    let payload ← slice? c.message c.offset stop
    let frame := head c.slicer c.message.length c.index ++ payload
    return (
      some (if c.slicer.profile.padding then
        resize frame c.slicer.mtu else frame),
      { c with
        offset := stop
        index := c.index + 1
        finished := decide (c.message.length ≤ stop) })

/- One frame is asked for, and before it how many come. -/
def pull? (c : Cutter) :
    Option ((Nat × Option (List UInt8)) × Cutter) := do
  let before ← c.remaining?
  let (frame, c') ← c.next?
  return ((before, frame), c')

/- So many frames are asked for, one after another. -/
def pulls? (c : Cutter) :
    Nat → Option (List (Nat × Option (List UInt8)))
  | 0 => some []
  | k + 1 => do
      let (first, c') ← c.pull?
      let later ← c'.pulls? k
      return first :: later

end Cutter

------------------------------------------------------------
-- Room in a Frame
------------------------------------------------------------

namespace Slicer

variable (s : Slicer)

theorem firstHeaderLength_le :
    s.profile.firstHeaderLength ≤ s.mtu :=
  Nat.le_of_succ_le s.min_le

theorem headerLength_le : s.profile.headerLength ≤ s.mtu :=
  Nat.le_trans (Nat.le_add_right _ 2) s.firstHeaderLength_le

theorem nextRoom_eq : s.nextRoom = s.firstRoom + 2 := by
  have hHeader := s.firstHeaderLength_le
  simp only [Profile.firstHeaderLength] at hHeader
  simp only [nextRoom, firstRoom, Profile.firstHeaderLength]
  omega

end Slicer

------------------------------------------------------------
-- Cutters After Some Frames
------------------------------------------------------------

namespace Cutter

open Checked

theorem firstRoom?_eq (s : Slicer) :
    firstRoom? s = some s.firstRoom :=
  sub?_of_le s.firstHeaderLength_le

theorem nextRoom?_eq (s : Slicer) :
    nextRoom? s = some s.nextRoom :=
  sub?_of_le s.headerLength_le

/- A cutter that has cut so many frames. -/
def after (s : Slicer) (message : List UInt8) (i : Nat) :
    Cutter where
  slicer := s
  message
  offset := min (s.start i) message.length
  index := UInt16.ofNat i
  finished := decide (s.framesIn message.length ≤ i)

section After

variable {s : Slicer} {message : List UInt8} {i : Nat}

theorem after_zero : after s message 0 = ofMessage s message := by
  have hPos := s.framesIn_pos message.length
  simp [after, ofMessage, Slicer.start]
  omega

/- Before the last frame is cut, no payload begins outside. -/
theorem start_le_length
    (hMore : i < s.framesIn message.length) :
    s.start i ≤ message.length := by
  cases i with
  | zero => exact Nat.zero_le _
  | succ i =>
      exact Nat.le_of_lt
        ((s.lt_framesIn_iff message.length i).mp hMore)

theorem offset_after
    (hMore : i < s.framesIn message.length) :
    (after s message i).offset = s.start i :=
  Nat.min_eq_left (start_le_length hMore)

theorem framesIn?_eq
    (hLength : message.length ≤ 65535) :
    framesIn? s message.length =
      some (s.framesIn message.length) := by
  have hCount := s.framesIn_le_of_le message.length hLength
  simp only [framesIn?, firstRoom?_eq, nextRoom?_eq, bind,
    Option.bind]
  unfold Slicer.framesIn at hCount ⊢
  split
  · rfl
  · rename_i hLong
    rw [if_neg hLong] at hCount
    rw [sub?_of_le (Nat.le_of_lt (Nat.lt_of_not_le hLong))]
    simp only [ceilDiv?_of_pos _ s.nextRoom_pos]
    apply add?_of_lt
    simp only [Slicer.framesNeeded] at hCount
    unfold wordSize
    omega

theorem index_after_eq_zero_iff
    (hNumbered : i < 65536) :
    (after s message i).index = 0 ↔ i = 0 := by
  have hZero : (Slices.after s message i).index = 0 ↔ i = 0 :=
    Slices.index_after_eq_zero_iff hNumbered
  exact hZero

theorem finished_after_of_more
    (hMore : i < s.framesIn message.length) :
    (after s message i).finished = false := by
  simpa [after] using hMore

theorem finished_after_of_all
    (hAll : s.framesIn message.length ≤ i) :
    (after s message i).finished = true := by
  simpa [after] using hAll

/- What is left is counted, however far the message is cut. -/
theorem remaining?_after
    (hLength : message.length ≤ 65535)
    (hCut : i ≤ s.framesIn message.length) :
    (after s message i).remaining? =
      some (s.framesIn message.length - i) := by
  have hCount := s.framesIn_le_of_le message.length hLength
  by_cases hMore : i < s.framesIn message.length
  · have hZero : (after s message i).index = 0 ↔ i = 0 :=
      index_after_eq_zero_iff (by omega)
    have hStart := start_le_length hMore
    rw [remaining?, finished_after_of_more hMore,
      offset_after hMore]
    simp only [Bool.false_eq_true, if_false, hZero]
    cases i with
    | zero => exact framesIn?_eq hLength
    | succ i =>
        have hNeeded := s.framesNeeded_after message.length i
        rw [← hNeeded]
        simp only [Nat.succ_ne_zero, if_false, after,
          sub?_of_le hStart, nextRoom?_eq, bind, Option.bind,
          ceilDiv?_of_pos _ s.nextRoom_pos, Slicer.framesNeeded]
  · rw [remaining?, finished_after_of_all (Nat.le_of_not_lt hMore),
      if_pos rfl, Nat.le_antisymm hCut (Nat.le_of_not_lt hMore),
      Nat.sub_self]

/- The room in the next frame. -/
theorem room_after :
    (after s message i).room? =
      some (Slices.after s message i).capacity := by
  have hIndex :
      (Slices.after s message i).index =
        (after s message i).index := rfl
  rw [room?, Slices.capacity, hIndex, firstRoom?_eq,
    nextRoom?_eq]
  split <;> rfl

/- An offset never leaves the numbers of a machine. -/
theorem start_succ_lt_wordSize
    (hRoom : s.mtu ≤ Slicer.mostRoom)
    (hLength : message.length ≤ 65535)
    (hMore : i < s.framesIn message.length) :
    s.start (i + 1) < wordSize := by
  unfold Slicer.mostRoom at hRoom
  unfold wordSize
  cases i with
  | zero =>
      simp only [Slicer.start_succ, Slicer.firstRoom]
      omega
  | succ i =>
      have hStart :=
        (s.lt_framesIn_iff message.length i).mp hMore
      have hNext := s.nextRoom_eq
      simp only [Slicer.start_succ, Nat.add_mul, Nat.one_mul]
        at hStart ⊢
      omega

/- Header and payload fit, so that nothing is cut off. -/
theorem resize_eq
    (x : Slices) :
    (if x.slicer.profile.padding then
        resize (x.header ++ x.payload) x.slicer.mtu
      else x.header ++ x.payload) = x.frame := by
  have hParts := x.length_header_add_payload_le
  rw [Slices.frame, Slices.filler]
  split
  · rw [resize, List.take_of_length_le hParts]
  · rw [List.append_nil]

/- What comes of the next frame if no part of it faults. -/
theorem next?_of_parts
    {c : Cutter}
    {room stop : Nat}
    {payload : List UInt8}
    (hUnfinished : c.finished = false)
    (hReserve : c.slicer.reserve = .ok ())
    (hRoom : c.room? = some room)
    (hSum : add? c.offset room = some stop)
    (hSlice :
      slice? c.message c.offset (min stop c.message.length) =
        some payload) :
    c.next? =
      let frame :=
        head c.slicer c.message.length c.index ++ payload
      some (
        some (if c.slicer.profile.padding then
          resize frame c.slicer.mtu else frame),
        { c with
          offset := min stop c.message.length
          index := c.index + 1
          finished := decide
            (c.message.length ≤ min stop c.message.length) }) := by
  simp only [next?, hUnfinished, Bool.false_eq_true, if_false,
    hReserve, Except.toOption, hRoom, hSum, hSlice, bind,
    Option.bind, pure]

/- The next frame is the one with the next number. -/
theorem next?_after
    (hRoom : s.mtu ≤ Slicer.mostRoom)
    (hLength : message.length ≤ 65535)
    (hMore : i < s.framesIn message.length) :
    (after s message i).next? =
      some (some (Slices.after s message i).frame,
        after s message (i + 1)) := by
  have hCount := s.framesIn_le_of_le message.length hLength
  have hNumbered : i < 65536 := by omega
  have hStart := start_le_length hMore
  have hCapacity :
      s.start i + (Slices.after s message i).capacity =
        s.start (i + 1) :=
    Slices.start_add_capacity hNumbered
  have hEnd := start_succ_lt_wordSize hRoom hLength hMore
  have hSum :
      add? (after s message i).offset
          (Slices.after s message i).capacity =
        some (s.start (i + 1)) := by
    rw [offset_after hMore, add?_of_lt (hCapacity ▸ hEnd),
      hCapacity]
  have hSlice :
      slice? message (after s message i).offset
          (min (s.start (i + 1)) message.length) =
        some (Slices.after s message i).payload := by
    rw [offset_after hMore,
      slice?_of_le (by omega) (Nat.min_le_right _ _)]
    refine congrArg some (List.take_eq_take_iff.mpr ?_)
    rw [List.length_drop]
    omega
  have hFinished :
      decide (message.length ≤
          min (s.start (i + 1)) message.length) =
        decide (s.framesIn message.length ≤ i + 1) := by
    rw [decide_eq_decide, s.framesIn_le_succ_iff]
    omega
  have hNext := next?_of_parts (finished_after_of_more hMore)
    (Slicer.reserve_of_le hRoom) room_after hSum hSlice
  refine hNext.trans ?_
  simp only [Option.some.injEq, Prod.mk.injEq]
  refine ⟨resize_eq (Slices.after s message i), ?_⟩
  simp only [after, UInt16.ofNat_add, Cutter.mk.injEq, true_and]
  exact ⟨rfl, hFinished⟩

/- A cutter that has cut everything stays as it is. -/
theorem next?_after_of_all
    (hAll : s.framesIn message.length ≤ i) :
    (after s message i).next? =
      some (none, after s message i) := by
  rw [next?, if_pos (finished_after_of_all hAll)]

/- A pull goes as if nothing were stored. -/
theorem pull?_after
    (hRoom : s.mtu ≤ Slicer.mostRoom)
    (hLength : message.length ≤ 65535)
    (i : Nat) :
    (after s message
        (min i (s.framesIn message.length))).pull? =
      some (
        (Slices.after s message
          (min i (s.framesIn message.length))).pull.1,
        after s message
          (min (i + 1) (s.framesIn message.length))) := by
  have hRemaining :
      (after s message
          (min i (s.framesIn message.length))).remaining? =
        some (s.framesIn message.length - i) := by
    rw [remaining?_after hLength (Nat.min_le_right _ _)]
    congr 1
    omega
  rw [Slices.pull_after hLength,
    Slices.getElem?_toList_ofMessage hLength]
  simp only [pull?, hRemaining, bind, Option.bind]
  by_cases hMore : i < s.framesIn message.length
  · rw [Nat.min_eq_left (Nat.le_of_lt hMore),
      next?_after hRoom hLength hMore, Nat.min_eq_left hMore,
      if_pos hMore]
    rfl
  · have hCut := Nat.le_of_not_lt hMore
    rw [Nat.min_eq_right hCut,
      next?_after_of_all (Nat.le_refl _),
      Nat.min_eq_right (Nat.le_succ_of_le hCut), if_neg hMore]
    rfl

theorem pulls?_after
    (hRoom : s.mtu ≤ Slicer.mostRoom)
    (hLength : message.length ≤ 65535)
    (i k : Nat) :
    (after s message
        (min i (s.framesIn message.length))).pulls? k =
      some ((Slices.after s message
        (min i (s.framesIn message.length))).pulls k) := by
  induction k generalizing i with
  | zero => rfl
  | succ k ih =>
      have hNext :
          (Slices.after s message
              (min i (s.framesIn message.length))).pull.2 =
            Slices.after s message
              (min (i + 1) (s.framesIn message.length)) := by
        rw [Slices.pull_after hLength]
      rw [Slices.pulls, hNext]
      simp only [pulls?, pull?_after hRoom hLength, ih, bind,
        Option.bind, pure]

/- Whatever is asked of a cutter, none of its steps faults. -/
theorem pulls?_ofMessage
    (hRoom : s.mtu ≤ Slicer.mostRoom)
    (hLength : message.length ≤ 65535)
    (k : Nat) :
    (ofMessage s message).pulls? k =
      some ((Slices.ofMessage s message).pulls k) := by
  have hPulls := pulls?_after hRoom hLength 0 k
  rwa [Nat.zero_min, after_zero, Slices.after_zero] at hPulls

/-
  Where no memory has room for a frame, the next one faults
  until all are cut.
-/
theorem next?_of_large
    {c : Cutter}
    (hLarge : Slicer.mostRoom < c.slicer.mtu)
    (hUnfinished : c.finished = false) :
    c.next? = none := by
  simp only [next?, hUnfinished, Bool.false_eq_true, if_false,
    Slicer.reserve_of_lt hLarge, Except.toOption, bind, Option.bind]

end After

end Cutter

------------------------------------------------------------
-- Exact Cutting
------------------------------------------------------------

namespace Slicer

/- The payload of a full frame with the given number. -/
def room (s : Slicer) : Nat → Nat
  | 0 => s.firstRoom
  | _ + 1 => s.nextRoom

/- The frame with the given number and payload. -/
def framed
    (s : Slicer)
    (length i : Nat)
    (payload : List UInt8) : List UInt8 :=
  Slices.pad s (s.profile.framed (UInt16.ofNat i)
    ((if i = 0 then Word.bytes16 (UInt16.ofNat length)
      else []) ++ payload))

/- A message is counted and then cut into as many frames. -/
structure CutsExactly
    (s : Slicer)
    (message : List UInt8) : Prop where
  counted :
    Cutter.framesIn? s message.length =
      some (s.framesIn message.length)
  /- There is room for every frame. -/
  roomy : ∀ x : Slices,
    x.slicer = s → x.cut = .ok x.next?
  /- No step on the stored message faults. -/
  faultless : ∀ k,
    (Cutter.ofMessage s message).pulls? k =
      some ((Slices.ofMessage s message).pulls k)
  /- What is yet to come is counted down, and then nothing. -/
  pulled : ∀ k,
    (Slices.ofMessage s message).pulls k =
      (List.range k).map fun i =>
        (s.framesIn message.length - i,
          (Slices.ofMessage s message).toList[i]?)
  complete :
    (Slices.ofMessage s message).toList.length =
      s.framesIn message.length
  /- Every frame reads back with its own number. -/
  numbered : ∀ i frame,
    (Slices.ofMessage s message).toList[i]? = some frame →
      i < 65536 ∧
      ∃ body,
        Assembler.openFrame s.profile frame =
          .ok (UInt16.ofNat i, body)
  bounded : ∀ frame ∈ (Slices.ofMessage s message).toList,
    frame.length ≤ s.mtu
  padded : s.profile.padding = true →
    ∀ frame ∈ (Slices.ofMessage s message).toList,
      frame.length = s.mtu
  full : ∀ i frame,
    (Slices.ofMessage s message).toList[i]? = some frame →
      i + 1 < s.framesIn message.length →
        frame.length = s.mtu
  /- The payloads are the message, and all full but the last. -/
  sliced : ∃ payloads : List (List UInt8),
    payloads.flatten = message ∧
    (Slices.ofMessage s message).toList =
      payloads.mapIdx (s.framed message.length) ∧
    ∀ i payload,
      payloads[i]? = some payload →
        i + 1 < payloads.length →
          payload.length = s.room i

/- A message is counted, and then not cut. -/
structure CutsNothing
    (s : Slicer)
    (message : List UInt8) : Prop where
  counted :
    Cutter.framesIn? s message.length =
      some (s.framesIn message.length)
  awaited : 0 < s.framesIn message.length
  /- The first frame faults, stored or not. -/
  faults :
    (Cutter.ofMessage s message).next? = none ∧
      (Slices.ofMessage s message).cut =
        .error .capacityOverflow

section Exact

variable {s : Slicer} {message : List UInt8} {i : Nat}

theorem mem_toList_ofMessage
    (hLength : message.length ≤ 65535)
    {frame : List UInt8}
    (hFrame : frame ∈ (Slices.ofMessage s message).toList) :
    ∃ i, i < s.framesIn message.length ∧
      (Slices.after s message i).frame = frame := by
  rw [Slices.toList_ofMessage hLength] at hFrame
  simpa using hFrame

theorem of_getElem?_toList_ofMessage
    (hLength : message.length ≤ 65535)
    {frame : List UInt8}
    (hFrame :
      (Slices.ofMessage s message).toList[i]? = some frame) :
    i < s.framesIn message.length ∧
      (Slices.after s message i).frame = frame := by
  rw [Slices.getElem?_toList_ofMessage hLength] at hFrame
  split at hFrame
  · rename_i hMore
    exact ⟨hMore, Option.some.inj hFrame⟩
  · cases hFrame

theorem capacity_after
    (hNumbered : i < 65536) :
    (Slices.after s message i).capacity = s.room i := by
  have hZero : (Slices.after s message i).index = 0 ↔ i = 0 :=
    Slices.index_after_eq_zero_iff hNumbered
  simp only [Slices.capacity, hZero]
  cases i <;> rfl

theorem frame_after
    (hNumbered : i < 65536) :
    (Slices.after s message i).frame =
      s.framed message.length i
        (Slices.after s message i).payload := by
  have hZero : (Slices.after s message i).index = 0 ↔ i = 0 :=
    Slices.index_after_eq_zero_iff hNumbered
  have hParts :
      (Slices.after s message i).header ++
          (Slices.after s message i).payload =
        s.profile.framed (UInt16.ofNat i)
          ((if i = 0 then
              Word.bytes16 (UInt16.ofNat message.length)
            else []) ++ (Slices.after s message i).payload) := by
    simp only [Slices.header, hZero, Profile.framed,
      Profile.lead]
    simp [Slices.after]
  rw [framed, ← hParts]
  exact Slices.frame_eq_pad _

/- The payloads in order make up the message. -/
theorem sliced_ofMessage
    (hLength : message.length ≤ 65535) :
    ∃ payloads : List (List UInt8),
      payloads.flatten = message ∧
      (Slices.ofMessage s message).toList =
        payloads.mapIdx (s.framed message.length) ∧
      ∀ i payload,
        payloads[i]? = some payload →
          i + 1 < payloads.length →
            payload.length = s.room i := by
  have hCount := s.framesIn_le_of_le message.length hLength
  refine ⟨(List.range (s.framesIn message.length)).map fun i =>
    (Slices.after s message i).payload, ?_, ?_, ?_⟩
  · exact Slices.flatten_payloads hLength
  · apply List.ext_getElem?
    intro i
    rw [Slices.getElem?_toList_ofMessage hLength,
      List.getElem?_mapIdx, List.getElem?_map]
    split
    · rename_i hMore
      rw [List.getElem?_range hMore, Option.map_some,
        Option.map_some, frame_after (by omega)]
    · rename_i hAll
      rw [List.getElem?_eq_none (by simpa using hAll),
        Option.map_none, Option.map_none]
  · intro i payload hPayload hMore
    rw [List.length_map, List.length_range] at hMore
    rw [List.getElem?_map,
      List.getElem?_range (Nat.lt_of_succ_lt hMore),
      Option.map_some, Option.some.injEq] at hPayload
    rw [← hPayload, Slices.length_payload,
      Nat.min_eq_left
        (Slices.capacity_le_of_more (by omega) hMore),
      capacity_after (by omega)]

theorem cutsExactly_of_le
    (hRoom : s.mtu ≤ mostRoom)
    (hLength : message.length ≤ 65535) :
    s.CutsExactly message where
  counted := Cutter.framesIn?_eq hLength
  roomy := by
    rintro x rfl
    exact Slices.cut_of_le hRoom
  faultless := Cutter.pulls?_ofMessage hRoom hLength
  pulled := Slices.pulls_ofMessage hLength
  complete := by
    rw [Slices.toList_ofMessage hLength, List.length_map,
      List.length_range]
  numbered := by
    intro i frame hFrame
    rcases of_getElem?_toList_ofMessage hLength hFrame with
      ⟨hMore, rfl⟩
    have hCount := s.framesIn_le_of_le message.length hLength
    exact ⟨by omega, _,
      Slices.openFrame_frame (Slices.after s message i)⟩
  bounded := by
    intro frame hFrame
    rcases mem_toList_ofMessage hLength hFrame with ⟨i, _, rfl⟩
    exact Slices.length_frame_le _
  padded := by
    intro hPadding frame hFrame
    rcases mem_toList_ofMessage hLength hFrame with ⟨i, _, rfl⟩
    exact Slices.length_frame_of_padding _ hPadding
  full := by
    intro i frame hFrame hLater
    rcases of_getElem?_toList_ofMessage hLength hFrame with
      ⟨_, rfl⟩
    have hCount := s.framesIn_le_of_le message.length hLength
    exact Slices.length_frame_of_full _
      (Slices.capacity_le_of_more (by omega) hLater)
  sliced := sliced_ofMessage hLength

theorem cutsNothing_of_lt
    (hLarge : mostRoom < s.mtu)
    (hLength : message.length ≤ 65535) :
    s.CutsNothing message where
  counted := Cutter.framesIn?_eq hLength
  awaited := s.framesIn_pos message.length
  faults :=
    ⟨Cutter.next?_of_large hLarge rfl,
      Slices.cut_of_large hLarge rfl⟩

end Exact

/-
  Any size that a profile can work with cuts any message that
  two bytes can measure, if some memory has room for a frame.
  A larger one cuts nothing.
-/
theorem cuts_exactly
    {p : Profile}
    {mtu : Nat}
    {s : Slicer}
    (hSlicer : Slicer.ofMtu p mtu = .ok s)
    {message : List UInt8}
    (hLength : message.length ≤ 65535) :
    s.profile = p ∧
    s.mtu = mtu ∧
    s.message message = .ok (Slices.ofMessage s message) ∧
    (mtu ≤ mostRoom → s.CutsExactly message) ∧
    (mostRoom < mtu → s.CutsNothing message) := by
  unfold ofMtu at hSlicer
  split at hSlicer
  · cases hSlicer
    refine ⟨rfl, rfl, ?_, fun hRoom => ?_, fun hLarge => ?_⟩
    · rw [Slicer.message, if_pos hLength]
    · exact cutsExactly_of_le hRoom hLength
    · exact cutsNothing_of_lt hLarge hLength
  · cases hSlicer

end Slicer

/- Reports of nine bytes, two of them for six bytes. -/
namespace Reports

def nine : Slicer :=
  ⟨Profile.hid Profile.hidChannel, 9, by decide⟩

def message : List UInt8 :=
  [1, 2, 3, 4, 5, 6]

theorem six_bytes_cut :
    Slicer.ofMtu (Profile.hid Profile.hidChannel) 9 = .ok nine ∧
    message.length ≤ 65535 ∧
    9 ≤ Slicer.mostRoom ∧
    (Cutter.ofMessage nine message).pulls? 3 =
      some
        [(2, some [1, 1, 5, 0, 0, 0, 6, 1, 2]),
          (1, some [1, 1, 5, 0, 1, 3, 4, 5, 6]),
          (0, none)] ∧
    nine.CutsExactly message := by
  have hSlicer :
      Slicer.ofMtu (Profile.hid Profile.hidChannel) 9 =
        .ok nine := rfl
  have hLength : message.length ≤ 65535 := by decide
  have hRoom : 9 ≤ Slicer.mostRoom := by decide
  rcases Slicer.cuts_exactly hSlicer hLength with
    ⟨_, _, _, hCuts, _⟩
  exact ⟨hSlicer, hLength, hRoom, by decide +kernel,
    hCuts hRoom⟩

end Reports

/- A frame size of one byte more than there can be room for. -/
namespace Oversize

def slicer : Slicer :=
  ⟨Profile.ble, 9223372036854775808, by decide⟩

/-
  The size is a number of the machine and is accepted, and
  one frame is counted for two bytes; it never comes.
-/
theorem first_frame_faults :
    9223372036854775808 < Checked.wordSize ∧
    Slicer.ofMtu Profile.ble 9223372036854775808 =
      .ok slicer ∧
    slicer.message [0xaa, 0xbb] =
      .ok (Slices.ofMessage slicer [0xaa, 0xbb]) ∧
    Cutter.framesIn? slicer 2 = some 1 ∧
    (Cutter.ofMessage slicer [0xaa, 0xbb]).remaining? =
      some 1 ∧
    (Cutter.ofMessage slicer [0xaa, 0xbb]).next? = none ∧
    (Slices.ofMessage slicer [0xaa, 0xbb]).cut =
      .error .capacityOverflow := by
  refine ⟨by decide, rfl, rfl, by decide, by decide,
    by decide, ?_⟩
  exact Slices.cut_of_large (by decide) rfl

end Oversize

end DeviceSession
