import DeviceSession.Proofs.Framing.Slices

/-
  The frames of a message by number.

  Where the payload of a frame begins is known from its
  number.  So is what is left of the message once so many
  frames have been cut, which tells when the last of them
  has been, how many there are, and that their numbers never
  run out.

  Key definitions include:
    * `Slicer.start`
    * `Slices.pulls`
    * `Slices.after`

  Main declarations:
    * `Slicer.framesIn_le_succ_iff`
    * `Slices.advance_after`
    * `Slices.toList_ofMessage`
    * `Slices.remaining_after`
    * `Slices.pulls_ofMessage`
    * `Slices.flatten_payloads`
-/

------------------------------------------------------------
-- Beginnings of Payloads
------------------------------------------------------------

namespace DeviceSession

namespace Slicer

/- Where in a message the payload of a frame begins. -/
def start (s : Slicer) : Nat → Nat
  | 0 => 0
  | i + 1 => s.firstRoom + i * s.nextRoom

variable (s : Slicer) (n i : Nat)

theorem start_succ :
    s.start (i + 1) = s.firstRoom + i * s.nextRoom := rfl

theorem start_lt_succ : s.start i < s.start (i + 1) := by
  have hFirst := s.firstRoom_pos
  have hNext := s.nextRoom_pos
  cases i with
  | zero => simp [start, hFirst]
  | succ i =>
      simp only [start, Nat.add_mul, Nat.one_mul]
      omega

theorem le_start : i ≤ s.start i := by
  induction i with
  | zero => exact Nat.zero_le _
  | succ i ih =>
      exact Nat.lt_of_le_of_lt ih (s.start_lt_succ i)

theorem framesIn_pos : 0 < s.framesIn n := by
  unfold framesIn
  split <;> omega

theorem framesNeeded_le_iff
    {c : Nat}
    (hPos : 0 < c) :
    framesNeeded n c ≤ i ↔ n ≤ i * c := by
  rw [framesNeeded, ← Nat.lt_succ_iff, Nat.div_lt_iff_lt_mul hPos,
    Nat.succ_mul]
  omega

/- So many frames are enough if they end past the message. -/
theorem framesIn_le_succ_iff :
    s.framesIn n ≤ i + 1 ↔ n ≤ s.start (i + 1) := by
  have hNext := s.nextRoom_pos
  have hRest :=
    framesNeeded_le_iff (n - s.firstRoom) i hNext
  rw [start_succ]
  unfold framesIn
  split
  · constructor <;> omega
  · rw [Nat.add_comm 1, Nat.add_le_add_iff_right, hRest]
    omega

theorem lt_framesIn_iff :
    i + 1 < s.framesIn n ↔ s.start (i + 1) < n := by
  rw [← Nat.not_le, framesIn_le_succ_iff, Nat.not_le]

/- After a first frame, the others are counted down. -/
theorem framesNeeded_after :
    framesNeeded (n - s.start (i + 1)) s.nextRoom =
      s.framesIn n - (i + 1) := by
  have hNext := s.nextRoom_pos
  have hLe : ∀ k,
      framesNeeded (n - s.start (i + 1)) s.nextRoom ≤ k ↔
        s.framesIn n - (i + 1) ≤ k := by
    intro k
    have hAll := s.framesIn_le_succ_iff n (i + k)
    rw [framesNeeded_le_iff _ _ hNext, Nat.sub_le_iff_le_add,
      Nat.sub_le_iff_le_add,
      show k + (i + 1) = i + k + 1 by omega, hAll, start_succ,
      start_succ, Nat.add_mul]
    omega
  exact Nat.le_antisymm ((hLe _).mpr (Nat.le_refl _))
    ((hLe _).mp (Nat.le_refl _))

/- Two bytes number the frames of any message. -/
theorem framesIn_le_of_le
    (hLength : n ≤ 65535) :
    s.framesIn n ≤ 65536 := by
  rw [framesIn_le_succ_iff]
  exact Nat.le_trans hLength
    (Nat.le_of_succ_le (s.le_start 65536))

end Slicer

------------------------------------------------------------
-- Lengths of Frames
------------------------------------------------------------

namespace Slices

section Length

variable (x : Slices)

theorem length_header_add_payload_le :
    (x.header ++ x.payload).length ≤ x.slicer.mtu := by
  have hFull := x.length_header_add_capacity
  have hPayload := x.length_payload
  rw [List.length_append]
  omega

theorem length_frame_le : x.frame.length ≤ x.slicer.mtu := by
  have hParts := x.length_header_add_payload_le
  rw [frame, List.length_append, filler]
  split
  · rw [List.length_replicate]
    omega
  · simpa using hParts

theorem length_frame_of_padding
    (hPadding : x.slicer.profile.padding = true) :
    x.frame.length = x.slicer.mtu := by
  have hParts := x.length_header_add_payload_le
  rw [frame, List.length_append, filler, if_pos hPadding,
    List.length_replicate]
  omega

/- Filler is what a frame is padded with. -/
theorem frame_eq_pad :
    x.frame = pad x.slicer (x.header ++ x.payload) := by
  rw [frame, filler, pad]
  split
  · rfl
  · exact List.append_nil _

/- A frame is full if the message is enough for it. -/
theorem length_frame_of_full
    (hFull : x.capacity ≤ x.rest.length) :
    x.frame.length = x.slicer.mtu := by
  have hCapacity := x.length_header_add_capacity
  have hPayload := x.length_payload
  have hLe := x.length_frame_le
  have hParts :
      (x.header ++ x.payload).length ≤ x.frame.length :=
    (List.sublist_append_left _ x.filler).length_le
  rw [List.length_append] at hParts
  omega

end Length

------------------------------------------------------------
-- Pulling Frames
------------------------------------------------------------

/-
  One frame is asked for, if there is one.  It comes with the
  number of frames to come, as it was before.
-/
def pull (x : Slices) :
    (Nat × Option (List UInt8)) × Slices :=
  match x.next? with
  | none => ((x.remaining, none), x)
  | some (frame, y) => ((x.remaining, some frame), y)

/- So many frames are asked for, one after another. -/
def pulls (x : Slices) :
    Nat → List (Nat × Option (List UInt8))
  | 0 => []
  | k + 1 => x.pull.1 :: x.pull.2.pulls k

------------------------------------------------------------
-- Messages After Some Frames
------------------------------------------------------------

/- A message of which so many frames have been cut. -/
def after (s : Slicer) (message : List UInt8) (i : Nat) :
    Slices where
  slicer := s
  length := message.length
  rest := message.drop (s.start i)
  index := UInt16.ofNat i
  finished := decide (s.framesIn message.length ≤ i)

section After

variable {s : Slicer} {message : List UInt8} {i : Nat}

theorem after_zero : after s message 0 = ofMessage s message := by
  have hPos := s.framesIn_pos message.length
  simp [after, ofMessage, Slicer.start]
  omega

theorem toNat_index_after
    (hNumbered : i < 65536) :
    (after s message i).index.toNat = i := by
  rw [after, UInt16.toNat_ofNat']
  omega

theorem index_after_eq_zero_iff
    (hNumbered : i < 65536) :
    (after s message i).index = 0 ↔ i = 0 := by
  rw [← UInt16.toNat_inj, toNat_index_after hNumbered]
  rfl

/- Payloads follow one another without a gap. -/
theorem start_add_capacity
    (hNumbered : i < 65536) :
    s.start i + (after s message i).capacity = s.start (i + 1) := by
  have hZero : (after s message i).index = 0 ↔ i = 0 :=
    index_after_eq_zero_iff hNumbered
  cases i with
  | zero => simp [capacity, Slicer.start, after]
  | succ i =>
      simp only [capacity, hZero, Nat.succ_ne_zero, if_false]
      simp only [after, Slicer.start, Nat.add_mul, Nat.one_mul]
      omega

theorem advance_after
    (hNumbered : i < 65536) :
    (after s message i).advance = after s message (i + 1) := by
  have hStart :
      s.start i + (after s message i).capacity = s.start (i + 1) :=
    start_add_capacity hNumbered
  have hRest :
      (after s message i).rest.drop (after s message i).capacity =
        message.drop (s.start (i + 1)) := by
    rw [← hStart, ← List.drop_drop]
    rfl
  have hFinished :
      (message.drop (s.start (i + 1))).isEmpty =
        decide (s.framesIn message.length ≤ i + 1) := by
    rw [Bool.eq_iff_iff]
    simp [s.framesIn_le_succ_iff]
  simp only [advance, hRest, hFinished]
  simp [after, UInt16.ofNat_add]

/- The frames still to be cut, in order. -/
theorem toList_after
    (hLength : message.length ≤ 65535)
    (i : Nat) :
    (after s message i).toList =
      (List.range' i (s.framesIn message.length - i)).map fun j =>
        (after s message j).frame := by
  have hCount := s.framesIn_le_of_le message.length hLength
  by_cases hMore : i < s.framesIn message.length
  · have hUnfinished : (after s message i).finished = false := by
      simp [after, hMore]
    have hSplit :
        s.framesIn message.length - i =
          (s.framesIn message.length - (i + 1)) + 1 := by
      omega
    rw [toList_of_unfinished hUnfinished,
      advance_after (by omega), toList_after hLength (i + 1), hSplit,
      List.range'_succ, List.map_cons]
  · have hFinished : (after s message i).finished = true := by
      simpa [after] using hMore
    have hNone : s.framesIn message.length - i = 0 := by omega
    rw [toList_of_finished hFinished, hNone]
    rfl
termination_by s.framesIn message.length - i

/- The frames of a message by their numbers. -/
theorem toList_ofMessage
    (hLength : message.length ≤ 65535) :
    (ofMessage s message).toList =
      (List.range (s.framesIn message.length)).map fun i =>
        (after s message i).frame := by
  rw [← after_zero, toList_after hLength 0, Nat.sub_zero,
    List.range_eq_range']

/- What has been counted down to when so many are cut. -/
theorem remaining_after
    (hLength : message.length ≤ 65535)
    (hCut : i ≤ s.framesIn message.length) :
    (after s message i).remaining =
      s.framesIn message.length - i := by
  have hCount := s.framesIn_le_of_le message.length hLength
  by_cases hMore : i < s.framesIn message.length
  · have hUnfinished : (after s message i).finished = false := by
      simp [after, hMore]
    have hZero : (after s message i).index = 0 ↔ i = 0 :=
      index_after_eq_zero_iff (by omega)
    rw [remaining, hUnfinished]
    simp only [Bool.false_eq_true, if_false, hZero]
    cases i with
    | zero => simp [after]
    | succ i =>
        simp only [after, List.length_drop, Nat.succ_ne_zero,
          if_false]
        exact s.framesNeeded_after message.length i
  · have hFinished : (after s message i).finished = true := by
      simpa [after] using hMore
    rw [remaining, if_pos hFinished]
    omega

/- The frames of a message one by one. -/
theorem getElem?_toList_ofMessage
    (hLength : message.length ≤ 65535) :
    (ofMessage s message).toList[i]? =
      if i < s.framesIn message.length then
        some (after s message i).frame
      else none := by
  rw [toList_ofMessage hLength, List.getElem?_map]
  split
  · rename_i hMore
    rw [List.getElem?_range hMore, Option.map_some]
  · rename_i hAll
    rw [List.getElem?_eq_none (by simpa using hAll),
      Option.map_none]

/- The next pull, also when all the frames have been cut. -/
theorem pull_after
    (hLength : message.length ≤ 65535) :
    (after s message
        (min i (s.framesIn message.length))).pull =
      ((s.framesIn message.length - i,
          (ofMessage s message).toList[i]?),
        after s message
          (min (i + 1) (s.framesIn message.length))) := by
  have hCount := s.framesIn_le_of_le message.length hLength
  have hRemaining :
      (after s message
          (min i (s.framesIn message.length))).remaining =
        s.framesIn message.length - i := by
    rw [remaining_after hLength (Nat.min_le_right _ _)]
    omega
  rw [pull, hRemaining, getElem?_toList_ofMessage hLength]
  by_cases hMore : i < s.framesIn message.length
  · have hUnfinished : (after s message i).finished = false := by
      simpa [after] using hMore
    rw [if_pos hMore, Nat.min_eq_left (Nat.le_of_lt hMore),
      next?_of_unfinished hUnfinished, advance_after (by omega),
      Nat.min_eq_left hMore]
  · have hCut := Nat.le_of_not_lt hMore
    have hNone :
        (after s message (s.framesIn message.length)).next? =
          none := by
      simp [next?, after]
    rw [if_neg hMore, Nat.min_eq_right hCut,
      Nat.min_eq_right (Nat.le_succ_of_le hCut), hNone]

/- From any frame on, the pulls go through the frames. -/
theorem pulls_after
    (hLength : message.length ≤ 65535)
    (k : Nat) :
    (after s message
        (min i (s.framesIn message.length))).pulls k =
      (List.range' i k).map fun j =>
        (s.framesIn message.length - j,
          (ofMessage s message).toList[j]?) := by
  induction k generalizing i with
  | zero => rfl
  | succ k ih =>
      rw [pulls, pull_after hLength, ih, List.range'_succ,
        List.map_cons]

/- All the frames come out, one by one, and then nothing. -/
theorem pulls_ofMessage
    (hLength : message.length ≤ 65535)
    (k : Nat) :
    (ofMessage s message).pulls k =
      (List.range k).map fun i =>
        (s.framesIn message.length - i,
          (ofMessage s message).toList[i]?) := by
  have hPulls := pulls_after (s := s) (i := 0) hLength k
  rwa [Nat.zero_min, after_zero, ← List.range_eq_range']
    at hPulls

/- A frame that is not the last one is full. -/
theorem capacity_le_of_more
    (hNumbered : i < 65536)
    (hMore : i + 1 < s.framesIn message.length) :
    (after s message i).capacity ≤
      (after s message i).rest.length := by
  have hStart :
      s.start i + (after s message i).capacity = s.start (i + 1) :=
    start_add_capacity hNumbered
  have hEnd := (s.lt_framesIn_iff message.length i).mp hMore
  have hRest :
      (after s message i).rest.length =
        message.length - s.start i :=
    List.length_drop
  omega

/- The payloads so far are the message up to here. -/
theorem flatten_payloads_eq_take
    (hNumbered : i ≤ 65536) :
    ((List.range i).map fun j =>
        (after s message j).payload).flatten =
      message.take (s.start i) := by
  induction i with
  | zero => rfl
  | succ i ih =>
      have hLater := ih (Nat.le_of_succ_le hNumbered)
      have hStart :
          s.start i + (after s message i).capacity =
            s.start (i + 1) :=
        start_add_capacity hNumbered
      rw [List.range_succ, List.map_append, List.flatten_append,
        hLater, ← hStart, List.take_add]
      simp [payload, after]

/- All of them are the message. -/
theorem flatten_payloads
    (hLength : message.length ≤ 65535) :
    ((List.range (s.framesIn message.length)).map fun j =>
        (after s message j).payload).flatten =
      message := by
  have hCount := s.framesIn_le_of_le message.length hLength
  have hPos := s.framesIn_pos message.length
  rw [flatten_payloads_eq_take hCount]
  apply List.take_of_length_le
  rcases Nat.exists_eq_succ_of_ne_zero (Nat.ne_of_gt hPos) with
    ⟨last, hLast⟩
  rw [hLast]
  exact (s.framesIn_le_succ_iff message.length last).mp
    (Nat.le_of_eq hLast)

end After

end Slices

end DeviceSession
