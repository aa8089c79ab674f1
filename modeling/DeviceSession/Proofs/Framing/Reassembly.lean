import DeviceSession.Proofs.Framing.Slices

/-
  Frames of whole messages, fed one after another.

  An assembler follows a message being cut: what it has
  buffered and what is not yet cut make up the message.
  Since all frames but the last are full, no index comes
  twice, and since a first frame starts afresh, nothing of
  what the assembler held before matters.

  Main declarations:
    * `Assembler.Follows`
    * `Assembler.feed_frame_of_more`
    * `Assembler.feed_frame_of_last`
    * `Assembler.feedAll_stream`
-/

------------------------------------------------------------
-- Feeding One Message
------------------------------------------------------------

namespace DeviceSession

namespace Assembler

/-
  The assembler has taken the frames of a message that have
  been cut, with the given payload.  Before the first frame
  it may hold anything.
-/
structure Follows
    (a : Assembler)
    (x : Slices)
    (seen : List UInt8) : Prop where
  profile : a.profile = x.slicer.profile
  unfinished : x.finished = false
  whole : seen.length + x.rest.length = x.length
  bound : x.length ≤ 65535
  full : 3 * x.index.toNat ≤ seen.length + 2
  start : x.index = 0 → seen = []
  current :
    x.index ≠ 0 →
      a.current = some ⟨x.length, x.index, seen.toArray⟩

/- Any assembler follows a message not yet cut. -/
theorem follows_ofMessage
    (a : Assembler)
    (s : Slicer)
    (message : List UInt8)
    (hProfile : a.profile = s.profile)
    (hLength : message.length ≤ 65535) :
    a.Follows (.ofMessage s message) [] where
  profile := hProfile
  unfinished := rfl
  whole := by simp [Slices.ofMessage]
  bound := hLength
  full := by simp [Slices.ofMessage]
  start _ := rfl
  current hIndex := absurd rfl hIndex

/- The index of a next frame does not wrap around. -/
theorem Follows.toNat_advance_index
    {a : Assembler}
    {x : Slices}
    {seen : List UInt8}
    (hFollows : a.Follows x seen) :
    x.advance.index.toNat = x.index.toNat + 1 := by
  have hFull := hFollows.full
  have hWhole := hFollows.whole
  have hBound := hFollows.bound
  rw [Slices.advance_index, UInt16.toNat_add]
  have hOne : (1 : UInt16).toNat = 1 := rfl
  omega

/- What accepting payload comes to, given what is taken. -/
theorem accept_of_take
    (a : Assembler)
    (expected : Nat)
    (next : UInt16)
    (seen payload taken : List UInt8)
    (hTake :
      payload.take (expected - seen.length) = taken) :
    a.accept ⟨expected, next, seen.toArray⟩ payload =
      if (seen ++ taken).length < expected then
        (none, { a with
          current := some
            ⟨expected, next, (seen ++ taken).toArray⟩ })
      else (some (seen ++ taken), a.reset) := by
  subst hTake
  simp [accept]

/-
  Feeding the next frame adds its payload to what has been
  seen, whether the frame is a first one or not.
-/
theorem Follows.feed_frame
    {a : Assembler}
    {x : Slices}
    {seen : List UInt8}
    (hFollows : a.Follows x seen) :
    a.feed x.frame =
      if (seen ++ x.payload).length < x.length then
        (.ok none,
          ⟨a.profile, some
            ⟨x.length, x.index + 1,
              (seen ++ x.payload).toArray⟩⟩)
      else
        (.ok (some (seen ++ x.payload)),
          .ofProfile a.profile) := by
  have hTake :
      (x.payload ++ x.filler).take
        (x.length - seen.length) = x.payload := by
    have hWhole := hFollows.whole
    have hWanted :
        x.length - seen.length = x.rest.length := by
      omega
    rw [hWanted]
    exact x.take_payload_filler
  unfold feed
  rw [hFollows.profile, x.openFrame_frame]
  by_cases hIndex : x.index = 0
  · have hLength :
        (UInt16.ofNat x.length).toNat = x.length := by
      have hBound := hFollows.bound
      rw [UInt16.toNat_ofNat']
      omega
    have hSeen := hFollows.start hIndex
    subst hSeen
    simp only [hIndex, if_true, Slices.splitWord_bytes16,
      hLength]
    rw [accept_of_take a x.length 1 [] _ _ hTake]
    split <;> simp [reset, ofProfile, hFollows.profile]
  · have hCurrent := hFollows.current hIndex
    rcases a with ⟨profile, current⟩
    simp only at hCurrent
    subst hCurrent
    simp only [hIndex, if_false, if_true, List.nil_append]
    rw [accept_of_take _ x.length _ seen _ _ hTake]
    split <;> simp [reset, ofProfile, ← hFollows.profile]

/- A frame with more to come gives nothing. -/
theorem Follows.feed_frame_of_more
    {a : Assembler}
    {x : Slices}
    {seen : List UInt8}
    (hFollows : a.Follows x seen)
    (hMore : x.capacity < x.rest.length) :
    ∃ b : Assembler,
      a.feed x.frame = (.ok none, b) ∧
        b.profile = a.profile ∧
        b.Follows x.advance (seen ++ x.payload) := by
  have hWhole := hFollows.whole
  have hPayload : x.payload.length = x.capacity := by
    rw [Slices.length_payload]
    omega
  have hShort :
      (seen ++ x.payload).length < x.length := by
    rw [List.length_append]
    omega
  have hIndex := hFollows.toNat_advance_index
  refine
    ⟨⟨a.profile, some
        ⟨x.length, x.index + 1,
          (seen ++ x.payload).toArray⟩⟩,
      by rw [hFollows.feed_frame, if_pos hShort], rfl, ?_⟩
  have hRest :
      x.advance.rest.length = x.rest.length - x.capacity :=
    List.length_drop
  constructor
  · exact hFollows.profile
  · have hFinished := x.advance_finished_iff
    cases hAdvance : x.advance.finished with
    | false => rfl
    | true =>
        have hLe := hFinished.mp hAdvance
        omega
  · rw [List.length_append, hRest, Slices.advance_length]
    omega
  · exact hFollows.bound
  · have hFull := hFollows.full
    rw [hIndex, List.length_append, hPayload]
    -- A full first frame has a byte, a later one has three.
    by_cases hZero : x.index = 0
    · have hPos := x.capacity_pos
      have hNat : x.index.toNat = 0 := by rw [hZero]; rfl
      omega
    · have hThree := x.slicer.three_le_nextRoom
      have hCapacity :
          x.capacity = x.slicer.nextRoom := by
        simp [Slices.capacity, hZero]
      omega
  · intro hZero
    rw [hZero] at hIndex
    have hNat : (0 : UInt16).toNat = 0 := rfl
    omega
  · intro _
    rfl

/- The frame that takes all of the rest gives the message. -/
theorem Follows.feed_frame_of_last
    {a : Assembler}
    {x : Slices}
    {seen : List UInt8}
    (hFollows : a.Follows x seen)
    (hLast : x.rest.length ≤ x.capacity) :
    a.feed x.frame =
      (.ok (some (seen ++ x.rest)),
        .ofProfile a.profile) := by
  have hPayload : x.payload = x.rest :=
    List.take_of_length_le hLast
  have hWhole := hFollows.whole
  have hShort :
      ¬ (seen ++ x.payload).length < x.length := by
    rw [hPayload, List.length_append]
    omega
  rw [hFollows.feed_frame, if_neg hShort, hPayload]

/-
  The answers to the frames of a message: nothing until the
  last frame, and the message at the last.
-/
def delivery
    (frames : Nat)
    (message : List UInt8) :
    List (Except FrameError (Option (List UInt8))) :=
  List.replicate (frames - 1) (.ok none) ++
    [.ok (some message)]

theorem delivery_succ
    {frames : Nat}
    (hFrames : frames ≠ 0)
    (message : List UInt8) :
    .ok none :: delivery frames message =
      delivery (frames + 1) message := by
  rcases Nat.exists_eq_succ_of_ne_zero hFrames with ⟨n, rfl⟩
  simp [delivery, List.replicate_succ]

/- The rest of a message being followed is delivered. -/
theorem Follows.feedAll_toList
    {a : Assembler}
    {x : Slices}
    {seen : List UInt8}
    (hFollows : a.Follows x seen) :
    x.toList ≠ [] ∧
      a.feedAll x.toList =
        (delivery x.toList.length (seen ++ x.rest),
          .ofProfile a.profile) := by
  rw [Slices.toList_of_unfinished hFollows.unfinished]
  refine ⟨List.cons_ne_nil _ _, ?_⟩
  by_cases hLast : x.rest.length ≤ x.capacity
  · have hFinished := x.advance_finished_iff.mpr hLast
    simp [feedAll, hFollows.feed_frame_of_last hLast,
      Slices.toList_of_finished hFinished, delivery]
  · have hMore := Nat.lt_of_not_le hLast
    rcases hFollows.feed_frame_of_more hMore with
      ⟨b, hFeed, hProfile, hNext⟩
    have hShorter :
        x.advance.rest.length < x.rest.length := by
      have hPos := x.capacity_pos
      simp only [Slices.advance, List.length_drop]
      omega
    rcases hNext.feedAll_toList with ⟨hSome, hAll⟩
    simp only [feedAll, hFeed, hAll, List.length_cons,
      List.append_assoc, x.payload_append_advance_rest,
      hProfile]
    rw [delivery_succ
      (fun h => hSome (List.eq_nil_of_length_eq_zero h))]
termination_by x.rest.length

------------------------------------------------------------
-- Feeding a Stream of Messages
------------------------------------------------------------

theorem feedAll_append
    (a : Assembler)
    (frames frames' : List (List UInt8)) :
    a.feedAll (frames ++ frames') =
      let first := a.feedAll frames
      let second := first.2.feedAll frames'
      (first.1 ++ second.1, second.2) := by
  induction frames generalizing a with
  | nil => rfl
  | cons frame frames ih =>
      simp [feedAll, ih]

end Assembler

/- Cut a message into frames of the given size. -/
def Profile.cut
    (p : Profile)
    (mtu : Nat)
    (message : List UInt8) :
    Except FrameError (List (List UInt8)) := do
  let s ← Slicer.ofMtu p mtu
  let x ← s.message message
  return x.toList

namespace Assembler

/-
  Cutting a message succeeds, and its frames deliver it to
  any assembler, which is idle after that.
-/
theorem feedAll_cut
    (a : Assembler)
    {mtu : Nat}
    {message : List UInt8}
    (hMtu : a.profile.leastMtu ≤ mtu)
    (hLength : message.length ≤ 65535) :
    ∃ frames : List (List UInt8),
      a.profile.cut mtu message = .ok frames ∧
        a.feedAll frames =
          (delivery frames.length message,
            .ofProfile a.profile) := by
  let s : Slicer := ⟨a.profile, mtu, hMtu⟩
  have hFollows :=
    a.follows_ofMessage s message rfl hLength
  refine ⟨(Slices.ofMessage s message).toList, ?_, ?_⟩
  · simp only [Profile.cut, Slicer.ofMtu, hMtu, dite_true]
    simp [Slicer.message, hLength, s, bind, Except.bind,
      pure, Except.pure]
  · exact hFollows.feedAll_toList.2

/-
  A stream of messages, each cut with its own frame size,
  reaches any assembler message by message: the frames of a
  message give nothing until its last, and the message at
  the last.  After a message the assembler is idle.
-/
theorem feedAll_stream
    (a : Assembler)
    (stream : List (Nat × List UInt8))
    (hStream :
      ∀ x ∈ stream,
        a.profile.leastMtu ≤ x.1 ∧ x.2.length ≤ 65535) :
    ∃ cuts : List (List (List UInt8)),
      stream.mapM (fun x => a.profile.cut x.1 x.2) =
          .ok cuts ∧
        a.feedAll cuts.flatten =
          ((List.zipWith
              (fun frames x => delivery frames.length x.2)
              cuts stream).flatten,
            if stream = [] then a
            else .ofProfile a.profile) := by
  induction stream generalizing a with
  | nil => exact ⟨[], rfl, rfl⟩
  | cons x stream ih =>
      have hHead := hStream x (by simp)
      rcases a.feedAll_cut hHead.1 hHead.2 with
        ⟨frames, hCut, hFeed⟩
      rcases ih (.ofProfile a.profile) (by
          intro y hy
          exact hStream y (by simp [hy])) with
        ⟨cuts, hCuts, hFeeds⟩
      refine ⟨frames :: cuts, ?_, ?_⟩
      · have hProfile :
            (ofProfile a.profile).profile = a.profile := rfl
        rw [hProfile] at hCuts
        simp [List.mapM_cons, hCut, hCuts, bind,
          Except.bind, pure, Except.pure]
      · simp only [List.flatten_cons, List.zipWith_cons_cons,
          feedAll_append, hFeed, hFeeds]
        simp [ofProfile]

/-
  A long message in small frames, then an empty one, reach an
  assembler that is in the middle of another message.
-/
theorem feedAll_stream_interrupting :
    let a : Assembler := ⟨.hid 7, some ⟨9, 1, #[1, 2]⟩⟩
    let stream : List (Nat × List UInt8) :=
      [(9, [10, 20, 30, 40, 50]), (64, [])]
    (∀ x ∈ stream,
        a.profile.leastMtu ≤ x.1 ∧ x.2.length ≤ 65535) ∧
      ∃ cuts : List (List (List UInt8)),
        stream.mapM (fun x => a.profile.cut x.1 x.2) =
            .ok cuts ∧
          a.feedAll cuts.flatten =
            ((List.zipWith
                (fun frames x => delivery frames.length x.2)
                cuts stream).flatten,
              if stream = [] then a
              else .ofProfile a.profile) :=
  have hStream :
      ∀ x ∈ ([(9, [10, 20, 30, 40, 50]), (64, [])] :
          List (Nat × List UInt8)),
        (Profile.hid 7).leastMtu ≤ x.1 ∧
          x.2.length ≤ 65535 := by
    decide
  ⟨hStream,
    feedAll_stream ⟨.hid 7, some ⟨9, 1, #[1, 2]⟩⟩ _ hStream⟩

end Assembler

end DeviceSession
