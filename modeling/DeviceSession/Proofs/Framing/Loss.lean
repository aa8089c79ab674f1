import DeviceSession.Proofs.Framing.Delivery

/-
  Frames of one message that are lost, repeated or moved.

  The frames of a message are told apart by their indices, so
  that frames taken from them make up a message only if they
  are all of them, in order.  What comes in at the wrong place
  is answered with an error.

  Key definitions include:
    * `FrameError.isOutOfOrder`

  Main declarations:
    * `Assembler.Follows.frames_toList`
    * `Profile.prefix_of_run`
    * `Assembler.feedAll_lossy`
-/

------------------------------------------------------------
-- Cut Messages
------------------------------------------------------------

namespace DeviceSession

namespace Assembler

/- The next frame of a message, with what its body is. -/
theorem frame_eq_framed (x : Slices) :
    x.frame =
      x.slicer.profile.framed x.index
        ((if x.index = 0 then
          Word.bytes16 (UInt16.ofNat x.length)
        else []) ++ (x.payload ++ x.filler)) :=
  (openFrame_eq_ok_iff _ _ _ _).mp x.openFrame_frame

/- It goes on with the frames that have been cut. -/
theorem frames_concat_frame
    {x : Slices}
    {done : List (List UInt8)}
    (hIndex : x.index.toNat = done.length) :
    x.slicer.profile.frames (UInt16.ofNat x.length)
        (done ++ [x.payload ++ x.filler]) =
      x.slicer.profile.frames (UInt16.ofNat x.length) done ++
        [x.frame] := by
  have hOfNat : UInt16.ofNat done.length = x.index := by
    rw [← hIndex, UInt16.ofNat_toNat]
  rw [frame_eq_framed]
  by_cases hDone : done = []
  · subst hDone
    have hZero : x.index = 0 := hOfNat.symm
    rw [if_pos hZero, hZero]
    rfl
  · have hNonzero : x.index ≠ 0 := by
      intro hZero
      rw [hZero] at hIndex
      exact hDone (List.eq_nil_of_length_eq_zero hIndex.symm)
    rw [Profile.frames_concat _ _ hDone, hOfNat,
      if_neg hNonzero, List.nil_append]

/- The last frame of a message fills its length. -/
theorem Follows.fills_last
    {a : Assembler}
    {x : Slices}
    {seen : List UInt8}
    (hFollows : a.Follows x seen)
    {done : List (List UInt8)}
    (hSeen : done.flatten = seen)
    (hIndex : x.index.toNat = done.length)
    (hShort : done ≠ [] → seen.length < x.length)
    (hLast : x.rest.length ≤ x.capacity) :
    Fills (UInt16.ofNat x.length)
        (done ++ [x.payload ++ x.filler]) ∧
      (done ++ [x.payload ++ x.filler]).flatten.take
          x.length =
        seen ++ x.rest := by
  have hWhole := hFollows.whole
  have hBound := hFollows.bound
  have hFull := hFollows.full
  have hPayload : x.payload = x.rest :=
    List.take_of_length_le hLast
  have hFlat :
      (done ++ [x.payload ++ x.filler]).flatten =
        seen ++ x.rest ++ x.filler := by
    rw [List.flatten_concat, hSeen, hPayload,
      List.append_assoc]
  have hLength :
      (UInt16.ofNat x.length).toNat = x.length := by
    rw [UInt16.toNat_ofNat']
    omega
  refine ⟨⟨by simp, ?_, ?_, ?_⟩, ?_⟩
  · rw [List.length_append, List.length_singleton]
    omega
  · rw [hFlat, hLength, List.length_append,
      List.length_append]
    omega
  · rw [List.dropLast_concat, hSeen, hLength]
    exact hShort
  · rw [hFlat, ← hWhole, ← List.length_append]
    exact List.take_left

/-
  The frames of a message that has been cut so far, and those
  still to be cut, are the frames of payloads that fill its
  length, and that begin with it.
-/
theorem Follows.frames_toList
    {a : Assembler}
    {x : Slices}
    {seen : List UInt8}
    (hFollows : a.Follows x seen)
    (done : List (List UInt8))
    (hSeen : done.flatten = seen)
    (hIndex : x.index.toNat = done.length)
    (hShort : done ≠ [] → seen.length < x.length) :
    ∃ payloads,
      x.slicer.profile.frames (UInt16.ofNat x.length) done ++
            x.toList =
          x.slicer.profile.frames (UInt16.ofNat x.length)
            payloads ∧
        Fills (UInt16.ofNat x.length) payloads ∧
        payloads.flatten.take x.length = seen ++ x.rest := by
  rw [Slices.toList_of_unfinished hFollows.unfinished,
    ← List.singleton_append, ← List.append_assoc,
    ← frames_concat_frame hIndex]
  by_cases hLast : x.rest.length ≤ x.capacity
  · have hFinished := x.advance_finished_iff.mpr hLast
    refine ⟨done ++ [x.payload ++ x.filler], ?_,
      hFollows.fills_last hSeen hIndex hShort hLast⟩
    rw [Slices.toList_of_finished hFinished, List.append_nil]
  · have hMore := Nat.lt_of_not_le hLast
    rcases hFollows.feed_frame_of_more hMore with
      ⟨b, -, -, hNext⟩
    have hFlat :
        (done ++ [x.payload ++ x.filler]).flatten =
          seen ++ x.payload := by
      rw [List.flatten_concat, hSeen,
        Slices.filler_of_more hMore, List.append_nil]
    have hWhole := hFollows.whole
    have hPayload := x.length_payload
    have hPos := x.capacity_pos
    have hRest :
        x.advance.rest.length = x.rest.length - x.capacity :=
      List.length_drop
    have hNumber :
        x.advance.index.toNat =
          (done ++ [x.payload ++ x.filler]).length := by
      rw [hFollows.toNat_advance_index, hIndex,
        List.length_append, List.length_singleton]
    have hShorter :
        (seen ++ x.payload).length < x.advance.length := by
      rw [List.length_append, Slices.advance_length]
      omega
    rcases hNext.frames_toList _ hFlat hNumber
        (fun _ => hShorter) with
      ⟨payloads, hFrames, hFills, hTake⟩
    refine ⟨payloads, hFrames, hFills, ?_⟩
    rw [List.append_assoc, x.payload_append_advance_rest]
      at hTake
    exact hTake
termination_by x.rest.length

end Assembler

/- Cutting a message gives the frames of its payloads. -/
theorem Profile.cut_eq_frames
    (p : Profile)
    {mtu : Nat}
    {message : List UInt8}
    (hMtu : p.leastMtu ≤ mtu)
    (hLength : message.length ≤ 65535) :
    ∃ payloads,
      p.cut mtu message =
          .ok (p.frames (UInt16.ofNat message.length)
            payloads) ∧
        Fills (UInt16.ofNat message.length) payloads ∧
        payloads.flatten.take message.length = message := by
  let s : Slicer := ⟨p, mtu, hMtu⟩
  have hFollows :=
    (Assembler.ofProfile p).follows_ofMessage s message rfl
      hLength
  rcases hFollows.frames_toList [] rfl rfl (absurd rfl) with
    ⟨payloads, hFrames, hFills, hTake⟩
  refine ⟨payloads, ?_, hFills, hTake⟩
  simp only [Profile.cut, Slicer.ofMtu, hMtu, dite_true]
  simp only [Slicer.message, hLength, if_true, bind,
    Except.bind, pure, Except.pure]
  exact congrArg Except.ok hFrames

------------------------------------------------------------
-- Runs of Frames of a Message
------------------------------------------------------------

namespace Profile

/- The frames of a message by their numbers. -/
theorem getElem?_frames
    (p : Profile)
    (length : UInt16)
    (payloads : List (List UInt8))
    (i : Nat) :
    (p.frames length payloads)[i]? =
      payloads[i]?.map fun payload =>
        if i = 0 then p.opening length payload
        else p.framed (UInt16.ofNat i) payload := by
  cases payloads with
  | nil => rfl
  | cons first rest =>
      cases i with
      | zero => rfl
      | succ i => simp [frames, List.getElem?_mapIdx]

/- The first frames of a message are those of a part of it. -/
theorem take_frames
    (p : Profile)
    (length : UInt16)
    (payloads : List (List UInt8))
    (i : Nat) :
    (p.frames length payloads).take i =
      p.frames length (payloads.take i) := by
  apply List.ext_getElem?
  intro j
  rw [List.getElem?_take, getElem?_frames, getElem?_frames,
    List.getElem?_take]
  split <;> rfl

/- A frame of a message is the one with some number. -/
theorem exists_of_mem_frames
    {p : Profile}
    {length : UInt16}
    {payloads : List (List UInt8)}
    {frame : List UInt8}
    (hFrame : frame ∈ p.frames length payloads) :
    ∃ i payload,
      payloads[i]? = some payload ∧
        frame =
          if i = 0 then p.opening length payload
          else p.framed (UInt16.ofNat i) payload := by
  rcases List.getElem?_of_mem hFrame with ⟨i, hAt⟩
  rw [getElem?_frames] at hAt
  rcases Option.map_eq_some_iff.mp hAt with
    ⟨payload, hPayload, rfl⟩
  exact ⟨i, payload, hPayload, rfl⟩

theorem legible_of_mem_frames
    {p : Profile}
    {length : UInt16}
    {payloads : List (List UInt8)}
    (hNumbered : payloads.length ≤ 65536)
    {frame : List UInt8}
    (hFrame : frame ∈ p.frames length payloads) :
    p.Legible frame := by
  rcases exists_of_mem_frames hFrame with
    ⟨i, payload, hPayload, rfl⟩
  rcases List.getElem?_eq_some_iff.mp hPayload with ⟨hi, -⟩
  by_cases hZero : i = 0
  · rw [if_pos hZero]
    exact .opening length payload
  · rw [if_neg hZero]
    exact .continuation
      (ofNat_ne_zero hZero (Nat.lt_of_lt_of_le hi hNumbered))
      payload

/- What begins a list goes on with what comes next in it. -/
theorem concat_prefix
    {payloads init : List (List UInt8)}
    {next : List UInt8}
    (hInit : init <+: payloads)
    (hNext : payloads[init.length]? = some next) :
    init ++ [next] <+: payloads := by
  have hTake : payloads.take (init.length + 1) =
      init ++ [next] := by
    rw [List.take_add_one, hNext,
      ← List.prefix_iff_eq_take.mp hInit]
    rfl
  rw [← hTake]
  exact List.take_prefix _ _

section Runs

variable {p : Profile} {length : UInt16}
variable {payloads : List (List UInt8)}
variable (hNumbered : payloads.length ≤ 65536)
include hNumbered

/- A first frame tells its length and its payload. -/
theorem opening_mem_frames
    {length' : UInt16}
    {payload : List UInt8}
    (hMem :
      p.opening length' payload ∈ p.frames length payloads) :
    length' = length ∧ payloads[0]? = some payload := by
  rcases exists_of_mem_frames hMem with
    ⟨i, payload', hAt, hFrame⟩
  rcases List.getElem?_eq_some_iff.mp hAt with ⟨hi, -⟩
  by_cases hZero : i = 0
  · rw [if_pos hZero] at hFrame
    rcases p.opening_inj hFrame with ⟨rfl, rfl⟩
    rw [hZero] at hAt
    exact ⟨rfl, hAt⟩
  · rw [if_neg hZero] at hFrame
    exact absurd (p.framed_inj hFrame).1.symm
      (ofNat_ne_zero hZero (Nat.lt_of_lt_of_le hi hNumbered))

/- A continuation tells its number and its payload. -/
theorem framed_mem_frames
    {n : Nat}
    (hPos : n ≠ 0)
    (hBound : n < 65536)
    {payload : List UInt8}
    (hMem :
      p.framed (UInt16.ofNat n) payload ∈
        p.frames length payloads) :
    payloads[n]? = some payload := by
  rcases exists_of_mem_frames hMem with
    ⟨i, payload', hAt, hFrame⟩
  rcases List.getElem?_eq_some_iff.mp hAt with ⟨hi, -⟩
  by_cases hZero : i = 0
  · rw [if_pos hZero] at hFrame
    exact absurd (p.framed_inj hFrame).1
      (ofNat_ne_zero hPos hBound)
  · rw [if_neg hZero] at hFrame
    rcases p.framed_inj hFrame with ⟨hIndex, rfl⟩
    have hNat := congrArg UInt16.toNat hIndex
    rw [UInt16.toNat_ofNat', UInt16.toNat_ofNat'] at hNat
    have hSame : n = i := by omega
    rw [hSame]
    exact hAt

/-
  Frames of a message that read as those of a message are the
  first frames of that message.
-/
theorem prefix_of_run
    {length' : UInt16}
    {run : List (List UInt8)}
    (hSome : run ≠ [])
    (hRunNumbered : run.length ≤ 65536)
    (hRun :
      ∀ frame ∈ p.frames length' run,
        frame ∈ p.frames length payloads) :
    length' = length ∧ run <+: payloads := by
  induction run using List.reverseRecOn with
  | nil => exact absurd rfl hSome
  | append_singleton init last ih =>
      by_cases hInit : init = []
      · subst hInit
        rcases opening_mem_frames hNumbered
            (hRun _ List.mem_cons_self) with ⟨rfl, hAt⟩
        exact ⟨rfl, concat_prefix List.nil_prefix hAt⟩
      · rw [p.frames_concat length' hInit] at hRun
        rw [List.length_append, List.length_singleton]
          at hRunNumbered
        have hPos : init.length ≠ 0 := fun h =>
          hInit (List.eq_nil_of_length_eq_zero h)
        have hLast :=
          framed_mem_frames hNumbered hPos hRunNumbered
            (hRun _ List.mem_concat_self)
        have hBefore := ih hInit (by omega)
          fun frame hFrame =>
            hRun frame (List.mem_append_left _ hFrame)
        exact ⟨hBefore.1, concat_prefix hBefore.2 hLast⟩

end Runs

end Profile

/- What fills a length is not the beginning of more. -/
theorem Fills.eq_of_prefix
    {length : UInt16}
    {payloads run : List (List UInt8)}
    (h : Fills length payloads)
    (hRun : Fills length run)
    (hPrefix : run <+: payloads) :
    run = payloads := by
  rcases hPrefix with ⟨rest, rfl⟩
  by_cases hRest : rest = []
  · rw [hRest, List.append_nil]
  · have hSome : run ++ rest.dropLast ≠ [] := by
      simp [hRun.some]
    have hBefore := h.notBefore
    rw [List.dropLast_append_of_ne_nil hRest] at hBefore
    have hShort := hBefore hSome
    have hReached := hRun.reached
    rw [List.flatten_append, List.length_append] at hShort
    omega

/- Of frames of one message, only all of them deliver it. -/
theorem Fills.delivers_iff
    {p : Profile}
    {length : UInt16}
    {payloads : List (List UInt8)}
    (h : Fills length payloads)
    {fed : List (List UInt8)}
    (hFed : ∀ frame ∈ fed, frame ∈ p.frames length payloads)
    (x : List UInt8) :
    p.Delivers fed x ↔
      p.frames length payloads <:+ fed ∧
        x = payloads.flatten.take length.toNat := by
  constructor
  · rintro ⟨length', run, hFills, hRun, rfl⟩
    rcases Profile.prefix_of_run h.numbered hFills.some
        hFills.numbered fun frame hFrame =>
          hFed frame (hRun.subset hFrame) with
      ⟨rfl, hPrefix⟩
    have hSame := h.eq_of_prefix hFills hPrefix
    subst hSame
    exact ⟨hRun, rfl⟩
  · rintro ⟨hRun, rfl⟩
    exact ⟨length, payloads, h, hRun, rfl⟩

/- What is open goes on with the frame of its own number. -/
theorem Fills.take_frames_suffix
    {p : Profile}
    {length length' : UInt16}
    {payloads init : List (List UInt8)}
    (h : Fills length payloads)
    {fed : List (List UInt8)}
    (hFed : ∀ frame ∈ fed, frame ∈ p.frames length payloads)
    (hOpens : p.Opens fed length' init)
    {i : Nat}
    (hi : i < payloads.length)
    (hNonzero : UInt16.ofNat i ≠ 0)
    (hNext : UInt16.ofNat i = UInt16.ofNat init.length) :
    (p.frames length payloads).take i <:+ fed := by
  rcases Profile.prefix_of_run h.numbered hOpens.some
      hOpens.numbered fun frame hFrame =>
        hFed frame (hOpens.run.subset hFrame) with
    ⟨rfl, hPrefix⟩
  have hSame : i = init.length := by
    rw [hNext] at hNonzero
    have hBound :=
      Profile.succ_le_of_ofNat_ne_zero hNonzero
        hOpens.numbered
    have hNumbered := h.numbered
    have hNat := congrArg UInt16.toNat hNext
    rw [UInt16.toNat_ofNat', UInt16.toNat_ofNat'] at hNat
    omega
  rw [Profile.take_frames, hSame,
    ← List.prefix_iff_eq_take.mp hPrefix]
  exact hOpens.run

------------------------------------------------------------
-- Faulty Links
------------------------------------------------------------

/- A continuation is not the one that comes next. -/
def FrameError.isOutOfOrder : FrameError → Bool
  | .sequenceGap _ _ => true
  | .unexpectedContinuation _ => true
  | _ => false

namespace Assembler

/- Frames that can be read, after others. -/
theorem Reflects.feedAll
    {p : Profile}
    {frames : List (List UInt8)}
    {a : Assembler}
    (h : Reflects p frames a)
    {more : List (List UInt8)}
    (hLegible : ∀ frame ∈ more, p.Legible frame) :
    Reflects p (frames ++ more) (a.feedAll more).2 := by
  induction more generalizing frames a with
  | nil =>
      rw [List.append_nil]
      exact h
  | cons frame more ih =>
      have hFirst :=
        (h.feed (hLegible frame List.mem_cons_self)).reflects
      have hRest := ih hFirst fun frame hFrame =>
        hLegible frame (List.mem_cons_of_mem _ hFrame)
      rw [List.append_assoc] at hRest
      exact hRest

/- A continuation goes on with a message or is out of order. -/
theorem Reflects.feed_continuation
    {p : Profile}
    {frames : List (List UInt8)}
    {a : Assembler}
    (h : Reflects p frames a)
    {index : UInt16}
    (hIndex : index ≠ 0)
    (payload : List UInt8)
    (hStray :
      ∀ length init, p.Opens frames length init →
        index ≠ UInt16.ofNat init.length) :
    ∃ e, e.isOutOfOrder = true ∧
      (a.feed (p.framed index payload)).1 = .error e := by
  rcases a with ⟨profile, current⟩
  cases h.profile
  cases current with
  | none =>
      rw [feed_continuation_of_idle profile hIndex]
      exact ⟨_, rfl, rfl⟩
  | some m =>
      rcases (h.current m).mp rfl with
        ⟨length, init, hOpens, hm⟩
      have hGap : index ≠ m.next := by
        rw [hm]
        exact hStray length init hOpens
      rw [feed_continuation_of_gap profile m hIndex hGap]
      exact ⟨_, rfl, rfl⟩

/-
  Frames taken from those of one message, in any order and
  any number, give the message exactly when the last of them
  are all its frames in order, and never give anything else.
  A continuation without the frames before it is an error.
-/
theorem feedAll_lossy
    (p : Profile)
    {mtu : Nat}
    {message : List UInt8}
    (hMtu : p.leastMtu ≤ mtu)
    (hLength : message.length ≤ 65535) :
    ∃ frames,
      p.cut mtu message = .ok frames ∧
        ∀ fed, (∀ frame ∈ fed, frame ∈ frames) →
          ∀ frame ∈ frames,
            let a := ((ofProfile p).feedAll fed).2
            (∀ x,
              (a.feed frame).1 = .ok (some x) ↔
                frames <:+ fed ++ [frame] ∧ x = message) ∧
            ∀ i, 0 < i → frames[i]? = some frame →
              ¬ frames.take i <:+ fed →
                ∃ e, e.isOutOfOrder = true ∧
                  (a.feed frame).1 = .error e := by
  rcases p.cut_eq_frames hMtu hLength with
    ⟨payloads, hCut, hFills, hMessage⟩
  have hNumbered := hFills.numbered
  have hDeclared :
      (UInt16.ofNat message.length).toNat =
        message.length := by
    rw [UInt16.toNat_ofNat']
    omega
  refine ⟨_, hCut, fun fed hFed frame hFrame => ?_⟩
  have hNew : Reflects p [] (ofProfile p) :=
    reflects_nil (a := ofProfile p) rfl
  have hReflects :=
    hNew.feedAll fun frame hFrame =>
      Profile.legible_of_mem_frames hNumbered
        (hFed frame hFrame)
  rw [List.nil_append] at hReflects
  have hLegible :=
    Profile.legible_of_mem_frames hNumbered hFrame
  have hAll :
      ∀ frame' ∈ fed ++ [frame],
        frame' ∈
          p.frames (UInt16.ofNat message.length) payloads := by
    intro frame' hFrame'
    rcases List.mem_append.mp hFrame' with hBefore | hLast
    · exact hFed frame' hBefore
    · rw [List.mem_singleton.mp hLast]
      exact hFrame
  constructor
  · intro x
    rw [(hReflects.feed hLegible).delivers,
      hFills.delivers_iff hAll, hDeclared, hMessage]
  · intro i hPos hAt hGap
    rw [Profile.getElem?_frames] at hAt
    rcases Option.map_eq_some_iff.mp hAt with
      ⟨payload, hPayload, rfl⟩
    rcases List.getElem?_eq_some_iff.mp hPayload with ⟨hi, -⟩
    have hNonzero :=
      Profile.ofNat_ne_zero (Nat.ne_of_gt hPos)
        (Nat.lt_of_lt_of_le hi hNumbered)
    rw [if_neg (Nat.ne_of_gt hPos)]
    apply hReflects.feed_continuation hNonzero
    intro length init hOpens hNext
    exact hGap
      (hFills.take_frames_suffix hFed hOpens hi hNonzero hNext)

/- A message of seven bytes goes in three frames. -/
theorem feedAll_lossy_resent :
    (Profile.hid 7).leastMtu ≤ 9 ∧
      [10, 20, 30, 40, 50, 60, 70].length ≤ 65535 ∧
      ∃ frames,
        (Profile.hid 7).cut 9 [10, 20, 30, 40, 50, 60, 70] =
            .ok frames ∧
          ∀ fed, (∀ frame ∈ fed, frame ∈ frames) →
            ∀ frame ∈ frames,
              let a :=
                ((ofProfile (.hid 7)).feedAll fed).2
              (∀ x,
                (a.feed frame).1 = .ok (some x) ↔
                  frames <:+ fed ++ [frame] ∧
                    x = [10, 20, 30, 40, 50, 60, 70]) ∧
              ∀ i, 0 < i → frames[i]? = some frame →
                ¬ frames.take i <:+ fed →
                  ∃ e, e.isOutOfOrder = true ∧
                    (a.feed frame).1 = .error e :=
  ⟨by decide, by decide,
    feedAll_lossy (.hid 7) (by decide) (by decide)⟩

/- The second frame is lost, and all three come in again. -/
example :
    let frames :=
      (Profile.hid 7).frames 7
        [[10, 20], [30, 40, 50, 60], [70, 0, 0, 0]]
    let received := [0, 2, 0, 1, 2].filterMap (frames[·]?)
    ((ofProfile (.hid 7)).feedAll received).1 =
      [.ok none, .error (.sequenceGap 1 2), .ok none,
        .ok none, .ok (some [10, 20, 30, 40, 50, 60, 70])] :=
  rfl

end Assembler

end DeviceSession
