import Mathlib.Data.List.Induction
import DeviceSession.Proofs.Framing.Layout
import DeviceSession.Proofs.Framing.Receiver

/-
  What a history of frames and resets delivers.

  Only the frames that can be read count, and of those the
  ones since the last reset.  A message is delivered by a
  frame exactly if the history up to it ends with a first
  frame and continuations in order, and the last of these
  fills the declared length.

  Key definitions include:
    * `Profile.frames`
    * `Fills`
    * `Profile.Delivers`
    * `Profile.heard`
    * `Assembler.Reflects`
    * `Assembler.Conforms`

  Main declarations:
    * `Assembler.Reflects.feed`
    * `Assembler.reflects_takeAll`
    * `Assembler.takeAll_conforms`
-/

------------------------------------------------------------
-- Messages and Their Frames
------------------------------------------------------------

namespace DeviceSession

/-
  The frames of a message: the first one declares the length,
  and the others are numbered from 1.
-/
def Profile.frames
    (p : Profile)
    (length : UInt16) : List (List UInt8) → List (List UInt8)
  | [] => []
  | first :: rest =>
      p.opening length first ::
        rest.mapIdx fun i payload =>
          p.framed (UInt16.ofNat (i + 1)) payload

/-
  The payloads reach the length with the last of them, and
  not before.  Their frames have different indices.
-/
structure Fills
    (length : UInt16)
    (payloads : List (List UInt8)) : Prop where
  some : payloads ≠ []
  numbered : payloads.length ≤ 65536
  reached : length.toNat ≤ payloads.flatten.length
  notBefore :
    payloads.dropLast ≠ [] →
      payloads.dropLast.flatten.length < length.toNat

/- The frames end with those of a whole message. -/
def Profile.Delivers
    (p : Profile)
    (frames : List (List UInt8))
    (message : List UInt8) : Prop :=
  ∃ length payloads,
    Fills length payloads ∧
      p.frames length payloads <:+ frames ∧
        message = payloads.flatten.take length.toNat

/- The frames end with those of a message in progress. -/
structure Profile.Opens
    (p : Profile)
    (frames : List (List UInt8))
    (length : UInt16)
    (payloads : List (List UInt8)) : Prop where
  some : payloads ≠ []
  numbered : payloads.length ≤ 65536
  run : p.frames length payloads <:+ frames
  short : payloads.flatten.length < length.toNat

/- A message that is delivered has its declared length. -/
theorem Fills.length_take
    {length : UInt16}
    {payloads : List (List UInt8)}
    (h : Fills length payloads) :
    (payloads.flatten.take length.toNat).length =
      length.toNat := by
  rw [List.length_take]
  exact Nat.min_eq_left h.reached

------------------------------------------------------------
-- The Last Frame
------------------------------------------------------------

/- Two histories end alike if their last frames agree. -/
theorem concat_suffix_concat_iff
    (xs : List (List UInt8))
    {ys : List (List UInt8)}
    {x y : List UInt8} :
    xs ++ [x] <:+ ys ++ [y] ↔ xs <:+ ys ∧ x = y := by
  have hLength : [x].length = [y].length := rfl
  rw [List.suffix_append_inj_of_length_eq hLength,
    List.singleton_inj]

namespace Profile

theorem framed_inj
    (p : Profile)
    {index index' : UInt16}
    {body body' : List UInt8}
    (hSame : p.framed index body = p.framed index' body') :
    index = index' ∧ body = body' := by
  have hOpen := congrArg (Assembler.openFrame p) hSame
  rw [Assembler.openFrame_framed, Assembler.openFrame_framed]
    at hOpen
  cases hOpen
  exact ⟨rfl, rfl⟩

theorem opening_inj
    (p : Profile)
    {length length' : UInt16}
    {payload payload' : List UInt8}
    (hSame :
      p.opening length payload = p.opening length' payload') :
    length = length' ∧ payload = payload' := by
  have hSplit :=
    congrArg Assembler.splitWord (p.framed_inj hSame).2
  rw [Slices.splitWord_bytes16, Slices.splitWord_bytes16]
    at hSplit
  cases hSplit
  exact ⟨rfl, rfl⟩

theorem frames_concat
    (p : Profile)
    (length : UInt16)
    {payloads : List (List UInt8)}
    (hSome : payloads ≠ [])
    (payload : List UInt8) :
    p.frames length (payloads ++ [payload]) =
      p.frames length payloads ++
        [p.framed (UInt16.ofNat payloads.length) payload] := by
  cases payloads with
  | nil => exact absurd rfl hSome
  | cons first rest =>
      simp only [frames, List.cons_append, List.mapIdx_concat,
        List.length_cons]

/- Numbers of frames that differ are different indices. -/
theorem ofNat_ne_zero
    {n : Nat}
    (hPos : n ≠ 0)
    (hBound : n < 65536) :
    UInt16.ofNat n ≠ 0 := by
  intro hZero
  have hNat := congrArg UInt16.toNat hZero
  rw [UInt16.toNat_ofNat'] at hNat
  have hNone : (0 : UInt16).toNat = 0 := rfl
  omega

/- An index that is not 0 has not gone all the way round. -/
theorem succ_le_of_ofNat_ne_zero
    {n : Nat}
    (hIndex : UInt16.ofNat n ≠ 0)
    (hBound : n ≤ 65536) :
    n + 1 ≤ 65536 := by
  have hRound : n ≠ 65536 := by
    rintro rfl
    exact hIndex rfl
  omega

/- A first frame at the end is all there is of its message. -/
theorem frames_suffix_opening
    (p : Profile)
    {frames : List (List UInt8)}
    {length length' : UInt16}
    {payload : List UInt8}
    {payloads : List (List UInt8)}
    (hSome : payloads ≠ [])
    (hNumbered : payloads.length ≤ 65536) :
    p.frames length' payloads <:+
        frames ++ [p.opening length payload] ↔
      length' = length ∧ payloads = [payload] := by
  constructor
  · intro hRun
    rcases List.eq_nil_or_concat payloads with
      rfl | ⟨init, last, rfl⟩
    · exact absurd rfl hSome
    · rw [List.concat_eq_append] at hNumbered hRun ⊢
      by_cases hInit : init = []
      · subst hInit
        have hLast := (concat_suffix_concat_iff []).mp hRun
        rcases p.opening_inj hLast.2 with ⟨rfl, rfl⟩
        exact ⟨rfl, rfl⟩
      · rw [p.frames_concat length' hInit] at hRun
        have hLast := (concat_suffix_concat_iff _).mp hRun
        have hIndex := (p.framed_inj hLast.2).1
        rw [List.length_append] at hNumbered
        refine absurd hIndex (ofNat_ne_zero ?_ hNumbered)
        exact fun h => hInit (List.eq_nil_of_length_eq_zero h)
  · rintro ⟨rfl, rfl⟩
    exact List.suffix_append _ _

/- A continuation at the end goes on with a message. -/
theorem frames_suffix_continuation
    (p : Profile)
    {frames : List (List UInt8)}
    {index length : UInt16}
    {payload : List UInt8}
    {payloads : List (List UInt8)}
    (hIndex : index ≠ 0)
    (hSome : payloads ≠ []) :
    p.frames length payloads <:+
        frames ++ [p.framed index payload] ↔
      ∃ init, init ≠ [] ∧ payloads = init ++ [payload] ∧
        index = UInt16.ofNat init.length ∧
          p.frames length init <:+ frames := by
  constructor
  · intro hRun
    rcases List.eq_nil_or_concat payloads with
      rfl | ⟨init, last, rfl⟩
    · exact absurd rfl hSome
    · rw [List.concat_eq_append] at hRun ⊢
      by_cases hInit : init = []
      · subst hInit
        have hLast := (concat_suffix_concat_iff []).mp hRun
        have hZero := (p.framed_inj hLast.2).1
        exact absurd hZero.symm hIndex
      · rw [p.frames_concat length hInit] at hRun
        have hLast := (concat_suffix_concat_iff _).mp hRun
        rcases p.framed_inj hLast.2 with ⟨rfl, rfl⟩
        exact ⟨init, hInit, rfl, rfl, hLast.1⟩
  · rintro ⟨init, hInit, rfl, rfl, hRun⟩
    rw [p.frames_concat length hInit]
    exact (concat_suffix_concat_iff _).mpr ⟨hRun, rfl⟩

/- After a first frame only its own message is open. -/
theorem opens_opening_iff
    (p : Profile)
    {frames : List (List UInt8)}
    {length length' : UInt16}
    {payload : List UInt8}
    {payloads : List (List UInt8)} :
    p.Opens (frames ++ [p.opening length payload]) length'
        payloads ↔
      length' = length ∧ payloads = [payload] ∧
        payload.length < length.toNat := by
  constructor
  · intro h
    rcases (p.frames_suffix_opening h.some h.numbered).mp h.run
      with ⟨rfl, rfl⟩
    exact ⟨rfl, rfl, by simpa using h.short⟩
  · rintro ⟨rfl, rfl, hShort⟩
    constructor
    · exact List.cons_ne_nil _ _
    · simp
    · exact List.suffix_append _ _
    · simpa using hShort

/- It delivers its message if it holds all of it. -/
theorem delivers_opening_iff
    (p : Profile)
    {frames : List (List UInt8)}
    {length : UInt16}
    {payload message : List UInt8} :
    p.Delivers (frames ++ [p.opening length payload])
        message ↔
      length.toNat ≤ payload.length ∧
        message = payload.take length.toNat := by
  constructor
  · rintro ⟨length', payloads, hFills, hRun, rfl⟩
    rcases (p.frames_suffix_opening hFills.some
        hFills.numbered).mp hRun with ⟨rfl, rfl⟩
    exact ⟨by simpa using hFills.reached, by simp⟩
  · rintro ⟨hReached, rfl⟩
    refine
      ⟨length, [payload], ?_, List.suffix_append _ _, by simp⟩
    constructor
    · exact List.cons_ne_nil _ _
    · simp
    · simpa using hReached
    · intro hMore
      exact absurd rfl hMore

/- A continuation keeps open what it goes on with. -/
theorem opens_continuation_iff
    (p : Profile)
    {frames : List (List UInt8)}
    {index length : UInt16}
    {payload : List UInt8}
    {payloads : List (List UInt8)}
    (hIndex : index ≠ 0) :
    p.Opens (frames ++ [p.framed index payload]) length
        payloads ↔
      ∃ init, p.Opens frames length init ∧
        index = UInt16.ofNat init.length ∧
          payloads = init ++ [payload] ∧
            payloads.flatten.length < length.toNat := by
  constructor
  · intro h
    rcases (p.frames_suffix_continuation hIndex h.some).mp h.run
      with ⟨init, hInit, rfl, rfl, hRun⟩
    have hNumbered := h.numbered
    have hShort := h.short
    rw [List.length_append] at hNumbered
    rw [List.flatten_concat, List.length_append] at hShort
    have hOpens : p.Opens frames length init :=
      ⟨hInit, by omega, hRun, by omega⟩
    exact ⟨init, hOpens, rfl, rfl, h.short⟩
  · rintro ⟨init, h, rfl, rfl, hShort⟩
    constructor
    · simp
    · rw [List.length_append, List.length_singleton]
      exact succ_le_of_ofNat_ne_zero hIndex h.numbered
    · rw [p.frames_concat length h.some]
      exact (concat_suffix_concat_iff _).mpr ⟨h.run, rfl⟩
    · exact hShort

/- It delivers that message if it fills the length. -/
theorem delivers_continuation_iff
    (p : Profile)
    {frames : List (List UInt8)}
    {index : UInt16}
    {payload message : List UInt8}
    (hIndex : index ≠ 0) :
    p.Delivers (frames ++ [p.framed index payload])
        message ↔
      ∃ length init, p.Opens frames length init ∧
        index = UInt16.ofNat init.length ∧
          length.toNat ≤
              (init.flatten ++ payload).length ∧
            message =
              (init.flatten ++ payload).take
                length.toNat := by
  constructor
  · rintro ⟨length, payloads, hFills, hRun, rfl⟩
    rcases (p.frames_suffix_continuation hIndex
        hFills.some).mp hRun with
      ⟨init, hInit, rfl, rfl, hBefore⟩
    have hNumbered := hFills.numbered
    have hReached := hFills.reached
    have hShort := hFills.notBefore
    rw [List.length_append] at hNumbered
    rw [List.flatten_concat] at hReached ⊢
    rw [List.dropLast_concat] at hShort
    exact ⟨length, init,
      ⟨hInit, by omega, hBefore, hShort hInit⟩, rfl,
      hReached, rfl⟩
  · rintro ⟨length, init, h, rfl, hReached, rfl⟩
    refine ⟨length, init ++ [payload], ?_, ?_, ?_⟩
    · constructor
      · simp
      · rw [List.length_append, List.length_singleton]
        exact succ_le_of_ofNat_ne_zero hIndex h.numbered
      · rw [List.flatten_concat]
        exact hReached
      · rw [List.dropLast_concat]
        exact fun _ => h.short
    · rw [p.frames_concat length h.some]
      exact (concat_suffix_concat_iff _).mpr ⟨h.run, rfl⟩
    · rw [List.flatten_concat]

end Profile

------------------------------------------------------------
-- Assemblers and Histories
------------------------------------------------------------

/- The partial message with the given payloads. -/
def Partial.ofPayloads
    (length : UInt16)
    (payloads : List (List UInt8)) : Partial where
  expected := length.toNat
  next := UInt16.ofNat payloads.length
  buffer := payloads.flatten.toArray

namespace Assembler

/-
  The assembler holds a message in progress exactly if the
  frames end with those of one.
-/
structure Reflects
    (p : Profile)
    (frames : List (List UInt8))
    (a : Assembler) : Prop where
  profile : a.profile = p
  current :
    ∀ m, a.current = some m ↔
      ∃ length payloads, p.Opens frames length payloads ∧
        m = .ofPayloads length payloads

theorem reflects_nil
    {a : Assembler}
    (hIdle : a.current = none) :
    Reflects a.profile [] a where
  profile := rfl
  current m := by
    rw [hIdle]
    constructor
    · intro hSome
      cases hSome
    · rintro ⟨length, payloads, hOpens, -⟩
      have hRun := List.eq_nil_of_suffix_nil hOpens.run
      cases payloads with
      | nil => exact absurd rfl hOpens.some
      | cons first rest => cases hRun

/-
  Accepting payload adds all of it, or completes the message
  with as much of it as the message needs.
-/
theorem accept_eq
    (a : Assembler)
    {expected : Nat}
    (next : UInt16)
    (seen : List UInt8)
    (hRoom : seen.length ≤ expected)
    (payload : List UInt8) :
    a.accept ⟨expected, next, seen.toArray⟩ payload =
      if (seen ++ payload).length < expected then
        (none, { a with
          current := some
            ⟨expected, next, (seen ++ payload).toArray⟩ })
      else
        (some ((seen ++ payload).take expected), a.reset) := by
  rw [a.accept_of_take expected next seen payload _ rfl]
  by_cases hShort : (seen ++ payload).length < expected
  · have hAll :
        payload.take (expected - seen.length) = payload := by
      apply List.take_of_length_le
      rw [List.length_append] at hShort
      omega
    rw [hAll, if_pos hShort, if_pos hShort]
  · have hWhole :
        seen ++ payload.take (expected - seen.length) =
          (seen ++ payload).take expected := by
      rw [List.take_append, List.take_of_length_le hRoom]
    have hLength :
        ((seen ++ payload).take expected).length =
          expected := by
      rw [List.length_take]
      omega
    rw [if_neg hShort, hWhole,
      if_neg (Nat.not_lt.mpr (Nat.le_of_eq hLength.symm))]

section Steps

variable {p : Profile} {frames : List (List UInt8)}

/- Two messages in progress differ in no way that counts. -/
theorem Reflects.unique
    {a : Assembler}
    (h : Reflects p frames a)
    {length length' : UInt16}
    {payloads payloads' : List (List UInt8)}
    (hOpens : p.Opens frames length payloads)
    (hOpens' : p.Opens frames length' payloads') :
    length = length' ∧
      payloads.flatten = payloads'.flatten ∧
        UInt16.ofNat payloads.length =
          UInt16.ofNat payloads'.length := by
  have hFirst := (h.current _).mpr ⟨_, _, hOpens, rfl⟩
  have hSecond := (h.current _).mpr ⟨_, _, hOpens', rfl⟩
  have hSame := Option.some.inj (hFirst.symm.trans hSecond)
  simp only [Partial.ofPayloads, Partial.mk.injEq] at hSame
  exact ⟨UInt16.toNat_inj.mp hSame.1,
    congrArg Array.toList hSame.2.2, hSame.2.1⟩

/- The frame is answered as the history with it demands. -/
structure Extends
    (p : Profile)
    (frames : List (List UInt8))
    (a : Assembler)
    (frame : List UInt8) : Prop where
  delivers :
    ∀ message,
      (a.feed frame).1 = .ok (some message) ↔
        p.Delivers (frames ++ [frame]) message
  reflects : Reflects p (frames ++ [frame]) (a.feed frame).2

theorem extends_of_feed
    {a b : Assembler}
    {frame : List UInt8}
    {answer : Except FrameError (Option (List UInt8))}
    (hFeed : a.feed frame = (answer, b))
    (hDelivers :
      ∀ message,
        answer = .ok (some message) ↔
          p.Delivers (frames ++ [frame]) message)
    (hReflects : Reflects p (frames ++ [frame]) b) :
    Extends p frames a frame where
  delivers := by
    rw [hFeed]
    exact hDelivers
  reflects := by
    rw [hFeed]
    exact hReflects

/-
  A frame whose payload is accepted delivers a message or
  leaves one open, as the payload does or does not fill the
  length.
-/
theorem extends_of_accept
    {a b : Assembler}
    (hProfile : b.profile = p)
    {frame : List UInt8}
    {expected : Nat}
    {next : UInt16}
    (seen : List UInt8)
    {payload : List UInt8}
    (hFeed :
      a.feed frame =
        (.ok (b.accept ⟨expected, next, seen.toArray⟩
            payload).1,
          (b.accept ⟨expected, next, seen.toArray⟩ payload).2))
    (hRoom : seen.length ≤ expected)
    (hDelivers :
      ∀ message,
        p.Delivers (frames ++ [frame]) message ↔
          expected ≤ (seen ++ payload).length ∧
            message = (seen ++ payload).take expected)
    (hOpens :
      ∀ m : Partial,
        (∃ length payloads,
          p.Opens (frames ++ [frame]) length payloads ∧
            m = .ofPayloads length payloads) ↔
          (seen ++ payload).length < expected ∧
            m =
              ⟨expected, next, (seen ++ payload).toArray⟩) :
    Extends p frames a frame := by
  rw [b.accept_eq next seen hRoom payload] at hFeed
  by_cases hShort : (seen ++ payload).length < expected
  · rw [if_pos hShort] at hFeed
    refine extends_of_feed hFeed ?_ ⟨hProfile, fun m => ?_⟩
    · intro message
      rw [hDelivers]
      constructor
      · rintro ⟨⟩
      · rintro ⟨hReached, -⟩
        omega
    · rw [hOpens]
      constructor
      · rintro ⟨⟩
        exact ⟨hShort, rfl⟩
      · rintro ⟨-, rfl⟩
        rfl
  · rw [if_neg hShort] at hFeed
    refine extends_of_feed hFeed ?_ ⟨hProfile, fun m => ?_⟩
    · intro message
      rw [hDelivers]
      constructor
      · rintro ⟨⟩
        exact ⟨Nat.not_lt.mp hShort, rfl⟩
      · rintro ⟨-, rfl⟩
        rfl
    · rw [hOpens]
      constructor
      · rintro ⟨⟩
      · rintro ⟨hLess, -⟩
        exact absurd hLess hShort

/- A first frame delivers its message, or opens it. -/
theorem extends_opening
    (p : Profile)
    (frames : List (List UInt8))
    (current : Option Partial)
    (length : UInt16)
    (payload : List UInt8) :
    Extends p frames ⟨p, current⟩
      (p.opening length payload) := by
  refine extends_of_accept (b := ⟨p, current⟩) rfl []
    (feed_opening ⟨p, current⟩ length payload) (Nat.zero_le _)
    ?_ ?_
  · intro message
    exact p.delivers_opening_iff
  · intro m
    simp only [p.opens_opening_iff, List.nil_append]
    constructor
    · rintro ⟨_, _, ⟨rfl, rfl, hShort⟩, rfl⟩
      exact ⟨hShort, by simp [Partial.ofPayloads]⟩
    · rintro ⟨hShort, rfl⟩
      refine ⟨length, [payload], ⟨rfl, rfl, hShort⟩, ?_⟩
      simp [Partial.ofPayloads]

/-
  A continuation that does not go on with the message in
  progress delivers nothing and leaves none in progress.
-/
theorem extends_stray
    {a : Assembler}
    {index : UInt16}
    (hIndex : index ≠ 0)
    {payload : List UInt8}
    {e : FrameError}
    (hFeed :
      a.feed (p.framed index payload) =
        (.error e, ⟨p, none⟩))
    (hStray :
      ∀ length init, p.Opens frames length init →
        index ≠ UInt16.ofNat init.length) :
    Extends p frames a (p.framed index payload) := by
  refine extends_of_feed hFeed ?_ ⟨rfl, fun m => ?_⟩
  · intro message
    rw [p.delivers_continuation_iff hIndex]
    constructor
    · rintro ⟨⟩
    · rintro ⟨length, init, hOpens, hNext, -⟩
      exact absurd hNext (hStray length init hOpens)
  · simp only [p.opens_continuation_iff hIndex]
    constructor
    · rintro ⟨⟩
    · rintro ⟨length, _, ⟨init, hOpens, hNext, -⟩, -⟩
      exact absurd hNext (hStray length init hOpens)

/- A continuation that goes on adds its payload. -/
theorem Reflects.extends_next
    {length : UInt16}
    {init : List (List UInt8)}
    (h : Reflects p frames ⟨p, some (.ofPayloads length init)⟩)
    (hOpens : p.Opens frames length init)
    (hIndex : UInt16.ofNat init.length ≠ 0)
    (payload : List UInt8) :
    Extends p frames ⟨p, some (.ofPayloads length init)⟩
      (p.framed (UInt16.ofNat init.length) payload) := by
  refine extends_of_accept (b := ⟨p, none⟩) rfl init.flatten
    (feed_continuation_of_next p (.ofPayloads length init)
      hIndex payload)
    (Nat.le_of_lt hOpens.short) ?_ ?_
  · intro message
    rw [p.delivers_continuation_iff hIndex]
    constructor
    · rintro ⟨length', init', hOpens', -, hReached, rfl⟩
      rcases h.unique hOpens hOpens' with ⟨rfl, hFlat, -⟩
      rw [hFlat]
      exact ⟨hReached, rfl⟩
    · rintro ⟨hReached, rfl⟩
      exact ⟨length, init, hOpens, rfl, hReached, rfl⟩
  · intro m
    simp only [p.opens_continuation_iff hIndex]
    constructor
    · rintro ⟨length', _, ⟨init', hOpens', hNext, rfl, hShort⟩,
        rfl⟩
      rcases h.unique hOpens hOpens' with ⟨rfl, hFlat, -⟩
      rw [List.flatten_concat, ← hFlat] at hShort
      refine ⟨hShort, ?_⟩
      simp [Partial.ofPayloads, hFlat, hNext]
    · rintro ⟨hShort, rfl⟩
      refine ⟨length, init ++ [payload],
        ⟨init, hOpens, rfl, rfl, ?_⟩, ?_⟩
      · rw [List.flatten_concat]
        exact hShort
      · simp [Partial.ofPayloads]

/-
  A frame that can be read delivers what the history with it
  delivers, and the assembler goes on reflecting the history.
-/
theorem Reflects.feed
    {a : Assembler}
    (h : Reflects p frames a)
    {frame : List UInt8}
    (hLegible : p.Legible frame) :
    Extends p frames a frame := by
  rcases a with ⟨profile, current⟩
  cases h.profile
  cases hLegible with
  | opening length payload =>
      exact extends_opening profile frames current length payload
  | continuation hIndex payload =>
      rename_i index
      cases current with
      | none =>
          apply extends_stray hIndex
            (feed_continuation_of_idle profile hIndex payload)
          intro length init hOpens
          cases (h.current _).mpr ⟨_, _, hOpens, rfl⟩
      | some m =>
          rcases (h.current m).mp rfl with
            ⟨length, init, hOpens, hm⟩
          by_cases hNext : index = m.next
          · subst hm
            subst hNext
            exact h.extends_next hOpens hIndex payload
          · apply extends_stray hIndex
              (feed_continuation_of_gap profile m hIndex hNext
                payload)
            intro length' init' hOpens' hSame
            rw [hm, hSame] at hNext
            exact hNext (h.unique hOpens' hOpens).2.2

end Steps

end Assembler

------------------------------------------------------------
-- Whole Histories
------------------------------------------------------------

/- The frames that have come in since the last reset. -/
def Intake.sinceReset (history : List Intake) :
    List (List UInt8) :=
  history.foldl
    (fun frames x =>
      match x with
      | .frame bytes => frames ++ [bytes]
      | .reset => [])
    []

/- Of these, the frames that can be read. -/
def Profile.heard (p : Profile) (history : List Intake) :
    List (List UInt8) :=
  (Intake.sinceReset history).filter (p.Legible ·)

/- The history without the frames that are refused. -/
def Profile.legible (p : Profile) (history : List Intake) :
    List Intake :=
  history.filter fun x =>
    match x with
    | .frame bytes => p.Legible bytes
    | .reset => true

namespace Assembler

theorem heard_concat
    (p : Profile)
    (history : List Intake)
    (x : Intake) :
    p.heard (history ++ [x]) =
      match x with
      | .frame bytes =>
          if p.Legible bytes then p.heard history ++ [bytes]
          else p.heard history
      | .reset => [] := by
  unfold Profile.heard Intake.sinceReset
  rw [List.foldl_append]
  cases x with
  | frame bytes =>
      by_cases hLegible : p.Legible bytes <;>
        simp [hLegible]
  | reset => rfl

theorem legible_concat
    (p : Profile)
    (history : List Intake)
    (x : Intake) :
    p.legible (history ++ [x]) =
      match x with
      | .frame bytes =>
          if p.Legible bytes then
            p.legible history ++ [.frame bytes]
          else p.legible history
      | .reset => p.legible history ++ [.reset] := by
  unfold Profile.legible
  rw [List.filter_append]
  cases x with
  | frame bytes =>
      by_cases hLegible : p.Legible bytes <;>
        simp [hLegible]
  | reset => rfl

/- An assembler reflects the history that it has been fed. -/
theorem reflects_takeAll
    (p : Profile)
    (history : List Intake) :
    Reflects p (p.heard history)
      ((ofProfile p).takeAll history) := by
  induction history using List.reverseRecOn with
  | nil => exact reflects_nil (a := ofProfile p) rfl
  | append_singleton before x hBefore =>
      rw [heard_concat, takeAll_concat]
      generalize (ofProfile p).takeAll before = a at hBefore ⊢
      cases x with
      | frame bytes =>
          dsimp only [take]
          by_cases hLegible : p.Legible bytes
          · rw [if_pos hLegible]
            exact (hBefore.feed hLegible).reflects
          · rw [if_neg hLegible]
            rw [← hBefore.profile] at hLegible
            rcases a.feed_of_illegible hLegible with
              ⟨e, -, hFeed⟩
            rw [hFeed]
            exact hBefore
      | reset =>
          rw [← hBefore.profile]
          exact reflects_nil (a := a.reset) rfl

/- Refused frames make no difference to what is held. -/
theorem takeAll_legible
    (p : Profile)
    (history : List Intake) :
    (ofProfile p).takeAll (p.legible history) =
      (ofProfile p).takeAll history := by
  induction history using List.reverseRecOn with
  | nil => rfl
  | append_singleton before x hBefore =>
      have hProfile := (reflects_takeAll p before).profile
      rw [legible_concat, takeAll_concat]
      cases x with
      | frame bytes =>
          dsimp only [take]
          by_cases hLegible : p.Legible bytes
          · rw [if_pos hLegible, takeAll_concat, hBefore, take]
          · rw [if_neg hLegible, hBefore]
            rw [← hProfile] at hLegible
            rcases feed_of_illegible _ hLegible with
              ⟨e, -, hFeed⟩
            rw [hFeed]
      | reset => rw [takeAll_concat, hBefore]

------------------------------------------------------------
-- Conformance
------------------------------------------------------------

/-
  How an assembler answers any frame after any history, and
  what a receiver with the same history stores.
-/
structure Conforms
    (p : Profile)
    (before : List Intake) : Prop where
  /-
    An idle receiver has an empty buffer.  Any other waits
    for more bytes than it has, of a length of two bytes, so
    that every frame has an answer: that of the assembler.
  -/
  stored :
    ∃ r,
      (Receiver.ofProfile p).takeAll before = some r ∧
        (r.phase = .idle → r.buffer = []) ∧
        (∀ expected next,
          r.phase = .receiving expected next →
            r.buffer.length < expected ∧ expected ≤ 65535) ∧
        ∀ frame,
          (r.feed frame).map Prod.fst =
            some (((ofProfile p).takeAll before).feed frame).1
  /- The same of the message that the assembler holds. -/
  held :
    ∀ m,
      ((ofProfile p).takeAll before).current = some m →
        m.buffer.size < m.expected ∧ m.expected ≤ 65535
  /- The frames that are refused are those nobody can read. -/
  refused :
    ∀ frame,
      ((ofProfile p).takeAll before).refuses frame = true ↔
        ¬ p.Legible frame
  /-
    A message comes out of a frame exactly if the frames that
    can be read, since the last reset, end with all of it.
  -/
  delivered :
    ∀ frame,
      p.Legible frame →
        ∀ message,
          (((ofProfile p).takeAll before).feed frame).1 =
              .ok (some message) ↔
            p.Delivers (p.heard before ++ [frame]) message
  /- It has the length that its first frame declares. -/
  declared :
    ∀ frame message,
      (((ofProfile p).takeAll before).feed frame).1 =
          .ok (some message) →
        ∃ length payloads,
          p.frames length payloads <:+
              p.heard before ++ [frame] ∧
            message.length = length.toNat
  /- Without the refused frames the state is the same. -/
  undisturbed :
    (ofProfile p).takeAll (p.legible before) =
      (ofProfile p).takeAll before

/- Whatever comes in, assembler and receiver conform. -/
theorem takeAll_conforms
    (p : Profile)
    (before : List Intake) :
    Conforms p before := by
  have hReflects := reflects_takeAll p before
  rcases Receiver.takeAll_stores (Receiver.stores_ofProfile p)
      before with ⟨r, hTaken, hStores⟩
  have hUndisturbed := takeAll_legible p before
  generalize hState : (ofProfile p).takeAll before = a
    at hReflects hStores hUndisturbed
  have hProfile := hReflects.profile
  constructor
  · refine ⟨r, hTaken, ?_, ?_, ?_⟩
    · intro hIdle
      cases hCurrent : a.current with
      | none => exact (hStores.idle hCurrent).2
      | some m =>
          rw [(hStores.receiving m hCurrent).1] at hIdle
          cases hIdle
    · intro expected next hPhase
      cases hCurrent : a.current with
      | none =>
          rw [(hStores.idle hCurrent).1] at hPhase
          cases hPhase
      | some m =>
          have hStored := hStores.receiving m hCurrent
          rw [hStored.1] at hPhase
          cases hPhase
          exact hStored.2.2
    · intro frame
      rcases Receiver.feed_stores hStores frame with
        ⟨r', hFeed, -⟩
      rw [hFeed, hState]
      rfl
  · rw [hState]
    intro m hCurrent
    have hStored := hStores.receiving m hCurrent
    rw [hStored.2.1] at hStored
    exact hStored.2.2
  · intro frame
    rw [hState, a.refuses_iff, hProfile]
  · intro frame hLegible message
    rw [hState]
    exact (hReflects.feed hLegible).delivers message
  · intro frame message hMessage
    rw [hState] at hMessage
    have hLegible : p.Legible frame := by
      rw [← hProfile]
      refine Classical.byContradiction fun hIllegible => ?_
      rcases a.feed_of_illegible hIllegible with
        ⟨e, -, hFeed⟩
      rw [hFeed] at hMessage
      cases hMessage
    rcases ((hReflects.feed hLegible).delivers message).mp
        hMessage with ⟨length, payloads, hFills, hRun, rfl⟩
    exact ⟨length, payloads, hRun, hFills.length_take⟩
  · rw [hState]
    exact hUndisturbed

end Assembler

end DeviceSession
