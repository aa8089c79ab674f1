import DeviceSession.Frame.Assembler
import DeviceSession.Frame.Mtu

/-
  What the frames of a response come to.

  Frames are taken in until one completes a response or
  does not fit.  How many it takes is up to the frames, so
  only one beginning of a stream comes to a verdict.

  Key definitions include:
    * `Mtu.dataFrames`
    * `Assembler.Makes`
    * `Assembler.Awaits`

  Main declarations:
    * `Assembler.Makes.unique`
-/

------------------------------------------------------------
-- Verdicts
------------------------------------------------------------

namespace DeviceSession

/- The frames that are not about the frame size. -/
def Mtu.dataFrames
    (frames : List (List UInt8)) : List (List UInt8) :=
  frames.filter fun frame => ¬ IsSizeFrame frame

/- Frames are told apart one by one. -/
theorem Mtu.dataFrames_append
    (frames more : List (List UInt8)) :
    dataFrames (frames ++ more) =
      dataFrames frames ++ dataFrames more :=
  List.filter_append ..

namespace Assembler

/-
  The frames are just enough for a response or an error: all
  but the last leave the response incomplete.
-/
inductive Makes :
    Assembler → List (List UInt8) →
      Except FrameError Response → Prop where
  | last
      {a : Assembler}
      {frame : List UInt8}
      {v : Except FrameError Response}
      (hLast : (a.feedResponse frame).1 = v.map some) :
      Makes a [frame] v
  | more
      {a a' : Assembler}
      {frame : List UInt8}
      {frames : List (List UInt8)}
      {v : Except FrameError Response}
      (hMore : a.feedResponse frame = (.ok none, a'))
      (hRest : Makes a' frames v) :
      Makes a (frame :: frames) v

namespace Makes

variable {a : Assembler} {frames frames' : List (List UInt8)}
variable {v v' : Except FrameError Response}

/- No verdict without a frame. -/
theorem ne_nil (h : a.Makes frames v) : frames ≠ [] := by
  cases h <;> simp

/- A verdict is not reached with a frame that leaves none. -/
theorem not_incomplete
    {frame : List UInt8}
    {a' : Assembler}
    (hMore : a.feedResponse frame = (.ok none, a')) :
    (a.feedResponse frame).1 ≠ v.map some := by
  rw [hMore]
  cases v <;> simp [Except.map]

/-
  A stream of frames has one verdict at most, and reaches it
  with a fixed number of frames.
-/
theorem unique
    {stream : List (List UInt8)}
    (h : a.Makes frames v)
    (h' : a.Makes frames' v')
    (hStream : frames <+: stream)
    (hStream' : frames' <+: stream) :
    frames = frames' ∧ v = v' := by
  induction h generalizing frames' stream with
  | last hLast =>
      rcases hStream with ⟨rest, rfl⟩
      cases h' with
      | last hLast' =>
          rename_i a frame v frame'
          have hSame := (List.cons_prefix_cons.mp hStream').1
          subst hSame
          have hVerdict : v.map some = v'.map some :=
            hLast.symm.trans hLast'
          refine ⟨rfl, ?_⟩
          cases v <;> cases v' <;>
            simp_all [Except.map]
      | more hMore hRest =>
          have hSame := (List.cons_prefix_cons.mp hStream').1
          subst hSame
          exact absurd hLast (not_incomplete hMore)
  | more hMore hRest ih =>
      rcases hStream with ⟨rest, rfl⟩
      cases h' with
      | last hLast' =>
          have hSame := (List.cons_prefix_cons.mp hStream').1
          subst hSame
          exact absurd hLast' (not_incomplete hMore)
      | more hMore' hRest' =>
          rcases List.cons_prefix_cons.mp hStream' with
            ⟨hSame, hTail⟩
          subst hSame
          rw [hMore] at hMore'
          cases hMore'
          rcases ih hRest' (List.prefix_append _ _) hTail with
            ⟨rfl, rfl⟩
          exact ⟨rfl, rfl⟩

end Makes

------------------------------------------------------------
-- Responses in Progress
------------------------------------------------------------

/-
  The assembler has taken the frames in, and no response is
  complete: it goes on where a fresh one would, after them.
-/
def Awaits
    (p : Profile)
    (seen : List (List UInt8))
    (a : Assembler) : Prop :=
  ∀ more v,
    a.Makes more v → (ofProfile p).Makes (seen ++ more) v

/- A new assembler has seen nothing. -/
theorem awaits_ofProfile (p : Profile) :
    Awaits p [] (ofProfile p) :=
  fun _ _ h => h

/- A frame that decides nothing has been seen. -/
theorem Awaits.more
    {p : Profile}
    {seen : List (List UInt8)}
    {a a' : Assembler}
    {frame : List UInt8}
    (h : Awaits p seen a)
    (hMore : a.feedResponse frame = (.ok none, a')) :
    Awaits p (seen ++ [frame]) a' := by
  intro frames v hRest
  rw [List.append_assoc]
  exact h (frame :: frames) v (.more hMore hRest)

/- The frame that decides is the last one. -/
theorem Awaits.last
    {p : Profile}
    {seen : List (List UInt8)}
    {a : Assembler}
    {frame : List UInt8}
    {v : Except FrameError Response}
    (h : Awaits p seen a)
    (hLast : (a.feedResponse frame).1 = v.map some) :
    (ofProfile p).Makes (seen ++ [frame]) v :=
  h [frame] v (.last hLast)

------------------------------------------------------------
-- Profiles
------------------------------------------------------------

/- The profile of an assembler is for good. -/
theorem accept_profile
    (a : Assembler)
    (m : Partial)
    (payload : List UInt8) :
    (a.accept m payload).2.profile = a.profile := by
  unfold accept
  dsimp only
  split <;> rfl

/- An assembler is for one profile, whatever comes in. -/
theorem feed_profile (a : Assembler) (frame : List UInt8) :
    (a.feed frame).2.profile = a.profile := by
  unfold feed
  split
  · rfl
  · split
    · split
      · rfl
      · exact accept_profile a _ _
    · split
      · rfl
      · split
        · exact accept_profile _ _ _
        · rfl

/- Whatever comes in. -/
theorem feedResponse_profile
    (a : Assembler)
    (frame : List UInt8) :
    (a.feedResponse frame).2.profile = a.profile := by
  have hFeed := feed_profile a frame
  unfold feedResponse
  generalize a.feed frame = result at hFeed ⊢
  rcases result with ⟨out, a'⟩
  rcases out with e | (- | raw) <;> exact hFeed

end Assembler

end DeviceSession
