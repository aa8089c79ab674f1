import DeviceSession.Apdu.Basic
import DeviceSession.Bytes.Word
import DeviceSession.Frame.Error
import DeviceSession.Frame.Profile

/-
  Messages cut into frames.

  Frames are produced one at a time, so that each can be
  written before the next one is cut.  Room for a frame is
  set aside before its bytes are put together, which is an
  overflow for a size that no memory has room for.

  Key definitions include:
    * `Slicer`
    * `Slicer.ofMtu`
    * `Slicer.framesIn`
    * `Slicer.reserve`
    * `Slices`
    * `Slices.remaining`
    * `Slices.next?`
    * `Slices.cut`
    * `Slices.toList`
    * `Slicer.command`
    * `Slicer.message`
-/

------------------------------------------------------------
-- Slicers
------------------------------------------------------------

namespace DeviceSession

/- A frame size that the profile can work with. -/
structure Slicer where
  profile : Profile
  mtu : Nat
  min_le : profile.leastMtu ≤ mtu
deriving DecidableEq

namespace Slicer

/- A slicer for the given frame size. -/
def ofMtu (p : Profile) (mtu : Nat) :
    Except FrameError Slicer :=
  if h : p.leastMtu ≤ mtu then .ok ⟨p, mtu, h⟩
  else .error (.mtuTooSmall mtu)

/- The payload of a full first frame. -/
def firstRoom (s : Slicer) : Nat :=
  s.mtu - s.profile.firstHeaderLength

/- The payload of a full continuation. -/
def nextRoom (s : Slicer) : Nat :=
  s.mtu - s.profile.headerLength

/- A first frame has room for the message, if only just. -/
theorem firstRoom_pos (s : Slicer) :
    0 < s.firstRoom := by
  have := s.min_le
  simp only [Profile.leastMtu] at this
  simp only [firstRoom]
  omega

/- So has every later one. -/
theorem nextRoom_pos (s : Slicer) :
    0 < s.nextRoom := by
  have := s.min_le
  simp only [Profile.leastMtu, Profile.firstHeaderLength]
    at this
  simp only [nextRoom]
  omega

/- The least number of frames of `c` bytes that hold `n`. -/
def framesNeeded (n c : Nat) : Nat :=
  (n + c - 1) / c

/- The number of frames of a message of `n` bytes. -/
def framesIn (s : Slicer) (n : Nat) : Nat :=
  if n ≤ s.firstRoom then 1
  else 1 + framesNeeded (n - s.firstRoom) s.nextRoom

/- Why there is no frame where there should be one. -/
inductive Fault where
  /- No memory has room for a frame. -/
  | capacityOverflow
deriving DecidableEq

def Fault.message : Fault → String
  | capacityOverflow => "capacity overflow"

/- The most bytes that room can be set aside for. -/
def mostRoom : Nat :=
  9223372036854775807

/- Set aside the room for a frame. -/
def reserve (s : Slicer) : Except Fault Unit :=
  if s.mtu ≤ mostRoom then .ok ()
  else .error .capacityOverflow

/- A frame within the limit is reserved. -/
theorem reserve_of_le
    {s : Slicer}
    (hRoom : s.mtu ≤ mostRoom) :
    s.reserve = .ok () :=
  if_pos hRoom

/- No memory is asked for beyond it. -/
theorem reserve_of_lt
    {s : Slicer}
    (hLarge : mostRoom < s.mtu) :
    s.reserve = .error .capacityOverflow :=
  if_neg (Nat.not_le.mpr hLarge)

end Slicer

------------------------------------------------------------
-- Messages Being Sliced
------------------------------------------------------------

/- A message, cut up to some frame. -/
structure Slices where
  slicer : Slicer
  /- The length of the whole message. -/
  length : Nat
  /- The bytes not yet in a frame. -/
  rest : List UInt8
  /- The index of the next frame. -/
  index : UInt16 := 0
  /- The last frame has been cut. -/
  finished : Bool := false
deriving DecidableEq

namespace Slices

/- A message of which no frame has been cut. -/
def ofMessage (s : Slicer) (message : List UInt8) : Slices :=
  { slicer := s, length := message.length, rest := message }

/- The number of frames not yet cut. -/
def remaining (x : Slices) : Nat :=
  if x.finished then 0
  else if x.index = 0 then x.slicer.framesIn x.length
  else
    Slicer.framesNeeded x.rest.length x.slicer.nextRoom

/- The payload of the next frame, if it is full. -/
def capacity (x : Slices) : Nat :=
  if x.index = 0 then x.slicer.firstRoom
  else x.slicer.nextRoom

/- Every frame has room for something of the message. -/
theorem capacity_pos (x : Slices) : 0 < x.capacity := by
  unfold capacity
  split
  · exact x.slicer.firstRoom_pos
  · exact x.slicer.nextRoom_pos

/- The header of the next frame. -/
def header (x : Slices) : List UInt8 :=
  (x.slicer.profile.channel.elim [] Word.bytes16) ++
    Profile.apduTag :: Word.bytes16 x.index ++
    (if x.index = 0 then
      Word.bytes16 (UInt16.ofNat x.length)
    else [])

/- Fill a frame up with zeros, if the profile asks for it. -/
def pad (s : Slicer) (frame : List UInt8) : List UInt8 :=
  if s.profile.padding then
    frame ++ List.replicate (s.mtu - frame.length) 0
  else
    frame

/- The next frame, and the message without it. -/
def next? (x : Slices) : Option (List UInt8 × Slices) :=
  if x.finished then none
  else
    let frame :=
      pad x.slicer (x.header ++ x.rest.take x.capacity)
    let rest := x.rest.drop x.capacity
    some (frame,
      { x with
        rest
        index := x.index + 1
        finished := rest.isEmpty })

/- The next frame, if there is room for it in memory. -/
def cut (x : Slices) :
    Except Slicer.Fault (Option (List UInt8 × Slices)) :=
  if x.finished then .ok none
  else do
    x.slicer.reserve
    return x.next?

/- Where the frame is reserved, it is cut as planned. -/
theorem cut_of_le
    {x : Slices}
    (hRoom : x.slicer.mtu ≤ Slicer.mostRoom) :
    x.cut = .ok x.next? := by
  unfold cut next?
  cases x.finished with
  | true => rfl
  | false =>
      simp only [Bool.false_eq_true, if_false,
        Slicer.reserve_of_le hRoom]
      rfl

/- Where it is not, an unfinished message is a fault. -/
theorem cut_of_large
    {x : Slices}
    (hLarge : Slicer.mostRoom < x.slicer.mtu)
    (hUnfinished : x.finished = false) :
    x.cut = .error .capacityOverflow := by
  simp only [cut, hUnfinished, Bool.false_eq_true, if_false,
    Slicer.reserve_of_lt hLarge]
  rfl

/- How much there is left to do: each frame lowers it. -/
def measure (x : Slices) : Nat :=
  if x.finished then 0 else x.rest.length + 1

/- With every frame, less is left of the message. -/
theorem measure_next?
    {x y : Slices}
    {frame : List UInt8}
    (h : x.next? = some (frame, y)) :
    y.measure < x.measure := by
  unfold next? at h
  split at h
  · contradiction
  · rename_i hx
    simp only [Option.some.injEq, Prod.mk.injEq] at h
    obtain ⟨_, rfl⟩ := h
    have hc := x.capacity_pos
    simp only [measure, hx]
    by_cases hr : (x.rest.drop x.capacity).isEmpty
    · simp [hr]
    · have : x.rest.length ≠ 0 := by
        intro h0
        have : x.rest = [] := List.eq_nil_of_length_eq_zero h0
        simp [this] at hr
      simp [hr, List.length_drop]
      omega

/- The frames not yet cut. -/
def toList (x : Slices) : List (List UInt8) :=
  match _h : x.next? with
  | none => []
  | some (frame, y) => frame :: y.toList
termination_by x.measure
decreasing_by exact measure_next? _h

end Slices

------------------------------------------------------------
-- What Can Be Sliced
------------------------------------------------------------

namespace Slicer

/- The frames of a command. -/
def command (s : Slicer) (a : Apdu) : Slices :=
  .ofMessage s a.encode

/-
  The frames of any message whose length two bytes can
  declare.
-/
def message (s : Slicer) (bytes : List UInt8) :
    Except FrameError Slices :=
  if bytes.length ≤ 65535 then .ok (.ofMessage s bytes)
  else .error (.messageTooLong bytes.length)

end Slicer

end DeviceSession
