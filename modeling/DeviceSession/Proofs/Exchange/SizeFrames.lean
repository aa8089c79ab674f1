import DeviceSession.Device.Emulator
import DeviceSession.Exchange.Basic
import DeviceSession.Proofs.Faultless.Messages

/-
  Messages that are taken for news of the frame size.

  Host and device tell size frames from all others by their
  first byte.  In front of that tag there may be a channel.
  If the channel begins like the tag, then both ends of the
  link mistake every frame; otherwise neither ever does.

  Key definitions include:
    * `Exchange.receiveAll`
    * `Mistaken.slicer`

  Main declarations:
    * `Exchange.receiveAll_of_sizeFrames`
    * `Exchange.receiveAll_of_expects`
    * `Slicer.frames_mistaken_iff`
-/

------------------------------------------------------------
-- The Host
------------------------------------------------------------

namespace DeviceSession

namespace Exchange

variable {L : Type}

/- Take in frames, as long as the response is awaited. -/
def receiveAll
    (x : Exchange)
    (e : HostEnd L) :
    List (List UInt8) → Result × HostEnd L
  | [] => (.go x, e)
  | frame :: rest =>
      match x.receive e frame with
      | (.go x, e) => x.receiveAll e rest
      | other => other

theorem goto_phase (x : Exchange) : x.goto x.phase = x :=
  rfl

/- Size frames are dropped, however many there are. -/
theorem receiveAll_of_sizeFrames
    {x : Exchange}
    {frames : List (List UInt8)}
    (e : HostEnd L)
    (hPhase : x.phase = .reading .first)
    (hSize : ∀ frame ∈ frames, Mtu.IsSizeFrame frame) :
    x.receiveAll e frames = (.go x, e) := by
  induction frames with
  | nil => rfl
  | cons frame rest ih =>
      have hFirst : Mtu.IsSizeFrame frame :=
        hSize frame List.mem_cons_self
      have hReceive : x.receive e frame = (.go x, e) := by
        rw [receive, if_pos hFirst, ← hPhase, goto_phase]
      rw [receiveAll, hReceive]
      apply ih
      intro later hLater
      exact hSize later (List.mem_cons_of_mem frame hLater)

/- The frames of a response make it, if none is dropped. -/
theorem receiveAll_of_expects
    {x : Exchange}
    {e : HostEnd L}
    {s : Slicer}
    {a : Assembler}
    {frames : List (List UInt8)}
    {r : Response}
    (hPhase : x.phase = .reading .first)
    (hCodec : e.codec = some (s, a))
    (hExpects : a.Expects frames r.encode)
    (hData : ∀ frame ∈ frames, ¬ Mtu.IsSizeFrame frame) :
    (x.receiveAll e frames).1 = .done (.ok r) := by
  induction frames generalizing e a with
  | nil => exact absurd rfl hExpects.ne_nil
  | cons frame rest ih =>
      have hFirst : ¬ Mtu.IsSizeFrame frame :=
        hData frame List.mem_cons_self
      rcases hExpects.feedResponse with
        ⟨b, hFeed, hRest⟩ | ⟨rfl, b, hFeed⟩
      · have hReceive :
            x.receive e frame =
              (.go x, { e with codec := some (s, b) }) := by
          simp only [receive, if_neg hFirst, hCodec, hFeed]
          rw [← hPhase, goto_phase]
        rw [receiveAll, hReceive]
        apply ih rfl hRest
        intro later hLater
        exact hData later (List.mem_cons_of_mem frame hLater)
      · have hReceive :
            x.receive e frame =
              (.done (.ok r),
                { e with codec := some (s, b) }) := by
          simp only [receive, if_neg hFirst, hCodec, hFeed]
        rw [receiveAll, hReceive]

end Exchange

------------------------------------------------------------
-- The Device
------------------------------------------------------------

namespace Emulator

variable {H : Type}

/- What a device does with a frame that has come in. -/
theorem step_of_recv
    (h : Handler H)
    (now : Nat)
    {x : Emulator H}
    {hub hub' : PipeHub}
    {asked : Asked}
    {frame : List UInt8}
    (hPhase : x.phase = .receiving asked)
    (hRecv :
      hub.onLink x.link (·.recv asked) =
        (some (some frame), hub')) :
    x.step h now hub =
      if Mtu.IsSizeFrame frame then
        (.go (x.goto
          (.sending [Mtu.response x.mtu] .first .announced)),
          hub')
      else
        (.go (take h now x frame hub').1,
          (take h now x frame hub').2) := by
  simp only [step, hPhase, hRecv]

end Emulator

------------------------------------------------------------
-- Both Ends
------------------------------------------------------------

/-
  A frame of a message is taken for a size frame exactly if
  the channel begins like one.  Then the host drops all of
  any response, and the device answers each frame of any
  command with its frame size.  Otherwise the host gets the
  whole response, and the device takes in the command.
-/
theorem Slicer.frames_mistaken_iff
    {L H : Type}
    (s : Slicer) :
    (∀ message, ∀ frame ∈ s.frames message,
      Mtu.IsSizeFrame frame ↔ s.profile.Mistakable) ∧
    (∀ (x : Exchange) (e : HostEnd L) (a : Assembler)
        (r : Response),
      x.phase = .reading .first →
      e.codec = some (s, a) →
      a.profile = s.profile →
      r.encode.length ≤ 65535 →
      (s.profile.Mistakable →
        x.receiveAll e (s.frames r.encode) = (.go x, e)) ∧
      (¬ s.profile.Mistakable →
        (x.receiveAll e (s.frames r.encode)).1 =
          .done (.ok r))) ∧
    (∀ (h : Handler H) (now : Nat) (x : Emulator H)
        (hub hub' : PipeHub) (asked : Asked)
        (message frame : List UInt8),
      x.phase = .receiving asked →
      hub.onLink x.link (·.recv asked) =
        (some (some frame), hub') →
      frame ∈ s.frames message →
      (s.profile.Mistakable →
        x.step h now hub =
          (.go (x.goto
            (.sending [Mtu.response x.mtu] .first .announced)),
            hub')) ∧
      (¬ s.profile.Mistakable →
        x.step h now hub =
          (.go (Emulator.take h now x frame hub').1,
            (Emulator.take h now x frame hub').2))) := by
  refine ⟨s.isSizeFrame_iff, ?host, ?device⟩
  case host =>
    intro x e a r hPhase hCodec hProfile hLength
    have hFrames := s.isSizeFrame_iff r.encode
    constructor
    · intro hMistakable
      apply Exchange.receiveAll_of_sizeFrames e hPhase
      intro frame hMem
      exact (hFrames frame hMem).mpr hMistakable
    · intro hClear
      apply Exchange.receiveAll_of_expects hPhase hCodec
        (a.expects_message s hProfile hLength)
      intro frame hMem hSize
      exact hClear ((hFrames frame hMem).mp hSize)
  case device =>
    intro h now x hub hub' asked message frame hPhase hRecv hMem
    have hStep := Emulator.step_of_recv h now hPhase hRecv
    rw [hStep]
    have hFrame := s.isSizeFrame_iff message frame hMem
    constructor
    · intro hMistakable
      rw [if_pos (hFrame.mpr hMistakable)]
    · intro hClear
      rw [if_neg fun hSize => hClear (hFrame.mp hSize)]

------------------------------------------------------------
-- A Channel That Is Mistaken
------------------------------------------------------------

namespace Mistaken

/- Frames of 64 bytes on a channel that begins like a tag. -/
def slicer : Slicer :=
  ⟨.hid 0x0801, 64, by decide⟩

/- An exchange that awaits its response. -/
def exchange : Exchange :=
  { apdu := .ofHeader 0xe0 0x11 0 0
    deadline := 2000
    phase := .reading .first }

def host : HostEnd Unit :=
  { link := ()
    codec := some (slicer, .ofProfile slicer.profile) }

/- The response to a command: success, and nothing more. -/
def response : Response :=
  .success

theorem mistakable_slicer : slicer.profile.Mistakable := by
  decide

/- The device has answered, and the host goes on waiting. -/
theorem response_dropped :
    slicer.profile.Mistakable ∧
    exchange.receiveAll host (slicer.frames response.encode) =
      (.go exchange, host) := by
  have hBoth := slicer.frames_mistaken_iff (L := Unit) (H := Unit)
  have hHost := hBoth.2.1 exchange host
    (.ofProfile slicer.profile) response rfl rfl rfl (by decide)
  exact ⟨mistakable_slicer, hHost.1 mistakable_slicer⟩

/- So the frames of messages are not apart from size frames. -/
theorem frames_not_disjoint :
    ¬ ∀ (s : Slicer) (message : List UInt8),
      message.length ≤ 65535 →
      ∀ frame ∈ s.frames message, ¬ Mtu.IsSizeFrame frame := by
  intro hDisjoint
  have hFirst :
      (Slices.ofMessage slicer response.encode).frame ∈
        slicer.frames response.encode := by
    rw [Slicer.frames, Slices.toList_of_unfinished rfl]
    exact List.mem_cons_self
  apply hDisjoint slicer response.encode (by decide) _ hFirst
  rw [Slices.isSizeFrame_frame_iff]
  exact mistakable_slicer

end Mistaken

end DeviceSession
