import DeviceSession.Proofs.Faultless.Messages

/-
  Wire forms, and the way there and back.

  A command and a response are each known by their bytes, and
  the bytes by what they stand for.  The same holds when they
  travel in frames, whatever the other end was busy with.  A
  message that is too short for a response is told as such,
  and nothing of it is left behind.

  Key definitions include:
    * `Response.ofTaken`
    * `Assembler.feedResponses`

  Main declarations:
    * `Apdu.decode?_eq_some_iff`
    * `Apdu.isSome_decode?_iff`
    * `Slicer.feedResponses_frames`
    * `Slicer.wireForms_inverse`
-/

------------------------------------------------------------
-- Commands
------------------------------------------------------------

namespace DeviceSession

namespace Apdu

/- Only the wire form of a command is read as that command. -/
theorem decode?_eq_some_iff
    (raw : List UInt8)
    (c : Apdu) :
    decode? raw = some c ↔ raw = c.encode := by
  constructor
  · intro hDecode
    unfold decode? at hDecode
    split at hDecode
    · rename_i cla ins p1 p2 lc data
      split at hDecode
      · rename_i hLength
        unfold ofPayload at hDecode
        split at hDecode
        · obtain rfl := Option.some.inj hDecode
          simp [encode, ← hLength]
        · cases hDecode
      · cases hDecode
    · cases hDecode
  · rintro rfl
    exact c.decode?_encode

/-
  A byte string is the wire form of a command exactly if its
  fifth byte counts those that follow it.
-/
theorem isSome_decode?_iff (raw : List UInt8) :
    (decode? raw).isSome = true ↔
      5 ≤ raw.length ∧ raw.length ≤ 260 ∧
        raw[4]?.map UInt8.toNat = some (raw.length - 5) := by
  match raw with
  | [] | [_] | [_, _] | [_, _, _] | [_, _, _, _] =>
      simp [decode?]
  | cla :: ins :: p1 :: p2 :: lc :: data =>
      have hByte := lc.toNat_lt
      by_cases hLength : lc.toNat = data.length
      · have hShort : data.length ≤ maxPayload := by
          unfold maxPayload
          omega
        simp [decode?, hLength, ofPayload, hShort,
          Except.toOption]
        omega
      · simp [decode?, hLength]

end Apdu

------------------------------------------------------------
-- Responses
------------------------------------------------------------

theorem Response.ofMessage_of_short
    {raw : List UInt8}
    (hShort : raw.length < 2) :
    Response.ofMessage raw = .error .responseTooShort := by
  match raw with
  | [] | [_] => rfl
  | _ :: _ :: _ =>
      simp only [List.length_cons] at hShort
      omega

/- The response in what an assembler has answered. -/
def Response.ofTaken :
    Except FrameError (Option (List UInt8)) →
    Except FrameError (Option Response)
  | .error e => .error e
  | .ok none => .ok none
  | .ok (some raw) => (Response.ofMessage raw).map some

namespace Assembler

/- As `feedAll`, for messages that are responses. -/
def feedResponses (a : Assembler) :
    List (List UInt8) →
    List (Except FrameError (Option Response)) × Assembler
  | [] => ([], a)
  | frame :: frames =>
      let (out, a') := a.feedResponse frame
      let (outs, a'') := feedResponses a' frames
      (out :: outs, a'')

theorem feedResponse_eq
    (a : Assembler)
    (frame : List UInt8) :
    a.feedResponse frame =
      (Response.ofTaken (a.feed frame).1, (a.feed frame).2) := by
  unfold feedResponse
  rcases a.feed frame with ⟨_ | _ | _, b⟩ <;> rfl

theorem feedResponses_eq
    (a : Assembler)
    (frames : List (List UInt8)) :
    a.feedResponses frames =
      ((a.feedAll frames).1.map Response.ofTaken,
        (a.feedAll frames).2) := by
  induction frames generalizing a with
  | nil => rfl
  | cons frame frames ih =>
      simp only [feedResponses, feedAll, feedResponse_eq, ih,
        List.map_cons]

theorem feedResponses_append
    (a : Assembler)
    (frames more : List (List UInt8)) :
    a.feedResponses (frames ++ more) =
      ((a.feedResponses frames).1 ++
          ((a.feedResponses frames).2.feedResponses more).1,
        ((a.feedResponses frames).2.feedResponses more).2) := by
  simp only [feedResponses_eq, feedAll_append, List.map_append]

/-
  The answers to frames of which the last completes a
  response, or should have.
-/
def reading
    (frames : Nat)
    (last : Except FrameError (Option Response)) :
    List (Except FrameError (Option Response)) :=
  List.replicate (frames - 1) (.ok none) ++ [last]

end Assembler

namespace Slicer

variable {s : Slicer} {a : Assembler}

/- The frames of a message give the response that it is. -/
theorem feedResponses_frames
    {message : List UInt8}
    (hProfile : a.profile = s.profile)
    (hLength : message.length ≤ 65535) :
    a.feedResponses (s.frames message) =
      (Assembler.reading (s.frames message).length
          ((Response.ofMessage message).map some),
        .ofProfile a.profile) := by
  have hFollows :=
    a.follows_ofMessage s message hProfile hLength
  have hAll :
      a.feedAll (s.frames message) =
        (Assembler.delivery (s.frames message).length message,
          .ofProfile a.profile) :=
    hFollows.feedAll_toList.2
  rw [Assembler.feedResponses_eq, hAll]
  simp [Assembler.delivery, Assembler.reading, Response.ofTaken]

theorem message_eq_ok
    {message : List UInt8}
    (hLength : message.length ≤ 65535) :
    s.message message = .ok (.ofMessage s message) :=
  if_pos hLength

/- A response is read back from its frames. -/
theorem exists_message_encode
    {r : Response}
    (hProfile : a.profile = s.profile)
    (hData : r.data.length ≤ 65533) :
    ∃ x,
      s.message r.encode = .ok x ∧
      a.feedResponses x.toList =
        (Assembler.reading x.toList.length (.ok (some r)),
          .ofProfile s.profile) := by
  have hLength : r.encode.length ≤ 65535 := by
    rw [r.length_encode]
    omega
  refine ⟨_, message_eq_ok hLength, ?_⟩
  have hFeed := feedResponses_frames hProfile hLength
  rw [r.ofMessage_encode, hProfile] at hFeed
  exact hFeed

/- A single byte always fits into the first frame. -/
theorem exists_frames_eq
    {message : List UInt8}
    (hShort : message.length < 2) :
    ∃ frame, s.frames message = [frame] := by
  let x := Slices.ofMessage s message
  have hLast : x.rest.length ≤ x.capacity := by
    have hRoom := x.capacity_pos
    change message.length ≤ x.capacity
    omega
  have hFinished := x.advance_finished_iff.mpr hLast
  refine ⟨x.frame, ?_⟩
  rw [frames, Slices.toList_of_unfinished rfl,
    Slices.toList_of_finished hFinished]

/- A message that is no response leaves nothing behind. -/
theorem feedResponses_of_short
    {message : List UInt8}
    (hProfile : a.profile = s.profile)
    (hShort : message.length < 2) :
    a.feedResponses (s.frames message) =
      ([.error .responseTooShort], .ofProfile s.profile) := by
  have hLength : message.length ≤ 65535 := by omega
  obtain ⟨frame, hFrame⟩ := s.exists_frames_eq hShort
  rw [feedResponses_frames hProfile hLength, hFrame,
    Response.ofMessage_of_short hShort, hProfile]
  rfl

end Slicer

------------------------------------------------------------
-- There and Back
------------------------------------------------------------

/-
  Reading is the inverse of writing, for commands and for
  responses, with or without frames between the two.  What
  the assembler was in the middle of does not matter.  After
  a message that is too short to be a response it is idle,
  and takes the next one.
-/
theorem Slicer.wireForms_inverse
    (s : Slicer)
    (current : Option Partial) :
    let a : Assembler := ⟨s.profile, current⟩
    let idle : Assembler := .ofProfile s.profile
    (∀ c : Apdu,
      ∃ raw,
        a.feedAll (s.command c).toList =
          (Assembler.delivery (s.command c).toList.length raw,
            idle) ∧
        Apdu.decode? raw = some c) ∧
    (∀ raw,
      (Apdu.decode? raw).isSome = true ↔
        5 ≤ raw.length ∧ raw.length ≤ 260 ∧
          raw[4]?.map UInt8.toNat = some (raw.length - 5)) ∧
    (∀ raw c, Apdu.decode? raw = some c → c.encode = raw) ∧
    (∀ r : Response,
      r.data.length ≤ 65533 →
        ∃ x,
          s.message r.encode = .ok x ∧
          a.feedResponses x.toList =
            (Assembler.reading x.toList.length (.ok (some r)),
              idle)) ∧
    ∀ message : List UInt8,
      message.length < 2 →
        ∃ x frame,
          s.message message = .ok x ∧
          x.toList = [frame] ∧
          a.feedResponse frame =
            (.error .responseTooShort, idle) ∧
          idle.inMessage = false ∧
          ∀ r : Response,
            r.data.length ≤ 65533 →
              ∃ y,
                s.message r.encode = .ok y ∧
                a.feedResponses (x.toList ++ y.toList) =
                  (.error .responseTooShort ::
                    Assembler.reading y.toList.length
                      (.ok (some r)),
                    idle) := by
  intro a idle
  refine ⟨?commands, Apdu.isSome_decode?_iff, ?encoded,
    fun r hData => exists_message_encode rfl hData, ?short⟩
  case commands =>
    intro c
    have hFollows := a.follows_ofMessage s c.encode rfl
      c.length_encode_le
    exact ⟨c.encode, hFollows.feedAll_toList.2,
      c.decode?_encode⟩
  case encoded =>
    intro raw c hDecode
    exact ((Apdu.decode?_eq_some_iff raw c).mp hDecode).symm
  case short =>
    intro message hShort
    obtain ⟨frame, hFrame⟩ := s.exists_frames_eq hShort
    have hLength : message.length ≤ 65535 := by omega
    have hFeed : a.feedResponses (s.frames message) =
        ([.error .responseTooShort], idle) :=
      feedResponses_of_short rfl hShort
    refine ⟨_, frame, message_eq_ok hLength, hFrame, ?_, rfl, ?_⟩
    · rw [hFrame] at hFeed
      simp only [Assembler.feedResponses, Prod.mk.injEq,
        List.cons.injEq, and_true] at hFeed
      exact Prod.ext hFeed.1 hFeed.2
    · intro r hData
      obtain ⟨y, hMessage, hNext⟩ :=
        exists_message_encode (s := s) (a := idle) rfl hData
      refine ⟨y, hMessage, ?_⟩
      change a.feedResponses (s.frames message ++ y.toList) = _
      rw [Assembler.feedResponses_append, hFeed, hNext]
      rfl

end DeviceSession
