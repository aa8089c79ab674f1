import DeviceSession.Proofs.Framing.Reassembly

/-
  A receiver that keeps its phase and its buffer apart.

  Nothing in its type says that an idle receiver has an empty
  buffer, or that a buffer is no longer than its message: both
  are kept by every step, so that the number of bytes still
  wanted can always be taken.  It answers as the assembler
  does, which holds phase and buffer in one.

  Key definitions include:
    * `Receiver`
    * `Receiver.feed`
    * `Receiver.Stores`
    * `Intake`

  Main declarations:
    * `Receiver.feed_stores`
    * `Receiver.takeAll_stores`
-/

------------------------------------------------------------
-- Receivers
------------------------------------------------------------

namespace DeviceSession

namespace Receiver

/- What a receiver is doing. -/
inductive Phase where
  | idle
  | receiving (expected : Nat) (next : UInt16)
deriving DecidableEq

end Receiver

structure Receiver where
  profile : Profile
  phase : Receiver.Phase := .idle
  buffer : List UInt8 := []
deriving DecidableEq

namespace Receiver

def ofProfile (p : Profile) : Receiver :=
  { profile := p }

def reset (r : Receiver) : Receiver :=
  { r with phase := .idle, buffer := [] }

/-
  Append payload up to the expected length.  There is no
  result if the buffer is longer than that already.
-/
def accept
    (r : Receiver)
    (expected : Nat)
    (payload : List UInt8) :
    Option (Option (List UInt8) × Receiver) :=
  if expected < r.buffer.length then none
  else
    let wanted := expected - r.buffer.length
    let buffer := r.buffer ++ payload.take wanted
    if buffer.length < expected then
      some (none, { r with buffer })
    else some (some buffer, r.reset)

/- The answer to a frame, and the receiver after it. -/
abbrev Result :=
  Except FrameError (Option (List UInt8)) × Receiver

/- Take in one frame. -/
def feed (r : Receiver) (frame : List UInt8) :
    Option Result :=
  match Assembler.openFrame r.profile frame with
  | .error e => some (.error e, r)
  | .ok (index, body) =>
      if index = 0 then
        match Assembler.splitWord body with
        | .error e => some (.error e, r)
        | .ok (length, payload) =>
            let r :=
              { r with
                phase := .receiving length.toNat 1
                buffer := [] }
            (r.accept length.toNat payload).map
              fun x => (.ok x.1, x.2)
      else
        match r.phase with
        | .idle =>
            some (.error (.unexpectedContinuation index), r)
        | .receiving expected next =>
            if index = next then
              let r :=
                { r with
                  phase := .receiving expected (next + 1) }
              (r.accept expected body).map
                fun x => (.ok x.1, x.2)
            else
              some (.error (.sequenceGap next index), r.reset)

------------------------------------------------------------
-- Receivers and Assemblers
------------------------------------------------------------

/-
  The receiver stores what the assembler holds.  An idle one
  stores nothing, and a buffer is shorter than its message,
  whose length two bytes have declared.
-/
structure Stores (r : Receiver) (a : Assembler) : Prop where
  profile : r.profile = a.profile
  idle : a.current = none → r.phase = .idle ∧ r.buffer = []
  receiving :
    ∀ m, a.current = some m →
      r.phase = .receiving m.expected m.next ∧
        r.buffer = m.buffer.toList ∧
          r.buffer.length < m.expected ∧ m.expected ≤ 65535

theorem stores_ofProfile (p : Profile) :
    (ofProfile p).Stores (.ofProfile p) where
  profile := rfl
  idle _ := ⟨rfl, rfl⟩
  receiving m hm := by cases hm

theorem Stores.reset
    {r : Receiver}
    {a : Assembler}
    (h : r.Stores a) :
    r.reset.Stores a.reset where
  profile := h.profile
  idle _ := ⟨rfl, rfl⟩
  receiving m hm := by cases hm

/- The receiver that stores a message in progress. -/
def ofPartial (p : Profile) (m : Partial) : Receiver :=
  ⟨p, .receiving m.expected m.next, m.buffer.toList⟩

/- Accepting payload comes to the same in both. -/
theorem accept_stores
    (a : Assembler)
    {m : Partial}
    (hRoom : m.buffer.size ≤ m.expected)
    (hBound : m.expected ≤ 65535)
    (payload : List UInt8) :
    ∃ r,
      (ofPartial a.profile m).accept m.expected payload =
          some ((a.accept m payload).1, r) ∧
        r.Stores (a.accept m payload).2 := by
  rcases m with ⟨expected, next, buffer⟩
  let taken := payload.take (expected - buffer.size)
  have hAssembler :=
    Assembler.accept_of_take a expected next buffer.toList
      payload taken rfl
  have hFits : ¬ expected < buffer.toList.length :=
    Nat.not_lt.mpr hRoom
  by_cases hShort :
      (buffer.toList ++ taken).length < expected
  · rw [if_pos hShort] at hAssembler
    rw [hAssembler]
    refine
      ⟨⟨a.profile, .receiving expected next,
        buffer.toList ++ taken⟩, ?_, rfl, ?_, ?_⟩
    · rw [accept, ofPartial, if_neg hFits]
      exact if_pos hShort
    · intro hNone
      cases hNone
    · intro m hm
      cases hm
      exact ⟨rfl, rfl, hShort, hBound⟩
  · rw [if_neg hShort] at hAssembler
    rw [hAssembler]
    refine ⟨⟨a.profile, .idle, []⟩, ?_, rfl, ?_, ?_⟩
    · rw [accept, ofPartial, if_neg hFits]
      exact if_neg hShort
    · exact fun _ => ⟨rfl, rfl⟩
    · intro m hm
      cases hm

/-
  A frame is always taken in, with the answer that the
  assembler gives, and the receiver stores what the assembler
  holds after it.
-/
theorem feed_stores
    {r : Receiver}
    {a : Assembler}
    (h : r.Stores a)
    (frame : List UInt8) :
    ∃ r',
      r.feed frame = some ((a.feed frame).1, r') ∧
        r'.Stores (a.feed frame).2 := by
  unfold feed Assembler.feed
  rw [h.profile]
  cases Assembler.openFrame a.profile frame with
  | error e => exact ⟨r, rfl, h⟩
  | ok parts =>
      rcases parts with ⟨index, body⟩
      by_cases hIndex : index = 0
      · simp only [if_pos hIndex]
        cases Assembler.splitWord body with
        | error e => exact ⟨r, rfl, h⟩
        | ok parts =>
            rcases parts with ⟨length, payload⟩
            rcases accept_stores a
                (m := ⟨length.toNat, 1, #[]⟩) (Nat.zero_le _)
                (Nat.le_of_lt_succ length.toNat_lt) payload with
              ⟨r', hAccept, hStores⟩
            exact ⟨r', congrArg (Option.map _) hAccept, hStores⟩
      · simp only [if_neg hIndex]
        rcases a with ⟨p, current⟩
        cases current with
        | none =>
            rw [(h.idle rfl).1]
            exact ⟨r, rfl, h⟩
        | some m =>
            rcases h.receiving m rfl with
              ⟨hPhase, hBuffer, hShort, hBound⟩
            rw [hPhase]
            by_cases hNext : index = m.next
            · simp only [if_pos hNext]
              rw [hBuffer] at hShort ⊢
              rcases accept_stores ⟨p, none⟩
                  (m := { m with next := m.next + 1 })
                  (Nat.le_of_lt hShort) hBound body with
                ⟨r', hAccept, hStores⟩
              exact
                ⟨r', congrArg (Option.map _) hAccept, hStores⟩
            · simp only [if_neg hNext]
              exact ⟨r.reset, rfl, h.reset⟩

end Receiver

------------------------------------------------------------
-- Frames and Resets
------------------------------------------------------------

/- What comes to a receiver or an assembler. -/
inductive Intake where
  | frame (bytes : List UInt8)
  /- The message in progress is to be forgotten. -/
  | reset

namespace Assembler

/- The assembler after an intake. -/
def take (a : Assembler) : Intake → Assembler
  | .frame bytes => (a.feed bytes).2
  | .reset => a.reset

/- The assembler after a history of intakes, in order. -/
def takeAll (a : Assembler) (history : List Intake) :
    Assembler :=
  history.foldl take a

theorem takeAll_concat
    (a : Assembler)
    (history : List Intake)
    (x : Intake) :
    a.takeAll (history ++ [x]) = (a.takeAll history).take x :=
  List.foldl_append ..

end Assembler

namespace Receiver

/- The same for a receiver, as long as it has results. -/
def take (r : Receiver) : Intake → Option Receiver
  | .frame bytes => (r.feed bytes).map Prod.snd
  | .reset => some r.reset

def takeAll (r : Receiver) (history : List Intake) :
    Option Receiver :=
  history.foldlM take r

/- A receiver stores what an assembler holds, throughout. -/
theorem takeAll_stores
    {r : Receiver}
    {a : Assembler}
    (h : r.Stores a)
    (history : List Intake) :
    ∃ r',
      r.takeAll history = some r' ∧
        r'.Stores (a.takeAll history) := by
  induction history generalizing r a with
  | nil => exact ⟨r, rfl, h⟩
  | cons x history ih =>
      cases x with
      | frame bytes =>
          rcases feed_stores h bytes with ⟨r', hFeed, hStores⟩
          rcases ih hStores with ⟨r'', hRest, hAfter⟩
          refine ⟨r'', ?_, hAfter⟩
          rw [← hRest]
          simp [takeAll, take, hFeed]
      | reset => exact ih h.reset

end Receiver

end DeviceSession
