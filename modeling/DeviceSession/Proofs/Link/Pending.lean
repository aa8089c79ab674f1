import DeviceSession.Link.Pipe
import Mathlib.Data.List.Basic

/-
  Operations that wait at the ends of a link.

  The host waits for room to write or for the next event, for
  one of them at a time.  The device waits for one frame at a
  time, and for room to send any number of them.  What waits
  is polled again, in any order, until it is answered or given
  up.

  When the link is shut, whatever waits is answered at the
  next poll, with one exception.  A device that waits for room
  to send does not heed the loss: it waits until the host
  takes a frame, and for ever if the host takes none.

  Key definitions include:
    * `PipeCall`
    * `PipeCall.poll`
    * `PipeCall.heeds`
    * `PipeCall.Ready`
    * `BusyPipe`
    * `BusyPipe.run`
    * `BusyPipe.Sound`

  Main declarations:
    * `PipeCall.polled_poll`
    * `PipeCall.isSome_poll_again_iff`
    * `PipeCall.not_ready_of_none`
    * `BusyPipe.Sound.apply`
    * `BusyPipe.sound_run`
    * `BusyPipe.Sound.answered_iff`
    * `BusyPipe.le_toHost_run`
-/

------------------------------------------------------------
-- Operations That May Wait
------------------------------------------------------------

namespace DeviceSession

/- An operation at an end that may have to wait. -/
inductive PipeCall where
  | write (frame : List UInt8)
  | nextEvent
  | recv
  | send (frame : List UInt8)
deriving DecidableEq

/- The answer is a frame that the host takes. -/
def PipeReply.isData : PipeReply → Bool
  | .event (.data _) => true
  | _ => false

namespace PipeCall

/- Poll an operation, for the first time or again. -/
def poll (c : PipeCall) (a : Asked) (p : Pipe) :
    Option PipeReply × Pipe :=
  match c with
  | .write frame =>
      let (r, p') := p.write a frame
      (r.map PipeTable.wrote, p')
  | .nextEvent =>
      let (r, p') := p.nextEvent a
      (r.map .event, p')
  | .recv =>
      let (r, p') := p.recv a
      (r.map .received, p')
  | .send frame =>
      let (r, p') := p.send a frame
      (r.map PipeTable.wrote, p')

/- Whether an operation that waits is told of the loss. -/
def heeds : PipeCall → Bool
  | .send _ => false
  | _ => true

/- One of the two has to be over before the other begins. -/
def excludes : PipeCall → PipeCall → Bool
  | .write _, .write _ => true
  | .write _, .nextEvent => true
  | .nextEvent, .write _ => true
  | .nextEvent, .nextEvent => true
  | .recv, .recv => true
  | _, _ => false

theorem excludes_comm (c c' : PipeCall) :
    c.excludes c' = c'.excludes c := by
  cases c <;> cases c' <;> rfl

/- What answers an operation that waits. -/
def Ready (p : Pipe) : PipeCall → Prop
  | .write _ =>
      p.toDevice.length < Pipe.depth ∨ p.deviceLost = true
  | .nextEvent => p.toHost ≠ [] ∨ p.hostLost = true
  | .recv => p.toDevice ≠ [] ∨ p.deviceLost = true
  | .send _ => p.toHost.length < Pipe.depth

/- An operation that waits is answered when it is ready. -/
theorem isSome_poll_again_iff (c : PipeCall) (p : Pipe) :
    (c.poll .again p).1.isSome = true ↔ c.Ready p := by
  cases c with
  | write frame =>
      simp only [poll, Pipe.write, Pipe.writeBuffer, Ready]
      split
      · simp [*]
      · split <;> simp [*]
  | nextEvent =>
      simp only [poll, Pipe.nextEvent, Ready]
      split
      · simp [*]
      · split <;> simp [*]
  | recv =>
      simp only [poll, Pipe.recv, Ready]
      split
      · simp [*]
      · split <;> simp [*]
  | send frame =>
      simp only [poll, Pipe.send, Ready]
      split
      · simp_all
      · split <;> simp [*]

/- All that a poll can do, by its answer. -/
inductive Polled (a : Asked) (p : Pipe) :
    PipeCall → Option PipeReply → Pipe → Prop where
  | waits
      (c : PipeCall)
      (hOpen : a = .first → p.closed = false) :
      Polled a p c none p
  /- The host is refused, at once. -/
  | refused (frame : List UInt8) (e : LinkError) (n : Nat) :
      Polled a p (.write frame) (some (.failed e))
        { p with failWrites := n }
  | written
      (frame : List UInt8)
      (hRoom : p.toDevice.length < Pipe.depth) :
      Polled a p (.write frame) (some .written)
        { p with
          toDevice := p.toDevice ++ [frame]
          written := p.written + 1 }
  | writeLost
      (frame : List UInt8)
      (hFull : ¬ p.toDevice.length < Pipe.depth) :
      Polled a p (.write frame) (some (.failed .disconnected))
        { p with deviceLost := false }
  | data
      (frame : List UInt8)
      {rest : List (List UInt8)}
      (hQueue : p.toHost = frame :: rest) :
      Polled a p .nextEvent (some (.event (.data frame)))
        { p with toHost := rest }
  | lost (hEmpty : p.toHost = []) (b : Bool) :
      Polled a p .nextEvent (some (.event .lost))
        { p with hostLost := b }
  | received
      (frame : List UInt8)
      {rest : List (List UInt8)}
      (hQueue : p.toDevice = frame :: rest) :
      Polled a p .recv (some (.received (some frame)))
        { p with toDevice := rest, read := p.read + 1 }
  | gone (hEmpty : p.toDevice = []) (b : Bool) :
      Polled a p .recv (some (.received none))
        { p with deviceLost := b }
  | barred (frame : List UInt8) :
      Polled a p (.send frame) (some (.failed .disconnected)) p
  | sent
      (frame : List UInt8)
      (hRoom : p.toHost.length < Pipe.depth) :
      Polled a p (.send frame) (some .written)
        { p with toHost := p.toHost ++ [frame] }

section Poll

variable (a : Asked) (p : Pipe)

theorem polled_writeBuffer
    (frame : List UInt8)
    (hOpen : a = .first → p.closed = false) :
    Polled a p (.write frame)
      ((p.writeBuffer frame).1.map PipeTable.wrote)
      (p.writeBuffer frame).2 := by
  unfold Pipe.writeBuffer
  split
  · exact .written frame ‹_›
  · split
    · exact .writeLost frame ‹_›
    · exact .waits _ hOpen

theorem polled_write (frame : List UInt8) :
    Polled a p (.write frame)
      ((p.write a frame).1.map PipeTable.wrote)
      (p.write a frame).2 := by
  cases a with
  | again => exact polled_writeBuffer .again p frame nofun
  | first =>
      simp only [Pipe.write]
      split
      · exact .refused frame .disconnected p.failWrites
      · rename_i hOpen
        split
        · exact .refused frame .writeFailed (p.failWrites - 1)
        · exact polled_writeBuffer .first p frame
            fun _ => by simpa using hOpen

theorem polled_nextEvent :
    Polled a p .nextEvent
      ((p.nextEvent a).1.map .event)
      (p.nextEvent a).2 := by
  unfold Pipe.nextEvent
  split
  · exact .data _ ‹_›
  · rename_i hEmpty
    cases a with
    | first =>
        dsimp only
        split
        · exact .lost hEmpty p.hostLost
        · exact .waits _ fun _ => by simp_all
    | again =>
        dsimp only
        split
        · exact .lost hEmpty false
        · exact .waits _ nofun

theorem polled_recv :
    Polled a p .recv
      ((p.recv a).1.map .received)
      (p.recv a).2 := by
  unfold Pipe.recv
  split
  · exact .received _ ‹_›
  · rename_i hEmpty
    cases a with
    | first =>
        dsimp only
        split
        · exact .gone hEmpty p.deviceLost
        · exact .waits _ fun _ => by simp_all
    | again =>
        dsimp only
        split
        · exact .gone hEmpty false
        · exact .waits _ nofun

theorem polled_send (frame : List UInt8) :
    Polled a p (.send frame)
      ((p.send a frame).1.map PipeTable.wrote)
      (p.send a frame).2 := by
  unfold Pipe.send
  split
  · exact .barred frame
  · rename_i hOpen
    split
    · exact .sent frame ‹_›
    · exact .waits _ fun hFirst => by simp_all

theorem polled_poll (c : PipeCall) :
    Polled a p c (c.poll a p).1 (c.poll a p).2 := by
  cases c with
  | write frame => exact polled_write a p frame
  | nextEvent => exact polled_nextEvent a p
  | recv => exact polled_recv a p
  | send frame => exact polled_send a p frame

end Poll

namespace Polled

variable {a : Asked} {p p' : Pipe} {c c' : PipeCall}
variable {r : Option PipeReply}

theorem closed_eq (h : Polled a p c r p') :
    p'.closed = p.closed := by
  cases h <;> rfl

/- A poll that is not answered changes nothing. -/
theorem eq_of_none (h : Polled a p c none p') : p' = p := by
  cases h
  rfl

/- The first poll of what is to wait finds the link open. -/
theorem open_of_none (h : Polled .first p c none p') :
    p.closed = false := by
  cases h with
  | waits _ hOpen => exact hOpen rfl

theorem length_toDevice_lt
    {frame : List UInt8}
    (h : Polled a p .recv (some (.received (some frame))) p') :
    p'.toDevice.length < p.toDevice.length := by
  cases h with
  | received frame hQueue => simp [hQueue]

theorem length_toDevice_le
    (h : Polled a p c r p')
    (hBound : p.toDevice.length ≤ Pipe.depth) :
    p'.toDevice.length ≤ Pipe.depth := by
  cases h with
  | written frame hRoom =>
      rw [List.length_append, List.length_singleton]
      exact hRoom
  | received frame hQueue =>
      rw [hQueue, List.length_cons] at hBound
      exact Nat.le_of_succ_le hBound
  | _ => exact hBound

/- Only a frame that the host takes makes room for others. -/
theorem length_toHost_le
    (h : Polled a p c r p')
    (hUnread : ∀ reply ∈ r, reply.isData = false) :
    p.toHost.length ≤ p'.toHost.length := by
  cases h with
  | data frame hQueue => cases hUnread _ rfl
  | sent frame hRoom => simp
  | _ => exact Nat.le_refl _

/- A write finds room, or is told of the loss, as before. -/
theorem ready_write
    (h : Polled a p c r p')
    {frame : List UInt8}
    (hBound : p.toDevice.length ≤ Pipe.depth)
    (hApart : c.excludes (.write frame) = false)
    (hReady : (PipeCall.write frame).Ready p) :
    (PipeCall.write frame).Ready p' := by
  cases h with
  | received frame hQueue =>
      rw [hQueue, List.length_cons] at hBound
      exact .inl hBound
  | gone hEmpty b =>
      left
      change p.toDevice.length < Pipe.depth
      rw [hEmpty]
      decide
  | refused | written | writeLost | data | lost => cases hApart
  | waits | barred | sent => exact hReady

theorem ready_nextEvent
    (h : Polled a p c r p')
    (hApart : c.excludes .nextEvent = false)
    (hReady : PipeCall.nextEvent.Ready p) :
    PipeCall.nextEvent.Ready p' := by
  cases h with
  | sent frame hRoom => exact .inl (by simp)
  | refused | written | writeLost | data | lost => cases hApart
  | waits | received | gone | barred => exact hReady

/-
  So does a device that waits for a frame.  A write that uses
  up the loss of the link has found the buffer full.
-/
theorem ready_recv
    (h : Polled a p c r p')
    (hApart : c.excludes .recv = false)
    (hReady : PipeCall.recv.Ready p) :
    PipeCall.recv.Ready p' := by
  cases h with
  | written frame hRoom => exact .inl (by simp)
  | writeLost frame hFull =>
      refine .inl fun hEmpty => hFull ?_
      have hNil : p.toDevice = [] := hEmpty
      rw [hNil]
      decide
  | received | gone => cases hApart
  | waits | refused | data | lost | barred | sent => exact hReady

/- What would be answered still is after another poll. -/
theorem ready
    (h : Polled a p c r p')
    (hBound : p.toDevice.length ≤ Pipe.depth)
    (hHeeds : c'.heeds = true)
    (hApart : c.excludes c' = false)
    (hReady : c'.Ready p) :
    c'.Ready p' := by
  cases c' with
  | write frame => exact h.ready_write hBound hApart hReady
  | nextEvent => exact h.ready_nextEvent hApart hReady
  | recv => exact h.ready_recv hApart hReady
  | send frame => cases hHeeds

end Polled

/- Nothing that is asked of a shut link begins to wait. -/
theorem not_ready_of_none
    {a : Asked}
    {p : Pipe}
    {c : PipeCall}
    (hNone : (c.poll a p).1 = none)
    (hClosed : p.closed = true) :
    a = .again ∧ ¬ c.Ready p := by
  have hPolled := polled_poll a p c
  rw [hNone] at hPolled
  cases a with
  | first =>
      rw [hPolled.open_of_none] at hClosed
      cases hClosed
  | again =>
      refine ⟨rfl, ?_⟩
      rw [← isSome_poll_again_iff, hNone]
      nofun

/- The loss of the link answers all but a device that sends. -/
theorem ready_hangUp
    {c : PipeCall}
    {p : Pipe}
    (hHeeds : c.heeds = true)
    (hOpen : p.closed = false) :
    c.Ready p.hangUp := by
  rw [Pipe.hangUp, if_neg (by simp [hOpen])]
  cases c with
  | send => cases hHeeds
  | _ => exact .inr rfl

end PipeCall

------------------------------------------------------------
-- A Link and What Waits at Its Ends
------------------------------------------------------------

/- A link, and the operations found pending, oldest first. -/
structure BusyPipe where
  pipe : Pipe := {}
  pending : List PipeCall := []
deriving DecidableEq

/- What is done at the ends of a link. -/
inductive PipeMove where
  /- An operation begins, unless another one excludes it. -/
  | start (c : PipeCall)
  /- One that waits is polled again. -/
  | again (k : Nat)
  /- One that waits is given up. -/
  | giveUp (k : Nat)
  /- Either end closes or drops the link. -/
  | shut
  | failWrites (n : Nat)
deriving DecidableEq

namespace BusyPipe

/- Make a move; the reply to a poll, if it is answered. -/
def apply (b : BusyPipe) :
    PipeMove → Option PipeReply × BusyPipe
  | .start c =>
      if b.pending.any c.excludes then (none, b)
      else
        match c.poll .first b.pipe with
        | (some r, pipe) => (some r, { b with pipe })
        | (none, pipe) =>
            (none, { pipe, pending := b.pending ++ [c] })
  | .again k =>
      match b.pending[k]? with
      | none => (none, b)
      | some c =>
          match c.poll .again b.pipe with
          | (some r, pipe) =>
              (some r,
                { pipe, pending := b.pending.eraseIdx k })
          | (none, pipe) => (none, { b with pipe })
  | .giveUp k =>
      (none, { b with pending := b.pending.eraseIdx k })
  | .shut => (none, { b with pipe := b.pipe.hangUp })
  | .failWrites n =>
      (none, { b with pipe := { b.pipe with failWrites := n } })

def run (b : BusyPipe) : List PipeMove → BusyPipe
  | [] => b
  | m :: moves => (b.apply m).2.run moves

/- The replies to the polls that were answered. -/
def replies (b : BusyPipe) : List PipeMove → List PipeReply
  | [] => []
  | m :: moves =>
      (b.apply m).1.toList ++ (b.apply m).2.replies moves

/-
  At most one operation of a kind waits, and once the link is
  shut, all of them but the sending ones are ready.
-/
structure Sound (b : BusyPipe) : Prop where
  bounded : b.pipe.toDevice.length ≤ Pipe.depth
  apart :
    b.pending.Pairwise fun c c' => c.excludes c' = false
  ready :
    b.pipe.closed = true →
      ∀ c ∈ b.pending, c.heeds = true → c.Ready b.pipe

namespace Sound

variable {b : BusyPipe}

theorem start : Sound {} where
  bounded := Nat.zero_le _
  apart := .nil
  ready := nofun

/- Fewer of them may wait. -/
theorem of_sublist
    (h : b.Sound)
    {pending : List PipeCall}
    (hFewer : pending.Sublist b.pending) :
    Sound { b with pending } where
  bounded := h.bounded
  apart := h.apart.sublist hFewer
  ready := fun hClosed c hMem =>
    h.ready hClosed c (hFewer.subset hMem)

/- A poll is no harm to others that wait. -/
theorem of_polled
    (h : b.Sound)
    {a : Asked}
    {c : PipeCall}
    {r : Option PipeReply}
    {pipe : Pipe}
    (hPolled : PipeCall.Polled a b.pipe c r pipe)
    {pending : List PipeCall}
    (hApart :
      pending.Pairwise fun c c' => c.excludes c' = false)
    (hOthers :
      pipe.closed = true →
        ∀ c' ∈ pending, c'.heeds = true →
          c' ∈ b.pending ∧ c.excludes c' = false) :
    Sound { pipe, pending } where
  bounded := hPolled.length_toDevice_le h.bounded
  apart := hApart
  ready := by
    intro hClosed c' hMem hHeeds
    rcases hOthers hClosed c' hMem hHeeds with ⟨hOld, hFree⟩
    exact hPolled.ready h.bounded hHeeds hFree
      (h.ready (hPolled.closed_eq ▸ hClosed) c' hOld hHeeds)

/- The others that wait go well with the one that is polled. -/
theorem apart_of_mem_eraseIdx
    (h : b.Sound)
    {k : Nat}
    {c c' : PipeCall}
    (hSome : b.pending[k]? = some c)
    (hMem : c' ∈ b.pending.eraseIdx k) :
    c.excludes c' = false := by
  rcases List.mem_eraseIdx_iff_getElem?.mp hMem with
    ⟨i, hOther, hFound⟩
  rcases List.getElem?_eq_some_iff.mp hSome with ⟨hk, rfl⟩
  rcases List.getElem?_eq_some_iff.mp hFound with ⟨hi, rfl⟩
  have hApart := List.pairwise_iff_getElem.mp h.apart
  rcases Nat.lt_or_gt_of_ne hOther with hLt | hGt
  · rw [PipeCall.excludes_comm]
    exact hApart i k hi hk hLt
  · exact hApart k i hk hi hGt

/- One move keeps it so. -/
theorem apply (h : b.Sound) (m : PipeMove) :
    (b.apply m).2.Sound := by
  cases m with
  | start c =>
      have hPolled := c.polled_poll .first b.pipe
      simp only [BusyPipe.apply]
      split
      · exact h
      · rename_i hFree
        have hNone : ∀ c' ∈ b.pending,
            c.excludes c' = false := by
          simpa using hFree
        split
        · rename_i r pipe hPoll
          rw [hPoll] at hPolled
          exact h.of_polled hPolled h.apart
            fun _ c' hMem _ => ⟨hMem, hNone c' hMem⟩
        · rename_i pipe hPoll
          rw [hPoll] at hPolled
          refine h.of_polled hPolled ?_ ?_
          · refine List.pairwise_append.mpr
              ⟨h.apart, List.pairwise_singleton _ _, ?_⟩
            intro c' hMem c'' hLast
            rw [List.mem_singleton.mp hLast,
              PipeCall.excludes_comm]
            exact hNone c' hMem
          · intro hClosed
            rw [hPolled.closed_eq, hPolled.open_of_none]
              at hClosed
            cases hClosed
  | again k =>
      simp only [BusyPipe.apply]
      split
      · exact h
      · rename_i c hSome
        have hPolled := c.polled_poll .again b.pipe
        split
        · rename_i r pipe hPoll
          rw [hPoll] at hPolled
          refine h.of_polled hPolled
            (h.apart.sublist (List.eraseIdx_sublist _ _)) ?_
          exact fun _ c' hMem _ =>
            ⟨List.mem_of_mem_eraseIdx hMem,
              h.apart_of_mem_eraseIdx hSome hMem⟩
        · rename_i pipe hPoll
          rw [hPoll] at hPolled
          cases hPolled
          exact h
  | giveUp k => exact h.of_sublist (List.eraseIdx_sublist _ _)
  | shut =>
      by_cases hClosed : b.pipe.closed = true
      · have hSame : b.pipe.hangUp = b.pipe := if_pos hClosed
        simp only [BusyPipe.apply, hSame]
        exact h
      · refine ⟨?_, h.apart, fun _ c _ hHeeds =>
          PipeCall.ready_hangUp hHeeds (by simpa using hClosed)⟩
        have hBound := h.bounded
        simp only [BusyPipe.apply, Pipe.hangUp, if_neg hClosed]
        exact hBound
  | failWrites n =>
      refine ⟨h.bounded, h.apart, ?_⟩
      intro hClosed c hMem hHeeds
      have hReady := h.ready hClosed c hMem hHeeds
      cases c <;> exact hReady

theorem run (h : b.Sound) (moves : List PipeMove) :
    (b.run moves).Sound := by
  induction moves generalizing b with
  | nil => exact h
  | cons m moves ih => exact ih (h.apply m)

/- What is answered at the next poll when the link is shut. -/
theorem answered_iff
    (h : b.Sound)
    (hClosed : b.pipe.closed = true)
    {c : PipeCall}
    (hMem : c ∈ b.pending) :
    (c.poll .again b.pipe).1.isSome = true ↔
      c.heeds = true ∨ b.pipe.toHost.length < Pipe.depth := by
  rw [c.isSome_poll_again_iff]
  cases hHeeds : c.heeds with
  | true =>
      exact iff_of_true (h.ready hClosed c hMem hHeeds)
        (.inl rfl)
  | false =>
      cases c with
      | send frame => simp [PipeCall.Ready]
      | _ => cases hHeeds

end Sound

/- The links of every run, in any state of their buffers. -/
theorem sound_run (moves : List PipeMove) :
    (run {} moves).Sound :=
  Sound.start.run moves

/- There is no more room unless the host takes a frame. -/
theorem le_toHost_apply
    (b : BusyPipe)
    (m : PipeMove)
    (hUnread : ∀ r ∈ (b.apply m).1, r.isData = false) :
    b.pipe.toHost.length ≤ (b.apply m).2.pipe.toHost.length := by
  cases m with
  | start c =>
      have hPolled := c.polled_poll .first b.pipe
      simp only [apply] at hUnread ⊢
      split
      · exact Nat.le_refl _
      · rename_i hFree
        rw [if_neg hFree] at hUnread
        split <;> rename_i hPoll <;>
          rw [hPoll] at hPolled hUnread <;>
          exact hPolled.length_toHost_le hUnread
  | again k =>
      simp only [apply] at hUnread ⊢
      split
      · exact Nat.le_refl _
      · rename_i c hSome
        have hPolled := c.polled_poll .again b.pipe
        simp only [hSome] at hUnread
        split <;> rename_i hPoll <;>
          rw [hPoll] at hPolled hUnread <;>
          exact hPolled.length_toHost_le hUnread
  | giveUp | failWrites => exact Nat.le_refl _
  | shut =>
      simp only [apply, Pipe.hangUp]
      split <;> exact Nat.le_refl _

theorem le_toHost_run
    (b : BusyPipe)
    (moves : List PipeMove)
    (hUnread : ∀ r ∈ b.replies moves, r.isData = false) :
    b.pipe.toHost.length ≤ (b.run moves).pipe.toHost.length := by
  induction moves generalizing b with
  | nil => exact Nat.le_refl _
  | cons m moves ih =>
      simp only [replies, List.mem_append, Option.mem_toList]
        at hUnread
      exact Nat.le_trans
        (b.le_toHost_apply m fun r hr => hUnread r (.inl hr))
        (ih _ fun r hr => hUnread r (.inr hr))

/- No frame that the device waits to send finds room then. -/
theorem poll_send_run
    (b : BusyPipe)
    (hFull : Pipe.depth ≤ b.pipe.toHost.length)
    (moves : List PipeMove)
    (hUnread : ∀ r ∈ b.replies moves, r.isData = false)
    (frame : List UInt8) :
    (PipeCall.send frame).poll .again (b.run moves).pipe =
      (none, (b.run moves).pipe) := by
  have hStill := b.le_toHost_run moves hUnread
  have hNoRoom :
      ¬ (b.run moves).pipe.toHost.length < Pipe.depth := by
    omega
  simp [PipeCall.poll, Pipe.send, hNoRoom]

end BusyPipe

end DeviceSession
