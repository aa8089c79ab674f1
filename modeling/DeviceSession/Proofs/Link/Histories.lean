import DeviceSession.Proofs.Run.Ownership

/-
  Links within one program, in any order of operations.

  The history of the links is the list of the operations with
  their answers.  It alone says which links were opened and
  accepted, which frames were sent on their way to either end
  of a link, which ones that end has got, and whether the
  link has been given up.

  An operation at an end acts on the link of that end alone.
  It puts a frame behind the others, takes the first one,
  tells that the link is over, shuts it, or does nothing that
  any end can tell.

  Key definitions include:
    * `PipeEnd`
    * `Pipe.queue`
    * `PipeEvent`
    * `PipeDeed`
    * `PipeHistory.sent`
    * `PipeHistory.received`
    * `PipeHistory.Shut`
    * `PipeTable.history`
    * `Pipe.Does`

  Main declarations:
    * `Pipe.Does.queue`
    * `PipeStep.does_onPipe`
    * `PipeTable.apply_at`
-/

------------------------------------------------------------
-- Ends
------------------------------------------------------------

namespace DeviceSession

/- An end of a link. -/
inductive PipeEnd where
  | host
  | device
deriving DecidableEq

/- The operation that waits for a frame at an end. -/
def PipeEnd.poll : PipeEnd → Nat → PipeStep
  | .host => .nextEvent
  | .device => .recv

/- It was refused, or was pending and has been given up. -/
def PipeReply.isVain : PipeReply → Bool
  | .pending => true
  | .failed _ => true
  | _ => false

/- How an end gets a frame. -/
def PipeEnd.found : PipeEnd → List UInt8 → PipeReply
  | .host => fun frame => .event (.data frame)
  | .device => fun frame => .received (some frame)

/- How an end is told that its link is over. -/
def PipeEnd.gone : PipeEnd → PipeReply
  | .host => .event .lost
  | .device => .received none

/- The frames on their way to an end, oldest first. -/
def Pipe.queue (p : Pipe) : PipeEnd → List (List UInt8)
  | .host => p.toHost
  | .device => p.toDevice

/- The end at which an operation is made, by its number. -/
def PipeStep.place? : PipeStep → Option (PipeEnd × Nat)
  | .write i _ => some (.host, i)
  | .nextEvent i => some (.host, i)
  | .close i => some (.host, i)
  | .dropHost i => some (.host, i)
  | .recv i => some (.device, i)
  | .send i _ => some (.device, i)
  | .dropLink i => some (.device, i)
  | .dropDevice i => some (.device, i)
  | .failWrites i _ => some (.device, i)
  | .connect => none
  | .accept => none
  | .control _ => none
  | .reach => none

/- Whether an operation gives its end up. -/
def PipeStep.drops : PipeStep → Bool
  | .dropHost _ => true
  | .dropDevice _ => true
  | _ => false

------------------------------------------------------------
-- Histories
------------------------------------------------------------

/- An operation on links and its answer. -/
structure PipeEvent where
  step : PipeStep
  reply : PipeReply
deriving DecidableEq

/- What comes of an operation at the end of a link. -/
inductive PipeDeed where
  /- A frame was accepted, on its way to an end. -/
  | sent (e : PipeEnd) (frame : List UInt8)
  /- An end has got a frame. -/
  | received (e : PipeEnd) (frame : List UInt8)
  /- An end was told that the link is over. -/
  | gone (e : PipeEnd)
  /- The link was given up. -/
  | shut
  /- It was refused, or was pending and has been given up. -/
  | nothing
deriving DecidableEq

namespace PipeDeed

def sent? (e : PipeEnd) : PipeDeed → Option (List UInt8)
  | .sent e' frame => if e' = e then some frame else none
  | _ => none

def received? (e : PipeEnd) : PipeDeed → Option (List UInt8)
  | .received e' frame => if e' = e then some frame else none
  | _ => none

end PipeDeed

namespace PipeEvent

/- What has come of an operation, by its answer. -/
def deed : PipeEvent → PipeDeed
  | ⟨.write _ frame, .written⟩ => .sent .device frame
  | ⟨.send _ frame, .written⟩ => .sent .host frame
  | ⟨.recv _, .received (some frame)⟩ =>
      .received .device frame
  | ⟨.recv _, .received none⟩ => .gone .device
  | ⟨.nextEvent _, .event (.data frame)⟩ =>
      .received .host frame
  | ⟨.nextEvent _, .event .lost⟩ => .gone .host
  | ⟨.close _, _⟩ => .shut
  | ⟨.dropHost _, _⟩ => .shut
  | ⟨.dropLink _, _⟩ => .shut
  | ⟨.dropDevice _, _⟩ => .shut
  | _ => .nothing

/- What has come of it for the ends of one number. -/
def deedAt (i : Nat) (ev : PipeEvent) : PipeDeed :=
  if ev.step.place?.map Prod.snd = some i then ev.deed
  else .nothing

section Deed

variable {ev : PipeEvent} {e : PipeEnd} {i : Nat}

/- An operation is done at its own link. -/
theorem deedAt_self
    (hPlace : ev.step.place? = some (e, i)) :
    ev.deedAt i = ev.deed := by
  simp [deedAt, hPlace]

/- It is nothing to the other links. -/
theorem deedAt_of_ne
    (hPlace : ev.step.place? = some (e, i))
    {j : Nat}
    (hOther : j ≠ i) :
    ev.deedAt j = .nothing := by
  simp [deedAt, hPlace, hOther.symm]

/- Without an end there is nothing done. -/
theorem deedAt_of_none
    (hPlace : ev.step.place? = none)
    (i : Nat) :
    ev.deedAt i = .nothing := by
  simp [deedAt, hPlace]

/- To give an end up is to give the link up. -/
theorem deed_of_drops (hDrops : ev.step.drops = true) :
    ev.deed = .shut := by
  rcases ev with ⟨step, reply⟩
  cases step <;> cases hDrops <;> rfl

/- What was in vain is no frame sent, and none received. -/
theorem deedAt_of_isVain
    (hVain : ev.reply.isVain = true)
    (i : Nat)
    (e : PipeEnd) :
    (ev.deedAt i).sent? e = none ∧
      (ev.deedAt i).received? e = none := by
  unfold deedAt
  split
  · rcases ev with ⟨step, reply⟩
    cases reply <;> cases hVain <;> cases step <;>
      exact ⟨rfl, rfl⟩
  · exact ⟨rfl, rfl⟩

/- Without an end, no more can be done than to give it up. -/
theorem deed_done (step : PipeStep) :
    deed ⟨step, .done⟩ = .shut ∨
      deed ⟨step, .done⟩ = .nothing := by
  cases step <;> simp [deed]

end Deed

/- The link whose end was handed out. -/
def handed? : PipeEnd → PipeEvent → Option Nat
  | .host, ⟨.connect, .link id⟩ => some id
  | .device, ⟨.accept, .link id⟩ => some id
  | _, _ => none

/- An operation at an end hands out no other. -/
theorem handed?_of_place
    {ev : PipeEvent}
    {place : PipeEnd × Nat}
    (hPlace : ev.step.place? = some place)
    (e : PipeEnd) :
    ev.handed? e = none := by
  rcases ev with ⟨step, reply⟩
  cases step <;> cases hPlace <;> cases e <;> rfl

end PipeEvent

/- What was done to the links of a device, in order. -/
abbrev PipeHistory := List PipeEvent

namespace PipeHistory

/- The links whose ends were handed out, in order. -/
def handed (e : PipeEnd) (h : PipeHistory) : List Nat :=
  h.filterMap (PipeEvent.handed? e)

/- The frames accepted on their way to an end. -/
def sent
    (e : PipeEnd)
    (i : Nat)
    (h : PipeHistory) : List (List UInt8) :=
  h.filterMap fun ev => (ev.deedAt i).sent? e

/- The frames that an end has got. -/
def received
    (e : PipeEnd)
    (i : Nat)
    (h : PipeHistory) : List (List UInt8) :=
  h.filterMap fun ev => (ev.deedAt i).received? e

/- An operation gives a link up, at an end handed out. -/
def Shuts (h : PipeHistory) (i : Nat) (ev : PipeEvent) :
    Prop :=
  ev.deedAt i = .shut ∧
    ∃ e, ev.step.place? = some (e, i) ∧
      i < (handed e h).length

/- The link of a number has been given up at either end. -/
def Shut (i : Nat) (h : PipeHistory) : Prop :=
  ∃ before ev after,
    h = before ++ ev :: after ∧ Shuts before i ev

/- What a history tells, with one more operation. -/
theorem handed_concat
    (e : PipeEnd)
    (h : PipeHistory)
    (ev : PipeEvent) :
    handed e (h ++ [ev]) =
      handed e h ++ (ev.handed? e).toList := by
  simp only [handed, List.filterMap_append,
    List.filterMap_cons, List.filterMap_nil]
  cases ev.handed? e <;> rfl

/- The frames sent on a link. -/
theorem sent_concat
    (e : PipeEnd)
    (i : Nat)
    (h : PipeHistory)
    (ev : PipeEvent) :
    sent e i (h ++ [ev]) =
      sent e i h ++ ((ev.deedAt i).sent? e).toList := by
  simp only [sent, List.filterMap_append, List.filterMap_cons,
    List.filterMap_nil]
  cases (ev.deedAt i).sent? e <;> rfl

/- The frames got from it. -/
theorem received_concat
    (e : PipeEnd)
    (i : Nat)
    (h : PipeHistory)
    (ev : PipeEvent) :
    received e i (h ++ [ev]) =
      received e i h ++
        ((ev.deedAt i).received? e).toList := by
  simp only [received, List.filterMap_append,
    List.filterMap_cons, List.filterMap_nil]
  cases (ev.deedAt i).received? e <;> rfl

/- Where a history splits that is one operation longer. -/
theorem split_concat
    {h before after : PipeHistory}
    {ev ev' : PipeEvent}
    (hSplit : h ++ [ev] = before ++ ev' :: after) :
    (h = before ∧ ev = ev' ∧ after = []) ∨
      ∃ after',
        h = before ++ ev' :: after' ∧ after = after' ++ [ev] := by
  rcases List.eq_nil_or_concat after with
    rfl | ⟨after', last, rfl⟩
  · rcases List.append_inj' hSplit rfl with ⟨hSame, hLast⟩
    exact .inl ⟨hSame, (List.cons.inj hLast).1, rfl⟩
  · have hLonger :
        before ++ ev' :: after'.concat last =
          (before ++ ev' :: after') ++ [last] := by
      simp
    rw [hLonger] at hSplit
    rcases List.append_inj' hSplit rfl with ⟨hSame, hLast⟩
    refine .inr ⟨after', hSame, ?_⟩
    rw [List.concat_eq_append, (List.cons.inj hLast).1]

/- Nobody has shut a link before the first operation. -/
theorem not_shut_nil (i : Nat) : ¬ Shut i [] := by
  rintro ⟨before, ev, after, hSplit, -⟩
  simp at hSplit

/- A link is shut by the operation that shuts it. -/
theorem shut_concat
    {i : Nat}
    {h : PipeHistory}
    {ev : PipeEvent} :
    Shut i (h ++ [ev]) ↔ Shut i h ∨ Shuts h i ev := by
  constructor
  · rintro ⟨before, ev', after, hSplit, hShuts⟩
    rcases split_concat hSplit with
      ⟨rfl, rfl, -⟩ | ⟨after', hEarlier, -⟩
    · exact .inr hShuts
    · exact .inl ⟨before, ev', after', hEarlier, hShuts⟩
  · rintro (⟨before, ev', after, rfl, hShuts⟩ | hShuts)
    · exact ⟨before, ev', after ++ [ev], by simp, hShuts⟩
    · exact ⟨h, ev, [], rfl, hShuts⟩

/- A link once shut is shut for good. -/
theorem Shut.append
    {i : Nat}
    {before : PipeHistory}
    (hShut : Shut i before)
    (after : PipeHistory) :
    Shut i (before ++ after) := by
  rcases hShut with ⟨first, ev, rest, rfl, hShuts⟩
  exact ⟨first, ev, rest ++ after, by simp, hShuts⟩

end PipeHistory

------------------------------------------------------------
-- Operations at an End
------------------------------------------------------------

namespace Pipe

/- Accept a frame on its way to an end. -/
def put (p : Pipe) (frame : List UInt8) : PipeEnd → Pipe
  | .host => { p with toHost := p.toHost ++ [frame] }
  | .device =>
      { p with
        toDevice := p.toDevice ++ [frame]
        written := p.written + 1 }

/- Hand the first frame out to an end. -/
def take (p : Pipe) : PipeEnd → Pipe
  | .host => { p with toHost := p.toHost.tail }
  | .device =>
      { p with
        toDevice := p.toDevice.tail
        read := p.read + 1 }

/- All that an operation at an end does to a link. -/
inductive Does (p : Pipe) : PipeDeed → Pipe → Prop where
  | sent
      (e : PipeEnd)
      (frame : List UInt8)
      (hOpen : p.closed = false)
      (hRoom : (p.queue e).length < depth) :
      Does p (.sent e frame) (p.put frame e)
  | received
      (e : PipeEnd)
      (frame : List UInt8)
      {rest : List (List UInt8)}
      (hQueue : p.queue e = frame :: rest) :
      Does p (.received e frame) (p.take e)
  | gone
      (e : PipeEnd)
      (hClosed : p.closed = true)
      (hEmpty : p.queue e = []) :
      Does p (.gone e) p
  | shut : Does p .shut p.hangUp
  /- All that may change is how later operations fail. -/
  | nothing (n : Nat) (b : Bool) :
      Does p .nothing { p with failWrites := n, deviceLost := b }

/- A frame is put behind the others, for one end. -/
theorem queue_put
    (p : Pipe)
    (frame : List UInt8)
    (e e' : PipeEnd) :
    (p.put frame e).queue e' =
      if e = e' then p.queue e' ++ [frame] else p.queue e' := by
  cases e <;> cases e' <;> rfl

/- The first one is taken, at one end. -/
theorem queue_take (p : Pipe) (e e' : PipeEnd) :
    (p.take e).queue e' =
      if e = e' then (p.queue e').tail else p.queue e' := by
  cases e <;> cases e' <;> rfl

/- What is on its way is still there to be taken. -/
@[simp] theorem queue_hangUp (p : Pipe) (e : PipeEnd) :
    p.hangUp.queue e = p.queue e := by
  unfold hangUp
  split <;> cases e <;> rfl

namespace Does

variable {p p' : Pipe} {d : PipeDeed}

/- Frames go in behind the others, and the first comes out. -/
theorem queue (h : p.Does d p') (e : PipeEnd) :
    p.queue e ++ (d.sent? e).toList =
      (d.received? e).toList ++ p'.queue e := by
  cases h with
  | sent e' frame =>
      rw [queue_put]
      dsimp only [PipeDeed.sent?, PipeDeed.received?]
      split <;> simp
  | received e' frame hQueue =>
      rw [queue_take]
      dsimp only [PipeDeed.sent?, PipeDeed.received?]
      split
      next hSame =>
        subst hSame
        simp [hQueue]
      next => simp
  | gone => simp [PipeDeed.sent?, PipeDeed.received?]
  | shut => simp [PipeDeed.sent?, PipeDeed.received?]
  | nothing n b => cases e <;> exact List.append_nil _

/- No end has more frames to take than there is room for. -/
theorem bounded
    (h : p.Does d p')
    {e : PipeEnd}
    (hBound : (p.queue e).length ≤ depth) :
    (p'.queue e).length ≤ depth := by
  cases h with
  | sent e' frame hOpen hRoom =>
      rw [queue_put]
      split
      next hSame =>
        subst hSame
        rw [List.length_append, List.length_singleton]
        exact hRoom
      next => exact hBound
  | received e' frame hQueue =>
      rw [queue_take]
      split
      · rw [List.length_tail]
        omega
      · exact hBound
  | gone => exact hBound
  | shut => rwa [queue_hangUp]
  | nothing n b => cases e <;> exact hBound

/- The counters count what is sent to and got by the device. -/
theorem counters (h : p.Does d p') :
    p'.written = p.written + (d.sent? .device).toList.length ∧
      p'.read =
        p.read + (d.received? .device).toList.length := by
  cases h with
  | sent e frame => cases e <;> exact ⟨rfl, rfl⟩
  | received e frame => cases e <;> exact ⟨rfl, rfl⟩
  | gone => exact ⟨rfl, rfl⟩
  | shut =>
      unfold hangUp
      split <;> exact ⟨rfl, rfl⟩
  | nothing => exact ⟨rfl, rfl⟩

/- A link is shut for good, and in no other way. -/
theorem closed (h : p.Does d p') :
    p'.closed = true ↔ p.closed = true ∨ d = .shut := by
  cases h with
  | sent e frame => cases e <;> simp [put]
  | received e frame => cases e <;> simp [take]
  | gone => simp
  | shut => simp
  | nothing => simp

end Does

end Pipe

/- The answer to an operation that is given up if pending. -/
def PipeStep.once
    {R : Type}
    (reply : R → PipeReply)
    (out : Option R × Pipe) : PipeReply × Pipe :=
  ((out.1.map reply).getD .pending, out.2)

/- What an operation at an end does to the link. -/
def PipeStep.onPipe (p : Pipe) : PipeStep → PipeReply × Pipe
  | .write _ frame =>
      once PipeTable.wrote (p.write .first frame)
  | .nextEvent _ => once PipeReply.event (p.nextEvent .first)
  | .close _ => (.done, p.hangUp)
  | .dropHost _ => (.done, p.hangUp)
  | .recv _ => once PipeReply.received (p.recv .first)
  | .send _ frame =>
      once PipeTable.wrote (p.send .first frame)
  | .dropLink _ => (.done, p.hangUp)
  | .dropDevice _ => (.done, p.hangUp)
  | .failWrites _ n => (.done, { p with failWrites := n })
  | _ => (.done, p)

namespace PipeStep

/- The host writes: the frame is sent, or nothing is done. -/
theorem does_write (p : Pipe) (i : Nat) (frame : List UInt8) :
    let out := onPipe p (.write i frame)
    p.Does (PipeEvent.deed ⟨.write i frame, out.1⟩) out.2 := by
  dsimp only [onPipe, Pipe.write]
  by_cases hClosed : p.closed = true
  · rw [if_pos hClosed]
    exact .nothing p.failWrites p.deviceLost
  by_cases hFails : 0 < p.failWrites
  · rw [if_neg hClosed, if_pos hFails]
    exact .nothing (p.failWrites - 1) p.deviceLost
  rw [if_neg hClosed, if_neg hFails, Pipe.writeBuffer]
  by_cases hRoom : p.toDevice.length < Pipe.depth
  · rw [if_pos hRoom]
    exact .sent .device frame (by simpa using hClosed) hRoom
  by_cases hLost : p.deviceLost = true
  · rw [if_neg hRoom, if_pos hLost]
    exact .nothing p.failWrites false
  · rw [if_neg hRoom, if_neg hLost]
    exact .nothing p.failWrites p.deviceLost

/- The host takes a frame, or hears that the link is over. -/
theorem does_nextEvent (p : Pipe) (i : Nat) :
    let out := onPipe p (.nextEvent i)
    p.Does (PipeEvent.deed ⟨.nextEvent i, out.1⟩) out.2 := by
  dsimp only [onPipe, Pipe.nextEvent]
  split
  next frame rest hQueue =>
    have hTake : p.take .host = { p with toHost := rest } := by
      rw [Pipe.take, hQueue]
      rfl
    rw [← hTake]
    exact .received .host frame hQueue
  next hQueue =>
    by_cases hClosed : p.closed = true
    · rw [if_pos hClosed]
      exact .gone .host hClosed hQueue
    · rw [if_neg hClosed]
      exact .nothing p.failWrites p.deviceLost

/- So does the device. -/
theorem does_recv (p : Pipe) (i : Nat) :
    let out := onPipe p (.recv i)
    p.Does (PipeEvent.deed ⟨.recv i, out.1⟩) out.2 := by
  dsimp only [onPipe, Pipe.recv]
  split
  next frame rest hQueue =>
    have hTake :
        p.take .device =
          { p with toDevice := rest, read := p.read + 1 } := by
      rw [Pipe.take, hQueue]
      rfl
    rw [← hTake]
    exact .received .device frame hQueue
  next hQueue =>
    by_cases hClosed : p.closed = true
    · rw [if_pos hClosed]
      exact .gone .device hClosed hQueue
    · rw [if_neg hClosed]
      exact .nothing p.failWrites p.deviceLost

/- The device sends: the frame goes up, or nothing is done. -/
theorem does_send (p : Pipe) (i : Nat) (frame : List UInt8) :
    let out := onPipe p (.send i frame)
    p.Does (PipeEvent.deed ⟨.send i frame, out.1⟩) out.2 := by
  dsimp only [onPipe, Pipe.send]
  by_cases hClosed : p.closed = true
  · rw [if_pos ⟨rfl, hClosed⟩]
    exact .nothing p.failWrites p.deviceLost
  rw [if_neg fun h => hClosed h.2]
  by_cases hRoom : p.toHost.length < Pipe.depth
  · rw [if_pos hRoom]
    exact .sent .host frame (by simpa using hClosed) hRoom
  · rw [if_neg hRoom]
    exact .nothing p.failWrites p.deviceLost

/- What an operation at an end comes to is what it answers. -/
theorem does_onPipe (p : Pipe) (step : PipeStep) :
    p.Does (PipeEvent.deed ⟨step, (step.onPipe p).1⟩)
      (step.onPipe p).2 := by
  cases step with
  | write i frame => exact does_write p i frame
  | nextEvent i => exact does_nextEvent p i
  | recv i => exact does_recv p i
  | send i frame => exact does_send p i frame
  | close | dropHost | dropLink | dropDevice => exact .shut
  | failWrites i n => exact .nothing n p.deviceLost
  | connect | accept | control | reach =>
      exact .nothing p.failWrites p.deviceLost

/- What an end that waits for a frame is answered. -/
theorem onPipe_poll (p : Pipe) (e : PipeEnd) (i : Nat) :
    ((e.poll i).onPipe p).1 =
      match p.queue e with
      | frame :: _ => e.found frame
      | [] => if p.closed then e.gone else .pending := by
  cases e with
  | host =>
      dsimp only [PipeEnd.poll, onPipe, Pipe.nextEvent, Pipe.queue]
      cases p.toHost with
      | cons frame rest => rfl
      | nil => cases p.closed <;> rfl
  | device =>
      dsimp only [PipeEnd.poll, onPipe, Pipe.recv, Pipe.queue]
      cases p.toDevice with
      | cons frame rest => rfl
      | nil => cases p.closed <;> rfl

end PipeStep

------------------------------------------------------------
-- Operations on a Table
------------------------------------------------------------

namespace PipeTable

/- Operations with their answers. -/
def history (t : PipeTable) : List PipeStep → PipeHistory
  | [] => []
  | step :: steps =>
      ⟨step, (t.apply step).1⟩ ::
        history (t.apply step).2 steps

/- A history can be made in parts. -/
theorem history_append
    (t : PipeTable)
    (steps steps' : List PipeStep) :
    t.history (steps ++ steps') =
      t.history steps ++ (t.run steps).history steps' := by
  induction steps generalizing t with
  | nil => rfl
  | cons step steps ih =>
      exact congrArg _ (ih (t.apply step).2)

/- The last operation comes after all others. -/
theorem run_concat
    (t : PipeTable)
    (steps : List PipeStep)
    (step : PipeStep) :
    t.run (steps ++ [step]) = ((t.run steps).apply step).2 :=
  List.foldl_append

/- It is the last entry, with its answer. -/
theorem history_concat
    (t : PipeTable)
    (steps : List PipeStep)
    (step : PipeStep) :
    t.history (steps ++ [step]) =
      t.history steps ++
        [⟨step, ((t.run steps).apply step).1⟩] :=
  history_append t steps [step]

/- The ends that were handed out, in order. -/
def ends (t : PipeTable) : PipeEnd → Array (Option Nat)
  | .host => t.hosts
  | .device => t.devices

/- The link of an end that has been handed out and is held. -/
def held? (t : PipeTable) (e : PipeEnd) (i : Nat) :
    Option Nat :=
  (t.ends e)[i]?.join

/- The end that an operation gives up is no longer held. -/
def leave (t : PipeTable) : PipeStep → PipeTable
  | .dropHost i =>
      { t with hosts := t.hosts.setIfInBounds i none }
  | .dropDevice i =>
      { t with devices := t.devices.setIfInBounds i none }
  | _ => t

/- To leave an end does nothing to the links. -/
@[simp] theorem hub_leave (t : PipeTable) (step : PipeStep) :
    (t.leave step).hub = t.hub := by
  cases step <;> rfl

@[simp] theorem size_ends_leave
    (t : PipeTable)
    (step : PipeStep)
    (e : PipeEnd) :
    ((t.leave step).ends e).size = (t.ends e).size := by
  cases step <;> cases e <;> simp [leave, ends]

/- An end that is left is held no more. -/
theorem held?_setIfInBounds
    (ends : Array (Option Nat))
    (i j : Nat) :
    (ends.setIfInBounds i none)[j]?.join =
      if j = i then none else ends[j]?.join := by
  rw [Array.getElem?_setIfInBounds]
  by_cases hSame : j = i
  · rw [if_pos hSame.symm, if_pos hSame]
    split <;> rfl
  · rw [if_neg (Ne.symm hSame), if_neg hSame]

/- All others are held as before. -/
theorem held?_leave
    (t : PipeTable)
    (step : PipeStep)
    (e : PipeEnd)
    (i : Nat) :
    (t.leave step).held? e i =
      if step.drops ∧ step.place? = some (e, i) then none
      else t.held? e i := by
  cases step with
  | dropHost j =>
      cases e with
      | host =>
          simp [held?, ends, leave, held?_setIfInBounds,
            PipeStep.drops, PipeStep.place?, eq_comm]
      | device => simp [held?, ends, leave, PipeStep.place?]
  | dropDevice j =>
      cases e with
      | host => simp [held?, ends, leave, PipeStep.place?]
      | device =>
          simp [held?, ends, leave, held?_setIfInBounds,
            PipeStep.drops, PipeStep.place?, eq_comm]
  | _ => simp [leave, PipeStep.drops]

variable
  {t : PipeTable} {step : PipeStep} {e : PipeEnd}
  {i id : Nat}

/- With no end there is nothing to be done. -/
theorem apply_of_none
    (hPlace : step.place? = some (e, i))
    (hNone : t.held? e i = none) :
    t.apply step = (.done, t.leave step) := by
  cases step <;> cases hPlace <;>
    simp only [held?, ends] at hNone <;>
    simp only [apply, host?, device?, hNone] <;> rfl

end PipeTable

namespace PipeHub

/- To change a link is to replace it. -/
theorem modify_eq
    (h : PipeHub)
    (id : Nat)
    (f : Pipe → Pipe) :
    h.modify id f = h.modify id fun _ => f (h.link id) := by
  unfold modify link
  congr 1
  apply Array.ext_getElem?
  intro j
  rw [Array.getElem?_modify, Array.getElem?_modify]
  by_cases hSame : id - 1 = j
  · rw [if_pos hSame, if_pos hSame, hSame]
    cases h.links[j]? <;> rfl
  · rw [if_neg hSame, if_neg hSame]

/- A link is changed. -/
theorem link_modify_self
    (h : PipeHub)
    {id : Nat}
    (hPositive : 0 < id)
    (hKnown : id ≤ h.links.size)
    (f : Pipe → Pipe) :
    (h.modify id f).link id = f (h.link id) := by
  have hSome : id - 1 < h.links.size := by omega
  unfold modify link
  rw [Array.getElem?_modify, if_pos rfl,
    Array.getElem?_eq_getElem hSome]
  rfl

/- The others are not. -/
theorem link_modify_of_ne
    (h : PipeHub)
    {id id' : Nat}
    (hPositive : 0 < id)
    (hPositive' : 0 < id')
    (hOther : id' ≠ id)
    (f : Pipe → Pipe) :
    (h.modify id f).link id' = h.link id' := by
  have hPlace : id - 1 ≠ id' - 1 := by omega
  unfold modify link
  rw [Array.getElem?_modify, if_neg hPlace]

/- The links of a hub do not change when one is opened. -/
theorem link_connect
    {h : PipeHub}
    {out : Except LinkError Nat × PipeHub}
    (hCounted : h.Counted)
    (hConnects : Connects h out)
    {id : Nat}
    (hPositive : 0 < id)
    (hKnown : id ≤ h.opened) :
    out.2.link id = h.link id := by
  have hOther : id ≠ h.links.size + 1 := by
    rw [hCounted]
    omega
  unfold link
  cases hConnects with
  | refused e hLinks => rw [hLinks]
  | opened hLinks =>
      rw [hLinks]
      exact h.link_push {} hPositive hOther
  | unheard e hLinks =>
      rw [hLinks]
      exact h.link_push _ hPositive hOther

/- A link that is opened waits to be accepted. -/
theorem waiting_connect (h : PipeHub) :
    h.connect.2.waiting =
      h.waiting ++ h.connect.1.toOption.toList := by
  have hNone : h.waiting = h.waiting ++ [] :=
    (List.append_nil _).symm
  unfold connect
  split
  · exact hNone
  · split
    · exact hNone
    · dsimp only
      split
      · rfl
      · exact hNone

/- To look for a device is to accept nothing. -/
theorem waiting_reach (asked : Asked) (h : PipeHub) :
    (h.reach asked).2.waiting = h.waiting := by
  unfold reach reachNow
  repeat' split
  all_goals rfl

/- Controls are about links to come. -/
theorem links_control (h : PipeHub) (c : PipeChange) :
    (h.control c).links = h.links ∧
      (h.control c).opened = h.opened ∧
      (h.control c).waiting = h.waiting := by
  unfold control
  cases c.reachable <;> exact ⟨rfl, rfl, rfl⟩

/- The links of a hub are all there is to a link. -/
theorem link_of_links
    {h h' : PipeHub}
    (hLinks : h'.links = h.links)
    (id : Nat) :
    h'.link id = h.link id := by
  unfold link
  rw [hLinks]

end PipeHub

namespace PipeTable

variable
  {t : PipeTable} {step : PipeStep} {e : PipeEnd}
  {i id : Nat}

/- An operation at an end acts on the link of the end. -/
theorem apply_at
    (hPlace : step.place? = some (e, i))
    (hHeld : t.held? e i = some id) :
    t.apply step =
      ((step.onPipe (t.hub.link id)).1,
        { t with
          hub := t.hub.modify id fun _ =>
            (step.onPipe (t.hub.link id)).2 }.leave step) := by
  have hHangUp := t.hub.modify_eq id Pipe.hangUp
  cases step with
  | failWrites j n =>
      cases hPlace
      have hFails := t.hub.modify_eq id fun p =>
        { p with failWrites := n }
      simp only [held?, ends] at hHeld
      simp only [apply, device?, hHeld, change, hFails]
      rfl
  | _ =>
      cases hPlace <;>
        simp only [held?, ends] at hHeld <;>
        simp only [apply, host?, device?, hHeld, use, change,
          hHangUp] <;>
        rfl

end PipeTable

end DeviceSession
