import DeviceSession.Device.Emulator
import DeviceSession.Proofs.Link.Histories
import DeviceSession.Proofs.Link.Pending

/-
  A device and the links that a host opens to it.

  The host does what it likes to the links, and the device
  takes one step after another.  All that a step of a device
  can do is listed once: it waits, it accepts a link, or it
  moves on at the link that it serves.

  What a device does wears its links out.  None that is shut
  comes up again, and no frames are added to those on their
  way to the device.

  Key definitions include:
    * `HostAct`
    * `PipeHub.host`
    * `PipeHub.Worn`
    * `Handler.Acts`
    * `Emulator.Gets`
    * `Outpost`
    * `Outpost.Stepped`
    * `Outpost.Sound`

  Main declarations:
    * `PipeHub.worn_act`
    * `Emulator.gets_take`
    * `Outpost.stepped_step`
    * `Outpost.Sound.apply`
    * `Outpost.sound_after`
-/

------------------------------------------------------------
-- What a Host Does
------------------------------------------------------------

namespace DeviceSession

/- What a host can do to the links of a device. -/
inductive HostAct where
  | connect
  | write (asked : Asked) (link : Nat) (frame : List UInt8)
  | nextEvent (asked : Asked) (link : Nat)
  | close (link : Nat)
  | reach (asked : Asked)
  | control (c : PipeChange)
deriving DecidableEq

/- The link that is used or closed. -/
def HostAct.link? : HostAct → Option Nat
  | .write _ id _ => some id
  | .nextEvent _ id => some id
  | .close id => some id
  | _ => none

/- It is about other links, or about none. -/
def HostAct.Spares (id : Nat) (a : HostAct) : Prop :=
  ∀ id' ∈ a.link?, 0 < id' ∧ id' ≠ id

namespace PipeHub

/- The links after something that the host does. -/
def host : HostAct → PipeHub → PipeHub
  | .connect, h => h.connect.2
  | .write asked id frame, h =>
      (h.onLink id (·.write asked frame)).2
  | .nextEvent asked id, h =>
      (h.onLink id (·.nextEvent asked)).2
  | .close id, h => h.hangUp id
  | .reach asked, h => (h.reach asked).2
  | .control c, h => h.control c

/- The links are numbered, and those that wait are there. -/
structure Numbered (h : PipeHub) : Prop where
  counted : h.Counted
  waiting : ∀ id ∈ h.waiting, 0 < id ∧ id ≤ h.links.size

variable {h : PipeHub}

/- Before the first link there is nothing to number. -/
theorem numbered_start : Numbered {} where
  counted := rfl
  waiting := by simp

/- Links are numbered whatever is on them. -/
theorem Numbered.of_same
    (hNumbered : h.Numbered)
    {h' : PipeHub}
    (hSize : h'.links.size = h.links.size)
    (hOpened : h'.opened = h.opened)
    (hWaiting : ∀ id ∈ h'.waiting, id ∈ h.waiting) :
    h'.Numbered where
  counted := by
    rw [Counted, hSize, hOpened]
    exact hNumbered.counted
  waiting := fun id hMem =>
    hSize ▸ hNumbered.waiting id (hWaiting id hMem)

/- A change that leaves the links as they are. -/
theorem Numbered.of_links
    (hNumbered : h.Numbered)
    {h' : PipeHub}
    (hLinks : h'.links = h.links)
    (hOpened : h'.opened = h.opened)
    (hWaiting : h'.waiting = h.waiting) :
    h'.Numbered ∧ h.links.size ≤ h'.links.size := by
  have hSize := congrArg Array.size hLinks
  refine ⟨hNumbered.of_same hSize hOpened fun id hMem => ?_,
    Nat.le_of_eq hSize.symm⟩
  exact hWaiting ▸ hMem

/- A link that is opened is one more. -/
theorem size_connect (h : PipeHub) :
    h.links.size ≤ h.connect.2.links.size := by
  have hConnects := h.connects_connect
  generalize h.connect = out at hConnects
  cases hConnects with
  | refused e hLinks => simp [hLinks]
  | opened hLinks => simp [hLinks]
  | unheard e hLinks => simp [hLinks]

/- It has the next number. -/
theorem Numbered.connect (hNumbered : h.Numbered) :
    h.connect.2.Numbered where
  counted := counted_of_connects hNumbered.counted
    h.connects_connect
  waiting := by
    have hConnects := h.connects_connect
    have hCounted := hNumbered.counted
    rw [waiting_connect]
    generalize h.connect = out at hConnects ⊢
    intro id hMem
    rw [List.mem_append] at hMem
    rcases hMem with hOld | hNew
    · have hBounds := hNumbered.waiting id hOld
      cases hConnects with
      | refused e hLinks => rwa [hLinks]
      | opened hLinks =>
          rw [hLinks, Array.size_push]
          exact ⟨hBounds.1, Nat.le_succ_of_le hBounds.2⟩
      | unheard e hLinks =>
          rw [hLinks, Array.size_push]
          exact ⟨hBounds.1, Nat.le_succ_of_le hBounds.2⟩
    · cases hConnects with
      | refused | unheard => cases hNew
      | opened hLinks =>
          rw [List.mem_singleton.mp hNew, hLinks,
            Array.size_push, ← hCounted]
          exact ⟨Nat.succ_pos _, Nat.le_refl _⟩

/- Whatever the host does keeps the numbers. -/
theorem Numbered.host (hNumbered : h.Numbered) (a : HostAct) :
    (h.host a).Numbered ∧
      h.links.size ≤ (h.host a).links.size := by
  cases a with
  | connect => exact ⟨hNumbered.connect, h.size_connect⟩
  | write | nextEvent | close =>
      exact ⟨hNumbered.of_same Array.size_modify rfl fun _ => id,
        Nat.le_of_eq Array.size_modify.symm⟩
  | reach asked =>
      have hReach := h.reach_links asked
      exact hNumbered.of_links hReach.1 hReach.2
        (h.waiting_reach asked)
  | control c =>
      have hControl := h.links_control c
      exact hNumbered.of_links hControl.1 hControl.2.1
        hControl.2.2

/- A link changes by what is done to it, if by anything. -/
theorem link_host
    (hNumbered : h.Numbered)
    (a : HostAct)
    {id : Nat}
    (hPositive : 0 < id)
    (hKnown : id ≤ h.links.size) :
    (h.host a).link id = h.link id ∨
      (h.host a).link id = (h.link id).hangUp ∨
      ∃ asked c, c.excludes .recv = false ∧
        (h.host a).link id =
          (PipeCall.poll c asked (h.link id)).2 := by
  cases a with
  | connect =>
      left
      exact link_connect hNumbered.counted h.connects_connect
        hPositive (hNumbered.counted ▸ hKnown)
  | write asked id' frame =>
      rcases link_onLink h id id' (·.write asked frame) with
        hSame | hWritten
      · exact .inl hSame
      · exact .inr (.inr ⟨asked, .write frame, rfl, hWritten⟩)
  | nextEvent asked id' =>
      rcases link_onLink h id id' (·.nextEvent asked) with
        hSame | hHeard
      · exact .inl hSame
      · exact .inr (.inr ⟨asked, .nextEvent, rfl, hHeard⟩)
  | close id' =>
      rcases link_modify h id id' Pipe.hangUp with hSame | hShut
      · exact .inl hSame
      · exact .inr (.inl hShut)
  | reach asked =>
      exact .inl (link_of_links (h.reach_links asked).1 id)
  | control c =>
      exact .inl (link_of_links (h.links_control c).1 id)

/- An act that spares a link leaves it as it is. -/
theorem link_host_of_spares
    (hNumbered : h.Numbered)
    {a : HostAct}
    {id : Nat}
    (hPositive : 0 < id)
    (hKnown : id ≤ h.links.size)
    (hSpares : a.Spares id) :
    (h.host a).link id = h.link id := by
  cases a with
  | connect =>
      exact link_connect hNumbered.counted h.connects_connect
        hPositive (hNumbered.counted ▸ hKnown)
  | write | nextEvent | close =>
      rcases hSpares _ rfl with ⟨hPositive', hOther⟩
      exact h.link_modify_of_ne hPositive' hPositive
        (Ne.symm hOther) _
  | reach asked => exact link_of_links (h.reach_links asked).1 id
  | control c => exact link_of_links (h.links_control c).1 id

------------------------------------------------------------
-- What a Device Does
------------------------------------------------------------

/- All that a device may have changed on the way from `h`. -/
structure Worn (h h' : PipeHub) : Prop where
  size : h'.links.size = h.links.size
  opened : h'.opened = h.opened
  waiting : ∀ id ∈ h'.waiting, id ∈ h.waiting
  closed : ∀ id,
    (h.link id).closed = true → (h'.link id).closed = true
  toDevice : ∀ id,
    (h'.link id).toDevice.length ≤ (h.link id).toDevice.length

namespace Worn

/- To do nothing wears nothing. -/
theorem refl (h : PipeHub) : h.Worn h :=
  ⟨rfl, rfl, fun _ hMem => hMem, fun _ hShut => hShut,
    fun _ => Nat.le_refl _⟩

/- Wear adds up. -/
theorem trans
    {h₁ h₂ h₃ : PipeHub}
    (hFirst : h₁.Worn h₂)
    (hSecond : h₂.Worn h₃) :
    h₁.Worn h₃ where
  size := hSecond.size.trans hFirst.size
  opened := hSecond.opened.trans hFirst.opened
  waiting := fun id hMem =>
    hFirst.waiting id (hSecond.waiting id hMem)
  closed := fun id hShut =>
    hSecond.closed id (hFirst.closed id hShut)
  toDevice := fun id =>
    Nat.le_trans (hSecond.toDevice id) (hFirst.toDevice id)

/- Worn links keep their numbers. -/
theorem numbered
    {h' : PipeHub}
    (hWorn : h.Worn h')
    (hNumbered : h.Numbered) :
    h'.Numbered :=
  hNumbered.of_same hWorn.size hWorn.opened hWorn.waiting

/- A hub may forget who waits. -/
theorem of_links
    {h' : PipeHub}
    (hLinks : h'.links = h.links)
    (hOpened : h'.opened = h.opened)
    (hWaiting : ∀ id ∈ h'.waiting, id ∈ h.waiting) :
    h.Worn h' where
  size := congrArg Array.size hLinks
  opened := hOpened
  waiting := hWaiting
  closed := fun id => by
    rw [link_of_links hLinks id]
    exact fun hShut => hShut
  toDevice := fun id => by simp [link_of_links hLinks id]

end Worn

/- What is done to a link may shut it and empty it. -/
theorem worn_modify
    (h : PipeHub)
    (id : Nat)
    {f : Pipe → Pipe}
    (hClosed : ∀ p, p.closed = true → (f p).closed = true)
    (hFewer : ∀ p,
      (f p).toDevice.length ≤ p.toDevice.length) :
    h.Worn (h.modify id f) where
  size := Array.size_modify
  opened := rfl
  waiting := fun _ hMem => hMem
  closed := by
    intro id' hShut
    rcases link_modify h id' id f with hLink | hLink
    · rwa [hLink]
    · rw [hLink]
      exact hClosed _ hShut
  toDevice := by
    intro id'
    rcases link_modify h id' id f with hLink | hLink
    · simp [hLink]
    · rw [hLink]
      exact hFewer _

/- So may what is done with an answer. -/
theorem worn_onLink
    {R : Type}
    (h : PipeHub)
    (id : Nat)
    {f : Pipe → R × Pipe}
    (hClosed : ∀ p, (f p).2.closed = p.closed)
    (hFewer : ∀ p,
      (f p).2.toDevice.length ≤ p.toDevice.length) :
    h.Worn (h.onLink id f).2 := by
  change h.Worn (h.modify id fun _ => (f (h.link id)).2)
  rw [← modify_eq h id fun p => (f p).2]
  exact h.worn_modify id (fun p hShut => (hClosed p).trans hShut)
    hFewer

/- To take a frame, or to be told that there is none. -/
theorem worn_recv (h : PipeHub) (asked : Asked) (id : Nat) :
    h.Worn (h.onLink id (·.recv asked)).2 := by
  refine h.worn_onLink id (fun p => p.closed_recv asked) ?_
  intro p
  have hPolled := PipeCall.polled_recv asked p
  generalize (p.recv asked).1.map PipeReply.received = r at hPolled
  generalize (p.recv asked).2 = p' at hPolled ⊢
  cases hPolled with
  | received frame hQueue => simp [hQueue]
  | waits | gone => exact Nat.le_refl _

/- The device sends upwards, and takes nothing down. -/
theorem worn_send
    (h : PipeHub)
    (asked : Asked)
    (id : Nat)
    (frame : List UInt8) :
    h.Worn (h.onLink id (·.send asked frame)).2 := by
  refine h.worn_onLink id (fun p => p.closed_send asked frame) ?_
  intro p
  have hPolled := PipeCall.polled_send asked p frame
  generalize (p.send asked frame).1.map PipeTable.wrote = r
    at hPolled
  generalize (p.send asked frame).2 = p' at hPolled ⊢
  cases hPolled <;> exact Nat.le_refl _

/- To hang up shuts the link. -/
theorem worn_hangUp (h : PipeHub) (id : Nat) :
    h.Worn (h.hangUp id) := by
  apply h.worn_modify id
  · exact fun p _ => p.closed_hangUp
  · intro p
    unfold Pipe.hangUp
    split <;> exact Nat.le_refl _

/- To accept a link is to stop waiting for it. -/
theorem worn_accept (h : PipeHub) : h.Worn h.accept.2 := by
  unfold accept
  split
  · exact .refl h
  · rename_i id rest hWaiting
    refine .of_links rfl rfl fun id' hMem => ?_
    rw [hWaiting]
    exact List.mem_cons_of_mem _ hMem

/- So each act of a device wears its links. -/
theorem worn_act (h : PipeHub) (a : DeviceAct) :
    h.Worn (h.act a) := by
  cases a with
  | accept => exact h.worn_accept
  | recv asked id => exact h.worn_recv asked id
  | send asked id frame => exact h.worn_send asked id frame
  | hangUp id => exact h.worn_hangUp id
  | failWrites id n =>
      exact h.worn_modify id (fun _ hShut => hShut)
        fun _ => Nat.le_refl _
  | control c =>
      have hControl := h.links_control c
      refine .of_links hControl.1 hControl.2.1 fun id hMem => ?_
      exact hControl.2.2 ▸ hMem

/- So do acts in a row. -/
theorem worn_acts (h : PipeHub) (acts : List DeviceAct) :
    h.Worn (acts.foldl (fun h a => h.act a) h) := by
  induction acts generalizing h with
  | nil => exact .refl h
  | cons a acts ih => exact (h.worn_act a).trans (ih (h.act a))

end PipeHub

namespace PipeHub

/- To put a link back as it is changes nothing. -/
theorem onLink_of_same
    {R : Type}
    {h : PipeHub}
    {id : Nat}
    {f : Pipe → R × Pipe}
    (hSame : (f (h.link id)).2 = h.link id) :
    (h.onLink id f).2 = h := by
  change h.modify id (fun _ => (f (h.link id)).2) = h
  rw [← modify_eq h id fun p => (f p).2]
  unfold modify
  congr 1
  apply Array.ext_getElem?
  intro j
  rw [Array.getElem?_modify]
  by_cases hPlace : id - 1 = j
  · subst hPlace
    rw [if_pos rfl]
    unfold link at hSame
    cases hLink : h.links[id - 1]? with
    | none => rfl
    | some p =>
        rw [hLink, Option.getD_some] at hSame
        rw [Option.map_some, hSame]
  · rw [if_neg hPlace]

/- What is done to a link is done to that one. -/
theorem link_onLink_of_known
    {R : Type}
    (h : PipeHub)
    {id : Nat}
    (hPositive : 0 < id)
    (hKnown : id ≤ h.links.size)
    (f : Pipe → R × Pipe) :
    (h.onLink id f).2.link id = (f (h.link id)).2 :=
  h.link_modify_self hPositive hKnown fun _ => (f (h.link id)).2

/- A device asks for a frame of a link that is there. -/
theorem onLink_recv
    (h : PipeHub)
    {id : Nat}
    (hPositive : 0 < id)
    (hKnown : id ≤ h.links.size)
    (asked : Asked) :
    ∃ r h',
      h.onLink id (·.recv asked) = (r, h') ∧
      h.Worn h' ∧
      ((h.link id).recv asked).1 = r ∧
      (r = none → h' = h) ∧
      ∀ frame, r = some (some frame) →
        (h'.link id).toDevice.length <
          (h.link id).toDevice.length := by
  have hPolled := PipeCall.polled_recv asked (h.link id)
  refine ⟨((h.link id).recv asked).1,
    (h.onLink id (·.recv asked)).2, rfl, h.worn_recv asked id,
    rfl, ?_, ?_⟩
  · intro hNone
    rw [hNone] at hPolled
    exact onLink_of_same (f := (·.recv asked)) hPolled.eq_of_none
  · intro frame hSome
    rw [hSome] at hPolled
    rw [h.link_onLink_of_known hPositive hKnown]
    exact hPolled.length_toDevice_lt

/- A device sends a frame, which adds none to those it gets. -/
theorem onLink_send
    (h : PipeHub)
    (id : Nat)
    (asked : Asked)
    (frame : List UInt8) :
    ∃ r h',
      h.onLink id (·.send asked frame) = (r, h') ∧
      h.Worn h' ∧
      ((h.link id).send asked frame).1 = r ∧
      (r = none → h' = h) := by
  have hPolled := PipeCall.polled_send asked (h.link id) frame
  refine ⟨((h.link id).send asked frame).1,
    (h.onLink id (·.send asked frame)).2, rfl,
    h.worn_send asked id frame, rfl, ?_⟩
  intro hNone
  rw [hNone] at hPolled
  exact onLink_of_same (f := (·.send asked frame))
    hPolled.eq_of_none

end PipeHub

/- A handler does to the links what a device can do. -/
def Handler.Acts {H : Type} (h : Handler H) : Prop :=
  ∀ a id x hub, ∃ acts : List DeviceAct,
    (h.handle a id x hub).2.2 =
      acts.foldl (fun hub act => hub.act act) hub

------------------------------------------------------------
-- Turning to Something Else
------------------------------------------------------------

namespace Emulator

/- Something has been asked of the link, and is waited for. -/
def Phase.pending : Phase → Bool
  | .receiving .again => true
  | .sending _ .again _ => true
  | _ => false

/- How far a device on a shut link is from its next frame. -/
def Phase.rank : Phase → Nat
  | .accepting => 0
  | .receiving _ => 0
  | .sending _ .first _ => 1
  | .sending _ .again _ => 2
  | .delaying _ _ => 2

variable {H : Type}

/- A device turns to something new, within a limit. -/
structure Gets
    (x : Emulator H)
    (hub : PipeHub)
    (limit : Nat)
    (out : Emulator H × PipeHub) : Prop where
  link : out.1.link = x.link
  rank : out.1.phase.rank ≤ limit
  fresh : out.1.phase.pending = false
  worn : hub.Worn out.2

variable (x : Emulator H) (hub : PipeHub)

/- To wait for a command changes nothing on the link. -/
theorem gets_receive : x.Gets hub 0 (x.receive, hub) where
  link := rfl
  rank := Nat.le_refl _
  fresh := rfl
  worn := .refl hub

/- To leave a link is to hang up. -/
theorem gets_leave : x.Gets hub 0 (x.leave hub) where
  link := rfl
  rank := Nat.le_refl _
  fresh := rfl
  worn := hub.worn_hangUp x.link

/- To break it is the same, for the device. -/
theorem gets_breakLink : x.Gets hub 0 (x.breakLink hub) where
  link := rfl
  rank := Nat.le_refl _
  fresh := rfl
  worn := hub.worn_hangUp x.link

/- After a response the device listens or leaves. -/
theorem gets_finish (after : After) :
    x.Gets hub 0 (x.finish hub after) := by
  cases after with
  | announced | sent => exact x.gets_receive hub
  | responded status unread drop =>
      cases drop with
      | true => exact { x.gets_breakLink hub with }
      | false => exact { x.gets_receive hub with }

/- Where it cannot send, it does so as well. -/
theorem gets_giveUp (after : After) :
    x.Gets hub 0 (x.giveUp hub after) := by
  cases after with
  | announced => exact x.gets_leave hub
  | sent => exact x.gets_receive hub
  | responded status unread drop =>
      cases drop with
      | true => exact x.gets_breakLink hub
      | false => exact x.gets_receive hub

/- Frames to be sent are none that have been found to wait. -/
theorem gets_sending
    (frames : List (List UInt8))
    (after : After) :
    x.Gets hub 1 (x.goto (.sending frames .first after), hub) where
  link := rfl
  rank := Nat.le_refl _
  fresh := rfl
  worn := .refl hub

variable {x hub} in
/- What comes after may be farther away. -/
theorem Gets.mono
    {limit limit' : Nat}
    {out : Emulator H × PipeHub}
    (h : x.Gets hub limit out)
    (hLimit : limit ≤ limit') :
    x.Gets hub limit' out :=
  { h with rank := Nat.le_trans h.rank hLimit }

/- A response is sent frame by frame, if it can be cut. -/
theorem gets_respond (r : Response) (drop : Bool) :
    x.Gets hub 1 (x.respond r drop hub) := by
  unfold respond
  dsimp only
  split
  · exact x.gets_sending hub _ _
  · exact (x.gets_giveUp hub _).mono (Nat.zero_le _)

/- A reply may be put off first. -/
theorem gets_reply (now : Nat) (reply : Reply) :
    x.Gets hub 2 (x.reply now hub reply) := by
  cases reply with
  | respond r => exact (x.gets_respond hub r false).mono (by omega)
  | respondAfter delay r =>
      exact ⟨rfl, Nat.le_refl _, rfl, .refl hub⟩
  | respondThenDrop r =>
      exact (x.gets_respond hub r true).mono (by omega)
  | drop => exact (x.gets_breakLink hub).mono (Nat.zero_le _)
  | ignore => exact (x.gets_receive hub).mono (Nat.zero_le _)
  | frames fs => exact (x.gets_sending hub fs _).mono (by omega)

/- A frame is taken in, and maybe a command with it. -/
theorem gets_take
    {h : Handler H}
    (hActs : h.Acts)
    (now : Nat)
    (frame : List UInt8) :
    x.Gets hub 2 (take h now x frame hub) := by
  have hIgnored : ∀ b : Assembler,
      x.Gets hub 2
        (({ x.note (.frameIn x.link) with assembler := b }).receive,
          hub) :=
    fun _ => ⟨rfl, Nat.zero_le _, rfl, .refl hub⟩
  simp only [take]
  split
  · split
    · rename_i a _
      rcases hActs a x.link x.handler hub with ⟨acts, hHub⟩
      have hWorn := hub.worn_acts acts
      rw [← hHub] at hWorn
      have hReply := gets_reply
        { x with
          journal := (x.journal.push (.frameIn x.link)).push
            (.command x.link a)
          assembler := (x.assembler.feed frame).2
          handler := (h.handle a x.link x.handler hub).2.1 }
        (h.handle a x.link x.handler hub).2.2 now
        (h.handle a x.link x.handler hub).1
      exact { hReply with worn := hWorn.trans hReply.worn }
    · exact hIgnored _
  · exact hIgnored _

end Emulator

------------------------------------------------------------
-- Outposts
------------------------------------------------------------

/- A device and its links. -/
structure Outpost (H : Type) where
  emulator : Emulator H
  hub : PipeHub := {}

/- The host does something, or the device takes a step. -/
inductive OutpostMove where
  | host (a : HostAct)
  | step (now : Nat)

namespace Outpost

variable {H : Type}

/- A device to which no link has been opened. -/
def start (p : Profile) (mtu : UInt8) (x : H) : Outpost H where
  emulator := { profile := p, mtu, handler := x }

/- The link that is served. -/
def line (o : Outpost H) : Pipe :=
  o.hub.link o.emulator.link

/- One step of the device, which never ends. -/
def step (h : Handler H) (now : Nat) (o : Outpost H) :
    Outpost H :=
  match Emulator.step h now o.emulator o.hub with
  | (.go x, hub) => ⟨x, hub⟩
  | (.wait x, hub) => ⟨x, hub⟩
  | (.done r, _) => r.elim

/- So does every move. -/
def apply (h : Handler H) (o : Outpost H) :
    OutpostMove → Outpost H
  | .host a => { o with hub := o.hub.host a }
  | .step now => o.step h now

/- What has become of it after so many moves. -/
def after
    (h : Handler H)
    (o : Outpost H)
    (moves : Nat → OutpostMove) : Nat → Outpost H
  | 0 => o
  | n + 1 => (after h o moves n).apply h (moves n)

/- How far it is from leaving a shut link, in steps. -/
def rank (o : Outpost H) : Nat :=
  4 * o.line.toDevice.length + o.emulator.phase.rank

/- All that a step of the device comes to. -/
inductive Stepped (now : Nat) (o : Outpost H) :
    Outpost H → Prop where
  | idle (hPhase : o.emulator.phase = .accepting) :
      Stepped now o o
  | accepts
      (hPhase : o.emulator.phase = .accepting)
      {x : Emulator H}
      {hub : PipeHub}
      (hWaits : x.link ∈ o.hub.waiting)
      (hFresh : x.phase.pending = false)
      (hWorn : o.hub.Worn hub) :
      Stepped now o ⟨x, hub⟩
  /- It waits for a frame. -/
  | listens
      {asked : Asked}
      (hPhase : o.emulator.phase = .receiving asked)
      (hNone : (PipeCall.recv.poll asked o.line).1 = none) :
      Stepped now o
        ⟨o.emulator.goto (.receiving .again), o.hub⟩
  /- It waits for a time. -/
  | pauses
      {due : Nat}
      {r : Response}
      (hPhase : o.emulator.phase = .delaying due r)
      (hEarly : now < due) :
      Stepped now o o
  /- It waits for room. -/
  | blocks
      {frame : List UInt8}
      {rest : List (List UInt8)}
      {asked : Asked}
      {next : Emulator.After}
      (hPhase :
        o.emulator.phase = .sending (frame :: rest) asked next)
      (hNone :
        ((PipeCall.send frame).poll asked o.line).1 = none) :
      Stepped now o
        ⟨o.emulator.goto
          (.sending (frame :: rest) .again next), o.hub⟩
  /- It goes on: it leaves a shut link, or comes nearer. -/
  | moves
      {x : Emulator H}
      {hub : PipeHub}
      (hServing : o.emulator.phase ≠ .accepting)
      (hLink : x.link = o.emulator.link)
      (hFresh : x.phase.pending = false)
      (hWorn : o.hub.Worn hub)
      (hNearer :
        o.line.closed = true →
          x.phase = .accepting ∨ rank ⟨x, hub⟩ < o.rank) :
      Stepped now o ⟨x, hub⟩

/- Whatever the device turns to is a move like this. -/
theorem Stepped.of_gets
    {now : Nat}
    {o : Outpost H}
    {hub : PipeHub}
    {limit : Nat}
    {out : Emulator H × PipeHub}
    (hServing : o.emulator.phase ≠ .accepting)
    (hGets : o.emulator.Gets hub limit out)
    (hWorn : o.hub.Worn hub)
    (hLimit :
      4 * (hub.link o.emulator.link).toDevice.length + limit <
        o.rank) :
    Stepped now o ⟨out.1, out.2⟩ := by
  refine .moves hServing hGets.link hGets.fresh
    (hWorn.trans hGets.worn) fun _ => .inr ?_
  have hRank := hGets.rank
  have hFewer := hGets.worn.toDevice o.emulator.link
  rw [rank, line]
  simp only [hGets.link]
  omega

section Step

variable {h : Handler H} {o : Outpost H} {now : Nat}

/- Waiting for a link, the device accepts one or waits. -/
theorem stepped_accepting
    (hPhase : o.emulator.phase = .accepting) :
    Stepped now o (o.step h now) := by
  have hWorn := o.hub.worn_accept
  cases hWaiting : o.hub.waiting with
  | nil =>
      have hAccept : o.hub.accept = (none, o.hub) := by
        simp [PipeHub.accept, hWaiting]
      simp only [step, Emulator.step, hPhase, hAccept]
      exact .idle hPhase
  | cons id rest =>
      have hAccept :
          o.hub.accept =
            (some id, { o.hub with waiting := rest }) := by
        simp [PipeHub.accept, hWaiting]
      have hWaits : id ∈ o.hub.waiting := by simp [hWaiting]
      rw [hAccept] at hWorn
      cases hSlicer :
          Slicer.ofMtu o.emulator.profile
            o.emulator.mtu.toNat with
      | ok s =>
          simp only [step, Emulator.step, hPhase, hAccept, hSlicer]
          exact .accepts hPhase hWaits rfl hWorn
      | error e =>
          simp only [step, Emulator.step, hPhase, hAccept, hSlicer]
          exact .accepts hPhase hWaits rfl
            (hWorn.trans (PipeHub.worn_hangUp _ id))

/- The device takes a frame, waits for one, or leaves. -/
theorem stepped_receiving
    (hActs : h.Acts)
    (hPositive : 0 < o.emulator.link)
    (hKnown : o.emulator.link ≤ o.hub.links.size)
    {asked : Asked}
    (hPhase : o.emulator.phase = .receiving asked) :
    Stepped now o (o.step h now) := by
  have hServing : o.emulator.phase ≠ .accepting := by
    rw [hPhase]
    nofun
  rcases o.hub.onLink_recv hPositive hKnown asked with
    ⟨r, hub, hOut, hWorn, hReply, hNone, hTaken⟩
  cases r with
  | none =>
      have hSame := hNone rfl
      subst hSame
      simp only [step, Emulator.step, hPhase, hOut]
      refine .listens hPhase ?_
      change ((o.line.recv asked).1.map _) = none
      rw [line, hReply]
      rfl
  | some found =>
      cases found with
      | none =>
          simp only [step, Emulator.step, hPhase, hOut]
          exact .moves hServing rfl rfl
            (hWorn.trans (hub.worn_hangUp _)) fun _ => .inl rfl
      | some frame =>
          have hFewer := hTaken frame rfl
          by_cases hSize : Mtu.IsSizeFrame frame
          · simp only [step, Emulator.step, hPhase, hOut,
              if_pos hSize]
            exact .of_gets hServing
              (o.emulator.gets_sending hub [_] _) hWorn
              (by rw [rank, line]; omega)
          · simp only [step, Emulator.step, hPhase, hOut,
              if_neg hSize]
            exact .of_gets hServing
              (o.emulator.gets_take hub hActs now frame) hWorn
              (by rw [rank, line]; omega)

/- A reply that is put off is sent when it is due. -/
theorem stepped_delaying
    {due : Nat}
    {r : Response}
    (hPhase : o.emulator.phase = .delaying due r) :
    Stepped now o (o.step h now) := by
  by_cases hDue : due ≤ now
  · simp only [step, Emulator.step, hPhase, if_pos hDue]
    apply Stepped.of_gets
    · rw [hPhase]
      nofun
    · exact o.emulator.gets_respond o.hub r false
    · exact .refl o.hub
    · rw [rank, line, hPhase, Emulator.Phase.rank]
      omega
  · simp only [step, Emulator.step, hPhase, if_neg hDue]
    exact .pauses hPhase (Nat.lt_of_not_le hDue)

/- On a shut link, a frame is sent only if it has waited. -/
theorem stepped_sending
    {frames : List (List UInt8)}
    {asked : Asked}
    {next : Emulator.After}
    (hPhase : o.emulator.phase = .sending frames asked next) :
    Stepped now o (o.step h now) := by
  have hServing : o.emulator.phase ≠ .accepting := by
    rw [hPhase]
    nofun
  have hRank : 0 < o.emulator.phase.rank := by
    rw [hPhase]
    cases asked <;> simp [Emulator.Phase.rank]
  cases frames with
  | nil =>
      simp only [step, Emulator.step, hPhase]
      exact .of_gets hServing (o.emulator.gets_finish o.hub next)
        (.refl o.hub) (by rw [rank, line]; omega)
  | cons frame rest =>
      rcases o.hub.onLink_send o.emulator.link asked frame with
        ⟨r, hub, hOut, hWorn, hReply, hNone⟩
      have hFewer := hWorn.toDevice o.emulator.link
      cases r with
      | none =>
          have hSame := hNone rfl
          subst hSame
          simp only [step, Emulator.step, hPhase, hOut]
          refine .blocks hPhase ?_
          simp only [PipeCall.poll, line, hReply]
          rfl
      | some sent =>
          cases sent with
          | error e =>
              simp only [step, Emulator.step, hPhase, hOut]
              exact .of_gets hServing
                (o.emulator.gets_giveUp hub next) hWorn
                (by rw [rank, line]; omega)
          | ok _ =>
              simp only [step, Emulator.step, hPhase, hOut]
              refine .moves hServing rfl rfl hWorn ?_
              intro hClosed
              right
              have hAgain : asked = .again := by
                cases asked with
                | again => rfl
                | first =>
                    simp [line] at hClosed
                    simp [Pipe.send, hClosed] at hReply
              simp only [rank, line, hPhase, hAgain,
                Emulator.goto, Emulator.Phase.rank]
              omega

end Step

/- Whatever a step of the device comes to is listed. -/
theorem stepped_step
    {h : Handler H}
    (hActs : h.Acts)
    {o : Outpost H}
    (hServing :
      o.emulator.phase ≠ .accepting →
        0 < o.emulator.link ∧
          o.emulator.link ≤ o.hub.links.size)
    (now : Nat) :
    Stepped now o (o.step h now) := by
  cases hPhase : o.emulator.phase with
  | accepting => exact stepped_accepting hPhase
  | receiving asked =>
      rcases hServing (by rw [hPhase]; nofun) with
        ⟨hPositive, hKnown⟩
      exact stepped_receiving hActs hPositive hKnown hPhase
  | delaying due r => exact stepped_delaying hPhase
  | sending frames asked next => exact stepped_sending hPhase

------------------------------------------------------------
-- Every Run
------------------------------------------------------------

/-
  The served link is there, and a device that waits for a
  frame will be told when the link is shut.
-/
structure Sound (o : Outpost H) : Prop where
  numbered : o.hub.Numbered
  serving :
    o.emulator.phase ≠ .accepting →
      0 < o.emulator.link ∧
        o.emulator.link ≤ o.hub.links.size
  alert :
    o.emulator.phase = .receiving .again →
      o.line.closed = true →
        PipeCall.recv.Ready o.line

namespace Sound

variable {h : Handler H} {o : Outpost H}

/- An outpost starts without a link. -/
theorem start (p : Profile) (mtu : UInt8) (x : H) :
    (Outpost.start p mtu x).Sound where
  numbered := PipeHub.numbered_start
  serving := fun hServing => absurd rfl hServing
  alert := nofun

/- The host may do what it likes. -/
theorem host (hSound : o.Sound) (a : HostAct) :
    (o.apply h (.host a)).Sound := by
  have hHost := hSound.numbered.host a
  refine ⟨hHost.1, ?_, ?_⟩
  · intro hServing
    have hKnown := hSound.serving hServing
    exact ⟨hKnown.1, Nat.le_trans hKnown.2 hHost.2⟩
  · intro hPhase hClosed
    have hServing : o.emulator.phase ≠ .accepting := by
      intro hIdle
      change o.emulator.phase = _ at hPhase
      rw [hPhase] at hIdle
      cases hIdle
    have hKnown := hSound.serving hServing
    have hAlert := hSound.alert hPhase
    have hLine := PipeHub.link_host hSound.numbered a hKnown.1
      hKnown.2
    change ((o.hub.host a).link o.emulator.link).closed = true
      at hClosed
    change PipeCall.Ready ((o.hub.host a).link o.emulator.link) _
    rcases hLine with hLine | hLine | ⟨asked, c, hApart, hLine⟩
    · rw [hLine] at hClosed ⊢
      exact hAlert hClosed
    · rw [hLine]
      by_cases hEarlier : o.line.closed = true
      · have hSame :
            (o.hub.link o.emulator.link).hangUp = o.line :=
          if_pos hEarlier
        rw [hSame]
        exact hAlert hEarlier
      · have hOpen : o.line.closed = false := by
          simpa using hEarlier
        exact PipeCall.ready_hangUp rfl hOpen
    · have hPolled := PipeCall.polled_poll asked o.line c
      rw [hLine] at hClosed ⊢
      exact hPolled.ready_recv hApart
        (hAlert (hPolled.closed_eq ▸ hClosed))

/- A step of the device keeps its accounts. -/
theorem step
    (hSound : o.Sound)
    (hActs : h.Acts)
    (now : Nat) :
    (o.apply h (.step now)).Sound := by
  have hStepped := stepped_step hActs hSound.serving now
  change (o.step h now).Sound
  generalize o.step h now = o' at hStepped
  cases hStepped with
  | idle hPhase => exact hSound
  | pauses hPhase hEarly => exact hSound
  | accepts hPhase hWaits hFresh hWorn =>
      refine ⟨hWorn.numbered hSound.numbered, ?_, ?_⟩
      · intro _
        rw [hWorn.size]
        exact hSound.numbered.waiting _ hWaits
      · intro hAgain
        rw [hAgain] at hFresh
        cases hFresh
  | listens hPhase hNone =>
      refine ⟨hSound.numbered, ?_, ?_⟩
      · exact fun _ => hSound.serving (by rw [hPhase]; nofun)
      · intro _ hClosed
        rcases PipeCall.not_ready_of_none hNone hClosed with
          ⟨rfl, -⟩
        exact hSound.alert hPhase hClosed
  | blocks hPhase hNone =>
      refine ⟨hSound.numbered, ?_, nofun⟩
      exact fun _ => hSound.serving (by rw [hPhase]; nofun)
  | moves hServing hLink hFresh hWorn hNearer =>
      refine ⟨hWorn.numbered hSound.numbered, ?_, ?_⟩
      · intro _
        rw [hWorn.size, hLink]
        exact hSound.serving hServing
      · intro hAgain
        rw [hAgain] at hFresh
        cases hFresh

/- So does every move. -/
theorem apply
    (hSound : o.Sound)
    (hActs : h.Acts)
    (m : OutpostMove) :
    (o.apply h m).Sound := by
  cases m with
  | host a => exact hSound.host a
  | step now => exact hSound.step hActs now

end Sound

/- So it is at any time. -/
theorem sound_after
    {h : Handler H}
    (hActs : h.Acts)
    {o : Outpost H}
    (hSound : o.Sound)
    (moves : Nat → OutpostMove)
    (n : Nat) :
    (o.after h moves n).Sound := by
  induction n with
  | zero => exact hSound
  | succ n ih => exact ih.apply hActs (moves n)

end Outpost

end DeviceSession
