import DeviceSession.Link.Pipe
import DeviceSession.Proofs.Run.Scenario

/-
  Transports that buffer what the device sends.

  The frames of a link wait in an inbox until the host asks
  for them, in the order in which they were sent.  Nothing
  but the host takes frames out, and nothing puts one before
  another.  The links within one program are like that,
  whatever the device does.

  Key definitions include:
    * `Buffered`
    * `Buffered.incoming`
    * `DeviceAct`
    * `PipeHub.act`
    * `PipeHub.buffered`
-/

------------------------------------------------------------
-- Buffered Transports
------------------------------------------------------------

namespace DeviceSession

/- Links with inboxes; `A` is what the world can do. -/
structure Buffered (W L A : Type) where
  connector : Connector W L
  /- How the world changes by itself. -/
  act : A → W → W
  /- The frames that wait for the host, oldest first. -/
  inbox : L → W → List (List UInt8)
  /- A write leaves the inbox alone. -/
  inbox_write : ∀ asked l frame w,
    inbox l (connector.write asked l frame w).2 = inbox l w
  /- So does an event that is pending. -/
  inbox_pending : ∀ asked l w w',
    connector.event asked l w = (none, w') →
      inbox l w' = inbox l w
  /- A frame that is heard is the oldest one. -/
  inbox_heard : ∀ asked l w frame w',
    connector.event asked l w = (some (.data frame), w') →
      inbox l w = frame :: inbox l w'
  /- Frames that come in are put behind the others. -/
  inbox_act : ∀ a l w, inbox l w <+: inbox l (act a w)

namespace Buffered

variable {W L A : Type}

/- A fresh connection after some moves. -/
abbrev run
    (b : Buffered W L A)
    (settings : Settings)
    (now : Nat)
    (w : W)
    (moves : List (Move A)) : Scenario W L :=
  (Scenario.start settings now w).run b.connector b.act moves

/- The frames that come in on a link with a move. -/
def arriving
    (b : Buffered W L A)
    (l : L)
    (w : W) : Move A → List (List UInt8)
  | .outside a =>
      (b.inbox l (b.act a w)).drop (b.inbox l w).length
  | _ => []

/- The frames that come in on a link in a run. -/
def incoming
    (b : Buffered W L A)
    (l : L) :
    Scenario W L → List (Move A) → List (List UInt8)
  | _, [] => []
  | s, m :: moves =>
      b.arriving l s.world m ++
        b.incoming l (s.step b.connector b.act m) moves

theorem inbox_outside
    (b : Buffered W L A)
    (l : L)
    (w : W)
    (a : A) :
    b.inbox l (b.act a w) =
      b.inbox l w ++ b.arriving l w (.outside a) := by
  rcases b.inbox_act a l w with ⟨frames, hFrames⟩
  rw [arriving, ← hFrames, List.drop_left]

end Buffered

------------------------------------------------------------
-- Links Within One Program
------------------------------------------------------------

/- What a device can do, and what can be done to it. -/
inductive DeviceAct where
  | accept
  | recv (asked : Asked) (link : Nat)
  | send (asked : Asked) (link : Nat) (frame : List UInt8)
  | hangUp (link : Nat)
  | failWrites (link : Nat) (count : Nat)
  | control (c : PipeChange)
deriving DecidableEq

namespace Pipe

theorem toHost_writeBuffer
    (p : Pipe)
    (frame : List UInt8) :
    (p.writeBuffer frame).2.toHost = p.toHost := by
  unfold writeBuffer
  split
  · rfl
  · split <;> rfl

theorem toHost_write
    (p : Pipe)
    (asked : Asked)
    (frame : List UInt8) :
    (p.write asked frame).2.toHost = p.toHost := by
  cases asked with
  | again => exact p.toHost_writeBuffer frame
  | first =>
      simp only [write]
      split
      · rfl
      · split
        · rfl
        · exact p.toHost_writeBuffer frame

theorem toHost_recv (p : Pipe) (asked : Asked) :
    (p.recv asked).2.toHost = p.toHost := by
  unfold recv
  split
  · rfl
  · cases asked with
    | first => dsimp only; split <;> rfl
    | again => dsimp only; split <;> rfl

theorem toHost_hangUp (p : Pipe) :
    p.hangUp.toHost = p.toHost := by
  unfold hangUp
  split <;> rfl

/- A frame that is sent goes behind those that wait. -/
theorem toHost_send
    (p : Pipe)
    (asked : Asked)
    (frame : List UInt8) :
    (p.send asked frame).2.toHost = p.toHost ∨
      (p.send asked frame).2.toHost = p.toHost ++ [frame] := by
  unfold send
  split
  · exact .inl rfl
  · split
    · exact .inr rfl
    · exact .inl rfl

/- An event takes the oldest frame, if there is one. -/
theorem toHost_nextEvent
    (p : Pipe)
    (asked : Asked) :
    (∃ frame,
        (p.nextEvent asked).1 = some (.data frame) ∧
          p.toHost =
            frame :: (p.nextEvent asked).2.toHost) ∨
      (∀ frame,
        (p.nextEvent asked).1 ≠ some (.data frame)) ∧
          (p.nextEvent asked).2.toHost = p.toHost := by
  unfold nextEvent
  split
  · rename_i frame rest hFrames
    exact .inl ⟨frame, rfl, hFrames⟩
  · right
    cases asked with
    | first => dsimp only; split <;> simp
    | again => dsimp only; split <;> simp

end Pipe

namespace PipeHub

/- The hub after something that the device does. -/
def act : DeviceAct → PipeHub → PipeHub
  | .accept, h => h.accept.2
  | .recv asked id, h => (h.onLink id (·.recv asked)).2
  | .send asked id frame, h =>
      (h.onLink id (·.send asked frame)).2
  | .hangUp id, h => h.hangUp id
  | .failWrites id n, h =>
      h.modify id fun p => { p with failWrites := n }
  | .control c, h => h.control c

/- The frames on their way to the host. -/
def inbox (id : Nat) (h : PipeHub) : List (List UInt8) :=
  (h.link id).toHost

theorem inbox_congr
    {h h' : PipeHub}
    (hLinks : h'.links = h.links)
    (id : Nat) :
    h'.inbox id = h.inbox id := by
  unfold inbox link
  rw [hLinks]

/- Of all links, only the one of the number changes. -/
theorem link_onLink
    {R : Type}
    (h : PipeHub)
    (id id' : Nat)
    (f : Pipe → R × Pipe) :
    (h.onLink id' f).2.link id = h.link id ∨
      (h.onLink id' f).2.link id = (f (h.link id)).2 := by
  unfold onLink modify link
  dsimp only
  rw [Array.getElem?_modify]
  by_cases hSame : id' - 1 = id - 1
  · rw [if_pos hSame, hSame]
    cases h.links[id - 1]? with
    | none => exact .inl rfl
    | some p => exact .inr rfl
  · rw [if_neg hSame]
    exact .inl rfl

/- A link of the hub that has frames is really there. -/
theorem link_onLink_self
    {R : Type}
    (h : PipeHub)
    (id : Nat)
    (f : Pipe → R × Pipe)
    (hSome : h.inbox id ≠ []) :
    (h.onLink id f).2.link id = (f (h.link id)).2 := by
  unfold inbox at hSome
  unfold onLink modify link at *
  dsimp only
  rw [Array.getElem?_modify, if_pos rfl]
  cases hLink : h.links[id - 1]? with
  | none =>
      rw [hLink] at hSome
      exact absurd rfl hSome
  | some p => rfl

theorem link_modify
    (h : PipeHub)
    (id id' : Nat)
    (f : Pipe → Pipe) :
    (h.modify id' f).link id = h.link id ∨
      (h.modify id' f).link id = f (h.link id) := by
  unfold modify link
  dsimp only
  rw [Array.getElem?_modify]
  by_cases hSame : id' - 1 = id - 1
  · rw [if_pos hSame]
    cases h.links[id - 1]? with
    | none => exact .inl rfl
    | some p => exact .inr rfl
  · rw [if_neg hSame]
    exact .inl rfl

/- Using a link as its inbox is kept keeps all of them. -/
theorem inbox_onLink
    {R : Type}
    (h : PipeHub)
    (id id' : Nat)
    {f : Pipe → R × Pipe}
    (hKeeps : ∀ p, (f p).2.toHost = p.toHost) :
    (h.onLink id' f).2.inbox id = h.inbox id := by
  unfold inbox
  rcases link_onLink h id id' f with hLink | hLink
  · rw [hLink]
  · rw [hLink, hKeeps]

theorem inbox_modify
    (h : PipeHub)
    (id id' : Nat)
    {f : Pipe → Pipe}
    (hKeeps : ∀ p, (f p).toHost = p.toHost) :
    (h.modify id' f).inbox id = h.inbox id := by
  unfold inbox
  rcases link_modify h id id' f with hLink | hLink
  · rw [hLink]
  · rw [hLink, hKeeps]

/- All that a device does to an inbox is to send a frame. -/
theorem inbox_act (a : DeviceAct) (id : Nat) (h : PipeHub) :
    (h.act a).inbox id = h.inbox id ∨
      ∃ asked id' frame,
        a = .send asked id' frame ∧
          (h.act a).inbox id = h.inbox id ++ [frame] := by
  cases a with
  | accept =>
      left
      apply inbox_congr
      simp only [act, accept]
      split <;> rfl
  | recv asked id' =>
      exact .inl (h.inbox_onLink id id' (·.toHost_recv asked))
  | send asked id' frame =>
      rcases link_onLink h id id' (·.send asked frame) with
        hLink | hLink
      · exact .inl (congrArg Pipe.toHost hLink)
      · have hInbox := congrArg Pipe.toHost hLink
        rcases (h.link id).toHost_send asked frame with
          hSame | hSent
        · exact .inl (hInbox.trans hSame)
        · exact .inr
            ⟨asked, id', frame, rfl, hInbox.trans hSent⟩
  | hangUp id' =>
      exact .inl (h.inbox_modify id id' Pipe.toHost_hangUp)
  | failWrites id' n =>
      exact .inl (h.inbox_modify id id' fun p => rfl)
  | control c =>
      left
      apply inbox_congr
      rcases c with ⟨reachable, signals, failures⟩
      cases reachable <;> rfl

/- An event takes the oldest frame out of an inbox. -/
theorem inbox_nextEvent
    (asked : Asked)
    (id : Nat)
    (h : PipeHub) :
    (∃ frame,
        (h.onLink id (·.nextEvent asked)).1 =
            some (.data frame) ∧
          h.inbox id =
            frame ::
              (h.onLink id (·.nextEvent asked)).2.inbox id) ∨
      (∀ frame,
        (h.onLink id (·.nextEvent asked)).1 ≠
          some (.data frame)) ∧
        (h.onLink id (·.nextEvent asked)).2.inbox id =
          h.inbox id := by
  rcases (h.link id).toHost_nextEvent asked with
    ⟨frame, hHeard, hTaken⟩ | ⟨hNone, hSame⟩
  · left
    have hSome : h.inbox id ≠ [] := by
      unfold inbox
      rw [hTaken]
      exact List.cons_ne_nil _ _
    have hLink :=
      link_onLink_self h id (·.nextEvent asked) hSome
    refine ⟨frame, hHeard, hTaken.trans ?_⟩
    exact congrArg (frame :: ·)
      (congrArg Pipe.toHost hLink).symm
  · right
    refine ⟨hNone, ?_⟩
    rcases link_onLink h id id (·.nextEvent asked) with
      hLink | hLink
    · exact congrArg Pipe.toHost hLink
    · exact (congrArg Pipe.toHost hLink).trans hSame

/- The links of a hub, with what the device can do. -/
def buffered (p : Profile) (s : Handshake) :
    Buffered PipeHub Nat DeviceAct where
  connector := connector p s
  act := act
  inbox := inbox
  inbox_write asked id frame h :=
    h.inbox_onLink id id fun p => p.toHost_write asked frame
  inbox_pending asked id h h' hEvent := by
    have hAnswer := congrArg Prod.fst hEvent
    have hHub := congrArg Prod.snd hEvent
    subst hHub
    rcases inbox_nextEvent asked id h with
      ⟨frame, hHeard, -⟩ | ⟨-, hSame⟩
    · cases hHeard.symm.trans hAnswer
    · exact hSame
  inbox_heard asked id h frame h' hEvent := by
    have hAnswer := congrArg Prod.fst hEvent
    have hHub := congrArg Prod.snd hEvent
    subst hHub
    rcases inbox_nextEvent asked id h with
      ⟨frame', hHeard, hTaken⟩ | ⟨hNone, -⟩
    · cases hHeard.symm.trans hAnswer
      exact hTaken
    · exact absurd hAnswer (hNone frame)
  inbox_act a id h := by
    rcases inbox_act a id h with hSame | ⟨_, _, frame, -, hSent⟩
    · exact ⟨[], by rw [hSame, List.append_nil]⟩
    · exact ⟨[frame], hSent.symm⟩

end PipeHub

end DeviceSession
