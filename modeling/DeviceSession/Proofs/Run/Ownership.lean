import DeviceSession.Proofs.Run.Custody
import DeviceSession.Proofs.Run.Inbox

/-
  One connection owns its links within one program.

  The links that a connection opens are shut one by one, each
  before the next one is opened: after a loss, a failed or
  late setup, a wish to close or the end.  What else happens
  to the links, by the device or to it, opens none of them
  again.

  Key definitions include:
    * `PipeTable.run`
    * `PipeHub.Unshut`
    * `PipeHub.allShut`
    * `PipeHub.Guards`
    * `Scenario.Owned`

  Main declarations:
    * `PipeHub.guards_keeps`
    * `Scenario.run_owned`
-/

------------------------------------------------------------
-- Shut Links
------------------------------------------------------------

namespace DeviceSession

namespace Pipe

/- Frames that go down do not shut a link. -/
theorem closed_writeBuffer
    (p : Pipe)
    (frame : List UInt8) :
    (p.writeBuffer frame).2.closed = p.closed := by
  unfold writeBuffer
  split
  · rfl
  · split <;> rfl

/- A write does not either. -/
theorem closed_write
    (p : Pipe)
    (asked : Asked)
    (frame : List UInt8) :
    (p.write asked frame).2.closed = p.closed := by
  cases asked with
  | again => exact p.closed_writeBuffer frame
  | first =>
      simp only [write]
      split
      · rfl
      · split
        · rfl
        · exact p.closed_writeBuffer frame

/- To listen leaves it open. -/
theorem closed_nextEvent (p : Pipe) (asked : Asked) :
    (p.nextEvent asked).2.closed = p.closed := by
  unfold nextEvent
  split
  · rfl
  · cases asked with
    | first => dsimp only; split <;> rfl
    | again => dsimp only; split <;> rfl

/- So does what the device takes. -/
theorem closed_recv (p : Pipe) (asked : Asked) :
    (p.recv asked).2.closed = p.closed := by
  unfold recv
  split
  · rfl
  · cases asked with
    | first => dsimp only; split <;> rfl
    | again => dsimp only; split <;> rfl

/- So does what it sends. -/
theorem closed_send
    (p : Pipe)
    (asked : Asked)
    (frame : List UInt8) :
    (p.send asked frame).2.closed = p.closed := by
  unfold send
  split
  · rfl
  · split <;> rfl

/- To hang up shuts it. -/
@[simp] theorem closed_hangUp (p : Pipe) :
    p.hangUp.closed = true := by
  unfold hangUp
  split
  · assumption
  · rfl

end Pipe

namespace PipeHub

/- A link opened after the first ones, that is not shut. -/
def Unshut (first : Nat) (h : PipeHub) (id : Nat) : Prop :=
  first < id ∧ (h.link id).closed = false

/- All links opened after the first ones are shut. -/
def allShut (first : Nat) (h : PipeHub) : Bool :=
  (h.links.toList.drop first).all Pipe.closed

/- All are shut if none is not. -/
theorem allShut_of_not_unshut
    {first : Nat}
    {h : PipeHub}
    (hNone : ∀ id, ¬ h.Unshut first id) :
    h.allShut first = true := by
  apply List.all_eq_true.mpr
  intro p hp
  rcases List.mem_iff_getElem?.mp hp with ⟨i, hi⟩
  rw [List.getElem?_drop, Array.getElem?_toList] at hi
  have hLink : h.link (first + i + 1) = p := by
    unfold link
    rw [Nat.add_sub_cancel, hi]
    rfl
  by_contra hOpen
  apply hNone (first + i + 1)
  refine ⟨by omega, ?_⟩
  rw [hLink]
  simpa using hOpen

/- A link that is shut stays so when it is used. -/
theorem closed_onLink
    {R : Type}
    (h : PipeHub)
    (id id' : Nat)
    {f : Pipe → R × Pipe}
    (hKeeps : ∀ p, (f p).2.closed = p.closed) :
    ((h.onLink id' f).2.link id).closed =
      (h.link id).closed := by
  rcases link_onLink h id id' f with hLink | hLink
  · rw [hLink]
  · rw [hLink, hKeeps]

/- What is open now was open before. -/
theorem closed_modify
    (h : PipeHub)
    (id id' : Nat)
    {f : Pipe → Pipe}
    (hKeeps : ∀ p, p.closed = true → (f p).closed = true)
    (hOpen : ((h.modify id' f).link id).closed = false) :
    (h.link id).closed = false := by
  rcases link_modify h id id' f with hLink | hLink
  · rwa [hLink] at hOpen
  · rw [hLink] at hOpen
    by_contra hShut
    rw [hKeeps _ (by simpa using hShut)] at hOpen
    cases hOpen

/- The link that is hung up is shut, if there is one. -/
theorem closed_hangUp_self (h : PipeHub) (id : Nat) :
    ((h.hangUp id).link id).closed = true := by
  unfold hangUp modify link
  rw [Array.getElem?_modify, if_pos rfl]
  cases h.links[id - 1]? with
  | none => rfl
  | some p => exact p.closed_hangUp

/- The links of a hub are the ones that were counted. -/
def Counted (h : PipeHub) : Prop :=
  h.links.size = h.opened

/- What is done to a link opens none. -/
theorem counted_modify
    {h : PipeHub}
    (hCounted : h.Counted)
    (id : Nat)
    (f : Pipe → Pipe) :
    (h.modify id f).Counted :=
  Array.size_modify.trans hCounted

/- To look for a device does not either. -/
theorem reach_links (asked : Asked) (h : PipeHub) :
    (h.reach asked).2.links = h.links ∧
      (h.reach asked).2.opened = h.opened := by
  unfold reach reachNow
  repeat' split
  all_goals exact ⟨rfl, rfl⟩

/- A link that is added has the next number. -/
theorem link_push
    (h : PipeHub)
    {id : Nat}
    (p : Pipe)
    (hPositive : 0 < id)
    (hOther : id ≠ h.links.size + 1) :
    ((h.links.push p)[id - 1]?).getD { closed := true } =
      h.link id := by
  rw [Array.getElem?_push, if_neg (by omega)]
  rfl

/- What comes of opening a link. -/
inductive Connects (h : PipeHub) :
    Except LinkError Nat × PipeHub → Prop where
  | refused
      (e : LinkError)
      {h' : PipeHub}
      (hLinks : h'.links = h.links)
      (hOpened : h'.opened = h.opened) :
      Connects h (.error e, h')
  | opened
      {h' : PipeHub}
      (hLinks : h'.links = h.links.push {})
      (hOpened : h'.opened = h.opened + 1) :
      Connects h (.ok (h.opened + 1), h')
  /- The link counts, but is shut from the start. -/
  | unheard
      (e : LinkError)
      {h' : PipeHub}
      (hLinks : h'.links = h.links.push { closed := true })
      (hOpened : h'.opened = h.opened + 1) :
      Connects h (.error e, h')

/- To connect opens the next one, or none. -/
theorem connects_connect (h : PipeHub) :
    Connects h h.connect := by
  unfold connect
  split
  · exact .refused _ rfl rfl
  · split
    · exact .refused _ rfl rfl
    · dsimp only
      split
      · exact .opened rfl rfl
      · exact .unheard _ rfl rfl

/- Opening a link opens the one of its number, if any. -/
theorem unshut_of_connects
    {first : Nat}
    {h : PipeHub}
    {out : Except LinkError Nat × PipeHub}
    (hCounted : h.Counted)
    (hConnects : Connects h out)
    {id : Nat}
    (hUnshut : out.2.Unshut first id) :
    h.Unshut first id ∨ out.1 = .ok id := by
  rcases hUnshut with ⟨hFirst, hOpen⟩
  have hPositive : 0 < id := by omega
  unfold link at hOpen
  cases hConnects with
  | refused e hLinks hOpened =>
      rw [hLinks] at hOpen
      exact .inl ⟨hFirst, hOpen⟩
  | opened hLinks hOpened =>
      rw [hLinks] at hOpen
      by_cases hNew : id = h.links.size + 1
      · right
        rw [hNew, hCounted]
      · rw [h.link_push _ hPositive hNew] at hOpen
        exact .inl ⟨hFirst, hOpen⟩
  | unheard e hLinks hOpened =>
      rw [hLinks] at hOpen
      by_cases hNew : id = h.links.size + 1
      · rw [hNew, Nat.add_sub_cancel,
          Array.getElem?_push_size] at hOpen
        cases hOpen
      · rw [h.link_push _ hPositive hNew] at hOpen
        exact .inl ⟨hFirst, hOpen⟩

/- So the links are counted right. -/
theorem counted_of_connects
    {h : PipeHub}
    {out : Except LinkError Nat × PipeHub}
    (hCounted : h.Counted)
    (hConnects : Connects h out) :
    out.2.Counted := by
  unfold Counted at hCounted ⊢
  cases hConnects with
  | refused e hLinks hOpened => rw [hLinks, hOpened, hCounted]
  | opened hLinks hOpened =>
      rw [hLinks, hOpened, Array.size_push, hCounted]
  | unheard e hLinks hOpened =>
      rw [hLinks, hOpened, Array.size_push, hCounted]

------------------------------------------------------------
-- What Is Not Shut Is Held
------------------------------------------------------------

/- Every link that was opened and is not shut is held. -/
structure Guards
    (first : Nat)
    (t : Custody PipeHub Nat) : Prop where
  counted : t.world.Counted
  held : ∀ id, t.world.Unshut first id → id ∈ t.held

/- A change that opens no link. -/
theorem Guards.put
    {first : Nat}
    {t : Custody PipeHub Nat}
    (hGuards : Guards first t)
    {h : PipeHub}
    (hCounted : h.Counted)
    (hOpens :
      ∀ id, (h.link id).closed = false →
        (t.world.link id).closed = false) :
    Guards first (t.put h) :=
  ⟨hCounted, fun id hUnshut =>
    hGuards.held id ⟨hUnshut.1, hOpens id hUnshut.2⟩⟩

/- A link is used, and stays as open as it was. -/
theorem Guards.onLink
    {first : Nat}
    {t : Custody PipeHub Nat}
    (hGuards : Guards first t)
    {R : Type}
    (id : Nat)
    {f : Pipe → R × Pipe}
    (hKeeps : ∀ p, (f p).2.closed = p.closed) :
    Guards first (t.put (t.world.onLink id f).2) := by
  refine hGuards.put (counted_modify hGuards.counted _ _) ?_
  intro id' hOpen
  rwa [closed_onLink _ _ _ hKeeps] at hOpen

/- A link may be shut meanwhile. -/
theorem Guards.modify
    {first : Nat}
    {t : Custody PipeHub Nat}
    (hGuards : Guards first t)
    (id : Nat)
    {f : Pipe → Pipe}
    (hKeeps : ∀ p, p.closed = true → (f p).closed = true) :
    Guards first (t.put (t.world.modify id f)) :=
  hGuards.put (counted_modify hGuards.counted _ _)
    fun _ => closed_modify _ _ _ hKeeps

/- A connection holds what it has opened, until it shuts it. -/
theorem guards_keeps
    (p : Profile)
    (s : Handshake)
    (first : Nat) :
    (connector p s).custody.Keeps (Guards first) where
  reach asked t hGuards := by
    have hSame := reach_links asked t.world
    refine hGuards.put (h := (t.world.reach asked).2) ?_ ?_
    · unfold Counted
      rw [hSame.1, hSame.2]
      exact hGuards.counted
    · intro id hOpen
      unfold link at hOpen ⊢
      rwa [hSame.1] at hOpen
  connect asked t hGuards := by
    have hConnects := connects_connect t.world
    have hCounted :=
      counted_of_connects hGuards.counted hConnects
    have hUnshut (id : Nat) :
        t.world.connect.2.Unshut first id →
          t.world.Unshut first id ∨
            t.world.connect.1 = .ok id :=
      unshut_of_connects hGuards.counted hConnects
    simp only [Connector.custody, connector]
    generalize t.world.connect = out at hCounted hUnshut ⊢
    rcases out with ⟨r, h⟩
    cases r with
    | error e =>
        refine ⟨hCounted, fun id hNow => ?_⟩
        rcases hUnshut id hNow with hOld | hNew
        · exact hGuards.held id hOld
        · cases hNew
    | ok l =>
        refine ⟨hCounted, fun id hNow => ?_⟩
        rcases hUnshut id hNow with hOld | hNew
        · exact List.mem_append_left _ (hGuards.held id hOld)
        · cases hNew
          exact List.mem_append_right _ List.mem_cons_self
  write asked id frame t hGuards :=
    hGuards.onLink id fun p => p.closed_write asked frame
  event asked id t hGuards :=
    hGuards.onLink id fun p => p.closed_nextEvent asked
  close id t hGuards := by
    refine ⟨counted_modify hGuards.counted _ _, ?_⟩
    rintro id' ⟨hFirst, hOpen⟩
    have hOther : id' ≠ id := by
      rintro rfl
      rw [show ((connector p s).custody.close id' t).world =
        t.world.hangUp id' from rfl, closed_hangUp_self] at hOpen
      cases hOpen
    have hOld :=
      closed_modify t.world id' id (f := Pipe.hangUp)
        (fun p _ => p.closed_hangUp) hOpen
    exact (List.mem_erase_of_ne hOther).mpr
      (hGuards.held id' ⟨hFirst, hOld⟩)

/- What the device does opens no link. -/
theorem Guards.act
    {first : Nat}
    {t : Custody PipeHub Nat}
    (hGuards : Guards first t)
    (a : DeviceAct) :
    Guards first (Custody.act PipeHub.act a t) := by
  cases a with
  | accept =>
      unfold Custody.act PipeHub.act accept
      dsimp only
      split <;> exact ⟨hGuards.counted, hGuards.held⟩
  | recv asked id =>
      exact hGuards.onLink id fun p => p.closed_recv asked
  | send asked id frame =>
      exact hGuards.onLink id fun p => p.closed_send asked frame
  | hangUp id =>
      exact hGuards.modify id fun p _ => p.closed_hangUp
  | failWrites id n => exact hGuards.modify id fun _ h => h
  | control c =>
      rcases c with ⟨reachable, signals, failures⟩
      cases reachable with
      | none => exact ⟨hGuards.counted, hGuards.held⟩
      | some b => exact ⟨hGuards.counted, hGuards.held⟩

end PipeHub

------------------------------------------------------------
-- Links Used Before
------------------------------------------------------------

namespace PipeTable

/- The links after some operations. -/
def run
    (t : PipeTable)
    (steps : List PipeStep) : PipeTable :=
  steps.foldl (fun t step => (t.apply step).2) t

/- Any use of a table keeps the count. -/
theorem counted_use
    {t : PipeTable}
    (hCounted : t.hub.Counted)
    {R : Type}
    (id : Option Nat)
    (f : Pipe → Option R × Pipe)
    (reply : R → PipeReply) :
    (t.use id f reply).2.hub.Counted := by
  cases id with
  | none => exact hCounted
  | some id => exact PipeHub.counted_modify hCounted _ _

/- So does any change to a link. -/
theorem counted_change
    {t : PipeTable}
    (hCounted : t.hub.Counted)
    (id : Option Nat)
    (f : Pipe → Pipe) :
    (t.change id f).2.hub.Counted := by
  cases id with
  | none => exact hCounted
  | some id => exact PipeHub.counted_modify hCounted _ _

/- So does every step. -/
theorem counted_apply
    {t : PipeTable}
    (hCounted : t.hub.Counted)
    (step : PipeStep) :
    (t.apply step).2.hub.Counted := by
  cases step with
  | connect =>
      have hNext :=
        PipeHub.counted_of_connects hCounted
          t.hub.connects_connect
      simp only [apply]
      generalize t.hub.connect = out at hNext ⊢
      rcases out with ⟨r, h⟩
      cases r <;> exact hNext
  | accept =>
      simp only [apply, PipeHub.accept]
      split
      · rename_i hAccept
        split at hAccept <;> cases hAccept
        exact hCounted
      · rename_i hAccept
        split at hAccept <;> cases hAccept
        exact hCounted
  | write i frame => exact counted_use hCounted _ _ _
  | nextEvent i => exact counted_use hCounted _ _ _
  | recv i => exact counted_use hCounted _ _ _
  | send i frame => exact counted_use hCounted _ _ _
  | close i => exact counted_change hCounted _ _
  | dropHost i => exact counted_change hCounted _ _
  | dropLink i => exact counted_change hCounted _ _
  | dropDevice i => exact counted_change hCounted _ _
  | failWrites i n => exact counted_change hCounted _ _
  | control c =>
      rcases c with ⟨reachable, signals, failures⟩
      cases reachable <;> exact hCounted
  | reach =>
      have hSame := t.hub.reach_links .first
      change PipeHub.Counted (t.hub.reach .first).2
      unfold PipeHub.Counted
      rw [hSame.1, hSame.2]
      exact hCounted

/- So it is throughout a run. -/
theorem counted_run (steps : List PipeStep) :
    (run {} steps).hub.Counted := by
  induction steps using List.reverseRecOn with
  | nil => rfl
  | append_singleton steps step ih =>
      unfold run at ih ⊢
      rw [List.foldl_append]
      exact counted_apply ih step

end PipeTable

/- At first nothing is held, and nothing opened since. -/
theorem PipeHub.guards_start
    {h : PipeHub}
    (hCounted : h.Counted) :
    Guards h.opened { world := h } := by
  refine ⟨hCounted, ?_⟩
  rintro id ⟨hFirst, hOpen⟩
  have hNone : h.links[id - 1]? = none := by
    unfold Counted at hCounted
    exact Array.getElem?_eq_none (by omega)
  unfold link at hOpen
  rw [hNone] at hOpen
  cases hOpen

------------------------------------------------------------
-- Runs
------------------------------------------------------------

namespace Scenario

/- The links of a run are guarded all along. -/
theorem guards_run
    (p : Profile)
    (s : Handshake)
    {h : PipeHub}
    (hCounted : h.Counted)
    (settings : Settings)
    (now : Nat)
    (moves : List (Move DeviceAct)) :
    PipeHub.Guards h.opened
      ((start settings now { world := h }).run
        (PipeHub.connector p s).custody
        (Custody.act PipeHub.act) moves).world := by
  apply run_induction
    (P := fun s : Scenario (Custody PipeHub Nat) Nat =>
      PipeHub.Guards h.opened s.world)
  · intro s' m _ hGuards
    cases m with
    | outside a => exact hGuards.act a
    | drive =>
        change PipeHub.Guards h.opened (s'.drive _).world
        unfold drive
        cases s'.driver with
        | none => exact hGuards
        | some d =>
            exact d.step_keeps
              (PipeHub.guards_keeps p s h.opened) s'.now
              s'.connection hGuards
    | _ => exact hGuards
  · exact PipeHub.guards_start hCounted

/-
  How a connection has its links, of those that were opened
  after the first ones.
-/
structure Owned
    (first : Nat)
    (s : Scenario (Custody PipeHub Nat) Nat) : Prop where
  /- The driver has a link in the states that have one. -/
  link :
    ∀ d ∈ s.driver,
      d.link.isSome = s.connection.state.isLinked
  /- Of all links that it has opened, it has given up all but
     the one in use, or the one being set up. -/
  held :
    s.world.held = (s.driver.bind Driver.handle?).toList
  /- All others are shut. -/
  unshut :
    ∀ id, s.world.world.Unshut first id →
      s.world.held = [id]
  atMostOne :
    ∀ id id', s.world.world.Unshut first id →
      s.world.world.Unshut first id' → id = id'
  /- At the end all are. -/
  ended :
    s.driver = none →
      s.world.held = [] ∧
        ∀ id, ¬ s.world.world.Unshut first id

/- What is held is open, and what is open is held. -/
theorem owned_of_guards
    {first : Nat}
    {s : Scenario (Custody PipeHub Nat) Nat}
    (hStaffed : s.Staffed)
    (hHeld : s.Held)
    (hGuards : PipeHub.Guards first s.world) :
    s.Owned first := by
  have hUnshut :
      ∀ id, s.world.world.Unshut first id →
        s.world.held = [id] := by
    intro id hUnshut
    have hMem := hGuards.held id hUnshut
    rw [hHeld, Option.mem_toList] at hMem
    rw [hHeld, hMem]
    rfl
  refine {
    link := fun d hd => (hStaffed.fits d hd).link
    held := hHeld
    unshut := hUnshut
    atMostOne := ?atMostOne
    ended := ?ended }
  case atMostOne =>
    intro id id' hFirst hSecond
    have hSame := (hUnshut id hFirst).symm.trans
      (hUnshut id' hSecond)
    exact (List.cons.inj hSame).1
  case ended =>
    intro hNone
    have hEmpty : s.world.held = [] := by
      rw [hHeld, hNone]
      rfl
    refine ⟨hEmpty, fun id hOpen => ?_⟩
    rw [hUnshut id hOpen] at hEmpty
    cases hEmpty

/- With no link held, all are shut. -/
theorem allShut_of_guards
    {first : Nat}
    {t : Custody PipeHub Nat}
    (hGuards : PipeHub.Guards first t)
    (hEmpty : t.held = []) :
    t.world.allShut first = true := by
  apply PipeHub.allShut_of_not_unshut
  intro id hUnshut
  have hMem := hGuards.held id hUnshut
  rw [hEmpty] at hMem
  cases hMem

/-
  In every run, over links that may have been used before, a
  connection owns its links one after another.  It would be
  the same run if a link could not be opened, or be opened in
  any other way, while one is held or not shut.  The run is
  the one without the list of links.
-/
theorem run_owned
    (p : Profile)
    (s : Handshake)
    (earlier : List PipeStep)
    (settings : Settings)
    (now : Nat)
    (moves : List (Move DeviceAct)) :
    let h := (PipeTable.run {} earlier).hub
    let c := (PipeHub.connector p s).custody
    let act := Custody.act PipeHub.act
    let fit := fun t : Custody PipeHub Nat =>
      t.held.isEmpty && t.world.allShut h.opened
    let s' := (start settings now { world := h }).run c act moves
    s'.map Custody.world id =
        (start settings now h).run (PipeHub.connector p s)
          PipeHub.act moves ∧
      s'.Owned h.opened ∧
        ∀ other,
          (start settings now { world := h }).run
              (c.guarded fit other) act moves =
            s' := by
  intro h c act fit s'
  have hCounted : h.Counted := PipeTable.counted_run earlier
  have hGuards : ∀ moves,
      PipeHub.Guards h.opened
        ((start settings now { world := h }).run c act
          moves).world :=
    guards_run p s hCounted settings now
  refine ⟨?_, ?_, ?_⟩
  · exact map_custody_run (PipeHub.connector p s) PipeHub.act
      (start settings now { world := h }) moves
  · apply owned_of_guards
    · exact staffed_run c act settings now { world := h } moves
    · exact held_run (PipeHub.connector p s) PipeHub.act
        settings now h moves
    · exact hGuards moves
  · intro other
    refine run_guarded (PipeHub.connector p s) PipeHub.act
      settings now h (P := PipeHub.Guards h.opened) ?_ other
      moves fun before _ => hGuards before
    intro t hGuard hEmpty
    simp only [fit]
    rw [hEmpty, allShut_of_guards hGuard hEmpty]
    rfl

end Scenario

end DeviceSession
