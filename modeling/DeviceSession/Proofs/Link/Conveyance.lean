import DeviceSession.Proofs.Link.Histories

/-
  What links within one program deliver.

  Every table that some operations lead to agrees with the
  history of them, link by link: the frames that an end has
  got and those that wait for it are the frames accepted on
  their way to it, in order.  Both ends of a link go by the
  same number, so that no frame crosses links.

  Key definitions include:
    * `PipeHistory.Means`
    * `PipeHistory.Delivers`
    * `PipeTable.Tells`
    * `PipeTable.Conveys`

  Main declarations:
    * `PipeHistory.Delivers.concat`
    * `PipeTable.Tells.apply`
    * `PipeTable.run_conveys`
-/

------------------------------------------------------------
-- One Link
------------------------------------------------------------

namespace DeviceSession

namespace PipeHistory

/-
  What an operation means for the link of a number.  To give
  up an end that was never handed out means nothing.
-/
inductive Means (h : PipeHistory) (i : Nat) (ev : PipeEvent) :
    PipeDeed → Prop where
  | here (hShuts : ev.deedAt i = .shut → h.Shuts i ev) :
      Means h i ev (ev.deedAt i)
  | nowhere
      (hShut : ev.deedAt i = .shut)
      (hNone : ¬ h.Shuts i ev) :
      Means h i ev .nothing

namespace Means

variable
  {h : PipeHistory} {i : Nat} {ev : PipeEvent} {d : PipeDeed}

theorem sent? (hMeans : h.Means i ev d) (e : PipeEnd) :
    (ev.deedAt i).sent? e = d.sent? e := by
  cases hMeans with
  | here => rfl
  | nowhere hShut => rw [hShut]; rfl

theorem received? (hMeans : h.Means i ev d) (e : PipeEnd) :
    (ev.deedAt i).received? e = d.received? e := by
  cases hMeans with
  | here => rfl
  | nowhere hShut => rw [hShut]; rfl

theorem gone (hMeans : h.Means i ev d) {e : PipeEnd}
    (hGone : ev.deedAt i = .gone e) :
    d = .gone e := by
  cases hMeans with
  | here => exact hGone
  | nowhere hShut => rw [hShut] at hGone; cases hGone

theorem shut_iff (hMeans : h.Means i ev d) :
    d = .shut ↔ h.Shuts i ev := by
  cases hMeans with
  | here hShuts => exact ⟨hShuts, And.left⟩
  | nowhere hShut hNone => simp [hNone]

end Means

/- How a link agrees with what was done to it. -/
structure Delivers (h : PipeHistory) (i : Nat) (p : Pipe) :
    Prop where
  delivered :
    ∀ e, h.sent e i = h.received e i ++ p.queue e
  bounded : ∀ e, (p.queue e).length ≤ Pipe.depth
  written : p.written = (h.sent .device i).length
  read : p.read = (h.received .device i).length
  shut : p.closed = true ↔ h.Shut i
  /- Nothing is accepted once the link is shut. -/
  silent :
    ∀ before after, h = before ++ after →
      Shut i before → ∀ e, h.sent e i = sent e i before
  /- An end is told last that the link is over. -/
  ended :
    ∀ before ev after e, h = before ++ ev :: after →
      ev.deedAt i = .gone e →
        Shut i before ∧
          received e i before = sent e i before ∧
          h.received e i = received e i before

/- A link that has just been opened, or has yet to be. -/
theorem delivers_nil (i : Nat) : Delivers [] i {} where
  delivered e := by cases e <;> rfl
  bounded e := by cases e <;> exact Nat.zero_le _
  written := rfl
  read := rfl
  shut := by simp [not_shut_nil]
  silent := by
    rintro before after hSplit - e
    rw [List.append_eq_nil_iff.mp hSplit.symm |>.1]
  ended := by
    intro before ev after e hSplit
    simp at hSplit

namespace Delivers

variable
  {h : PipeHistory} {i : Nat} {ev : PipeEvent} {d : PipeDeed}
  {p p' : Pipe}

/- Frames are accepted only while the link is open. -/
theorem sent_concat_of_shut
    (hOld : h.Delivers i p)
    (hMeans : h.Means i ev d)
    (hDoes : p.Does d p')
    (hShut : h.Shut i)
    (e : PipeEnd) :
    sent e i (h ++ [ev]) = h.sent e i := by
  rw [sent_concat, hMeans.sent?]
  cases hDoes with
  | sent e' frame hOpen =>
      rw [hOld.shut.mpr hShut] at hOpen
      cases hOpen
  | received | gone | shut | nothing => exact List.append_nil _

/- Nothing waits for an end that has got all frames. -/
theorem queue_of_all
    (hOld : h.Delivers i p)
    {e : PipeEnd}
    (hAll : h.received e i = h.sent e i) :
    p.queue e = [] := by
  have hDelivered := hOld.delivered e
  rw [hAll] at hDelivered
  exact List.append_right_eq_self.mp hDelivered.symm

theorem received_concat_of_all
    (hOld : h.Delivers i p)
    (hMeans : h.Means i ev d)
    (hDoes : p.Does d p')
    {e : PipeEnd}
    (hAll : h.received e i = h.sent e i) :
    received e i (h ++ [ev]) = h.received e i := by
  have hEmpty := hOld.queue_of_all hAll
  rw [received_concat, hMeans.received?]
  cases hDoes with
  | received e' frame hQueue =>
      have hOther : e' ≠ e := by
        rintro rfl
        rw [hEmpty] at hQueue
        cases hQueue
      simp [PipeDeed.received?, hOther]
  | sent | gone | shut | nothing => exact List.append_nil _

/- One more operation at the ends of the link, or elsewhere. -/
theorem concat
    (hOld : h.Delivers i p)
    (hMeans : h.Means i ev d)
    (hDoes : p.Does d p') :
    Delivers (h ++ [ev]) i p' where
  delivered e := by
    rw [sent_concat, received_concat, hMeans.sent?,
      hMeans.received?, hOld.delivered, List.append_assoc,
      hDoes.queue, List.append_assoc]
  bounded e := hDoes.bounded (hOld.bounded e)
  written := by
    rw [hDoes.counters.1, hOld.written, sent_concat,
      hMeans.sent?, List.length_append]
  read := by
    rw [hDoes.counters.2, hOld.read, received_concat,
      hMeans.received?, List.length_append]
  shut := by
    rw [hDoes.closed, hOld.shut, hMeans.shut_iff, shut_concat]
  silent := by
    intro before after hSplit hShut e
    rcases List.eq_nil_or_concat after with
      rfl | ⟨after', last, rfl⟩
    · rw [hSplit, List.append_nil]
    · rw [List.concat_eq_append, ← List.append_assoc] at hSplit
      have hEarlier := (List.append_inj' hSplit rfl).1
      have hNow : h.Shut i := by
        rw [hEarlier]
        exact hShut.append after'
      rw [hOld.sent_concat_of_shut hMeans hDoes hNow]
      exact hOld.silent before after' hEarlier hShut e
  ended := by
    intro before ev' after e hSplit hGone
    rcases split_concat hSplit with
      ⟨rfl, rfl, rfl⟩ | ⟨after', hEarlier, rfl⟩
    · cases hMeans.gone hGone
      cases hDoes with
      | gone _ hClosed hEmpty =>
          have hAll := hOld.delivered e
          rw [hEmpty, List.append_nil] at hAll
          refine ⟨hOld.shut.mp hClosed, hAll.symm, ?_⟩
          exact hOld.received_concat_of_all hMeans
            (.gone e hClosed hEmpty) hAll.symm
    · rcases hOld.ended before ev' after' e hEarlier hGone with
        ⟨hShut, hAll, hSame⟩
      have hSilent :=
        hOld.silent before (ev' :: after') hEarlier hShut e
      refine ⟨hShut, hAll, ?_⟩
      rw [← hSame]
      apply hOld.received_concat_of_all hMeans hDoes
      rw [hSame, hAll, hSilent]

theorem concat_of_nothing
    (hOld : h.Delivers i p)
    (hNothing : ev.deedAt i = .nothing) :
    Delivers (h ++ [ev]) i p := by
  have hMeans : h.Means i ev (ev.deedAt i) := by
    refine .here fun hShut => ?_
    rw [hNothing] at hShut
    cases hShut
  rw [hNothing] at hMeans
  exact hOld.concat hMeans (.nothing p.failWrites p.deviceLost)

end Delivers

end PipeHistory

------------------------------------------------------------
-- Ends That Were Handed Out
------------------------------------------------------------

namespace PipeTable

/- How the ends agree with what was done to the links. -/
structure Hands (t : PipeTable) (h : PipeHistory) : Prop where
  size : ∀ e, (t.ends e).size = (h.handed e).length
  held :
    ∀ e i id, t.held? e i = some id →
      (h.handed e)[i]? = some id
  /- An end that is no longer held has been dropped. -/
  dropped :
    ∀ e i, i < (h.handed e).length →
      t.held? e i = none → h.Shut i

namespace Hands

variable
  {t t' : PipeTable} {h : PipeHistory} {ev : PipeEvent}

/- Ends that are handed out come behind the others. -/
theorem concat
    (hHands : t.Hands h)
    (hEnds :
      ∀ e, (t'.ends e).toList =
        (t.ends e).toList ++ (ev.handed? e).toList.map some) :
    t'.Hands (h ++ [ev]) := by
  have hSize (e : PipeEnd) :
      (t.ends e).toList.length = (h.handed e).length :=
    hHands.size e
  have hHeld (e : PipeEnd) (i : Nat) :
      t'.held? e i =
        if i < (h.handed e).length then t.held? e i
        else (ev.handed? e).toList[
          i - (h.handed e).length]? := by
    unfold held?
    rw [← Array.getElem?_toList, hEnds,
      List.getElem?_append, hSize, Array.getElem?_toList]
    split
    · rfl
    · rw [List.getElem?_map]
      cases (ev.handed? e).toList[
        i - (h.handed e).length]? <;> rfl
  refine ⟨fun e => ?size, fun e i id hId => ?held,
    fun e i hKnown hNone => ?dropped⟩
  case size =>
    rw [← Array.length_toList, hEnds, List.length_append,
      hSize, List.length_map, PipeHistory.handed_concat,
      List.length_append]
  case held =>
    rw [hHeld] at hId
    rw [PipeHistory.handed_concat, List.getElem?_append]
    split at hId
    next hOld =>
      rw [if_pos hOld]
      exact hHands.held e i id hId
    next hNew => rwa [if_neg hNew]
  case dropped =>
    rw [hHeld] at hNone
    split at hNone
    next hOld => exact (hHands.dropped e i hOld hNone).append [ev]
    next hNew =>
      have hOut := List.getElem?_eq_none_iff.mp hNone
      rw [PipeHistory.handed_concat,
        List.length_append] at hKnown
      omega

/- An operation at an end may give this end up. -/
theorem leave
    (hHands : t.Hands h)
    {e : PipeEnd}
    {i : Nat}
    (hPlace : ev.step.place? = some (e, i)) :
    (t.leave ev.step).Hands (h ++ [ev]) := by
  have hSame (e : PipeEnd) :
      PipeHistory.handed e (h ++ [ev]) = h.handed e := by
    rw [PipeHistory.handed_concat,
      PipeEvent.handed?_of_place hPlace, Option.toList_none,
      List.append_nil]
  refine ⟨fun e => ?size, fun e i id hId => ?held,
    fun e' j hKnown hNone => ?dropped⟩
  case size =>
    rw [size_ends_leave, hSame]
    exact hHands.size e
  case held =>
    rw [held?_leave] at hId
    rw [hSame]
    split at hId
    · cases hId
    · exact hHands.held e i id hId
  case dropped =>
    rw [hSame] at hKnown
    rw [held?_leave] at hNone
    split at hNone
    next hDrops =>
      rw [PipeHistory.shut_concat]
      refine .inr ⟨?_, e', hDrops.2, hKnown⟩
      rw [PipeEvent.deedAt_self hDrops.2,
        PipeEvent.deed_of_drops hDrops.1]
    next =>
      exact (hHands.dropped e' j hKnown hNone).append [ev]

end Hands

------------------------------------------------------------
-- Links and Their Numbers
------------------------------------------------------------

/- The link of a number; one yet to be opened is fresh. -/
def numbered (t : PipeTable) (h : PipeHistory) (i : Nat) :
    Pipe :=
  ((h.handed .host)[i]?.map t.hub.link).getD {}

/- How a table agrees with what was done to its links. -/
structure Tells (t : PipeTable) (h : PipeHistory) : Prop where
  counted : t.hub.Counted
  hands : t.Hands h
  /- Links are accepted in the order of opening. -/
  waiting :
    h.handed .host = h.handed .device ++ t.hub.waiting
  ascending : (h.handed .host).Pairwise (· < ·)
  known : ∀ id ∈ h.handed .host, 0 < id ∧ id ≤ t.hub.opened
  link : ∀ i, h.Delivers i (t.numbered h i)

namespace Tells

variable
  {t t' : PipeTable} {h : PipeHistory} {ev : PipeEvent}

/- Links are found by number as they were when opened. -/
theorem numbered_of_handed
    {i id : Nat}
    (hId : (h.handed .host)[i]? = some id) :
    t.numbered h i = t.hub.link id := by
  rw [numbered, hId]
  rfl

theorem numbered_of_fresh
    {i : Nat}
    (hFresh : (h.handed .host)[i]? = none) :
    t.numbered h i = {} := by
  rw [numbered, hFresh]
  rfl

/- A link that is opened is as it was while it was not. -/
theorem numbered_concat
    (hTells : t.Tells h)
    (hLinks :
      ∀ id, 0 < id → id ≤ t.hub.opened →
        t'.hub.link id = t.hub.link id)
    (hNew : ∀ id ∈ ev.handed? .host, t'.hub.link id = {})
    (i : Nat) :
    t'.numbered (h ++ [ev]) i = t.numbered h i := by
  unfold numbered
  rw [PipeHistory.handed_concat, List.getElem?_append]
  split
  next hOld =>
    rw [List.getElem?_eq_getElem hOld]
    rcases hTells.known _ (List.getElem_mem hOld) with
      ⟨hPositive, hKnown⟩
    exact hLinks _ hPositive hKnown
  next hFresh =>
    rw [List.getElem?_eq_none (Nat.not_lt.mp hFresh)]
    cases hId : (ev.handed? .host).toList[
        i - (h.handed .host).length]? with
    | none => rfl
    | some id =>
        exact hNew id
          (Option.mem_toList.mp (List.mem_of_getElem? hId))

/- An operation at no end leaves the links as they are. -/
theorem concat_of_none
    (hTells : t.Tells h)
    (hPlace : ev.step.place? = none)
    (hCounted : t'.hub.Counted)
    (hEnds :
      ∀ e, (t'.ends e).toList =
        (t.ends e).toList ++ (ev.handed? e).toList.map some)
    (hWaiting :
      t.hub.waiting ++ (ev.handed? .host).toList =
        (ev.handed? .device).toList ++ t'.hub.waiting)
    (hOpened : t.hub.opened ≤ t'.hub.opened)
    (hLinks :
      ∀ id, 0 < id → id ≤ t.hub.opened →
        t'.hub.link id = t.hub.link id)
    (hNew :
      ∀ id ∈ ev.handed? .host,
        id = t.hub.opened + 1 ∧
          id ≤ t'.hub.opened ∧ t'.hub.link id = {}) :
    t'.Tells (h ++ [ev]) := by
  refine {
    counted := hCounted
    hands := hTells.hands.concat hEnds
    waiting := ?waiting
    ascending := ?ascending
    known := ?known
    link := ?link }
  case waiting =>
    rw [PipeHistory.handed_concat, PipeHistory.handed_concat,
      hTells.waiting, List.append_assoc, List.append_assoc,
      hWaiting]
  case ascending =>
    rw [PipeHistory.handed_concat, List.pairwise_append]
    refine ⟨hTells.ascending,
      by cases ev.handed? .host <;> simp, ?_⟩
    intro id hId id' hId'
    have hLast := (hNew id' (Option.mem_toList.mp hId')).1
    have hKnown := (hTells.known id hId).2
    omega
  case known =>
    intro id hId
    rw [PipeHistory.handed_concat, List.mem_append,
      Option.mem_toList] at hId
    rcases hId with hOld | hLast
    · have hKnown := hTells.known id hOld
      omega
    · have hKnown := hNew id hLast
      omega
  case link =>
    intro i
    have hFresh (id : Nat) (hId : id ∈ ev.handed? .host) :
        t'.hub.link id = {} :=
      (hNew id hId).2.2
    rw [hTells.numbered_concat hLinks hFresh i]
    apply (hTells.link i).concat_of_nothing
    exact PipeEvent.deedAt_of_none hPlace i

/- No link is opened or accepted. -/
theorem concat_of_quiet
    (hTells : t.Tells h)
    (hPlace : ev.step.place? = none)
    (hHanded : ∀ e, ev.handed? e = none)
    {hub : PipeHub}
    (hCounted : hub.Counted)
    (hWaiting : hub.waiting = t.hub.waiting)
    (hOpened : t.hub.opened ≤ hub.opened)
    (hLinks :
      ∀ id, 0 < id → id ≤ t.hub.opened →
        hub.link id = t.hub.link id) :
    { t with hub }.Tells (h ++ [ev]) := by
  refine hTells.concat_of_none hPlace hCounted ?_ ?_ hOpened
    hLinks ?_
  · intro e
    rw [hHanded]
    cases e <;> exact (List.append_nil _).symm
  · rw [hHanded, hHanded, hWaiting]
    exact List.append_nil _
  · intro id hId
    rw [hHanded] at hId
    cases hId

/- An operation that concerns no link. -/
theorem concat_of_unused
    (hTells : t.Tells h)
    (hPlace : ev.step.place? = none)
    (hHanded : ∀ e, ev.handed? e = none)
    {hub : PipeHub}
    (hLinks : hub.links = t.hub.links)
    (hOpened : hub.opened = t.hub.opened)
    (hWaiting : hub.waiting = t.hub.waiting) :
    { t with hub }.Tells (h ++ [ev]) := by
  refine hTells.concat_of_quiet hPlace hHanded ?_ hWaiting
    (Nat.le_of_eq hOpened.symm)
    fun id _ _ => PipeHub.link_of_links hLinks id
  rw [PipeHub.Counted, hLinks, hOpened]
  exact hTells.counted

/- An end and its link go by the same number. -/
theorem handed_of_held
    (hTells : t.Tells h)
    {e : PipeEnd}
    {i id : Nat}
    (hHeld : t.held? e i = some id) :
    (h.handed .host)[i]? = some id := by
  have hHanded := hTells.hands.held e i id hHeld
  cases e with
  | host => exact hHanded
  | device =>
      have hKnown := (List.getElem?_eq_some_iff.mp hHanded).1
      rwa [hTells.waiting, List.getElem?_append_left hKnown]

/- No two numbers have the same link. -/
theorem ne_of_handed
    (hTells : t.Tells h)
    {i j id id' : Nat}
    (hId : (h.handed .host)[i]? = some id)
    (hId' : (h.handed .host)[j]? = some id')
    (hOther : j ≠ i) :
    id' ≠ id := by
  rintro rfl
  have hNodup : (h.handed .host).Nodup :=
    hTells.ascending.imp Nat.ne_of_lt
  have hKnown := (List.getElem?_eq_some_iff.mp hId').1
  apply hOther
  exact (List.getElem?_inj hKnown hNodup).mp
    (hId'.trans hId.symm)

/- What there is to an operation at an end. -/
theorem concat_of_place
    (hTells : t.Tells h)
    {e : PipeEnd}
    {i : Nat}
    (hPlace : ev.step.place? = some (e, i))
    {hub : PipeHub}
    (hCounted : hub.Counted)
    (hWaiting : hub.waiting = t.hub.waiting)
    (hOpened : hub.opened = t.hub.opened)
    (hLink :
      ∀ j, PipeHistory.Delivers (h ++ [ev]) j
        ({ t with hub }.numbered h j)) :
    ({ t with hub }.leave ev.step).Tells (h ++ [ev]) := by
  have hSame (e : PipeEnd) :
      PipeHistory.handed e (h ++ [ev]) = h.handed e := by
    rw [PipeHistory.handed_concat,
      PipeEvent.handed?_of_place hPlace, Option.toList_none,
      List.append_nil]
  have hHands : { t with hub }.Hands h :=
    ⟨hTells.hands.size, hTells.hands.held,
      hTells.hands.dropped⟩
  refine {
    counted := ?counted
    hands := hHands.leave hPlace
    waiting := ?waiting
    ascending := ?ascending
    known := ?known
    link := ?link }
  case counted => rwa [hub_leave]
  case waiting =>
    rw [hSame, hSame, hub_leave, hTells.waiting, hWaiting]
  case ascending =>
    rw [hSame]
    exact hTells.ascending
  case known =>
    intro id hId
    rw [hSame] at hId
    rw [hub_leave, hOpened]
    exact hTells.known id hId
  case link =>
    intro j
    rw [numbered, hSame, hub_leave]
    exact hLink j

/- An operation at an end that is not held does nothing. -/
theorem apply_of_none
    (hTells : t.Tells h)
    {step : PipeStep}
    {e : PipeEnd}
    {i : Nat}
    (hPlace : step.place? = some (e, i))
    (hNone : t.held? e i = none) :
    (t.apply step).2.Tells
      (h ++ [⟨step, (t.apply step).1⟩]) := by
  rw [PipeTable.apply_of_none hPlace hNone]
  let ev : PipeEvent := ⟨step, .done⟩
  have hPlace' : ev.step.place? = some (e, i) := hPlace
  refine hTells.concat_of_place hPlace' hTells.counted rfl rfl ?_
  intro j
  have hOld := hTells.link j
  by_cases hHere : j = i
  · subst hHere
    have hDeed := PipeEvent.deedAt_self hPlace'
    rcases PipeEvent.deed_done step with hShut | hNothing
    · by_cases hHanded : j < (h.handed e).length
      -- The end has been dropped, and the link is shut.
      · have hShuts : h.Shuts j ev :=
          ⟨hDeed.trans hShut, e, hPlace', hHanded⟩
        have hClosed := hOld.shut.mpr
          (hTells.hands.dropped e j hHanded hNone)
        have hMeans : h.Means j ev .shut := by
          rw [← hShut, ← hDeed]
          exact .here fun _ => hShuts
        have hDoes : (t.numbered h j).Does .shut
            (t.numbered h j).hangUp :=
          .shut
        rw [Pipe.hangUp, if_pos hClosed] at hDoes
        exact hOld.concat hMeans hDoes
      · have hNot : ¬ h.Shuts j ev := by
          rintro ⟨-, e', hEnd, hKnown⟩
          rw [hPlace'] at hEnd
          cases hEnd
          exact hHanded hKnown
        exact hOld.concat (.nowhere (hDeed.trans hShut) hNot)
          (.nothing _ _)
    · exact hOld.concat_of_nothing (hDeed.trans hNothing)
  · exact hOld.concat_of_nothing
      (PipeEvent.deedAt_of_ne hPlace' hHere)

/- An operation at an end that is held is one on its link. -/
theorem apply_at
    (hTells : t.Tells h)
    {step : PipeStep}
    {e : PipeEnd}
    {i id : Nat}
    (hPlace : step.place? = some (e, i))
    (hHeld : t.held? e i = some id) :
    (t.apply step).2.Tells
      (h ++ [⟨step, (t.apply step).1⟩]) := by
  rw [PipeTable.apply_at hPlace hHeld]
  let out := step.onPipe (t.hub.link id)
  let ev : PipeEvent := ⟨step, out.1⟩
  have hPlace' : ev.step.place? = some (e, i) := hPlace
  have hId := hTells.handed_of_held hHeld
  rcases hTells.known id (List.mem_of_getElem? hId) with
    ⟨hPositive, hKnown⟩
  rw [← hTells.counted] at hKnown
  refine hTells.concat_of_place hPlace'
    (PipeHub.counted_modify hTells.counted _ _) rfl rfl ?_
  intro j
  have hOld := hTells.link j
  by_cases hHere : j = i
  · subst hHere
    have hHanded := (List.getElem?_eq_some_iff.mp
      (hTells.hands.held e j id hHeld)).1
    have hDeed := PipeEvent.deedAt_self hPlace'
    have hMeans : h.Means j ev ev.deed := by
      rw [← hDeed]
      exact .here fun hShut => ⟨hShut, e, hPlace', hHanded⟩
    rw [numbered_of_handed hId] at hOld ⊢
    rw [PipeHub.link_modify_self _ hPositive hKnown]
    exact hOld.concat hMeans
      (PipeStep.does_onPipe (t.hub.link id) step)
  · have hSame :
        { t with hub := t.hub.modify id fun _ => out.2 }.numbered
            h j =
          t.numbered h j := by
      cases hId' : (h.handed .host)[j]? with
      | none => rw [numbered_of_fresh hId', numbered_of_fresh hId']
      | some id' =>
          have hPositive' :=
            (hTells.known id' (List.mem_of_getElem? hId')).1
          rw [numbered_of_handed hId', numbered_of_handed hId']
          exact t.hub.link_modify_of_ne hPositive hPositive'
            (hTells.ne_of_handed hId hId' hHere) _
    rw [hSame]
    exact hOld.concat_of_nothing
      (PipeEvent.deedAt_of_ne hPlace' hHere)

theorem apply_connect (hTells : t.Tells h) :
    (t.apply .connect).2.Tells
      (h ++ [⟨.connect, (t.apply .connect).1⟩]) := by
  have hConnects := t.hub.connects_connect
  have hWaiting := t.hub.waiting_connect
  have hCounted :=
    PipeHub.counted_of_connects hTells.counted hConnects
  have hLinks (id : Nat) (hPositive : 0 < id) :
      id ≤ t.hub.opened →
        t.hub.connect.2.link id = t.hub.link id :=
    PipeHub.link_connect hTells.counted hConnects hPositive
  simp only [apply]
  generalize t.hub.connect = out at *
  cases hConnects with
  | refused _ _ hOpened =>
      refine hTells.concat_of_quiet rfl ?_ hCounted
        (hWaiting.trans (List.append_nil _)) (by omega) hLinks
      intro e
      cases e <;> rfl
  | unheard _ _ hOpened =>
      refine hTells.concat_of_quiet rfl ?_ hCounted
        (hWaiting.trans (List.append_nil _)) (by omega) hLinks
      intro e
      cases e <;> rfl
  | @opened hub hPush hOpened =>
      have hMore : t.hub.opened ≤ hub.opened := by omega
      refine hTells.concat_of_none rfl hCounted ?ends
        hWaiting.symm hMore hLinks ?new
      case ends =>
        intro e
        cases e with
        | host => exact Array.toList_push
        | device => exact (List.append_nil _).symm
      case new =>
        rintro id hId
        cases hId
        refine ⟨rfl, Nat.le_of_eq hOpened.symm, ?_⟩
        change hub.link (t.hub.opened + 1) = {}
        unfold PipeHub.link
        rw [hPush, ← hTells.counted, Nat.add_sub_cancel,
          Array.getElem?_push_size]
        rfl

theorem apply_accept (hTells : t.Tells h) :
    (t.apply .accept).2.Tells
      (h ++ [⟨.accept, (t.apply .accept).1⟩]) := by
  cases hWaiting : t.hub.waiting with
  | nil =>
      simp only [apply, PipeHub.accept, hWaiting]
      refine hTells.concat_of_quiet rfl ?_ hTells.counted rfl
        (Nat.le_refl _) fun _ _ _ => rfl
      intro e
      cases e <;> rfl
  | cons id rest =>
      simp only [apply, PipeHub.accept, hWaiting]
      refine hTells.concat_of_none rfl hTells.counted ?ends
        ?waiting (Nat.le_refl _) (fun _ _ _ => rfl) ?new
      case ends =>
        intro e
        cases e with
        | host => exact (List.append_nil _).symm
        | device => exact Array.toList_push
      case waiting =>
        rw [hWaiting]
        exact List.append_nil _
      case new =>
        intro id' hId
        cases hId

/- One more operation on the links. -/
theorem apply (hTells : t.Tells h) (step : PipeStep) :
    (t.apply step).2.Tells
      (h ++ [⟨step, (t.apply step).1⟩]) := by
  cases hPlace : step.place? with
  | some place =>
      rcases place with ⟨e, i⟩
      cases hHeld : t.held? e i with
      | none => exact hTells.apply_of_none hPlace hHeld
      | some id => exact hTells.apply_at hPlace hHeld
  | none =>
      cases step with
      | connect => exact hTells.apply_connect
      | accept => exact hTells.apply_accept
      | control c =>
          rcases t.hub.links_control c with
            ⟨hLinks, hOpened, hWaiting⟩
          exact hTells.concat_of_unused hPlace
            (by rintro (_ | _) <;> rfl) hLinks hOpened hWaiting
      | reach =>
          have hSame := t.hub.reach_links .first
          exact hTells.concat_of_unused hPlace
            (by rintro (_ | _) <;> rfl) hSame.1 hSame.2
            (t.hub.waiting_reach .first)
      | _ => cases hPlace

end Tells

theorem tells_run (steps : List PipeStep) :
    (run {} steps).Tells (history {} steps) := by
  induction steps using List.reverseRecOn with
  | nil =>
      refine ⟨rfl, ⟨?_, ?_, ?_⟩, rfl, .nil, ?_, ?_⟩
      · intro e
        cases e <;> rfl
      · intro e i id hHeld
        cases e <;> simp [held?, ends, run] at hHeld
      · intro e i hKnown
        exact absurd hKnown (Nat.not_lt_zero i)
      · intro id hId
        cases hId
      · exact PipeHistory.delivers_nil
  | append_singleton steps step ih =>
      rw [run_concat, history_concat]
      exact ih.apply step

------------------------------------------------------------
-- The Law
------------------------------------------------------------

/-
  What links do with the frames that they accept, in a table
  that the operations of a history have led to.  The ends of
  a link go by the order of opening and of accepting.
-/
structure Conveys (t : PipeTable) (h : PipeHistory) : Prop where
  /- Both ends of a number have one link, and no two numbers
     have the same one. -/
  accepted :
    h.handed .host = h.handed .device ++ t.hub.waiting
  distinct : (h.handed .host).Nodup
  held :
    ∀ e i id, t.held? e i = some id →
      (h.handed e)[i]? = some id
  /- An end has got the first frames that were accepted on
     their way to it; the others are buffered. -/
  delivered :
    ∀ i id : Nat, (h.handed .host)[i]? = some id →
      ∀ e, h.sent e i =
        h.received e i ++ (t.hub.link id).queue e
  buffered :
    ∀ i id : Nat, (h.handed .host)[i]? = some id →
      ∀ e, ((t.hub.link id).queue e).length ≤ Pipe.depth
  /- At an end that is not held nothing comes of anything. -/
  absent :
    ∀ step e i, step.place? = some (e, i) →
      t.held? e i = none →
        (t.apply step).1 = .done ∧
          (t.apply step).2.hub = t.hub
  /- What was refused, or pending and given up, leaves all
     frames where they were. -/
  vain :
    ∀ step, (t.apply step).1.isVain = true →
      ∀ i id : Nat, (h.handed .host)[i]? = some id →
        ∀ e, ((t.apply step).2.hub.link id).queue e =
          (t.hub.link id).queue e
  /- The frames that the device has yet to take are counted,
     by counters no greater than the number of frames. -/
  counted :
    ∀ i id : Nat, (h.handed .host)[i]? = some id →
      (t.hub.link id).written = (h.sent .device i).length ∧
        (t.hub.link id).read = (h.received .device i).length
  unread :
    ∀ i p, t.deviceLink? i = some p →
      (h.received .device i).length + p.unread =
        (h.sent .device i).length
  /- Each counter is a number of 32 bits, and their difference
     is no negative one, while fewer frames are accepted than
     there are such numbers. -/
  fits :
    ∀ i id : Nat, (h.handed .host)[i]? = some id →
      (h.sent .device i).length < UInt32.size →
        (t.hub.link id).read ≤ (t.hub.link id).written ∧
          (t.hub.link id).written < UInt32.size
  /- A link is down once it has been given up at either end;
     then it accepts no frame. -/
  shut :
    ∀ i id : Nat, (h.handed .host)[i]? = some id →
      ((t.hub.link id).closed = true ↔ h.Shut i)
  silent :
    ∀ before after i, h = before ++ after →
      PipeHistory.Shut i before →
        ∀ e, h.sent e i = PipeHistory.sent e i before
  /- An end gets the next frame; once it has got all of them,
     it is told that the link is over, if it is. -/
  next :
    ∀ e i id, t.held? e i = some id →
      ∀ frame,
        (h.sent e i)[(h.received e i).length]? = some frame →
          (t.apply (e.poll i)).1 = e.found frame
  gone :
    ∀ e i id, t.held? e i = some id →
      h.received e i = h.sent e i →
        h.Shut i → (t.apply (e.poll i)).1 = e.gone
  waits :
    ∀ e i id, t.held? e i = some id →
      h.received e i = h.sent e i →
        ¬ h.Shut i → (t.apply (e.poll i)).1 = .pending
  /- An end that has been told so had got all frames, and got
     none since. -/
  ended :
    ∀ before after e i,
      h = before ++ ⟨e.poll i, e.gone⟩ :: after →
        PipeHistory.Shut i before ∧
          PipeHistory.received e i before =
            PipeHistory.sent e i before ∧
          h.received e i = PipeHistory.received e i before

namespace Tells

variable {t : PipeTable} {h : PipeHistory}

theorem link_of_handed
    (hTells : t.Tells h)
    {i id : Nat}
    (hId : (h.handed .host)[i]? = some id) :
    h.Delivers i (t.hub.link id) := by
  rw [← numbered_of_handed hId]
  exact hTells.link i

/- What an end that waits for a frame is answered. -/
theorem poll_eq
    (hTells : t.Tells h)
    {e : PipeEnd}
    {i id : Nat}
    (hHeld : t.held? e i = some id) :
    h.Delivers i (t.hub.link id) ∧
      (t.apply (e.poll i)).1 =
        match (t.hub.link id).queue e with
        | frame :: _ => e.found frame
        | [] =>
            if (t.hub.link id).closed then e.gone
            else .pending := by
  have hPlace : (e.poll i).place? = some (e, i) := by
    cases e <;> rfl
  refine ⟨hTells.link_of_handed (hTells.handed_of_held hHeld),
    ?_⟩
  rw [PipeTable.apply_at hPlace hHeld]
  exact PipeStep.onPipe_poll _ e i

/- What was in vain has moved no frame. -/
theorem queue_of_isVain
    (hTells : t.Tells h)
    {step : PipeStep}
    (hVain : (t.apply step).1.isVain = true)
    {i id : Nat}
    (hId : (h.handed .host)[i]? = some id)
    (e : PipeEnd) :
    ((t.apply step).2.hub.link id).queue e =
      (t.hub.link id).queue e := by
  let ev : PipeEvent := ⟨step, (t.apply step).1⟩
  have hId' :
      (PipeHistory.handed .host (h ++ [ev]))[i]? = some id := by
    have hKnown := (List.getElem?_eq_some_iff.mp hId).1
    rwa [PipeHistory.handed_concat,
      List.getElem?_append_left hKnown]
  have hBefore := (hTells.link_of_handed hId).delivered e
  have hAfter :=
    ((hTells.apply step).link_of_handed hId').delivered e
  have hVain' : ev.reply.isVain = true := hVain
  rcases PipeEvent.deedAt_of_isVain hVain' i e with
    ⟨hSent, hReceived⟩
  rw [PipeHistory.sent_concat, PipeHistory.received_concat,
    hSent, hReceived, Option.toList_none, List.append_nil,
    List.append_nil, hBefore] at hAfter
  exact (List.append_cancel_left hAfter).symm

theorem conveys (hTells : t.Tells h) : t.Conveys h where
  accepted := hTells.waiting
  distinct := hTells.ascending.imp Nat.ne_of_lt
  held := hTells.hands.held
  delivered i id hId := (hTells.link_of_handed hId).delivered
  buffered i id hId := (hTells.link_of_handed hId).bounded
  absent := by
    intro step e i hPlace hNone
    rw [PipeTable.apply_of_none hPlace hNone]
    exact ⟨rfl, t.hub_leave step⟩
  vain step hVain i id hId := hTells.queue_of_isVain hVain hId
  counted i id hId :=
    ⟨(hTells.link_of_handed hId).written,
      (hTells.link_of_handed hId).read⟩
  unread := by
    intro i p hLink
    rcases Option.map_eq_some_iff.mp hLink with ⟨id, hHeld, rfl⟩
    have hId : (h.handed .host)[i]? = some id :=
      hTells.handed_of_held (e := .device) hHeld
    have hOld := hTells.link_of_handed hId
    have hLength :=
      congrArg List.length (hOld.delivered .device)
    rw [List.length_append] at hLength
    rw [Pipe.unread, hOld.written, hOld.read]
    omega
  fits := by
    intro i id hId hFew
    have hOld := hTells.link_of_handed hId
    have hLength :=
      congrArg List.length (hOld.delivered .device)
    rw [List.length_append] at hLength
    rw [hOld.written, hOld.read]
    exact ⟨by omega, hFew⟩
  shut i id hId := (hTells.link_of_handed hId).shut
  silent before after i hSplit hShut :=
    (hTells.link i).silent before after hSplit hShut
  next := by
    intro e i id hHeld frame hNext
    rcases hTells.poll_eq hHeld with ⟨hOld, hReply⟩
    rw [hOld.delivered,
      List.getElem?_append_right (Nat.le_refl _),
      Nat.sub_self] at hNext
    rw [hReply]
    cases hQueue : (t.hub.link id).queue e with
    | nil =>
        rw [hQueue] at hNext
        cases hNext
    | cons first rest =>
        rw [hQueue] at hNext
        cases hNext
        rfl
  gone := by
    intro e i id hHeld hAll hShut
    rcases hTells.poll_eq hHeld with ⟨hOld, hReply⟩
    rw [hReply, hOld.queue_of_all hAll]
    exact if_pos (hOld.shut.mpr hShut)
  waits := by
    intro e i id hHeld hAll hShut
    rcases hTells.poll_eq hHeld with ⟨hOld, hReply⟩
    rw [hReply, hOld.queue_of_all hAll]
    exact if_neg fun hClosed => hShut (hOld.shut.mp hClosed)
  ended before after e i hSplit := by
    refine (hTells.link i).ended before _ after e hSplit ?_
    cases e <;> simp [PipeEvent.deedAt, PipeEnd.poll,
      PipeStep.place?, PipeEvent.deed, PipeEnd.gone]

end Tells

/-
  Whatever is done to links and their ends, in any order, by
  operations that are polled once: all that is accepted on
  its way to an end is delivered there, once and in order,
  and nothing else is.
-/
theorem run_conveys (steps : List PipeStep) :
    (run {} steps).Conveys (history {} steps) :=
  (tells_run steps).conveys

/- A frame on its way to the device survives its link. -/
example :
    (history {}
      [ .connect, .accept, .write 0 [7], .close 0,
        .recv 0, .recv 0 ]).map PipeEvent.reply =
      [ .link 1, .link 1, .written, .done,
        .received (some [7]), .received none ] := by
  decide

end PipeTable

end DeviceSession
