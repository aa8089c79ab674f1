import DeviceSession.Proofs.Link.Conveyance

/-
  Attempts to open a link that fail, and the numbers that
  links go by.

  An attempt fails in three ways.  Two of them take nothing
  but the failure in store that they tell of.  The third
  comes too late: where the device accepts no more links, the
  link has its number, and counts as opened, before it is
  found that no one will accept it.  Its number is never
  handed out.

  Key definitions include:
    * `PipeHub.Crowded`
    * `PipeHub.Opens`
    * `PipeHub.Leaves`
    * `PipeTable.unheard`
    * `PipeTable.Numbers`

  Main declarations:
    * `PipeHub.opens_connect`
    * `PipeHub.leaves_connect`
    * `PipeTable.numbers_apply`
    * `PipeTable.run_numbers`
-/

------------------------------------------------------------
-- One Attempt
------------------------------------------------------------

namespace DeviceSession

namespace PipeHub

/-
  The device could be reached, and no failure is in store,
  but as many links wait for the device as may.
-/
def Crowded (h : PipeHub) : Prop :=
  h.openFailures = [] ∧
    h.reachable = true ∧
    acceptDepth ≤ h.waiting.length

instance (h : PipeHub) : Decidable h.Crowded := by
  unfold Crowded
  infer_instance

section Crowded

variable {h : PipeHub}

theorem not_crowded_of_stored
    {e : LinkError}
    {rest : List LinkError}
    (hStored : h.openFailures = e :: rest) :
    ¬ h.Crowded := by
  rintro ⟨hNone, -⟩
  rw [hStored] at hNone
  cases hNone

theorem not_crowded_of_gone (hGone : h.reachable = false) :
    ¬ h.Crowded := by
  rintro ⟨-, hReachable, -⟩
  rw [hGone] at hReachable
  cases hReachable

theorem not_crowded_of_room
    (hRoom : h.waiting.length < acceptDepth) :
    ¬ h.Crowded :=
  fun hCrowded => Nat.not_le.mpr hRoom hCrowded.2.2

end Crowded

/- All that an attempt to open a link may come to. -/
inductive Opens (h : PipeHub) :
    Except LinkError Nat × PipeHub → Prop where
  | injected
      (e : LinkError)
      (rest : List LinkError)
      (hStored : h.openFailures = e :: rest) :
      Opens h (.error e, { h with openFailures := rest })
  | unreachable
      (hStored : h.openFailures = [])
      (hGone : h.reachable = false) :
      Opens h (.error .outOfRange, h)
  | opened
      (hStored : h.openFailures = [])
      (hReachable : h.reachable = true)
      (hRoom : h.waiting.length < acceptDepth) :
      Opens h
        (.ok (h.opened + 1),
          { h with
            opened := h.opened + 1
            links := h.links.push {}
            waiting := h.waiting ++ [h.opened + 1] })
  | unheard (hCrowded : h.Crowded) :
      Opens h
        (.error (.openFailed "no device listening"),
          { h with
            opened := h.opened + 1
            links := h.links.push { closed := true } })

theorem opens_connect (h : PipeHub) : h.Opens h.connect := by
  unfold connect
  split
  next e rest hStored => exact .injected e rest hStored
  next hStored =>
    split
    next hGone =>
      exact .unreachable hStored (by simpa using hGone)
    next hReachable =>
      have hReachable' : h.reachable = true := by
        simpa using hReachable
      dsimp only
      split
      next hRoom => exact .opened hStored hReachable' hRoom
      next hFull =>
        exact .unheard
          ⟨hStored, hReachable', Nat.not_lt.mp hFull⟩

/- What an attempt leaves that fails with an error. -/
structure Leaves (h : PipeHub) (e : LinkError) (h' : PipeHub) :
    Prop where
  waiting : h'.waiting = h.waiting
  reachable : h'.reachable = h.reachable
  signals : h'.signalsReachability = h.signalsReachability
  appeared : h'.appeared = h.appeared
  /- Of the failures in store, no more than the one told. -/
  consumed :
    h.openFailures = e :: h'.openFailures ∨
      h.openFailures = [] ∧ h'.openFailures = []
  /- The attempt counts, and takes a number, for no other
     reason than that the device accepts no more links. -/
  opened :
    h'.opened = h.opened + if h.Crowded then 1 else 0
  links :
    h'.links =
      if h.Crowded then h.links.push { closed := true }
      else h.links
  told :
    h.Crowded → e = .openFailed "no device listening"
  /- In all other cases nothing changes. -/
  same :
    h' = { h with openFailures := h.openFailures.tail } ↔
      ¬ h.Crowded

theorem leaves_connect
    {h : PipeHub}
    {e : LinkError}
    (hFailed : h.connect.1 = .error e) :
    h.Leaves e h.connect.2 := by
  have hOpens := h.opens_connect
  generalize h.connect = out at hFailed hOpens ⊢
  cases hOpens with
  | injected e' rest hStored =>
      cases hFailed
      have hNot := not_crowded_of_stored hStored
      exact {
        waiting := rfl
        reachable := rfl
        signals := rfl
        appeared := rfl
        consumed := .inl hStored
        opened := by rw [if_neg hNot, Nat.add_zero]
        links := by rw [if_neg hNot]
        told := fun hCrowded => absurd hCrowded hNot
        same := by simp [hStored, hNot] }
  | unreachable hStored hGone =>
      cases hFailed
      have hNot := not_crowded_of_gone hGone
      exact {
        waiting := rfl
        reachable := rfl
        signals := rfl
        appeared := rfl
        consumed := .inr ⟨hStored, hStored⟩
        opened := by rw [if_neg hNot, Nat.add_zero]
        links := by rw [if_neg hNot]
        told := fun hCrowded => absurd hCrowded hNot
        same := by
          refine iff_of_true ?_ hNot
          rw [hStored, List.tail_nil, ← hStored] }
  | opened => cases hFailed
  | unheard hCrowded =>
      cases hFailed
      exact {
        waiting := rfl
        reachable := rfl
        signals := rfl
        appeared := rfl
        consumed := .inr ⟨hCrowded.1, hCrowded.1⟩
        opened := by rw [if_pos hCrowded]
        links := by rw [if_pos hCrowded]
        told := fun _ => rfl
        same := by
          refine iff_of_false (fun hSame => ?_)
            (not_not_intro hCrowded)
          have hCount := congrArg PipeHub.opened hSame
          exact Nat.succ_ne_self h.opened hCount }

end PipeHub

------------------------------------------------------------
-- Numbers
------------------------------------------------------------

namespace PipeTable

/- The number of a link that no one will accept. -/
def unheard? (t : PipeTable) (step : PipeStep) : Option Nat :=
  if step = .connect ∧ t.hub.Crowded then
    some (t.hub.opened + 1)
  else none

/- The numbers of all such links, in the order of opening. -/
def unheard (t : PipeTable) : List PipeStep → List Nat
  | [] => []
  | step :: steps =>
      (t.unheard? step).toList ++
        unheard (t.apply step).2 steps

theorem unheard_append
    (t : PipeTable)
    (steps steps' : List PipeStep) :
    t.unheard (steps ++ steps') =
      t.unheard steps ++ (t.run steps).unheard steps' := by
  induction steps generalizing t with
  | nil => rfl
  | cons step steps ih =>
      simp only [List.cons_append, unheard, List.append_assoc,
        ih]
      rfl

theorem unheard_concat
    (t : PipeTable)
    (steps : List PipeStep)
    (step : PipeStep) :
    t.unheard (steps ++ [step]) =
      t.unheard steps ++
        ((t.run steps).unheard? step).toList := by
  rw [unheard_append, unheard, unheard, List.append_nil]

theorem unheard?_eq_none_iff
    {t : PipeTable}
    {step : PipeStep} :
    t.unheard? step = none ↔
      (step = .connect → ¬ t.hub.Crowded) := by
  unfold unheard?
  split
  next hHere => simp [hHere]
  next hNot => simpa using hNot

/- There are none unless the device was once so crowded. -/
theorem unheard_eq_nil_iff
    {t : PipeTable}
    {steps : List PipeStep} :
    t.unheard steps = [] ↔
      ∀ before after, steps = before ++ .connect :: after →
        ¬ (t.run before).hub.Crowded := by
  constructor
  · rintro hNone before after rfl
    rw [unheard_append, List.append_eq_nil_iff, unheard,
      List.append_eq_nil_iff, Option.toList_eq_nil_iff,
      unheard?_eq_none_iff] at hNone
    exact hNone.2.1 rfl
  · intro hNever
    induction steps generalizing t with
    | nil => rfl
    | cons step steps ih =>
        rw [unheard, List.append_eq_nil_iff,
          Option.toList_eq_nil_iff, unheard?_eq_none_iff]
        constructor
        · rintro rfl
          exact hNever [] steps rfl
        · apply ih
          rintro before after rfl
          exact hNever (step :: before) after rfl

theorem hub_apply_accept (t : PipeTable) :
    (t.apply .accept).2.hub =
      { t.hub with waiting := t.hub.waiting.tail } := by
  simp only [apply]
  cases hWaiting : t.hub.waiting with
  | nil =>
      simp only [PipeHub.accept, hWaiting]
      rw [List.tail_nil, ← hWaiting]
  | cons id rest => simp only [PipeHub.accept, hWaiting]; rfl

/- Other operations open no link, and accept none. -/
theorem apply_of_other
    (t : PipeTable)
    {step : PipeStep}
    (hConnect : step ≠ .connect)
    (hAccept : step ≠ .accept) :
    (t.apply step).2.hub.opened = t.hub.opened ∧
      (t.apply step).2.hub.waiting = t.hub.waiting := by
  cases hPlace : step.place? with
  | some place =>
      rcases place with ⟨e, i⟩
      cases hHeld : t.held? e i with
      | none =>
          rw [apply_of_none hPlace hHeld, hub_leave]
          exact ⟨rfl, rfl⟩
      | some id =>
          rw [apply_at hPlace hHeld, hub_leave]
          exact ⟨rfl, rfl⟩
  | none =>
      cases step with
      | connect => exact absurd rfl hConnect
      | accept => exact absurd rfl hAccept
      | control c => exact (t.hub.links_control c).2
      | reach =>
          exact ⟨(t.hub.reach_links .first).2,
            t.hub.waiting_reach .first⟩
      | _ => cases hPlace

/- Only an attempt to open a link takes a number. -/
theorem opened_apply
    (t : PipeTable)
    {step : PipeStep}
    (hConnect : step ≠ .connect) :
    (t.apply step).2.hub.opened = t.hub.opened := by
  by_cases hAccept : step = .accept
  · rw [hAccept, hub_apply_accept]
  · exact (t.apply_of_other hConnect hAccept).1

/-
  An operation takes the next number, or none.  It is handed
  out, or it is that of a link that no one will accept.
-/
theorem numbers_apply (t : PipeTable) (step : PipeStep) :
    ∃ n, n ≤ [step].count .connect ∧
      (t.apply step).2.hub.opened = t.hub.opened + n ∧
      (PipeEvent.handed? .host
          ⟨step, (t.apply step).1⟩).toList ++
          (t.unheard? step).toList =
        List.range' (t.hub.opened + 1) n := by
  by_cases hConnect : step = .connect
  · subst hConnect
    have hOpens := t.hub.opens_connect
    have hHeard (hNot : ¬ t.hub.Crowded) :
        t.unheard? .connect = none :=
      unheard?_eq_none_iff.mpr fun _ => hNot
    simp only [apply]
    generalize t.hub.connect = out at hOpens
    cases hOpens with
    | injected e rest hStored =>
        refine ⟨0, Nat.zero_le _, rfl, ?_⟩
        rw [hHeard (PipeHub.not_crowded_of_stored hStored)]
        rfl
    | unreachable hStored hGone =>
        refine ⟨0, Nat.zero_le _, rfl, ?_⟩
        rw [hHeard (PipeHub.not_crowded_of_gone hGone)]
        rfl
    | opened hStored hReachable hRoom =>
        refine ⟨1, Nat.le_refl 1, rfl, ?_⟩
        rw [hHeard (PipeHub.not_crowded_of_room hRoom)]
        rfl
    | unheard hCrowded =>
        refine ⟨1, Nat.le_refl 1, rfl, ?_⟩
        rw [unheard?, if_pos ⟨rfl, hCrowded⟩]
        rfl
  · have hHanded :
        PipeEvent.handed? .host ⟨step, (t.apply step).1⟩ =
          none := by
      cases step with
      | connect => exact absurd rfl hConnect
      | _ => rfl
    refine ⟨0, Nat.zero_le _, t.opened_apply hConnect, ?_⟩
    rw [hHanded, unheard?_eq_none_iff.mpr (absurd · hConnect)]
    rfl

/- No more links wait for the device than may. -/
theorem waiting_apply
    {t : PipeTable}
    (hRoom : t.hub.waiting.length ≤ PipeHub.acceptDepth)
    (step : PipeStep) :
    (t.apply step).2.hub.waiting.length ≤
      PipeHub.acceptDepth := by
  by_cases hConnect : step = .connect
  · subst hConnect
    have hOpens := t.hub.opens_connect
    simp only [apply]
    generalize t.hub.connect = out at hOpens
    cases hOpens with
    | injected | unreachable | unheard => exact hRoom
    | opened _ _ hMore =>
        rw [List.length_append]
        exact hMore
  by_cases hAccept : step = .accept
  · rw [hAccept, hub_apply_accept, List.length_tail]
    exact Nat.le_trans (Nat.sub_le _ _) hRoom
  · rwa [(t.apply_of_other hConnect hAccept).2]

------------------------------------------------------------
-- All Attempts
------------------------------------------------------------

theorem waiting_run (steps : List PipeStep) :
    (run {} steps).hub.waiting.length ≤
      PipeHub.acceptDepth := by
  induction steps using List.reverseRecOn with
  | nil => exact Nat.zero_le _
  | append_singleton steps step ih =>
      rw [run_concat]
      exact waiting_apply ih step

theorem opened_run (steps : List PipeStep) :
    (run {} steps).hub.opened ≤ steps.count .connect := by
  induction steps using List.reverseRecOn with
  | nil => exact Nat.zero_le _
  | append_singleton steps step ih =>
      rcases (run {} steps).numbers_apply step with
        ⟨n, hCount, hOpened, -⟩
      rw [run_concat, List.count_append, hOpened]
      exact Nat.add_le_add ih hCount

/- The numbers taken are those up to the count of links. -/
theorem perm_run (steps : List PipeStep) :
    ((history {} steps).handed .host ++
        unheard {} steps).Perm
      (List.range' 1 (run {} steps).hub.opened) := by
  induction steps using List.reverseRecOn with
  | nil => exact .refl []
  | append_singleton steps step ih =>
      rcases (run {} steps).numbers_apply step with
        ⟨n, -, hOpened, hNew⟩
      rw [run_concat, history_concat, unheard_concat,
        PipeHistory.handed_concat, hOpened,
        ← List.range'_append_1, Nat.add_comm 1, ← hNew]
      refine .trans ?_ (ih.append_right _)
      simp only [List.append_assoc]
      apply List.Perm.append_left
      simp only [← List.append_assoc]
      exact List.perm_append_comm.append_right _

/- Numbers are taken in the order of opening. -/
theorem ascending_unheard (steps : List PipeStep) :
    (unheard {} steps).Pairwise (· < ·) := by
  induction steps using List.reverseRecOn with
  | nil => exact .nil
  | append_singleton steps step ih =>
      rw [unheard_concat, List.pairwise_append]
      refine ⟨ih, by
        cases (run {} steps).unheard? step <;> simp, ?_⟩
      intro id hId last hLast
      have hTaken := (perm_run steps).subset
        (List.mem_append_right _ hId)
      have hOld := List.mem_range'_1.mp hTaken
      rw [Option.mem_toList, unheard?] at hLast
      split at hLast <;> cases hLast
      omega

/- Ascending numbers that are the first ones, with others. -/
theorem eq_range'_iff
    {ids others : List Nat}
    {n : Nat}
    (hIds : ids.Pairwise (· < ·))
    (hOthers : others.Pairwise (· < ·))
    (hAll : (ids ++ others).Perm (List.range' 1 n)) :
    ids = List.range' 1 ids.length ↔
      ∀ id ∈ ids, ∀ other ∈ others, id < other := by
  constructor
  · intro hFirst id hId other hOther
    have hNodup : (ids ++ others).Nodup :=
      hAll.nodup_iff.mpr (List.nodup_range' 1)
    have hNew : other ∉ ids := fun hMem =>
      (List.nodup_append.mp hNodup).2.2 other hMem other hOther
        rfl
    have hPositive := List.mem_range'_1.mp
      (hAll.subset (List.mem_append_right ids hOther))
    rw [hFirst, List.mem_range'_1] at hId hNew
    omega
  · intro hBefore
    have hSorted : (ids ++ others).Pairwise (· < ·) :=
      List.pairwise_append.mpr ⟨hIds, hOthers, hBefore⟩
    have hEq : ids ++ others = List.range' 1 n :=
      hAll.eq_of_pairwise (fun a b _ _ hLt hGt => by omega)
        hSorted (List.pairwise_lt_range' 1)
    have hLength : ids.length + others.length = n := by
      rw [← List.length_append, hEq, List.length_range']
    rw [← hLength, ← List.range'_append_1] at hEq
    exact (List.append_inj hEq List.length_range'.symm).1

/-
  How links are numbered and counted in a table that some
  operations have led to, and what becomes of the table when
  the next attempt to open a link fails.
-/
structure Numbers
    (steps : List PipeStep)
    (t : PipeTable)
    (h : PipeHistory) : Prop where
  room : t.hub.waiting.length ≤ PipeHub.acceptDepth
  failed :
    ∀ e, (t.apply .connect).1 = .failed e →
      ∃ hub, (t.apply .connect).2 = { t with hub } ∧
        t.hub.Leaves e hub
  /- An attempt that succeeds takes the next number. -/
  next :
    ∀ id, (t.apply .connect).1 = .link id →
      id = t.hub.opened + 1 ∧
        (t.apply .connect).2.hub.opened = id
  /- Each number is that of a link that has been opened, or
     of one that no one will accept. -/
  numbered :
    (h.handed .host ++ unheard {} steps).Perm
      (List.range' 1 t.hub.opened)
  /- The count is no greater than the number of attempts. -/
  fits : t.hub.opened ≤ steps.count .connect
  counted :
    t.hub.opened =
      (h.handed .host).length + (unheard {} steps).length
  /- It is the number of links opened exactly if no attempt
     has found the device to accept no more of them. -/
  exact :
    t.hub.opened = (h.handed .host).length ↔
      ∀ before after, steps = before ++ .connect :: after →
        ¬ (run {} before).hub.Crowded
  /- The links opened have the first numbers exactly if all
     of them were opened before such an attempt. -/
  gapless :
    h.handed .host = List.range' 1 (h.handed .host).length ↔
      ∀ id ∈ h.handed .host, ∀ lost ∈ unheard {} steps,
        id < lost

theorem apply_connect_failed
    {t : PipeTable}
    {e : LinkError}
    (hFailed : (t.apply .connect).1 = .failed e) :
    ∃ hub, (t.apply .connect).2 = { t with hub } ∧
      t.hub.Leaves e hub := by
  simp only [apply] at hFailed ⊢
  cases hOut : t.hub.connect with
  | mk answer hub =>
      rw [hOut] at hFailed
      cases answer with
      | ok id => cases hFailed
      | error e' =>
          cases hFailed
          refine ⟨hub, rfl, ?_⟩
          have hLeaves := PipeHub.leaves_connect
            (congrArg Prod.fst hOut)
          rwa [hOut] at hLeaves

theorem apply_connect_link
    {t : PipeTable}
    {id : Nat}
    (hLink : (t.apply .connect).1 = .link id) :
    id = t.hub.opened + 1 ∧
      (t.apply .connect).2.hub.opened = id := by
  have hOpens := t.hub.opens_connect
  simp only [apply] at hLink ⊢
  generalize t.hub.connect = out at hLink hOpens ⊢
  cases hOpens with
  | opened =>
      cases hLink
      exact ⟨rfl, rfl⟩
  | injected | unreachable | unheard => cases hLink

/-
  Whatever is done to links and their ends, and however the
  device can be reached: an attempt that fails changes no
  more than the failures in store, unless the device could
  be reached and four links waited for it.  Then it takes a
  number, which no link opened has or will have.
-/
theorem run_numbers (steps : List PipeStep) :
    Numbers steps (run {} steps) (history {} steps) := by
  have hTells := tells_run steps
  have hPerm := perm_run steps
  have hCounted := hPerm.length_eq
  rw [List.length_append, List.length_range'] at hCounted
  exact {
    room := waiting_run steps
    failed := fun _ => apply_connect_failed
    next := fun _ => apply_connect_link
    numbered := hPerm
    fits := opened_run steps
    counted := hCounted.symm
    exact := by
      rw [← unheard_eq_nil_iff, ← List.length_eq_zero_iff]
      omega
    gapless := eq_range'_iff hTells.ascending
      (ascending_unheard steps) hPerm }

end PipeTable

namespace Thronged

open PipeTable

/- Four links wait for a device that could be reached. -/
def steps : List PipeStep :=
  List.replicate 4 .connect

/-
  The fifth attempt fails, and is counted nevertheless.  Once
  the device has accepted a link, the sixth attempt succeeds,
  with number 6 for the fifth link.
-/
theorem refusal_counted :
    ((run {} steps).apply .connect).1 =
        .failed (.openFailed "no device listening") ∧
      (run {} steps).hub.opened = 4 ∧
      (run {} (steps ++ [.connect])).hub.opened = 5 ∧
      (history {} (steps ++ [.connect])).handed .host =
        [1, 2, 3, 4] ∧
      (history {} (steps ++
          [.connect, .accept, .connect])).handed .host =
        [1, 2, 3, 4, 6] := by
  decide

end Thronged

end DeviceSession
