import DeviceSession.Proofs.Run.Discipline
import Mathlib.Data.List.Nodup

/-
  Requests whose callers go away while they wait.

  A caller that has gone stays away.  So such a request
  leaves the queue as one that is given up, whenever its turn
  comes, and nothing is ever written for it.

  Key definitions include:
    * `Story.Forsaken`

  Main declarations:
    * `Story.taken_step`
    * `Story.forsaken_step`
    * `Story.Forsaken.not_tried`
-/

------------------------------------------------------------
-- What Moves Add to the Books
------------------------------------------------------------

namespace DeviceSession

namespace Story

variable {W L A : Type}
variable (c : Connector W L) (act : A → W → W)
variable (s : Story W L A) (m : Move A)

/- What has been accepted stays so. -/
theorem accepted_step :
    s.accepted <+: (s.step c act m).accepted := by
  cases m with
  | submit a options =>
      simp only [step, submit]
      split
      · exact ⟨_, by simp [accepted, Note.accepted?]; rfl⟩
      · exact List.prefix_refl _
  | outside a =>
      simp [accepted, step, Taped.act, Note.accepted?]
  | drive =>
      have hSame : (s.drive c).accepted = s.accepted := by
        cases hDriver : s.driver with
        | none => rw [drive_of_none c hDriver]
        | some d => exact (drive_requests c hDriver).1
      exact ⟨[], (List.append_nil _).trans hSame.symm⟩
  | _ => exact List.prefix_refl _

/-
  Requests are taken from the queue, and it is noted whether
  their callers have gone.
-/
theorem taken_step :
    ∃ rs,
      (s.step c act m).taken = s.taken ++ rs ∧
      ∀ x ∈ rs,
        x.1 ∈ s.connection.queue ∧
        x.2 = s.connection.callerGone x.1 := by
  have hNothing :
      (s.step c act m).taken = s.taken →
      ∃ rs,
        (s.step c act m).taken = s.taken ++ rs ∧
        ∀ x ∈ rs,
          x.1 ∈ s.connection.queue ∧
          x.2 = s.connection.callerGone x.1 :=
    fun hSame => ⟨[], by rw [hSame, List.append_nil], by simp⟩
  cases m with
  | submit a options =>
      apply hNothing
      simp only [step, submit]
      split
      · simp [taken, Note.taken?]
      · rfl
  | outside a =>
      apply hNothing
      simp [taken, step, Taped.act, Note.taken?]
  | drive =>
      cases hDriver : s.driver with
      | none =>
          apply hNothing
          rw [step, drive_of_none c hDriver]
      | some d =>
          refine ⟨_, (drive_requests c hDriver).2, ?_⟩
          intro x hx
          rcases List.mem_map.mp hx with ⟨r, hr, rfl⟩
          exact ⟨List.mem_of_mem_take hr, rfl⟩
  | _ => exact hNothing rfl

variable {s}

/- Nothing joins the queue that was accepted before. -/
theorem mem_queue_of_step
    {r : Request}
    (hAccounts : s.Accounts)
    (hAccepted : r ∈ s.accepted)
    (hQueue : r ∈ (s.step c act m).connection.queue) :
    r ∈ s.connection.queue := by
  rw [hAccounts.order] at hAccepted
  rcases List.mem_append.mp hAccepted with hTaken | hWaiting
  · rcases List.mem_map.mp hTaken with
      ⟨⟨r', gone⟩, hBefore, rfl⟩
    obtain ⟨rs, hLater, -⟩ := s.taken_step c act m
    have hStill : (r', gone) ∈ (s.step c act m).taken := by
      rw [hLater]
      exact List.mem_append_left rs hBefore
    have hAfter := accounts_step c act s m hAccounts
    exact absurd rfl (hAfter.id_ne hStill hQueue)
  · exact hWaiting

/- A caller that has gone does not come back. -/
theorem callerGone_step
    {r : Request}
    (hAccounts : s.Accounts)
    (hAccepted : r ∈ s.accepted)
    (hGone : s.connection.callerGone r = true) :
    (s.step c act m).connection.callerGone r = true := by
  have hSlot : r.id < s.connection.slots.size :=
    hAccounts.id_lt hAccepted
  unfold Connection.callerGone at hGone ⊢
  cases m with
  | submit a options =>
      rw [step, submit_connection]
      unfold Connection.submit
      split
      · exact hGone
      · split
        · rw [Array.getElem?_push_lt hSlot,
            ← Array.getElem?_eq_getElem hSlot]
          exact hGone
        · exact hGone
  | abandon id =>
      simp only [step, Connection.abandon, Array.getElem?_modify]
      split
      · rw [Array.getElem?_eq_getElem hSlot]
        rfl
      · exact hGone
  | close =>
      rw [step, Connection.slots_close]
      exact hGone
  | drive =>
      rw [step]
      cases hDriver : s.driver with
      | none =>
          rw [drive_of_none c hDriver]
          exact hGone
      | some d =>
          have hDealing :=
            Driver.step_dealing (c.taped A d.job.purpose) s.now
              s.world (hAccounts.fits d hDriver)
          rw [← drive_driver c hDriver,
            ← drive_connection c hDriver] at hDealing
          rw [abandoned_dealing hDealing]
          exact hGone
  | _ => exact hGone

------------------------------------------------------------
-- Requests That Are Forsaken
------------------------------------------------------------

/- The caller goes, or went, away while the request waits. -/
def Forsaken (s : Story W L A) (r : Request) : Prop :=
  r ∈ s.connection.queue ∧ s.connection.callerGone r = true ∨
  (r, true) ∈ s.taken

theorem forsaken_step
    {r : Request}
    (hAccounts : s.Accounts)
    (hForsaken : s.Forsaken r) :
    (s.step c act m).Forsaken r := by
  obtain ⟨rs, hTaken, hLeft⟩ := s.taken_step c act m
  rcases hForsaken with ⟨hWaiting, hGone⟩ | hOver
  · have hAccepted := hAccounts.mem_of_waiting hWaiting
    have hStill : r ∈ (s.step c act m).accepted :=
      (s.accepted_step c act m).subset hAccepted
    rw [(accounts_step c act s m hAccounts).order] at hStill
    rcases List.mem_append.mp hStill with hNow | hQueue
    · rcases List.mem_map.mp hNow with
        ⟨⟨r', gone⟩, hMember, rfl⟩
      rw [hTaken] at hMember
      rcases List.mem_append.mp hMember with hBefore | hNew
      · exact absurd rfl (hAccounts.id_ne hBefore hWaiting)
      · have hNoted : gone = true := (hLeft _ hNew).2.trans hGone
        rw [hNoted] at hNew
        right
        rw [hTaken]
        exact List.mem_append_right s.taken hNew
    · left
      exact ⟨hQueue,
        callerGone_step c act m hAccounts hAccepted hGone⟩
  · right
    rw [hTaken]
    exact List.mem_append_left rs hOver

/- Nothing is written for a request that is forsaken. -/
theorem Forsaken.not_tried
    {c : Connector W L}
    {r : Request}
    (hForsaken : s.Forsaken r)
    (hUnsent : s.Unsent c)
    (n : Nat) :
    (n, r) ∉ Wire.tried s.world.log := by
  intro hTried
  rcases hUnsent.shows with ⟨wire, hShows, -⟩
  rcases hShows.trace.begun_of_tried hTried with ⟨plan, hBegun⟩
  have hTaken : (r, false) ∈ s.taken :=
    taken_of_served hUnsent.shows (Wire.served_of_begun hBegun)
  rcases hForsaken with ⟨hWaiting, -⟩ | hOver
  · exact hUnsent.accounts.id_ne hTaken hWaiting rfl
  · have hApart := hUnsent.accounts.ids_nodup
    rw [hUnsent.accounts.order, List.map_append,
      List.nodup_append, List.map_map] at hApart
    have hSame := List.inj_on_of_nodup_map hApart.1 hTaken hOver
    cases hSame rfl

end Story

end DeviceSession
