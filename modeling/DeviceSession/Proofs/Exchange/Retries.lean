import DeviceSession.Proofs.Exchange.Streaks
import DeviceSession.Proofs.Run.Severance

/-
  Frames that are written again until they are accepted.

  An exchange is run on its own, with a log of what it tries.
  Some frames of its command have been accepted, in order,
  and then one may have been refused.  A frame is tried once
  more than it may be repeated, and no more often.  If it is
  refused each time, this ends the exchange; if the link says
  that it is gone, then so does the first such answer.

  So refusals that are few enough leave no trace on the wire:
  it has the frames of the command, each once.

  Key definitions include:
    * `Exchange.Ended`
    * `Errand`
    * `Errand.run`
    * `Errand.Retries`
    * `Errand.Setting`

  Main declarations:
    * `Exchange.step_ended`
    * `Errand.Known.run`
    * `Errand.Setting.retries_frames`
-/

------------------------------------------------------------
-- How an Exchange Ends
------------------------------------------------------------

namespace DeviceSession

section Steps

variable {W L A : Type}
variable (c : Connector W L)
variable (policy : WritePolicy) (now : Nat)
variable {r : Request} {s : Slicer} {n : Nat}
variable {plan : List (List UInt8)}

/- The loss of the link was heard during a request. -/
def Wire.HeardLost (r : Request) (log : List (Note A)) : Prop :=
  ∃ n, .heard n (.request r) .lost ∈ log

/-
  What an exchange with a result has tried.  It was too late,
  or a frame was refused too often, or the link said that it
  was gone, or was heard to be lost; or the response was read.
-/
inductive Exchange.Ended
    (retries : Nat)
    (plan : List (List UInt8))
    (writes : List Write)
    (isLost : Prop) :
    Except ExchangeError Response → Prop where
  | late
      {s : Slicer}
      {x : Exchange}
      (hSends : x.Sends retries s plan writes)
      (hCalm : ¬ isLost) :
      Ended retries plan writes isLost (.error .timeout)
  | exhausted
      {earlier last : List Write}
      {frames rest : List (List UInt8)}
      {frame : List UInt8}
      (hWrites : writes = earlier ++ last)
      (hThrough : Write.Through retries earlier frames)
      (hVain : Write.InVain frame last (retries + 1))
      (hPlan : plan = frames ++ frame :: rest)
      (hCalm : ¬ isLost) :
      Ended retries plan writes isLost (.error .writeRetriesExhausted)
  | gone
      {earlier vain : List Write}
      {frames rest : List (List UInt8)}
      {frame : List UInt8}
      {count : Nat}
      (hWrites :
        writes =
          earlier ++ (vain ++ [(frame, some (.error .disconnected))]))
      (hThrough : Write.Through retries earlier frames)
      (hVain : Write.InVain frame vain count)
      (hFew : count ≤ retries)
      (hPlan : plan = frames ++ frame :: rest)
      (hCalm : ¬ isLost) :
      Ended retries plan writes isLost (.error (.link .disconnected))
  | lost
      (hThrough : Write.Through retries writes plan)
      (hLost : isLost) :
      Ended retries plan writes isLost (.error (.link .disconnected))
  | read
      {outcome : Except ExchangeError Response}
      (hThrough : Write.Through retries writes plan)
      (hCalm : ¬ isLost)
      (hInTime : outcome ≠ .error .timeout)
      (hWritten : outcome ≠ .error .writeRetriesExhausted)
      (hThere : outcome ≠ .error (.link .disconnected)) :
      Ended retries plan writes isLost outcome

/- A write that fails has just been answered. -/
theorem FrameWrite.step_error
    {l : Nat × L}
    {f : FrameWrite}
    {t t' : Taped W A}
    {err : ExchangeError}
    (hStep :
      FrameWrite.step (c.taped A (.request r)) policy l now f t =
        (.done (.error err), t')) :
    ∃ e,
      Wire.writes r t'.log =
        Wire.writes r t.log ++ [(f.frame, some (.error e))] ∧
      err =
        if e = .disconnected then .link .disconnected
        else .writeRetriesExhausted := by
  unfold FrameWrite.step at hStep
  split at hStep
  · unfold Turn.pause at hStep
    split at hStep <;> cases hStep
  · rw [Connector.taped_write] at hStep
    generalize c.write f.asked l.2 f.frame t.world = result at hStep
    rcases result with ⟨answer, v⟩
    have hTried (e : LinkError) :
        Wire.writes r
            ((t.put v).note
              [.wrote l.1 (.request r) f.frame
                (some (.error e))]).log =
          Wire.writes r t.log ++ [(f.frame, some (.error e))] := by
      rw [Taped.note_log, Taped.put_log, Wire.writes,
        List.filterMap_append]
      simp [Note.write?, Wire.writes]
    rcases answer with - | (e | u)
    · cases hStep
    · refine ⟨e, ?_⟩
      cases e with
      | disconnected =>
          cases hStep
          exact ⟨hTried _, rfl⟩
      | _ =>
          simp only at hStep
          split at hStep
          · cases hStep
          · cases hStep
            exact ⟨hTried _, rfl⟩
    · cases hStep

/- To write a frame is not to hear anything. -/
theorem FrameWrite.heardLost_step
    (l : Nat × L)
    (f : FrameWrite)
    (t : Taped W A) :
    Wire.HeardLost r
        (FrameWrite.step (c.taped A (.request r)) policy l now f
          t).2.log ↔
      Wire.HeardLost r t.log := by
  unfold FrameWrite.step
  cases f.pausedUntil with
  | some due => exact Iff.rfl
  | none =>
      rw [Connector.taped_write]
      rcases c.write f.asked l.2 f.frame t.world with ⟨answer, v⟩
      have hSame :
          Wire.HeardLost r
              ((t.put v).note
                [.wrote l.1 (.request r) f.frame answer]).log ↔
            Wire.HeardLost r t.log := by
        simp [Wire.HeardLost]
      rcases answer with - | (e | u)
      · exact hSame
      · cases e with
        | disconnected => exact hSame
        | _ =>
            simp only
            split <;> exact hSame
      · exact hSame

/- Who hears of the loss of the link ends with it. -/
theorem Exchange.done_of_heardLost
    {x : Exchange}
    {e : HostEnd (Nat × L)}
    {t : Taped W A}
    (hCalm : ¬ Wire.HeardLost r t.log)
    (hHeard :
      Wire.HeardLost r
        (Exchange.step (c.taped A (.request r)) policy now x e
          t).2.2.log) :
    (Exchange.step (c.taped A (.request r)) policy now x e t).1 =
      .done (.error (.link .disconnected)) := by
  rcases x with ⟨apdu, deadline, phase⟩
  cases phase with
  | start =>
      simp only [step] at hHeard
      split at hHeard <;> exact absurd hHeard hCalm
  | cutting rest =>
      simp only [step] at hHeard
      split at hHeard <;> exact absurd hHeard hCalm
  | writing rest f =>
      have hWrite :=
        FrameWrite.heardLost_step c policy now (r := r) e.link f t
      simp only [step] at hHeard
      rcases hStep :
          FrameWrite.step (c.taped A (.request r)) policy
            e.link now f t with
        ⟨turn, t'⟩
      rw [hStep] at hWrite hHeard
      rcases turn with f' | f' | (err | u) <;>
        exact absurd (hWrite.mp hHeard) hCalm
  | reading asked =>
      simp only [step] at hHeard ⊢
      rw [Connector.taped_event] at hHeard ⊢
      generalize c.event asked e.link.2 t.world = result at hHeard ⊢
      rcases result with ⟨event, v⟩
      rcases event with - | (frame | -)
      · refine absurd hHeard ?_
        simpa [Wire.HeardLost] using hCalm
      · refine absurd hHeard ?_
        simpa [Wire.HeardLost] using hCalm
      · rfl

/- A frame that is given up, and for what. -/
theorem Exchange.ended_of_denied
    {earlier last : List Write}
    {frames rest : List (List UInt8)}
    {frame : List UInt8}
    {e : LinkError}
    {log log' : List (Note A)}
    (hLast :
      Wire.writes r log' =
        Wire.writes r log ++ [(frame, some (.error e))])
    (hWrites : Wire.writes r log' = earlier ++ last)
    (hThrough : Write.Through policy.retries earlier frames)
    (hDenied : Write.Denied policy.retries frame last)
    (hPlan : plan = frames ++ frame :: rest)
    (hCalm : ¬ Wire.HeardLost r log') :
    Ended policy.retries plan (Wire.writes r log')
      (Wire.HeardLost r log')
      (.error
        (if e = .disconnected then .link .disconnected
        else .writeRetriesExhausted)) := by
  cases hDenied with
  | @gone vain count hVain hFew =>
      rw [hWrites, ← List.append_assoc] at hLast
      obtain ⟨-, hSame⟩ := List.append_inj' hLast rfl
      obtain rfl : LinkError.disconnected = e := by
        simpa using hSame
      rw [if_pos rfl]
      exact .gone hWrites hThrough hVain hFew hPlan hCalm
  | refused hVain =>
      -- The last write was refused, so the link is there.
      have hMem : (frame, some (Except.error e)) ∈ last := by
        cases hVain with
        | pending hVain =>
            rw [hWrites, ← List.append_assoc] at hLast
            obtain ⟨-, hSame⟩ := List.append_inj' hLast rfl
            simp at hSame
        | refused hVain hThere =>
            rw [hWrites, ← List.append_assoc] at hLast
            obtain ⟨-, hSame⟩ := List.append_inj' hLast rfl
            exact List.mem_append_right _
              (hSame ▸ List.mem_singleton_self _)
      have hThere : e ≠ .disconnected := by
        rintro rfl
        exact hVain.not_gone _ hMem rfl
      rw [if_neg hThere]
      exact .exhausted hWrites hThrough hVain hPlan hCalm

/- What comes of a frame that has been read. -/
theorem Exchange.outcome_of_receive
    {L : Type}
    {x : Exchange}
    {e : HostEnd L}
    {s : Slicer}
    {a : Assembler}
    {frame : List UInt8}
    {outcome : Except ExchangeError Response}
    (hCodec : e.codec = some (s, a))
    (hDone : (x.receive e frame).1 = .done outcome) :
    (∃ err, outcome = .error (.protocol err)) ∨
      ∃ response, outcome = .ok response := by
  unfold receive at hDone
  split at hDone
  · cases hDone
  · simp only [hCodec] at hDone
    split at hDone <;> cases hDone
    · exact .inl ⟨_, rfl⟩
    · exact .inr ⟨_, rfl⟩

/- Any other end than by the loss comes without it. -/
theorem Exchange.calm_of_done
    {x : Exchange}
    {e e' : HostEnd (Nat × L)}
    {t t' : Taped W A}
    {outcome : Except ExchangeError Response}
    (hCalm : ¬ Wire.HeardLost r t.log)
    (hStep :
      Exchange.step (c.taped A (.request r)) policy now x e t =
        (.done outcome, e', t'))
    (hOther : outcome ≠ .error (.link .disconnected)) :
    ¬ Wire.HeardLost r t'.log := by
  intro hLost
  have hDone :=
    done_of_heardLost c policy now (e := e) (x := x) hCalm
  rw [hStep] at hDone
  cases hDone hLost
  exact hOther rfl

section Phases

variable {apdu : Apdu} {deadline : Nat}
variable {e e' : HostEnd (Nat × L)}
variable {t t' : Taped W A}
variable {outcome : Except ExchangeError Response}

/- While a frame is written, it is late or the frame denied. -/
theorem Exchange.writing_ended
    {rest : Slices}
    {f : FrameWrite}
    (hSends :
      Sends policy.retries s plan (Wire.writes r t.log)
        ⟨apdu, deadline, .writing rest f⟩)
    (hCalm : ¬ Wire.HeardLost r t.log)
    (hStep :
      Exchange.step (c.taped A (.request r)) policy now
          ⟨apdu, deadline, .writing rest f⟩ e t =
        (.done outcome, e', t')) :
    Ended policy.retries plan (Wire.writes r t'.log)
      (Wire.HeardLost r t'.log) outcome := by
  have hCalm' := calm_of_done c policy now hCalm hStep
  rcases hSends with
    ⟨earlier, vain, frames, hWrites, hThrough, hPlan, hTries⟩
  have hWrite :=
    FrameWrite.step_writes c policy now r e.link hWrites hTries
  have hQuiet :=
    FrameWrite.heardLost_step c policy now (r := r) e.link f t
  simp only [step] at hStep
  rcases hFrame :
      FrameWrite.step (c.taped A (.request r)) policy e.link now
        f t with
    ⟨turn, t₁⟩
  rw [hFrame] at hWrite hStep hQuiet
  rcases turn with f' | f' | (err | u)
  · cases hStep
  · rcases hWrite with ⟨hSame, vain', hWrites', hTries'⟩
    simp only [waiting, Turn.orAt] at hStep
    split at hStep
    · cases hStep
      refine .late (x := ⟨apdu, deadline, .writing rest f'⟩)
        (s := s) ⟨earlier, vain', frames, hWrites', hThrough,
          ?_, hTries'⟩ (hCalm' (by simp))
      simpa only [todo, hSame] using hPlan
    · cases hStep
  · rcases hWrite with ⟨last, hWrites', hDenied⟩
    rcases FrameWrite.step_error c policy now hFrame with
      ⟨fault, hLast, rfl⟩
    cases hStep
    exact ended_of_denied policy hLast hWrites' hThrough hDenied
      hPlan fun hLost => hCalm (hQuiet.mp hLost)
  · cases hStep

/- Later it is late, or the link lost, or the response read. -/
theorem Exchange.reading_ended
    {asked : Asked}
    (hOn : e.On n s)
    (hSends :
      Sends policy.retries s plan (Wire.writes r t.log)
        ⟨apdu, deadline, .reading asked⟩)
    (hCalm : ¬ Wire.HeardLost r t.log)
    (hStep :
      Exchange.step (c.taped A (.request r)) policy now
          ⟨apdu, deadline, .reading asked⟩ e t =
        (.done outcome, e', t')) :
    Ended policy.retries plan (Wire.writes r t'.log)
      (Wire.HeardLost r t'.log) outcome := by
  have hCalm' := calm_of_done c policy now hCalm hStep
  have hAll := hSends.through_of_reading
  rcases hOn with ⟨hLink, a, hCodec⟩
  simp only [step] at hStep
  rw [Connector.taped_event] at hStep
  generalize c.event asked e.link.2 t.world = result at hStep
  rcases result with ⟨event, v⟩
  have hSame := Wire.writes_heard (r := r) t v e.link.1 event
  rw [← hSame] at hSends hAll
  rcases event with - | (frame | -)
  · simp only [waiting, Turn.orAt] at hStep
    split at hStep
    · cases hStep
      exact .late hSends (hCalm' (by simp))
    · cases hStep
  · simp only [Prod.mk.injEq] at hStep
    rcases hStep with ⟨hDone, -, rfl⟩
    have hAnswer := outcome_of_receive hCodec hDone
    apply Ended.read hAll
    · apply hCalm'
      rcases hAnswer with ⟨err, rfl⟩ | ⟨response, rfl⟩ <;> simp
    all_goals
      rcases hAnswer with ⟨err, rfl⟩ | ⟨response, rfl⟩ <;> simp
  · cases hStep
    exact .lost hAll ⟨e.link.1, by simp⟩

end Phases

/- An exchange ends in one of these ways. -/
theorem Exchange.step_ended
    {x : Exchange}
    {e e' : HostEnd (Nat × L)}
    {t t' : Taped W A}
    {outcome : Except ExchangeError Response}
    (hOn : e.On n s)
    (hSends :
      x.Sends policy.retries s plan (Wire.writes r t.log))
    (hCalm : ¬ Wire.HeardLost r t.log)
    (hStep :
      Exchange.step (c.taped A (.request r)) policy now x e t =
        (.done outcome, e', t')) :
    Ended policy.retries plan (Wire.writes r t'.log)
      (Wire.HeardLost r t'.log) outcome := by
  rcases x with ⟨apdu, deadline, phase⟩
  cases phase with
  | start =>
      rcases hOn with ⟨hLink, a, hCodec⟩
      simp only [step, hCodec] at hStep
      cases hStep
  | cutting rest =>
      simp only [step] at hStep
      split at hStep <;> cases hStep
  | writing rest f =>
      exact writing_ended c policy now hSends hCalm hStep
  | reading asked =>
      exact reading_ended c policy now hOn hSends hCalm hStep

end Steps

namespace Exchange.Ended

variable {retries : Nat} {plan : List (List UInt8)}
variable {writes : List Write} {isLost : Prop}
variable {outcome : Except ExchangeError Response}

theorem along (hEnded : Ended retries plan writes isLost outcome) :
    Write.Along retries plan writes := by
  cases hEnded with
  | late hSends hCalm => exact hSends.along
  | exhausted hWrites hThrough hVain hPlan hCalm =>
      rw [hWrites]
      exact .within hThrough (.inr (.refused hVain)) hPlan
  | gone hWrites hThrough hVain hFew hPlan hCalm =>
      rw [hWrites]
      exact .within hThrough (.inr (.gone hVain hFew)) hPlan
  | lost hThrough hLost =>
      exact .between hThrough (List.append_nil plan).symm
  | read hThrough hCalm hInTime hWritten hThere =>
      exact .between hThrough (List.append_nil plan).symm

/- Refusals in a row have been too many, or else few. -/
theorem steady
    (hEnded : Ended retries plan writes isLost outcome)
    (hOther : outcome ≠ .error .writeRetriesExhausted) :
    Write.Steady retries writes := by
  cases hEnded with
  | late hSends hCalm => exact hSends.steady
  | exhausted hWrites hThrough hVain hPlan hCalm =>
      exact absurd rfl hOther
  | gone hWrites hThrough hVain hFew hPlan hCalm =>
      have hTried := hVain.steady hThrough.steady (by
        rw [hThrough.streak_eq_zero]
        omega)
      rw [hWrites, ← List.append_assoc]
      apply hTried.concat
      rw [Write.streak_concat]
      exact hTried _ (List.prefix_refl _)
  | lost hThrough hLost => exact hThrough.steady
  | read hThrough hCalm hInTime hWritten hThere =>
      exact hThrough.steady

theorem exhausted_iff
    (hEnded : Ended retries plan writes isLost outcome) :
    outcome = .error .writeRetriesExhausted ↔
      Write.Exhausts retries writes := by
  constructor
  · rintro rfl
    cases hEnded with
    | @exhausted earlier last _ _ frame hWrites hThrough hVain
        hPlan hCalm =>
        exact ⟨earlier, frame, last, by simp [hWrites], hVain⟩
    | read hThrough hCalm hInTime hWritten hThere =>
        exact absurd rfl hWritten
  · intro hExhausts
    by_contra hOther
    exact (hEnded.steady hOther).not_exhausts hExhausts

/- That the link is gone is said last, if it is said. -/
theorem last_of_gone
    (hEnded : Ended retries plan writes isLost outcome)
    {before after : List Write}
    {y : Write}
    (hGone : y.IsGone)
    (hWrites : writes = before ++ y :: after) :
    outcome = .error (.link .disconnected) ∧ after = [] := by
  have hMem : y ∈ writes := by simp [hWrites]
  cases hEnded with
  | late hSends hCalm => exact absurd hGone (hSends.not_gone y hMem)
  | exhausted hAll hThrough hVain hPlan hCalm =>
      rw [hAll] at hMem
      rcases List.mem_append.mp hMem with hOld | hNew
      · exact absurd hGone (hThrough.not_gone y hOld)
      · exact absurd hGone (hVain.not_gone y hNew)
  | @gone earlier vain frames rest frame count hAll hThrough hVain
      hFew hPlan hCalm =>
      refine ⟨rfl, ?_⟩
      rcases List.eq_nil_or_concat after with hNil | ⟨init, z, rfl⟩
      · exact hNil
      · -- Then the answer stands among the refusals before.
        exfalso
        have hSplit : (earlier ++ vain) ++
            [(frame, some (.error .disconnected))] =
              (before ++ y :: init) ++ [z] := by
          simpa [hWrites] using hAll.symm
        have hInit := (List.append_inj' hSplit rfl).1
        have hEarly : y ∈ earlier ++ vain := by simp [hInit]
        rcases List.mem_append.mp hEarly with hOld | hNew
        · exact hThrough.not_gone y hOld hGone
        · exact hVain.not_gone y hNew hGone
  | lost hThrough hLost =>
      exact absurd hGone (hThrough.not_gone y hMem)
  | read hThrough hCalm hInTime hWritten hThere =>
      exact absurd hGone (hThrough.not_gone y hMem)

theorem disconnected_iff
    (hEnded : Ended retries plan writes isLost outcome) :
    outcome = .error (.link .disconnected) ↔
      (∃ y ∈ writes, y.IsGone) ∨ isLost := by
  constructor
  · rintro rfl
    cases hEnded with
    | @gone _ _ _ _ frame _ hWrites hThrough hVain hFew hPlan
        hCalm =>
        refine .inl ⟨(frame, some (.error .disconnected)), ?_, rfl⟩
        simp [hWrites]
    | lost hThrough hLost => exact .inr hLost
    | read hThrough hCalm hInTime hWritten hThere =>
        exact absurd rfl hThere
  · rintro (⟨y, hMem, hGone⟩ | hLost)
    · obtain ⟨before, after, hWrites⟩ := List.append_of_mem hMem
      exact (hEnded.last_of_gone hGone hWrites).1
    · cases hEnded with
      | lost hThrough _ => rfl
      | late hSends hCalm => exact absurd hLost hCalm
      | exhausted hWrites hThrough hVain hPlan hCalm =>
          exact absurd hLost hCalm
      | gone hWrites hThrough hVain hFew hPlan hCalm => rfl
      | read hThrough hCalm hInTime hWritten hThere =>
          exact absurd hLost hCalm

/- Whoever gets past its writes has written everything. -/
theorem accepted_eq
    (hEnded : Ended retries plan writes isLost outcome)
    (hInTime : outcome ≠ .error .timeout)
    (hFew : ¬ Write.Exhausts retries writes)
    (hThere : ∀ y ∈ writes, ¬ y.IsGone) :
    writes.filterMap Write.accepted? = plan := by
  have hExhausted := hEnded.exhausted_iff.not.mpr hFew
  cases hEnded with
  | late hSends hCalm => exact absurd rfl hInTime
  | exhausted hWrites hThrough hVain hPlan hCalm =>
      exact absurd rfl hExhausted
  | @gone _ _ _ _ frame _ hWrites hThrough hVain hFew hPlan hCalm =>
      have hMem :
          (frame, some (.error .disconnected)) ∈ writes := by
        simp [hWrites]
      exact absurd rfl (hThere _ hMem)
  | lost hThrough hLost => exact hThrough.accepted
  | read hThrough hCalm hInTime hWritten hThere =>
      exact hThrough.accepted

/- The loss of the link is heard after all writes. -/
theorem accepted_of_lost
    (hEnded : Ended retries plan writes isLost outcome)
    (hLost : isLost) :
    writes.filterMap Write.accepted? = plan := by
  cases hEnded with
  | lost hThrough _ => exact hThrough.accepted
  | late hSends hCalm => exact absurd hLost hCalm
  | exhausted hWrites hThrough hVain hPlan hCalm =>
      exact absurd hLost hCalm
  | gone hWrites hThrough hVain hFew hPlan hCalm =>
      exact absurd hLost hCalm
  | read hThrough hCalm hInTime hWritten hThere =>
      exact absurd hLost hCalm

end Exchange.Ended

------------------------------------------------------------
-- Exchanges on Their Own
------------------------------------------------------------

/- An exchange on a link that nobody else uses. -/
structure Errand (W L : Type) where
  exchange : Exchange
  host : HostEnd L
  world : W
  result : Option (Except ExchangeError Response) := none

namespace Errand

/- What comes next: a step, or the world changes by itself. -/
inductive Cue (A : Type) where
  | step (now : Nat)
  | outside (a : A)

variable {W L A : Type}

/- Follow a cue.  With a result there is nothing to do. -/
def take
    (c : Connector W L)
    (p : WritePolicy)
    (act : A → W → W)
    (x : Errand W L) : Cue A → Errand W L
  | .outside a => { x with world := act a x.world }
  | .step now =>
      match x.result with
      | some _ => x
      | none =>
          match Exchange.step c p now x.exchange x.host x.world with
          | (.go y, e, w) =>
              { x with exchange := y, host := e, world := w }
          | (.wait y, e, w) =>
              { x with exchange := y, host := e, world := w }
          | (.done outcome, e, w) =>
              { x with host := e, world := w, result := some outcome }

def run
    (c : Connector W L)
    (p : WritePolicy)
    (act : A → W → W)
    (x : Errand W L)
    (cues : List (Cue A)) : Errand W L :=
  cues.foldl (take c p act) x

theorem run_cons
    (c : Connector W L)
    (p : WritePolicy)
    (act : A → W → W)
    (x : Errand W L)
    (cue : Cue A)
    (cues : List (Cue A)) :
    x.run c p act (cue :: cues) =
      (x.take c p act cue).run c p act cues := rfl

/- An errand without its log. -/
def erase (x : Errand (Taped W A) (Nat × L)) : Errand W L where
  exchange := x.exchange
  host := x.host.map Prod.snd
  world := x.world.world
  result := x.result

theorem erase_take
    (c : Connector W L)
    (p : WritePolicy)
    (act : A → W → W)
    (r : Request)
    (x : Errand (Taped W A) (Nat × L))
    (cue : Cue A) :
    (x.take (c.taped A (.request r)) p (Taped.act act) cue).erase =
      x.erase.take c p act cue := by
  cases cue with
  | outside a => rfl
  | step now =>
      have hStep := Exchange.step_map
        (c.taped_covers A (.request r)) p now x.exchange x.host
        x.world
      cases hResult : x.result with
      | some outcome => simp [take, erase, hResult]
      | none =>
          simp only [take, erase, hResult, hStep]
          rcases Exchange.step (c.taped A (.request r)) p now
              x.exchange x.host x.world with
            ⟨turn, e, t⟩
          cases turn <;> rfl

/- An errand with a log is run as it is without. -/
theorem erase_run
    (c : Connector W L)
    (p : WritePolicy)
    (act : A → W → W)
    (r : Request)
    (x : Errand (Taped W A) (Nat × L))
    (cues : List (Cue A)) :
    (x.run (c.taped A (.request r)) p (Taped.act act) cues).erase =
      x.erase.run c p act cues := by
  induction cues generalizing x with
  | nil => rfl
  | cons cue cues ih =>
      rw [run_cons, run_cons, ih, erase_take]

/-
  What is known of an errand: as long as it goes on, what is
  to be written; with a result, what it has ended with.
-/
def Known
    (retries : Nat)
    (r : Request)
    (s : Slicer)
    (n : Nat)
    (plan : List (List UInt8))
    (x : Errand (Taped W A) (Nat × L)) : Prop :=
  match x.result with
  | none =>
      x.host.On n s ∧
        x.exchange.Sends retries s plan
          (Wire.writes r x.world.log) ∧
        ¬ Wire.HeardLost r x.world.log
  | some outcome =>
      Exchange.Ended retries plan (Wire.writes r x.world.log)
        (Wire.HeardLost r x.world.log) outcome

section known

variable {c : Connector W L} {p : WritePolicy} {act : A → W → W}
variable {r : Request} {s : Slicer} {n : Nat}
variable {plan : List (List UInt8)}
variable {x : Errand (Taped W A) (Nat × L)}

theorem Known.take
    (hKnown : x.Known p.retries r s n plan)
    (cue : Cue A) :
    (x.take (c.taped A (.request r)) p (Taped.act act)
      cue).Known p.retries r s n plan := by
  cases cue with
  | outside a =>
      have hWrites :
          Wire.writes r (Taped.act act a x.world).log =
            Wire.writes r x.world.log := by
        simp [Taped.act, Wire.writes, Note.write?]
      have hHeard :
          Wire.HeardLost r (Taped.act act a x.world).log =
            Wire.HeardLost r x.world.log := by
        simp [Taped.act, Wire.HeardLost]
      simp only [Known, Errand.take, hWrites, hHeard]
      exact hKnown
  | step now =>
      cases hResult : x.result with
      | some outcome =>
          simp only [Errand.take, hResult]
          exact hKnown
      | none =>
          simp only [Known, hResult] at hKnown
          obtain ⟨hOn, hSends, hCalm⟩ := hKnown
          have hGoes := Exchange.step_sends c p now hOn hSends
          have hHeard := Exchange.done_of_heardLost c p now
            (e := x.host) (x := x.exchange) hCalm
          simp only [Errand.take, hResult]
          rcases hStep :
              Exchange.step (c.taped A (.request r)) p now
                x.exchange x.host x.world with
            ⟨turn, e, t⟩
          rw [hStep] at hGoes hHeard
          cases turn with
          | go y =>
              refine ⟨hGoes.1, hGoes.2, ?_⟩
              intro hLost
              cases hHeard hLost
          | wait y =>
              refine ⟨hGoes.1, hGoes.2, ?_⟩
              intro hLost
              cases hHeard hLost
          | done outcome =>
              exact Exchange.step_ended c p now hOn hSends hCalm
                hStep

theorem Known.run
    (hKnown : x.Known p.retries r s n plan)
    (cues : List (Cue A)) :
    (x.run (c.taped A (.request r)) p (Taped.act act)
      cues).Known p.retries r s n plan := by
  induction cues generalizing x with
  | nil => exact hKnown
  | cons cue cues ih => exact ih (hKnown.take cue)

end known

/- The response is awaited. -/
def Reads (x : Errand W L) : Prop :=
  ∃ asked, x.exchange.phase = .reading asked

/- The writes are over, and not for want of time. -/
def PastWrites (x : Errand W L) : Prop :=
  match x.result with
  | none => x.Reads
  | some outcome => outcome ≠ .error .timeout

/- With nothing left to write, reading begins or has begun. -/
theorem reads_of_todo_eq_nil
    {c : Connector W L}
    {p : WritePolicy}
    {act : A → W → W}
    {s : Slicer}
    {x : Errand W L}
    (hResult : x.result = none)
    (hTodo : x.exchange.todo s = [])
    (now : Nat) :
    x.Reads ∨
      (x.take c p act (.step now)).result = none ∧
        (x.take c p act (.step now)).Reads := by
  rcases x with ⟨⟨apdu, deadline, phase⟩, host, world, result⟩
  cases phase with
  | start => exact absurd hTodo (s.command_ne_nil apdu)
  | writing rest f => exact absurd hTodo (List.cons_ne_nil _ _)
  | reading asked => exact .inl ⟨asked, rfl⟩
  | cutting rest =>
      have hNone : rest.next? = none := by
        cases hNext : rest.next? with
        | none => rfl
        | some next =>
            simp [Exchange.todo, Slices.toList_of_next hNext]
              at hTodo
      have hNow : result = none := hResult
      refine .inr ⟨?_, .first, ?_⟩ <;>
        simp [take, hNow, Exchange.step, hNone, Exchange.goto]

/-
  What an errand has written, at any time.  The frames of its
  command are `plan`.
-/
structure Retries
    (c : Connector W L)
    (p : WritePolicy)
    (act : A → W → W)
    (r : Request)
    (plan : List (List UInt8))
    (x : Errand (Taped W A) (Nat × L)) : Prop where
  /- Frames are accepted in order, each once. -/
  onWire : Wire.onWire r x.world.log <+: plan
  /- Reading begins exactly when all of them are. -/
  reading :
    x.result = none → x.Reads →
      Wire.onWire r x.world.log = plan
  begins :
    x.result = none →
    Wire.onWire r x.world.log = plan →
    ∀ now,
      let y := x.take (c.taped A (.request r)) p (Taped.act act)
        (.step now)
      x.Reads ∨ y.result = none ∧ y.Reads
  /- A frame is tried once more than it may be repeated. -/
  attempts :
    ∀ frame,
      Write.attempts frame (Wire.writes r x.world.log) ≤
        p.retries + 1
  counter :
    x.result = none →
    ∀ rest f, x.exchange.phase = .writing rest f →
      f.attempt ≤ p.retries
  exhausted :
    x.result = some (.error .writeRetriesExhausted) ↔
      Write.Exhausts p.retries (Wire.writes r x.world.log)
  disconnected :
    x.result = some (.error (.link .disconnected)) ↔
      (∃ y ∈ Wire.writes r x.world.log, y.IsGone) ∨
        Wire.HeardLost r x.world.log
  /- A link that is gone is not written to again. -/
  unretried :
    ∀ before y after,
      Wire.writes r x.world.log = before ++ y :: after →
      y.IsGone → after = []
  /- Its loss is heard while the response is read. -/
  lost :
    Wire.HeardLost r x.world.log →
      Wire.onWire r x.world.log = plan
  /- Few refusals of each frame leave no trace on the wire. -/
  invisible :
    ¬ Write.Exhausts p.retries (Wire.writes r x.world.log) →
    (∀ y ∈ Wire.writes r x.world.log, ¬ y.IsGone) →
    x.PastWrites →
    Wire.onWire r x.world.log = plan

section retries

variable {c : Connector W L} {p : WritePolicy} {act : A → W → W}
variable {r : Request} {s : Slicer} {n : Nat}
variable {plan : List (List UInt8)}
variable {x : Errand (Taped W A) (Nat × L)}

/- As long as there is no result, nothing has gone wrong. -/
theorem Known.retries_of_none
    (hKnown : x.Known p.retries r s n plan)
    (hResult : x.result = none)
    (hOnce : plan.Nodup) :
    x.Retries c p act r plan := by
  simp only [Known, hResult] at hKnown
  obtain ⟨hOn, hSends, hCalm⟩ := hKnown
  have hTodo := hSends.accepted_append_todo
  have hReads : x.Reads → Wire.onWire r x.world.log = plan := by
    rintro ⟨asked, hPhase⟩
    have hNone : x.exchange.todo s = [] := by
      simp [Exchange.todo, hPhase]
    rw [hTodo, hNone, List.append_nil]
    rfl
  constructor
  case onWire => exact hSends.along.accepted_prefix
  case reading => exact fun _ => hReads
  case begins =>
    intro _ hAll now
    apply reads_of_todo_eq_nil hResult
    have hNone : plan = plan ++ x.exchange.todo s := by
      rw [← hAll]
      exact hAll.trans hTodo
    exact List.self_eq_append_right.mp hNone
  case attempts => exact hSends.along.attempts_le hOnce
  case counter =>
    intro _ rest f hPhase
    obtain ⟨_, vain, _, _, _, _, hTries⟩ := hSends
    rw [hPhase] at hTries
    exact hTries.1
  case exhausted =>
    simp [hResult, hSends.steady.not_exhausts]
  case disconnected =>
    simpa [hResult, hCalm] using hSends.not_gone
  case unretried =>
    intro before y after hWrites hGone
    exact absurd hGone (hSends.not_gone y (by simp [hWrites]))
  case lost => exact fun hLost => absurd hLost hCalm
  case invisible =>
    intro _ _ hPast
    simp only [PastWrites, hResult] at hPast
    exact hReads hPast

/- With a result, it is told by what was tried. -/
theorem Known.retries_of_some
    {outcome : Except ExchangeError Response}
    (hKnown : x.Known p.retries r s n plan)
    (hResult : x.result = some outcome)
    (hOnce : plan.Nodup) :
    x.Retries c p act r plan := by
  simp only [Known, hResult] at hKnown
  constructor
  case onWire => exact hKnown.along.accepted_prefix
  case reading => simp [hResult]
  case begins => simp [hResult]
  case attempts => exact hKnown.along.attempts_le hOnce
  case counter => simp [hResult]
  case exhausted =>
    rw [hResult, Option.some_inj]
    exact hKnown.exhausted_iff
  case disconnected =>
    rw [hResult, Option.some_inj]
    exact hKnown.disconnected_iff
  case unretried =>
    exact fun _ _ _ hWrites hGone =>
      (hKnown.last_of_gone hGone hWrites).2
  case lost => exact hKnown.accepted_of_lost
  case invisible =>
    intro hFew hThere hPast
    simp only [PastWrites, hResult] at hPast
    exact hKnown.accepted_eq hPast hFew hThere

theorem Known.retries
    (hKnown : x.Known p.retries r s n plan)
    (hOnce : plan.Nodup) :
    x.Retries c p act r plan := by
  cases hResult : x.result with
  | none => exact hKnown.retries_of_none hResult hOnce
  | some outcome => exact hKnown.retries_of_some hResult hOnce

end retries

/- All that the run of an exchange depends on. -/
structure Setting (W L A : Type) where
  connector : Connector W L
  settings : Settings
  /- What happens to the world by itself. -/
  act : A → W → W
  /- The codec of a link that has been set up. -/
  slicer : Slicer
  assembler : Assembler
  link : L
  world : W
  start : Nat
  timeout : Nat
  cues : List (Cue A)

namespace Setting

def policy (x : Setting W L A) : WritePolicy :=
  .ofSettings x.settings

/- The frames of a command, as the link has them. -/
def plan (x : Setting W L A) (r : Request) : List (List UInt8) :=
  (x.slicer.command r.apdu).toList

/- The exchange for a request, run to the end of the cues. -/
def plain (x : Setting W L A) (r : Request) : Errand W L :=
  run x.connector x.policy x.act
    { exchange := .ofCommand r.apdu x.start x.timeout
      host :=
        { link := x.link, codec := some (x.slicer, x.assembler) }
      world := x.world }
    x.cues

/- The same with a log. -/
def taped (x : Setting W L A) (r : Request) :
    Errand (Taped W A) (Nat × L) :=
  run (x.connector.taped A (.request r)) x.policy (Taped.act x.act)
    { exchange := .ofCommand r.apdu x.start x.timeout
      host :=
        { link := (0, x.link)
          codec := some (x.slicer, x.assembler) }
      world := { world := x.world } }
    x.cues

/- The frames that have been accepted. -/
def onWire (x : Setting W L A) (r : Request) : List (List UInt8) :=
  Wire.onWire r (x.taped r).world.log

theorem known_taped (x : Setting W L A) (r : Request) :
    (x.taped r).Known x.policy.retries r x.slicer 0 (x.plan r) := by
  apply Known.run
  refine ⟨⟨rfl, x.assembler, rfl⟩, ?_, ?_⟩
  · exact ⟨[], [], [], rfl, .start, rfl, rfl⟩
  · simp [Wire.HeardLost]

/-
  Frames are written again until they are accepted, whatever
  the link answers and whenever the exchange is stepped.

  The log is of the exchange as it is without one.  No two
  frames of a command are the same, so each is on the wire
  once at most.  If no frame is refused too often, nothing on
  the wire tells the exchange from one without refusals.
-/
theorem retries_frames (x : Setting W L A) (r : Request) :
    (x.taped r).erase = x.plain r ∧
    (x.plan r).Nodup ∧
    x.policy.retries ≤ 255 ∧
    (x.taped r).Retries x.connector x.policy x.act r (x.plan r) ∧
    ∀ {W' L' A' : Type} (y : Setting W' L' A') (r' : Request),
      y.slicer = x.slicer →
      r'.apdu = r.apdu →
      ¬ Write.Exhausts x.policy.retries
        (Wire.writes r (x.taped r).world.log) →
      (∀ z ∈ Wire.writes r (x.taped r).world.log, ¬ z.IsGone) →
      (x.taped r).PastWrites →
      (∀ z ∈ Wire.writes r' (y.taped r').world.log,
        ∀ e, z.2 ≠ some (.error e)) →
      (y.taped r').PastWrites →
      x.onWire r = y.onWire r' := by
  have hRetries :
      (x.taped r).Retries x.connector x.policy x.act r
        (x.plan r) :=
    (x.known_taped r).retries (x.slicer.nodup_command r.apdu)
  refine ⟨?_, x.slicer.nodup_command r.apdu, ?_, hRetries, ?_⟩
  · exact erase_run x.connector x.policy x.act r _ x.cues
  · exact Nat.le_of_lt_succ x.settings.frameWriteRetries.toNat_lt
  · intro W' L' A' y r' hSlicer hApdu hFew hThere hPast hFaultless
      hPast'
    have hOther :
        (y.taped r').Retries y.connector y.policy y.act r'
          (y.plan r') :=
      (y.known_taped r').retries (y.slicer.nodup_command r'.apdu)
    have hSame : y.plan r' = x.plan r := by
      rw [plan, plan, hSlicer, hApdu]
    have hNever :
        ¬ Write.Exhausts y.policy.retries
          (Wire.writes r' (y.taped r').world.log) := by
      intro hExhausts
      obtain ⟨z, hMem, e, hError⟩ := hExhausts.exists_error
      exact hFaultless z hMem e hError
    calc x.onWire r
      _ = x.plan r := hRetries.invisible hFew hThere hPast
      _ = y.plan r' := hSame.symm
      _ = y.onWire r' :=
        (hOther.invisible hNever
          (fun z hMem hGone => hFaultless z hMem _ hGone)
          hPast').symm

end Setting

end Errand

/-
  A link that takes every frame and is lost before anything
  comes back.
-/
namespace Unanswered

def connector : Connector Unit Unit where
  profile := .ble
  handshake := .fixed 64
  reach := fun _ _ => (none, ())
  connect := fun _ _ => (none, ())
  write := fun _ _ _ _ => (some (.ok ()), ())
  event := fun _ _ _ => (some .lost, ())
  close := fun _ _ => ()

def setting : Errand.Setting Unit Unit Empty where
  connector := connector
  settings := {}
  act := fun _ _ => ()
  slicer := ⟨.ble, 64, by decide⟩
  assembler := .ofProfile .ble
  link := ()
  world := ()
  start := 0
  timeout := 200
  cues := List.replicate 5 (.step 0)

def request : Request where
  id := 0
  apdu := ⟨0xe0, 0x11, 0, 0, [0xaa], by decide⟩
  options := {}

/-
  The exchange ends as on a link that is gone, though no write
  has said so.
-/
theorem ends_disconnected :
    (setting.plain request).result =
      some (.error (.link .disconnected)) ∧
    Wire.writes request (setting.taped request).world.log =
      [([5, 0, 0, 0, 6, 0xe0, 0x11, 0, 0, 1, 0xaa],
        some (.ok ()))] := by
  refine ⟨rfl, rfl⟩

end Unanswered

end DeviceSession
