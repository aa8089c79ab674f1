import DeviceSession.Proofs.Run.Erasure
import DeviceSession.Proofs.Run.Traffic
import DeviceSession.Proofs.Run.Wire

/-
  How links are lost under the frames of a request.

  A frame is tried until it is accepted, or denied: because
  the link is gone, or because it was refused once more than
  it may be repeated.  So an exchange that breaks down has
  all its frames out and hears of the loss instead of a
  response, or it was denied one of them, which may be the
  first.

  Key definitions include:
    * `Write.InVain`
    * `Write.Denied`
    * `Write.Through`
    * `Wire.BrokeDown`
    * `Severed`
    * `Exchange.Sends`
    * `Driver.LeavesSent`

  Main declarations:
    * `Severed.onWire_eq_nil_iff`
    * `FrameWrite.step_writes`
    * `Exchange.step_sends`
    * `Driver.step_sends`
-/

------------------------------------------------------------
-- Writes
------------------------------------------------------------

namespace DeviceSession

/- A frame that was tried; no answer is a pending one. -/
abbrev Write :=
  List UInt8 × Option (Except LinkError Unit)

namespace Write

/- The frame, if the link has accepted it. -/
def accepted? : Write → Option (List UInt8)
  | (frame, some (.ok _)) => some frame
  | _ => none

/- A frame is tried in vain, and refused so many times. -/
inductive InVain (frame : List UInt8) :
    List Write → Nat → Prop where
  | start : InVain frame [] 0
  | pending
      {writes : List Write}
      {count : Nat}
      (hVain : InVain frame writes count) :
      InVain frame (writes ++ [(frame, none)]) count
  | refused
      {writes : List Write}
      {count : Nat}
      {e : LinkError}
      (hVain : InVain frame writes count)
      (hThere : e ≠ .disconnected) :
      InVain frame (writes ++ [(frame, some (.error e))])
        (count + 1)

/- A frame is given up. -/
inductive Denied (retries : Nat) (frame : List UInt8) :
    List Write → Prop where
  /- The link is gone. -/
  | gone
      {writes : List Write}
      {count : Nat}
      (hVain : InVain frame writes count)
      (hFew : count ≤ retries) :
      Denied retries frame
        (writes ++ [(frame, some (.error .disconnected))])
  /- It was refused once more than it may be repeated. -/
  | refused
      {writes : List Write}
      (hVain : InVain frame writes (retries + 1)) :
      Denied retries frame writes

/-
  Frames are accepted one after another, none of them refused
  more often than it may be repeated.
-/
inductive Through (retries : Nat) :
    List Write → List (List UInt8) → Prop where
  | start : Through retries [] []
  | next
      {writes vain : List Write}
      {frames : List (List UInt8)}
      {frame : List UInt8}
      {count : Nat}
      (hThrough : Through retries writes frames)
      (hVain : InVain frame vain count)
      (hFew : count ≤ retries) :
      Through retries
        (writes ++ (vain ++ [(frame, some (.ok ()))]))
        (frames ++ [frame])

variable {retries count : Nat} {frame : List UInt8}
variable {frames : List (List UInt8)} {writes : List Write}

theorem InVain.accepted (h : InVain frame writes count) :
    writes.filterMap accepted? = [] := by
  induction h with
  | start => rfl
  | pending hVain ih =>
      rw [List.filterMap_append, ih]
      rfl
  | refused hVain hThere ih =>
      rw [List.filterMap_append, ih]
      rfl

theorem Denied.accepted (h : Denied retries frame writes) :
    writes.filterMap accepted? = [] := by
  cases h with
  | gone hVain hFew =>
      rw [List.filterMap_append, hVain.accepted]
      rfl
  | refused hVain => exact hVain.accepted

theorem Through.accepted (h : Through retries writes frames) :
    writes.filterMap accepted? = frames := by
  induction h with
  | start => rfl
  | next hThrough hVain hFew ih =>
      rw [List.filterMap_append, List.filterMap_append, ih,
        hVain.accepted]
      rfl

/- Nothing was tried if nothing was accepted. -/
theorem Through.eq_nil
    (h : Through retries writes []) :
    writes = [] := by
  generalize hNone : ([] : List (List UInt8)) = frames at h
  cases h with
  | start => rfl
  | next hThrough hVain hFew =>
      exact absurd hNone.symm (by simp)

end Write

------------------------------------------------------------
-- What a Log Tells of a Request
------------------------------------------------------------

section Logs

variable {A : Type}

/- What was tried for a request. -/
def Note.write? (r : Request) : Note A → Option Write
  | .wrote _ (.request r') frame answer =>
      if r' = r then some (frame, answer) else none
  | _ => none

namespace Wire

/- All that was tried for a request, oldest first. -/
def writes (r : Request) (log : List (Note A)) :
    List Write :=
  log.filterMap (Note.write? r)

/- The frames of a request that links have accepted. -/
def onWire (r : Request) (log : List (Note A)) :
    List (List UInt8) :=
  (writes r log).filterMap Write.accepted?

theorem tried_of_writes
    {r : Request}
    {log : List (Note A)}
    {x : Write}
    (hWrite : x ∈ writes r log) :
    ∃ n, (n, r) ∈ tried log := by
  rcases List.mem_filterMap.mp hWrite with ⟨note, hNote, hx⟩
  unfold Note.write? at hx
  split at hx
  · rename_i n r' frame answer
    split at hx
    · rename_i hSame
      subst hSame
      exact ⟨n, List.mem_filterMap.mpr ⟨_, hNote, rfl⟩⟩
    · cases hx
  · cases hx

/- The link failed, and the exchange for a request with it. -/
def BrokeDown (r : Request) (log : List (Note A)) : Prop :=
  ∃ n e,
    (.request r, some (.error e)) ∈ ended n log ∧
      e.breaksLink = true

/- A log goes on, with nothing tried for a request. -/
def Grows (r : Request) (log log' : List (Note A)) : Prop :=
  ∃ notes,
    log' = log ++ notes ∧ notes.filterMap (Note.write? r) = []

variable {r : Request} {log log' log'' : List (Note A)}

theorem Grows.refl (log : List (Note A)) : Grows r log log :=
  ⟨[], (List.append_nil _).symm, rfl⟩

theorem Grows.note
    (h : Grows r log log')
    {notes : List (Note A)}
    (hOther : notes.filterMap (Note.write? r) = []) :
    Grows r log (log' ++ notes) := by
  rcases h with ⟨earlier, rfl, hEarlier⟩
  refine ⟨earlier ++ notes, List.append_assoc _ _ _, ?_⟩
  rw [List.filterMap_append, hEarlier, hOther]
  rfl

theorem Grows.subset (h : Grows r log log') :
    log ⊆ log' := by
  rcases h with ⟨notes, rfl, -⟩
  exact List.subset_append_left _ _

theorem BrokeDown.later
    (h : BrokeDown r log)
    (hLater : log ⊆ log') :
    BrokeDown r log' := by
  rcases h with ⟨n, e, hEnded, hBreaks⟩
  exact ⟨n, e, List.filterMap_subset _ hLater hEnded, hBreaks⟩

theorem Grows.writes_eq (h : Grows r log log') :
    writes r log' = writes r log := by
  rcases h with ⟨notes, rfl, hOther⟩
  rw [writes, List.filterMap_append, hOther, List.append_nil]
  rfl

end Wire

/-
  How a link was lost while a request was being sent on it,
  of which these are the frames.
-/
inductive Severed
    (retries n : Nat)
    (r : Request)
    (plan : List (List UInt8))
    (log : List (Note A)) : Prop where
  /- All of it is out; the loss came in as an answer. -/
  | unanswered
      (hThrough :
        Write.Through retries (Wire.writes r log) plan)
      (hLost : .heard n (.request r) .lost ∈ log)
  /- A frame was denied, the ones before it accepted. -/
  | denied
      {earlier last : List Write}
      {frames rest : List (List UInt8)}
      {frame : List UInt8}
      (hWrites : Wire.writes r log = earlier ++ last)
      (hThrough : Write.Through retries earlier frames)
      (hDenied : Write.Denied retries frame last)
      (hPlan : plan = frames ++ frame :: rest)

variable {retries n : Nat} {r : Request}
variable {plan : List (List UInt8)}
variable {log log' : List (Note A)}

theorem Severed.later
    (h : Severed retries n r plan log)
    (hGrows : Wire.Grows r log log') :
    Severed retries n r plan log' := by
  cases h with
  | unanswered hThrough hLost =>
      rw [← hGrows.writes_eq] at hThrough
      exact .unanswered hThrough (hGrows.subset hLost)
  | denied hWrites hThrough hDenied hPlan =>
      rw [← hGrows.writes_eq] at hWrites
      exact .denied hWrites hThrough hDenied hPlan

/-
  Nothing was accepted exactly if the first frame was denied.
-/
theorem Severed.onWire_eq_nil_iff
    (h : Severed retries n r plan log)
    (hPlan : plan ≠ []) :
    Wire.onWire r log = [] ↔
      ∃ frame rest,
        plan = frame :: rest ∧
          Write.Denied retries frame (Wire.writes r log) := by
  unfold Wire.onWire
  constructor
  · intro hNone
    cases h with
    | unanswered hThrough hLost =>
        exact absurd (hThrough.accepted.symm.trans hNone) hPlan
    | denied hWrites hThrough hDenied hSplit =>
        rename_i earlier last frames rest frame
        rw [hWrites, List.filterMap_append, hThrough.accepted,
          hDenied.accepted, List.append_nil] at hNone
        subst hNone
        rw [hThrough.eq_nil] at hWrites
        exact ⟨frame, rest, hSplit, hWrites ▸ hDenied⟩
  · rintro ⟨frame, rest, -, hDenied⟩
    exact hDenied.accepted

end Logs

------------------------------------------------------------
-- Machines
------------------------------------------------------------

/- What was tried so far of a frame that is being written. -/
def FrameWrite.Tries
    (retries : Nat)
    (writes : List Write)
    (f : FrameWrite) : Prop :=
  f.attempt ≤ retries ∧
    Write.InVain f.frame writes f.attempt

def Exchange.Phase.Tries
    (retries : Nat)
    (writes : List Write) : Exchange.Phase → Prop
  | .writing _ f => f.Tries retries writes
  | _ => writes = []

/-
  Of the frames that are planned, some have been accepted,
  and the exchange is to write the rest.
-/
def Exchange.Sends
    (retries : Nat)
    (s : Slicer)
    (plan : List (List UInt8))
    (writes : List Write)
    (x : Exchange) : Prop :=
  ∃ earlier vain frames,
    writes = earlier ++ vain ∧
      Write.Through retries earlier frames ∧
        plan = frames ++ x.todo s ∧
          x.phase.Tries retries vain

/- Whoever reads has nothing left to write. -/
theorem Exchange.Sends.through_of_reading
    {retries : Nat}
    {s : Slicer}
    {plan : List (List UInt8)}
    {writes : List Write}
    {apdu : Apdu}
    {deadline : Nat}
    {asked : Asked}
    (hSends :
      Sends retries s plan writes
        ⟨apdu, deadline, .reading asked⟩) :
    Write.Through retries writes plan := by
  rcases hSends with
    ⟨earlier, vain, frames, rfl, hThrough, rfl, hNone⟩
  cases hNone
  simpa [todo] using hThrough

section Machines

variable {W L A : Type}
variable (c : Connector W L)
variable (policy : WritePolicy) (now : Nat)

/-
  A frame is accepted, or denied, or tried in vain once more.
-/
theorem FrameWrite.step_writes
    (r : Request)
    (l : Nat × L)
    {f : FrameWrite}
    {t : Taped W A}
    {earlier vain : List Write}
    (hWrites : Wire.writes r t.log = earlier ++ vain)
    (hTries : f.Tries policy.retries vain) :
    match FrameWrite.step (c.taped A (.request r)) policy l now
        f t with
    | (.done (.ok _), t') =>
        Wire.writes r t'.log =
          earlier ++ (vain ++ [(f.frame, some (.ok ()))])
    | (.done (.error _), t') =>
        ∃ last,
          Wire.writes r t'.log = earlier ++ last ∧
            Write.Denied policy.retries f.frame last
    | (.go f', t') =>
        f'.frame = f.frame ∧
          ∃ vain',
            Wire.writes r t'.log = earlier ++ vain' ∧
              f'.Tries policy.retries vain'
    | (.wait f', t') =>
        f'.frame = f.frame ∧
          ∃ vain',
            Wire.writes r t'.log = earlier ++ vain' ∧
              f'.Tries policy.retries vain' := by
  rcases hTries with ⟨hFew, hVain⟩
  unfold step
  cases hPause : f.pausedUntil with
  | some due =>
      simp only [Turn.pause]
      by_cases hDue : due ≤ now
      · rw [if_pos hDue]
        exact ⟨rfl, vain, hWrites, hFew, hVain⟩
      · rw [if_neg hDue]
        exact ⟨rfl, vain, hWrites, hFew, hVain⟩
  | none =>
      rw [Connector.taped_write]
      rcases c.write f.asked l.2 f.frame t.world with ⟨answer, v⟩
      have hTried :
          Wire.writes r
              ((t.put v).note
                [.wrote l.1 (.request r) f.frame answer]).log =
            earlier ++ (vain ++ [(f.frame, answer)]) := by
        rw [Taped.note_log, Taped.put_log, Wire.writes,
          List.filterMap_append, ← List.append_assoc, ← hWrites]
        simp [Note.write?, Wire.writes]
      rcases answer with - | (e | u)
      · exact ⟨rfl, _, hTried, hFew, hVain.pending⟩
      · by_cases hMore : f.attempt < policy.retries
        · cases e with
          | disconnected =>
              exact ⟨_, hTried, .gone hVain hFew⟩
          | _ =>
              simp only [if_pos hMore]
              exact ⟨trivial, _, hTried, hMore,
                hVain.refused (by simp)⟩
        · cases e with
          | disconnected =>
              exact ⟨_, hTried, .gone hVain hFew⟩
          | _ =>
              have hLast : f.attempt = policy.retries := by
                omega
              rw [hLast] at hVain
              simp only [if_neg hMore]
              exact ⟨_, hTried,
                .refused (hVain.refused (by simp))⟩
      · exact hTried

/-
  What a step of the exchange for a request leaves: the rest
  of its frames, unless it has ended.  If the link was lost
  with it, it was severed.
-/
def Exchange.LeavesSent
    (r : Request)
    (retries : Nat)
    (s : Slicer)
    (plan : List (List UInt8))
    (n : Nat) :
    Result × HostEnd (Nat × L) × Taped W A → Prop
  | (.done outcome, _, t) =>
      (Driver.settle r outcome).1 =
          .error .disconnectedWhileSending →
        Severed retries n r plan t.log
  | (.go x, e, t) =>
      e.On n s ∧
        x.Sends retries s plan (Wire.writes r t.log)
  | (.wait x, e, t) =>
      e.On n s ∧
        x.Sends retries s plan (Wire.writes r t.log)

section Exchanges

variable {r : Request} {s : Slicer} {n : Nat}
variable {plan : List (List UInt8)}

theorem Exchange.leavesSent_waiting
    {retries : Nat}
    (x : Exchange)
    {phase : Phase}
    {e : HostEnd (Nat × L)}
    {t : Taped W A}
    (hOn : e.On n s)
    (hSends :
      (x.goto phase).Sends retries s plan
        (Wire.writes r t.log)) :
    LeavesSent r retries s plan n
      (x.waiting now phase, e, t) := by
  unfold waiting Turn.orAt
  by_cases hLate : x.deadline ≤ now
  · simp only [if_pos hLate]
    intro hLost
    cases hLost
  · simp only [if_neg hLate]
    exact ⟨hOn, hSends⟩

/- No frame that comes in is a loss of the link. -/
theorem Exchange.leavesSent_receive
    {retries : Nat}
    (x : Exchange)
    {e : HostEnd (Nat × L)}
    {t : Taped W A}
    (hOn : e.On n s)
    (hSends :
      (x.goto (.reading .first)).Sends retries s plan
        (Wire.writes r t.log))
    (frame : List UInt8) :
    LeavesSent r retries s plan n
      ((x.receive e frame).1, (x.receive e frame).2, t) := by
  rcases hOn with ⟨hLink, a, hCodec⟩
  unfold receive
  by_cases hSize : Mtu.IsSizeFrame frame
  · simp only [if_pos hSize]
    exact ⟨⟨hLink, a, hCodec⟩, hSends⟩
  · simp only [if_neg hSize, hCodec]
    rcases a.feedResponse frame with ⟨answer, a'⟩
    rcases answer with err | (- | response)
    · intro hLost
      cases hLost
    · exact ⟨⟨hLink, a', rfl⟩, hSends⟩
    · intro hLost
      cases hLost

/- To listen on a link is not to try anything. -/
theorem Wire.writes_heard
    (t : Taped W A)
    (v : W)
    (l : Nat)
    (event : Option LinkNotice) :
    Wire.writes r
        ((t.put v).note
          (event.toList.map (.heard l (.request r)))).log =
      Wire.writes r t.log := by
  rw [Taped.note_log, Taped.put_log]
  unfold Wire.writes
  cases event <;> simp [Note.write?]

section Phases

variable {apdu : Apdu} {deadline : Nat}
variable {e : HostEnd (Nat × L)} {t : Taped W A}

/- The next frame has not been tried yet. -/
theorem Exchange.cutting_sends
    {rest : Slices}
    (hOn : e.On n s)
    (hSends :
      Sends policy.retries s plan (Wire.writes r t.log)
        ⟨apdu, deadline, .cutting rest⟩) :
    LeavesSent r policy.retries s plan n
      (Exchange.step (c.taped A (.request r)) policy now
        ⟨apdu, deadline, .cutting rest⟩ e t) := by
  rcases hSends with
    ⟨earlier, vain, frames, hWrites, hThrough, hPlan, hNone⟩
  cases hNone
  simp only [todo] at hPlan
  simp only [step]
  cases hNext : rest.next? with
  | none =>
      rw [Slices.toList_of_none hNext] at hPlan
      exact ⟨hOn, earlier, [], frames, hWrites, hThrough, hPlan,
        rfl⟩
  | some next =>
      rw [Slices.toList_of_next hNext] at hPlan
      exact ⟨hOn, earlier, [], frames, hWrites, hThrough, hPlan,
        Nat.zero_le _, .start⟩

/- A frame gets through, or is tried in vain, or denied. -/
theorem Exchange.writing_sends
    {rest : Slices}
    {f : FrameWrite}
    (hOn : e.On n s)
    (hSends :
      Sends policy.retries s plan (Wire.writes r t.log)
        ⟨apdu, deadline, .writing rest f⟩) :
    LeavesSent r policy.retries s plan n
      (Exchange.step (c.taped A (.request r)) policy now
        ⟨apdu, deadline, .writing rest f⟩ e t) := by
  rcases hSends with
    ⟨earlier, vain, frames, hWrites, hThrough, hPlan, hTries⟩
  simp only [todo] at hPlan
  have hWrite :=
    FrameWrite.step_writes c policy now r e.link hWrites hTries
  simp only [step]
  rcases hStep :
      FrameWrite.step (c.taped A (.request r)) policy e.link now
        f t with
    ⟨turn, t'⟩
  rw [hStep] at hWrite
  rcases turn with f' | f' | (err | u)
  · rcases hWrite with ⟨hSame, vain', hWrites', hTries'⟩
    rw [← hSame] at hPlan
    exact ⟨hOn, earlier, vain', frames, hWrites', hThrough, hPlan,
      hTries'⟩
  · rcases hWrite with ⟨hSame, vain', hWrites', hTries'⟩
    rw [← hSame] at hPlan
    exact leavesSent_waiting now _ hOn
      ⟨earlier, vain', frames, hWrites', hThrough, hPlan,
        hTries'⟩
  · rcases hWrite with ⟨last, hWrites', hDenied⟩
    intro hLost
    exact .denied hWrites' hThrough hDenied hPlan
  · rw [← List.append_nil (earlier ++ _)] at hWrite
    refine ⟨hOn, _, [], frames ++ [f.frame], hWrite,
      hThrough.next hTries.2 hTries.1, ?_, rfl⟩
    rw [hPlan, List.append_assoc]
    rfl

/- All frames are through; the link may still be lost. -/
theorem Exchange.reading_sends
    {asked : Asked}
    (hOn : e.On n s)
    (hSends :
      Sends policy.retries s plan (Wire.writes r t.log)
        ⟨apdu, deadline, .reading asked⟩) :
    LeavesSent r policy.retries s plan n
      (Exchange.step (c.taped A (.request r)) policy now
        ⟨apdu, deadline, .reading asked⟩ e t) := by
  have hAll := hSends.through_of_reading
  simp only [step]
  rw [Connector.taped_event]
  rcases c.event asked e.link.2 t.world with ⟨event, v⟩
  have hHeard :=
    Wire.writes_heard (r := r) t v e.link.1 event
  rcases event with - | (frame | -)
  · apply leavesSent_waiting now _ hOn
    rw [hHeard]
    exact hSends
  · apply leavesSent_receive _ hOn
    rw [hHeard]
    exact hSends
  · intro hLost
    apply Severed.unanswered
    · rw [hHeard]
      exact hAll
    · rw [← hOn.1]
      simp

end Phases

/- An exchange keeps to its frames, or has been severed. -/
theorem Exchange.step_sends
    {x : Exchange}
    {e : HostEnd (Nat × L)}
    {t : Taped W A}
    (hOn : e.On n s)
    (hSends :
      x.Sends policy.retries s plan (Wire.writes r t.log)) :
    LeavesSent r policy.retries s plan n
      (Exchange.step (c.taped A (.request r)) policy now x e
        t) := by
  rcases x with ⟨apdu, deadline, phase⟩
  cases phase with
  | start =>
      rcases hOn with ⟨hLink, a, hCodec⟩
      simp only [step, hCodec]
      exact ⟨⟨hLink, _, rfl⟩, hSends⟩
  | cutting rest => exact cutting_sends c policy now hOn hSends
  | writing rest f => exact writing_sends c policy now hOn hSends
  | reading asked => exact reading_sends c policy now hOn hSends

end Exchanges

end Machines

------------------------------------------------------------
-- Steps of the Driver
------------------------------------------------------------

section Steps

variable {W L A : Type}
variable (c : Connector W L)

/- What is tried for others is not tried for a request. -/
theorem Connector.taped_grows
    {why : Purpose}
    {r : Request}
    (hOther : why ≠ .request r)
    (log : List (Note A)) :
    (c.taped A why).Keeps fun t => Wire.Grows r log t.log where
  reach _ _ h := h
  connect asked t h := by
    simp only [taped]
    split
    · exact h
    · exact h
    · exact h.note rfl
  write asked l frame t h := by
    apply h.note
    cases why with
    | request r' =>
        have hApart : r' ≠ r := fun hSame =>
          hOther (congrArg Purpose.request hSame)
        simp [Note.write?, hApart]
    | _ => rfl
  event asked l t h := by
    apply h.note
    cases (c.event asked l.2 t.world).1 <;> rfl
  close l t h := h.note rfl

namespace Driver

variable {c : Connector W L} {now : Nat}
variable {d : Driver (Nat × L)} {k : Connection}
variable {t : Taped W A} {r : Request}

/- To give a link up is not to try anything. -/
theorem feed_grows
    (why : Purpose)
    (input : LifecycleInput) :
    Wire.Grows r t.log
      (feed (c.taped A why) now input d k t).2.2.log := by
  have hSame : Wire.Grows r t.log t.log := .refl t.log
  have hUp :
      ∀ d : Driver (Nat × L),
        Wire.Grows r t.log
          (d.hungUp (c.taped A why) t).log := by
    intro d
    unfold hungUp
    split
    · exact hSame.note rfl
    · exact hSame
  simp only [feed, arrive, closeLink_eq]
  split
  · exact hSame
  · split
    all_goals repeat' split
    all_goals first | exact hSame | exact hUp _

/-
  A request that comes to be on the link is the first of the
  queue.
-/
theorem taken_of_step
    {W L : Type}
    {c : Connector W L}
    {d d' : Driver L}
    {w : W}
    {x : Exchange}
    (hFits : d.Fits k.state)
    (hFree : d.Free)
    (hNext : d' ∈ (d.step c now k w).1.next?)
    (hJob : d'.job = .exchanging r x) :
    ∃ asked rest timeout,
      d.job = .serving asked ∧ k.queue = r :: rest ∧
        k.callerGone r = false ∧
          d' = d.goto
            (.exchanging r (.ofCommand r.apdu now timeout)) := by
  have hIdle :
      ∀ input (d₀ : Driver L) k₀ w₀,
        d' ∉ (moved (feed c now input d₀ k₀ w₀)).1.next? := by
    intro input d₀ k₀ w₀ hMoved
    have hSame : (feed c now input d₀ k₀ w₀).1 = d' :=
      Option.some.inj hMoved
    rw [← hSame, feed_job] at hJob
    cases hJob
  have hOutcome := step_outcome c now w hFits
  generalize d.step c now k w = result at hOutcome hNext
  cases hOutcome with
  | finish hState => cases hNext
  | take hServing hQueue hGone =>
      rename_i asked r' rest
      cases hNext
      cases hJob
      exact ⟨asked, rest, _, hServing, hQueue, hGone, rfl⟩
  | exchange hBusy =>
      rw [Free, hBusy] at hFree
      cases hFree
  | seek hBusy hStep
  | watch hBusy hLink hQueue hStep
  | probe hBusy hLink hStep =>
      rcases hStep with ⟨-, rfl⟩ | ⟨-, rfl⟩
      all_goals
        cases hNext
        cases hJob
  | bringUp | serve | check =>
      cases hNext
      cases hJob
  | _ => exact absurd hNext (hIdle _ _ _ _)

/-
  What a step leaves of a request that is on the link: it
  goes on, or it has been answered.  If the answer tells of
  a lost link, it was severed.
-/
def LeavesSent
    (d : Driver (Nat × L))
    (k : Connection)
    (r : Request)
    (s : Slicer)
    (plan : List (List UInt8))
    (n : Nat)
    (result : Option (Except ExchangeError Response)) :
    Result (Taped W A) (Nat × L) → Prop
  | (turn, k', t') =>
      (k' = k ∧
        ∃ x' e',
          turn.next? =
              some { d with
                job := .exchanging r x', link := some e' } ∧
            e'.On n s ∧
              x'.Sends k.settings.frameWriteRetries.toNat s
                plan (Wire.writes r t'.log)) ∨
      (∃ d', turn.next? = some d' ∧ d'.job = .idle) ∧
        ∃ a,
          k'.slots = (k.answer r a).slots ∧
            (a = .error .disconnectedWhileSending ↔
              ∃ e, result = some (.error e) ∧
                e.breaksLink = true) ∧
              (a = .error .disconnectedWhileSending →
                Severed k.settings.frameWriteRetries.toNat n r
                  plan t'.log)

variable {s : Slicer} {n : Nat} {plan : List (List UInt8)}

/- Of what breaks a link, callers are told the same. -/
theorem settle_eq_sending_iff
    (r : Request)
    (outcome : Except ExchangeError Response) :
    (settle r outcome).1 = .error .disconnectedWhileSending ↔
      ∃ e, some outcome = some (.error e) ∧
        e.breaksLink = true := by
  rcases outcome with e | x
  · cases e <;> simp [settle, ExchangeError.breaksLink]
  · simp [settle]

/- An input of the lifecycle after the answer. -/
theorem leavesSent_feed
    (why : Purpose)
    (now : Nat)
    (input : LifecycleInput)
    {d₀ : Driver (Nat × L)}
    {k₀ : Connection}
    {result : Option (Except ExchangeError Response)}
    (a : Answer)
    (hSlots : k₀.slots = (k.answer r a).slots)
    (hTold :
      a = .error .disconnectedWhileSending ↔
        ∃ e, result = some (.error e) ∧ e.breaksLink = true)
    (hLost :
      a = .error .disconnectedWhileSending →
        Severed k.settings.frameWriteRetries.toNat n r plan
          t.log) :
    LeavesSent d k r s plan n result
      (moved (feed (c.taped A why) now input d₀ k₀ t)) := by
  right
  refine ⟨⟨_, rfl, feed_job _ now input d₀ k₀ t⟩, a, ?_, hTold,
    fun hSame => (hLost hSame).later (feed_grows why input)⟩
  · rcases feed_connection (c.taped A why) now input d₀ k₀ t
      with
      ⟨events, hk⟩
    exact (congrArg Connection.slots hk).trans hSlots

theorem step_sends
    (now : Nat)
    {x : Exchange}
    {e : HostEnd (Nat × L)}
    (hJob : d.job = .exchanging r x)
    (hLink : d.link = some e)
    (hOn : e.On n s)
    (hSends :
      x.Sends k.settings.frameWriteRetries.toNat s plan
        (Wire.writes r t.log)) :
    LeavesSent d k r s plan n
      (d.result? (c.taped A (.request r)) now k t)
      (d.step (c.taped A (.request r)) now k t) := by
  have hWorked :=
    Exchange.step_sends c (.ofSettings k.settings) now hOn
      hSends
  rcases d with ⟨link, job, failure⟩
  cases hJob
  cases hLink
  simp only [step]
  by_cases hClosing : k.closing = true
  · have hNone :
        result? (c.taped A (.request r)) now
            ⟨some e, .exchanging r x, failure⟩ k t =
          none := by
      rw [result?, hClosing]
    rw [if_pos hClosing, hNone]
    exact leavesSent_feed _ now _ (.error .terminated) rfl
      (by simp) (by simp)
  · rw [if_neg hClosing]
    simp only [work]
    rcases hStep :
        Exchange.step (c.taped A (.request r))
          (.ofSettings k.settings) now x e t
      with ⟨turn, e', t'⟩
    rw [hStep] at hWorked
    cases turn with
    | go x' => exact .inl ⟨rfl, x', e', rfl, hWorked⟩
    | wait x' => exact .inl ⟨rfl, x', e', rfl, hWorked⟩
    | done outcome =>
        apply leavesSent_feed _ now _ _ rfl _ hWorked
        rw [result?_eq _ (by simpa using hClosing) rfl rfl
          hStep]
        exact settle_eq_sending_iff r outcome

end Driver

end Steps

end DeviceSession
