import DeviceSession.Proofs.Framing.Slices
import DeviceSession.Proofs.Run.Severance
import Mathlib.Data.List.Nodup

/-
  Refusals of frames, and how many there are in a row.

  The writes of an exchange go through the frames of its
  command in order.  A frame may be refused a few times
  before it is accepted, or once too often, or it is found
  that the link is gone.  No two frames of a command are the
  same, so that the writes of one can be counted.

  Key definitions include:
    * `Write.streak`
    * `Write.Exhausts`
    * `Write.attempts`
    * `Write.Along`

  Main declarations:
    * `Slicer.nodup_command`
    * `Write.Steady.not_exhausts`
    * `Write.Along.accepted_prefix`
    * `Write.Along.attempts_le`
-/

------------------------------------------------------------
-- Frames That Are Told Apart
------------------------------------------------------------

namespace DeviceSession

namespace Slices

/-
  The index of a frame does not wrap before the message is
  out.
-/
theorem toNat_advance_index
    {x : Slices}
    (hBound : x.index.toNat + x.rest.length < 65536)
    (hMore : x.capacity < x.rest.length) :
    x.advance.index.toNat = x.index.toNat + 1 ∧
      x.advance.index.toNat + x.advance.rest.length < 65536 := by
  have hPos := x.capacity_pos
  have hIndex : x.advance.index.toNat = x.index.toNat + 1 := by
    rw [advance_index, UInt16.toNat_add]
    simp only [UInt16.toNat_one]
    omega
  have hRest :
      x.advance.rest.length = x.rest.length - x.capacity :=
    List.length_drop
  exact ⟨hIndex, by omega⟩

/- The frames still to be cut are numbered from here on. -/
theorem index_le_of_mem
    {x : Slices}
    {frame : List UInt8}
    (hBound : x.index.toNat + x.rest.length < 65536)
    (hFrame : frame ∈ x.toList) :
    ∃ i body,
      Assembler.openFrame x.slicer.profile frame =
        .ok (i, body) ∧
      x.index.toNat ≤ i.toNat := by
  cases hFinished : x.finished with
  | true => simp [hFinished] at hFrame
  | false =>
      rw [toList_of_unfinished hFinished] at hFrame
      rcases List.mem_cons.mp hFrame with rfl | hLater
      · exact ⟨_, _, x.openFrame_frame, Nat.le_refl _⟩
      · by_cases hMore : x.capacity < x.rest.length
        · obtain ⟨hIndex, hBound'⟩ :=
            toNat_advance_index hBound hMore
          obtain ⟨i, body, hOpen, hLe⟩ :=
            index_le_of_mem hBound' hLater
          exact ⟨i, body, hOpen, by omega⟩
        · have hLast := x.advance_finished_iff.mpr
            (Nat.le_of_not_lt hMore)
          simp [hLast] at hLater
termination_by x.rest.length
decreasing_by
  have hPos := x.capacity_pos
  simp only [advance, List.length_drop]
  omega

/- So no two frames of a message are the same. -/
theorem nodup_toList
    {x : Slices}
    (hBound : x.index.toNat + x.rest.length < 65536) :
    x.toList.Nodup := by
  cases hFinished : x.finished with
  | true => simp [hFinished]
  | false =>
      rw [toList_of_unfinished hFinished, List.nodup_cons]
      by_cases hMore : x.capacity < x.rest.length
      · obtain ⟨hIndex, hBound'⟩ :=
          toNat_advance_index hBound hMore
        refine ⟨?_, nodup_toList hBound'⟩
        intro hAgain
        obtain ⟨i, body, hOpen, hLe⟩ :=
          index_le_of_mem hBound' hAgain
        rw [advance_slicer, x.openFrame_frame] at hOpen
        cases hOpen
        omega
      · have hLast := x.advance_finished_iff.mpr
          (Nat.le_of_not_lt hMore)
        simp [hLast]
termination_by x.rest.length
decreasing_by
  have hPos := x.capacity_pos
  simp only [advance, List.length_drop]
  omega

end Slices

/- No two frames of a command are the same. -/
theorem Slicer.nodup_command (s : Slicer) (a : Apdu) :
    (s.command a).toList.Nodup := by
  have hData := a.data_le
  have hLength := a.length_encode
  apply Slices.nodup_toList
  simp only [Apdu.encodedLength, Apdu.headerLength, maxPayload,
    command, Slices.ofMessage] at *
  rw [hLength]
  simp
  omega

/- Even the shortest command is a frame. -/
theorem Slicer.command_ne_nil (s : Slicer) (a : Apdu) :
    (s.command a).toList ≠ [] := by
  rw [Slices.toList_of_unfinished rfl]
  exact List.cons_ne_nil _ _

------------------------------------------------------------
-- Refusals in a Row
------------------------------------------------------------

namespace Write

/- The refusals in a row, after one more write. -/
def countOn (count : Nat) : Write → Nat
  | (_, none) => count
  | (_, some (.ok _)) => 0
  | (_, some (.error .disconnected)) => count
  | (_, some (.error _)) => count + 1

/- How many refusals in a row there are at the end. -/
def streak (writes : List Write) : Nat :=
  writes.foldl countOn 0

/- There are never more refusals in a row than that. -/
def Steady (retries : Nat) (writes : List Write) : Prop :=
  ∀ part, part <+: writes → streak part ≤ retries

/-
  Some frame was refused once more in a row than it may be
  repeated.
-/
def Exhausts (retries : Nat) (writes : List Write) : Prop :=
  ∃ earlier frame vain,
    earlier ++ vain <+: writes ∧
      InVain frame vain (retries + 1)

/- A write that finds the link gone. -/
def IsGone (x : Write) : Prop :=
  x.2 = some (.error .disconnected)

variable {retries count : Nat} {frame : List UInt8}
variable {frames : List (List UInt8)}
variable {writes earlier vain : List Write}

/- Refusals are counted from one write to the next. -/
theorem streak_concat (writes : List Write) (x : Write) :
    streak (writes ++ [x]) = countOn (streak writes) x :=
  List.foldl_concat ..

/- A frame tried in vain adds its refusals. -/
theorem InVain.streak_append
    (hVain : InVain frame vain count)
    (earlier : List Write) :
    streak (earlier ++ vain) = streak earlier + count := by
  induction hVain with
  | start => simp
  | pending hVain ih =>
      rw [← List.append_assoc, streak_concat, ih]
      rfl
  | @refused vain count e hVain hThere ih =>
      rw [← List.append_assoc, streak_concat, ih]
      cases e <;> first | exact absurd rfl hThere | rfl

/- What was steady stays so, if the last streak is short. -/
theorem Steady.concat
    {x : Write}
    (hSteady : Steady retries writes)
    (hLast : streak (writes ++ [x]) ≤ retries) :
    Steady retries (writes ++ [x]) := by
  intro part hPart
  rcases List.prefix_concat_iff.mp hPart with rfl | hEarlier
  · exact hLast
  · exact hSteady part hEarlier

/- A frame may be tried in vain as long as that. -/
theorem InVain.steady
    (hVain : InVain frame vain count)
    (hEarlier : Steady retries earlier)
    (hFew : streak earlier + count ≤ retries) :
    Steady retries (earlier ++ vain) := by
  induction hVain with
  | start => simpa using hEarlier
  | pending hVain ih =>
      rw [← List.append_assoc]
      apply (ih hFew).concat
      rwa [List.append_assoc, (hVain.pending).streak_append]
  | refused hVain hThere ih =>
      rw [← List.append_assoc]
      apply (ih (by omega)).concat
      rwa [List.append_assoc, (hVain.refused hThere).streak_append]

/- An accepted write ends every streak. -/
theorem Through.streak_eq_zero
    (hThrough : Through retries writes frames) :
    streak writes = 0 := by
  cases hThrough with
  | start => rfl
  | next hThrough hVain hFew =>
      rw [← List.append_assoc, streak_concat]
      rfl

/- Frames that got through were not refused too often. -/
theorem Through.steady
    (hThrough : Through retries writes frames) :
    Steady retries writes := by
  induction hThrough with
  | start =>
      intro part hPart
      rw [List.prefix_nil.mp hPart]
      exact Nat.zero_le _
  | next hThrough hVain hFew ih =>
      rw [← List.append_assoc]
      apply Steady.concat
      · apply hVain.steady ih
        rw [hThrough.streak_eq_zero]
        omega
      · rw [streak_concat]
        exact Nat.zero_le _

/- Steady and exhausting exclude each other. -/
theorem Steady.not_exhausts
    (hSteady : Steady retries writes) :
    ¬ Exhausts retries writes := by
  rintro ⟨earlier, frame, vain, hPrefix, hVain⟩
  have hFew := hSteady _ hPrefix
  rw [hVain.streak_append] at hFew
  omega

/- Who was refused so often was refused. -/
theorem InVain.exists_error
    (hVain : InVain frame vain count)
    (hOnce : count ≠ 0) :
    ∃ e, (frame, some (.error e)) ∈ vain := by
  induction hVain with
  | start => exact absurd rfl hOnce
  | pending hVain ih =>
      obtain ⟨e, hMem⟩ := ih hOnce
      exact ⟨e, List.mem_append_left _ hMem⟩
  | @refused vain count e hVain hThere ih =>
      exact ⟨e, List.mem_append_right _ (List.mem_singleton_self _)⟩

/- Without a refusal nothing is exhausted. -/
theorem Exhausts.exists_error
    (hExhausts : Exhausts retries writes) :
    ∃ x ∈ writes, ∃ e, x.2 = some (.error e) := by
  obtain ⟨earlier, frame, vain, hPrefix, hVain⟩ := hExhausts
  obtain ⟨e, hMem⟩ := hVain.exists_error (Nat.succ_ne_zero _)
  exact ⟨_, hPrefix.subset (List.mem_append_right _ hMem), e, rfl⟩

/- To be tried in vain is not to find the link gone. -/
theorem InVain.not_gone
    (hVain : InVain frame vain count) :
    ∀ x ∈ vain, ¬ IsGone x := by
  induction hVain with
  | start => simp
  | pending hVain ih =>
      simpa [or_imp, forall_and, IsGone] using ih
  | refused hVain hThere ih =>
      simpa [or_imp, forall_and, IsGone, hThere] using ih

/- Nor is to get through. -/
theorem Through.not_gone
    (hThrough : Through retries writes frames) :
    ∀ x ∈ writes, ¬ IsGone x := by
  induction hThrough with
  | start => simp
  | next hThrough hVain hFew ih =>
      intro x hMem
      rcases List.mem_append.mp hMem with hOld | hNew
      · exact ih x hOld
      · rcases List.mem_append.mp hNew with hTried | hLast
        · exact hVain.not_gone x hTried
        · obtain rfl := List.mem_singleton.mp hLast
          simp [IsGone]

------------------------------------------------------------
-- Attempts at a Frame
------------------------------------------------------------

/- How often a frame was tried, and an answer came. -/
def attempts (frame : List UInt8) (writes : List Write) : Nat :=
  writes.countP fun x => x.1 == frame && x.2.isSome

/- Attempts are counted in parts. -/
theorem attempts_append (frame : List UInt8) (a b : List Write) :
    attempts frame (a ++ b) =
      attempts frame a + attempts frame b :=
  List.countP_append

/- One write with an answer is one attempt at its frame. -/
theorem attempts_singleton
    (frame frame' : List UInt8)
    (answer : Except LinkError Unit) :
    attempts frame [(frame', some answer)] =
      if frame' = frame then 1 else 0 := by
  simp [attempts, List.countP_singleton]

/- A frame tried in vain was refused each time. -/
theorem InVain.attempts
    (hVain : InVain frame vain count)
    (frame' : List UInt8) :
    attempts frame' vain = if frame = frame' then count else 0 := by
  induction hVain with
  | start => simp [Write.attempts]
  | pending hVain ih =>
      rw [attempts_append, ih]
      simp [Write.attempts]
  | refused hVain hThere ih =>
      rw [attempts_append, ih, attempts_singleton]
      split <;> rfl

/- Each time it got through, a frame was tried that often. -/
theorem Through.attempts_le
    (hThrough : Through retries writes frames)
    (frame : List UInt8) :
    attempts frame writes ≤ (retries + 1) * frames.count frame := by
  induction hThrough with
  | start => simp [attempts]
  | @next writes vain frames frame' count hThrough hVain hFew ih =>
      rw [attempts_append, attempts_append, hVain.attempts,
        attempts_singleton, List.count_append,
        List.count_singleton, Nat.mul_add]
      by_cases hSame : frame' = frame
      · simp only [hSame, if_true, beq_self_eq_true]
        omega
      · simp [hSame]
        exact ih

------------------------------------------------------------
-- Frames in Order
------------------------------------------------------------

/- A frame was tried, not too often, and not accepted. -/
def Fruitless
    (retries : Nat)
    (frame : List UInt8)
    (writes : List Write) : Prop :=
  (∃ count, InVain frame writes count ∧ count ≤ retries) ∨
    Denied retries frame writes

/- Nothing of it is on the wire. -/
theorem Fruitless.accepted
    (hFruitless : Fruitless retries frame writes) :
    writes.filterMap accepted? = [] := by
  rcases hFruitless with ⟨count, hVain, -⟩ | hDenied
  · exact hVain.accepted
  · exact hDenied.accepted

/- It was tried once more than it may be repeated, at most. -/
theorem Fruitless.attempts_le
    (hFruitless : Fruitless retries frame writes)
    (frame' : List UInt8) :
    attempts frame' writes ≤
      (retries + 1) * if frame = frame' then 1 else 0 := by
  have hVain : ∀ {vain count},
      InVain frame vain count → count ≤ retries + 1 →
      attempts frame' vain ≤
        (retries + 1) * if frame = frame' then 1 else 0 := by
    intro vain count hVain hFew
    rw [hVain.attempts]
    split <;> simp [hFew]
  rcases hFruitless with ⟨count, hTried, hFew⟩ | hDenied
  · exact hVain hTried (Nat.le_succ_of_le hFew)
  · cases hDenied with
    | refused hTried => exact hVain hTried (Nat.le_refl _)
    | gone hTried hFew =>
        rw [attempts_append, hTried.attempts, attempts_singleton]
        split <;> simp [hFew]

/-
  The frames of a plan are tried in order.  Some have been
  accepted, and the one after them may have been tried.
-/
inductive Along
    (retries : Nat)
    (plan : List (List UInt8)) : List Write → Prop where
  | between
      {writes : List Write}
      {frames rest : List (List UInt8)}
      (hThrough : Through retries writes frames)
      (hPlan : plan = frames ++ rest) :
      Along retries plan writes
  | within
      {earlier last : List Write}
      {frames rest : List (List UInt8)}
      {frame : List UInt8}
      (hThrough : Through retries earlier frames)
      (hFruitless : Fruitless retries frame last)
      (hPlan : plan = frames ++ frame :: rest) :
      Along retries plan (earlier ++ last)

variable {plan : List (List UInt8)}

/- What has been accepted are the first frames. -/
theorem Along.accepted_prefix (hAlong : Along retries plan writes) :
    writes.filterMap accepted? <+: plan := by
  cases hAlong with
  | between hThrough hPlan =>
      rw [hThrough.accepted, hPlan]
      exact List.prefix_append _ _
  | within hThrough hFruitless hPlan =>
      rw [List.filterMap_append, hThrough.accepted,
        hFruitless.accepted, List.append_nil, hPlan]
      exact List.prefix_append _ _

/-
  No frame is tried more than once more than it may be
  repeated.
-/
theorem Along.attempts_le
    (hAlong : Along retries plan writes)
    (hOnce : plan.Nodup)
    (frame : List UInt8) :
    attempts frame writes ≤ retries + 1 := by
  have hCount : plan.count frame ≤ 1 :=
    List.nodup_iff_count_le_one.mp hOnce frame
  have hTotal : attempts frame writes ≤
      (retries + 1) * plan.count frame := by
    cases hAlong with
    | between hThrough hPlan =>
        apply Nat.le_trans (hThrough.attempts_le frame)
        apply Nat.mul_le_mul_left
        rw [hPlan, List.count_append]
        exact Nat.le_add_right _ _
    | @within earlier last frames rest frame' hThrough hFruitless
        hPlan =>
        have hFirst := hThrough.attempts_le frame
        have hLast := hFruitless.attempts_le frame
        have hParts : frames.count frame +
            (if frame' = frame then 1 else 0) ≤
              plan.count frame := by
          rw [hPlan, List.count_append, List.count_cons]
          simp only [beq_iff_eq]
          omega
        rw [attempts_append]
        calc attempts frame earlier + attempts frame last
          _ ≤ (retries + 1) * (frames.count frame +
                if frame' = frame then 1 else 0) := by
            rw [Nat.mul_add]
            omega
          _ ≤ (retries + 1) * plan.count frame :=
            Nat.mul_le_mul_left _ hParts
  calc attempts frame writes
    _ ≤ (retries + 1) * plan.count frame := hTotal
    _ ≤ (retries + 1) * 1 := Nat.mul_le_mul_left _ hCount
    _ = retries + 1 := Nat.mul_one _

end Write

namespace Exchange.Sends

variable {retries : Nat} {s : Slicer} {x : Exchange}
variable {plan : List (List UInt8)} {writes : List Write}

/- An exchange that goes on has tried frames in order. -/
theorem along (hSends : x.Sends retries s plan writes) :
    Write.Along retries plan writes := by
  obtain ⟨earlier, vain, frames, rfl, hThrough, hPlan, hTries⟩ :=
    hSends
  rcases x with ⟨apdu, deadline, phase⟩
  cases phase with
  | writing rest f =>
      exact .within hThrough (.inl ⟨_, hTries.2, hTries.1⟩) hPlan
  | start | cutting | reading =>
      have hNone : vain = [] := hTries
      rw [hNone, List.append_nil]
      exact .between hThrough hPlan

/- An exchange under way has not been refused too often. -/
theorem steady (hSends : x.Sends retries s plan writes) :
    Write.Steady retries writes := by
  obtain ⟨earlier, vain, frames, rfl, hThrough, hPlan, hTries⟩ :=
    hSends
  rcases x with ⟨apdu, deadline, phase⟩
  cases phase with
  | writing rest f =>
      apply hTries.2.steady hThrough.steady
      rw [hThrough.streak_eq_zero]
      have hFew := hTries.1
      omega
  | start | cutting | reading =>
      have hNone : vain = [] := hTries
      rw [hNone, List.append_nil]
      exact hThrough.steady

/- Nor has it found the link gone. -/
theorem not_gone (hSends : x.Sends retries s plan writes) :
    ∀ y ∈ writes, ¬ y.IsGone := by
  obtain ⟨earlier, vain, frames, rfl, hThrough, hPlan, hTries⟩ :=
    hSends
  intro y hMem
  rcases List.mem_append.mp hMem with hOld | hNew
  · exact hThrough.not_gone y hOld
  · rcases x with ⟨apdu, deadline, phase⟩
    cases phase with
    | writing rest f => exact hTries.2.not_gone y hNew
    | start | cutting | reading =>
        have hNone : vain = [] := hTries
        simp [hNone] at hNew

/- What has been accepted is what is not to be written. -/
theorem accepted_append_todo
    (hSends : x.Sends retries s plan writes) :
    plan = writes.filterMap Write.accepted? ++ x.todo s := by
  obtain ⟨earlier, vain, frames, rfl, hThrough, hPlan, hTries⟩ :=
    hSends
  have hNone : vain.filterMap Write.accepted? = [] := by
    rcases x with ⟨apdu, deadline, phase⟩
    cases phase with
    | writing rest f => exact hTries.2.accepted
    | start | cutting | reading =>
        have hNil : vain = [] := hTries
        rw [hNil]
        rfl
  rw [List.filterMap_append, hThrough.accepted, hNone,
    List.append_nil]
  exact hPlan

end Exchange.Sends

end DeviceSession
