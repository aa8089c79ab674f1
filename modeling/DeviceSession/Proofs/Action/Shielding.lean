import DeviceSession.Proofs.Action.Lineage

/-
  Tokens that are shielded by a handle that was dropped.

  The same operations are done twice, once as they are and
  once without those that let go of a handle.  If no handle
  is let go of, a token is cancelled exactly if it, or one
  that it descends from, was told to.  Otherwise a
  cancellation does not get past a token without handles,
  and what descends from that one is shielded.

  Children are not shielded from their own parent: there is
  always a third token in between.

  Key definitions include:
    * `TokenTable.undropped`
    * `TokenTable.Proper`
    * `TokenTable.Hit`
    * `TokenTable.Descends`
    * `TokenTable.Unbroken`
    * `TokenTable.Shielded`
    * `TokenTable.Alike`

  Main declarations:
    * `TokenTable.isCancelled_iff_unbroken`
    * `TokenTable.alike_undropped`
    * `TokenTable.isCancelled_undropped_iff`
    * `TokenTable.shielded_iff`
-/

------------------------------------------------------------
-- Earlier and Later
------------------------------------------------------------

namespace DeviceSession

namespace TokenTable

section earlier

variable {before steps : List TokenStep} {s : TokenStep}
variable {p c t : Nat}

theorem Happened.of_earlier
    {P : List TokenStep → TokenStep → Prop}
    (hHappened : Happened before P)
    (hPrefix : before <+: steps) :
    Happened steps P := by
  obtain ⟨rest, rfl⟩ := hPrefix
  exact hHappened.later rest

/- No token disappears. -/
theorem size_le_concat (steps : List TokenStep) (s : TokenStep) :
    (after steps).forest.tokens.size ≤
      (after (steps ++ [s])).forest.tokens.size := by
  rw [after_concat]
  cases (counted_after steps).change s with
  | derives p _ _ _ _ hForest _ =>
      rw [hForest, TokenForest.size_child]
      exact Nat.le_succ _
  | cancels a _ _ _ _ hForest _ =>
      rw [hForest]
      exact Nat.le_of_eq
        ((after steps).forest.closes_cancel a).size.symm
  | registers a w _ _ _ _ _ hForest _ =>
      rw [hForest]
      exact ((after steps).forest.keeps_poll a w).size
  | keeps _ _ _ hKeeps _ _ => exact hKeeps.size

theorem size_le_of_earlier (hPrefix : before <+: steps) :
    (after before).forest.tokens.size ≤
      (after steps).forest.tokens.size := by
  obtain ⟨rest, rfl⟩ := hPrefix
  induction rest using List.reverseRecOn with
  | nil => simp
  | append_singleton rest s ih =>
      rw [← List.append_assoc]
      exact Nat.le_trans ih (size_le_concat _ s)

/- A token that nobody holds is not held again. -/
theorem holds_of_concat
    (hOld : t < (after steps).forest.tokens.size)
    (hHolds : (after (steps ++ [s])).Holds t) :
    (after steps).Holds t := by
  rw [← (counted_after _).isHeld_iff] at hHolds ⊢
  rw [after_concat] at hHolds
  cases (counted_after steps).change s with
  | derives p _ _ _ _ hForest _ =>
      rwa [hForest,
        TokenForest.isHeld_child_of_ne (Nat.ne_of_lt hOld)]
        at hHolds
  | cancels a _ _ _ _ hForest _ =>
      rwa [hForest, ((after steps).forest.closes_cancel a).held]
        at hHolds
  | registers a w _ _ _ _ _ hForest _ =>
      rw [hForest] at hHolds
      exact ((after steps).forest.keeps_poll a w).held t hOld hHolds
  | keeps _ _ _ hKeeps _ _ => exact hKeeps.held t hOld hHolds

theorem holds_of_earlier
    (hPrefix : before <+: steps)
    (hOld : t < (after before).forest.tokens.size)
    (hHolds : (after steps).Holds t) :
    (after before).Holds t := by
  obtain ⟨rest, rfl⟩ := hPrefix
  induction rest using List.reverseRecOn with
  | nil => simpa using hHolds
  | append_singleton rest s ih =>
      rw [← List.append_assoc] at hHolds
      have hStill := size_le_of_earlier (List.prefix_append before rest)
      exact ih (holds_of_concat (Nat.lt_of_lt_of_le hOld hStill) hHolds)

/- A token that was there already had been derived by then. -/
theorem Derived.of_lt
    (hDerived : Derived steps p c)
    (hPrefix : before <+: steps)
    (hOld : c < (after before).forest.tokens.size) :
    Derived before p c := by
  obtain ⟨past, s, hPast, hDerives⟩ := hDerived
  have hNew : (after past).forest.tokens.size = c := by
    obtain ⟨_, _, _, hNew⟩ := hDerives
    exact hNew
  refine ⟨past, s, ?_, hDerives⟩
  rcases List.prefix_or_prefix_of_prefix hPast hPrefix with
    hEarly | hLate
  · exact hEarly
  · rcases List.prefix_concat_iff.mp hLate with rfl | hBefore
    · exact List.prefix_refl _
    · have hGrows := size_le_of_earlier hBefore
      omega

end earlier

------------------------------------------------------------
-- Descent
------------------------------------------------------------

/-
  A token was derived from another one, through any number of
  tokens in between.
-/
def Descends (steps : List TokenStep) (a t : Nat) : Prop :=
  Relation.ReflTransGen (Derived steps) a t

section descends

variable {before steps : List TokenStep}
variable {a m t : Nat}

theorem Descends.le (hDescends : Descends steps a t) : a ≤ t := by
  induction hDescends with
  | refl => exact Nat.le_refl a
  | tail above hDerived ih =>
      have hLater := ((kin_after steps).later _ _ hDerived).1
      omega

theorem Descends.lt_size
    (hDescends : Descends steps a t)
    (hThere : a < (after steps).forest.tokens.size) :
    t < (after steps).forest.tokens.size := by
  cases hDescends with
  | refl => exact hThere
  | tail above hDerived =>
      exact ((kin_after steps).later _ _ hDerived).2

theorem Descends.of_earlier
    (hDescends : Descends before a t)
    (hPrefix : before <+: steps) :
    Descends steps a t :=
  Relation.ReflTransGen.mono
    (fun _ _ hDerived => Happened.of_earlier hDerived hPrefix)
    _ _ hDescends

theorem Descends.of_lt
    (hDescends : Descends steps a t)
    (hPrefix : before <+: steps)
    (hOld : t < (after before).forest.tokens.size) :
    Descends before a t := by
  induction hDescends with
  | refl => exact .refl
  | tail above hDerived ih =>
      have hLater := ((kin_after steps).later _ _ hDerived).1
      exact (ih (Nat.lt_trans hLater hOld)).tail
        (hDerived.of_lt hPrefix hOld)

/- What a token descends from, but for itself, its parent does. -/
theorem Descends.parent
    {p c : Nat}
    (hDescends : Descends steps m c)
    (hDerived : Derived steps p c) :
    m = c ∨ Descends steps m p := by
  cases hDescends with
  | refl => exact .inl rfl
  | tail above hDerived' =>
      obtain rfl := (kin_after steps).parent _ _ _ hDerived hDerived'
      exact .inr above

/- Every token on a way down is held. -/
theorem Reaches.holds_between
    (hReaches : Reaches steps a t)
    (hAbove : Descends steps a m)
    (hBelow : Descends steps m t) :
    (after steps).Holds m := by
  induction hReaches with
  | self hHolds =>
      obtain rfl := Nat.le_antisymm hAbove.le hBelow.le
      exact hHolds
  | step above hDerived hHolds ih =>
      rcases hBelow.parent hDerived with rfl | hBelow'
      · exact hHolds
      · exact ih hBelow'

/-
  If every token from one down to another is held, there is a
  way down.
-/
theorem reaches_of_holds
    (hDescends : Descends steps a t)
    (hHolds :
      ∀ m, Descends steps a m → Descends steps m t →
        (after steps).Holds m) :
    Reaches steps a t := by
  induction hDescends with
  | refl => exact .self (hHolds a .refl .refl)
  | tail above hDerived ih =>
      have hFirst := ih fun m hAbove hBelow =>
        hHolds m hAbove (hBelow.tail hDerived)
      exact .step hFirst hDerived
        (hHolds _ (above.tail hDerived) .refl)

end descends

------------------------------------------------------------
-- Cancellations That Get Through
------------------------------------------------------------

/- A token was itself told to be cancelled. -/
def Hit (steps : List TokenStep) (a : Nat) : Prop :=
  Happened steps fun before s => (after before).Cancels s a

/-
  Of the tokens from one down to another, those that were
  there at some moment were held then.
-/
def Unbroken (steps before : List TokenStep) (a t : Nat) : Prop :=
  Descends steps a t ∧
    ∀ m, Descends steps a m → Descends steps m t →
      m < (after before).forest.tokens.size →
      (after before).Holds m

/-
  A token was cancelled from which every token down to this
  one was held, if it was there yet.
-/
def Felled (steps : List TokenStep) (t : Nat) : Prop :=
  Happened steps fun before s =>
    ∃ a, (after before).Cancels s a ∧ Unbroken steps before a t

section felled

variable {steps : List TokenStep} {t : Nat}

/- The way down of a cancellation is unbroken. -/
theorem Called.felled (hCalled : Called steps t) :
    Felled steps t := by
  obtain ⟨before, s, hPrefix, a, hCancels, hReaches⟩ := hCalled
  have hBefore : before <+: steps :=
    (List.prefix_append before [s]).trans hPrefix
  have hOld := (counted_after before).lt_size hReaches.holds
  refine ⟨before, s, hPrefix, a, hCancels,
    Descends.of_earlier hReaches.descends hBefore, ?_⟩
  intro m hAbove hBelow hThere
  exact hReaches.holds_between (hAbove.of_lt hBefore hThere)
    (hBelow.of_lt hBefore hOld)

/-
  A token that was derived from a cancelled one is cancelled
  by what has cancelled that one.  It was not there yet.
-/
theorem Felled.of_stillborn
    (hEarlier :
      ∀ past p,
        past.length < steps.length →
        (after past).forest.isCancelled p = true →
        Felled past p)
    (hStillborn : Stillborn steps t) :
    Felled steps t := by
  obtain ⟨past, s, hPast, p, hDerives, hCancelled⟩ := hStillborn
  have hDerived : Derived steps p t := ⟨past, s, hPast, hDerives⟩
  have hPrefix : past <+: steps :=
    (List.prefix_append past [s]).trans hPast
  have hShorter : past.length < steps.length := by
    have hLength := hPast.length_le
    simp only [List.length_append, List.length_singleton]
      at hLength
    omega
  obtain ⟨_, _, hToken, hNew⟩ := hDerives
  have hParent := (counted_after past).lt_size ⟨_, hToken⟩
  obtain ⟨before, s', hBefore, a, hCancels, hDescends, hHolds⟩ :=
    hEarlier past p hShorter hCancelled
  have hOlder := size_le_of_earlier
    ((List.prefix_append before [s']).trans hBefore)
  refine ⟨before, s', hBefore.trans hPrefix, a, hCancels,
    (hDescends.of_earlier hPrefix).tail hDerived, ?_⟩
  intro m hAbove hBelow hThere
  rcases hBelow.parent hDerived with rfl | hBelow'
  · change (after past).forest.tokens.size = m at hNew
    omega
  · exact hHolds m
      (hAbove.of_lt hPrefix (Nat.lt_of_lt_of_le hThere hOlder))
      (hBelow'.of_lt hPrefix hParent) hThere

/-
  A token that was not there when another one was cancelled
  was derived after that.
-/
theorem past_of_not_lt
    {before past later : List TokenStep}
    {s : TokenStep}
    {h a p c : Nat}
    (hToken : (after before).token? h = some a)
    (hNew : ¬ c < (after before).forest.tokens.size)
    (hAfter : before ++ [.cancel h] <+: later)
    (hPast : past ++ [s] <+: later)
    (hDerives : (after past).Derives s p c) :
    before ++ [.cancel h] <+: past := by
  have hThere : c < (after (past ++ [s])).forest.tokens.size :=
    ((kin_after (past ++ [s])).later p c
      ⟨past, s, List.prefix_refl _, hDerives⟩).2
  have hSame :
      (after (before ++ [.cancel h])).forest.tokens.size =
        (after before).forest.tokens.size := by
    rw [after_concat, apply_cancel hToken]
    exact ((after before).forest.closes_cancel a).size
  have hNot : ¬ past ++ [s] <+: before ++ [.cancel h] := by
    intro hEarly
    have hGrows := size_le_of_earlier hEarly
    omega
  rcases List.prefix_or_prefix_of_prefix hPast hAfter with
    hEarly | hLate
  · exact absurd hEarly hNot
  · rcases List.prefix_concat_iff.mp hLate with hEq | hSince
    · exact absurd (hEq ▸ List.prefix_refl _) hNot
    · exact hSince

/- What a cancellation reaches is cancelled ever after. -/
theorem Reaches.isCancelled_later
    {before later : List TokenStep}
    {h a : Nat}
    (hReaches : Reaches before a t)
    (hToken : (after before).token? h = some a)
    (hAfter : before ++ [.cancel h] <+: later) :
    (after later).forest.isCancelled t = true := by
  obtain ⟨rest, rfl⟩ := hAfter
  apply (after_cascades _).stays rest
  rw [after_concat, apply_cancel hToken]
  exact hReaches.isCancelled_cancel

/-
  A cancellation gets down an unbroken way: it reaches those
  tokens that are there, and the others are derived from a
  token that is cancelled.  The induction is on the way, for
  every later moment.
-/
theorem Unbroken.isCancelled
    {before later : List TokenStep}
    {h a : Nat}
    (hUnbroken : Unbroken steps before a t)
    (hToken : (after before).token? h = some a)
    (hAfter : before ++ [.cancel h] <+: later)
    (hLater : later <+: steps)
    (hThere : t < (after later).forest.tokens.size) :
    (after later).forest.isCancelled t = true := by
  obtain ⟨hDescends, hHolds⟩ := hUnbroken
  have hBefore : before <+: steps :=
    (List.prefix_append before _).trans (hAfter.trans hLater)
  induction hDescends generalizing later with
  | refl =>
      exact (Reaches.self ⟨h, hToken⟩).isCancelled_later hToken
        hAfter
  | @tail p c above hDerived ih =>
      by_cases hOld : c < (after before).forest.tokens.size
      · have hReaches : Reaches before a c := by
          apply reaches_of_holds
            (Descends.of_lt (above.tail hDerived) hBefore hOld)
          intro m hAbove hBelow
          exact hHolds m (hAbove.of_earlier hBefore)
            (hBelow.of_earlier hBefore)
            (Nat.lt_of_le_of_lt hBelow.le hOld)
        exact hReaches.isCancelled_later hToken hAfter
      · obtain ⟨past, s, hPast, hDerives⟩ :=
          hDerived.of_lt hLater hThere
        have hSince := past_of_not_lt hToken hOld hAfter hPast hDerives
        have hParent : p < (after past).forest.tokens.size := by
          obtain ⟨_, _, hHeld, _⟩ := hDerives
          exact (counted_after past).lt_size ⟨_, hHeld⟩
        have hCancelled : (after past).forest.isCancelled p = true :=
          ih hSince
            ((List.prefix_append past [s]).trans (hPast.trans hLater))
            hParent
            fun m hAbove hBelow =>
              hHolds m hAbove (hBelow.tail hDerived)
        rw [isCancelled_iff]
        exact .inr ⟨past, s, hPast, p, hDerives, hCancelled⟩

/-
  A token is cancelled exactly if some cancellation had an
  unbroken way down to it.
-/
theorem isCancelled_iff_felled (steps : List TokenStep) (t : Nat) :
    (after steps).forest.isCancelled t = true ↔ Felled steps t := by
  constructor
  · intro hCancelled
    induction hLength : steps.length using Nat.strong_induction_on
      generalizing steps t with
    | h n ih =>
        subst hLength
        rcases (isCancelled_iff steps t).mp hCancelled with
          hCalled | hStillborn
        · exact hCalled.felled
        · apply Felled.of_stillborn _ hStillborn
          intro past p hShorter hParent
          exact ih past.length hShorter past p hParent rfl
  · rintro ⟨before, s, hPrefix, a, ⟨h, rfl, hToken⟩, hUnbroken⟩
    have hThere : a < (after steps).forest.tokens.size :=
      Nat.lt_of_lt_of_le
        ((counted_after before).lt_size ⟨h, hToken⟩)
        (size_le_of_earlier
          ((List.prefix_append before _).trans hPrefix))
    exact hUnbroken.isCancelled hToken hPrefix (List.prefix_refl _)
      (hUnbroken.1.lt_size hThere)

end felled

------------------------------------------------------------
-- The Same Operations Without Drops
------------------------------------------------------------

end TokenTable

/- Whether an operation lets go of a handle. -/
def TokenStep.isRelease : TokenStep → Bool
  | .release _ => true
  | .fresh | .child _ | .clone _ | .cancel _ | .poll _ _ => false

namespace TokenTable

/- The operations but for those that let go of a handle. -/
def undropped (steps : List TokenStep) : List TokenStep :=
  steps.filter fun s => !s.isRelease

theorem undropped_concat_release
    {steps : List TokenStep}
    {s : TokenStep}
    (hRelease : s.isRelease = true) :
    undropped (steps ++ [s]) = undropped steps := by
  simp [undropped, hRelease]

theorem undropped_concat
    {steps : List TokenStep}
    {s : TokenStep}
    (hOther : s.isRelease = false) :
    undropped (steps ++ [s]) = undropped steps ++ [s] := by
  simp [undropped, hOther]

/- Every operation is about a handle that is held. -/
def Proper (steps : List TokenStep) : Prop :=
  ∀ before s, before ++ [s] <+: steps →
    ∀ h, s.handle? = some h →
      ∃ t, (after before).token? h = some t

theorem Proper.of_earlier
    {before steps : List TokenStep}
    (hProper : Proper steps)
    (hPrefix : before <+: steps) :
    Proper before :=
  fun past s hPast => hProper past s (hPast.trans hPrefix)

theorem proper_nil : Proper [] := by
  intro before s hPrefix
  simp at hPrefix

theorem Proper.concat
    {steps : List TokenStep}
    {s : TokenStep}
    (hProper : Proper steps)
    (hHandle :
      ∀ h ∈ s.handle?, ((after steps).token? h).isSome = true) :
    Proper (steps ++ [s]) := by
  intro before s' hPrefix h hAbout
  rcases List.prefix_concat_iff.mp hPrefix with hSame | hEarlier
  · obtain ⟨rfl, hStep⟩ := List.append_inj' hSame rfl
    obtain rfl : s' = s := by simpa using hStep
    exact Option.isSome_iff_exists.mp (hHandle h hAbout)
  · exact hProper before s' hEarlier h hAbout

/-
  The tokens of two tables are the same, and so are those of
  the handles that are held in the first one.
-/
structure Alike (b b' : TokenTable) : Prop where
  size : b'.forest.tokens.size = b.forest.tokens.size
  handles : b'.handles.size = b.handles.size
  token : ∀ h t, b.token? h = some t → b'.token? h = some t

section alike

variable {b b' : TokenTable} {s : TokenStep}

theorem token?_give
    (b : TokenTable)
    (p : Nat × TokenForest)
    (h : Nat) :
    (b.give p).token? h =
      if h = b.handles.size then some p.1 else b.token? h := by
  unfold token? give
  rw [Array.getElem?_push]
  split <;> rfl

theorem Alike.give
    {p q : Nat × TokenForest}
    (hAlike : Alike b b')
    (hToken : q.1 = p.1)
    (hSize : q.2.tokens.size = p.2.tokens.size) :
    Alike (b.give p) (b'.give q) where
  size := hSize
  handles := by simp [TokenTable.give, hAlike.handles]
  token := by
    intro h t
    rw [token?_give, token?_give, hAlike.handles, hToken]
    split
    · exact id
    · exact hAlike.token h t

theorem size_poll (f : TokenForest) (t w : Nat) :
    (f.poll t w).2.tokens.size = f.tokens.size := by
  unfold TokenForest.poll
  split
  · rfl
  · simp [TokenForest.modify]

/- Letting go of a handle takes nothing but the handle. -/
theorem Alike.release
    (hAlike : Alike b b')
    (h : Nat) :
    Alike (b.apply (.release h)).2 b' := by
  cases hToken : b.token? h with
  | none => simpa only [TokenTable.apply, hToken] using hAlike
  | some a =>
      simp only [TokenTable.apply, hToken]
      constructor
      · simp [TokenForest.release, TokenForest.modify, hAlike.size]
      · simp [hAlike.handles]
      · intro u t hHeld
        apply hAlike.token u t
        rw [token?_eq_some_iff] at hHeld ⊢
        rw [Array.getElem?_setIfInBounds] at hHeld
        split at hHeld
        · simp at hHeld
        · exact hHeld

/- Any other operation is the same in both. -/
theorem Alike.apply
    (hAlike : Alike b b')
    (hOther : s.isRelease = false)
    (hHandle :
      ∀ h, s.handle? = some h → ∃ t, b.token? h = some t) :
    Alike (b.apply s).2 (b'.apply s).2 := by
  cases s with
  | fresh =>
      exact hAlike.give hAlike.size (by
        simp [TokenForest.fresh, hAlike.size])
  | child h =>
      obtain ⟨t, hToken⟩ := hHandle h rfl
      simp only [TokenTable.apply, hToken, hAlike.token h t hToken]
      apply hAlike.give hAlike.size
      rw [TokenForest.size_child, TokenForest.size_child, hAlike.size]
  | clone h =>
      obtain ⟨t, hToken⟩ := hHandle h rfl
      simp only [TokenTable.apply, hToken, hAlike.token h t hToken]
      refine Alike.give (p := (t, b.forest.hold t))
        (q := (t, b'.forest.hold t)) hAlike rfl ?_
      simp [TokenForest.hold, TokenForest.modify, hAlike.size]
  | cancel h =>
      obtain ⟨t, hToken⟩ := hHandle h rfl
      rw [apply_cancel hToken, apply_cancel (hAlike.token h t hToken)]
      refine ⟨?_, hAlike.handles, hAlike.token⟩
      exact (b'.forest.closes_cancel t).size.trans
        (hAlike.size.trans (b.forest.closes_cancel t).size.symm)
  | release h => cases hOther
  | poll h w =>
      obtain ⟨t, hToken⟩ := hHandle h rfl
      simp only [TokenTable.apply, hToken, hAlike.token h t hToken]
      refine ⟨?_, hAlike.handles, hAlike.token⟩
      simp only [size_poll, hAlike.size]

end alike

theorem alike_undropped
    {steps : List TokenStep}
    (hProper : Proper steps) :
    Alike (after steps) (after (undropped steps)) := by
  induction steps using List.reverseRecOn with
  | nil => exact ⟨rfl, rfl, fun _ _ => id⟩
  | append_singleton steps s ih =>
      have hBefore :=
        ih (hProper.of_earlier (List.prefix_append steps [s]))
      cases hRelease : s.isRelease with
      | true =>
          rw [undropped_concat_release hRelease, after_concat]
          cases s <;> cases hRelease
          exact hBefore.release _
      | false =>
          rw [undropped_concat hRelease, after_concat, after_concat]
          exact hBefore.apply hRelease
            (hProper steps s (List.prefix_refl _))

/-
  What an operation that stays is known for, it is known for
  in both histories.
-/
theorem happened_undropped
    {steps : List TokenStep}
    {P Q : List TokenStep → TokenStep → Prop}
    (hRelease : ∀ before s, s.isRelease = true → ¬ P before s)
    (hSame :
      ∀ before s, before ++ [s] <+: steps →
        s.isRelease = false →
        (Q (undropped before) s ↔ P before s)) :
    Happened (undropped steps) Q ↔ Happened steps P := by
  induction steps using List.reverseRecOn with
  | nil =>
      exact iff_of_false (not_happened_nil Q) (not_happened_nil P)
  | append_singleton steps s ih =>
      have hBefore := ih fun before s' hPrefix =>
        hSame before s' (hPrefix.trans (List.prefix_append steps [s]))
      cases hKind : s.isRelease with
      | true =>
          rw [undropped_concat_release hKind, happened_concat,
            hBefore]
          simp [hRelease steps s hKind]
      | false =>
          rw [undropped_concat hKind, happened_concat,
            happened_concat, hBefore,
            hSame steps s (List.prefix_refl _) hKind]

section proper

variable {steps : List TokenStep}

/- What a held handle is the handle of, without the drops. -/
theorem Proper.token?_iff
    {before : List TokenStep}
    {s : TokenStep}
    {h t : Nat}
    (hProper : Proper steps)
    (hPrefix : before ++ [s] <+: steps)
    (hHandle : s.handle? = some h) :
    (after (undropped before)).token? h = some t ↔
      (after before).token? h = some t := by
  have hAlike := alike_undropped (hProper.of_earlier
    ((List.prefix_append before [s]).trans hPrefix))
  obtain ⟨u, hHeld⟩ := hProper before s hPrefix h hHandle
  rw [hHeld, hAlike.token h u hHeld]

theorem derived_undropped
    (hProper : Proper steps) :
    Derived (undropped steps) = Derived steps := by
  funext p c
  apply propext
  apply happened_undropped
  · rintro before s hRelease ⟨h, rfl, -⟩
    cases hRelease
  · intro before s hPrefix _
    have hAlike := alike_undropped (hProper.of_earlier
      ((List.prefix_append before [s]).trans hPrefix))
    refine exists_congr fun h => and_congr_right ?_
    rintro rfl
    rw [hProper.token?_iff hPrefix rfl]
    simp only [TokenForest.child, hAlike.size]

theorem hit_undropped
    (hProper : Proper steps)
    (a : Nat) :
    Hit (undropped steps) a ↔ Hit steps a := by
  apply happened_undropped
  · rintro before s hRelease ⟨h, rfl, -⟩
    cases hRelease
  · intro before s hPrefix _
    refine exists_congr fun h => and_congr_right ?_
    rintro rfl
    rw [hProper.token?_iff hPrefix rfl]

end proper

theorem holds_give_iff
    {b : TokenTable}
    {p : Nat × TokenForest}
    {t : Nat} :
    (b.give p).Holds t ↔ b.Holds t ∨ t = p.1 := by
  simp [holds_iff_mem, give]

/- A token that has just been made is held. -/
theorem holds_of_give
    {b : TokenTable}
    {p : Nat × TokenForest}
    {t : Nat}
    (hHolds : ∀ u < b.forest.tokens.size, b.Holds u)
    (hToken : p.1 = b.forest.tokens.size)
    (hSize : p.2.tokens.size = b.forest.tokens.size + 1)
    (hThere : t < (b.give p).forest.tokens.size) :
    (b.give p).Holds t := by
  have hWithin : t < b.forest.tokens.size + 1 := hSize ▸ hThere
  rw [holds_give_iff, hToken]
  rcases Nat.lt_succ_iff_lt_or_eq.mp hWithin with hOld | hNew
  · exact .inl (hHolds t hOld)
  · exact .inr hNew

theorem apply_of_none
    {b : TokenTable}
    {s : TokenStep}
    {h : Nat}
    (hHandle : s.handle? = some h)
    (hToken : b.token? h = none) :
    (b.apply s).2 = b := by
  cases s <;> cases hHandle <;> simp [TokenTable.apply, hToken]

theorem holds_of_apply
    {b : TokenTable}
    {s : TokenStep}
    {t : Nat}
    (hOther : s.isRelease = false)
    (hHolds : ∀ u < b.forest.tokens.size, b.Holds u)
    (hThere : t < (b.apply s).2.forest.tokens.size) :
    (b.apply s).2.Holds t := by
  cases hHandle : s.handle? with
  | none =>
      cases s <;> cases hHandle
      exact holds_of_give hHolds rfl
        (by simp [TokenForest.fresh]) hThere
  | some h =>
      cases hToken : b.token? h with
      | none =>
          rw [apply_of_none hHandle hToken] at hThere ⊢
          exact hHolds t hThere
      | some a =>
          cases s with
          | fresh => cases hHandle
          | release _ => cases hOther
          | child _ =>
              cases hHandle
              simp only [TokenTable.apply, hToken] at hThere ⊢
              exact holds_of_give hHolds rfl
                (TokenForest.size_child _ a) hThere
          | clone _ =>
              cases hHandle
              simp only [TokenTable.apply, hToken] at hThere ⊢
              refine holds_give_iff.mpr (.inl (hHolds t ?_))
              simpa [give, TokenForest.hold, TokenForest.modify]
                using hThere
          | cancel _ =>
              cases hHandle
              rw [apply_cancel hToken] at hThere ⊢
              rw [(b.forest.closes_cancel a).size] at hThere
              exact hHolds t hThere
          | poll _ w =>
              cases hHandle
              simp only [TokenTable.apply, hToken, size_poll]
                at hThere ⊢
              exact hHolds t hThere

/- Without drops, every token is held. -/
theorem holds_of_undropped
    {steps : List TokenStep}
    {t : Nat}
    (hKeeps : ∀ s ∈ steps, s.isRelease = false)
    (hThere : t < (after steps).forest.tokens.size) :
    (after steps).Holds t := by
  induction steps using List.reverseRecOn generalizing t with
  | nil => simp [after] at hThere
  | append_singleton steps s ih =>
      rw [after_concat] at hThere ⊢
      apply holds_of_apply (hKeeps s (by simp)) _ hThere
      intro u hOld
      exact ih (fun s' hMem => hKeeps s' (by simp [hMem])) hOld

/-
  Without drops, a token is cancelled exactly if it, or one
  that it descends from, was told to.
-/
theorem isCancelled_undropped_iff
    {steps : List TokenStep}
    (hProper : Proper steps)
    (t : Nat) :
    (after (undropped steps)).forest.isCancelled t = true ↔
      ∃ a, Hit steps a ∧ Descends steps a t := by
  rw [isCancelled_iff_felled]
  unfold Descends
  rw [← derived_undropped hProper]
  simp only [← hit_undropped hProper]
  constructor
  · rintro ⟨before, s, hPrefix, a, hCancels, hDescends, -⟩
    exact ⟨a, ⟨before, s, hPrefix, hCancels⟩, hDescends⟩
  · rintro ⟨a, ⟨before, s, hPrefix, hCancels⟩, hDescends⟩
    refine ⟨before, s, hPrefix, a, hCancels, hDescends, ?_⟩
    intro m _ _ hThere
    apply holds_of_undropped _ hThere
    intro s' hMem
    have hMem' : s' ∈ undropped steps :=
      ((List.prefix_append before [s]).trans hPrefix).subset hMem
    simpa [undropped] using (List.mem_filter.mp hMem').2

------------------------------------------------------------
-- Shielded Tokens
------------------------------------------------------------

/-
  A token is shielded if some token that it descends from was
  told to be cancelled, but each time there was one in between
  that had no handles any more.
-/
def Shielded (steps : List TokenStep) (t : Nat) : Prop :=
  (∃ a, Hit steps a ∧ Descends steps a t) ∧
  ∀ before s, before ++ [s] <+: steps →
    ∀ a, (after before).Cancels s a → Descends steps a t →
      ∃ m,
        Relation.TransGen (Derived steps) a m ∧
        Relation.TransGen (Derived steps) m t ∧
        m < (after before).forest.tokens.size ∧
        ¬ (after before).Holds m

section shielded

variable {steps : List TokenStep} {t : Nat}

/-
  What breaks a way down is a token in between: both ends of
  it are held.
-/
theorem between_of_not_unbroken
    {before : List TokenStep}
    {s : TokenStep}
    {a : Nat}
    (hPrefix : before ++ [s] <+: steps)
    (hCancels : (after before).Cancels s a)
    (hDescends : Descends steps a t)
    (hHolds : (after steps).Holds t)
    (hBroken : ¬ Unbroken steps before a t) :
    ∃ m,
      Relation.TransGen (Derived steps) a m ∧
      Relation.TransGen (Derived steps) m t ∧
      m < (after before).forest.tokens.size ∧
      ¬ (after before).Holds m := by
  simp only [Unbroken, hDescends, true_and, not_forall] at hBroken
  obtain ⟨m, hAbove, hBelow, hThere, hForgotten⟩ := hBroken
  obtain ⟨h, _, hToken⟩ := hCancels
  have hFirst : m ≠ a := by
    rintro rfl
    exact hForgotten ⟨h, hToken⟩
  have hLast : t ≠ m := by
    rintro rfl
    exact hForgotten (holds_of_earlier
      ((List.prefix_append before [s]).trans hPrefix) hThere hHolds)
  refine ⟨m, ?_, ?_, hThere, hForgotten⟩
  · exact (Relation.reflTransGen_iff_eq_or_transGen.mp
      hAbove).resolve_left hFirst
  · exact (Relation.reflTransGen_iff_eq_or_transGen.mp
      hBelow).resolve_left hLast

/-
  The verdict on a token that is held is another one without
  the drops exactly if it is shielded.
-/
theorem shielded_iff
    (hProper : Proper steps)
    (hHolds : (after steps).Holds t) :
    ((after steps).forest.isCancelled t = false ∧
      (after (undropped steps)).forest.isCancelled t = true) ↔
      Shielded steps t := by
  rw [← Bool.not_eq_true, isCancelled_iff_felled,
    isCancelled_undropped_iff hProper]
  constructor
  · rintro ⟨hSpared, hAncestor⟩
    refine ⟨hAncestor, ?_⟩
    intro before s hPrefix a hCancels hDescends
    apply between_of_not_unbroken hPrefix hCancels hDescends hHolds
    intro hUnbroken
    exact hSpared ⟨before, s, hPrefix, a, hCancels, hUnbroken⟩
  · rintro ⟨hAncestor, hBetween⟩
    refine ⟨?_, hAncestor⟩
    rintro ⟨before, s, hPrefix, a, hCancels, hUnbroken⟩
    obtain ⟨m, hAbove, hBelow, hThere, hForgotten⟩ :=
      hBetween before s hPrefix a hCancels hUnbroken.1
    exact hForgotten
      (hUnbroken.2 m hAbove.to_reflTransGen hBelow.to_reflTransGen
        hThere)

/- Letting go of handles cancels nothing. -/
theorem isCancelled_undropped
    (hProper : Proper steps)
    (hCancelled : (after steps).forest.isCancelled t = true) :
    (after (undropped steps)).forest.isCancelled t = true := by
  rw [isCancelled_undropped_iff hProper]
  obtain ⟨before, s, hPrefix, a, hCancels, hDescends, -⟩ :=
    (isCancelled_iff_felled steps t).mp hCancelled
  exact ⟨a, ⟨before, s, hPrefix, hCancels⟩, hDescends⟩

/-
  A cancellation gets to what descends from its token, if all
  that lies in between is held.
-/
theorem isCancelled_cancel_of_held
    {h a : Nat}
    (hToken : (after steps).token? h = some a)
    (hHolds : (after steps).Holds t)
    (hDescends : Descends steps a t)
    (hBetween :
      ∀ m,
        Relation.TransGen (Derived steps) a m →
        Relation.TransGen (Derived steps) m t →
        (after steps).Holds m) :
    (after (steps ++ [.cancel h])).forest.isCancelled t = true := by
  rw [after_concat, apply_cancel hToken]
  apply Reaches.isCancelled_cancel
  apply reaches_of_holds hDescends
  intro m hAbove hBelow
  rcases Relation.reflTransGen_iff_eq_or_transGen.mp hAbove with
    rfl | hAbove'
  · exact ⟨h, hToken⟩
  rcases Relation.reflTransGen_iff_eq_or_transGen.mp hBelow with
    rfl | hBelow'
  · exact hHolds
  exact hBetween m hAbove' hBelow'

end shielded

/-
  What the drops of a history come to, against the same
  history without them.
-/
structure DropsShield (steps : List TokenStep) : Prop where
  /- The handles that are left are those of the same tokens. -/
  tokens :
    ∀ h t, (after steps).token? h = some t →
      (after (undropped steps)).token? h = some t
  /- Without drops, a cancellation gets to all that descends. -/
  undropped :
    ∀ t, (after (undropped steps)).forest.isCancelled t = true ↔
      ∃ a, Hit steps a ∧ Descends steps a t
  /- With them, it stops at what nobody holds. -/
  felled :
    ∀ t, (after steps).forest.isCancelled t = true ↔
      Felled steps t
  /- Drops cancel nothing. -/
  sound :
    ∀ t, (after steps).forest.isCancelled t = true →
      (after (TokenTable.undropped steps)).forest.isCancelled t =
        true
  /- They make a difference to those shielded, and no others. -/
  shielded :
    ∀ t, (after steps).Holds t →
      ((after steps).forest.isCancelled t ≠
          (after (TokenTable.undropped steps)).forest.isCancelled
            t ↔
        Shielded steps t)
  /- What is derived from a token directly is not shielded from
     it, nor what has only tokens in between that are held. -/
  through :
    ∀ h a t, (after steps).token? h = some a →
      (after steps).Holds t →
      Descends steps a t →
      (∀ m,
        Relation.TransGen (Derived steps) a m →
        Relation.TransGen (Derived steps) m t →
        (after steps).Holds m) →
      (after (steps ++ [.cancel h])).forest.isCancelled t = true

theorem drops_shield
    (steps : List TokenStep)
    (hProper : Proper steps) :
    DropsShield steps where
  tokens := (alike_undropped hProper).token
  undropped := isCancelled_undropped_iff hProper
  felled := isCancelled_iff_felled steps
  sound := fun _ => isCancelled_undropped hProper
  shielded := by
    intro t hHolds
    rw [← shielded_iff hProper hHolds]
    have hSound := isCancelled_undropped hProper (t := t)
    cases hWith : (after steps).forest.isCancelled t with
    | false => simp
    | true => simp [hSound hWith]
  through := fun _ _ _ => isCancelled_cancel_of_held

end TokenTable

/-
  A token with a child and a grandchild.  The child is
  dropped, then the token is cancelled.
-/
namespace Forgotten

def history : List TokenStep :=
  [.fresh, .child 0, .child 1, .release 1, .cancel 0]

theorem proper_history : TokenTable.Proper history := by
  have hFresh := TokenTable.proper_nil.concat
    (s := .fresh) (by decide)
  have hChild := hFresh.concat (s := .child 0) (by decide)
  have hGrandchild := hChild.concat (s := .child 1) (by decide)
  have hDropped := hGrandchild.concat (s := .release 1) (by decide)
  exact hDropped.concat (s := .cancel 0) (by decide)

/- The tokens afterwards: the dropped one is not told. -/
def dropped : TokenTable where
  forest :=
    ⟨#[Token.closed {}, { children := [2], handles := 0 }, {}]⟩
  handles := #[some 0, none, some 2]

/- The tokens if nothing is dropped. -/
def kept : TokenTable where
  forest := ⟨#[Token.closed {}, Token.closed {}, Token.closed {}]⟩
  handles := #[some 0, some 1, some 2]

theorem after_history : TokenTable.after history = dropped := by
  simp [history, dropped, TokenTable.after, TokenTable.apply,
    TokenTable.token?, TokenTable.give, TokenForest.fresh,
    TokenForest.child, TokenForest.release, TokenForest.modify,
    TokenForest.cancel, TokenForest.cancelAll, TokenForest.isHeld,
    TokenForest.isCancelled, Token.closed]

theorem after_undropped :
    TokenTable.after (TokenTable.undropped history) = kept := by
  simp [history, kept, TokenTable.undropped, TokenStep.isRelease,
    TokenTable.after, TokenTable.apply, TokenTable.token?,
    TokenTable.give, TokenForest.fresh, TokenForest.child,
    TokenForest.modify, TokenForest.cancel, TokenForest.cancelAll,
    TokenForest.isHeld, TokenForest.isCancelled, Token.closed]

/-
  The grandchild is spared, but would not have been if its
  parent had been kept.
-/
theorem grandchild_spared :
    TokenTable.Proper history ∧
    (TokenTable.after history).isCancelled? 2 = some false ∧
    (TokenTable.after
      (TokenTable.undropped history)).isCancelled? 2 =
        some true := by
  rw [after_history, after_undropped]
  exact ⟨proper_history, by decide, by decide⟩

/- Its parent is what shields it. -/
theorem grandchild_shielded :
    TokenTable.Proper history ∧
    TokenTable.Shielded history 2 := by
  have hHolds : (TokenTable.after history).Holds 2 := by
    rw [after_history]
    exact ⟨2, by decide⟩
  refine ⟨proper_history, ?_⟩
  apply ((TokenTable.drops_shield history
    proper_history).shielded 2 hHolds).mp
  rw [after_history, after_undropped]
  decide

end Forgotten

end DeviceSession
