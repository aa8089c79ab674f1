import DeviceSession.Proofs.Action.Handles
import Mathlib.Data.List.Infix

/-
  Where a cancellation comes from, and how far it goes.

  What has become of the tokens is told by the operations
  alone, without a look into the forest: which tokens were
  derived from which, who was left waiting for which, and
  which were cancelled when.  A cancellation goes down from
  its token, as far as each token on the way is held.

  Key definitions include:
    * `TokenTable.after`
    * `TokenTable.Happened`
    * `TokenTable.Derived`
    * `TokenTable.Reaches`
    * `TokenTable.Kin`
    * `TokenTable.Cascades`

  Main declarations:
    * `TokenTable.kin_after`
    * `TokenTable.isCancelled_cancel_iff`
    * `TokenTable.after_cascades`
-/

------------------------------------------------------------
-- Histories
------------------------------------------------------------

namespace DeviceSession

namespace TokenTable

/-
  The tokens after some operations, of which the first finds
  none.
-/
def after (steps : List TokenStep) : TokenTable :=
  steps.foldl (fun b s => (b.apply s).2) {}

@[simp]
theorem after_concat
    (steps : List TokenStep)
    (s : TokenStep) :
    after (steps ++ [s]) = ((after steps).apply s).2 := by
  simp [after]

theorem counted_after (steps : List TokenStep) :
    (after steps).Counted := by
  induction steps using List.reverseRecOn with
  | nil =>
      intro t
      rfl
  | append_singleton steps s ih =>
      rw [after_concat]
      exact ih.apply s

/-
  What was so of one of the operations when it was done, given
  those before it.
-/
def Happened
    (steps : List TokenStep)
    (P : List TokenStep → TokenStep → Prop) : Prop :=
  ∃ before s, before ++ [s] <+: steps ∧ P before s

theorem not_happened_nil
    (P : List TokenStep → TokenStep → Prop) :
    ¬ Happened [] P := by
  rintro ⟨before, s, hPrefix, -⟩
  simp at hPrefix

theorem happened_concat
    (steps : List TokenStep)
    (s : TokenStep)
    (P : List TokenStep → TokenStep → Prop) :
    Happened (steps ++ [s]) P ↔ Happened steps P ∨ P steps s := by
  simp only [Happened, List.prefix_concat_iff]
  constructor
  · rintro ⟨before, s', hSame | hPrefix, hP⟩
    · obtain ⟨rfl, hStep⟩ := List.append_inj' hSame rfl
      obtain rfl : s' = s := by simpa using hStep
      exact .inr hP
    · exact .inl ⟨before, s', hPrefix, hP⟩
  · rintro (⟨before, s', hPrefix, hP⟩ | hP)
    · exact ⟨before, s', .inr hPrefix, hP⟩
    · exact ⟨steps, s, .inl rfl, hP⟩

/- A token was derived from another one. -/
def Derived (steps : List TokenStep) (p c : Nat) : Prop :=
  Happened steps fun before s => (after before).Derives s p c

/- Someone asked for a token, and was left waiting. -/
def Registered (steps : List TokenStep) (t w : Nat) : Prop :=
  Happened steps fun before s => (after before).Registers s t w

/-
  There is a way down from one token to another, on which
  each token was derived from the one before it, and each
  is held.
-/
inductive Reaches (steps : List TokenStep) (a : Nat) : Nat → Prop
  | self (hHolds : (after steps).Holds a) : Reaches steps a a
  | step
      {p c : Nat}
      (above : Reaches steps a p)
      (hDerived : Derived steps p c)
      (hHolds : (after steps).Holds c) :
      Reaches steps a c

/- A token was cancelled from which there was a way down. -/
def Called (steps : List TokenStep) (t : Nat) : Prop :=
  Happened steps fun before s =>
    ∃ a, (after before).Cancels s a ∧ Reaches before a t

/- A token was derived from one that was cancelled already. -/
def Stillborn (steps : List TokenStep) (t : Nat) : Prop :=
  Happened steps fun before s =>
    ∃ p,
      (after before).Derives s p t ∧
      (after before).forest.isCancelled p = true

------------------------------------------------------------
-- Kinship
------------------------------------------------------------

/-
  A token knows those that were derived from it, as long as
  they are held and it is open.  Once it is cancelled, so are
  they.
-/
structure Kin (steps : List TokenStep) : Prop where
  later :
    ∀ p c, Derived steps p c →
      p < c ∧ c < (after steps).forest.tokens.size
  parent :
    ∀ p q c, Derived steps p c → Derived steps q c → p = q
  derived :
    ∀ p, ∀ c ∈ (after steps).forest.childrenOf p,
      Derived steps p c
  known :
    ∀ p c, Derived steps p c →
      (after steps).forest.isHeld c = true →
      (after steps).forest.isCancelled p = false →
      c ∈ (after steps).forest.childrenOf p
  passed :
    ∀ p c, Derived steps p c →
      (after steps).forest.isHeld c = true →
      (after steps).forest.isCancelled p = true →
      (after steps).forest.isCancelled c = true

theorem kin_nil : Kin [] where
  later := fun p c hDerived => (not_happened_nil _ hDerived).elim
  parent := fun p q c hDerived => (not_happened_nil _ hDerived).elim
  derived := by
    intro p c hChild
    simp [after, TokenForest.childrenOf] at hChild
  known := fun p c hDerived => (not_happened_nil _ hDerived).elim
  passed := fun p c hDerived => (not_happened_nil _ hDerived).elim

section kin

variable {steps : List TokenStep} {s : TokenStep}

theorem derived_concat {p c : Nat} :
    Derived (steps ++ [s]) p c ↔
      Derived steps p c ∨ (after steps).Derives s p c :=
  happened_concat steps s _

/- Without a new token, the old ones are kin as before. -/
theorem Kin.of_not_derives
    (hKin : Kin steps)
    (hDerives : ∀ p c, ¬ (after steps).Derives s p c)
    (hSize :
      (after steps).forest.tokens.size ≤
        ((after steps).apply s).2.forest.tokens.size)
    (hDerived :
      ∀ p, ∀ c ∈ ((after steps).apply s).2.forest.childrenOf p,
        c ∈ (after steps).forest.childrenOf p)
    (hKnown :
      ∀ p c, Derived steps p c →
        ((after steps).apply s).2.forest.isHeld c = true →
        ((after steps).apply s).2.forest.isCancelled p = false →
        c ∈ ((after steps).apply s).2.forest.childrenOf p)
    (hPassed :
      ∀ p c, Derived steps p c →
        ((after steps).apply s).2.forest.isHeld c = true →
        ((after steps).apply s).2.forest.isCancelled p = true →
        ((after steps).apply s).2.forest.isCancelled c = true) :
    Kin (steps ++ [s]) := by
  have hSame : ∀ p c,
      Derived (steps ++ [s]) p c ↔ Derived steps p c := by
    simp [derived_concat, hDerives]
  constructor <;> simp only [hSame, after_concat]
  case later =>
    intro p c hOld
    have hLater := hKin.later p c hOld
    exact ⟨hLater.1, Nat.lt_of_lt_of_le hLater.2 hSize⟩
  case parent =>
    exact hKin.parent
  case derived =>
    exact fun p c hChild => hKin.derived p c (hDerived p c hChild)
  case known =>
    exact hKnown
  case passed =>
    exact hPassed

theorem Kin.keeps
    (hKin : Kin steps)
    (hDerives : ∀ p c, ¬ (after steps).Derives s p c)
    (hKeeps :
      (after steps).forest.Keeps
        ((after steps).apply s).2.forest) :
    Kin (steps ++ [s]) := by
  apply hKin.of_not_derives hDerives hKeeps.size
  · intro p c hChild
    rwa [hKeeps.children] at hChild
  · intro p c hOld hHeld hOpen
    rw [hKeeps.cancelled] at hOpen
    rw [hKeeps.children]
    exact hKin.known p c hOld
      (hKeeps.held c (hKin.later p c hOld).2 hHeld) hOpen
  · intro p c hOld hHeld hCancelled
    rw [hKeeps.cancelled] at hCancelled ⊢
    exact hKin.passed p c hOld
      (hKeeps.held c (hKin.later p c hOld).2 hHeld) hCancelled

/- A cancellation goes to all tokens that are known. -/
theorem Kin.cancels
    {t : Nat}
    (hKin : Kin steps)
    (hDerives : ∀ p c, ¬ (after steps).Derives s p c)
    (hForest :
      ((after steps).apply s).2.forest =
        ((after steps).forest.cancel t).2) :
    Kin (steps ++ [s]) := by
  have hCloses := (after steps).forest.closes_cancel t
  apply hKin.of_not_derives hDerives <;> rw [hForest]
  · exact Nat.le_of_eq hCloses.size.symm
  · intro p c hChild
    exact TokenForest.childrenOf_cancel_subset hChild
  · intro p c hOld hHeld hOpen
    rw [hCloses.held] at hHeld
    rw [hCloses.children p hOpen]
    apply hKin.known p c hOld hHeld
    cases hBefore : (after steps).forest.isCancelled p with
    | false => rfl
    | true => rw [hCloses.cancelled p hBefore] at hOpen; cases hOpen
  · intro p c hOld hHeld hCancelled
    rw [hCloses.held] at hHeld
    cases hBefore : (after steps).forest.isCancelled p with
    | true =>
        exact hCloses.cancelled c (hKin.passed p c hOld hHeld hBefore)
    | false =>
        exact hCloses.passed p hBefore hCancelled c
          (hKin.known p c hOld hHeld hBefore) hHeld

/- A new token is known to the one that it is derived from. -/
theorem Kin.derives
    {p : Nat}
    (hKin : Kin steps)
    (hSize : p < (after steps).forest.tokens.size)
    (hDerives :
      ∀ q c, (after steps).Derives s q c ↔
        q = p ∧ ((after steps).forest.child p).1 = c)
    (hForest :
      ((after steps).apply s).2.forest =
        ((after steps).forest.child p).2) :
    Kin (steps ++ [s]) := by
  have hNe : ∀ {q c}, Derived steps q c →
      q ≠ (after steps).forest.tokens.size ∧
      c ≠ (after steps).forest.tokens.size := by
    intro q c hOld
    have hLater := hKin.later q c hOld
    omega
  constructor <;>
    simp only [derived_concat, hDerives, after_concat, hForest]
  case later =>
    rintro q c (hOld | ⟨rfl, rfl⟩)
    · have hLater := hKin.later q c hOld
      rw [TokenForest.size_child]
      omega
    · rw [TokenForest.size_child]
      exact ⟨hSize, Nat.lt_succ_self _⟩
  case parent =>
    rintro q q' c (hOld | ⟨rfl, rfl⟩) (hOld' | ⟨rfl, hSame⟩)
    · exact hKin.parent q q' c hOld hOld'
    · exact absurd hSame.symm (hNe hOld).2
    · exact absurd rfl (hNe hOld').2
    · rfl
  case derived =>
    intro q c hChild
    rcases TokenForest.mem_childrenOf_of_child hChild with
      hOld | ⟨rfl, hNew⟩
    · exact .inl (hKin.derived q c hOld)
    · exact .inr ⟨rfl, hNew⟩
  case known =>
    rintro q c (hOld | ⟨rfl, rfl⟩) hHeld hOpen
    · rw [TokenForest.isHeld_child_of_ne (hNe hOld).2] at hHeld
      rw [TokenForest.isCancelled_child_of_ne (hNe hOld).1] at hOpen
      exact TokenForest.mem_childrenOf_child (hNe hOld).1
        (hKin.known q c hOld hHeld hOpen) hHeld
    · rw [TokenForest.isCancelled_child_of_ne (Nat.ne_of_lt hSize)]
        at hOpen
      exact TokenForest.self_mem_childrenOf_child hSize hOpen
  case passed =>
    rintro q c (hOld | ⟨rfl, rfl⟩) hHeld hCancelled
    · rw [TokenForest.isHeld_child_of_ne (hNe hOld).2] at hHeld
      rw [TokenForest.isCancelled_child_of_ne (hNe hOld).1]
        at hCancelled
      rw [TokenForest.isCancelled_child_of_ne (hNe hOld).2]
      exact hKin.passed q c hOld hHeld hCancelled
    · rw [TokenForest.isCancelled_child_of_ne (Nat.ne_of_lt hSize)]
        at hCancelled
      rw [TokenForest.isCancelled_child_self]
      exact hCancelled

end kin

theorem kin_after (steps : List TokenStep) : Kin steps := by
  induction steps using List.reverseRecOn with
  | nil => exact kin_nil
  | append_singleton steps s ih =>
      have hCounted := counted_after steps
      cases hCounted.change s with
      | derives p hHolds hDerives _ _ hForest _ =>
          exact ih.derives (hCounted.lt_size hHolds) hDerives hForest
      | cancels t _ hDerives _ _ hForest _ =>
          exact ih.cancels hDerives hForest
      | registers t w _ _ hDerives _ _ hForest _ =>
          apply ih.keeps hDerives
          rw [hForest]
          exact (after steps).forest.keeps_poll t w
      | keeps hDerives _ _ hKeeps _ _ =>
          exact ih.keeps hDerives hKeeps

------------------------------------------------------------
-- How Far a Cancellation Goes
------------------------------------------------------------

section reaches

variable {steps : List TokenStep} {a t : Nat}

theorem Reaches.holds (hReaches : Reaches steps a t) :
    (after steps).Holds t := by
  cases hReaches with
  | self hHolds => exact hHolds
  | step above hDerived hHolds => exact hHolds

/- The way leads down to later tokens. -/
theorem Reaches.le (hReaches : Reaches steps a t) : a ≤ t := by
  induction hReaches with
  | self hHolds => exact Nat.le_refl a
  | step above hDerived hHolds ih =>
      have hLater := ((kin_after steps).later _ _ hDerived).1
      omega

/- Where a way leads is derived from where it begins. -/
theorem Reaches.descends (hReaches : Reaches steps a t) :
    Relation.ReflTransGen (Derived steps) a t := by
  induction hReaches with
  | self hHolds => exact .refl
  | step above hDerived hHolds ih => exact ih.tail hDerived

theorem reaches_of_linked
    (hHolds : (after steps).Holds a)
    (hLinked :
      Relation.ReflTransGen (after steps).forest.Links a t) :
    Reaches steps a t := by
  induction hLinked with
  | refl => exact .self hHolds
  | tail above hLinks ih =>
      exact .step ih ((kin_after steps).derived _ _ hLinks.1)
        ((counted_after steps).isHeld_iff.mp hLinks.2)

theorem Reaches.isCancelled_cancel
    (hReaches : Reaches steps a t) :
    ((after steps).forest.cancel a).2.isCancelled t = true := by
  have hCloses := (after steps).forest.closes_cancel a
  induction hReaches with
  | self hHolds =>
      exact TokenForest.isCancelled_cancel
        ((counted_after steps).lt_size hHolds)
  | @step p c above hDerived hHolds ih =>
      have hKin := kin_after steps
      have hHeld := (counted_after steps).isHeld_iff.mpr hHolds
      cases hBefore : (after steps).forest.isCancelled p with
      | true =>
          exact hCloses.cancelled c
            (hKin.passed p c hDerived hHeld hBefore)
      | false =>
          exact hCloses.passed p hBefore ih c
            (hKin.known p c hDerived hHeld hBefore) hHeld

/-
  A cancellation gets to those tokens to which there is a way
  down from its own.
-/
theorem isCancelled_cancel_iff
    (hHolds : (after steps).Holds a) :
    ((after steps).forest.cancel a).2.isCancelled t = true ↔
      (after steps).forest.isCancelled t = true ∨
      Reaches steps a t := by
  constructor
  · intro hCancelled
    cases hBefore : (after steps).forest.isCancelled t with
    | true => exact .inl rfl
    | false =>
        obtain ⟨_, hFirst, hLinked⟩ :=
          (after steps).forest.linked_of_cancelAll [a] hBefore
            hCancelled
        obtain rfl := List.mem_singleton.mp hFirst
        exact .inr (reaches_of_linked hHolds hLinked)
  · rintro (hBefore | hReaches)
    · exact ((after steps).forest.closes_cancel a).cancelled t hBefore
    · exact hReaches.isCancelled_cancel

/- A token to which there is no way down is left as it is. -/
theorem getElem?_cancel_of_not_reaches
    (hHolds : (after steps).Holds a)
    (hApart : ¬ Reaches steps a t) :
    ((after steps).forest.cancel a).2.tokens[t]? =
      (after steps).forest.tokens[t]? := by
  have hSame :
      ((after steps).forest.cancel a).2.isCancelled t =
        (after steps).forest.isCancelled t := by
    rw [Bool.eq_iff_iff, isCancelled_cancel_iff hHolds]
    simp [hApart]
  rw [TokenForest.getElem?_cancel, if_pos hSame]

end reaches

------------------------------------------------------------
-- Which Tokens Are Cancelled
------------------------------------------------------------

/- A token is cancelled for no other reason than these. -/
theorem isCancelled_iff (steps : List TokenStep) (t : Nat) :
    (after steps).forest.isCancelled t = true ↔
      Called steps t ∨ Stillborn steps t := by
  induction steps using List.reverseRecOn with
  | nil =>
      constructor
      · intro hCancelled
        simp [after, TokenForest.isCancelled] at hCancelled
      · rintro (hCalled | hStillborn)
        · exact (not_happened_nil _ hCalled).elim
        · exact (not_happened_nil _ hStillborn).elim
  | append_singleton steps s ih =>
      have hCounted := counted_after steps
      rw [Called, Stillborn, happened_concat, happened_concat,
        after_concat]
      change _ ↔ (Called steps t ∨ _) ∨ (Stillborn steps t ∨ _)
      rw [or_or_or_comm, ← ih]
      cases hCounted.change s with
      | derives p hHolds hDerives hCancels _ hForest _ =>
          rw [hForest, TokenForest.isCancelled_child_iff]
          simp [hCancels, hDerives]
      | cancels a hHolds hDerives hCancels _ hForest _ =>
          rw [hForest, isCancelled_cancel_iff hHolds]
          simp [hDerives, hCancels]
      | registers a w _ _ hDerives hCancels _ hForest _ =>
          rw [hForest,
            ((after steps).forest.keeps_poll a w).cancelled]
          simp [hDerives, hCancels]
      | keeps hDerives hCancels _ hKeeps _ _ =>
          rw [hKeeps.cancelled]
          simp [hDerives, hCancels]

------------------------------------------------------------
-- Who Waits and Who Is Woken
------------------------------------------------------------

/-
  Those who were left waiting for a token wait until it is
  cancelled, and have been woken once when it is.
-/
structure Attended (steps : List TokenStep) : Prop where
  size :
    ∀ t w, Registered steps t w →
      t < (after steps).forest.tokens.size
  waiting :
    ∀ t w, w ∈ (after steps).forest.waitersOf t ↔
      Registered steps t w ∧
      (after steps).forest.isCancelled t = false
  once : ∀ t, ((after steps).forest.waitersOf t).Nodup
  woken :
    ∀ t w, (t, w) ∈ (after steps).woken ↔
      Registered steps t w ∧
      (after steps).forest.isCancelled t = true
  wokenOnce : (after steps).woken.Nodup

theorem attended_nil : Attended [] where
  size := fun t w hAsked => (not_happened_nil _ hAsked).elim
  waiting := by
    intro t w
    constructor
    · intro hMem
      simp [after, TokenForest.waitersOf] at hMem
    · exact fun hAsked => (not_happened_nil _ hAsked.1).elim
  once := fun t => List.nodup_nil
  woken := by
    intro t w
    constructor
    · intro hMem
      cases hMem
    · exact fun hAsked => (not_happened_nil _ hAsked.1).elim
  wokenOnce := List.nodup_nil

section attended

variable {steps : List TokenStep} {s : TokenStep}

theorem registered_concat {t w : Nat} :
    Registered (steps ++ [s]) t w ↔
      Registered steps t w ∨ (after steps).Registers s t w :=
  happened_concat steps s _

/- Nobody is left waiting, and no old token is cancelled. -/
theorem Attended.quiet
    (hAttended : Attended steps)
    (hRegisters : ∀ t w, ¬ (after steps).Registers s t w)
    (hSize :
      (after steps).forest.tokens.size ≤
        ((after steps).apply s).2.forest.tokens.size)
    (hCancelled :
      ∀ t < (after steps).forest.tokens.size,
        ((after steps).apply s).2.forest.isCancelled t =
          (after steps).forest.isCancelled t)
    (hWaiters :
      ∀ t, ((after steps).apply s).2.forest.waitersOf t =
        (after steps).forest.waitersOf t)
    (hWoken : ((after steps).apply s).2.woken = (after steps).woken) :
    Attended (steps ++ [s]) := by
  have hSame : ∀ t w,
      Registered (steps ++ [s]) t w ↔ Registered steps t w := by
    simp [registered_concat, hRegisters]
  have hStill : ∀ t w, Registered steps t w →
      ((after steps).apply s).2.forest.isCancelled t =
        (after steps).forest.isCancelled t :=
    fun t w hAsked => hCancelled t (hAttended.size t w hAsked)
  constructor <;> simp only [hSame, after_concat, hWaiters, hWoken]
  case size =>
    intro t w hAsked
    exact Nat.lt_of_lt_of_le (hAttended.size t w hAsked) hSize
  case waiting =>
    intro t w
    rw [hAttended.waiting]
    exact and_congr_right fun hAsked => by rw [hStill t w hAsked]
  case once =>
    exact hAttended.once
  case woken =>
    intro t w
    rw [hAttended.woken]
    exact and_congr_right fun hAsked => by rw [hStill t w hAsked]
  case wokenOnce =>
    exact hAttended.wokenOnce

/- One more waits for a token that is open. -/
theorem Attended.registers
    {t w : Nat}
    (hAttended : Attended steps)
    (hSize : t < (after steps).forest.tokens.size)
    (hOpen : (after steps).forest.isCancelled t = false)
    (hRegisters :
      ∀ u v, (after steps).Registers s u v ↔ u = t ∧ v = w)
    (hForest :
      ((after steps).apply s).2.forest =
        ((after steps).forest.poll t w).2)
    (hWoken : ((after steps).apply s).2.woken = (after steps).woken) :
    Attended (steps ++ [s]) := by
  have hKeeps := (after steps).forest.keeps_poll t w
  constructor <;>
    simp only [registered_concat, hRegisters, after_concat, hForest,
      hWoken, hKeeps.cancelled]
  case size =>
    rintro u v (hOld | ⟨rfl, rfl⟩)
    · exact Nat.lt_of_lt_of_le (hAttended.size u v hOld) hKeeps.size
    · exact Nat.lt_of_lt_of_le hSize hKeeps.size
  case waiting =>
    intro u v
    rw [TokenForest.waitersOf_poll hSize hOpen]
    have hWaiting := hAttended.waiting u v
    split
    · rename_i hNew
      obtain ⟨rfl, hNew⟩ := hNew
      simp only [List.mem_append, List.mem_singleton, hWaiting, hOpen,
        true_and, and_true]
    · rename_i hOld
      rw [hWaiting]
      constructor
      · exact fun hAsked => ⟨.inl hAsked.1, hAsked.2⟩
      · rintro ⟨hAsked | ⟨rfl, rfl⟩, hStill⟩
        · exact ⟨hAsked, hStill⟩
        · apply hWaiting.mp
          by_contra hNew
          exact hOld ⟨rfl, hNew⟩
  case once =>
    intro u
    rw [TokenForest.waitersOf_poll hSize hOpen]
    split
    · rename_i hNew
      have hOnce := hAttended.once u
      rw [List.nodup_append]
      refine ⟨hOnce, List.nodup_singleton w, ?_⟩
      rintro v hMem _ hLast rfl
      obtain rfl := List.mem_singleton.mp hLast
      exact hNew.2 hMem
    · exact hAttended.once u
  case woken =>
    intro u v
    rw [hAttended.woken]
    constructor
    · exact fun hOld => ⟨.inl hOld.1, hOld.2⟩
    · rintro ⟨hOld | ⟨rfl, rfl⟩, hCancelled⟩
      · exact ⟨hOld, hCancelled⟩
      · rw [hOpen] at hCancelled
        cases hCancelled
  case wokenOnce =>
    exact hAttended.wokenOnce

/- Those who wait for a token are woken as it is cancelled. -/
theorem Attended.cancels
    {a : Nat}
    (hAttended : Attended steps)
    (hRegisters : ∀ t w, ¬ (after steps).Registers s t w)
    (hForest :
      ((after steps).apply s).2.forest =
        ((after steps).forest.cancel a).2)
    (hWoken :
      ((after steps).apply s).2.woken =
        (after steps).woken ++ ((after steps).forest.cancel a).1) :
    Attended (steps ++ [s]) := by
  have hSame : ∀ t w,
      Registered (steps ++ [s]) t w ↔ Registered steps t w := by
    simp [registered_concat, hRegisters]
  have hCloses := (after steps).forest.closes_cancel a
  have hNew :
      ∀ t w, (t, w) ∈ ((after steps).forest.cancel a).1 ↔
        w ∈ (after steps).forest.waitersOf t ∧
        (after steps).forest.isCancelled t = false ∧
        ((after steps).forest.cancel a).2.isCancelled t = true :=
    (after steps).forest.mem_woken_cancelAll [a]
  constructor <;> simp only [hSame, after_concat, hForest, hWoken]
  case size =>
    intro t w hAsked
    rw [hCloses.size]
    exact hAttended.size t w hAsked
  case waiting =>
    intro t w
    rw [TokenForest.waitersOf_cancel]
    split
    · rename_i hStill
      rw [hStill]
      exact hAttended.waiting t w
    · rename_i hChanged
      have hCancelled := hCloses.isCancelled_of_ne hChanged
      simp [hCancelled]
  case once =>
    intro t
    rw [TokenForest.waitersOf_cancel]
    split
    · exact hAttended.once t
    · exact List.nodup_nil
  case woken =>
    intro t w
    rw [List.mem_append, hAttended.woken, hNew, hAttended.waiting]
    cases hBefore : (after steps).forest.isCancelled t with
    | true => simp [hCloses.cancelled t hBefore]
    | false => simp
  case wokenOnce =>
    rw [List.nodup_append]
    refine ⟨hAttended.wokenOnce,
      TokenForest.nodup_woken_cancelAll _ _ hAttended.once, ?_⟩
    rintro ⟨t, w⟩ hOld _ hLater rfl
    have hCancelled := ((hAttended.woken t w).mp hOld).2
    have hOpen := ((hNew t w).mp hLater).2.1
    rw [hOpen] at hCancelled
    cases hCancelled

end attended

theorem attended_after (steps : List TokenStep) : Attended steps := by
  induction steps using List.reverseRecOn with
  | nil => exact attended_nil
  | append_singleton steps s ih =>
      have hCounted := counted_after steps
      cases hCounted.change s with
      | derives p hHolds _ _ hRegisters hForest hWoken =>
          apply ih.quiet hRegisters <;>
            simp only [hForest, hWoken]
          · rw [TokenForest.size_child]
            exact Nat.le_succ _
          · exact fun t hOld =>
              TokenForest.isCancelled_child_of_ne (Nat.ne_of_lt hOld)
          · exact fun t => TokenForest.waitersOf_child _ p t
      | cancels a _ _ _ hRegisters hForest hWoken =>
          exact ih.cancels hRegisters hForest hWoken
      | registers t w hHolds hOpen _ _ hRegisters hForest hWoken =>
          exact ih.registers (hCounted.lt_size hHolds) hOpen
            hRegisters hForest hWoken
      | keeps _ _ hRegisters hKeeps hWaiters hWoken =>
          exact ih.quiet hRegisters hKeeps.size
            (fun t _ => hKeeps.cancelled t) hWaiters hWoken

/- Someone is left waiting only for a token that is open. -/
theorem isCancelled_of_registers
    {steps : List TokenStep}
    {s : TokenStep}
    {t w : Nat}
    (hRegisters : (after steps).Registers s t w) :
    (after (steps ++ [s])).forest.isCancelled t = false := by
  rw [after_concat]
  cases (counted_after steps).change s with
  | derives _ _ _ _ hNone _ _ => exact absurd hRegisters (hNone t w)
  | cancels _ _ _ _ hNone _ _ => exact absurd hRegisters (hNone t w)
  | registers u v _ hOpen _ _ hOne hForest _ =>
      obtain ⟨rfl, rfl⟩ := (hOne t w).mp hRegisters
      rw [hForest, ((after steps).forest.keeps_poll t w).cancelled]
      exact hOpen
  | keeps _ _ hNone _ _ _ => exact absurd hRegisters (hNone t w)

/- An operation wakes those who wait for what it cancels. -/
theorem woken_concat (steps : List TokenStep) (s : TokenStep) :
    ∃ news,
      (after (steps ++ [s])).woken = (after steps).woken ++ news ∧
      ∀ t w, (t, w) ∈ news ↔
        Registered steps t w ∧
        (after steps).forest.isCancelled t = false ∧
        (after (steps ++ [s])).forest.isCancelled t = true := by
  obtain ⟨news, hNews⟩ :
      ∃ news,
        (after (steps ++ [s])).woken =
          (after steps).woken ++ news := by
    rw [after_concat]
    cases (counted_after steps).change s with
    | cancels _ _ _ _ _ _ hWoken => exact ⟨_, hWoken⟩
    | derives _ _ _ _ _ _ hWoken => exact ⟨[], by simpa using hWoken⟩
    | registers _ _ _ _ _ _ _ _ hWoken =>
        exact ⟨[], by simpa using hWoken⟩
    | keeps _ _ _ _ _ hWoken => exact ⟨[], by simpa using hWoken⟩
  refine ⟨news, hNews, ?_⟩
  intro t w
  have hBefore := (attended_after steps).woken t w
  have hAfter := (attended_after (steps ++ [s])).woken t w
  have hOnce := (attended_after (steps ++ [s])).wokenOnce
  rw [hNews] at hAfter hOnce
  rw [List.mem_append, registered_concat] at hAfter
  have hApart := (List.nodup_append.mp hOnce).2.2
  constructor
  · intro hNew
    obtain ⟨hAsked | hRegisters, hCancelled⟩ := hAfter.mp (.inr hNew)
    · refine ⟨hAsked, ?_, hCancelled⟩
      cases hOld : (after steps).forest.isCancelled t with
      | false => rfl
      | true =>
          have hWoken := hBefore.mpr ⟨hAsked, hOld⟩
          exact absurd rfl (hApart _ hWoken _ hNew)
    · rw [isCancelled_of_registers hRegisters] at hCancelled
      cases hCancelled
  · rintro ⟨hAsked, hOpen, hCancelled⟩
    rcases hAfter.mpr ⟨.inl hAsked, hCancelled⟩ with hOld | hNew
    · rw [(hBefore.mp hOld).2] at hOpen
      cases hOpen
    · exact hNew

------------------------------------------------------------
-- The Law
------------------------------------------------------------

/- What has happened stays in the past. -/
theorem Happened.later
    {steps : List TokenStep}
    {P : List TokenStep → TokenStep → Prop}
    (hHappened : Happened steps P)
    (more : List TokenStep) :
    Happened (steps ++ more) P := by
  obtain ⟨before, s, hPrefix, hP⟩ := hHappened
  exact ⟨before, s, hPrefix.trans (List.prefix_append steps more), hP⟩

theorem lt_of_transGen_derived
    {steps : List TokenStep}
    {u a : Nat}
    (hAncestor : Relation.TransGen (Derived steps) u a) :
    u < a := by
  induction hAncestor with
  | single hDerived => exact ((kin_after steps).later _ _ hDerived).1
  | tail above hDerived ih =>
      exact Nat.lt_trans ih ((kin_after steps).later _ _ hDerived).1

/- No way leads down from a token to its siblings. -/
theorem not_reaches_sibling
    {steps : List TokenStep}
    {p a u : Nat}
    (hDerived : Derived steps p a)
    (hSibling : Derived steps p u)
    (hOther : u ≠ a) :
    ¬ Reaches steps a u := by
  intro hReaches
  cases hReaches with
  | self hHolds => exact hOther rfl
  | @step q _ above hDerived' hHolds =>
      obtain rfl :=
        (kin_after steps).parent p q u hSibling hDerived'
      have hLater := ((kin_after steps).later p a hDerived).1
      have hLe := above.le
      omega

theorem apply_cancel
    {b : TokenTable}
    {h a : Nat}
    (hToken : b.token? h = some a) :
    (b.apply (.cancel h)).2 =
      { b with
        forest := (b.forest.cancel a).2
        woken := b.woken ++ (b.forest.cancel a).1 } := by
  simp [TokenTable.apply, hToken]

/- A token is cancelled once. -/
theorem apply_cancel_twice
    {b : TokenTable}
    (hCounted : b.Counted)
    (h : Nat) :
    ((b.apply (.cancel h)).2.apply (.cancel h)).2 =
      (b.apply (.cancel h)).2 := by
  cases hToken : b.token? h with
  | none => simp [TokenTable.apply, hToken]
  | some a =>
      have hCancelled : (b.forest.cancel a).2.isCancelled a = true :=
        TokenForest.isCancelled_cancel
          (hCounted.lt_size ⟨h, hToken⟩)
      have hLater : (b.apply (.cancel h)).2.token? h = some a := by
        rw [apply_cancel hToken]
        exact hToken
      rw [apply_cancel hLater]
      simp [apply_cancel hToken,
        TokenForest.cancel_of_isCancelled hCancelled]

/-
  What cancellations come to, after any operations.  A token
  is cancelled if and only if a cancellation has found a way
  down to it, or it was derived from one that was cancelled
  already; and it stays so.
-/
structure Cascades (steps : List TokenStep) : Prop where
  cancelled :
    ∀ t, (after steps).forest.isCancelled t = true ↔
      Called steps t ∨ Stillborn steps t
  stays :
    ∀ more t, (after steps).forest.isCancelled t = true →
      (after (steps ++ more)).forest.isCancelled t = true
  /- A cancellation changes nothing but what is below it. -/
  apart :
    ∀ h a, (after steps).token? h = some a →
      ∀ u, ¬ Reaches steps a u →
        (after (steps ++ [.cancel h])).forest.tokens[u]? =
          (after steps).forest.tokens[u]?
  ancestors :
    ∀ a u, Relation.TransGen (Derived steps) u a →
      ¬ Reaches steps a u
  siblings :
    ∀ p a u, Derived steps p a → Derived steps p u → u ≠ a →
      ¬ Reaches steps a u
  unrelated :
    ∀ a u, ¬ Relation.ReflTransGen (Derived steps) a u →
      ¬ Reaches steps a u
  /- Those left waiting are woken once, by what cancels their
     token, and no one else is. -/
  wakes :
    ∀ s, ∃ news,
      (after (steps ++ [s])).woken = (after steps).woken ++ news ∧
      ∀ t w, (t, w) ∈ news ↔
        Registered steps t w ∧
        (after steps).forest.isCancelled t = false ∧
        (after (steps ++ [s])).forest.isCancelled t = true
  woken :
    (after steps).woken.Nodup ∧
    ∀ t w, (t, w) ∈ (after steps).woken ↔
      Registered steps t w ∧
      (after steps).forest.isCancelled t = true
  /- The walk of a cancellation comes to an end. -/
  ends :
    ∀ h a, (after steps).token? h = some a →
      (after steps).forest.Walks [a]
        ((after steps).forest.cancel a).1
        ((after steps).forest.cancel a).2
  idempotent :
    ∀ h, after (steps ++ [.cancel h, .cancel h]) =
      after (steps ++ [.cancel h])

/- This is so whatever is done with any number of tokens. -/
theorem after_cascades (steps : List TokenStep) :
    Cascades steps where
  cancelled := isCancelled_iff steps
  stays := by
    intro more t hCancelled
    rw [isCancelled_iff] at hCancelled ⊢
    exact hCancelled.imp (·.later more) (·.later more)
  apart := by
    intro h a hToken u hApart
    rw [after_concat, apply_cancel hToken]
    exact getElem?_cancel_of_not_reaches ⟨h, hToken⟩ hApart
  ancestors := by
    intro a u hAncestor hReaches
    have hLt := lt_of_transGen_derived hAncestor
    have hLe := hReaches.le
    omega
  siblings := fun _ _ _ => not_reaches_sibling
  unrelated := by
    intro a u hUnrelated hReaches
    exact hUnrelated hReaches.descends
  wakes := woken_concat steps
  woken :=
    ⟨(attended_after steps).wokenOnce, (attended_after steps).woken⟩
  ends := by
    intro h a hToken
    apply TokenForest.walks_cancelAll
    simpa using (counted_after steps).lt_size ⟨h, hToken⟩
  idempotent := by
    intro h
    rw [List.append_cons, after_concat, after_concat]
    exact apply_cancel_twice (counted_after steps) h

end TokenTable

end DeviceSession
