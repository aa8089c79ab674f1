import DeviceSession.Proofs.Action.Tokens
import Mathlib.Data.List.Nodup
import Mathlib.Logic.Relation

/-
  What a cancellation does to a forest.

  A cancellation closes tokens, and leaves the others as they
  are.  It gets to a token only from one that is cancelled,
  through tokens that know of each other and are held.  The
  waiters of each token that it closes are woken, once.

  The tokens may as well be walked through one below another.
  Such a walk comes to an end, and does the same.

  Key definitions include:
    * `TokenForest.waitersOf`
    * `TokenForest.Links`
    * `TokenForest.Walks`

  Main declarations:
    * `TokenForest.getElem?_cancelAll`
    * `TokenForest.linked_of_cancelAll`
    * `TokenForest.mem_woken_cancelAll`
    * `TokenForest.walks_cancelAll`
-/

------------------------------------------------------------
-- Closing Tokens
------------------------------------------------------------

namespace DeviceSession

namespace TokenForest

/- Who waits for a token to be cancelled. -/
def waitersOf (f : TokenForest) (t : Nat) : List Nat :=
  (f.tokens[t]?.map Token.waiters).getD []

/- A token passes a cancellation on to another one. -/
def Links (f : TokenForest) (p c : Nat) : Prop :=
  c ∈ f.childrenOf p ∧ f.isHeld c = true

theorem isCancelled_eq_false
    {f : TokenForest}
    {t : Nat}
    (hSize : f.tokens.size ≤ t) :
    f.isCancelled t = false := by
  simp [isCancelled, hSize]

section close

variable {f : TokenForest} {t u : Nat}
variable (hSize : t < f.tokens.size)

include hSize

theorem getElem?_close :
    (f.close t hSize).tokens[u]? =
      if t = u then f.tokens[u]?.map Token.closed
      else f.tokens[u]? := by
  by_cases hSame : t = u
  · subst u
    simp [close, hSize]
  · simp [close, hSame]

theorem waitersOf_close_of_ne
    (hOther : t ≠ u) :
    (f.close t hSize).waitersOf u = f.waitersOf u := by
  simp [waitersOf, close, hOther]

/- A token that is closed passes nothing on any more. -/
theorem links_of_close
    {p c : Nat}
    (hLinks : (f.close t hSize).Links p c) :
    f.Links p c := by
  rcases hLinks with ⟨hChild, hHeld⟩
  rw [isHeld_close] at hHeld
  by_cases hSame : t = p
  · subst p
    simp [childrenOf, close, Token.closed] at hChild
  · rw [childrenOf_close_of_ne hSize hSame] at hChild
    exact ⟨hChild, hHeld⟩

end close

------------------------------------------------------------
-- Which Tokens Are Closed
------------------------------------------------------------

variable {f : TokenForest} {ts : List Nat} {u : Nat}

/- A token is left as it is, or it was open and is closed. -/
theorem getElem?_cancelAll
    (f : TokenForest)
    (ts : List Nat)
    (u : Nat) :
    (f.cancelAll ts).2.tokens[u]? = f.tokens[u]? ∨
    f.isCancelled u = false ∧
    (f.cancelAll ts).2.tokens[u]? =
      f.tokens[u]?.map Token.closed := by
  fun_induction cancelAll f ts with
  | case1 f => exact .inl rfl
  | case2 f t ts hSize x hOpen held g _ woken f' hRest ih =>
      rw [hRest] at ih
      change
        f'.tokens[u]? = (f.close t hSize).tokens[u]? ∨
        (f.close t hSize).isCancelled u = false ∧
        f'.tokens[u]? =
          (f.close t hSize).tokens[u]?.map Token.closed at ih
      by_cases hSame : t = u
      · subst u
        rw [getElem?_close hSize, if_pos rfl,
          isCancelled_close_self] at ih
        rcases ih with hKept | ⟨hFalse, -⟩
        · refine .inr ⟨?_, hKept⟩
          simpa [isCancelled, hSize] using hOpen
        · cases hFalse
      · rwa [getElem?_close hSize, if_neg hSame,
          isCancelled_close_of_ne hSize hSame] at ih
  | case3 f t ts hSize x hClosed ih => exact ih
  | case4 f t ts hOutside ih => exact ih

/- Whether a token was closed can be seen from outside. -/
theorem getElem?_cancel (f : TokenForest) (t u : Nat) :
    (f.cancel t).2.tokens[u]? =
      if (f.cancel t).2.isCancelled u = f.isCancelled u then
        f.tokens[u]?
      else f.tokens[u]?.map Token.closed := by
  rcases f.getElem?_cancelAll [t] u with hSame | ⟨hOpen, hClosed⟩
  · rw [cancel, isCancelled, hSame]
    exact (if_pos rfl).symm
  · rw [cancel, isCancelled, hClosed, hOpen]
    cases f.tokens[u]? <;> rfl

theorem childrenOf_cancel_subset
    {t : Nat} :
    (f.cancel t).2.childrenOf u ⊆ f.childrenOf u := by
  rw [childrenOf, getElem?_cancel]
  split
  · exact List.Subset.refl _
  · cases f.tokens[u]? <;> simp [Token.closed]

/- A cancellation gets nowhere but from token to token. -/
theorem linked_of_cancelAll
    (f : TokenForest)
    (ts : List Nat)
    (hOpen : f.isCancelled u = false)
    (hCancelled : (f.cancelAll ts).2.isCancelled u = true) :
    ∃ t ∈ ts, Relation.ReflTransGen f.Links t u := by
  fun_induction cancelAll f ts with
  | case1 f => simp [hOpen] at hCancelled
  | case2 f t ts hSize x hOpen' held g _ woken f' hRest ih =>
      rw [hRest] at ih
      by_cases hSame : t = u
      · subst u
        exact ⟨t, by simp, .refl⟩
      have hStill : g.isCancelled u = false :=
        (isCancelled_close_of_ne hSize hSame).trans hOpen
      obtain ⟨v, hMem, hLinked⟩ := ih hStill hCancelled
      have hLinked : Relation.ReflTransGen f.Links v u :=
        Relation.ReflTransGen.mono
          (fun _ _ => links_of_close hSize) v u hLinked
      rcases List.mem_append.mp hMem with hHeld | hLater
      · obtain ⟨hChild, hHeld⟩ := List.mem_filter.mp hHeld
        refine ⟨t, by simp, .head ⟨?_, hHeld⟩ hLinked⟩
        simpa [childrenOf, hSize] using hChild
      · exact ⟨v, List.mem_cons_of_mem t hLater, hLinked⟩
  | case3 f t ts hSize x hClosed ih =>
      obtain ⟨v, hMem, hLinked⟩ := ih hOpen hCancelled
      exact ⟨v, List.mem_cons_of_mem t hMem, hLinked⟩
  | case4 f t ts hOutside ih =>
      obtain ⟨v, hMem, hLinked⟩ := ih hOpen hCancelled
      exact ⟨v, List.mem_cons_of_mem t hMem, hLinked⟩

------------------------------------------------------------
-- Who Is Woken
------------------------------------------------------------

/- Those are woken who wait for a token that is closed. -/
theorem mem_woken_cancelAll
    (f : TokenForest)
    (ts : List Nat)
    (u w : Nat) :
    (u, w) ∈ (f.cancelAll ts).1 ↔
      w ∈ f.waitersOf u ∧
      f.isCancelled u = false ∧
      (f.cancelAll ts).2.isCancelled u = true := by
  fun_induction cancelAll f ts with
  | case1 f => simp
  | case2 f t ts hSize x hOpen held g _ woken f' hRest ih =>
      have hClose : g = f.close t hSize := rfl
      have hCloses := (g.closes_cancelAll (held ++ ts)).1
      rw [hRest, hClose] at hCloses ih
      rw [List.mem_append, ih]
      by_cases hSame : t = u
      · subst u
        have hClosed : f'.isCancelled t = true :=
          hCloses.cancelled t (isCancelled_close_self hSize)
        have hOpen' : f.isCancelled t = false := by
          simpa [isCancelled, hSize] using hOpen
        simp [hClosed, hOpen', isCancelled_close_self hSize,
          waitersOf, hSize, x]
      · simp [hSame, waitersOf_close_of_ne hSize hSame,
          isCancelled_close_of_ne hSize hSame]
  | case3 f t ts hSize x hClosed ih => exact ih
  | case4 f t ts hOutside ih => exact ih

/- A token changes only by being cancelled. -/
theorem Closes.isCancelled_of_ne
    {g : TokenForest}
    (hCloses : f.Closes g)
    (hChanged : g.isCancelled u ≠ f.isCancelled u) :
    g.isCancelled u = true := by
  cases hBefore : f.isCancelled u with
  | true => exact hCloses.cancelled u hBefore
  | false =>
      rwa [hBefore, Bool.ne_false_iff] at hChanged

/- Nobody waits any more for a token that is closed. -/
theorem waitersOf_cancel
    {t : Nat} :
    (f.cancel t).2.waitersOf u =
      if (f.cancel t).2.isCancelled u = f.isCancelled u then
        f.waitersOf u
      else [] := by
  rw [waitersOf, getElem?_cancel]
  split
  · rfl
  · cases f.tokens[u]? <;> rfl

/- Nobody is woken twice for the same token. -/
theorem nodup_woken_cancelAll
    (f : TokenForest)
    (ts : List Nat)
    (hNodup : ∀ t, (f.waitersOf t).Nodup) :
    (f.cancelAll ts).1.Nodup := by
  fun_induction cancelAll f ts with
  | case1 f => exact List.nodup_nil
  | case2 f t ts hSize x hOpen held g _ woken f' hRest ih =>
      have hClose : g = f.close t hSize := rfl
      have hWoken := g.mem_woken_cancelAll (held ++ ts)
      rw [hRest, hClose] at hWoken ih
      have hFirst : x.waiters.Nodup := by
        simpa [waitersOf, hSize] using hNodup t
      have hLater : woken.Nodup := by
        apply ih
        intro u
        by_cases hSame : t = u
        · subst u
          simp [waitersOf, close, Token.closed]
        · rw [waitersOf_close_of_ne hSize hSame]
          exact hNodup u
      rw [List.nodup_append]
      refine ⟨?_, hLater, ?_⟩
      · exact hFirst.map fun _ _ hSame => (Prod.mk.inj hSame).2
      · rintro ⟨u, w⟩ hMem p hMem' rfl
        obtain ⟨-, rfl⟩ : w ∈ x.waiters ∧ t = u := by
          simpa using hMem
        have hStill := ((hWoken t w).mp hMem').2.1
        rw [isCancelled_close_self hSize] at hStill
        cases hStill
  | case3 f t ts hSize x hClosed ih => exact ih hNodup
  | case4 f t ts hOutside ih => exact ih hNodup

------------------------------------------------------------
-- A Walk from Token to Token
------------------------------------------------------------

/-
  A walk through tokens and those below them.  A token that
  is open is closed and its waiters are woken; then come the
  tokens that were derived from it, if they are held, with
  all that is below them; and then the others.
-/
inductive Walks :
    TokenForest →
    List Nat →
    List (Nat × Nat) →
    TokenForest → Prop
  | nil (f : TokenForest) : Walks f [] [] f
  | skip
      {f g : TokenForest}
      {t : Nat}
      {ts : List Nat}
      {woken : List (Nat × Nat)}
      (hCancelled : f.isCancelled t = true)
      (rest : Walks f ts woken g) :
      Walks f (t :: ts) woken g
  | close
      {f g f' : TokenForest}
      {t : Nat}
      {ts : List Nat}
      {woken later : List (Nat × Nat)}
      (hSize : t < f.tokens.size)
      (hOpen : f.isCancelled t = false)
      (below :
        Walks (f.close t hSize) ((f.childrenOf t).filter f.isHeld)
          woken g)
      (rest : Walks g ts later f') :
      Walks f (t :: ts)
        ((f.waitersOf t).map (t, ·) ++ woken ++ later) f'

/- A walk through some tokens and then others is two walks. -/
theorem Walks.of_append
    {f g : TokenForest}
    {ts us : List Nat}
    {woken : List (Nat × Nat)}
    (hWalks : Walks f (ts ++ us) woken g) :
    ∃ first later m,
      woken = first ++ later ∧
      Walks f ts first m ∧
      Walks m us later g := by
  induction ts generalizing f woken with
  | nil => exact ⟨[], woken, f, rfl, .nil f, hWalks⟩
  | cons t ts ih =>
      cases hWalks with
      | skip hCancelled rest =>
          obtain ⟨first, later, m, rfl, hFirst, hLater⟩ := ih rest
          exact ⟨first, later, m, rfl, .skip hCancelled hFirst,
            hLater⟩
      | close hSize hOpen below rest =>
          obtain ⟨first, later, m, rfl, hFirst, hLater⟩ := ih rest
          exact ⟨_, later, m, by simp,
            .close hSize hOpen below hFirst, hLater⟩

/- The walk through tokens comes to an end. -/
theorem walks_cancelAll
    (f : TokenForest)
    (ts : List Nat)
    (hSize : ∀ t ∈ ts, t < f.tokens.size) :
    Walks f ts (f.cancelAll ts).1 (f.cancelAll ts).2 := by
  fun_induction cancelAll f ts with
  | case1 f => exact .nil f
  | case2 f t ts hBound x hOpen held g _ woken f' hRest ih =>
      rw [List.forall_mem_cons] at hSize
      have hHeld : (f.childrenOf t).filter f.isHeld = held := by
        simp [childrenOf, hBound, held, x]
      have hWaiters : f.waitersOf t = x.waiters := by
        simp [waitersOf, hBound, x]
      have hBounds : ∀ u ∈ held ++ ts, u < g.tokens.size := by
        intro u hMem
        change u < (f.close t hBound).tokens.size
        rw [size_close hBound]
        rcases List.mem_append.mp hMem with hHeld | hLater
        · exact lt_size_of_isHeld (List.mem_filter.mp hHeld).2
        · exact hSize.2 u hLater
      rw [hRest] at ih
      obtain ⟨first, later, m, rfl, hBelow, hLater⟩ :=
        (ih hBounds).of_append
      rw [← List.append_assoc, ← hWaiters]
      refine .close hBound ?_ ?_ hLater
      · simpa [isCancelled, hBound] using hOpen
      · rw [hHeld]
        exact hBelow
  | case3 f t ts hBound x hClosed ih =>
      rw [List.forall_mem_cons] at hSize
      apply Walks.skip _ (ih hSize.2)
      simpa [isCancelled, hBound] using hClosed
  | case4 f t ts hOutside ih =>
      exact absurd (hSize t (by simp)) hOutside

/- A token that is cancelled already is left alone. -/
theorem cancel_of_isCancelled
    {t : Nat}
    (hCancelled : f.isCancelled t = true) :
    f.cancel t = ([], f) := by
  have hSize : t < f.tokens.size := by
    by_contra hOutside
    rw [isCancelled_eq_false (Nat.le_of_not_lt hOutside)]
      at hCancelled
    cases hCancelled
  have hClosed : f.tokens[t].cancelled = true := by
    simpa [isCancelled, hSize] using hCancelled
  rw [cancel, cancelAll, dif_pos hSize]
  simp [hClosed, cancelAll]

end TokenForest

end DeviceSession
