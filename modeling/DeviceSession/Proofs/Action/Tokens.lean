import DeviceSession.Action.Token
import Mathlib.Data.List.Chain

/-
  Lines of tokens.

  The tokens of nested actions form a line: each is derived
  from the one before it, and is held.  The tokens know of
  each other in such a way that a cancellation of one reaches
  all that follow.  Whatever happens to the forest, a line
  stays one.

  Key definitions include:
    * `TokenForest.childrenOf`
    * `TokenForest.Closes`
    * `TokenForest.Passes`
    * `TokenForest.Line`

  Main declarations:
    * `TokenForest.closes_cancelAll`
    * `TokenForest.Line.cancel`
    * `TokenForest.Line.child`
    * `TokenForest.Line.isCancelled`
-/

------------------------------------------------------------
-- Single Tokens
------------------------------------------------------------

namespace DeviceSession

namespace TokenForest

/- The tokens that a token knows to be derived from it. -/
def childrenOf (f : TokenForest) (t : Nat) : List Nat :=
  (f.tokens[t]?.map Token.children).getD []

/- Only tokens that exist are held. -/
theorem lt_size_of_isHeld
    {f : TokenForest}
    {t : Nat}
    (hHeld : f.isHeld t = true) :
    t < f.tokens.size := by
  unfold isHeld at hHeld
  split at hHeld
  · rename_i token hToken
    exact (Array.getElem?_eq_some_iff.mp hToken).1
  · simp at hHeld

------------------------------------------------------------
-- Closing Tokens
------------------------------------------------------------

/- The forest after one of its tokens has been cancelled. -/
def close
    (f : TokenForest)
    (t : Nat)
    (hSize : t < f.tokens.size) : TokenForest :=
  ⟨f.tokens.set t f.tokens[t].closed⟩

section close

variable {f : TokenForest} {t : Nat}
variable (hSize : t < f.tokens.size)

include hSize

/- To close a token adds none. -/
theorem size_close :
    (f.close t hSize).tokens.size = f.tokens.size := by
  simp [close]

/- It gives up no handle either. -/
theorem isHeld_close (u : Nat) :
    (f.close t hSize).isHeld u = f.isHeld u := by
  unfold isHeld close
  by_cases hSame : t = u
  · subst u
    simp [hSize, Token.closed]
  · simp [hSame]

/- The token is cancelled then. -/
theorem isCancelled_close_self :
    (f.close t hSize).isCancelled t = true := by
  simp [isCancelled, close, Token.closed]

/- No other is. -/
theorem isCancelled_close_of_ne
    {u : Nat}
    (hOther : t ≠ u) :
    (f.close t hSize).isCancelled u = f.isCancelled u := by
  simp [isCancelled, close, hOther]

/- The others keep what depends on them. -/
theorem childrenOf_close_of_ne
    {u : Nat}
    (hOther : t ≠ u) :
    (f.close t hSize).childrenOf u = f.childrenOf u := by
  simp [childrenOf, close, hOther]

end close

------------------------------------------------------------
-- Cancelling Tokens
------------------------------------------------------------

/-
  What a cancellation does to a forest.  A token that it
  cancels passes it on to the tokens that were derived from
  it and are held.
-/
structure Closes (f g : TokenForest) : Prop where
  size : g.tokens.size = f.tokens.size
  held : ∀ t, g.isHeld t = f.isHeld t
  cancelled :
    ∀ t, f.isCancelled t = true → g.isCancelled t = true
  children :
    ∀ t, g.isCancelled t = false →
      g.childrenOf t = f.childrenOf t
  passed :
    ∀ t, f.isCancelled t = false → g.isCancelled t = true →
      ∀ c ∈ f.childrenOf t, f.isHeld c = true →
        g.isCancelled c = true

/- Nothing needs to be cancelled. -/
theorem Closes.refl (f : TokenForest) : f.Closes f where
  size := rfl
  held := fun _ => rfl
  cancelled := fun _ hCancelled => hCancelled
  children := fun _ _ => rfl
  passed := by
    intro t hOpen hCancelled
    simp [hOpen] at hCancelled

/-
  A token is closed first, and the tokens derived from it are
  cancelled then.
-/
theorem Closes.of_close
    {f g : TokenForest}
    {t : Nat}
    (hSize : t < f.tokens.size)
    (hCloses : (f.close t hSize).Closes g)
    (hChildren :
      ∀ c ∈ f.childrenOf t, f.isHeld c = true →
        g.isCancelled c = true) :
    f.Closes g where
  size := hCloses.size.trans (size_close hSize)
  held := fun u =>
    (hCloses.held u).trans (isHeld_close hSize u)
  cancelled := by
    intro u hCancelled
    apply hCloses.cancelled
    by_cases hSame : t = u
    · subst u
      exact isCancelled_close_self hSize
    · rwa [isCancelled_close_of_ne hSize hSame]
  children := by
    intro u hOpen
    have hOther : t ≠ u := by
      rintro rfl
      rw [hCloses.cancelled t (isCancelled_close_self hSize)]
        at hOpen
      cases hOpen
    rw [hCloses.children u hOpen,
      childrenOf_close_of_ne hSize hOther]
  passed := by
    intro u hOpen hCancelled c hChild hHeld
    by_cases hSame : t = u
    · subst u
      exact hChildren c hChild hHeld
    · apply hCloses.passed u _ hCancelled c
      · rwa [childrenOf_close_of_ne hSize hSame]
      · rwa [isHeld_close]
      · rwa [isCancelled_close_of_ne hSize hSame]

/-
  Cancelling tokens in turn cancels each that there is, and
  what was derived from it.
-/
theorem closes_cancelAll
    (f : TokenForest)
    (ts : List Nat) :
    f.Closes (f.cancelAll ts).2 ∧
    ∀ t ∈ ts, t < f.tokens.size →
      (f.cancelAll ts).2.isCancelled t = true := by
  fun_induction cancelAll f ts with
  | case1 f => exact ⟨.refl f, by simp⟩
  | case2 f t ts hSize x hOpen held g _ woken f' hRest ih =>
      rw [hRest] at ih
      rcases ih with ⟨hCloses, hListed⟩
      have hListed : ∀ u ∈ held ++ ts, u < f.tokens.size →
          f'.isCancelled u = true := by
        intro u hMem hBound
        exact hListed u hMem ((size_close hSize).symm ▸ hBound)
      constructor
      · apply Closes.of_close hSize hCloses
        intro c hChild hHeld
        have hMem : c ∈ held := by
          simp only [held, List.mem_filter]
          exact ⟨by simpa [childrenOf, hSize] using hChild,
            hHeld⟩
        exact hListed c (List.mem_append_left ts hMem)
          (lt_size_of_isHeld hHeld)
      · intro u hMem hBound
        rcases List.mem_cons.mp hMem with rfl | hLater
        · exact hCloses.cancelled u
            (isCancelled_close_self hSize)
        · exact hListed u (List.mem_append_right held hLater)
            hBound
  | case3 f t ts hSize x hClosed ih =>
      refine ⟨ih.1, ?_⟩
      intro u hMem hBound
      rcases List.mem_cons.mp hMem with rfl | hLater
      · apply ih.1.cancelled
        simpa [isCancelled, hSize] using hClosed
      · exact ih.2 u hLater hBound
  | case4 f t ts hOutside ih =>
      refine ⟨ih.1, ?_⟩
      intro u hMem hBound
      rcases List.mem_cons.mp hMem with rfl | hLater
      · exact absurd hBound hOutside
      · exact ih.2 u hLater hBound

/- To cancel a token closes it and what depends on it. -/
theorem closes_cancel (f : TokenForest) (t : Nat) :
    f.Closes (f.cancel t).2 :=
  (f.closes_cancelAll [t]).1

/- At least the token itself is cancelled. -/
theorem isCancelled_cancel
    {f : TokenForest}
    {t : Nat}
    (hSize : t < f.tokens.size) :
    (f.cancel t).2.isCancelled t = true :=
  (f.closes_cancelAll [t]).2 t (by simp) hSize

------------------------------------------------------------
-- Deriving Tokens
------------------------------------------------------------

section child

variable {f : TokenForest} {t u : Nat}

/- A token of which the given one has just been derived. -/
def adopt (f : TokenForest) (x : Token) : Token :=
  let held := x.children.filter f.isHeld
  { x with
    children :=
      if x.cancelled then held else held ++ [f.tokens.size] }

/- A token that is derived is known to its parent alone. -/
theorem getElem?_child_of_ne
    (hOld : u ≠ f.tokens.size) :
    (f.child t).2.tokens[u]? =
      if t = u then f.tokens[u]?.map f.adopt
      else f.tokens[u]? := by
  simp only [child, modify, Array.getElem?_push,
    Array.size_modify, hOld, if_false, Array.getElem?_modify]
  rfl

/- It is cancelled from the start if its parent is. -/
theorem getElem?_child_self (f : TokenForest) (t : Nat) :
    (f.child t).2.tokens[(f.child t).1]? =
      some { cancelled := f.isCancelled t } := by
  simp only [child, modify, Array.getElem?_push,
    Array.size_modify, if_true]

/- The tokens there were are cancelled as before. -/
theorem isCancelled_child_of_ne
    (hOld : u ≠ f.tokens.size) :
    (f.child t).2.isCancelled u = f.isCancelled u := by
  unfold isCancelled
  rw [getElem?_child_of_ne hOld]
  split
  · rw [Option.map_map]
    rfl
  · rfl

/- The new one is what its parent is. -/
theorem isCancelled_child_self (f : TokenForest) (t : Nat) :
    (f.child t).2.isCancelled (f.child t).1 =
      f.isCancelled t := by
  rw [isCancelled, getElem?_child_self]
  rfl

/- Those held before are held. -/
theorem isHeld_child_of_ne
    (hOld : u ≠ f.tokens.size) :
    (f.child t).2.isHeld u = f.isHeld u := by
  unfold isHeld
  rw [getElem?_child_of_ne hOld]
  by_cases hSame : t = u
  · rw [if_pos hSame]
    cases f.tokens[u]? <;> rfl
  · rw [if_neg hSame]

/- So is the new one. -/
theorem isHeld_child_self (f : TokenForest) (t : Nat) :
    (f.child t).2.isHeld (f.child t).1 = true := by
  rw [isHeld, getElem?_child_self]
  rfl

/- A token goes on knowing of those that are held. -/
theorem mem_childrenOf_child
    {c : Nat}
    (hOld : u ≠ f.tokens.size)
    (hChild : c ∈ f.childrenOf u)
    (hHeld : f.isHeld c = true) :
    c ∈ (f.child t).2.childrenOf u := by
  unfold childrenOf at hChild ⊢
  rw [getElem?_child_of_ne hOld]
  cases hToken : f.tokens[u]? with
  | none => simp [hToken] at hChild
  | some x =>
      replace hChild : c ∈ x.children := by
        simpa [hToken] using hChild
      have hKept : c ∈ x.children.filter f.isHeld :=
        List.mem_filter.mpr ⟨hChild, hHeld⟩
      split
      · cases hCancelled : x.cancelled <;>
          simp [adopt, hCancelled, hChild, hHeld]
      · exact hChild

/- It depends on a parent that is not cancelled. -/
theorem self_mem_childrenOf_child
    (hSize : t < f.tokens.size)
    (hOpen : f.isCancelled t = false) :
    (f.child t).1 ∈ (f.child t).2.childrenOf t := by
  rw [childrenOf, getElem?_child_of_ne (Nat.ne_of_lt hSize)]
  have hToken : f.tokens[t].cancelled = false := by
    simpa [isCancelled, hSize] using hOpen
  simp [hSize, adopt, hToken, child]

end child

section release

variable {f : TokenForest} {t u : Nat}

/- To release is to count one handle less. -/
theorem getElem?_release (f : TokenForest) (t u : Nat) :
    (f.release t).tokens[u]? =
      if t = u then
        f.tokens[u]?.map fun x =>
          { x with handles := x.handles - 1 }
      else f.tokens[u]? := by
  simp only [release, modify, Array.getElem?_modify]

/- It cancels nothing. -/
@[simp]
theorem isCancelled_release (f : TokenForest) (t u : Nat) :
    (f.release t).isCancelled u = f.isCancelled u := by
  unfold isCancelled
  rw [getElem?_release]
  split
  · rw [Option.map_map]
    rfl
  · rfl

/- It cuts nothing off. -/
@[simp]
theorem childrenOf_release (f : TokenForest) (t u : Nat) :
    (f.release t).childrenOf u = f.childrenOf u := by
  unfold childrenOf
  rw [getElem?_release]
  split
  · rw [Option.map_map]
    rfl
  · rfl

/- It concerns one token. -/
theorem isHeld_release_of_ne
    (hOther : t ≠ u) :
    (f.release t).isHeld u = f.isHeld u := by
  unfold isHeld
  rw [getElem?_release, if_neg hOther]

end release

------------------------------------------------------------
-- Lines
------------------------------------------------------------

/-
  A token passes cancellation on to a later one that it knows
  of, unless that one is cancelled anyway.
-/
def Passes (f : TokenForest) (t c : Nat) : Prop :=
  t < c ∧
  (f.isCancelled c = true ∨
    f.isCancelled t = false ∧ c ∈ f.childrenOf t)

/- Tokens that are held, each derived from the one before. -/
structure Line (f : TokenForest) (ts : List Nat) : Prop where
  held : ∀ t ∈ ts, f.isHeld t = true
  chain : ts.IsChain f.Passes

namespace Line

variable {f g : TokenForest} {ts : List Nat} {t : Nat}

/- A line on which the first token is cancelled. -/
theorem isCancelled
    (hLine : f.Line (t :: ts))
    (hFirst : f.isCancelled t = true) :
    ∀ u ∈ t :: ts, f.isCancelled u = true := by
  have hChain := hLine.chain
  clear hLine
  induction ts generalizing t with
  | nil => simpa using hFirst
  | cons c ts ih =>
      rw [List.isChain_cons_cons] at hChain
      have hNext : f.isCancelled c = true := by
        rcases hChain.1.2 with hCancelled | ⟨hOpen, -⟩
        · exact hCancelled
        · simp [hFirst] at hOpen
      intro u hMem
      rcases List.mem_cons.mp hMem with rfl | hLater
      · exact hFirst
      · exact ih hNext hChain.2 u hLater

/- The last token of a line is none of the others. -/
theorem ne_last
    (hLine : f.Line (ts ++ [t])) :
    ∀ u ∈ ts, t ≠ u := by
  have hSorted : (ts ++ [t]).Pairwise (· < ·) :=
    List.isChain_iff_pairwise.mp
      (hLine.chain.imp fun _ _ hPasses => hPasses.1)
  intro u hMem
  exact Nat.ne_of_gt
    ((List.pairwise_append.mp hSorted).2.2 u hMem t (by simp))

/- A cancellation leaves a line that follows it. -/
theorem closes
    (hLine : f.Line ts)
    (hCloses : f.Closes g) :
    g.Line ts where
  held := by
    intro u hMem
    rw [hCloses.held]
    exact hLine.held u hMem
  chain := by
    apply hLine.chain.imp_of_mem_imp
    intro u c hMem hMem' hPasses
    refine ⟨hPasses.1, ?_⟩
    rcases hPasses.2 with hCancelled | ⟨hOpen, hChild⟩
    · exact .inl (hCloses.cancelled c hCancelled)
    · cases hLater : g.isCancelled u with
      | true =>
          exact .inl (hCloses.passed u hOpen hLater c hChild
            (hLine.held c hMem'))
      | false =>
          refine .inr ⟨rfl, ?_⟩
          rwa [hCloses.children u hLater]

/- A line is continued by a token derived from its last. -/
theorem child
    (hLine : f.Line (ts ++ [t])) :
    (f.child t).2.Line (ts ++ [t, (f.child t).1]) := by
  have hLast : t < f.tokens.size :=
    lt_size_of_isHeld (hLine.held t (by simp))
  have hOld : ∀ u ∈ ts ++ [t], u ≠ f.tokens.size :=
    fun u hMem =>
      Nat.ne_of_lt (lt_size_of_isHeld (hLine.held u hMem))
  rw [List.append_cons]
  constructor
  · intro u hMem
    rcases List.mem_append.mp hMem with hBefore | hNew
    · rw [isHeld_child_of_ne (hOld u hBefore)]
      exact hLine.held u hBefore
    · obtain rfl : u = (f.child t).1 := by simpa using hNew
      exact isHeld_child_self f t
  · rw [List.append_assoc, List.singleton_append,
      List.isChain_append_cons_cons]
    refine ⟨?_, ⟨hLast, ?_⟩, List.isChain_singleton _⟩
    · apply hLine.chain.imp_of_mem_imp
      intro u c hMem hMem' hPasses
      refine ⟨hPasses.1, ?_⟩
      rw [isCancelled_child_of_ne (hOld u hMem),
        isCancelled_child_of_ne (hOld c hMem')]
      rcases hPasses.2 with hCancelled | ⟨hOpen, hChild⟩
      · exact .inl hCancelled
      · exact .inr ⟨hOpen,
          mem_childrenOf_child (hOld u hMem) hChild
            (hLine.held c hMem')⟩
    · rw [isCancelled_child_of_ne (hOld t (by simp)),
        isCancelled_child_self]
      cases hCancelled : f.isCancelled t with
      | true => exact .inl rfl
      | false =>
          exact .inr ⟨rfl, self_mem_childrenOf_child hLast
            hCancelled⟩

/- A line is left when its last token is released. -/
theorem release
    (hLine : f.Line (ts ++ [t])) :
    (f.release t).Line ts where
  held := by
    intro u hMem
    rw [isHeld_release_of_ne (hLine.ne_last u hMem)]
    exact hLine.held u (List.mem_append_left [t] hMem)
  chain := by
    apply hLine.chain.left_of_append.imp
    intro u c hPasses
    simpa [Passes] using hPasses

end Line

end TokenForest

end DeviceSession
