import DeviceSession.Proofs.Action.Cancelling

/-
  Handles to tokens, and what an operation does.

  A token counts the handles to it that have been given out
  and not been released.  So it is held exactly as long as
  there is one of them.

  An operation derives a token, or cancels one and what
  depends on it, or notes a waiter.  Any other leaves all
  tokens as they are, but for their handles.

  Key definitions include:
    * `TokenForest.handlesOf`
    * `TokenForest.Keeps`
    * `TokenTable.Holds`
    * `TokenTable.Counted`
    * `TokenTable.Change`

  Main declarations:
    * `TokenTable.Counted.isHeld_iff`
    * `TokenTable.Counted.apply`
    * `TokenTable.Counted.change`
-/

------------------------------------------------------------
-- Counting Handles
------------------------------------------------------------

namespace DeviceSession

namespace TokenForest

variable {f : TokenForest} {t u : Nat}

/- How many handles to a token are held. -/
def handlesOf (f : TokenForest) (t : Nat) : Nat :=
  (f.tokens[t]?.map Token.handles).getD 0

/- To be held is to have a handle left. -/
theorem isHeld_iff :
    f.isHeld t = true ↔ 0 < f.handlesOf t := by
  unfold isHeld handlesOf
  cases f.tokens[t]? <;> simp

/- There are none to a token that has not been derived. -/
theorem handlesOf_eq_zero
    (hSize : f.tokens.size ≤ t) :
    f.handlesOf t = 0 := by
  simp [handlesOf, hSize]

/- The token that has just been derived. -/
theorem getElem?_child_size (f : TokenForest) (t : Nat) :
    (f.child t).2.tokens[f.tokens.size]? =
      some { cancelled := f.isCancelled t } :=
  f.getElem?_child_self t

/- A new token has one handle. -/
theorem handlesOf_fresh (f : TokenForest) (u : Nat) :
    f.fresh.2.handlesOf u =
      f.handlesOf u + if f.fresh.1 = u then 1 else 0 := by
  by_cases hNew : u = f.tokens.size
  · subst u
    simp [fresh, handlesOf]
  · simp [fresh, handlesOf, Array.getElem?_push, hNew, Ne.symm hNew]

/- So has one derived from another, which keeps its own. -/
theorem handlesOf_child (f : TokenForest) (t u : Nat) :
    (f.child t).2.handlesOf u =
      f.handlesOf u + if (f.child t).1 = u then 1 else 0 := by
  by_cases hNew : u = f.tokens.size
  · subst u
    rw [handlesOf, getElem?_child_size,
      handlesOf_eq_zero (Nat.le_refl _)]
    simp [child]
  · have hOther : (f.child t).1 ≠ u := Ne.symm hNew
    rw [handlesOf, getElem?_child_of_ne hNew, if_neg hOther]
    split
    · rw [Option.map_map]
      rfl
    · rfl

/- One more is given out. -/
theorem handlesOf_hold
    (hSize : t < f.tokens.size) :
    (f.hold t).handlesOf u =
      f.handlesOf u + if t = u then 1 else 0 := by
  simp only [handlesOf, hold, modify, Array.getElem?_modify]
  by_cases hSame : t = u
  · subst u
    simp [hSize]
  · simp [hSame]

/- One less is held; below none there is nothing. -/
theorem handlesOf_release (f : TokenForest) (t u : Nat) :
    (f.release t).handlesOf u =
      f.handlesOf u - if t = u then 1 else 0 := by
  rw [handlesOf, getElem?_release]
  by_cases hSame : t = u
  · subst u
    rw [if_pos rfl, if_pos rfl, handlesOf]
    cases f.tokens[t]? <;> rfl
  · rw [if_neg hSame, if_neg hSame]
    rfl

/- To cancel is not to release. -/
theorem handlesOf_cancel (f : TokenForest) (t u : Nat) :
    (f.cancel t).2.handlesOf u = f.handlesOf u := by
  rw [handlesOf, getElem?_cancel]
  split
  · rfl
  · rw [Option.map_map]
    rfl

/- Nor is it to wait. -/
theorem handlesOf_poll (f : TokenForest) (t w u : Nat) :
    (f.poll t w).2.handlesOf u = f.handlesOf u := by
  unfold poll
  split
  · rfl
  · simp only [handlesOf, modify, Array.getElem?_modify]
    split
    · rw [Option.map_map]
      congr 2
      funext x
      simp only [Function.comp_apply]
      split <;> rfl
    · rfl

end TokenForest

namespace TokenTable

variable {b : TokenTable} {h t : Nat}

/- There is a handle to the token. -/
def Holds (b : TokenTable) (t : Nat) : Prop :=
  ∃ h, b.token? h = some t

/- Each token counts the handles to it. -/
def Counted (b : TokenTable) : Prop :=
  ∀ t, b.forest.handlesOf t = b.handles.count (some t)

/- A handle is to a token until it is released. -/
theorem token?_eq_some_iff :
    b.token? h = some t ↔ b.handles[h]? = some (some t) := by
  rw [token?, Option.join_eq_some_iff]

/- Any handle will do. -/
theorem holds_iff_mem : b.Holds t ↔ some t ∈ b.handles := by
  simp only [Holds, token?_eq_some_iff, Array.mem_iff_getElem?]

/- The count is right: held means that somebody holds it. -/
theorem Counted.isHeld_iff (hCounted : b.Counted) :
    b.forest.isHeld t = true ↔ b.Holds t := by
  rw [TokenForest.isHeld_iff, hCounted, Array.count_pos_iff,
    holds_iff_mem]

/- Handles are to tokens that have been derived. -/
theorem Counted.lt_size
    (hCounted : b.Counted)
    (hHolds : b.Holds t) :
    t < b.forest.tokens.size :=
  TokenForest.lt_size_of_isHeld (hCounted.isHeld_iff.mpr hHolds)

/- A handle that is given out is counted by its token. -/
theorem counted_give
    {p : Nat × TokenForest}
    (hCounted : b.Counted)
    (hHandles :
      ∀ u, p.2.handlesOf u =
        b.forest.handlesOf u + if p.1 = u then 1 else 0) :
    (b.give p).Counted := by
  intro u
  simp only [give, hHandles, hCounted u, Array.count_push]
  simp

/- Every operation keeps the count. -/
theorem Counted.apply
    (hCounted : b.Counted)
    (s : TokenStep) :
    (b.apply s).2.Counted := by
  cases s with
  | fresh =>
      exact counted_give hCounted b.forest.handlesOf_fresh
  | child h =>
      simp only [TokenTable.apply]
      split
      · exact counted_give hCounted (b.forest.handlesOf_child _)
      · exact hCounted
  | clone h =>
      simp only [TokenTable.apply]
      split
      · rename_i t hToken
        have hSize := hCounted.lt_size ⟨h, hToken⟩
        exact counted_give hCounted fun u =>
          TokenForest.handlesOf_hold hSize
      · exact hCounted
  | cancel h =>
      simp only [TokenTable.apply]
      split
      · intro u
        exact (b.forest.handlesOf_cancel _ u).trans (hCounted u)
      · exact hCounted
  | release h =>
      simp only [TokenTable.apply]
      split
      · rename_i t hToken
        rw [token?_eq_some_iff] at hToken
        obtain ⟨hSize, hHandle⟩ :=
          Array.getElem?_eq_some_iff.mp hToken
        intro u
        simp only [TokenForest.handlesOf_release, hCounted u,
          Array.setIfInBounds, hSize, dif_pos, Array.count_set,
          hHandle]
        simp
      · exact hCounted
  | poll h w =>
      simp only [TokenTable.apply]
      split
      · intro u
        exact (b.forest.handlesOf_poll _ w u).trans (hCounted u)
      · exact hCounted

end TokenTable

------------------------------------------------------------
-- What Stays
------------------------------------------------------------

namespace TokenForest

variable {f : TokenForest} {t u : Nat}

/-
  The tokens stay as they are, but for their handles and for
  those who wait.  No token is held anew.
-/
structure Keeps (f g : TokenForest) : Prop where
  size : f.tokens.size ≤ g.tokens.size
  cancelled : ∀ t, g.isCancelled t = f.isCancelled t
  children : ∀ t, g.childrenOf t = f.childrenOf t
  held :
    ∀ t < f.tokens.size, g.isHeld t = true → f.isHeld t = true

/- Nothing is done to the tokens. -/
theorem Keeps.refl (f : TokenForest) : f.Keeps f :=
  ⟨Nat.le_refl _, fun _ => rfl, fun _ => rfl, fun _ _ h => h⟩

/- A token that nobody else knows is new. -/
theorem keeps_fresh (f : TokenForest) : f.Keeps f.fresh.2 where
  size := by simp [fresh]
  cancelled := by
    intro t
    simp only [isCancelled, fresh, Array.getElem?_push]
    split <;> simp_all
  children := by
    intro t
    simp only [childrenOf, fresh, Array.getElem?_push]
    split <;> simp_all
  held := by
    intro t hOld hHeld
    have hOther : f.fresh.1 ≠ t := Nat.ne_of_gt hOld
    rw [isHeld_iff, handlesOf_fresh, if_neg hOther] at hHeld
    exact isHeld_iff.mpr hHeld

/- A change of one token that is not to its place. -/
theorem keeps_modify
    {change : Token → Token}
    (hCancelled : ∀ x, (change x).cancelled = x.cancelled)
    (hChildren : ∀ x, (change x).children = x.children)
    (hHeld :
      ∀ u, (f.modify t change).isHeld u = true →
        f.isHeld u = true) :
    f.Keeps (f.modify t change) where
  size := by simp [modify]
  cancelled := by
    intro u
    simp only [isCancelled, modify, Array.getElem?_modify]
    split
    · cases f.tokens[u]? <;> simp [hCancelled]
    · rfl
  children := by
    intro u
    simp only [childrenOf, modify, Array.getElem?_modify]
    split
    · cases f.tokens[u]? <;> simp [hChildren]
    · rfl
  held := fun u _ => hHeld u

/- A handle more makes no difference to the others. -/
theorem keeps_hold
    (hHeld : f.isHeld t = true) :
    f.Keeps (f.hold t) := by
  refine keeps_modify (fun _ => rfl) (fun _ => rfl) ?_
  intro u hLater
  by_cases hSame : t = u
  · exact hSame ▸ hHeld
  · change (f.hold t).isHeld u = true at hLater
    rw [isHeld_iff, handlesOf_hold (lt_size_of_isHeld hHeld),
      if_neg hSame] at hLater
    exact isHeld_iff.mpr hLater

/- Nor does one less. -/
theorem keeps_release (f : TokenForest) (t : Nat) :
    f.Keeps (f.release t) := by
  refine keeps_modify (fun _ => rfl) (fun _ => rfl) ?_
  intro u hLater
  change (f.release t).isHeld u = true at hLater
  rw [isHeld_iff, handlesOf_release] at hLater
  rw [isHeld_iff]
  omega

/- Nor does a waiter. -/
theorem keeps_poll (f : TokenForest) (t w : Nat) :
    f.Keeps (f.poll t w).2 := by
  have hHeld :
      ∀ u, (f.poll t w).2.isHeld u = true → f.isHeld u = true := by
    intro u hLater
    rw [isHeld_iff, handlesOf_poll] at hLater
    exact isHeld_iff.mpr hLater
  unfold poll at hHeld ⊢
  split
  · exact .refl f
  · rename_i hOpen
    rw [if_neg hOpen] at hHeld
    apply keeps_modify _ _ hHeld
    · intro x
      split <;> rfl
    · intro x
      split <;> rfl

/- Tokens are numbered in the order of their derivation. -/
theorem size_child (f : TokenForest) (t : Nat) :
    (f.child t).2.tokens.size = f.tokens.size + 1 := by
  simp [child, modify]

/- A token is cancelled from the start if its parent is. -/
theorem isCancelled_child_iff :
    (f.child t).2.isCancelled u = true ↔
      f.isCancelled u = true ∨
      (f.child t).1 = u ∧ f.isCancelled t = true := by
  by_cases hNew : u = f.tokens.size
  · subst u
    have hOpen := isCancelled_eq_false (Nat.le_refl f.tokens.size)
    rw [hOpen, isCancelled, getElem?_child_size]
    simp [child]
  · have hOther : (f.child t).1 ≠ u := Ne.symm hNew
    rw [isCancelled_child_of_ne hNew]
    simp [hOther]

/- A token comes to know the one that is derived from it. -/
theorem mem_childrenOf_of_child
    {c : Nat}
    (hChild : c ∈ (f.child t).2.childrenOf u) :
    c ∈ f.childrenOf u ∨ t = u ∧ (f.child t).1 = c := by
  by_cases hNew : u = f.tokens.size
  · subst u
    simp [childrenOf, getElem?_child_size] at hChild
  · rw [childrenOf, getElem?_child_of_ne hNew] at hChild
    by_cases hSame : t = u
    · subst u
      cases hToken : f.tokens[t]? with
      | none => simp [hToken] at hChild
      | some x =>
          cases hCancelled : x.cancelled with
          | true =>
              left
              have hKept : c ∈ x.children ∧ f.isHeld c = true := by
                simpa [hToken, adopt, hCancelled] using hChild
              simpa [childrenOf, hToken] using hKept.1
          | false =>
              have hKept :
                  c ∈ x.children ∧ f.isHeld c = true ∨
                  c = f.tokens.size := by
                simpa [hToken, adopt, hCancelled] using hChild
              rcases hKept with hOld | rfl
              · left
                simpa [childrenOf, hToken] using hOld.1
              · exact .inr ⟨rfl, rfl⟩
    · rw [if_neg hSame] at hChild
      exact .inl hChild

------------------------------------------------------------
-- Who Waits
------------------------------------------------------------

/- Nobody waits for a new token, and all others still do. -/
theorem waitersOf_fresh (f : TokenForest) (u : Nat) :
    f.fresh.2.waitersOf u = f.waitersOf u := by
  simp only [waitersOf, fresh, Array.getElem?_push]
  split <;> simp_all

/- The same for a derived one. -/
theorem waitersOf_child (f : TokenForest) (t u : Nat) :
    (f.child t).2.waitersOf u = f.waitersOf u := by
  by_cases hNew : u = f.tokens.size
  · subst u
    simp [waitersOf, getElem?_child_size]
  · rw [waitersOf, getElem?_child_of_ne hNew]
    split
    · rw [Option.map_map]
      rfl
    · rfl

/- Changes that leave the waiters of each token. -/
theorem waitersOf_modify
    {change : Token → Token}
    (hWaiters : ∀ x, (change x).waiters = x.waiters) :
    (f.modify t change).waitersOf u = f.waitersOf u := by
  simp only [waitersOf, modify, Array.getElem?_modify]
  split
  · cases f.tokens[u]? <;> simp [hWaiters]
  · rfl

/- Someone new waits for a token that is open. -/
theorem waitersOf_poll
    {w : Nat}
    (hSize : t < f.tokens.size)
    (hOpen : f.isCancelled t = false) :
    (f.poll t w).2.waitersOf u =
      if t = u ∧ w ∉ f.waitersOf u then f.waitersOf u ++ [w]
      else f.waitersOf u := by
  simp only [poll, hOpen, Bool.false_eq_true, if_false, waitersOf,
    modify, Array.getElem?_modify]
  by_cases hSame : t = u
  · subst u
    by_cases hMem : w ∈ f.tokens[t].waiters <;> simp [hSize, hMem]
  · simp [hSame]

end TokenForest

------------------------------------------------------------
-- What an Operation Does
------------------------------------------------------------

/- The handle that an operation is about. -/
def TokenStep.handle? : TokenStep → Option Nat
  | .fresh => none
  | .child h => some h
  | .clone h => some h
  | .cancel h => some h
  | .release h => some h
  | .poll h _ => some h

namespace TokenTable

variable {b : TokenTable}

/- An operation derives a token from another one. -/
def Derives (b : TokenTable) (s : TokenStep) (p c : Nat) : Prop :=
  ∃ h,
    s = .child h ∧
    b.token? h = some p ∧
    (b.forest.child p).1 = c

/- An operation cancels a token. -/
def Cancels (b : TokenTable) (s : TokenStep) (t : Nat) : Prop :=
  ∃ h, s = .cancel h ∧ b.token? h = some t

/- An operation leaves someone waiting for a token. -/
def Registers (b : TokenTable) (s : TokenStep) (t w : Nat) : Prop :=
  ∃ h,
    s = .poll h w ∧
    b.token? h = some t ∧
    (b.apply s).1 = .pending

/- All that an operation can come to. -/
inductive Change (b : TokenTable) (s : TokenStep) : Prop
  | derives
      (p : Nat)
      (hHolds : b.Holds p)
      (hDerives :
        ∀ q c, b.Derives s q c ↔ q = p ∧ (b.forest.child p).1 = c)
      (hCancels : ∀ t, ¬ b.Cancels s t)
      (hRegisters : ∀ t w, ¬ b.Registers s t w)
      (hForest : (b.apply s).2.forest = (b.forest.child p).2)
      (hWoken : (b.apply s).2.woken = b.woken)
  | cancels
      (t : Nat)
      (hHolds : b.Holds t)
      (hDerives : ∀ p c, ¬ b.Derives s p c)
      (hCancels : ∀ u, b.Cancels s u ↔ u = t)
      (hRegisters : ∀ u w, ¬ b.Registers s u w)
      (hForest : (b.apply s).2.forest = (b.forest.cancel t).2)
      (hWoken :
        (b.apply s).2.woken = b.woken ++ (b.forest.cancel t).1)
  | registers
      (t w : Nat)
      (hHolds : b.Holds t)
      (hOpen : b.forest.isCancelled t = false)
      (hDerives : ∀ p c, ¬ b.Derives s p c)
      (hCancels : ∀ u, ¬ b.Cancels s u)
      (hRegisters : ∀ u v, b.Registers s u v ↔ u = t ∧ v = w)
      (hForest : (b.apply s).2.forest = (b.forest.poll t w).2)
      (hWoken : (b.apply s).2.woken = b.woken)
  | keeps
      (hDerives : ∀ p c, ¬ b.Derives s p c)
      (hCancels : ∀ t, ¬ b.Cancels s t)
      (hRegisters : ∀ t w, ¬ b.Registers s t w)
      (hKeeps : b.forest.Keeps (b.apply s).2.forest)
      (hWaiters :
        ∀ t, (b.apply s).2.forest.waitersOf t =
          b.forest.waitersOf t)
      (hWoken : (b.apply s).2.woken = b.woken)

/- A handle that is not held is good for nothing. -/
theorem change_of_none
    {s : TokenStep}
    {h : Nat}
    (hHandle : s.handle? = some h)
    (hToken : b.token? h = none) :
    b.Change s := by
  have hSame : (b.apply s).2 = b := by
    cases s <;> cases hHandle <;> simp [TokenTable.apply, hToken]
  have hDerives : ∀ p c, ¬ b.Derives s p c := by
    rintro p c ⟨_, rfl, hSome, -⟩
    cases hHandle
    simp [hToken] at hSome
  have hCancels : ∀ t, ¬ b.Cancels s t := by
    rintro t ⟨_, rfl, hSome⟩
    cases hHandle
    simp [hToken] at hSome
  have hRegisters : ∀ t w, ¬ b.Registers s t w := by
    rintro t w ⟨_, rfl, hSome, -⟩
    cases hHandle
    simp [hToken] at hSome
  apply Change.keeps hDerives hCancels hRegisters <;> rw [hSame]
  · exact .refl b.forest
  · exact fun _ => rfl

/- What an operation does, if its handle is held. -/
theorem change_of_token
    {s : TokenStep}
    {h t : Nat}
    (hCounted : b.Counted)
    (hHandle : s.handle? = some h)
    (hToken : b.token? h = some t) :
    b.Change s := by
  have hHolds : b.Holds t := ⟨h, hToken⟩
  cases s with
  | fresh => cases hHandle
  | child _ =>
      obtain rfl := Option.some.inj hHandle
      refine .derives t hHolds ?_ (by simp [Cancels])
        (by simp [Registers]) ?_ ?_
      · intro p c
        constructor
        · rintro ⟨_, ⟨rfl⟩, hSome, hNew⟩
          obtain rfl := Option.some.inj (hToken.symm.trans hSome)
          exact ⟨rfl, hNew⟩
        · rintro ⟨rfl, hNew⟩
          exact ⟨_, rfl, hToken, hNew⟩
      · simp [TokenTable.apply, hToken, give]
      · simp [TokenTable.apply, hToken, give]
  | clone _ =>
      obtain rfl := Option.some.inj hHandle
      refine .keeps (by simp [Derives]) (by simp [Cancels])
        (by simp [Registers]) ?_ ?_ ?_
      all_goals simp only [TokenTable.apply, hToken, give]
      · exact TokenForest.keeps_hold (hCounted.isHeld_iff.mpr hHolds)
      · exact fun _ => TokenForest.waitersOf_modify fun _ => rfl
  | cancel _ =>
      obtain rfl := Option.some.inj hHandle
      refine .cancels t hHolds (by simp [Derives]) ?_
        (by simp [Registers]) ?_ ?_
      · simp [Cancels, hToken, eq_comm]
      · simp [TokenTable.apply, hToken]
      · simp [TokenTable.apply, hToken]
  | release _ =>
      obtain rfl := Option.some.inj hHandle
      refine .keeps (by simp [Derives]) (by simp [Cancels])
        (by simp [Registers]) ?_ ?_ ?_
      all_goals simp only [TokenTable.apply, hToken]
      · exact b.forest.keeps_release t
      · exact fun _ => TokenForest.waitersOf_modify fun _ => rfl
  | poll h' w =>
      obtain rfl := Option.some.inj hHandle
      cases hCancelled : b.forest.isCancelled t with
      | true =>
          have hPoll : b.forest.poll t w = (true, b.forest) := by
            simp [TokenForest.poll, hCancelled]
          have hSame : (b.apply (.poll h' w)).2.forest = b.forest := by
            simp [TokenTable.apply, hToken, hPoll]
          refine .keeps (by simp [Derives]) (by simp [Cancels]) ?_
            ?_ ?_ ?_
          · simp [Registers, TokenTable.apply, hToken, hPoll]
          · rw [hSame]
            exact .refl b.forest
          · rw [hSame]
            exact fun _ => rfl
          · simp [TokenTable.apply, hToken]
      | false =>
          have hPoll : (b.forest.poll t w).1 = false := by
            simp [TokenForest.poll, hCancelled]
          refine .registers t w hHolds hCancelled (by simp [Derives])
            (by simp [Cancels]) ?_ ?_ ?_
          · simp [TokenTable.apply, Registers, hToken, hPoll, eq_comm,
              and_comm]
          · simp [TokenTable.apply, hToken]
          · simp [TokenTable.apply, hToken]

/- Every operation is one of the changes, or none. -/
theorem Counted.change
    (hCounted : b.Counted)
    (s : TokenStep) :
    b.Change s := by
  cases hHandle : s.handle? with
  | none =>
      cases s with
      | fresh =>
          exact .keeps (by simp [Derives]) (by simp [Cancels])
            (by simp [Registers]) b.forest.keeps_fresh
            b.forest.waitersOf_fresh rfl
      | _ => cases hHandle
  | some h =>
      cases hToken : b.token? h with
      | none => exact change_of_none hHandle hToken
      | some t => exact change_of_token hCounted hHandle hToken

end TokenTable

end DeviceSession
