/-
  Tokens that pass cancellation on.

  A token is derived from another one, or stands alone.
  Cancelling a token cancels all that were derived from it,
  through tokens that someone still holds, and wakes
  whoever waits for one of them.

  Key definitions include:
    * `Token`
    * `TokenForest`
    * `TokenForest.fresh`
    * `TokenForest.child`
    * `TokenForest.hold`
    * `TokenForest.release`
    * `TokenForest.cancel`
    * `TokenForest.poll`
    * `TokenStep`
    * `TokenTable`
    * `TokenTable.apply`
-/

------------------------------------------------------------
-- Tokens
------------------------------------------------------------

namespace DeviceSession

/- What is known of one token. -/
structure Token where
  cancelled : Bool := false
  /- Who waits for the cancellation, each once. -/
  waiters : List Nat := []
  /- The tokens derived from this one. -/
  children : List Nat := []
  /- How many handles to this token are held. -/
  handles : Nat := 1
deriving DecidableEq

/- A token once cancelled: nothing waits for it any more. -/
def Token.closed (x : Token) : Token :=
  { x with cancelled := true, waiters := [], children := [] }

/- Tokens, known by their position. -/
structure TokenForest where
  tokens : Array Token := #[]
deriving DecidableEq

namespace TokenForest

------------------------------------------------------------
-- Looking
------------------------------------------------------------

def isCancelled (f : TokenForest) (t : Nat) : Bool :=
  (f.tokens[t]?.map Token.cancelled).getD false

/- Whether someone holds the token. -/
def isHeld (f : TokenForest) (t : Nat) : Bool :=
  match f.tokens[t]? with
  | some x => 0 < x.handles
  | none => false

/- The number of tokens that are not cancelled. -/
def openCount (f : TokenForest) : Nat :=
  f.tokens.countP fun x => !x.cancelled

------------------------------------------------------------
-- Handles
------------------------------------------------------------

/- A new token that stands alone. -/
def fresh (f : TokenForest) : Nat × TokenForest :=
  (f.tokens.size, ⟨f.tokens.push {}⟩)

/- Change one token. -/
def modify
    (f : TokenForest)
    (t : Nat)
    (g : Token → Token) : TokenForest :=
  ⟨f.tokens.modify t g⟩

/- One more handle to a token. -/
def hold (f : TokenForest) (t : Nat) : TokenForest :=
  f.modify t fun x => { x with handles := x.handles + 1 }

/- One handle less to a token. -/
def release (f : TokenForest) (t : Nat) : TokenForest :=
  f.modify t fun x => { x with handles := x.handles - 1 }

/-
  A new token derived from another one.  It is cancelled
  from the start if that one is.  A parent forgets the
  children that no one holds.
-/
def child (f : TokenForest) (t : Nat) :
    Nat × TokenForest :=
  let c := f.tokens.size
  let born : Token := { cancelled := f.isCancelled t }
  let g := f.modify t fun x =>
    let held := x.children.filter f.isHeld
    { x with
      children :=
        if x.cancelled then held else held ++ [c] }
  (c, ⟨g.tokens.push born⟩)

------------------------------------------------------------
-- Cancellation
------------------------------------------------------------

/- Each token that is closed is one less to close. -/
theorem openCount_close_lt
    (f : TokenForest)
    (t : Nat)
    (h : t < f.tokens.size)
    (hx : f.tokens[t].cancelled = false) :
    openCount ⟨f.tokens.set t (f.tokens[t].closed)⟩ <
      f.openCount := by
  have hpos :
      0 < f.tokens.countP fun x => !x.cancelled := by
    apply Array.countP_pos_iff.mpr
    exact ⟨f.tokens[t], Array.getElem_mem h, by simp [hx]⟩
  have hset :
      openCount ⟨f.tokens.set t (f.tokens[t].closed)⟩ =
        f.openCount - 1 := by
    simp [openCount, Array.countP_set, Token.closed, hx]
  rw [hset]
  exact Nat.sub_lt hpos Nat.one_pos

/-
  Cancel tokens in turn, each before the ones derived from
  it.  Gives the pairs of token and waiter that are woken.
-/
def cancelAll (f : TokenForest) :
    List Nat → List (Nat × Nat) × TokenForest
  | [] => ([], f)
  | t :: ts =>
      if h : t < f.tokens.size then
        let x := f.tokens[t]
        if hx : x.cancelled = false then
          let held := x.children.filter f.isHeld
          let g : TokenForest :=
            ⟨f.tokens.set t (f.tokens[t].closed)⟩
          have := openCount_close_lt f t h hx
          let (woken, f') := g.cancelAll (held ++ ts)
          (x.waiters.map (t, ·) ++ woken, f')
        else f.cancelAll ts
      else f.cancelAll ts
termination_by ts => (f.openCount, ts.length)

/- Cancel a token and what depends on it. -/
def cancel (f : TokenForest) (t : Nat) :
    List (Nat × Nat) × TokenForest :=
  f.cancelAll [t]

/-
  Ask for a cancellation on behalf of a waiter, who is
  noted if it has not come.
-/
def poll (f : TokenForest) (t w : Nat) :
    Bool × TokenForest :=
  if f.isCancelled t then (true, f)
  else
    (false, f.modify t fun x =>
      if w ∈ x.waiters then x
      else { x with waiters := x.waiters ++ [w] })

end TokenForest

------------------------------------------------------------
-- Sequences of Operations
------------------------------------------------------------

/- One operation on tokens, which go by handle numbers. -/
inductive TokenStep where
  | fresh
  | child (handle : Nat)
  | clone (handle : Nat)
  | cancel (handle : Nat)
  | release (handle : Nat)
  | poll (handle waiter : Nat)
deriving DecidableEq

/- What an operation answers. -/
inductive TokenReply where
  | done
  | ready
  | pending
deriving DecidableEq

/- Tokens with the handles that have been given out. -/
structure TokenTable where
  forest : TokenForest := {}
  /- The token of each handle, until it is released. -/
  handles : Array (Option Nat) := #[]
  /- The number of waiters that have asked. -/
  waiters : Nat := 0
  /- The pairs of token and waiter woken so far. -/
  woken : List (Nat × Nat) := []
deriving DecidableEq

namespace TokenTable

/- The token of a handle that is held. -/
def token? (b : TokenTable) (h : Nat) : Option Nat :=
  b.handles[h]?.join

/- Give out a handle to a token of a changed forest. -/
def give (b : TokenTable) (p : Nat × TokenForest) :
    TokenTable :=
  { b with
    forest := p.2
    handles := b.handles.push (some p.1) }

/- One token that stands alone, under handle 0. -/
def start : TokenTable :=
  ({} : TokenTable).give (TokenForest.fresh {})

/- Whether the token of a handle that is held is cancelled. -/
def isCancelled? (b : TokenTable) (h : Nat) : Option Bool :=
  (b.token? h).map b.forest.isCancelled

/- How often a waiter has been woken. -/
def wakes (b : TokenTable) (w : Nat) : Nat :=
  b.woken.countP fun p => p.2 == w

/- Carry out one operation. -/
def apply (b : TokenTable) (s : TokenStep) :
    TokenReply × TokenTable :=
  match s with
  | .fresh => (.done, b.give b.forest.fresh)
  | .child h =>
      match b.token? h with
      | some t => (.done, b.give (b.forest.child t))
      | none => (.done, b)
  | .clone h =>
      match b.token? h with
      | some t => (.done, b.give (t, b.forest.hold t))
      | none => (.done, b)
  | .cancel h =>
      match b.token? h with
      | some t =>
          let (woken, forest) := b.forest.cancel t
          (.done, { b with forest, woken := b.woken ++ woken })
      | none => (.done, b)
  | .release h =>
      match b.token? h with
      | some t =>
          (.done, { b with
            forest := b.forest.release t
            handles := b.handles.setIfInBounds h none })
      | none => (.done, b)
  | .poll h w =>
      match b.token? h with
      | some t =>
          let (ready, forest) := b.forest.poll t w
          (if ready then .ready else .pending,
            { b with
              forest, waiters := max b.waiters (w + 1) })
      | none => (.done, b)

end TokenTable

end DeviceSession
