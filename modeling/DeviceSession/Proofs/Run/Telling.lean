import DeviceSession.Link.Pipe
import DeviceSession.Proofs.Run.Clock

/-
  What a connection tells about its links.

  The notices of a whole run follow a grammar: failed
  attempts, numbered from 1, then the first link or the end;
  after a link its loss, failed attempts numbered from 1
  again, and the next link; and the end, once and last.  What
  a notice says of the links agrees with the state at that
  moment.  A run that has no number for an attempt comes to
  no end: what it has told begins such a tale.

  Key definitions include:
    * `ConnectionNotice.Failures`
    * `AfterLink`
    * `Tale`
    * `Chapter`
    * `Chapter.Step`
    * `Told`
    * `Driver.Counts`
    * `Scenario.Narrates`

  Main declarations:
    * `Told.tale`
    * `Driver.step_tells`
    * `Scenario.narrated_run`
    * `Scenario.run_narrates`
-/

------------------------------------------------------------
-- The Grammar
------------------------------------------------------------

namespace DeviceSession

/-
  Failed attempts, after the first `n` of them.  Each has the
  number after that of the one before: the numbers do not
  wrap, however long the list is.
-/
inductive ConnectionNotice.FailuresFrom :
    Nat → List ConnectionNotice → Prop where
  | nil (n : Nat) : FailuresFrom n []
  | cons
      {n : Nat}
      {number : UInt32}
      (hNumber : number.toNat = n + 1)
      (e : LinkError)
      {rest : List ConnectionNotice}
      (hRest : FailuresFrom (n + 1) rest) :
      FailuresFrom n (.attemptFailed number e :: rest)

/- Failed attempts, numbered from 1. -/
def ConnectionNotice.Failures :
    List ConnectionNotice → Prop :=
  FailuresFrom 0

/- All that can be told after the news of a link. -/
inductive AfterLink :
    UInt32 → List ConnectionNotice → Prop where
  | ended (g : UInt32) :
      AfterLink g [.terminated]
  | lost
      (g : UInt32)
      {failed : List ConnectionNotice}
      (hFailed : ConnectionNotice.Failures failed) :
      AfterLink g
        (.disconnected g :: failed ++ [.terminated])
  | back
      {g : UInt32}
      {failed rest : List ConnectionNotice}
      (hFailed : ConnectionNotice.Failures failed)
      (hRest : AfterLink (g + 1) rest) :
      AfterLink g
        (.disconnected g :: failed ++
          .reconnected (g + 1) :: rest)

/- All that can be told from beginning to end. -/
inductive Tale : List ConnectionNotice → Prop where
  /- No link ever came up. -/
  | never
      {failed : List ConnectionNotice}
      (hFailed : ConnectionNotice.Failures failed) :
      Tale (failed ++ [.terminated])
  | linked
      {failed rest : List ConnectionNotice}
      (hFailed : ConnectionNotice.Failures failed)
      (hRest : AfterLink 1 rest) :
      Tale (failed ++ .connected 1 :: rest)

namespace ConnectionNotice

/- The link that a notice is about. -/
def generation? : ConnectionNotice → Option UInt32
  | connected g => some g
  | disconnected g => some g
  | reconnected g => some g
  | attemptFailed _ _ => none
  | terminated => none

/- The news of a link. -/
def isLink : ConnectionNotice → Bool
  | connected _ => true
  | reconnected _ => true
  | _ => false

theorem FailuresFrom.terminated_notMem
    {n : Nat}
    {failed : List ConnectionNotice}
    (h : FailuresFrom n failed) :
    terminated ∉ failed := by
  induction h with
  | nil n => exact List.not_mem_nil
  | cons hNumber e hRest ih => simpa using ih

end ConnectionNotice

/- The end is told last, and no earlier. -/
theorem AfterLink.ends
    {g : UInt32}
    {told : List ConnectionNotice}
    (h : AfterLink g told) :
    ∃ before, told = before ++ [.terminated] ∧
      .terminated ∉ before := by
  induction h with
  | ended g => exact ⟨[], rfl, by simp⟩
  | lost g hFailed =>
      refine ⟨_, rfl, ?_⟩
      simp [hFailed.terminated_notMem]
  | back hFailed hRest ih =>
      rcases ih with ⟨before, rfl, hBefore⟩
      refine ⟨_, (List.append_assoc _ (_ :: before) _).symm, ?_⟩
      simp [hBefore, hFailed.terminated_notMem]

theorem Tale.ends
    {told : List ConnectionNotice}
    (h : Tale told) :
    ∃ before, told = before ++ [.terminated] ∧
      .terminated ∉ before := by
  cases h with
  | never hFailed => exact ⟨_, rfl, hFailed.terminated_notMem⟩
  | linked hFailed hRest =>
      rcases hRest.ends with ⟨before, rfl, hBefore⟩
      refine ⟨_, (List.append_assoc _ (_ :: before) _).symm, ?_⟩
      simp [hBefore, hFailed.terminated_notMem]

------------------------------------------------------------
-- Chapters of a Tale
------------------------------------------------------------

/- How far a tale has been told. -/
inductive Chapter where
  /- There is no link, after some failed attempts; the link
     before, if there was one. -/
  | seeking (before : Option UInt32) (failed : Nat)
  | linked (generation : UInt32)
  | ended

namespace Chapter

/- The generation of the link after the one before. -/
def successor : Option UInt32 → UInt32
  | none => 1
  | some g => g + 1

/- The news of that link. -/
def arrival : Option UInt32 → ConnectionNotice
  | none => .connected 1
  | some g => .reconnected (g + 1)

end Chapter

/- What a notice does to the tale. -/
inductive Chapter.Step :
    Chapter → ConnectionNotice → Chapter → Prop where
  | failed
      (before : Option UInt32)
      {n : Nat}
      {number : UInt32}
      (hNumber : number.toNat = n + 1)
      (e : LinkError) :
      Step (.seeking before n) (.attemptFailed number e)
        (.seeking before (n + 1))
  | found (before : Option UInt32) (n : Nat) :
      Step (.seeking before n) (arrival before)
        (.linked (successor before))
  | lost (g : UInt32) :
      Step (.linked g) (.disconnected g) (.seeking (some g) 0)
  | ends
      (chapter : Chapter)
      (hOpen : chapter ≠ .ended) :
      Step chapter .terminated .ended

/- What has been told so far, and the chapter that it is at. -/
inductive Told : List ConnectionNotice → Chapter → Prop where
  | nothing : Told [] (.seeking none 0)
  | more
      {told : List ConnectionNotice}
      {chapter chapter' : Chapter}
      {notice : ConnectionNotice}
      (hTold : Told told chapter)
      (hStep : chapter.Step notice chapter') :
      Told (told ++ [notice]) chapter'

/- All that can still be told at a chapter. -/
def Chapter.Rest : Chapter → List ConnectionNotice → Prop
  | .seeking before n, rest =>
      ∃ failed,
        ConnectionNotice.FailuresFrom n failed ∧
          (rest = failed ++ [.terminated] ∨
            ∃ tail, AfterLink (successor before) tail ∧
              rest = failed ++ arrival before :: tail)
  | .linked g, rest => AfterLink g rest
  | .ended, rest => rest = []

namespace Chapter

theorem rest_of_step
    {chapter chapter' : Chapter}
    {notice : ConnectionNotice}
    {rest : List ConnectionNotice}
    (hStep : chapter.Step notice chapter')
    (hRest : chapter'.Rest rest) :
    chapter.Rest (notice :: rest) := by
  cases hStep with
  | failed before hNumber e =>
      rcases hRest with ⟨failed, hFailed, hEnd⟩
      refine ⟨_, .cons hNumber e hFailed, ?_⟩
      rcases hEnd with rfl | ⟨tail, hTail, rfl⟩
      · exact .inl rfl
      · exact .inr ⟨tail, hTail, rfl⟩
  | found before n =>
      exact ⟨[], .nil n, .inr ⟨rest, hRest, rfl⟩⟩
  | lost g =>
      rcases hRest with ⟨failed, hFailed, hEnd⟩
      rcases hEnd with rfl | ⟨tail, hTail, rfl⟩
      · exact .lost g hFailed
      · exact .back hFailed hTail
  | ends chapter hOpen =>
      cases hRest
      cases chapter with
      | seeking before n => exact ⟨[], .nil n, .inl rfl⟩
      | linked g => exact .ended g
      | ended => exact absurd rfl hOpen

/- A tale can always be brought to its end. -/
theorem exists_rest (chapter : Chapter) :
    ∃ rest, chapter.Rest rest := by
  cases chapter with
  | ended => exact ⟨[], rfl⟩
  | seeking before n =>
      exact ⟨_, rest_of_step (.ends _ (by simp)) rfl⟩
  | linked g => exact ⟨_, rest_of_step (.ends _ (by simp)) rfl⟩

end Chapter

/- What is told at one chapter goes on with any of its rests. -/
theorem Told.tale_append
    {told rest : List ConnectionNotice}
    {chapter : Chapter}
    (hTold : Told told chapter)
    (hRest : chapter.Rest rest) :
    Tale (told ++ rest) := by
  induction hTold generalizing rest with
  | nothing =>
      rcases hRest with ⟨failed, hFailed, hEnd⟩
      rcases hEnd with rfl | ⟨tail, hTail, rfl⟩
      · exact .never hFailed
      · exact .linked hFailed hTail
  | more hTold hStep ih =>
      rw [List.append_assoc]
      exact ih (Chapter.rest_of_step hStep hRest)

theorem Told.tale
    {told : List ConnectionNotice}
    (hTold : Told told .ended) :
    Tale told := by
  have hTale : Tale (told ++ []) := hTold.tale_append rfl
  rwa [List.append_nil] at hTale

------------------------------------------------------------
-- Notices and States
------------------------------------------------------------

/- What a connection has told. -/
def Connection.notices (k : Connection) :
    List ConnectionNotice :=
  k.events.toList.map Prod.snd

namespace Lifecycle

/- The chapter that a state is at, after failed attempts. -/
def chapter (n : Nat) : Lifecycle → Chapter
  | connecting => .seeking none n
  | connected g => .linked g
  | awaitingDisconnection g => .linked g
  | disconnected g _ => .seeking (some g) n
  | terminated => .ended

/- What is told of a change of state. -/
def news (old new : Lifecycle) : Option ConnectionNotice :=
  if old = new then none
  else
    match new with
    | disconnected g _ =>
        if old.isLinked then some (.disconnected g) else none
    | connected g =>
        if old = connecting then some (.connected g)
        else if old.isLinked then none
        else some (.reconnected g)
    | terminated => some .terminated
    | connecting => none
    | awaitingDisconnection _ => none

@[simp] theorem news_self (s : Lifecycle) : s.news s = none :=
  if_pos rfl

/- Attempts count only without a link. -/
theorem chapter_of_linked
    {s : Lifecycle}
    (hLinked : s.isLinked = true)
    (n m : Nat) :
    s.chapter n = s.chapter m := by
  cases s with
  | connected g => rfl
  | awaitingDisconnection g => rfl
  | _ => cases hLinked

end Lifecycle

/- A tale goes on by a notice, or stays where it is. -/
def Chapter.Goes
    (chapter : Chapter) :
    Option ConnectionNotice → Chapter → Prop
  | none, chapter' => chapter' = chapter
  | some notice, chapter' => chapter.Step notice chapter'

theorem Told.goes
    {told : List ConnectionNotice}
    {chapter chapter' : Chapter}
    {news : Option ConnectionNotice}
    (hTold : Told told chapter)
    (hGoes : chapter.Goes news chapter') :
    Told (told ++ news.toList) chapter' := by
  cases news with
  | none =>
      cases hGoes
      rwa [Option.toList_none, List.append_nil]
  | some notice => exact hTold.more hGoes

/-
  An input that changes any state without a link is told as
  the tale has it.
-/
theorem Lifecycle.goes_news
    {s : Lifecycle}
    {input : LifecycleInput}
    {now budget : Nat}
    (n : Nat)
    (hMoves :
      s.isLinked = false → s.next input now budget ≠ s) :
    (s.chapter n).Goes (s.news (s.next input now budget))
      ((s.next input now budget).chapter 0) := by
  have hChange := next_change budget now s input
  generalize s.next input now budget = s' at hMoves hChange ⊢
  cases hChange with
  | stays =>
      have hLinked : s.isLinked = true := by
        by_contra hNot
        exact hMoves (by simpa using hNot) rfl
      rw [news_self]
      exact chapter_of_linked hLinked 0 n
  | first => exact .found none n
  | again g due => exact .found (some g) n
  | late g due => exact .ends _ (by simp [chapter])
  | doubts g => simp [news, Chapter.Goes, chapter]
  | assures g => simp [news, isLinked, Chapter.Goes, chapter]
  | loses _ _ g hLinked hSame =>
      cases s with
      | connected g' =>
          cases hSame
          exact .lost g
      | awaitingDisconnection g' =>
          cases hSame
          exact .lost g
      | _ => cases hLinked
  | expires _ hUnlinked hOpen =>
      cases s with
      | terminated => exact absurd rfl hOpen
      | _ => exact .ends _ (by simp [chapter])
  | closes _ hOpen =>
      cases s with
      | terminated => exact absurd rfl hOpen
      | _ => exact .ends _ (by simp [chapter])

------------------------------------------------------------
-- Steps of a Driver
------------------------------------------------------------

theorem Connection.notices_tell
    (k : Connection)
    (now : Nat)
    (notice : ConnectionNotice) :
    (k.tell now notice).notices = k.notices ++ [notice] := by
  simp [tell, notices]

namespace BringUp

variable {W L : Type}

/- Attempts are counted from 1; a failed one is told. -/
def Counts (n : Nat) (x : BringUp L) : Prop :=
  match x.attempt with
  | .pausing _ | .overflowed => x.number.toNat = n
  | _ => x.number.toNat = n + 1

/- What a step tells: nothing, or one failed attempt. -/
def Tells
    (n : Nat)
    (k k' : Connection)
    (x' : Option (BringUp L)) : Prop :=
  k'.notices = k.notices ∧ (∀ y ∈ x', y.Counts n) ∨
    ∃ (number : UInt32) (e : LinkError),
      number.toNat = n + 1 ∧
        k'.notices = k.notices ++ [.attemptFailed number e] ∧
          ∃ y ∈ x', y.Counts (n + 1)

theorem tells_fail
    {n : Nat}
    {x : BringUp L}
    (now : Nat)
    (e : LinkError)
    (k : Connection)
    (hNumber : x.number.toNat = n + 1) :
    Tells n k (x.fail now e k).2 (some (x.fail now e k).1) :=
  .inr
    ⟨x.number, e, hNumber, k.notices_tell now _, _, rfl,
      hNumber⟩

/- The next attempt has the number that comes next. -/
theorem counts_again
    {n : Nat}
    {x : BringUp L}
    (hNumber : x.number.toNat = n) :
    x.again.Counts n := by
  unfold Counts
  rcases x.again_cases with ⟨hNext, hAttempt⟩ |
    ⟨-, hSame, hAttempt⟩
  · rw [hAttempt, hNext, hNumber]
  · rw [hAttempt, hSame, hNumber]

theorem attemptStep_tells
    (c : Connector W L)
    (now : Nat)
    {n : Nat}
    {x : BringUp L}
    (k : Connection)
    (w : W)
    (hCounts : x.Counts n) :
    Tells n k (x.attemptStep c now k w).2.1
      (x.attemptStep c now k w).1.next? := by
  rcases x with ⟨deadline, number, attempt⟩
  cases attempt with
  | reaching asked =>
      simp only [attemptStep]
      split
      all_goals
        refine .inl ⟨rfl, fun y hy => ?_⟩
        cases hy
        exact hCounts
  | fallingBack due =>
      simp only [attemptStep, Turn.pause]
      refine .inl ⟨rfl, fun y hy => ?_⟩
      split at hy
      all_goals
        cases hy
        exact hCounts
  | connecting asked =>
      simp only [attemptStep]
      split
      · refine .inl ⟨rfl, fun y hy => ?_⟩
        cases hy
        exact hCounts
      · refine .inl ⟨rfl, fun y hy => ?_⟩
        cases hy
        exact hCounts
      · exact tells_fail now _ k hCounts
  | settingUp e s =>
      simp only [attemptStep]
      split
      · refine .inl ⟨rfl, fun y hy => ?_⟩
        cases hy
        exact hCounts
      · refine .inl ⟨rfl, fun y hy => ?_⟩
        cases hy
        exact hCounts
      · exact .inl ⟨rfl, fun y hy => by cases hy⟩
      · exact tells_fail now _ k hCounts
  | pausing due =>
      simp only [attemptStep, Turn.pause]
      refine .inl ⟨rfl, fun y hy => ?_⟩
      split at hy
      · cases hy
        exact counts_again hCounts
      · cases hy
        exact hCounts
  | overflowed =>
      refine .inl ⟨rfl, fun y hy => ?_⟩
      cases hy
      exact hCounts

/- An attempt that waits has told nothing. -/
theorem connection_of_wait
    {c : Connector W L}
    {now : Nat}
    {x x' : BringUp L}
    {k k' : Connection}
    {w w' : W}
    (hStep : x.attemptStep c now k w = (.wait x', k', w')) :
    k' = k := by
  unfold attemptStep at hStep
  split at hStep
  case h_6 => cases hStep
  all_goals
    simp only [Turn.pause] at hStep
    repeat' split at hStep
  all_goals
    cases hStep
    try rfl

/- The deadline ends bringing up a link in silence. -/
theorem step_tells
    (c : Connector W L)
    (now : Nat)
    {n : Nat}
    {x : BringUp L}
    (k : Connection)
    (w : W)
    (hCounts : x.Counts n) :
    Tells n k (x.step c now k w).2.1
      (x.step c now k w).1.next? := by
  have hTells := attemptStep_tells c now k w hCounts
  unfold step
  split
  · rename_i y k' w' hStep
    split
    · rw [connection_of_wait hStep]
      exact .inl ⟨rfl, by simp [Turn.next?]⟩
    · rwa [hStep] at hTells
  · exact hTells

theorem notices_of_done
    (c : Connector W L)
    (now : Nat)
    {n : Nat}
    {x : BringUp L}
    {k : Connection}
    (w : W)
    {ending : Ending L}
    (hCounts : x.Counts n)
    (hDone : (x.step c now k w).1 = .done ending) :
    (x.step c now k w).2.1.notices = k.notices := by
  have hTells := step_tells c now k w hCounts
  rw [hDone] at hTells
  rcases hTells with ⟨hNotices, -⟩ | ⟨-, e, -, -, y, hy, -⟩
  · exact hNotices
  · cases hy

end BringUp

namespace Driver

variable {W L : Type}

/- What is told is what the change of state asks for. -/
theorem notices_arrive
    (c : Connector W L)
    (now : Nat)
    (old new : Lifecycle)
    (d : Driver L)
    (k : Connection)
    (w : W) :
    (arrive c now old new d k w).2.1.notices =
      k.notices ++ (old.news new).toList := by
  by_cases hSame : old = new
  · simp [arrive, Lifecycle.news, hSame]
  simp only [arrive, Lifecycle.news, if_neg hSame]
  cases new with
  | connecting | awaitingDisconnection g =>
      exact (List.append_nil _).symm
  | terminated => exact Connection.notices_tell _ _ _
  | connected g =>
      dsimp only
      split
      · exact k.notices_tell now _
      · split
        · exact (List.append_nil _).symm
        · exact k.notices_tell now _
  | disconnected g due =>
      dsimp only
      split
      · exact Connection.notices_tell _ _ _
      · exact (List.append_nil _).symm

theorem notices_feed
    (c : Connector W L)
    (now : Nat)
    (input : LifecycleInput)
    (d : Driver L)
    (k : Connection)
    (w : W) :
    (feed c now input d k w).2.1.notices =
      k.notices ++
        (k.state.news
          (k.state.next input now
            k.settings.reconnectBudget.toNat)).toList :=
  notices_arrive c now _ _ _ _ w

/- A driver counts the attempts it has told of. -/
def Counts (n : Nat) (d : Driver L) : Prop :=
  match d.job with
  | .bringingUp x => x.Counts n
  | _ => n = 0

/-
  What a step tells, with the chapter that the tale is at
  after it.
-/
def Tells
    (n : Nat)
    (k k' : Connection)
    (d' : Option (Driver L)) : Prop :=
  ∃ news m,
    k'.notices = k.notices ++ news.toList ∧
      (k.state.chapter n).Goes news (k'.state.chapter m) ∧
        ∀ d ∈ d', d.Counts m

theorem tells_quiet
    {n : Nat}
    {k k' : Connection}
    {d' : Option (Driver L)}
    (hNotices : k'.notices = k.notices)
    (hState : k'.state = k.state)
    (hCounts : ∀ d ∈ d', d.Counts n) :
    Tells n k k' d' :=
  ⟨none, n, by simpa using hNotices, by rw [hState]; rfl,
    hCounts⟩

theorem tells_feed
    (c : Connector W L)
    (now : Nat)
    (n : Nat)
    {input : LifecycleInput}
    (d : Driver L)
    {k k₀ : Connection}
    (w : W)
    (hNotices : k₀.notices = k.notices)
    (hState : k₀.state = k.state)
    (hMoves :
      k.state.isLinked = false →
        k₀.state.next input now
          k₀.settings.reconnectBudget.toNat ≠ k₀.state) :
    Tells n k (moved (feed c now input d k₀ w)).2.1
      (moved (feed c now input d k₀ w)).1.next? := by
  rcases feed_connection c now input d k₀ w with ⟨events, hk⟩
  have hNew := congrArg Connection.state hk
  dsimp only at hNew
  rw [← hState] at hMoves
  refine ⟨_, 0,
    (notices_feed c now input d k₀ w).trans (by rw [hNotices]),
    ?_, ?_⟩
  · rw [← hState]
    change Chapter.Goes _ _ (Lifecycle.chapter 0
      (feed c now input d k₀ w).2.1.state)
    rw [hNew]
    exact Lifecycle.goes_news n hMoves
  · intro d' hd'
    have hSame : (feed c now input d k₀ w).1 = d' :=
      Option.some.inj hd'
    rw [← hSame, Counts, feed_job]

/-
  A driver that brings up a link gives only inputs that
  change the state.
-/
theorem next_ne_of_bringingUp
    {d : Driver L}
    {x : BringUp L}
    {s : Lifecycle}
    {input : LifecycleInput}
    (hFits : d.Fits s)
    (hJob : d.job = .bringingUp x)
    (hInput :
      input = .closeRequested ∨ input = .reconnected ∨
        input = .budgetExpired)
    (now budget : Nat) :
    s.next input now budget ≠ s := by
  simp only [Fits, hJob] at hFits
  rcases hFits.2 with rfl | ⟨g, rfl⟩
  · rcases hInput with rfl | rfl | rfl <;> simp [Lifecycle.next]
  · rcases hInput with rfl | rfl | rfl
    · simp [Lifecycle.next]
    · simp only [Lifecycle.next]
      split <;> simp
    · simp [Lifecycle.next]

/- What an input about a link in use tells. -/
theorem tells_linked
    (c : Connector W L)
    (now : Nat)
    (n : Nat)
    (input : LifecycleInput)
    (d : Driver L)
    {k k₀ : Connection}
    (w : W)
    (hNotices : k₀.notices = k.notices)
    (hState : k₀.state = k.state)
    (hLinked : k.state.isLinked = true) :
    Tells n k (moved (feed c now input d k₀ w)).2.1
      (moved (feed c now input d k₀ w)).1.next? :=
  tells_feed c now n d w hNotices hState
    fun hNot => by rw [hLinked] at hNot; cases hNot

section BringingUp

variable {c : Connector W L}
variable {now n : Nat}
variable {d : Driver L} {x : BringUp L}
variable {k k' : Connection} {w w' : W}

/- An attempt goes on, or it has failed and is counted. -/
theorem tells_seek
    {x' : BringUp L}
    {t : Turn (Driver L) Unit}
    (hFits : d.Fits k.state)
    (hCounts : d.Counts n)
    (hJob : d.job = .bringingUp x)
    (hStep :
      x.step c now k w = (.go x', k', w') ∧
          t = .go (d.goto (.bringingUp x')) ∨
        x.step c now k w = (.wait x', k', w') ∧
          t = .wait (d.goto (.bringingUp x'))) :
    Tells n k k' t.next? := by
  simp only [Counts, hJob] at hCounts
  have hTells := x.step_tells c now k w hCounts
  rcases hStep with ⟨hStep, rfl⟩ | ⟨hStep, rfl⟩
  all_goals
    rcases BringUp.connection_of_step hStep with ⟨events, rfl⟩
    rw [hStep] at hTells
    rcases hTells with ⟨hNotices, hNext⟩ |
      ⟨number, e, hNumber, hNotices, y, hy, hNext⟩
    · refine tells_quiet hNotices rfl fun d' hd' => ?_
      cases hd'
      exact hNext x' rfl
    · cases hy
      refine ⟨some _, n + 1, hNotices, ?_, ?_⟩
      · simp only [Fits, hJob] at hFits
        rcases hFits.2 with hState | ⟨g, hState⟩
        · rw [hState]
          exact .failed none hNumber e
        · rw [hState]
          exact .failed (some g) hNumber e
      · intro d' hd'
        cases hd'
        exact hNext

/- Bringing up a link has come to its end. -/
theorem tells_ended
    {d₀ : Driver L}
    {ending : BringUp.Ending L}
    {input : LifecycleInput}
    (now : Nat)
    (hFits : d.Fits k.state)
    (hCounts : d.Counts n)
    (hJob : d.job = .bringingUp x)
    (hInput : input = .reconnected ∨ input = .budgetExpired)
    (hStep : x.step c now k w = (.done ending, k', w')) :
    Tells n k (moved (feed c now input d₀ k' w')).2.1
      (moved (feed c now input d₀ k' w')).1.next? := by
  simp only [Counts, hJob] at hCounts
  have hNotices :=
    BringUp.notices_of_done c now w hCounts
      (congrArg Prod.fst hStep)
  rw [hStep] at hNotices
  rcases BringUp.connection_of_step hStep with ⟨events, rfl⟩
  exact tells_feed c now n _ _ hNotices rfl
    fun _ => next_ne_of_bringingUp hFits hJob (.inr hInput) _ _

end BringingUp

/- A step of a driver tells what the chapters allow. -/
theorem step_tells
    (c : Connector W L)
    (now : Nat)
    {n : Nat}
    {d : Driver L}
    {k : Connection}
    (w : W)
    (hFits : d.Fits k.state)
    (hCounts : d.Counts n) :
    Tells n k (d.step c now k w).2.1
      (d.step c now k w).1.next? := by
  have hOutcome := step_outcome c now w hFits
  generalize d.step c now k w = result at hOutcome ⊢
  cases hOutcome with
  | finish hJob hState =>
      refine tells_quiet ?_ ?_ (by simp [Turn.next?])
      · exact congrArg (fun es => es.toList.map Prod.snd)
          (Connection.events_failEach _ k k.queue)
      · exact Connection.state_failEach _ k k.queue
  | bringUp hJob hLink hState =>
      simp only [Counts, hJob] at hCounts
      subst hCounts
      refine tells_quiet rfl rfl fun d' hd' => ?_
      cases hd'
      rfl
  | serve hJob | check hJob | take hJob =>
      simp only [Counts, hJob] at hCounts
      refine tells_quiet rfl rfl fun d' hd' => ?_
      cases hd'
      exact hCounts
  | interrupt hJob hClosing =>
      rcases d.heeded_eq k with ⟨slots, hHeeded⟩
      rw [hHeeded]
      refine tells_feed c now n _ _ rfl rfl ?_
      intro hUnlinked
      rcases Scenario.bringingUp_of_unlinked hFits hUnlinked
        hJob with ⟨x, hBusy, -⟩
      exact next_ne_of_bringingUp hFits hBusy (.inl rfl) _ _
  | seek hJob hStep => exact tells_seek hFits hCounts hJob hStep
  | linked hJob hStep =>
      exact tells_ended now hFits hCounts hJob (.inl rfl) hStep
  | expired hJob hStep =>
      exact tells_ended now hFits hCounts hJob (.inr rfl) hStep
  | skip hJob hQueue hGone =>
      have hLinked := hFits.link
      simp only [Fits, hJob] at hFits
      exact tells_linked c now n _ d w rfl rfl
        (hLinked.symm.trans hFits.1)
  | watch hJob hLink hQueue hStep
  | exchange hJob hLink hStep
  | probe hJob hLink hStep =>
      simp only [Counts, hJob] at hCounts
      refine tells_quiet rfl rfl fun d' hd' => ?_
      rcases hStep with ⟨-, rfl⟩ | ⟨-, rfl⟩
      all_goals
        cases hd'
        exact hCounts
  | lost hJob hLink
  | settle hOpen hJob hLink
  | settleCheck hOpen hJob hLink =>
      exact tells_linked c now n _ _ _ rfl rfl
        (hFits.isLinked hLink)

end Driver

------------------------------------------------------------
-- Runs
------------------------------------------------------------

/- The state has the link that the notice is about. -/
theorem Chapter.Step.agrees
    {chapter : Chapter}
    {notice : ConnectionNotice}
    {s : Lifecycle}
    {m : Nat}
    (hStep : chapter.Step notice (s.chapter m)) :
    ∀ g ∈ notice.generation?,
      s.generation? = some g ∧ s.isLinked = notice.isLink := by
  intro g hg
  generalize hChapter : s.chapter m = chapter' at hStep
  cases hStep with
  | failed before hNumber e => cases hg
  | ends => cases hg
  | found before n =>
      have hSame :
          Chapter.successor before = g ∧
            (Chapter.arrival before).isLink = true := by
        cases before with
        | none =>
            cases hg
            exact ⟨rfl, rfl⟩
        | some g' =>
            cases hg
            exact ⟨rfl, rfl⟩
      rw [hSame.2, ← hSame.1]
      cases s with
      | connected g' =>
          cases hChapter
          exact ⟨rfl, rfl⟩
      | awaitingDisconnection g' =>
          cases hChapter
          exact ⟨rfl, rfl⟩
      | _ => cases hChapter
  | lost g' =>
      cases hg
      cases s with
      | disconnected g'' due =>
          cases hChapter
          exact ⟨rfl, rfl⟩
      | _ => cases hChapter

namespace Scenario

variable {W L A : Type}

/- What has been told is at the chapter of the state. -/
def Narrated (s : Scenario W L) : Prop :=
  ∃ n,
    Told s.connection.notices (s.connection.state.chapter n) ∧
      ∀ d ∈ s.driver, d.Counts n

/- Callers and the world tell nothing. -/
theorem notices_step_of_ne
    (c : Connector W L)
    (act : A → W → W)
    (s : Scenario W L)
    {m : Move A}
    (hMove : m ≠ .drive) :
    (s.step c act m).connection.notices =
      s.connection.notices := by
  cases m with
  | submit a options =>
      simp only [step, Connection.submit]
      repeat' split
      all_goals rfl
  | close =>
      simp only [step, Connection.close]
      split <;> rfl
  | drive => exact absurd rfl hMove
  | _ => rfl

theorem driver_step_of_ne
    (c : Connector W L)
    (act : A → W → W)
    (s : Scenario W L)
    {m : Move A}
    (hMove : m ≠ .drive) :
    (s.step c act m).driver = s.driver := by
  cases m with
  | drive => exact absurd rfl hMove
  | _ => rfl

/- The tale goes on by what the driver tells in this step. -/
theorem drive_tells
    (c : Connector W L)
    {s : Scenario W L}
    (hStaffed : s.Staffed)
    {n : Nat}
    (hCounts : ∀ d ∈ s.driver, d.Counts n) :
    Driver.Tells n s.connection (s.drive c).connection
      (s.drive c).driver := by
  cases hDriver : s.driver with
  | none =>
      rw [drive_of_none hDriver, hDriver]
      exact Driver.tells_quiet rfl rfl (by simp)
  | some d =>
      rw [drive_driver hDriver, drive_connection hDriver]
      exact d.step_tells c s.now s.world
        (hStaffed.fits d hDriver) (hCounts d hDriver)

theorem Narrated.step
    (c : Connector W L)
    (act : A → W → W)
    {s : Scenario W L}
    (hStaffed : s.Staffed)
    (h : s.Narrated)
    (m : Move A) :
    (s.step c act m).Narrated := by
  rcases h with ⟨n, hTold, hCounts⟩
  by_cases hMove : m = .drive
  · subst hMove
    rcases drive_tells c hStaffed hCounts with
      ⟨news, n', hNotices, hGoes, hCounts'⟩
    refine ⟨n', ?_, hCounts'⟩
    rw [Scenario.step, hNotices]
    exact hTold.goes hGoes
  · refine ⟨n, ?_, ?_⟩
    · rw [notices_step_of_ne c act s hMove,
        state_step_of_ne hMove]
      exact hTold
    · rw [driver_step_of_ne c act s hMove]
      exact hCounts

theorem narrated_run
    (c : Connector W L)
    (act : A → W → W)
    (settings : Settings)
    (now : Nat)
    (w : W)
    (moves : List (Move A)) :
    ((start settings now w).run c act moves).Narrated := by
  induction moves using List.reverseRecOn with
  | nil =>
      refine ⟨0, .nothing, ?_⟩
      intro d hd
      cases hd
      rfl
  | append_singleton before m ih =>
      rw [run_append]
      exact ih.step c act
        (staffed_run c act settings now w before) m

/- What is told in a run up to here, and from here on. -/
structure Narrates
    (c : Connector W L)
    (act : A → W → W)
    (s : Scenario W L) : Prop where
  /- What has been told is the beginning of a tale. -/
  begun : ∃ rest, Tale (s.connection.notices ++ rest)
  /- It is a whole tale once the driver has ended. -/
  whole : s.driver = none → Tale s.connection.notices
  /- The end has then been told, once and last. -/
  last :
    s.driver = none →
      ∃ before,
        s.connection.notices = before ++ [.terminated] ∧
          .terminated ∉ before
  /- Nothing is told after that. -/
  silent :
    s.driver = none →
      ∀ later : List (Move A),
        (s.run c act later).connection.notices =
          s.connection.notices
  /- Only the driver tells, one notice at a time.  The state
     then has the generation of the notice, and a link if the
     notice is the news of one. -/
  moment :
    ∀ m,
      (s.step c act m).connection.notices =
          s.connection.notices ∨
        m = .drive ∧
          ∃ notice,
            (s.step c act m).connection.notices =
                s.connection.notices ++ [notice] ∧
              ∀ g ∈ notice.generation?,
                (s.step c act m).connection.state.generation? =
                    some g ∧
                  (s.step c act m).connection.state.isLinked =
                    notice.isLink

/- Nothing is told without a driver. -/
theorem notices_run_of_none
    (c : Connector W L)
    (act : A → W → W)
    {s : Scenario W L}
    (hNone : s.driver = none)
    (moves : List (Move A)) :
    (s.run c act moves).connection.notices =
      s.connection.notices := by
  have hBoth :
      (s.run c act moves).driver = none ∧
        (s.run c act moves).connection.notices =
          s.connection.notices := by
    apply run_induction
      (P := fun s' : Scenario W L =>
        s'.driver = none ∧
          s'.connection.notices = s.connection.notices)
    · rintro s' m - ⟨hNone', hNotices⟩
      by_cases hMove : m = .drive
      · subst hMove
        rw [Scenario.step, drive_of_none hNone']
        exact ⟨hNone', hNotices⟩
      · rw [notices_step_of_ne c act s' hMove,
          driver_step_of_ne c act s' hMove]
        exact ⟨hNone', hNotices⟩
    · exact ⟨hNone, rfl⟩
  exact hBoth.2

/- Every run tells a tale, and tells it in time. -/
theorem run_narrates
    (c : Connector W L)
    (act : A → W → W)
    (settings : Settings)
    (now : Nat)
    (w : W)
    (moves : List (Move A)) :
    Narrates c act
      ((start settings now w).run c act moves) := by
  have hStaffed := staffed_run c act settings now w moves
  rcases narrated_run c act settings now w moves with
    ⟨n, hTold, hCounts⟩
  generalize (start settings now w).run c act moves = s
    at hStaffed hTold hCounts ⊢
  have hWhole : s.driver = none → Tale s.connection.notices := by
    intro hNone
    rw [hStaffed.ended hNone] at hTold
    exact hTold.tale
  refine {
    begun := ?begun
    whole := hWhole
    last := fun hNone => (hWhole hNone).ends
    silent := fun hNone later =>
      notices_run_of_none c act hNone later
    moment := ?moment }
  case begun =>
    rcases (s.connection.state.chapter n).exists_rest with
      ⟨rest, hRest⟩
    exact ⟨rest, hTold.tale_append hRest⟩
  case moment =>
    intro m
    by_cases hMove : m = .drive
    · subst hMove
      rcases drive_tells c hStaffed hCounts with
        ⟨news, n', hNotices, hGoes, -⟩
      cases news with
      | none =>
          left
          rwa [Option.toList_none, List.append_nil] at hNotices
      | some notice =>
          exact .inr ⟨rfl, notice, hNotices, hGoes.agrees⟩
    · exact .inl (notices_step_of_ne c act s hMove)

/- The first link is lost; the second one is up at the end. -/
example :
    let s : Scenario PipeHub Nat :=
      (start {} 0 {}).run (PipeHub.connector .ble (.fixed 64))
        (fun link h => h.hangUp link)
        (List.replicate 5 .drive ++
          .outside 1 :: List.replicate 6 .drive ++
            .close :: List.replicate 3 .drive)
    s.driver.isNone ∧
      s.connection.notices =
        [.connected 1, .disconnected 1, .reconnected 2,
          .terminated] := by
  decide +kernel

end Scenario

end DeviceSession
