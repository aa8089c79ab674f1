import Mathlib.Algebra.Order.Floor.Div
import DeviceSession.Proofs.Action.OpenApp
import DeviceSession.Proofs.Action.Outlays

/-
  How much is done on the way to an app.

  A locked device is asked again as long as there is time
  for it, and an app is closed twice at most on the way to
  the dashboard.  So there is a limit to the commands and to
  the moves of both actions, whatever the device answers and
  whenever, and neither of them opens an app.

  Key definitions include:
    * `Outlay.Within`
    * `Outlay.Aside`
    * `Status.questions`
    * `Status.limited`
    * `ToDashboard.limited`

  Main declarations:
    * `Action.honours_status`
    * `Action.honours_toDashboard`
-/

------------------------------------------------------------
-- What Is Counted
------------------------------------------------------------

namespace DeviceSession

instance (a : Apdu) : Decidable a.OpensApp := by
  unfold Apdu.OpensApp
  infer_instance

instance (a : Apdu) : Decidable a.ClosesApp := by
  unfold Apdu.ClosesApp
  infer_instance

namespace Correspondence

/- The commands that open an app. -/
def opens (l : Correspondence) : Correspondence :=
  l.filter fun e => e.1.OpensApp

/- How many commands close an app. -/
def closes (l : Correspondence) : Nat :=
  l.countP fun e => e.1.ClosesApp

/- Both are counted in parts. -/
@[simp]
theorem opens_append (l l' : Correspondence) :
    opens (l ++ l') = l.opens ++ l'.opens :=
  List.filter_append ..

@[simp]
theorem closes_append (l l' : Correspondence) :
    closes (l ++ l') = l.closes + l'.closes :=
  List.countP_append

/- An answer does not change which commands there are. -/
theorem map_answered
    (l : Correspondence)
    (answer : Option Answer) :
    (l.answered answer).map Prod.fst = l.map Prod.fst := by
  cases l <;> cases answer <;> rfl

/- So there are as many as before. -/
theorem length_answered
    (l : Correspondence)
    (answer : Option Answer) :
    (l.answered answer).length = l.length := by
  simpa using congrArg List.length (l.map_answered answer)

/- The commands alone tell how many close an app. -/
theorem closes_eq (l : Correspondence) :
    l.closes = (l.map Prod.fst).countP (·.ClosesApp) := by
  simp [closes, List.countP_map, Function.comp_def]

/- They tell as well whether one opens an app. -/
theorem opens_eq_nil_iff (l : Correspondence) :
    l.opens = [] ↔ ∀ a ∈ l.map Prod.fst, ¬ a.OpensApp := by
  simp [opens, List.filter_eq_nil_iff]

end Correspondence

/- What has been done stays within limits. -/
structure Outlay.Within
    (g : Outlay)
    (letters moves closes : Nat) : Prop where
  letters : g.letters.length ≤ letters
  moves : g.moves ≤ moves
  closes : g.letters.closes ≤ closes

namespace Outlay

variable {g h : Outlay} {l l' m m' n n' : Nat}

/- Before its first move an action has done nothing. -/
theorem within_start : Within {} 0 0 0 :=
  ⟨le_rfl, le_rfl, le_rfl⟩

namespace Within

/- A limit can be raised. -/
theorem mono
    (hWithin : g.Within l m n)
    (hLetters : l ≤ l')
    (hMoves : m ≤ m')
    (hCloses : n ≤ n') :
    g.Within l' m' n' :=
  ⟨hWithin.letters.trans hLetters, hWithin.moves.trans hMoves,
    hWithin.closes.trans hCloses⟩

/- A move without a command. -/
theorem move (hWithin : g.Within l m n) :
    g.move.Within l (m + 1) n :=
  ⟨hWithin.letters, Nat.succ_le_succ hWithin.moves,
    hWithin.closes⟩

/- Limits of one action after another add up. -/
theorem after
    (hWithin : g.Within l m n)
    (hBefore : h.Within l' m' n') :
    (g.after h).Within (l' + l) (m' + m) (n' + n) where
  letters := by
    have hHere := hWithin.letters
    have hThere := hBefore.letters
    simp only [Outlay.after, List.length_append]
    omega
  moves := Nat.add_le_add hBefore.moves hWithin.moves
  closes := by
    have hHere := hWithin.closes
    have hThere := hBefore.closes
    simp only [Outlay.after, Correspondence.closes_append]
    omega

/- A command other than one that closes an app. -/
theorem write
    {a : Apdu}
    (hWithin : g.Within l m n)
    (hOther : ¬ a.ClosesApp) :
    (g.write a).Within (l + 1) (m + 1) n where
  letters := Nat.succ_le_succ hWithin.letters
  moves := Nat.succ_le_succ hWithin.moves
  closes := by
    have hCloses := hWithin.closes
    simp only [Outlay.write, Correspondence.closes,
      List.countP_cons] at hCloses ⊢
    simpa [hOther] using hCloses

/- Any command. -/
theorem write_any
    {a : Apdu}
    (hWithin : g.Within l m n) :
    (g.write a).Within (l + 1) (m + 1) (n + 1) where
  letters := Nat.succ_le_succ hWithin.letters
  moves := Nat.succ_le_succ hWithin.moves
  closes := by
    have hCloses := hWithin.closes
    simp only [Outlay.write, Correspondence.closes,
      List.countP_cons] at hCloses ⊢
    split <;> omega

/- Nothing more is counted for an answer. -/
theorem read
    (answer : Answer)
    (hWithin : g.Within l m n) :
    (g.read answer).Within l (m + 1) n where
  letters :=
    (g.letters.length_answered answer).trans_le hWithin.letters
  moves := Nat.succ_le_succ hWithin.moves
  closes := by
    have hCloses := hWithin.closes
    rw [Correspondence.closes_eq] at hCloses ⊢
    rwa [Outlay.read, Correspondence.map_answered]

end Within

end Outlay

/- What is done stays within limits, and no app is opened. -/
structure Outlay.Aside
    (g : Outlay)
    (letters moves closes : Nat) : Prop where
  within : g.Within letters moves closes
  opens : g.letters.opens = []

namespace Outlay.Aside

variable {g h : Outlay} {l l' m m' n n' : Nat}

/- Nothing has been done, aside or at all. -/
theorem start : Aside {} 0 0 0 :=
  ⟨within_start, rfl⟩

/- The limits of what is done aside can be raised too. -/
theorem mono
    (hAside : g.Aside l m n)
    (hLetters : l ≤ l')
    (hMoves : m ≤ m')
    (hCloses : n ≤ n') :
    g.Aside l' m' n' :=
  ⟨hAside.within.mono hLetters hMoves hCloses, hAside.opens⟩

/- A move without a command, once more. -/
theorem move (hAside : g.Aside l m n) :
    g.move.Aside l (m + 1) n :=
  ⟨hAside.within.move, hAside.opens⟩

/- To ask which app runs is one command, and opens none. -/
theorem ask (hAside : g.Aside l m n) :
    (g.write Command.getApp.apdu).Aside (l + 1) (m + 1) n :=
  ⟨hAside.within.write (by decide), hAside.opens⟩

/- To close an app is one command, and is counted. -/
theorem close (hAside : g.Aside l m n) :
    (g.write Command.closeApp.apdu).Aside
      (l + 1) (m + 1) (n + 1) :=
  ⟨hAside.within.write_any, hAside.opens⟩

/- An answer is a move as well, and no command. -/
theorem read
    (answer : Answer)
    (hAside : g.Aside l m n) :
    (g.read answer).Aside l (m + 1) n where
  within := hAside.within.read answer
  opens := by
    have hOpens := hAside.opens
    rw [Correspondence.opens_eq_nil_iff] at hOpens ⊢
    rwa [Outlay.read, Correspondence.map_answered]

end Outlay.Aside

------------------------------------------------------------
-- Asking a Locked Device
------------------------------------------------------------

namespace Status

/- How often a device is asked. -/
def questions (p : Patience) : Nat :=
  p.timeout ⌈/⌉ p.interval + 1

/- What is left of the time for unlocking, at a time. -/
def left (p : Patience) (since now : Nat) : Nat :=
  p.timeout - (now - since)

/-
  What is known of an outlay.  If `j` questions have been
  used up, and `m` are left after the next one, the time
  that is left is that of `m` pauses.
-/
def limited (p : Patience) (now : Nat) (g : Outlay) :
    State → Prop
  | .asking none => g = {}
  | .asking (some since) =>
      since ≤ now ∧
      ∃ j m, j + m + 1 = questions p ∧
        left p since now ≤ m * p.interval ∧
        g.Aside j (4 * j) 0
  | .waiting since =>
      since ≤ now ∧
      ∃ j m, j + m + 2 = questions p ∧
        left p since now ≤ (m + 1) * p.interval ∧
        g.Aside (j + 1) (4 * j + 2) 0
  | _ => g.Aside (questions p) (4 * questions p - 2) 0

/- What comes of the question after `j` others. -/
theorem limited_asked
    {p : Patience}
    {since : Option Nat}
    {now j m : Nat}
    {g : Outlay}
    (r : Except (CommandError Empty) AppInfo)
    (hSince : since.getD now ≤ now)
    (hCount : j + m + 1 = questions p)
    (hLeft : left p (since.getD now) now ≤ m * p.interval)
    (hAside : g.Aside (j + 1) (4 * j + 2) 0) :
    limited p now g (asked p since now r) := by
  have hEnd : g.Aside (questions p) (4 * questions p - 2) 0 :=
    hAside.mono (by omega) (by omega) le_rfl
  match r with
  | .ok app => exact hEnd
  | .error (.device e) => exact hEnd
  | .error (.invalidResponse e) => exact hEnd
  | .error (.connection e) => exact hEnd
  | .error (.unknownExchange status) =>
      simp only [asked, foundLocked]
      split
      · split
        · exact hEnd
        · rename_i hTime
          cases m with
          | zero =>
              simp only [left] at hLeft
              omega
          | succ m =>
              exact ⟨hSince, j, m, by omega, hLeft, hAside⟩
      · exact hEnd

/- A pause is as long as the interval, if time is left. -/
theorem left_after_pause
    {p : Patience}
    {since now now' m : Nat}
    (hSince : since ≤ now)
    (hLeft : left p since now ≤ (m + 1) * p.interval)
    (hPause : now + pause p since now ≤ now') :
    left p since now' ≤ m * p.interval := by
  rw [Nat.succ_mul] at hLeft
  simp only [left, pause] at hLeft hPause ⊢
  omega

/- The later it is, the fewer questions are left. -/
theorem left_anti
    {p : Patience}
    {now now' : Nat}
    (since : Nat)
    (hLater : now ≤ now') :
    left p since now' ≤ left p since now :=
  Nat.sub_le_sub_left (Nat.sub_le_sub_right hLater since) _

/- So what is known of a locked device stays true. -/
theorem limited_later
    {p : Patience}
    {now now' : Nat}
    {g : Outlay}
    {s : State}
    (hLater : now ≤ now')
    (hKnown : limited p now g s) :
    limited p now' g s := by
  match s with
  | .asking none => exact hKnown
  | .asking (some since) =>
      obtain ⟨hSince, j, m, hCount, hLeft, hAside⟩ := hKnown
      exact ⟨hSince.trans hLater, j, m, hCount,
        (left_anti since hLater).trans hLeft, hAside⟩
  | .waiting since =>
      obtain ⟨hSince, j, m, hCount, hLeft, hAside⟩ := hKnown
      exact ⟨hSince.trans hLater, j, m, hCount,
        (left_anti since hLater).trans hLeft, hAside⟩
  | .done app => exact hKnown
  | .failed e => exact hKnown

/- What is known is within what is agreed on. -/
theorem lawful_of_limited
    {p : Patience}
    {now : Nat}
    {g : Outlay}
    {s : State}
    (hKnown : limited p now g s) :
    g.Aside (questions p) (4 * questions p - 1) 0 := by
  match s with
  | .asking none =>
      obtain rfl := hKnown
      exact Outlay.Aside.start.mono (Nat.zero_le _)
        (Nat.zero_le _) le_rfl
  | .asking (some since) =>
      obtain ⟨-, j, m, hCount, -, hAside⟩ := hKnown
      exact hAside.mono (by omega) (by omega) le_rfl
  | .waiting since =>
      obtain ⟨-, j, m, hCount, -, hAside⟩ := hKnown
      exact hAside.mono (by omega) (by omega) le_rfl
  | .done app =>
      exact Outlay.Aside.mono hKnown le_rfl (by omega) le_rfl
  | .failed e =>
      exact Outlay.Aside.mono hKnown le_rfl (by omega) le_rfl

/- What is agreed on for asking. -/
def contract (p : Patience) :
    Contract (DashboardKind AppInfo) where
  law g := g.Aside (questions p) (4 * questions p - 1) 0
  post g _ := g.Aside (questions p) (4 * questions p) 0
  stopped g hLaw :=
    ⟨hLaw.mono le_rfl (by omega) le_rfl,
      hLaw.move.mono le_rfl (by simp only [questions]; omega)
        le_rfl⟩

end Status

/- A question is put as often as the patience allows. -/
theorem Action.honours_status
    {p : Status.Patience}
    (hInterval : 0 < p.interval) :
    (Action.status p).Honours (Status.contract p) := by
  refine .mk ⟨Status.limited p, fun i => Empty.elim i⟩
    ⟨fun now => rfl, fun now now' g s => Status.limited_later,
      fun now g s => Status.lawful_of_limited, ?act⟩
    fun i => Empty.elim i
  intro now g s hKnown
  match s with
  | .asking none =>
      obtain rfl := hKnown
      have hAside := Outlay.Aside.start.ask
      have hTime :
          p.timeout ≤
            p.timeout ⌈/⌉ p.interval * p.interval := by
        rw [Nat.mul_comm]
        exact le_smul_ceilDiv hInterval
      refine ⟨hAside.mono ?_ ?_ le_rfl,
        fun now' answer _ => ?_⟩
      · simp [Status.questions]
      · simp only [Status.questions]
        omega
      · refine Status.limited_asked (j := 0)
          (m := p.timeout ⌈/⌉ p.interval) _ le_rfl ?_ ?_
          (hAside.read answer)
        · simp [Status.questions]
        · simpa [Status.left] using hTime
  | .asking (some since) =>
      obtain ⟨hSince, j, m, hCount, hLeft, hAside⟩ := hKnown
      refine ⟨hAside.ask.mono (by omega) (by omega) le_rfl,
        fun now' answer hLater => ?_⟩
      exact Status.limited_asked _ (hSince.trans hLater) hCount
        ((Status.left_anti since hLater).trans hLeft)
        (hAside.ask.read answer)
  | .waiting since =>
      obtain ⟨hSince, j, m, hCount, hLeft, hAside⟩ := hKnown
      refine ⟨hAside.move.mono (by omega) (by omega) le_rfl,
        fun now' hLater => ?_⟩
      exact ⟨by omega, j + 1, m, by omega,
        Status.left_after_pause hSince hLeft hLater,
        hAside.move.move⟩
  | .done app =>
      exact hKnown.move.mono le_rfl
        (by simp only [Status.questions]; omega) le_rfl
  | .failed e =>
      exact hKnown.move.mono le_rfl
        (by simp only [Status.questions]; omega) le_rfl

------------------------------------------------------------
-- Leaving Apps
------------------------------------------------------------

namespace ToDashboard

/- What is known of an outlay once some apps were closed. -/
def limited (g : Outlay) : State → Prop
  | .asking n =>
      n ≤ maxCloses ∧ g.Aside (2 * n) (5 * n) n
  | .running _ n =>
      n ≤ maxCloses ∧ g.Aside (2 * n + 1) (5 * n + 2) n
  | .closing n =>
      n < maxCloses ∧ g.Aside (2 * n + 1) (5 * n + 3) n
  | _ => g.Aside 5 13 maxCloses

/- Leaving apps takes five commands, two of which close one. -/
def contract : Contract (DashboardKind Unit) where
  law g := g.Aside 5 13 maxCloses
  post g _ := g.Aside 5 14 maxCloses
  stopped _ hLaw :=
    ⟨hLaw.mono le_rfl (by decide) le_rfl, hLaw.move⟩

/- On the way to the dashboard, after a question. -/
theorem limited_asked
    {n : Nat}
    {g : Outlay}
    (r : Except (CommandError Empty) AppInfo)
    (hCount : n ≤ maxCloses)
    (hAside : g.Aside (2 * n + 1) (5 * n + 2) n) :
    limited g (asked n r) := by
  cases r with
  | ok app => exact ⟨hCount, hAside⟩
  | error e =>
      simp only [maxCloses] at hCount
      exact hAside.mono (by omega) (by omega) hCount

/- After a request to close the app. -/
theorem limited_closed
    {n : Nat}
    {g : Outlay}
    (r : Except (CommandError Empty) Unit)
    (hCount : n < maxCloses)
    (hAside : g.Aside (2 * n + 2) (5 * n + 5) (n + 1)) :
    limited g (closed n r) := by
  cases r with
  | ok _ => exact ⟨hCount, hAside⟩
  | error e =>
      simp only [maxCloses] at hCount
      exact hAside.mono (by omega) (by omega) hCount

/- On the way on from an app that has been named. -/
theorem limited_route
    {n : Nat}
    {g : Outlay}
    (app : AppInfo)
    (hCount : n ≤ maxCloses)
    (hAside : g.Aside (2 * n + 1) (5 * n + 3) n) :
    limited g (route app n) := by
  have hEnd : g.Aside 5 13 maxCloses := by
    simp only [maxCloses] at hCount ⊢
    exact hAside.mono (by omega) (by omega) hCount
  unfold route
  split
  · exact hEnd
  · split
    · rename_i hMore
      exact ⟨hMore, hAside⟩
    · exact hEnd

/- Wherever it ends, the limits are those of the contract. -/
theorem lawful_of_limited
    {g : Outlay}
    {s : State}
    (hKnown : limited g s) :
    g.Aside 5 13 maxCloses := by
  cases s with
  | asking n =>
      have hCount : n ≤ 2 := hKnown.1
      exact hKnown.2.mono (by omega) (by omega) hCount
  | running app n =>
      have hCount : n ≤ 2 := hKnown.1
      exact hKnown.2.mono (by omega) (by omega) hCount
  | closing n =>
      have hCount : n < 2 := hKnown.1
      exact hKnown.2.mono (by omega) (by omega) hKnown.1.le
  | done => exact hKnown
  | failed e => exact hKnown

end ToDashboard

/- An app is closed twice at most, whatever is answered. -/
theorem Action.honours_toDashboard :
    Action.toDashboard.Honours ToDashboard.contract := by
  refine .mk
    ⟨fun _ => ToDashboard.limited, fun i => Empty.elim i⟩
    ⟨fun _ => ⟨Nat.zero_le _, .start⟩, fun _ _ _ _ _ => id,
      fun _ _ _ => ToDashboard.lawful_of_limited, ?act⟩
    fun i => Empty.elim i
  intro now g s hKnown
  cases s with
  | asking n =>
      obtain ⟨hCount, hAside⟩ := hKnown
      have hLimit : n ≤ 2 := hCount
      exact ⟨hAside.ask.mono (by omega) (by omega) hCount,
        fun now' answer _ =>
          ToDashboard.limited_asked _ hCount
            (hAside.ask.read answer)⟩
  | running app n =>
      obtain ⟨hCount, hAside⟩ := hKnown
      exact ToDashboard.limited_route app hCount hAside.move
  | closing n =>
      obtain ⟨hCount, hAside⟩ := hKnown
      have hLimit : n < 2 := hCount
      exact ⟨hAside.close.mono (by omega) (by omega) hCount,
        fun now' answer _ =>
          ToDashboard.limited_closed _ hCount
            (hAside.close.read answer)⟩
  | done => exact hKnown.move
  | failed e => exact hKnown.move

end DeviceSession
