import DeviceSession.Proofs.Action.Limits
import DeviceSession.Proofs.Action.Schedules

/-
  How much is done to open an app.

  An app is opened in one round, with an errand to ask the
  device and one to leave what is running.  There is another
  round if the link is lost while the app is being opened,
  and no third one.  Each round has its limits, so the whole
  action has, and it ends.

  Key definitions include:
    * `OpenApp.Retries`
    * `OpenApp.LostTwice`
    * `OpenApp.Round`
    * `OpenApp.limited`

  Main declarations:
    * `OpenApp.holds_notes`
    * `OpenApp.failed_of_lostTwice`
    * `Performance.openApp_bounded`
-/

------------------------------------------------------------
-- Rounds
------------------------------------------------------------

namespace DeviceSession

/- A refused command was answered. -/
theorem expectSuccess_ne_connection
    {E : Type}
    (table : ErrorTable E)
    (r : Response)
    (e : ConnectionError) :
    expectSuccess table r ≠ .error (.connection e) := by
  unfold expectSuccess
  split
  · exact nofun
  · split <;> exact nofun

namespace OpenApp

/- The link was lost while a command was being sent. -/
def Lost (e : Apdu × Option Answer) : Prop :=
  e.2 = some (.error .disconnectedWhileSending)

/-
  An app is opened twice at most, and for the second time
  only once the link was lost the first time.
-/
structure Retries (l : Correspondence) : Prop where
  few : l.opens.length ≤ 2
  lost : ∀ e ∈ l.opens.tail, Lost e

/- The link was lost both times that an app was opened. -/
def LostTwice (l : Correspondence) : Prop :=
  ∃ e e', l.opens = [e, e'] ∧ Lost e ∧ Lost e'

/- How the app has been opened before. -/
def tried (c : Command OpenAppError Unit) :
    Bool → Correspondence
  | false => []
  | true =>
      [(c.apdu, some (.error .disconnectedWhileSending))]

/-
  What is done in a round stays within limits, on top of
  those of the round before, if it is the second one.
-/
structure Round
    (p : Status.Patience)
    (c : Command OpenAppError Unit)
    (again : Bool)
    (g : Outlay)
    (letters moves closes : Nat) : Prop where
  within :
    g.Within
      (again.toNat * (Status.questions p + 6) + letters)
      (again.toNat * (4 * Status.questions p + 19) + moves)
      (again.toNat * ToDashboard.maxCloses + closes)
  opens : g.letters.opens = tried c again

/- The limits of both rounds. -/
structure Limited
    (p : Status.Patience)
    (moves : Nat)
    (g : Outlay) : Prop where
  within :
    g.Within
      (2 * (Status.questions p + 6))
      (2 * (4 * Status.questions p + 19) + moves)
      (2 * ToDashboard.maxCloses)
  retries : Retries g.letters

/- What is known of an outlay in a state. -/
def limited
    (p : Status.Patience)
    (c : Command OpenAppError Unit)
    (g : Outlay) : State → Prop
  | .asking b => Round p c b g 0 0 0
  | .running _ b =>
      Round p c b g (Status.questions p)
        (4 * Status.questions p + 1) 0
  | .leaving b =>
      Round p c b g (Status.questions p)
        (4 * Status.questions p + 2) 0
  | .opening b =>
      Round p c b g (Status.questions p + 5)
        (4 * Status.questions p + 17) ToDashboard.maxCloses
  | .failed e =>
      Limited p 0 g ∧
      (LostTwice g.letters →
        e = .connection .disconnectedWhileSending)
  | _ => Limited p 0 g ∧ ¬ LostTwice g.letters

def contract (p : Status.Patience) :
    Contract (DashboardKind Unit) where
  law := Limited p 0
  post g o :=
    Limited p 1 g ∧
    (LostTwice g.letters →
      o = .error (.connection .disconnectedWhileSending) ∨
      o = .stopped)
  stopped g hLaw := by
    have hSame := hLaw.within.mono le_rfl (Nat.le_succ _) le_rfl
    exact ⟨⟨⟨hSame, hLaw.retries⟩, fun _ => .inr rfl⟩,
      ⟨hLaw.within.move, hLaw.retries⟩, fun _ => .inr rfl⟩

def notes
    (name : String)
    (c : Command OpenAppError Unit)
    (p : Status.Patience) : Notes (plan name c) where
  known _ := limited p c
  child
    | .status => Status.contract p
    | .toDashboard => ToDashboard.contract

------------------------------------------------------------
-- The Limits of a Round
------------------------------------------------------------

section Rounds

variable {p : Status.Patience} {c : Command OpenAppError Unit}
variable {b : Bool} {g : Outlay} {l l' m m' n n' : Nat}

theorem Round.mono
    (hRound : Round p c b g l m n)
    (hLetters : l ≤ l')
    (hMoves : m ≤ m')
    (hCloses : n ≤ n') :
    Round p c b g l' m' n' where
  within := hRound.within.mono (by omega) (by omega) (by omega)
  opens := hRound.opens

theorem Round.move (hRound : Round p c b g l m n) :
    Round p c b g.move l (m + 1) n :=
  ⟨hRound.within.move, hRound.opens⟩

/- What an errand does is part of the round. -/
theorem Round.after
    {g' : Outlay}
    (hRound : Round p c b g l m n)
    (hAside : g'.Aside l' m' n') :
    Round p c b (g'.after g) (l + l') (m + m') (n + n') where
  within := (hAside.within.after hRound.within).mono
    (by omega) (by omega) (by omega)
  opens := by
    simp [Outlay.after, hAside.opens, hRound.opens]

theorem retries_concat
    (e : Apdu × Option Answer)
    {l : Correspondence}
    (hOpens : l.opens = e :: tried c b) :
    Retries l where
  few := by cases b <;> simp [hOpens, tried]
  lost := by cases b <;> simp [hOpens, tried, Lost]

theorem Round.retries (hRound : Round p c b g l m n) :
    Retries g.letters where
  few := by cases b <;> simp [hRound.opens, tried]
  lost := by cases b <;> simp [hRound.opens, tried]

theorem Round.not_lostTwice (hRound : Round p c b g l m n) :
    ¬ LostTwice g.letters := by
  rintro ⟨e, e', hOpens, -⟩
  rw [hRound.opens] at hOpens
  cases b <;> cases hOpens

theorem within_of_round
    (hWithin :
      g.Within
        (b.toNat * (Status.questions p + 6) + l)
        (b.toNat * (4 * Status.questions p + 19) + m)
        (b.toNat * ToDashboard.maxCloses + n))
    (hLetters : l ≤ Status.questions p + 6)
    (hMoves : m ≤ 4 * Status.questions p + 19)
    (hCloses : n ≤ ToDashboard.maxCloses) :
    g.Within
      (2 * (Status.questions p + 6))
      (2 * (4 * Status.questions p + 19))
      (2 * ToDashboard.maxCloses) := by
  cases b
  all_goals
    simp only [Bool.toNat_false, Bool.toNat_true] at hWithin
    exact hWithin.mono (by omega) (by omega) (by omega)

/- A round stays within the limits of both. -/
theorem Round.limited
    (hRound : Round p c b g l m n)
    (hLetters : l ≤ Status.questions p + 6)
    (hMoves : m ≤ 4 * Status.questions p + 19)
    (hCloses : n ≤ ToDashboard.maxCloses) :
    Limited p 0 g :=
  ⟨within_of_round hRound.within hLetters hMoves hCloses,
    hRound.retries⟩

------------------------------------------------------------
-- What Comes of a Call
------------------------------------------------------------

theorem limited_asked
    (o : Outcome AppInfo OsError)
    (hRound :
      Round p c b g (Status.questions p)
        (4 * Status.questions p + 1) 0) :
    OpenApp.limited p c g (asked b o) := by
  have hLimited :=
    hRound.limited (by omega) (by omega) (Nat.zero_le _)
  have hOnce := hRound.not_lostTwice
  cases o with
  | completed app => exact hRound
  | error e =>
      exact ⟨hLimited, fun hTwice => absurd hTwice hOnce⟩
  | stopped => exact ⟨hLimited, hOnce⟩

theorem limited_left
    (o : Outcome Unit OsError)
    (hRound :
      Round p c b g (Status.questions p + 5)
        (4 * Status.questions p + 17) ToDashboard.maxCloses) :
    OpenApp.limited p c g (left b o) := by
  have hLimited :=
    hRound.limited (by omega) (by omega) le_rfl
  have hOnce := hRound.not_lostTwice
  cases o with
  | completed _ => exact hRound
  | error e =>
      exact ⟨hLimited, fun hTwice => absurd hTwice hOnce⟩
  | stopped => exact ⟨hLimited, hOnce⟩

theorem limited_route
    (name : String)
    (app : AppInfo)
    (hRound :
      Round p c b g (Status.questions p)
        (4 * Status.questions p + 2) 0) :
    OpenApp.limited p c g (route name app b) := by
  unfold route
  split
  · exact ⟨
      hRound.limited (by omega) (by omega) (Nat.zero_le _),
      hRound.not_lostTwice⟩
  · split
    · exact hRound.mono (by omega) (by omega) (Nat.zero_le _)
    · exact hRound

section Command

variable {name : String}

theorem opensApp_apdu (hCommand : Command.openApp name = .ok c) :
    c.apdu.OpensApp ∧ ¬ c.apdu.ClosesApp := by
  obtain ⟨hLength, hApdu, -⟩ := Command.openApp_eq_ok hCommand
  rw [hApdu]
  exact ⟨⟨rfl, rfl⟩,
    fun hCloses => absurd hCloses.1 (by simp)⟩

/- Only the loss of the link is taken for it. -/
theorem settle_eq_lost
    {answer : Answer}
    (hCommand : Command.openApp name = .ok c)
    (hSettle :
      c.settle answer =
        .error (.connection .disconnectedWhileSending)) :
    answer = .error .disconnectedWhileSending := by
  obtain ⟨-, -, hParse⟩ := Command.openApp_eq_ok hCommand
  cases answer with
  | ok r =>
      rw [Command.settle, hParse] at hSettle
      exact absurd hSettle (expectSuccess_ne_connection _ _ _)
  | error e =>
      cases hSettle
      rfl

/- The command comes after that of the round before. -/
theorem Round.opens_cons
    {e : Apdu × Option Answer}
    (hRound : Round p c b g l m n)
    (hOpens : e.1.OpensApp) :
    Correspondence.opens (e :: g.letters) = e :: tried c b := by
  rw [← hRound.opens]
  exact List.filter_cons_of_pos (by simpa using hOpens)

theorem Round.write
    (hCommand : Command.openApp name = .ok c)
    (hRound :
      Round p c b g (Status.questions p + 5)
        (4 * Status.questions p + 17) ToDashboard.maxCloses) :
    Limited p 0 (g.write c.apdu) := by
  obtain ⟨hOpens, hOther⟩ := opensApp_apdu hCommand
  exact ⟨within_of_round (hRound.within.write hOther)
      (l := Status.questions p + 6)
      (m := 4 * Status.questions p + 18)
      le_rfl (by omega) le_rfl,
    retries_concat (c.apdu, none) (hRound.opens_cons hOpens)⟩

/- What comes of the command, in either round. -/
theorem limited_opened
    (answer : Answer)
    (hCommand : Command.openApp name = .ok c)
    (hRound :
      Round p c b g (Status.questions p + 5)
        (4 * Status.questions p + 17) ToDashboard.maxCloses) :
    OpenApp.limited p c ((g.write c.apdu).read answer)
      (opened b (c.settle answer)) := by
  obtain ⟨hOpensApp, hOther⟩ := opensApp_apdu hCommand
  have hOpens :
      ((g.write c.apdu).read answer).letters.opens =
        (c.apdu, some answer) :: tried c b :=
    hRound.opens_cons hOpensApp
  have hWithin :
      ((g.write c.apdu).read answer).Within
        (b.toNat * (Status.questions p + 6) +
          (Status.questions p + 6))
        (b.toNat * (4 * Status.questions p + 19) +
          (4 * Status.questions p + 19))
        (b.toNat * ToDashboard.maxCloses +
          ToDashboard.maxCloses) :=
    (hRound.within.write hOther).read answer
  have hLimited :
      Limited p 0 ((g.write c.apdu).read answer) :=
    ⟨within_of_round hWithin le_rfl le_rfl le_rfl,
      retries_concat _ hOpens⟩
  -- If both were lost, then so was the link for this one.
  have hLost :
      LostTwice ((g.write c.apdu).read answer).letters →
      b = true ∧ answer = .error .disconnectedWhileSending := by
    rintro ⟨e, e', hTwo, hLost, -⟩
    rw [hOpens] at hTwo
    cases b with
    | false => cases hTwo
    | true =>
        cases hTwo
        exact ⟨rfl, Option.some.inj hLost⟩
  cases hSettle : c.settle answer with
  | ok _ =>
      refine ⟨hLimited, fun hTwice => ?_⟩
      rw [(hLost hTwice).2] at hSettle
      cases hSettle
  | error e =>
      simp only [opened]
      split
      · rename_i hAgain
        obtain ⟨rfl, hFirst⟩ := hAgain
        obtain rfl : b = false := by simpa using hFirst
        obtain rfl := settle_eq_lost hCommand hSettle
        exact ⟨by simpa using hWithin, hOpens⟩
      · refine ⟨hLimited, fun hTwice => ?_⟩
        rw [(hLost hTwice).2] at hSettle
        cases hSettle
        rfl

end Command

/- What is known is within the limits of both rounds. -/
theorem lawful_of_limited
    {s : State}
    (hKnown : OpenApp.limited p c g s) :
    Limited p 0 g := by
  cases s with
  | asking b =>
      exact hKnown.limited (Nat.zero_le _) (Nat.zero_le _)
        (Nat.zero_le _)
  | running app b =>
      exact hKnown.limited (by omega) (by omega) (Nat.zero_le _)
  | leaving b =>
      exact hKnown.limited (by omega) (by omega) (Nat.zero_le _)
  | opening b =>
      exact hKnown.limited (by omega) (by omega) le_rfl
  | _ => exact hKnown.1

end Rounds

------------------------------------------------------------
-- The Whole Action
------------------------------------------------------------

theorem starts_limited
    (p : Status.Patience)
    (c : Command OpenAppError Unit) :
    Round p c false {} 0 0 0 where
  within := Outlay.within_start.mono (Nat.zero_le _)
    (Nat.zero_le _) (Nat.zero_le _)
  opens := rfl

/- All that is done to open an app stays within limits. -/
theorem holds_notes
    {name : String}
    {c : Command OpenAppError Unit}
    {p : Status.Patience}
    (hCommand : Command.openApp name = .ok c)
    (hInterval : 0 < p.interval) :
    Notes.Holds (a := Action.openWith name c p)
      (notes name c p) (contract p) := by
  refine ⟨⟨fun _ => starts_limited p c,
    fun _ _ _ _ _ => id, fun _ _ _ => lawful_of_limited, ?act⟩,
    ?children⟩
  case children =>
    rintro (_ | _)
    · exact Action.honours_status hInterval
    · exact Action.honours_toDashboard
  case act =>
    intro now g s hKnown
    cases s with
    | asking b =>
        refine ⟨fun g' hLaw => ?_,
          fun now' g' o _ hPost => ?_⟩
        · exact (hKnown.move.after hLaw).limited
            (by omega) (by omega) (by omega)
        · exact limited_asked o ((hKnown.move.after hPost).mono
            (by omega) (by omega) le_rfl)
    | running app b =>
        exact limited_route name app hKnown.move
    | leaving b =>
        refine ⟨fun g' hLaw => ?_,
          fun now' g' o _ hPost => ?_⟩
        · exact (hKnown.move.after hLaw).limited
            (by omega) (by omega) (by omega)
        · exact limited_left o ((hKnown.move.after hPost).mono
            (by omega) (by omega) (by omega))
    | opening b =>
        exact ⟨hKnown.write hCommand, fun now' answer _ =>
          limited_opened answer hCommand hKnown⟩
    | done =>
        obtain ⟨hLimited, hOnce⟩ := hKnown
        exact ⟨⟨hLimited.within.move, hLimited.retries⟩,
          fun hTwice => absurd hTwice hOnce⟩
    | failed e =>
        obtain ⟨hLimited, hError⟩ := hKnown
        exact ⟨⟨hLimited.within.move, hLimited.retries⟩,
          fun hTwice => .inl (by rw [hError hTwice])⟩
    | stopped =>
        obtain ⟨hLimited, hOnce⟩ := hKnown
        exact ⟨⟨hLimited.within.move, hLimited.retries⟩,
          fun hTwice => absurd hTwice hOnce⟩

/- Where it is when the link has been lost twice. -/
theorem failed_of_lostTwice
    {K : Type}
    {name : String}
    {c : Command OpenAppError Unit}
    {p : Status.Patience}
    {now : Nat}
    {g : Outlay}
    {run : Run K (DashboardKind Unit)}
    (hCommand : Command.openApp name = .ok c)
    (hTracks :
      run.Tracks (Action.openWith name c p) (notes name c p)
        now g)
    (hTwice : LostTwice g.letters) :
    ∃ token silent e,
      run = .here (Action.openWith name c p) token silent
        (.ready (.failed e)) := by
  cases hTracks with
  | here hStage =>
      cases hStage with
      | @ready g s hKnown =>
          cases s with
          | failed e => exact ⟨_, _, e, rfl⟩
          | done => exact absurd hTwice hKnown.2
          | stopped => exact absurd hTwice hKnown.2
          | _ =>
              exact absurd hTwice (Round.not_lostTwice hKnown)
      | @sending since g s here a options key next hSince hKnown
          hCall =>
          cases s with
          | opening b =>
              cases hCall
              obtain ⟨hOpens, -⟩ := opensApp_apdu hCommand
              obtain ⟨e, e', hTwo, hLost, -⟩ := hTwice
              have hSame :=
                (Round.opens_cons (e := (c.apdu, none)) hKnown
                  hOpens).symm.trans hTwo
              cases (List.cons.inj hSame).1
              cases hLost
          | _ => cases hCall
      | @waiting since ms g s here next hSince hKnown hCall =>
          cases s <;> cases hCall
  | @within k a n now since g g' token s here i next inner m
      hSince hKnown hCall hHolds hInner =>
      have hLaw := hInner.lawful hHolds
      cases s with
      | asking b =>
          cases hCall
          exact absurd hTwice
            ((Round.move hKnown).after hLaw).not_lostTwice
      | leaving b =>
          cases hCall
          exact absurd hTwice
            ((Round.move hKnown).after hLaw).not_lostTwice
      | _ => cases hCall

end OpenApp

------------------------------------------------------------
-- Apps Opened at Any Time
------------------------------------------------------------

/- Opening an app of a name is opening it by a command. -/
theorem Action.openApp_eq_ok
    {name : String}
    {p : Status.Patience}
    {a : Action (DashboardKind Unit)}
    (hAction : Action.openApp name p = .ok a) :
    ∃ c, Command.openApp name = .ok c ∧
      a = Action.openWith name c p := by
  unfold Action.openApp at hAction
  cases hCommand : Command.openApp name with
  | error e => rw [hCommand] at hAction; cases hAction
  | ok c =>
      rw [hCommand] at hAction
      exact ⟨c, rfl, (Except.ok.inj hAction).symm⟩

namespace Performance

variable {W K : Type}

section OpenApp

variable {x : Sender W K} {name : String}
variable {p : Status.Patience} {w : W}
variable {c : Command OpenAppError Unit}

theorem openApp_limits
    {cues : List (Cue W (DashboardKind Unit))}
    (hCommand : Command.openApp name = .ok c)
    (hInterval : 0 < p.interval)
    (hTimely : Cue.Timely cues) :
    ∃ g, OpenApp.Limited p 1 g ∧
      (noted (K := K) x (.openWith name c p) w cues).world.2 =
        g.letters := by
  have hHolds := OpenApp.holds_notes hCommand hInterval
  obtain ⟨g, hTracks⟩ := run_tracks x w hHolds hTimely
  refine ⟨g, ?_, hTracks.letters⟩
  rcases hTracks.lawful hHolds with hLaw | ⟨o, hPost⟩
  · exact ⟨hLaw.within.mono le_rfl (by omega) le_rfl,
      hLaw.retries⟩
  · exact hPost.1

/- No app is closed more often within an errand. -/
theorem openApp_errands
    {cues during : List (Cue W (DashboardKind Unit))}
    (hCommand : Command.openApp name = .ok c)
    (hInterval : 0 < p.interval)
    (hTimely : Cue.Timely (cues ++ during))
    (hWithin :
      ∀ early, early <+: during →
        (noted (K := K) x (.openWith name c p) w
          (cues ++ early)).RunsInner) :
    (noted x (.openWith name c p) w
        (cues ++ during)).world.2.closes ≤
      (noted x (.openWith name c p) w cues).world.2.closes +
        ToDashboard.maxCloses := by
  have hHolds := OpenApp.holds_notes hCommand hInterval
  have hErrands : ∀ i g,
      ((OpenApp.notes name c p).child i).law g →
      g.letters.closes ≤ ToDashboard.maxCloses := by
    rintro (_ | _) g hLaw
    · exact hLaw.within.closes.trans (Nat.zero_le _)
    · exact hLaw.within.closes
  obtain ⟨before, l, l', -, hBefore, hFew, hAfter⟩ :=
    inner_run x w (·.closes ≤ ToDashboard.maxCloses) hHolds
      hErrands hTimely hWithin
  rw [hBefore, hAfter, Correspondence.closes_append,
    Correspondence.closes_append]
  omega

/- The step after the second loss ends the action. -/
theorem next_of_lostTwice
    {now : Nat}
    {g : Outlay}
    {q : Performance (W × Correspondence) K (DashboardKind Unit)}
    (hCommand : Command.openApp name = .ok c)
    (hTracks :
      q.Tracks (Action.openWith name c p) (OpenApp.notes name c p)
        (OpenApp.contract p) now g)
    (hTwice : OpenApp.LostTwice q.world.2) :
    (q.next x.noted (.step now)).execution.run = none ∧
    (q.next x.noted (.step now)).world = q.world := by
  rw [hTracks.letters] at hTwice
  cases hTracks with
  | running hRun hOutcomes hLetters hTracks =>
      obtain ⟨token, silent, e, rfl⟩ :=
        OpenApp.failed_of_lostTwice hCommand hTracks hTwice
      simp only [next, Execution.step, Execution.tell, hRun,
        Run.tell, Run.stageStep, Run.act]
      cases q.execution.scene.tokens.isCancelled token <;>
        exact ⟨rfl, rfl⟩
  | ended hRun =>
      rw [next_step_of_ended x.noted hRun]
      exact ⟨hRun, rfl⟩

theorem openApp_lost
    {cues : List (Cue W (DashboardKind Unit))}
    {now : Nat}
    (hCommand : Command.openApp name = .ok c)
    (hInterval : 0 < p.interval)
    (hTimely : Cue.Timely (cues ++ [.step now]))
    (hTwice :
      OpenApp.LostTwice
        (noted (K := K) x (.openWith name c p) w cues).world.2) :
    let q :=
      noted (K := K) x (.openWith name c p) w
        (cues ++ [.step now])
    q.execution.run = none ∧
    q.world =
      (noted (K := K) x (.openWith name c p) w cues).world ∧
    ((∀ cue ∈ cues, cue.IsOwn) → .cancel ∉ q.effects →
      q.execution.latest =
        .error (.connection .disconnectedWhileSending)) := by
  intro q
  have hHolds := OpenApp.holds_notes hCommand hInterval
  obtain ⟨g, hTracks⟩ := run_tracks x w hHolds hTimely.init
  obtain ⟨hEnded, hSame⟩ :=
    next_of_lostTwice (x := x) hCommand
      (hTracks.later hHolds hTimely.clock_le_step) hTwice
  have hNext :
      q = (noted x (.openWith name c p) w cues).next x.noted
        (.step now) :=
    noted_concat ..
  rw [← hNext] at hEnded hSame
  refine ⟨hEnded, hSame, fun hOwn hUncancelled => ?_⟩
  obtain ⟨g', hTracks'⟩ :=
    run_tracks (K := K) x w hHolds hTimely
  cases hTracks' with
  | running hRun => cases hEnded.symm.trans hRun
  | @ended o _ hOutcomes hLetters hPost =>
      rw [← hSame, hLetters] at hTwice
      have hOwn' :
          ∀ cue ∈ cues ++ [.step now], cue.IsOwn := by
        simpa [or_imp, forall_and, Cue.IsOwn] using hOwn
      have hLoyal :=
        loyal_run (K := K) x w (Action.obeys_openWith p hCommand)
          hOwn'
      have hOutcome : o ∈ Effect.outcomes q.effects :=
        hOutcomes.symm ▸ List.mem_singleton_self o
      have hSettles :=
        (hLoyal.follows hUncancelled).ended o hOutcome
      have hLatest :=
        (latest_of_outcome x.noted _ _ _ hOutcomes).2
          hUncancelled
      rcases hPost.2 hTwice with rfl | rfl
      · exact hLatest
      · exact hSettles.elim

/- It ends, since the moves of both rounds are limited. -/
theorem openApp_ends
    {cues : Nat → Cue W (DashboardKind Unit)}
    (hCommand : Command.openApp name = .ok c)
    (hInterval : 0 < p.interval)
    (hFair :
      (start (K := K) (.openWith name c p) w).Fair x cues) :
    ∃ n,
      let q : Performance W K (DashboardKind Unit) :=
        (start (.openWith name c p) w).run x (Cue.upTo cues n)
      q.execution.run = none ∧
      q.execution.latest.isTerminal = true := by
  have hHolds := OpenApp.holds_notes hCommand hInterval
  exact hFair.ends hHolds fun g hLaw => hLaw.within.moves

end OpenApp

/-
  However an app is opened, and whatever is answered to that
  and whenever, as long as the time does not go back.  The
  number of commands is bounded, and so are those that close
  an app, of the whole action and of each one that it runs.
  The app is opened twice at most, the second time after the
  link was lost the first time.  If it is lost again then the
  action ends with this error, unless it was cancelled.  It
  does end if it is not left waiting.
-/
theorem openApp_bounded
    (x : Sender W K)
    {name : String}
    {p : Status.Patience}
    {a : Action (DashboardKind Unit)}
    (w : W)
    (hAction : Action.openApp name p = .ok a)
    (hInterval : 0 < p.interval) :
    (∀ cues, Cue.Timely cues →
      let q := noted x a w cues
      q.map Prod.fst = (start a w).run x cues ∧
      q.world.2.length ≤
        2 * (p.timeout ⌈/⌉ p.interval + 1) + 12 ∧
      q.world.2.closes ≤ 4 ∧
      OpenApp.Retries q.world.2) ∧
    (∀ cues during, Cue.Timely (cues ++ during) →
      (∀ early, early <+: during →
        (noted x a w (cues ++ early)).RunsInner) →
      (noted x a w (cues ++ during)).world.2.closes ≤
        (noted x a w cues).world.2.closes + 2) ∧
    (∀ cues now, Cue.Timely (cues ++ [.step now]) →
      OpenApp.LostTwice (noted x a w cues).world.2 →
      let q := noted x a w (cues ++ [.step now])
      q.execution.run = none ∧
      q.world = (noted x a w cues).world ∧
      ((∀ cue ∈ cues, cue.IsOwn) → .cancel ∉ q.effects →
        q.execution.latest =
          .error (.connection .disconnectedWhileSending))) ∧
    (∀ cues, (start (K := K) a w).Fair x cues →
      ∃ n,
        let q := (start a w).run x (Cue.upTo cues n)
        q.execution.run = none ∧
        q.execution.latest.isTerminal = true) := by
  obtain ⟨c, hCommand, rfl⟩ := Action.openApp_eq_ok hAction
  refine ⟨fun cues hTimely => ?_,
    fun cues during => openApp_errands hCommand hInterval,
    fun cues now => openApp_lost hCommand hInterval,
    fun cues => openApp_ends hCommand hInterval⟩
  obtain ⟨g, hLimited, hLetters⟩ :=
    openApp_limits (x := x) (w := w) hCommand hInterval hTimely
  refine ⟨run_noted x _ w cues, ?_⟩
  rw [hLetters]
  refine ⟨?_, hLimited.within.closes, hLimited.retries⟩
  have hCommands := hLimited.within.letters
  simp only [Status.questions] at hCommands
  omega

end Performance

------------------------------------------------------------
-- An App That Is Never Opened
------------------------------------------------------------

namespace Unlucky

/- A device on its dashboard. -/
def dashboard : Answer :=
  .ok {
    status := .success
    data := AppInfo.encode { name := "BOLOS", version := "2" } }

/-
  A sender that counts its answers: the device is on its
  dashboard, and then the link is lost, and so on.
-/
def sender : Sender Nat Unit where
  submit := fun _ _ _ n => ((), false, n)
  poll := fun _ _ n =>
    (some
      (if n % 2 = 0 then dashboard
      else .error .disconnectedWhileSending), false, n + 1)
  withdraw := fun _ n => n

def schedule : Nat → Cue Nat (DashboardKind Unit) :=
  .step

/- The action, with its correspondence, after some steps. -/
def after (n : Nat) :
    Performance (Nat × Correspondence) Unit
      (DashboardKind Unit) :=
  .noted sender Prompted.action 0 (Cue.upTo schedule n)

theorem times_schedule (n : Nat) :
    Cue.times (Cue.upTo schedule n) = List.range n := by
  simp [Cue.times, Cue.upTo, List.filterMap_map, schedule,
    Function.comp_def, Cue.time?]

theorem timely_schedule (n : Nat) :
    Cue.Timely (Cue.upTo schedule n) := by
  rw [Cue.Timely, times_schedule]
  exact List.pairwise_le_range

theorem fair_schedule :
    (Performance.start (K := Unit) Prompted.action 0).Fair sender
      schedule where
  timely := timely_schedule
  steps n t := ⟨max n t, le_max_left n t, max n t,
    le_max_right n t, rfl⟩
  answers n _ _ :=
    ⟨n, le_rfl, fun _ => ⟨n, rfl, by simp [sender]⟩⟩

/- Both times the link is lost, which is told in the end. -/
theorem opening_lost :
    Action.openApp "Bitcoin" {} = .ok Prompted.action ∧
    0 < ({} : Status.Patience).interval ∧
    (after 14).world.2.length = 4 ∧
    OpenApp.LostTwice (after 14).world.2 ∧
    OpenApp.Retries (after 14).world.2 ∧
    (∀ n, (after n).world.2.length ≤ 74) ∧
    (after 15).execution.run = none ∧
    (after 15).execution.latest =
      .error (.connection .disconnectedWhileSending) ∧
    ∃ n, (Performance.run sender
      (.start (K := Unit) Prompted.action 0)
      (Cue.upTo schedule n)).execution.run = none := by
  have hAction :
      Action.openApp "Bitcoin" {} = .ok Prompted.action := rfl
  have hInterval : 0 < ({} : Status.Patience).interval := by
    decide
  obtain ⟨hLimits, -, hLost, hEnds⟩ :=
    Performance.openApp_bounded sender 0 hAction hInterval
  have hTwice : OpenApp.LostTwice (after 14).world.2 :=
    ⟨(Prompted.command.apdu,
        some (.error .disconnectedWhileSending)),
      (Prompted.command.apdu,
        some (.error .disconnectedWhileSending)),
      rfl, rfl, rfl⟩
  have hOwn : ∀ cue ∈ Cue.upTo schedule 14, cue.IsOwn := by
    intro cue hCue
    obtain ⟨n, -, rfl⟩ := List.mem_map.mp hCue
    trivial
  have hUncancelled : .cancel ∉ (after 15).effects := by
    have hAll :
        ((after 15).effects.all fun
          | .cancel => false
          | _ => true) = true :=
      rfl
    intro hCancel
    cases List.all_eq_true.mp hAll _ hCancel
  obtain ⟨hEnded, -, hError⟩ :=
    hLost (Cue.upTo schedule 14) 14 (timely_schedule 15) hTwice
  obtain ⟨n, hNone, -⟩ := hEnds schedule fair_schedule
  exact ⟨hAction, hInterval, rfl, hTwice,
    (hLimits _ (timely_schedule 14)).2.2.2,
    fun n => (hLimits _ (timely_schedule n)).2.1, hEnded,
    hError hOwn hUncancelled, n, hNone⟩

end Unlucky

end DeviceSession
