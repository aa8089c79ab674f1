import DeviceSession.Action.OpenApp
import DeviceSession.Proofs.Action.Evidence

/-
  Opening an app on evidence.

  Opening an app, finding out which one is running, and going
  back to the dashboard are annotated in turn.  All that they
  do rests on the latest answer: apps are opened from the
  dashboard and closed otherwise, and an end is what that
  answer told.

  Key definitions include:
    * `Correspondence.Names`
    * `Correspondence.Explains`
    * `Correspondence.Opens`
    * `OpenApp.Permits`
    * `OpenApp.Rests`
    * `OpenApp.Ends`

  Main declarations:
    * `Action.obeys_status`
    * `Action.obeys_toDashboard`
    * `Action.obeys_openWith`
    * `Performance.openApp_evident`
-/

------------------------------------------------------------
-- Commands That Open Apps
------------------------------------------------------------

namespace DeviceSession

/- The head of a command that opens an app. -/
def Apdu.OpensApp (a : Apdu) : Prop :=
  a.cla = 0xe0 ∧ a.ins = 0xd8

/- The head of a command that closes an app. -/
def Apdu.ClosesApp (a : Apdu) : Prop :=
  a.cla = 0xb0 ∧ a.ins = 0xa7

/- What can be opened by a command, and what the command is. -/
theorem Command.openApp_eq_ok
    {name : String}
    {c : Command OpenAppError Unit}
    (hCommand : openApp name = .ok c) :
    ∃ hLength : (Text.utf8 name).length ≤ maxPayload,
      c.apdu = ⟨0xe0, 0xd8, 0, 0, Text.utf8 name, hLength⟩ ∧
      c.parse = expectSuccess OpenAppError.table := by
  simp only [openApp, Builder.add, Field.encode,
    Field.asciiBytes] at hCommand
  by_cases hAscii : Text.IsAscii name
  · simp only [hAscii, if_true, Builder.push] at hCommand
    split at hCommand
    · rename_i hLength
      have hFits : (Text.utf8 name).length ≤ maxPayload := by
        simpa [Builder.available, Builder.ofHeader,
          Apdu.ofHeader] using hLength
      cases hCommand
      exact ⟨hFits, rfl, rfl⟩
    · cases hCommand
  · simp only [hAscii, if_false] at hCommand
    cases hCommand

/- Only one status word is taken for success. -/
theorem expectSuccess_eq_ok
    {E : Type}
    {table : ErrorTable E}
    {r : Response}
    (hSuccess : expectSuccess table r = .ok ()) :
    r.status = .success := by
  unfold expectSuccess at hSuccess
  split at hSuccess
  · rename_i hStatus
    exact eq_of_beq hStatus
  · split at hSuccess <;> cases hSuccess

------------------------------------------------------------
-- What the Latest Answer Tells
------------------------------------------------------------

namespace Correspondence

/- The device was asked last which app runs: this one. -/
def Names (l : Correspondence) (app : AppInfo) : Prop :=
  ∃ answer earlier,
    l = (Command.getApp.apdu, some answer) :: earlier ∧
    Command.getApp.settle answer = .ok app

/- Why no app of a name is opened. -/
inductive Explains (name : String) :
    Correspondence → OsError → Prop where
  | asking
      {answer : Answer}
      {e : CommandError Empty}
      {l : Correspondence}
      (hFailed : Command.getApp.settle answer = .error e) :
      Explains name ((Command.getApp.apdu, some answer) :: l)
        (.ofCommand e)
  | closing
      {answer : Answer}
      {e : CommandError Empty}
      {l : Correspondence}
      (hFailed : Command.closeApp.settle answer = .error e) :
      Explains name ((Command.closeApp.apdu, some answer) :: l)
        (.ofCommand e)
  | opening
      {c : Command OpenAppError Unit}
      {answer : Answer}
      {e : CommandError OpenAppError}
      {l : Correspondence}
      (hCommand : Command.openApp name = .ok c)
      (hFailed : c.settle answer = .error e) :
      Explains name ((c.apdu, some answer) :: l) (.ofOpenApp e)
  | locked
      {answer : Answer}
      {l : Correspondence}
      (hLocked :
        Command.getApp.settle answer =
          .error (.unknownExchange Status.locked)) :
      Explains name ((Command.getApp.apdu, some answer) :: l)
        .deviceLocked
  | staying
      {app : AppInfo}
      {l : Correspondence}
      (hNames : l.Names app) :
      Explains name l (.stillInApp app.name)

/- Why an app of a name is taken to be open. -/
inductive Opens (name : String) : Correspondence → Prop where
  | running
      {app : AppInfo}
      {l : Correspondence}
      (hNames : l.Names app)
      (hName : app.name = name) :
      Opens name l
  | opened
      {a : Apdu}
      {r : Response}
      {l : Correspondence}
      (hOpens : a.OpensApp)
      (hSuccess : r.status.code = 0x9000) :
      Opens name ((a, some (.ok r)) :: l)

/- How an action ends, given when it may be done. -/
def Settles
    {O : Type}
    (name : String)
    (l : Correspondence)
    (done : O → Prop) : Outcome O OsError → Prop
  | .completed v => done v
  | .error e => l.Explains name e
  | .stopped => False

/- The device was asked last, and is on its dashboard. -/
def OnDashboard (l : Correspondence) : Prop :=
  ∃ app, l.Names app ∧ app.isDashboard = true

/- The device was asked last, and is in some app. -/
def InApp (l : Correspondence) : Prop :=
  ∃ app, l.Names app ∧ app.isDashboard = false

end Correspondence

------------------------------------------------------------
-- Finding Out Which App Runs
------------------------------------------------------------

section Status

variable {name : String}

/- What is known while the running app is found out. -/
def Status.known
    (name : String)
    (l : Correspondence) : Status.State → Prop
  | .done app => l.Names app
  | .failed e => l.Explains name e
  | _ => True

/- What the answer to a question tells, with the question. -/
theorem Status.known_asked
    (p : Status.Patience)
    (since : Option Nat)
    (l : Correspondence)
    (now : Nat)
    (answer : Answer) :
    known name ((Command.getApp.apdu, some answer) :: l)
      (asked p since now (Command.getApp.settle answer)) := by
  cases hSettle : Command.getApp.settle answer with
  | ok app => exact ⟨answer, l, rfl, hSettle⟩
  | error e =>
      cases e with
      | unknownExchange status =>
          simp only [asked]
          split
          · rename_i hLocked
            subst hLocked
            unfold foundLocked
            dsimp only
            split
            · exact .locked hSettle
            · trivial
          · exact .asking hSettle
      | device e => exact e.elim
      | invalidResponse e => exact .asking hSettle
      | connection e => exact .asking hSettle

/- Asking what runs ends with what the device said last. -/
theorem Action.obeys_status
    (p : Status.Patience)
    {law : Law (DashboardKind AppInfo)}
    (hAsk : ∀ l shown, law l shown Command.getApp.apdu) :
    (Action.status p).Obeys law
      fun l => l.Settles name l.Names := by
  refine .mk ⟨Status.known name, fun i => Empty.elim i⟩
    (fun _ => trivial) ?_ (fun i => Empty.elim i)
  intro now s l hKnown
  cases s with
  | asking since =>
      refine ⟨hAsk l _, fun _ => hAsk l _, ?_⟩
      exact Status.known_asked p since l
  | waiting since => exact fun _ => trivial
  | done app => exact hKnown
  | failed e => exact hKnown

end Status

------------------------------------------------------------
-- Going Back to the Dashboard
------------------------------------------------------------

section ToDashboard

variable {name : String}

/- What is known on the way to the dashboard. -/
def ToDashboard.known
    (name : String)
    (l : Correspondence) : ToDashboard.State → Prop
  | .asking _ => True
  | .running app _ => l.Names app
  | .closing _ => l.InApp
  | .done => l.OnDashboard
  | .failed e => l.Explains name e

/- The same on the way to the dashboard. -/
theorem ToDashboard.known_asked
    (closes : Nat)
    (l : Correspondence)
    (answer : Answer) :
    known name ((Command.getApp.apdu, some answer) :: l)
      (asked closes (Command.getApp.settle answer)) := by
  cases hSettle : Command.getApp.settle answer with
  | ok app => exact ⟨answer, l, rfl, hSettle⟩
  | error e => exact .asking hSettle

/- An app is asked to close, and may fail to. -/
theorem ToDashboard.known_closed
    (closes : Nat)
    (l : Correspondence)
    (answer : Answer) :
    known name ((Command.closeApp.apdu, some answer) :: l)
      (closed closes (Command.closeApp.settle answer)) := by
  cases hSettle : Command.closeApp.settle answer with
  | ok => trivial
  | error e => exact .closing hSettle

/- The app that has been named decides. -/
theorem ToDashboard.known_route
    {app : AppInfo}
    {l : Correspondence}
    (closes : Nat)
    (hNames : l.Names app) :
    known name l (route app closes) := by
  unfold route
  cases hDashboard : app.isDashboard with
  | true => exact ⟨app, hNames, hDashboard⟩
  | false =>
      simp only [Bool.false_eq_true, if_false]
      split
      · exact ⟨app, hNames, hDashboard⟩
      · exact .staying hNames

/- It ends on the dashboard, by the word of the device. -/
theorem Action.obeys_toDashboard
    {law : Law (DashboardKind Unit)}
    (hAsk : ∀ l shown, law l shown Command.getApp.apdu)
    (hLeave :
      ∀ l shown, l.InApp →
        law l shown Command.closeApp.apdu) :
    Action.toDashboard.Obeys law
      fun l => l.Settles name fun _ => l.OnDashboard := by
  refine .mk ⟨ToDashboard.known name, fun i => Empty.elim i⟩
    (fun _ => trivial) ?_ (fun i => Empty.elim i)
  intro now s l hKnown
  cases s with
  | asking n =>
      refine ⟨hAsk l _, fun _ => hAsk l _, ?_⟩
      exact fun _ => ToDashboard.known_asked n l
  | running app n => exact ToDashboard.known_route n hKnown
  | closing n =>
      refine ⟨hLeave l _ hKnown, fun _ => hLeave l _ hKnown, ?_⟩
      exact fun _ => ToDashboard.known_closed n l
  | done => exact hKnown
  | failed e => exact hKnown

end ToDashboard

------------------------------------------------------------
-- Opening an App
------------------------------------------------------------

namespace OpenApp

variable {name : String}

/-
  What the commands rest on while an app is opened.  Which
  app runs may be asked at any time.  An app is opened from
  the dashboard, when the user has just been told, and one
  is closed that is not the dashboard.
-/
inductive Permits (name : String) :
    Law (DashboardKind Unit) where
  | ask
      {l : Correspondence}
      {shown : Option Interaction} :
      Permits name l shown Command.getApp.apdu
  | leave
      {l : Correspondence}
      {shown : Option Interaction}
      (hInApp : l.InApp) :
      Permits name l shown Command.closeApp.apdu
  | enter
      {c : Command OpenAppError Unit}
      {l : Correspondence}
      (hCommand : Command.openApp name = .ok c)
      (hOnDashboard : l.OnDashboard) :
      Permits name l (some .confirmOpenApp) c.apdu

/- What is known while an app is opened. -/
def known (name : String) (l : Correspondence) : State → Prop
  | .running app _ => l.Names app
  | .opening _ => l.OnDashboard
  | .done => l.Opens name
  | .failed e => l.Explains name e
  | .stopped => False
  | _ => True

/- What the errands leave behind. -/
def after
    (name : String)
    (i : Errand)
    (l : Correspondence) :
    Outcome i.Output OsError → Prop :=
  l.Settles name (match i with
    | .status => l.Names
    | .toDashboard => fun _ => l.OnDashboard)

/- The status is known by what asking for it has left. -/
theorem known_asked
    {l : Correspondence}
    {o : Outcome AppInfo OsError}
    (again : Bool)
    (hAfter : after name .status l o) :
    known name l (asked again o) := by
  cases o with
  | completed app => exact hAfter
  | error e => exact hAfter
  | stopped => exact hAfter

/- So is whether the dashboard has been reached. -/
theorem known_left
    {l : Correspondence}
    {o : Outcome Unit OsError}
    (again : Bool)
    (hAfter : after name .toDashboard l o) :
    known name l (left again o) := by
  cases o with
  | completed => exact hAfter
  | error e => exact hAfter
  | stopped => exact hAfter

/- What to do next follows from the app that is named. -/
theorem known_route
    {app : AppInfo}
    {l : Correspondence}
    (again : Bool)
    (hNames : l.Names app) :
    known name l (route name app again) := by
  unfold route
  split
  · rename_i hName
    exact .running hNames hName
  · split
    · rename_i hDashboard
      exact ⟨app, hNames, hDashboard⟩
    · trivial

/- An app is opened, or there is a reason why not. -/
theorem known_opened
    {c : Command OpenAppError Unit}
    (again : Bool)
    (l : Correspondence)
    (answer : Answer)
    (hCommand : Command.openApp name = .ok c) :
    known name ((c.apdu, some answer) :: l)
      (opened again (c.settle answer)) := by
  cases hSettle : c.settle answer with
  | ok =>
      obtain ⟨hLength, hApdu, hParse⟩ :=
        Command.openApp_eq_ok hCommand
      cases answer with
      | ok r =>
          have hSuccess : r.status = .success := by
            apply expectSuccess_eq_ok
            rw [← hParse]
            exact hSettle
          refine .opened ?_ (by rw [hSuccess]; rfl)
          rw [hApdu]
          exact ⟨rfl, rfl⟩
      | error e => cases hSettle
  | error e =>
      simp only [opened]
      split
      · trivial
      · exact .opening hCommand hSettle

end OpenApp

/- Every command on the way has its reason. -/
theorem Action.obeys_openWith
    {name : String}
    {c : Command OpenAppError Unit}
    (p : Status.Patience)
    (hCommand : Command.openApp name = .ok c) :
    (Action.openWith name c p).Obeys (OpenApp.Permits name)
      fun l => l.Settles name fun _ => l.Opens name := by
  refine .mk ⟨OpenApp.known name, OpenApp.after name⟩
    (fun _ => trivial) ?_ ?_
  · intro now s l hKnown
    cases s with
    | asking b => exact fun l' o _ => OpenApp.known_asked b
    | running app b => exact OpenApp.known_route b hKnown
    | leaving b => exact fun l' o _ => OpenApp.known_left b
    | opening b =>
        refine ⟨.enter hCommand hKnown, fun hStart => ?_, ?_⟩
        · cases hStart
        · intro _ answer
          exact OpenApp.known_opened b l answer hCommand
    | done => exact hKnown
    | failed e => exact hKnown
    | stopped => exact hKnown
  · intro i
    cases i with
    | status => exact obeys_status p fun _ _ => .ask
    | toDashboard =>
        exact obeys_toDashboard (fun _ _ => .ask)
          fun _ _ hInApp => .leave hInApp

------------------------------------------------------------
-- Evidence
------------------------------------------------------------

namespace OpenApp

/-
  What a command rests on that is handed in after a
  correspondence, with the latest state shown.
-/
structure Rests
    (name : String)
    (l : Correspondence)
    (latest : (DashboardKind Unit).State)
    (a : Apdu) : Prop where
  opens :
    a.OpensApp →
      a.p1 = 0 ∧ a.p2 = 0 ∧
      a.data = Text.utf8 name ∧
      l.OnDashboard ∧
      latest = .pending .confirmOpenApp
  closes : a.ClosesApp → l.InApp
  others :
    ¬ a.OpensApp → ¬ a.ClosesApp → a = Command.getApp.apdu

/- What the end of opening an app rests on. -/
def Ends
    (name : String)
    (l : Correspondence) : (DashboardKind Unit).State → Prop
  | .completed _ => l.Opens name
  | .error e => l.Explains name e
  | .stopped => False
  | _ => True

/- A command that is permitted rests on what was shown. -/
theorem Permits.rests
    {name : String}
    {l : Correspondence}
    {shown : Option Interaction}
    {a : Apdu}
    {latest : (DashboardKind Unit).State}
    (hPermits : Permits name l shown a)
    (hLatest : ∀ i, shown = some i → latest = .pending i) :
    Rests name l latest a := by
  cases hPermits with
  | ask =>
      refine ⟨fun hOpens => ?_, fun hCloses => ?_, fun _ _ => rfl⟩
      · exact absurd hOpens.1 (by decide)
      · exact absurd hCloses.2 (by decide)
  | leave hInApp =>
      refine ⟨fun hOpens => ?_, fun _ => hInApp, ?_⟩
      · exact absurd hOpens.1 (by decide)
      · exact fun _ hOther => absurd ⟨rfl, rfl⟩ hOther
  | enter hCommand hOnDashboard =>
      obtain ⟨hLength, hApdu, -⟩ := Command.openApp_eq_ok hCommand
      rw [hApdu]
      refine ⟨fun _ => ?_, fun hCloses => ?_, ?_⟩
      · exact ⟨rfl, rfl, rfl, hOnDashboard, hLatest _ rfl⟩
      · exact absurd hCloses.1 (by simp)
      · exact fun hOther => absurd ⟨rfl, rfl⟩ hOther

end OpenApp

/-
  However an app is opened, whatever is answered to that, and
  whenever: as long as nobody cancels, at most one command is
  handed in at a time, which rests on the latest answer, and
  an end does so as well.  The action goes the same way without
  the correspondence.
-/
theorem Performance.openApp_evident
    {W K : Type}
    (x : Sender W K)
    {name : String}
    {p : Status.Patience}
    {a : Action (DashboardKind Unit)}
    (w : W)
    (cues : List (Cue W (DashboardKind Unit)))
    (cue : Cue W (DashboardKind Unit))
    (hAction : Action.openApp name p = .ok a)
    (hOwn : ∀ cue ∈ cues, cue.IsOwn) :
    let q :=
      (start (K := K) a (w, [])).run x.noted
        (cues.map Cue.noted)
    let q' := q.next x.noted cue.noted
    q.map Prod.fst = (start a w).run x cues ∧
    (.cancel ∉ q.effects →
      OpenApp.Ends name q.world.2 q.execution.latest) ∧
    (.cancel ∉ q'.effects →
      q'.world.2.length ≠ q.world.2.length →
      ∃ apdu,
        q'.world.2 = (apdu, none) :: q.world.2 ∧
        OpenApp.Rests name q.world.2 q'.execution.latest
          apdu) := by
  intro q q'
  obtain ⟨c, hCommand, rfl⟩ :
      ∃ c, Command.openApp name = .ok c ∧
        Action.openWith name c p = a := by
    unfold Action.openApp at hAction
    cases hCommand : Command.openApp name with
    | error e => rw [hCommand] at hAction; cases hAction
    | ok c =>
        rw [hCommand] at hAction
        exact ⟨c, rfl, Except.ok.inj hAction⟩
  have hObeys := Action.obeys_openWith p hCommand
  refine ⟨run_noted x _ w cues, ?ends, ?rests⟩
  case ends =>
    intro hUncancelled
    rcases latest_lawful x w hObeys hOwn hUncancelled with
      ⟨i, hPending⟩ | ⟨o, hSettles, hLatest⟩
    · rw [hPending]
      trivial
    · rw [hLatest]
      cases o with
      | completed => exact hSettles
      | error e => exact hSettles
      | stopped => exact hSettles
  case rests =>
    intro hUncancelled hLonger
    rcases sent_lawful x w hObeys hOwn hUncancelled with
      hSame | ⟨apdu, shown, hSent, hPermits, hLatest⟩
    · exact absurd hSame hLonger
    · exact ⟨apdu, hSent, hPermits.rests hLatest⟩


------------------------------------------------------------
-- An App That Is Opened from the Dashboard
------------------------------------------------------------

namespace Prompted

/- A sender that gives the answers of a list in turn. -/
def sender : Sender (List Answer) Unit where
  submit := fun _ _ _ answers => ((), false, answers)
  poll := fun _ _ answers =>
    (answers.head?, false, answers.tail)
  withdraw := fun _ answers => answers

/- The dashboard is running, and the app is opened. -/
def answers : List Answer :=
  [ .ok {
      status := .success
      data := AppInfo.encode { name := "BOLOS", version := "2" } },
    .ok .success ]

def command : Command OpenAppError Unit where
  apdu := ⟨0xe0, 0xd8, 0, 0, Text.utf8 "Bitcoin", by decide⟩
  restartsLink := true
  parse := expectSuccess OpenAppError.table

def action : Action (DashboardKind Unit) :=
  .openWith "Bitcoin" command {}

def steps (n : Nat) :
    List (Cue (List Answer) (DashboardKind Unit)) :=
  List.replicate n (.step 0)

/- The action, with its correspondence, after some steps. -/
def after (n : Nat) :
    Performance (List Answer × Correspondence) Unit
      (DashboardKind Unit) :=
  (Performance.start action (answers, [])).run
    sender.noted ((steps n).map Cue.noted)

/- To go on is a cue of the performance itself. -/
theorem isOwn_steps (n : Nat) : ∀ cue ∈ steps n, cue.IsOwn := by
  intro cue hCue
  obtain rfl := List.eq_of_mem_replicate hCue
  trivial

/- What the action does until the app is opened. -/
def opening : List (Effect (DashboardKind Unit)) :=
  [ .enter 0, .enter 1,
    .send Command.getApp.apdu Command.getApp.options,
    .route 1, .enter 1, .route 0, .enter 0, .enter 0,
    .report .confirmOpenApp,
    .send command.apdu command.options ]

/- The user is told when the app is opened, and it is. -/
theorem opening_prompted :
    Action.openApp "Bitcoin" {} = .ok action ∧
    (∀ n, ∀ cue ∈ steps n, cue.IsOwn) ∧
    (after 6).effects = opening ∧
    (after 8).effects =
      opening ++ [.route 0, .enter 0, .resolve (.completed ())] ∧
    (after 6).world.2 =
      (command.apdu, none) :: (after 5).world.2 ∧
    OpenApp.Rests "Bitcoin" (after 5).world.2
      (after 6).execution.latest command.apdu ∧
    (after 8).execution.latest = .completed () ∧
    (after 8).world.2.Opens "Bitcoin" := by
  have hAction : Action.openApp "Bitcoin" {} = .ok action := rfl
  have hOpening : (after 6).effects = opening := rfl
  have hOpened :
      (after 8).effects =
        opening ++ [.route 0, .enter 0, .resolve (.completed ())] :=
    rfl
  have hSent :
      (after 6).world.2 =
        (command.apdu, none) :: (after 5).world.2 :=
    rfl
  have hCompleted :
      (after 8).execution.latest = .completed () :=
    rfl
  have hSixth :
      .cancel ∉ (after 6).effects →
      (after 6).world.2.length ≠ (after 5).world.2.length →
      ∃ apdu,
        (after 6).world.2 = (apdu, none) :: (after 5).world.2 ∧
        OpenApp.Rests "Bitcoin" (after 5).world.2
          (after 6).execution.latest apdu :=
    (Performance.openApp_evident sender answers (steps 5)
      (.step 0) hAction (isOwn_steps 5)).2.2
  have hEighth :
      .cancel ∉ (after 8).effects →
      OpenApp.Ends "Bitcoin" (after 8).world.2
        (after 8).execution.latest :=
    (Performance.openApp_evident sender answers (steps 8)
      (.step 0) hAction (isOwn_steps 8)).2.1
  rw [hOpening, hSent] at hSixth
  rw [hOpened, hCompleted] at hEighth
  obtain ⟨apdu, hNew, hRests⟩ :=
    hSixth (by simp [opening]) (by simp)
  obtain rfl : command.apdu = apdu :=
    congrArg Prod.fst (List.cons.inj hNew).1
  have hOpens : (after 8).world.2.Opens "Bitcoin" :=
    hEighth (by simp [opening])
  exact ⟨hAction, isOwn_steps, hOpening, hOpened, hSent, hRests,
    hCompleted, hOpens⟩

end Prompted

end DeviceSession
