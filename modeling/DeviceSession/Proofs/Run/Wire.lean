import DeviceSession.Proofs.Run.Story
import Mathlib.Data.List.Forall2

/-
  The discipline of the wire, as rules for logs.

  The links of a connection are used one after another, and
  each in the same way: it is set up, then exchanges take
  turns on it, and it is given up for good.  The rules say
  which note may come next; a trace is a log that keeps to
  them.  Whatever is true of every trace is then a matter of
  the rules alone, not of the driver.

  Key definitions include:
    * `Usage`
    * `Wire.Step`
    * `Wire.Trace`
    * `Wire.Layout`
    * `Wire.Lawful`

  Main declarations:
    * `Wire.Trace.layout`
    * `Wire.Trace.lawful`
    * `Wire.Trace.served_sublist`
-/

------------------------------------------------------------
-- Links and Their Use
------------------------------------------------------------

namespace DeviceSession

/- What is written to a fresh link before any command. -/
def Handshake.greeting : Handshake → List (List UInt8)
  | .fixed _ => []
  | .negotiate => [Mtu.request]

/- The command that a link is used for. -/
def Purpose.apdu? : Purpose → Option Apdu
  | .watch => none
  | .setup => none
  | .request r => some r.apdu
  | .check => some Command.getApp.apdu

/- The request that a link is used for. -/
def Purpose.request? : Purpose → Option Request
  | .request r => some r
  | _ => none

/- How the latest link is being used. -/
inductive Usage where
  /- It has been given up, or none was opened yet. -/
  | off
  | setup (written : List (List UInt8))
  | ready (s : Slicer)
  /- A request is about to go on the link. -/
  | due (s : Slicer) (r : Request)
  /- Some frames of an exchange are still to be written. -/
  | busy (s : Slicer) (why : Purpose) (todo : List (List UInt8))
  /- The link was given up in the middle of an exchange. -/
  | cut (why : Purpose)

/- All links that were opened: only the latest is in use. -/
structure Wire where
  opened : Nat := 0
  usage : Usage := .off

namespace Wire

variable {A : Type}

/- Which note may come next, and what the wire is then. -/
inductive Step (p : Profile) (h : Handshake) :
    Wire → Note A → Wire → Prop where
  | accepted (w : Wire) (r : Request) :
      Step p h w (.accepted r) w
  | outside (w : Wire) (a : A) :
      Step p h w (.outside a) w
  | heard (w : Wire) (n : Nat) (why : Purpose)
      (event : LinkNotice) :
      Step p h w (.heard n why event) w
  | drained (n : Nat) (r : Request) (gone : Bool) :
      Step p h ⟨n, .off⟩ (.took r gone) ⟨n, .off⟩
  | skipped (n : Nat) (s : Slicer) (r : Request) :
      Step p h ⟨n, .ready s⟩ (.took r true) ⟨n, .ready s⟩
  | taken (n : Nat) (s : Slicer) (r : Request) :
      Step p h ⟨n, .ready s⟩ (.took r false) ⟨n, .due s r⟩
  | opened (n : Nat) :
      Step p h ⟨n, .off⟩ (.opened (n + 1)) ⟨n + 1, .setup []⟩
  | asked (n : Nat) (hAsks : h = .negotiate) :
      Step p h ⟨n, .setup []⟩
        (.wrote n .setup Mtu.request (some (.ok ())))
        ⟨n, .setup [Mtu.request]⟩
  | askedInVain
      (n : Nat)
      (hAsks : h = .negotiate)
      {answer : Option (Except LinkError Unit)}
      (hVain : answer ≠ some (.ok ())) :
      Step p h ⟨n, .setup []⟩
        (.wrote n .setup Mtu.request answer) ⟨n, .setup []⟩
  | ready (n : Nat) {s : Slicer} (hProfile : s.profile = p) :
      Step p h ⟨n, .setup h.greeting⟩ (.ready n s)
        ⟨n, .ready s⟩
  | began (n : Nat) (s : Slicer) (r : Request) :
      Step p h ⟨n, .due s r⟩
        (.began n (.request r) (s.command r.apdu).toList)
        ⟨n, .busy s (.request r) (s.command r.apdu).toList⟩
  | beganCheck (n : Nat) (s : Slicer) :
      Step p h ⟨n, .ready s⟩
        (.began n .check
          (s.command Command.getApp.apdu).toList)
        ⟨n, .busy s .check
          (s.command Command.getApp.apdu).toList⟩
  | wrote (n : Nat) (s : Slicer) (why : Purpose)
      (frame : List UInt8) (todo : List (List UInt8)) :
      Step p h ⟨n, .busy s why (frame :: todo)⟩
        (.wrote n why frame (some (.ok ())))
        ⟨n, .busy s why todo⟩
  | wroteInVain
      (n : Nat)
      (s : Slicer)
      (why : Purpose)
      (frame : List UInt8)
      (todo : List (List UInt8))
      {answer : Option (Except LinkError Unit)}
      (hVain : answer ≠ some (.ok ())) :
      Step p h ⟨n, .busy s why (frame :: todo)⟩
        (.wrote n why frame answer)
        ⟨n, .busy s why (frame :: todo)⟩
  | answered (n : Nat) (s : Slicer) (why : Purpose)
      (x : Response) :
      Step p h ⟨n, .busy s why []⟩
        (.ended n why (some (.ok x))) ⟨n, .ready s⟩
  | shut (n : Nat) (written : List (List UInt8)) :
      Step p h ⟨n, .setup written⟩ (.shut n) ⟨n, .off⟩
  | shutReady (n : Nat) (s : Slicer) :
      Step p h ⟨n, .ready s⟩ (.shut n) ⟨n, .off⟩
  | shutBusy (n : Nat) (s : Slicer) (why : Purpose)
      (todo : List (List UInt8)) :
      Step p h ⟨n, .busy s why todo⟩ (.shut n) ⟨n, .cut why⟩
  | broken
      (n : Nat)
      (why : Purpose)
      {result : Option (Except ExchangeError Response)}
      (hBroken : ∀ x, result ≠ some (.ok x)) :
      Step p h ⟨n, .cut why⟩ (.ended n why result) ⟨n, .off⟩

/- A log that keeps to the rules, and the wire after it. -/
inductive Trace (p : Profile) (h : Handshake) :
    List (Note A) → Wire → Prop where
  | nil : Trace p h [] {}
  | concat
      {log : List (Note A)}
      {w w' : Wire}
      {note : Note A}
      (hTrace : Trace p h log w)
      (hStep : Step p h w note w') :
      Trace p h (log ++ [note]) w'

end Wire

------------------------------------------------------------
-- What a Log Tells
------------------------------------------------------------

namespace Note

variable {A : Type}

/- The frame that was written to a link. -/
def sent? (n : Nat) : Note A → Option (List UInt8)
  | .wrote m _ frame (some (.ok _)) =>
      if m = n then some frame else none
  | _ => none

/- The exchange that begins on a link, with its frames. -/
def begun? (n : Nat) :
    Note A → Option (Purpose × List (List UInt8))
  | .began m why plan =>
      if m = n then some (why, plan) else none
  | _ => none

/- The exchange that ends on a link, with its result. -/
def ended? (n : Nat) :
    Note A →
      Option (Purpose ×
        Option (Except ExchangeError Response))
  | .ended m why result =>
      if m = n then some (why, result) else none
  | _ => none

/- The request that goes on a link. -/
def served? : Note A → Option Request
  | .began _ (.request r) _ => some r
  | _ => none

/- The request that leaves the queue for its caller. -/
def heeded? : Note A → Option Request
  | .took r false => some r
  | _ => none

/- The request for which a write is tried. -/
def tried? : Note A → Option (Nat × Request)
  | .wrote n (.request r) _ _ => some (n, r)
  | _ => none

end Note

namespace Wire

variable {A : Type}

/- The frames written to a link, oldest first. -/
def sent (n : Nat) (log : List (Note A)) :
    List (List UInt8) :=
  log.filterMap (Note.sent? n)

/- The exchanges begun on a link, oldest first. -/
def begun (n : Nat) (log : List (Note A)) :
    List (Purpose × List (List UInt8)) :=
  log.filterMap (Note.begun? n)

/- The exchanges ended on a link, oldest first. -/
def ended (n : Nat) (log : List (Note A)) :
    List (Purpose ×
      Option (Except ExchangeError Response)) :=
  log.filterMap (Note.ended? n)

/- The requests that have gone on some link. -/
def served (log : List (Note A)) : List Request :=
  log.filterMap Note.served?

/- The requests taken from the queue to be served. -/
def heeded (log : List (Note A)) : List Request :=
  log.filterMap Note.heeded?

/- The writes tried for requests, with the links. -/
def tried (log : List (Note A)) : List (Nat × Request) :=
  log.filterMap Note.tried?

/- The exchange that is under way after a note. -/
def pass (now : Option (Nat × Purpose)) :
    Note A → Option (Nat × Purpose)
  | .began n why _ => some (n, why)
  | .ended _ _ _ => none
  | _ => now

/- The exchange that is under way at the end of a log. -/
def underWay (log : List (Note A)) : Option (Nat × Purpose) :=
  log.foldl pass none

section Concat

variable (n : Nat) (log : List (Note A)) (note : Note A)

/- What a log tells, with one more note. -/
@[simp] theorem sent_concat :
    sent n (log ++ [note]) =
      sent n log ++ (note.sent? n).toList := by
  simp only [sent, List.filterMap_append]
  cases h : note.sent? n <;> simp [h]

@[simp] theorem begun_concat :
    begun n (log ++ [note]) =
      begun n log ++ (note.begun? n).toList := by
  simp only [begun, List.filterMap_append]
  cases h : note.begun? n <;> simp [h]

@[simp] theorem ended_concat :
    ended n (log ++ [note]) =
      ended n log ++ (note.ended? n).toList := by
  simp only [ended, List.filterMap_append]
  cases h : note.ended? n <;> simp [h]

@[simp] theorem served_concat :
    served (log ++ [note]) =
      served log ++ note.served?.toList := by
  simp only [served, List.filterMap_append]
  cases h : note.served? <;> simp [h]

@[simp] theorem heeded_concat :
    heeded (log ++ [note]) =
      heeded log ++ note.heeded?.toList := by
  simp only [heeded, List.filterMap_append]
  cases h : note.heeded? <;> simp [h]

@[simp] theorem tried_concat :
    tried (log ++ [note]) =
      tried log ++ note.tried?.toList := by
  simp only [tried, List.filterMap_append]
  cases h : note.tried? <;> simp [h]

@[simp] theorem underWay_concat :
    underWay (log ++ [note]) = pass (underWay log) note := by
  simp [underWay]

end Concat

------------------------------------------------------------
-- What Every Trace Keeps
------------------------------------------------------------

/- One block of written frames for each exchange. -/
def Blocks (blocks : List (List (List UInt8)))
    (begun : List (Purpose × List (List UInt8))) : Prop :=
  List.Forall₂ (fun block x => block <+: x.2) blocks begun

/- The frames of each exchange are those of its command. -/
def Planned (s : Slicer)
    (begun : List (Purpose × List (List UInt8))) : Prop :=
  ∀ x ∈ begun, ∃ a, x.1.apdu? = some a ∧
    x.2 = (s.command a).toList

/- Each exchange has been answered in full. -/
def Answered (begun : List (Purpose × List (List UInt8)))
    (ended :
      List (Purpose ×
        Option (Except ExchangeError Response))) : Prop :=
  List.Forall₂
    (fun x y => y.1 = x.1 ∧ ∃ r, y.2 = some (.ok r))
    begun ended

/-
  What is written to a link: the greeting, then a block for
  each exchange, in order, and each block the first frames
  of its command.
-/
def Layout
    (p : Profile)
    (h : Handshake)
    (n : Nat)
    (log : List (Note A)) : Prop :=
  ∃ greeting blocks,
    ∃ s : Slicer,
      s.profile = p ∧
        (greeting = h.greeting ∨
          greeting = [] ∧ begun n log = []) ∧
        sent n log = greeting ++ blocks.flatten ∧
        Blocks blocks (begun n log) ∧
        Planned s (begun n log)

/- How the link in use stands to what the log tells of it. -/
def Stands
    (p : Profile)
    (h : Handshake)
    (n : Nat)
    (log : List (Note A)) : Usage → Prop
  | .off => True
  | .setup written =>
      sent n log = written ∧ begun n log = [] ∧
        ended n log = [] ∧
        (written = [] ∨ written = h.greeting)
  | .ready s =>
      s.profile = p ∧
        ∃ blocks,
          sent n log = h.greeting ++ blocks.flatten ∧
            Blocks blocks (begun n log) ∧
            Planned s (begun n log) ∧
            Answered (begun n log) (ended n log)
  | .due s _ =>
      s.profile = p ∧
        ∃ blocks,
          sent n log = h.greeting ++ blocks.flatten ∧
            Blocks blocks (begun n log) ∧
            Planned s (begun n log) ∧
            Answered (begun n log) (ended n log)
  | .busy s why todo =>
      s.profile = p ∧
        ∃ earlier block blocks,
          begun n log = earlier ++ [(why, block ++ todo)] ∧
            sent n log =
              h.greeting ++ (blocks.flatten ++ block) ∧
            Blocks blocks earlier ∧
            Planned s (begun n log) ∧
            Answered earlier (ended n log)
  | .cut why =>
      ∃ earlier plan,
        begun n log = earlier ++ [(why, plan)] ∧
          Answered earlier (ended n log)

/- Links that are still to be opened have no history. -/
def Fresh (n : Nat) (log : List (Note A)) : Prop :=
  sent n log = [] ∧ begun n log = [] ∧ ended n log = []

/- The exchange under way, by how the wire is used. -/
def current (w : Wire) : Option (Nat × Purpose) :=
  match w.usage with
  | .busy _ why _ => some (w.opened, why)
  | .cut why => some (w.opened, why)
  | _ => none

section Steps

variable {p : Profile} {h : Handshake}
variable {w w' : Wire} {note : Note A} {log : List (Note A)}

/- A link to come has no history. -/
theorem Step.fresh
    (hStep : Step p h w note w')
    (hFresh : ∀ n, w.opened < n → Fresh n log) :
    ∀ n, w'.opened < n → Fresh n (log ++ [note]) := by
  intro n hn
  have hOpened : w.opened ≤ w'.opened := by
    cases hStep <;> simp
  have hOld := hFresh n (Nat.lt_of_le_of_lt hOpened hn)
  unfold Fresh at hOld ⊢
  have hOther : w'.opened ≠ n := Nat.ne_of_lt hn
  cases hStep
  all_goals
    simp_all [Note.sent?, Note.begun?, Note.ended?]

/- The exchange under way is the one of the usage. -/
theorem Step.underWay
    (hStep : Step p h w note w')
    (hNow : Wire.underWay log = w.current) :
    Wire.underWay (log ++ [note]) = w'.current := by
  rw [underWay_concat, hNow]
  cases hStep <;> rfl

/- Notes about other links leave the layout of a link. -/
theorem Layout.concat
    {n : Nat}
    (hLayout : Layout p h n log)
    (hSent : note.sent? n = none)
    (hBegun : note.begun? n = none) :
    Layout p h n (log ++ [note]) := by
  unfold Layout at hLayout ⊢
  simp only [sent_concat, begun_concat, hSent, hBegun,
    Option.toList, List.append_nil]
  exact hLayout

/- A link in use has been written to in whole exchanges. -/
theorem Stands.layout
    {n : Nat}
    {u : Usage}
    (hStands : Stands p h n log u)
    (hUsed : u ≠ .off)
    (hWhole : ∀ why, u ≠ .cut why) :
    Layout p h n log := by
  cases u with
  | off => exact absurd rfl hUsed
  | cut why => exact absurd rfl (hWhole why)
  | setup written =>
      rcases hStands with ⟨hSent, hBegun, -, hGreeting⟩
      refine ⟨written, [], ⟨p, p.leastMtu, Nat.le_refl _⟩,
        rfl, ?_, ?_, ?_, ?_⟩
      · rcases hGreeting with hGreeting | hGreeting
        · exact .inr ⟨hGreeting, hBegun⟩
        · exact .inl hGreeting
      · rw [hSent]
        simp
      · rw [hBegun]
        exact .nil
      · rw [hBegun]
        intro x hx
        cases hx
  | ready s =>
      rcases hStands with
        ⟨hProfile, blocks, hSent, hBlocks, hPlan, -⟩
      exact ⟨_, blocks, s, hProfile, .inl rfl, hSent, hBlocks,
        hPlan⟩
  | due s r =>
      rcases hStands with
        ⟨hProfile, blocks, hSent, hBlocks, hPlan, -⟩
      exact ⟨_, blocks, s, hProfile, .inl rfl, hSent, hBlocks,
        hPlan⟩
  | busy s why todo =>
      rcases hStands with
        ⟨hProfile, earlier, block, blocks, hBegun, hSent,
          hBlocks, hPlan, -⟩
      refine ⟨_, blocks ++ [block], s, hProfile, .inl rfl, ?_,
        ?_, hPlan⟩
      · rw [hSent]
        simp
      · rw [hBegun]
        apply List.rel_append hBlocks
        exact .cons ⟨todo, rfl⟩ .nil

/- Notes about other things leave the link as it stands. -/
theorem Stands.concat
    {n : Nat}
    {u : Usage}
    (hStands : Stands p h n log u)
    (hSent : note.sent? n = none)
    (hBegun : note.begun? n = none)
    (hEnded : note.ended? n = none) :
    Stands p h n (log ++ [note]) u := by
  cases u with
  | off => trivial
  | _ =>
      unfold Stands at hStands ⊢
      simp only [sent_concat, begun_concat, ended_concat,
        hSent, hBegun, hEnded, Option.toList, List.append_nil]
      exact hStands

/- A write that fails sends nothing. -/
theorem sent?_of_vain
    (n m : Nat)
    (why : Purpose)
    (frame : List UInt8)
    {answer : Option (Except LinkError Unit)}
    (hVain : answer ≠ some (.ok ())) :
    (Note.wrote (A := A) m why frame answer).sent? n =
      none := by
  rcases answer with - | (e | u)
  · rfl
  · rfl
  · exact absurd rfl hVain

/- An exchange begins: no frame of it is written yet. -/
theorem Stands.began
    {n : Nat}
    {s : Slicer}
    {why : Purpose}
    {a : Apdu}
    (hStands : Stands p h n log (.ready s))
    (hAbout : why.apdu? = some a) :
    Stands p h n
      (log ++ [.began n why (s.command a).toList])
      (.busy s why (s.command a).toList) := by
  rcases hStands with
    ⟨hProfile, blocks, hSent, hBlocks, hPlan, hAnswered⟩
  refine ⟨hProfile, begun n log, [], blocks, ?_, ?_, hBlocks,
    ?_, ?_⟩
  · simp [Note.begun?]
  · simpa [Note.sent?] using hSent
  · intro x hx
    simp only [begun_concat, Note.begun?, if_pos,
      Option.toList] at hx
    rcases List.mem_append.mp hx with hx | hx
    · exact hPlan x hx
    · rw [List.mem_singleton.mp hx]
      exact ⟨a, hAbout, rfl⟩
  · simpa [Note.ended?] using hAnswered

/- A frame of an exchange is written: the block grows. -/
theorem Stands.wrote
    {n : Nat}
    {s : Slicer}
    {why : Purpose}
    {frame : List UInt8}
    {todo : List (List UInt8)}
    (hStands : Stands p h n log (.busy s why (frame :: todo))) :
    Stands p h n
      (log ++ [.wrote n why frame (some (.ok ()))])
      (.busy s why todo) := by
  rcases hStands with
    ⟨hProfile, earlier, block, blocks, hBegun, hSent,
      hBlocks, hPlan, hAnswered⟩
  refine ⟨hProfile, earlier, block ++ [frame], blocks, ?_, ?_,
    hBlocks, ?_, ?_⟩
  · simpa [Note.begun?] using hBegun
  · simp [Note.sent?, hSent]
  · simpa [Note.begun?] using hPlan
  · simpa [Note.ended?] using hAnswered

/- An exchange is answered, with all its frames written. -/
theorem Stands.answered
    {n : Nat}
    {s : Slicer}
    {why : Purpose}
    (hStands : Stands p h n log (.busy s why []))
    (x : Response) :
    Stands p h n
      (log ++ [.ended n why (some (.ok x))]) (.ready s) := by
  rcases hStands with
    ⟨hProfile, earlier, block, blocks, hBegun, hSent,
      hBlocks, hPlan, hAnswered⟩
  rw [List.append_nil] at hBegun
  refine ⟨hProfile, blocks ++ [block], ?_, ?_, ?_, ?_⟩
  · simp [Note.sent?, hSent]
  · simp only [begun_concat, Note.begun?, Option.toList,
      List.append_nil]
    rw [hBegun]
    apply List.rel_append hBlocks
    exact .cons (List.prefix_refl _) .nil
  · simpa [Note.begun?] using hPlan
  · simp only [begun_concat, ended_concat, Note.begun?,
      Note.ended?, if_pos, Option.toList, List.append_nil]
    rw [hBegun]
    apply List.rel_append hAnswered
    exact .cons ⟨rfl, x, rfl⟩ .nil

/- The link in use keeps standing as its usage says. -/
theorem Step.stands
    (hStep : Step p h w note w')
    (hFresh : ∀ n, w.opened < n → Fresh n log)
    (hStands : Stands p h w.opened log w.usage) :
    Stands p h w'.opened (log ++ [note]) w'.usage := by
  cases hStep with
  | accepted r => exact hStands.concat rfl rfl rfl
  | outside a => exact hStands.concat rfl rfl rfl
  | heard n why event => exact hStands.concat rfl rfl rfl
  | drained n r gone => trivial
  | skipped n s r => exact hStands.concat rfl rfl rfl
  | taken n s r =>
      exact Stands.concat (u := .ready s) hStands rfl rfl rfl
  | opened n =>
      rcases hFresh (n + 1) (Nat.lt_succ_self n) with
        ⟨hSent, hBegun, hEnded⟩
      refine ⟨?_, ?_, ?_, .inl rfl⟩
      · simpa [Note.sent?] using hSent
      · simpa [Note.begun?] using hBegun
      · simpa [Note.ended?] using hEnded
  | asked n hAsks =>
      rcases hStands with ⟨hSent, hBegun, hEnded, -⟩
      refine ⟨?_, ?_, ?_, .inr ?_⟩
      · simp [Note.sent?, hSent]
      · simpa [Note.begun?] using hBegun
      · simpa [Note.ended?] using hEnded
      · rw [hAsks]
        rfl
  | askedInVain n hAsks hVain =>
      exact hStands.concat (sent?_of_vain n n _ _ hVain) rfl rfl
  | ready n hProfile =>
      rcases hStands with ⟨hSent, hBegun, hEnded, -⟩
      apply Stands.concat (u := .ready _) _ rfl rfl rfl
      refine ⟨hProfile, [], ?_, ?_, ?_, ?_⟩
      · simpa using hSent
      · rw [hBegun]
        exact .nil
      · rw [hBegun]
        intro x hx
        cases hx
      · rw [hBegun, hEnded]
        exact .nil
  | began n s r => exact Stands.began hStands rfl
  | beganCheck n s => exact Stands.began hStands rfl
  | wrote n s why frame todo => exact Stands.wrote hStands
  | wroteInVain n s why frame todo hVain =>
      exact hStands.concat (sent?_of_vain n n _ _ hVain) rfl rfl
  | answered n s why x => exact Stands.answered hStands x
  | shut n written => trivial
  | shutReady n s => trivial
  | shutBusy n s why todo =>
      rcases hStands with
        ⟨-, earlier, block, blocks, hBegun, -, -, -, hAnswered⟩
      refine ⟨earlier, block ++ todo, ?_, ?_⟩
      · simpa [Note.begun?] using hBegun
      · simpa [Note.ended?] using hAnswered
  | broken n why hBroken => trivial

/- No note takes the layout from any link. -/
theorem Step.layout
    (hStep : Step p h w note w')
    (hFresh : ∀ n, w.opened < n → Fresh n log)
    (hStands : Stands p h w.opened log w.usage)
    (hLayout : ∀ n, Layout p h n log) :
    ∀ n, Layout p h n (log ++ [note]) := by
  intro n
  have hOld := hLayout n
  have hNew := hStep.stands hFresh hStands
  cases hStep with
  | asked m hAsks =>
      by_cases hSame : m = n
      · subst hSame
        exact hNew.layout (by simp) (by simp)
      · exact hOld.concat (by simp [Note.sent?, hSame]) rfl
  | askedInVain m hAsks hVain =>
      exact hOld.concat (sent?_of_vain n m _ _ hVain) rfl
  | began m s r =>
      by_cases hSame : m = n
      · subst hSame
        exact hNew.layout (by simp) (by simp)
      · exact hOld.concat rfl (by simp [Note.begun?, hSame])
  | beganCheck m s =>
      by_cases hSame : m = n
      · subst hSame
        exact hNew.layout (by simp) (by simp)
      · exact hOld.concat rfl (by simp [Note.begun?, hSame])
  | wrote m s why frame todo =>
      by_cases hSame : m = n
      · subst hSame
        exact hNew.layout (by simp) (by simp)
      · exact hOld.concat (by simp [Note.sent?, hSame]) rfl
  | wroteInVain m s why frame todo hVain =>
      exact hOld.concat (sent?_of_vain n m _ _ hVain) rfl
  | _ => exact hOld.concat rfl rfl

end Steps

/- What every trace keeps, for all its links. -/
structure Kept
    (p : Profile)
    (h : Handshake)
    (log : List (Note A))
    (w : Wire) : Prop where
  fresh : ∀ n, w.opened < n → Fresh n log
  stands : Stands p h w.opened log w.usage
  layout : ∀ n, Layout p h n log
  underWay : underWay log = w.current

section Traces

variable {p : Profile} {h : Handshake}
variable {w : Wire} {log : List (Note A)}

/- Every trace keeps it. -/
theorem Trace.kept (hTrace : Trace p h log w) :
    Kept p h log w := by
  induction hTrace with
  | nil =>
      constructor
      · exact fun n hn => ⟨rfl, rfl, rfl⟩
      · trivial
      · intro n
        refine ⟨[], [], ⟨p, p.leastMtu, Nat.le_refl _⟩, rfl,
          .inr ⟨rfl, rfl⟩, rfl, .nil, ?_⟩
        intro x hx
        cases hx
      · rfl
  | concat hTrace hStep ih =>
      constructor
      · exact hStep.fresh ih.fresh
      · exact hStep.stands ih.fresh ih.stands
      · exact hStep.layout ih.fresh ih.stands ih.layout
      · exact hStep.underWay ih.underWay

/- Each link is written to in blocks, one per exchange. -/
theorem Trace.layout
    (hTrace : Trace p h log w)
    (n : Nat) :
    Layout p h n log :=
  hTrace.kept.layout n

------------------------------------------------------------
-- Every Note in Its Place
------------------------------------------------------------

/-
  What must hold before a note.  A frame is written to set a
  link up, before any exchange, or within the exchange that
  is under way.  An exchange begins once all exchanges on
  the link have been answered.  Once one of them was not,
  nothing is written to the link any more.
-/
def Allowed (before : List (Note A)) : Note A → Prop
  | .wrote n why _ _ =>
      (why = .setup ∧ begun n before = [] ∨
          underWay before = some (n, why)) ∧
        ∀ x ∈ ended n before, ∃ r, x.2 = some (.ok r)
  | .began n _ _ =>
      underWay before = none ∧
        Answered (begun n before) (ended n before)
  | _ => True

/- Every note of a log stands where it may. -/
def Lawful (log : List (Note A)) : Prop :=
  ∀ before note after,
    log = before ++ note :: after → Allowed before note

/- A note that may follow keeps a log lawful. -/
theorem Lawful.concat
    {note : Note A}
    (hLawful : Lawful log)
    (hAllowed : Allowed log note) :
    Lawful (log ++ [note]) := by
  intro before note' after hSplit
  rcases List.eq_nil_or_concat after with rfl | ⟨rest, x, hx⟩
  · rcases List.append_inj' hSplit rfl with ⟨rfl, hLast⟩
    cases hLast
    exact hAllowed
  · rw [List.concat_eq_append] at hx
    subst hx
    rw [← List.cons_append, ← List.append_assoc] at hSplit
    rcases List.append_inj' hSplit rfl with ⟨hLog, -⟩
    exact hLawful before note' rest hLog

/- Where all are answered, each of them is. -/
theorem Answered.all
    {begun : List (Purpose × List (List UInt8))}
    {ended :
      List (Purpose ×
        Option (Except ExchangeError Response))}
    (hAnswered : Answered begun ended) :
    ∀ x ∈ ended, ∃ r, x.2 = some (.ok r) := by
  induction hAnswered with
  | nil =>
      intro x hx
      cases hx
  | cons hHead hTail ih =>
      intro x hx
      rcases List.mem_cons.mp hx with rfl | hx
      · exact hHead.2
      · exact ih x hx

/- What the rules allow next may stand there. -/
theorem Kept.allowed
    {w' : Wire}
    {note : Note A}
    (hKept : Kept p h log w)
    (hStep : Step p h w note w') :
    Allowed log note := by
  have hStands := hKept.stands
  have hNow := hKept.underWay
  have hAsking :
      ∀ n written,
        Stands p h n log (.setup written) →
          (Purpose.setup = .setup ∧ begun n log = [] ∨
              Wire.underWay log = some (n, .setup)) ∧
            ∀ x ∈ ended n log, ∃ r, x.2 = some (.ok r) := by
    intro n written hSetup
    rcases hSetup with ⟨-, hBegun, hEnded, -⟩
    refine ⟨.inl ⟨rfl, hBegun⟩, ?_⟩
    rw [hEnded]
    intro x hx
    cases hx
  have hWriting :
      ∀ n s why todo,
        Stands p h n log (.busy s why todo) →
          ∀ x ∈ ended n log, ∃ r, x.2 = some (.ok r) := by
    intro n s why todo hBusy
    rcases hBusy with
      ⟨-, earlier, block, blocks, -, -, -, -, hAnswered⟩
    exact hAnswered.all
  cases hStep with
  | asked n hAsks => exact hAsking n _ hStands
  | askedInVain n hAsks hVain => exact hAsking n _ hStands
  | began n s r =>
      rcases hStands with ⟨-, blocks, -, -, -, hAnswered⟩
      exact ⟨hNow, hAnswered⟩
  | beganCheck n s =>
      rcases hStands with ⟨-, blocks, -, -, -, hAnswered⟩
      exact ⟨hNow, hAnswered⟩
  | wrote n s why frame todo =>
      exact ⟨.inr hNow, hWriting n s why _ hStands⟩
  | wroteInVain n s why frame todo hVain =>
      exact ⟨.inr hNow, hWriting n s why _ hStands⟩
  | _ => trivial

/- So every trace is lawful. -/
theorem Trace.lawful (hTrace : Trace p h log w) :
    Lawful log := by
  induction hTrace with
  | nil =>
      intro before note after hSplit
      cases before <;> cases hSplit
  | concat hTrace hStep ih =>
      exact ih.concat (hTrace.kept.allowed hStep)

/- A link is left alone once an exchange on it has failed. -/
theorem Lawful.silent
    (hLawful : Lawful log)
    {before after : List (Note A)}
    {n : Nat}
    {why : Purpose}
    {result : Option (Except ExchangeError Response)}
    (hSplit : log = before ++ .ended n why result :: after)
    (hFailed : ∀ r, result ≠ some (.ok r)) :
    ∀ why' frame answer,
      .wrote n why' frame answer ∉ after := by
  intro why' frame answer hWrote
  rcases List.append_of_mem hWrote with ⟨between, rest, rfl⟩
  rw [← List.cons_append, ← List.append_assoc] at hSplit
  rcases hLawful _ _ _ hSplit with ⟨-, hAll⟩
  have hEnded :
      (why, result) ∈
        ended n (before ++ .ended n why result :: between) := by
    apply List.mem_filterMap.mpr
    refine ⟨.ended n why result, ?_, if_pos rfl⟩
    exact List.mem_append_right _ List.mem_cons_self
  rcases hAll _ hEnded with ⟨r, hr⟩
  exact hFailed r hr

------------------------------------------------------------
-- Requests on Links
------------------------------------------------------------

/- How the requests served stand to those taken for it. -/
def Serving (log : List (Note A)) : Usage → Prop
  | .due _ r =>
      ∃ earlier,
        heeded log = earlier ++ [r] ∧
          (served log).Sublist earlier
  | _ => (served log).Sublist (heeded log)

/- Requests are served in the order of the queue. -/
theorem Serving.sublist
    {u : Usage}
    (hServing : Serving log u) :
    (served log).Sublist (heeded log) := by
  cases u with
  | due s r =>
      rcases hServing with ⟨earlier, hHeeded, hEarlier⟩
      rw [hHeeded]
      exact hEarlier.trans (List.sublist_append_left _ _)
  | _ => exact hServing

/- A step serves the one that is due. -/
theorem Step.serving
    {w' : Wire}
    {note : Note A}
    (hStep : Step p h w note w')
    (hServing : Serving log w.usage) :
    Serving (log ++ [note]) w'.usage := by
  have hSublist := hServing.sublist
  cases hStep with
  | drained n r gone =>
      cases gone with
      | true =>
          simpa [Serving, Note.served?, Note.heeded?]
            using hSublist
      | false =>
          unfold Serving
          simp only [served_concat, heeded_concat, Note.served?,
            Note.heeded?, Option.toList, List.append_nil]
          exact hSublist.trans (List.sublist_append_left _ _)
  | taken n s r =>
      refine ⟨heeded log, ?_, ?_⟩
      · simp [Note.heeded?]
      · simpa [Note.served?] using hSublist
  | began n s r =>
      rcases hServing with ⟨earlier, hHeeded, hEarlier⟩
      unfold Serving
      simp only [served_concat, heeded_concat, Note.served?,
        Note.heeded?, Option.toList, List.append_nil, hHeeded]
      exact hEarlier.append (List.Sublist.refl _)
  | accepted r =>
      cases hUsage : w.usage <;>
        simpa [Serving, hUsage, Note.served?, Note.heeded?]
          using hServing
  | outside a =>
      cases hUsage : w.usage <;>
        simpa [Serving, hUsage, Note.served?, Note.heeded?]
          using hServing
  | heard n why event =>
      cases hUsage : w.usage <;>
        simpa [Serving, hUsage, Note.served?, Note.heeded?]
          using hServing
  | _ =>
      simpa [Serving, Note.served?, Note.heeded?]
        using hSublist

/- So it is in every trace. -/
theorem Trace.serving (hTrace : Trace p h log w) :
    Serving log w.usage := by
  induction hTrace with
  | nil => exact List.Sublist.refl _
  | concat hTrace hStep ih => exact hStep.serving ih

/- Requests go on links in the order of leaving the queue. -/
theorem Trace.served_sublist (hTrace : Trace p h log w) :
    (served log).Sublist (heeded log) :=
  hTrace.serving.sublist

/- What is written for a request belongs to an exchange. -/
theorem Trace.begun_of_tried
    (hTrace : Trace p h log w)
    {n : Nat}
    {r : Request}
    (hTried : (n, r) ∈ tried log) :
    ∃ plan, (.request r, plan) ∈ begun n log := by
  induction hTrace with
  | nil => cases hTried
  | concat hTrace hStep ih =>
      rename_i log w w' note
      rw [tried_concat] at hTried
      rcases List.mem_append.mp hTried with hOld | hNew
      · rcases ih hOld with ⟨plan, hPlan⟩
        refine ⟨plan, ?_⟩
        rw [begun_concat]
        exact List.mem_append_left _ hPlan
      · have hWriting :
            ∀ s todo,
              Stands p h n log (.busy s (.request r) todo) →
                ∃ plan, (.request r, plan) ∈
                  begun n (log ++ [note]) := by
          intro s todo hBusy
          rcases hBusy with
            ⟨-, earlier, block, blocks, hBegun, -⟩
          refine ⟨block ++ todo, ?_⟩
          rw [begun_concat, hBegun]
          simp
        have hStands := hTrace.kept.stands
        cases hStep with
        | wrote m s why frame todo =>
            cases why <;> simp [Note.tried?] at hNew
            rcases hNew with ⟨rfl, rfl⟩
            exact hWriting s _ hStands
        | wroteInVain m s why frame todo hVain =>
            cases why <;> simp [Note.tried?] at hNew
            rcases hNew with ⟨rfl, rfl⟩
            exact hWriting s _ hStands
        | _ => simp [Note.tried?] at hNew

/- A request with an exchange has been served. -/
theorem served_of_begun
    {n : Nat}
    {r : Request}
    {plan : List (List UInt8)}
    (hBegun : (.request r, plan) ∈ begun n log) :
    r ∈ served log := by
  rcases List.mem_filterMap.mp hBegun with ⟨note, hNote, hPlan⟩
  apply List.mem_filterMap.mpr
  refine ⟨note, hNote, ?_⟩
  unfold Note.begun? at hPlan
  split at hPlan
  · split at hPlan
    · cases hPlan
      rfl
    · cases hPlan
  · cases hPlan

/- What appears once comes from one place. -/
theorem eq_of_filterMap_nodup
    {α β : Type}
    {f : α → Option β}
    {xs : List α}
    (hNodup : (xs.filterMap f).Nodup)
    {x y : α}
    {b : β}
    (hx : x ∈ xs)
    (hy : y ∈ xs)
    (hfx : f x = some b)
    (hfy : f y = some b) :
    x = y := by
  induction xs with
  | nil => cases hx
  | cons z xs ih =>
      have hRest :
          ∀ y ∈ xs, f y = some b → f z ≠ some b := by
        intro y hy hfy hfz
        rw [List.filterMap_cons_some hfz, List.nodup_cons]
          at hNodup
        exact hNodup.1 (List.mem_filterMap.mpr ⟨y, hy, hfy⟩)
      rcases List.mem_cons.mp hx with rfl | hx'
      · rcases List.mem_cons.mp hy with rfl | hy'
        · rfl
        · exact absurd hfx (hRest y hy' hfy)
      · rcases List.mem_cons.mp hy with rfl | hy'
        · exact absurd hfy (hRest x hx' hfx)
        · apply ih _ hx' hy'
          cases hfz : f z with
          | none =>
              rwa [List.filterMap_cons_none hfz] at hNodup
          | some b' =>
              rw [List.filterMap_cons_some hfz,
                List.nodup_cons] at hNodup
              exact hNodup.2

/- What holds of fewer notes tells of fewer things. -/
theorem filterMap_sublist
    {α β : Type}
    {f g : α → Option β}
    (hLess : ∀ x b, f x = some b → g x = some b)
    (xs : List α) :
    (xs.filterMap f).Sublist (xs.filterMap g) := by
  induction xs with
  | nil => exact List.Sublist.refl _
  | cons x xs ih =>
      cases hf : f x with
      | none =>
          rw [List.filterMap_cons_none hf]
          cases hg : g x with
          | none =>
              rw [List.filterMap_cons_none hg]
              exact ih
          | some b =>
              rw [List.filterMap_cons_some hg]
              exact ih.cons b
      | some b =>
          rw [List.filterMap_cons_some hf,
            List.filterMap_cons_some (hLess x b hf)]
          exact ih.cons_cons b

/- The requests of one link are in the order of all. -/
theorem begun_sublist (n : Nat) (log : List (Note A)) :
    ((begun n log).filterMap fun x => x.1.request?).Sublist
      (served log) := by
  unfold begun served
  rw [List.filterMap_filterMap]
  apply filterMap_sublist
  intro note r hr
  rcases Option.bind_eq_some_iff.mp hr with
    ⟨x, hBegun, hRequest⟩
  unfold Note.begun? at hBegun
  split at hBegun
  · rename_i m why plan
    split at hBegun
    · cases hBegun
      cases why with
      | request r' => exact hRequest
      | _ => cases hRequest
    · cases hBegun
  · cases hBegun

/- A request that goes on links once goes on one link. -/
theorem Trace.link_unique
    (hTrace : Trace p h log w)
    (hOnce : (served log).Nodup)
    {n n' : Nat}
    {r : Request}
    (hTried : (n, r) ∈ tried log)
    (hTried' : (n', r) ∈ tried log) :
    n = n' := by
  have hNote :
      ∀ n, (n, r) ∈ tried log →
        ∃ plan, .began n (.request r) plan ∈ log := by
    intro n hTried
    rcases hTrace.begun_of_tried hTried with ⟨plan, hPlan⟩
    rcases List.mem_filterMap.mp hPlan with
      ⟨note, hNote, hBegun⟩
    unfold Note.begun? at hBegun
    split at hBegun
    · split at hBegun
      · rename_i hSame
        cases hBegun
        cases hSame
        exact ⟨plan, hNote⟩
      · cases hBegun
    · cases hBegun
  rcases hNote n hTried with ⟨plan, hPlan⟩
  rcases hNote n' hTried' with ⟨plan', hPlan'⟩
  have hSame :=
    eq_of_filterMap_nodup hOnce hPlan hPlan' rfl rfl
  cases hSame
  rfl

end Traces

end Wire

end DeviceSession
