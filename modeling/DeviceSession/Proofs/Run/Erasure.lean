import DeviceSession.Proofs.Run.Story

/-
  The log of a story changes nothing.

  A driver asks a connector about the world, and never looks
  at the world itself.  So when one connector answers as
  another one does, a driver takes the same steps with both:
  with the log and without it.  The worlds that have some
  property make up a connector of their own, if every
  operation keeps the property; a driver keeps it then.

  Key definitions include:
    * `Connector.Covers`
    * `Connector.Keeps`
    * `Driver.map`
    * `Scenario.map`
    * `Story.erase`

  Main declarations:
    * `Driver.step_map`
    * `Driver.step_keeps`
    * `Story.erase_run`
-/

------------------------------------------------------------
-- Connectors That Agree
------------------------------------------------------------

namespace DeviceSession

namespace Connector

variable {W W' L L' : Type}

/-
  One connector answers as another one does on the worlds
  and links that its own stand for.
-/
structure Covers
    (c' : Connector W' L')
    (c : Connector W L)
    (g : W' → W)
    (f : L' → L) : Prop where
  profile : c.profile = c'.profile
  handshake : c.handshake = c'.handshake
  reach : ∀ asked w,
    c.reach asked (g w) = Prod.map id g (c'.reach asked w)
  connect : ∀ asked w,
    c.connect asked (g w) =
      Prod.map (Option.map (Except.map f)) g
        (c'.connect asked w)
  write : ∀ asked l frame w,
    c.write asked (f l) frame (g w) =
      Prod.map id g (c'.write asked l frame w)
  event : ∀ asked l w,
    c.event asked (f l) (g w) =
      Prod.map id g (c'.event asked l w)
  close : ∀ l w, c.close (f l) (g w) = g (c'.close l w)

end Connector

------------------------------------------------------------
-- Machines over Other Links
------------------------------------------------------------

section Maps

variable {L L' : Type} (f : L' → L)

/- The same machine over the links that its own stand for. -/
def HostEnd.map (e : HostEnd L') : HostEnd L where
  link := f e.link
  codec := e.codec

def Attempt.map : Attempt L' → Attempt L
  | .reaching asked => .reaching asked
  | .fallingBack due => .fallingBack due
  | .connecting asked => .connecting asked
  | .settingUp e x => .settingUp (e.map f) x
  | .pausing due => .pausing due
  | .overflowed => .overflowed

def BringUp.map (x : BringUp L') : BringUp L where
  deadline := x.deadline
  number := x.number
  attempt := x.attempt.map f

def BringUp.Ending.map :
    BringUp.Ending L' → BringUp.Ending L
  | .linked e => .linked (e.map f)
  | .expired => .expired

def Job.map : Job L' → Job L
  | .idle => .idle
  | .bringingUp x => .bringingUp (x.map f)
  | .serving asked => .serving asked
  | .exchanging r x => .exchanging r x
  | .checking x => .checking x

def Driver.map (d : Driver L') : Driver L where
  link := d.link.map (HostEnd.map f)
  job := d.job.map f
  failure := d.failure

end Maps

------------------------------------------------------------
-- The Same Steps
------------------------------------------------------------

section Steps

variable {W W' L L' : Type}
variable {c' : Connector W' L'} {c : Connector W L}
variable {g : W' → W} {f : L' → L}

/- To write a frame does not depend on the names of links. -/
theorem FrameWrite.step_map
    (hCovers : c'.Covers c g f)
    (p : WritePolicy)
    (l : L')
    (now : Nat)
    (x : FrameWrite)
    (w : W') :
    FrameWrite.step c p (f l) now x (g w) =
      Prod.map id g (FrameWrite.step c' p l now x w) := by
  unfold FrameWrite.step
  cases x.pausedUntil with
  | some due => rfl
  | none =>
      simp only [hCovers.write]
      rcases c'.write x.asked l x.frame w with ⟨r, w'⟩
      rcases r with - | (e | u)
      · rfl
      · cases e
        all_goals
          simp only [Prod.map]
          repeat' split
          all_goals simp_all
      · rfl

/- Nor does setting one up, which keeps its end of the link. -/
theorem Setup.step_map
    (hCovers : c'.Covers c g f)
    (p : WritePolicy)
    (timeout now : Nat)
    (x : Setup)
    (e : HostEnd L')
    (w : W') :
    Setup.step c p timeout now x (e.map f) (g w) =
      Prod.map id (Prod.map (HostEnd.map f) g)
        (Setup.step c' p timeout now x e w) := by
  have hSettle :
      ∀ mtu (e : HostEnd L'),
        settle c.profile mtu (e.map f) =
          Prod.map id (HostEnd.map f)
            (settle c'.profile mtu e) := by
    intro mtu e
    rw [hCovers.profile]
    unfold settle
    split <;> rfl
  cases x with
  | start =>
      simp only [step, hCovers.handshake]
      split
      · rename_i mtu hFixed
        have h := hSettle mtu { e with codec := none }
        simp only [HostEnd.map] at h ⊢
        rw [h]
        rfl
      · rfl
  | writing deadline x =>
      have h :=
        FrameWrite.step_map hCovers p e.link now x w
      simp only [step, HostEnd.map] at h ⊢
      rw [h]
      rcases FrameWrite.step c' p e.link now x w with ⟨t, w'⟩
      rcases t with x' | x' | (err | u) <;> rfl
  | reading deadline asked =>
      have h := hCovers.event asked e.link w
      simp only [step, HostEnd.map] at h ⊢
      rw [h]
      rcases c'.event asked e.link w with ⟨r, w'⟩
      rcases r with - | (frame | -)
      · rfl
      · simp only [Prod.map, id]
        split
        · split
          · rename_i mtu hMtu
            exact congrArg
              (fun r => (Turn.done r.1, r.2, g w'))
              (hSettle mtu e)
          · rfl
        · rfl
      · rfl

/- A frame is taken in by the codec, under any name. -/
theorem Exchange.receive_map
    (x : Exchange)
    (e : HostEnd L')
    (frame : List UInt8) :
    x.receive (e.map f) frame =
      Prod.map id (HostEnd.map f) (x.receive e frame) := by
  unfold receive
  simp only [HostEnd.map]
  repeat' split
  all_goals rfl

/- So an exchange comes to the same end on either link. -/
theorem Exchange.step_map
    (hCovers : c'.Covers c g f)
    (p : WritePolicy)
    (now : Nat)
    (x : Exchange)
    (e : HostEnd L')
    (w : W') :
    Exchange.step c p now x (e.map f) (g w) =
      Prod.map id (Prod.map (HostEnd.map f) g)
        (Exchange.step c' p now x e w) := by
  unfold step
  cases x.phase with
  | start =>
      rcases e with ⟨link, codec⟩
      cases codec <;> rfl
  | cutting rest =>
      dsimp only
      cases rest.next? <;> rfl
  | writing rest y =>
      have h := FrameWrite.step_map hCovers p e.link now y w
      simp only [HostEnd.map] at h ⊢
      rw [h]
      rcases FrameWrite.step c' p e.link now y w with ⟨t, w'⟩
      rcases t with y' | y' | (err | u) <;> rfl
  | reading asked =>
      have h := hCovers.event asked e.link w
      simp only [HostEnd.map] at h ⊢
      rw [h]
      rcases c'.event asked e.link w with ⟨r, w'⟩
      rcases r with - | (frame | -)
      · rfl
      · have hFrame := x.receive_map (f := f) e frame
        simp only [HostEnd.map] at hFrame
        simp only [Prod.map, id, hFrame]
      · rfl

/- Watching a link tells the same of it. -/
theorem Watch.step_map
    (hCovers : c'.Covers c g f)
    (asked : Asked)
    (e : HostEnd L')
    (w : W') :
    Watch.step c asked (e.map f) (g w) =
      Prod.map id g (Watch.step c' asked e w) := by
  have h := hCovers.event asked e.link w
  simp only [Watch.step, HostEnd.map] at h ⊢
  rw [h]
  rcases c'.event asked e.link w with ⟨r, w'⟩
  rcases r with - | (frame | -) <;> rfl

/- Attempts are counted as they are. -/
theorem BringUp.again_map (f : L' → L) (x : BringUp L') :
    (x.map f).again = x.again.map f := by
  unfold again
  rw [apply_ite (map f)]
  rfl

/- One attempt at a link, phase by phase. -/
theorem BringUp.attemptStep_map
    (hCovers : c'.Covers c g f)
    (now : Nat)
    (x : BringUp L')
    (k : Connection)
    (w : W') :
    (x.map f).attemptStep c now k (g w) =
      Prod.map (Turn.map (BringUp.map f) (Ending.map f))
        (Prod.map id g) (x.attemptStep c' now k w) := by
  rcases x with ⟨deadline, number, attempt⟩
  cases attempt with
  | reaching asked =>
      simp only [attemptStep, map, Attempt.map, hCovers.reach]
      rcases c'.reach asked w with ⟨r, w'⟩
      rcases r with - | (- | -) <;> rfl
  | fallingBack due =>
      simp only [attemptStep, map, Attempt.map, Turn.pause]
      split <;> rfl
  | connecting asked =>
      simp only [attemptStep, map, Attempt.map,
        hCovers.connect]
      rcases c'.connect asked w with ⟨r, w'⟩
      rcases r with - | (e | l) <;> rfl
  | settingUp e x =>
      simp only [attemptStep, map, Attempt.map,
        Setup.step_map hCovers]
      generalize hStep :
        Setup.step c' _ _ now x e w = result
      rcases result with ⟨t, e', w'⟩
      rcases t with x' | x' | (err | u)
      · rfl
      · rfl
      · simp only [Prod.map, id, HostEnd.map, hCovers.close]
        rfl
      · rfl
  | pausing due =>
      have h := again_map f ⟨deadline, number, .pausing due⟩
      simp only [attemptStep, map, Attempt.map, Turn.pause]
        at h ⊢
      rw [h]
      split <;> rfl
  | overflowed => rfl

/- What has been opened is given up under its name. -/
theorem BringUp.abort_map
    (hCovers : c'.Covers c g f)
    (x : BringUp L')
    (w : W') :
    (x.map f).abort c (g w) = g (x.abort c' w) := by
  rcases x with ⟨deadline, number, attempt⟩
  cases attempt with
  | settingUp e x => exact hCovers.close e.link w
  | _ => rfl

/- Attempts until the deadline. -/
theorem BringUp.step_map
    (hCovers : c'.Covers c g f)
    (now : Nat)
    (x : BringUp L')
    (k : Connection)
    (w : W') :
    (x.map f).step c now k (g w) =
      Prod.map (Turn.map (BringUp.map f) (Ending.map f))
        (Prod.map id g) (x.step c' now k w) := by
  simp only [step, x.attemptStep_map hCovers]
  generalize x.attemptStep c' now k w = result
  rcases result with ⟨t, k', w'⟩
  cases t with
  | go x' => rfl
  | wait x' =>
      have h := x'.abort_map hCovers w'
      simp only [Prod.map, Turn.map, id] at h ⊢
      change ite (x'.deadline ≤ now) _ _ = _
      split
      · rw [h]
        rfl
      · rfl
  | done ending => rfl

namespace Driver

/- To give up the link in use is to give up its image. -/
theorem closeLink_map
    (hCovers : c'.Covers c g f)
    (d : Driver L')
    (w : W') :
    (d.map f).closeLink c (g w) =
      Prod.map (Driver.map f) g (d.closeLink c' w) := by
  rcases d with ⟨link, job, failure⟩
  cases link with
  | none => rfl
  | some e =>
      simp only [closeLink, map, Option.map, HostEnd.map,
        hCovers.close]
      rfl

/- The state is the same, and so is what it asks for. -/
theorem arrive_map
    (hCovers : c'.Covers c g f)
    (now : Nat)
    (old new : Lifecycle)
    (d : Driver L')
    (k : Connection)
    (w : W') :
    arrive c now old new (d.map f) k (g w) =
      Prod.map (Driver.map f) (Prod.map id g)
        (arrive c' now old new d k w) := by
  simp only [arrive, closeLink_map hCovers]
  split
  · rfl
  · cases new
    all_goals
      dsimp only
      repeat' split
      all_goals rfl

/- So is what an input comes to. -/
theorem feed_map
    (hCovers : c'.Covers c g f)
    (now : Nat)
    (input : LifecycleInput)
    (d : Driver L')
    (k : Connection)
    (w : W') :
    feed c now input (d.map f) k (g w) =
      Prod.map (Driver.map f) (Prod.map id g)
        (feed c' now input d k w) :=
  arrive_map hCovers now _ _ ⟨d.link, .idle, _⟩ _ w

/- What a step comes to, over the other links and worlds. -/
def Result.map (g : W' → W) (f : L' → L) :
    Result W' L' → Result W L :=
  Prod.map (Turn.map (Driver.map f) id) (Prod.map id g)

/- To go on after that. -/
theorem moved_map (x : Driver L' × Connection × W') :
    moved (Prod.map (Driver.map f) (Prod.map id g) x) =
      Result.map g f (moved x) := rfl

/- What is begun depends on the state alone. -/
theorem begin_map
    (hCovers : c'.Covers c g f)
    (now : Nat)
    (d : Driver L')
    (k : Connection)
    (w : W') :
    (d.map f).begin c now k (g w) =
      Result.map g f (d.begin c' now k w) := by
  have hLink : (d.map f).link.isSome = d.link.isSome :=
    Option.isSome_map
  simp only [begin, bringUp, closeLink_map hCovers,
    feed_map hCovers, moved_map, hLink]
  cases k.state with
  | connected n => dsimp only; split <;> rfl
  | awaitingDisconnection n => dsimp only; split <;> rfl
  | _ => rfl

/- What is given up for a wish to close. -/
theorem interrupt_map
    (hCovers : c'.Covers c g f)
    (now : Nat)
    (d : Driver L')
    (k : Connection)
    (w : W') :
    (d.map f).interrupt c now k (g w) =
      Result.map g f (d.interrupt c' now k w) := by
  rcases d with ⟨link, job, failure⟩
  cases job with
  | bringingUp x =>
      simp only [interrupt, map, Job.map, x.abort_map hCovers]
      exact congrArg moved
        (feed_map hCovers now _ ⟨link, _, failure⟩ _ _)
  | _ =>
      exact congrArg moved
        (feed_map hCovers now _ ⟨link, _, failure⟩ _ _)

/- A step of a job that is under way. -/
theorem work_map
    (hCovers : c'.Covers c g f)
    (now : Nat)
    (d : Driver L')
    (k : Connection)
    (w : W') :
    (d.map f).work c now k (g w) =
      Result.map g f (d.work c' now k w) := by
  rcases d with ⟨link, job, failure⟩
  have hFeed :
      ∀ input (e : Option (HostEnd L')) j k w,
        moved (feed c now input
            ⟨e.map (HostEnd.map f), Job.map f j, failure⟩
            k (g w)) =
          Result.map g f (moved
            (feed c' now input ⟨e, j, failure⟩ k w)) :=
    fun input e j k w =>
      congrArg moved (feed_map hCovers now input ⟨e, j, _⟩ k w)
  cases job with
  | idle => exact hFeed _ link .idle k w
  | bringingUp x =>
      simp only [work, map, Job.map, x.step_map hCovers]
      generalize x.step c' now k w = result
      rcases result with ⟨t, k', w'⟩
      rcases t with x' | x' | (e | -)
      · rfl
      · rfl
      · exact hFeed _ (some e) (.bringingUp x) k' w'
      · exact hFeed _ link (.bringingUp x) k' w'
  | serving asked =>
      cases link with
      | none => exact hFeed _ none (.serving asked) k w
      | some e =>
          simp only [work, map, Job.map, Option.map]
          cases hQueue : k.queue with
          | nil =>
              simp only [Watch.step_map hCovers]
              generalize Watch.step c' asked e w = result
              rcases result with ⟨t, w'⟩
              cases t with
              | go asked' => rfl
              | wait asked' => rfl
              | done u =>
                  exact hFeed _ (some e) (.serving asked) k w'
          | cons r rest =>
              simp only [serve]
              split
              · exact hFeed _ (some e) (.serving asked) _ w
              · rfl
  | exchanging r x =>
      cases link with
      | none => exact hFeed _ none (.exchanging r x) k w
      | some e =>
          simp only [work, map, Job.map, Option.map,
            Exchange.step_map hCovers]
          generalize Exchange.step c' _ now x e w = result
          rcases result with ⟨t, e', w'⟩
          cases t with
          | go x' => rfl
          | wait x' => rfl
          | done result =>
              exact hFeed _ (some e') (.exchanging r x) _ w'
  | checking x =>
      cases link with
      | none => exact hFeed _ none (.checking x) k w
      | some e =>
          simp only [work, map, Job.map, Option.map,
            Exchange.step_map hCovers]
          generalize Exchange.step c' _ now x e w = result
          rcases result with ⟨t, e', w'⟩
          cases t with
          | go x' => rfl
          | wait x' => rfl
          | done result =>
              exact hFeed _ (some e') (.checking x) _ w'

/-
  A step with one connector is the step with another one
  that answers as it does.
-/
theorem step_map
    (hCovers : c'.Covers c g f)
    (now : Nat)
    (d : Driver L')
    (k : Connection)
    (w : W') :
    (d.map f).step c now k (g w) =
      Result.map g f (d.step c' now k w) := by
  have hBegin := begin_map hCovers now d k w
  have hInterrupt := interrupt_map hCovers now d k w
  have hWork := work_map hCovers now d k w
  rcases d with ⟨link, job, failure⟩
  cases job with
  | idle => exact hBegin
  | _ =>
      simp only [step, map, Job.map] at hInterrupt hWork ⊢
      split
      · exact hInterrupt
      · exact hWork

end Driver

end Steps

------------------------------------------------------------
-- Runs without a Log
------------------------------------------------------------

/- The links of a world, with and without a log. -/
theorem Connector.taped_covers
    {W L : Type}
    (c : Connector W L)
    (A : Type)
    (why : Purpose) :
    (c.taped A why).Covers c Taped.world Prod.snd where
  profile := rfl
  handshake := rfl
  reach _ _ := rfl
  connect asked t := by
    simp only [taped]
    generalize c.connect asked t.world = result
    rcases result with ⟨r, w⟩
    rcases r with - | (e | l) <;> rfl
  write _ _ _ _ := rfl
  event _ _ _ := rfl
  close _ _ := rfl

namespace Scenario

variable {W W' L L' : Type}

/- The scenario over other links and worlds. -/
def map (g : W' → W) (f : L' → L) (s : Scenario W' L') :
    Scenario W L where
  now := s.now
  driver := s.driver.map (Driver.map f)
  connection := s.connection
  world := g s.world

/- A step of a driver, as part of a run. -/
theorem drive_map
    {c' : Connector W' L'}
    {c : Connector W L}
    {g : W' → W}
    {f : L' → L}
    (hCovers : c'.Covers c g f)
    (s : Scenario W' L') :
    (s.map g f).drive c = (s.drive c').map g f := by
  rcases s with ⟨now, driver, k, w⟩
  cases driver with
  | none => rfl
  | some d =>
      simp only [drive, map, Option.map,
        Driver.step_map hCovers]
      generalize d.step c' now k w = result
      rcases result with ⟨t, k', w'⟩
      cases t <;> rfl

end Scenario

namespace Story

variable {W L A : Type}

/- The same scenario without its log. -/
def erase (s : Story W L A) : Scenario W L :=
  Scenario.map Taped.world Prod.snd s

/- Without its log, a step is what it is without a log. -/
theorem erase_step
    (c : Connector W L)
    (act : A → W → W)
    (s : Story W L A)
    (m : Move A) :
    (s.step c act m).erase = s.erase.step c act m := by
  cases m with
  | submit a options =>
      simp only [step, submit, Scenario.step]
      split
      · rename_i id connection hSubmit
        simp only [erase, Scenario.map, hSubmit]
        rfl
      · rename_i e connection hSubmit
        simp only [erase, Scenario.map, hSubmit]
  | drive =>
      simp only [step, drive, Scenario.step]
      cases hDriver : s.driver with
      | none => simp [erase, Scenario.map, Scenario.drive, hDriver]
      | some d =>
          exact (Scenario.drive_map
            (c.taped_covers A d.job.purpose) s).symm
  | _ => rfl

/- A story without its log is the run of the same moves. -/
theorem erase_run
    (c : Connector W L)
    (act : A → W → W)
    (s : Story W L A)
    (moves : List (Move A)) :
    (s.run c act moves).erase = s.erase.run c act moves := by
  induction moves generalizing s with
  | nil => rfl
  | cons m moves ih =>
      have h := ih (s.step c act m)
      rw [erase_step] at h
      exact h

end Story

------------------------------------------------------------
-- Properties of Worlds
------------------------------------------------------------

namespace Connector

variable {W L : Type}

/- Every operation keeps a property of the world. -/
structure Keeps (c : Connector W L) (P : W → Prop) : Prop where
  reach : ∀ asked w, P w → P (c.reach asked w).2
  connect : ∀ asked w, P w → P (c.connect asked w).2
  write : ∀ asked l frame w,
    P w → P (c.write asked l frame w).2
  event : ∀ asked l w, P w → P (c.event asked l w).2
  close : ∀ l w, P w → P (c.close l w)

/- The same links, over the worlds with a property. -/
def within
    (c : Connector W L)
    {P : W → Prop}
    (hKeeps : c.Keeps P) :
    Connector { w // P w } L where
  profile := c.profile
  handshake := c.handshake
  reach asked w :=
    ((c.reach asked w).1, ⟨_, hKeeps.reach asked w w.2⟩)
  connect asked w :=
    ((c.connect asked w).1, ⟨_, hKeeps.connect asked w w.2⟩)
  write asked l frame w :=
    ((c.write asked l frame w).1,
      ⟨_, hKeeps.write asked l frame w w.2⟩)
  event asked l w :=
    ((c.event asked l w).1, ⟨_, hKeeps.event asked l w w.2⟩)
  close l w := ⟨_, hKeeps.close l w w.2⟩

/- A world with a proof that it stays in bounds is a world. -/
theorem within_covers
    {c : Connector W L}
    {P : W → Prop}
    (hKeeps : c.Keeps P) :
    (c.within hKeeps).Covers c Subtype.val id where
  profile := rfl
  handshake := rfl
  reach _ _ := rfl
  connect asked w := by
    simp only [within, Prod.map]
    generalize c.connect asked w = result
    rcases result with ⟨r, w'⟩
    rcases r with - | (e | l) <;> rfl
  write _ _ _ _ := rfl
  event _ _ _ := rfl
  close _ _ := rfl

end Connector

/- To rename nothing changes nothing. -/
theorem HostEnd.map_id
    {L : Type}
    (e : HostEnd L) :
    e.map id = e := rfl

/- The same for a driver and its job. -/
theorem Driver.map_id
    {L : Type}
    (d : Driver L) :
    d.map id = d := by
  rcases d with ⟨link, job, failure⟩
  have hLink : link.map (HostEnd.map id) = link := by
    cases link <;> rfl
  have hJob : job.map id = job := by
    cases job with
    | bringingUp x =>
        rcases x with ⟨deadline, number, attempt⟩
        cases attempt <;> rfl
    | _ => rfl
  rw [map, hLink, hJob]

/- A step keeps what every operation of the links keeps. -/
theorem Driver.step_keeps
    {W L : Type}
    {c : Connector W L}
    {P : W → Prop}
    (hKeeps : c.Keeps P)
    (now : Nat)
    (d : Driver L)
    (k : Connection)
    {w : W}
    (hw : P w) :
    P (d.step c now k w).2.2 := by
  have h :=
    step_map (Connector.within_covers hKeeps) now d k ⟨w, hw⟩
  rw [d.map_id] at h
  rw [h]
  exact (d.step (c.within hKeeps) now k ⟨w, hw⟩).2.2.2

end DeviceSession
