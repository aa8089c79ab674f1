import DeviceSession.Proofs.Framing.Slices
import DeviceSession.Proofs.Run.Wire

/-
  The machines within the driver keep to the rules of the
  wire.

  What a machine is doing fits a use of the wire.  A step of
  it notes what the rules allow next, and leaves the wire in
  the use that fits what it is doing then.

  Key definitions include:
    * `Taped.Shows`
    * `Setup.Asks`
    * `Exchange.todo`
    * `Attempt.Uses`

  Main declarations:
    * `FrameWrite.step_shows`
    * `Setup.step_shows`
    * `Exchange.step_shows`
    * `BringUp.step_shows`
-/

------------------------------------------------------------
-- Logs That Are Traces
------------------------------------------------------------

namespace DeviceSession

open Wire (Step Trace)

/- The log is a trace, and links are numbered as it says. -/
structure Taped.Shows
    {W A : Type}
    (p : Profile)
    (h : Handshake)
    (t : Taped W A)
    (w : Wire) : Prop where
  trace : Trace p h t.log w
  opened : t.opened = w.opened

namespace Taped

variable {W A : Type} {p : Profile} {h : Handshake}
variable {t : Taped W A} {w w' : Wire}

theorem Shows.put
    (hShows : t.Shows p h w)
    (v : W) :
    (t.put v).Shows p h w :=
  ⟨hShows.trace, hShows.opened⟩

/- Noting nothing changes nothing. -/
theorem Shows.nothing (hShows : t.Shows p h w) :
    (t.note []).Shows p h w := by
  refine ⟨?_, hShows.opened⟩
  rw [note_log, List.append_nil]
  exact hShows.trace

theorem Shows.note
    {n : Note A}
    (hShows : t.Shows p h w)
    (hStep : Step p h w n w')
    (hOpened : w'.opened = w.opened) :
    (t.note [n]).Shows p h w' :=
  ⟨hShows.trace.concat hStep, hShows.opened.trans hOpened.symm⟩

end Taped

------------------------------------------------------------
-- Writing Frames
------------------------------------------------------------

section Machines

variable {W L A : Type}
variable (c : Connector W L)

/-
  A frame being written is tried, in vain or not, and then
  the write has been done or goes on with the same frame.
-/
theorem FrameWrite.step_shows
    (why : Purpose)
    (policy : WritePolicy)
    {l : Nat × L}
    (now : Nat)
    {x : FrameWrite}
    {t : Taped W A}
    {w : Wire}
    (w' : Wire)
    (hShows : t.Shows c.profile c.handshake w)
    (hOpened : w'.opened = w.opened)
    (hDone :
      Step (A := A) c.profile c.handshake w
        (.wrote l.1 why x.frame (some (.ok ()))) w')
    (hVain :
      ∀ answer, answer ≠ some (.ok ()) →
        Step (A := A) c.profile c.handshake w
          (.wrote l.1 why x.frame answer) w) :
    match FrameWrite.step (c.taped A why) policy l now x t with
    | (.done (.ok _), t') => t'.Shows c.profile c.handshake w'
    | (.done (.error e), t') =>
        e ≠ .notReady ∧ t'.Shows c.profile c.handshake w
    | (.go x', t') =>
        x'.frame = x.frame ∧ t'.Shows c.profile c.handshake w
    | (.wait x', t') =>
        x'.frame = x.frame ∧
          t'.Shows c.profile c.handshake w := by
  unfold FrameWrite.step
  cases hPause : x.pausedUntil with
  | some due =>
      simp only [Turn.pause]
      by_cases hDue : due ≤ now
      · rw [if_pos hDue]
        exact ⟨rfl, hShows⟩
      · rw [if_neg hDue]
        exact ⟨rfl, hShows⟩
  | none =>
      rw [Connector.taped_write]
      rcases c.write x.asked l.2 x.frame t.world with ⟨r, v⟩
      have hPut := hShows.put v
      rcases r with - | (e | u)
      · exact ⟨rfl, hPut.note (hVain _ (by simp)) rfl⟩
      · have hTried := hPut.note (hVain (some (.error e))
          (by simp)) rfl
        by_cases hMore : x.attempt < policy.retries
        · cases e with
          | disconnected => exact ⟨by simp, hTried⟩
          | _ =>
              simp only [if_pos hMore]
              exact ⟨trivial, hTried⟩
        · cases e with
          | disconnected => exact ⟨by simp, hTried⟩
          | _ =>
              simp only [if_neg hMore]
              exact ⟨by simp, hTried⟩
      · exact hPut.note hDone hOpened

------------------------------------------------------------
-- Setting Up Links
------------------------------------------------------------

/- What a setup has written so far. -/
def Setup.Asks (h : Handshake) :
    Setup → List (List UInt8) → Prop
  | .start, written => written = []
  | .writing _ x, written =>
      h = .negotiate ∧ x.frame = Mtu.request ∧ written = []
  | .reading _ _, written =>
      h = .negotiate ∧ written = [Mtu.request]

theorem Setup.settle_link
    (p : Profile)
    (mtu : Nat)
    (e : HostEnd L) :
    (settle p mtu e).2.link = e.link := by
  unfold settle
  split <;> rfl

theorem Setup.settle_codec
    {p : Profile}
    {mtu : Nat}
    {e : HostEnd L}
    {u : Unit}
    (hSettled : (settle p mtu e).1 = .ok u) :
    ∃ s a, (settle p mtu e).2.codec = some (s, a) ∧
      s.profile = p := by
  unfold settle at hSettled ⊢
  split
  · rename_i s hSlicer
    refine ⟨s, _, rfl, ?_⟩
    unfold Slicer.ofMtu at hSlicer
    split at hSlicer
    · cases hSlicer
      rfl
    · cases hSlicer
  · rename_i x hSlicer
    rw [hSlicer] at hSettled
    cases hSettled

theorem Setup.step_link
    (policy : WritePolicy)
    (timeout now : Nat)
    (x : Setup)
    (e : HostEnd L)
    (w : W) :
    (Setup.step c policy timeout now x e w).2.1.link =
      e.link := by
  cases x with
  | start =>
      simp only [step]
      split
      · exact settle_link _ _ _
      · rfl
  | writing deadline x =>
      simp only [step]
      split <;> rfl
  | reading deadline asked =>
      simp only [step]
      split
      · rfl
      · rfl
      · split
        · split
          · exact settle_link _ _ _
          · rfl
        · rfl

/-
  What a step of a setup leaves: the question has been asked
  as far as the setup says, and at the end the greeting is
  out and the frames are settled.
-/
def Setup.Leaves (n : Nat) :
    Turn Setup (Except ExchangeError Unit) ×
        HostEnd (Nat × L) × Taped W A → Prop
  | (.done (.ok _), e, t) =>
      t.Shows c.profile c.handshake
          ⟨n, .setup c.handshake.greeting⟩ ∧
        ∃ s a, e.codec = some (s, a) ∧ s.profile = c.profile
  | (.done (.error _), _, t) =>
      ∃ written,
        t.Shows c.profile c.handshake ⟨n, .setup written⟩
  | (.go x, _, t) =>
      ∃ written, x.Asks c.handshake written ∧
        t.Shows c.profile c.handshake ⟨n, .setup written⟩
  | (.wait x, _, t) =>
      ∃ written, x.Asks c.handshake written ∧
        t.Shows c.profile c.handshake ⟨n, .setup written⟩

/- A size is settled once the greeting has been written. -/
theorem Setup.leaves_settle
    {n : Nat}
    {t : Taped W A}
    (hShows :
      t.Shows c.profile c.handshake
        ⟨n, .setup c.handshake.greeting⟩)
    (mtu : Nat)
    (e : HostEnd (Nat × L)) :
    Leaves c n
      (.done (settle c.profile mtu e).1,
        (settle c.profile mtu e).2, t) := by
  cases hSettled : (settle c.profile mtu e).1 with
  | ok u => exact ⟨hShows, settle_codec hSettled⟩
  | error err => exact ⟨_, hShows⟩

section Phases

variable {policy : WritePolicy} {timeout now deadline : Nat}
variable {e : HostEnd (Nat × L)} {t : Taped W A}
variable {written : List (List UInt8)}

/- The size is known, or else it has to be asked for. -/
theorem Setup.start_shows
    (hShows :
      t.Shows c.profile c.handshake
        ⟨e.link.1, .setup written⟩)
    (hAsks : Asks c.handshake .start written) :
    Leaves c e.link.1
      (Setup.step (c.taped A .setup) policy timeout now .start e
        t) := by
  have hNone : written = [] := hAsks
  subst hNone
  simp only [step, Connector.taped]
  cases hHandshake : c.handshake with
  | fixed mtu =>
      have hGreeting :
          c.handshake.greeting = ([] : List (List UInt8)) := by
        rw [hHandshake]
        rfl
      rw [← hGreeting] at hShows
      exact leaves_settle c hShows mtu { link := e.link }
  | negotiate => exact ⟨[], ⟨hHandshake, rfl, rfl⟩, hShows⟩

/- The question is being written. -/
theorem Setup.writing_shows
    {f : FrameWrite}
    (hShows :
      t.Shows c.profile c.handshake
        ⟨e.link.1, .setup written⟩)
    (hAsks : Asks c.handshake (.writing deadline f) written) :
    Leaves c e.link.1
      (Setup.step (c.taped A .setup) policy timeout now
        (.writing deadline f) e t) := by
  rcases hAsks with ⟨hNegotiate, hFrame, rfl⟩
  have hWrite :=
    FrameWrite.step_shows c .setup policy now (x := f)
      ⟨e.link.1, .setup [Mtu.request]⟩
      hShows rfl
      (by rw [hFrame]; exact .asked _ hNegotiate)
      (by
        intro answer hVain
        rw [hFrame]
        exact .askedInVain _ hNegotiate hVain)
  simp only [step]
  rcases hStep :
      FrameWrite.step (c.taped A .setup) policy e.link now f t
    with
    ⟨r, t'⟩
  rw [hStep] at hWrite
  rcases r with f' | f' | (err | u)
  · exact ⟨[], ⟨hNegotiate, hWrite.1.trans hFrame, rfl⟩,
      hWrite.2⟩
  · dsimp only [Turn.orAt]
    by_cases hLate : deadline ≤ now
    · rw [if_pos hLate]
      exact ⟨[], hWrite.2⟩
    · rw [if_neg hLate]
      exact ⟨[], ⟨hNegotiate, hWrite.1.trans hFrame, rfl⟩,
        hWrite.2⟩
  · exact ⟨[], hWrite.2⟩
  · exact ⟨_, ⟨hNegotiate, rfl⟩, hWrite⟩

/- The answer is awaited; other frames are passed over. -/
theorem Setup.reading_shows
    {asked : Asked}
    (hShows :
      t.Shows c.profile c.handshake
        ⟨e.link.1, .setup written⟩)
    (hAsks :
      Asks c.handshake (.reading deadline asked) written) :
    Leaves c e.link.1
      (Setup.step (c.taped A .setup) policy timeout now
        (.reading deadline asked) e t) := by
  rcases hAsks with ⟨hNegotiate, rfl⟩
  have hGreeting : c.handshake.greeting = [Mtu.request] := by
    rw [hNegotiate]
    rfl
  simp only [step]
  rw [Connector.taped_event]
  rcases c.event asked e.link.2 t.world with ⟨r, v⟩
  have hPut := hShows.put v
  rcases r with - | (frame | -)
  · dsimp only [Turn.orAt]
    by_cases hLate : deadline ≤ now
    · rw [if_pos hLate]
      exact ⟨_, hPut.nothing⟩
    · rw [if_neg hLate]
      exact ⟨_, ⟨hNegotiate, rfl⟩, hPut.nothing⟩
  · have hHeard :=
      hPut.note (.heard _ e.link.1 .setup (.data frame)) rfl
    dsimp only
    by_cases hSize : Mtu.IsSizeFrame frame
    · rw [if_pos hSize]
      rcases Mtu.parse frame with err | mtu
      · exact ⟨_, hHeard⟩
      · rw [← hGreeting] at hHeard
        exact leaves_settle c hHeard mtu e
    · rw [if_neg hSize]
      exact ⟨_, ⟨hNegotiate, rfl⟩, hHeard⟩
  · exact ⟨_, hPut.note (.heard _ e.link.1 .setup .lost) rfl⟩

end Phases

/- A setup asks for the size, and for nothing else. -/
theorem Setup.step_shows
    (policy : WritePolicy)
    (timeout now : Nat)
    {x : Setup}
    {e : HostEnd (Nat × L)}
    {t : Taped W A}
    {written : List (List UInt8)}
    (hShows :
      t.Shows c.profile c.handshake
        ⟨e.link.1, .setup written⟩)
    (hAsks : x.Asks c.handshake written) :
    Leaves c e.link.1
      (Setup.step (c.taped A .setup) policy timeout now x e
        t) := by
  cases x with
  | start => exact start_shows c hShows hAsks
  | writing deadline f => exact writing_shows c hShows hAsks
  | reading deadline asked => exact reading_shows c hShows hAsks

------------------------------------------------------------
-- Exchanges
------------------------------------------------------------

/- The frames that an exchange is still to write. -/
def Exchange.todo (s : Slicer) (x : Exchange) :
    List (List UInt8) :=
  match x.phase with
  | .start => (s.command x.apdu).toList
  | .cutting rest => rest.toList
  | .writing rest f => f.frame :: rest.toList
  | .reading _ => []

/- The end of a link, with its frames settled. -/
def HostEnd.On (n : Nat) (s : Slicer) (e : HostEnd (Nat × L)) :
    Prop :=
  e.link.1 = n ∧ ∃ a, e.codec = some (s, a)

/-
  What a step of an exchange leaves: the frames that it is
  still to write, or none at the end, unless it has failed.
-/
def Exchange.Leaves
    (why : Purpose)
    (a : Apdu)
    (n : Nat)
    (s : Slicer) :
    Result × HostEnd (Nat × L) × Taped W A → Prop
  | (.done (.ok _), e, t) =>
      e.On n s ∧
        t.Shows c.profile c.handshake ⟨n, .busy s why []⟩
  | (.done (.error err), e, t) =>
      e.On n s ∧ err ≠ .notReady ∧
        ∃ todo,
          t.Shows c.profile c.handshake ⟨n, .busy s why todo⟩
  | (.go x, e, t) =>
      e.On n s ∧ x.apdu = a ∧
        t.Shows c.profile c.handshake
          ⟨n, .busy s why (x.todo s)⟩
  | (.wait x, e, t) =>
      e.On n s ∧ x.apdu = a ∧
        t.Shows c.profile c.handshake
          ⟨n, .busy s why (x.todo s)⟩

theorem Exchange.leaves_waiting
    {why : Purpose}
    {n : Nat}
    {s : Slicer}
    (now : Nat)
    {x : Exchange}
    {phase : Phase}
    {e : HostEnd (Nat × L)}
    {t : Taped W A}
    (hOn : e.On n s)
    (hShows :
      t.Shows c.profile c.handshake
        ⟨n, .busy s why ((x.goto phase).todo s)⟩) :
    Leaves c why x.apdu n s (x.waiting now phase, e, t) := by
  unfold waiting Turn.orAt
  by_cases hLate : x.deadline ≤ now
  · simp only [if_pos hLate]
    exact ⟨hOn, by simp, _, hShows⟩
  · simp only [if_neg hLate]
    exact ⟨hOn, rfl, hShows⟩

theorem Exchange.leaves_receive
    {why : Purpose}
    {n : Nat}
    {s : Slicer}
    (x : Exchange)
    {e : HostEnd (Nat × L)}
    {t : Taped W A}
    (hOn : e.On n s)
    (hShows :
      t.Shows c.profile c.handshake ⟨n, .busy s why []⟩)
    (frame : List UInt8) :
    Leaves c why x.apdu n s
      ((x.receive e frame).1, (x.receive e frame).2, t) := by
  rcases hOn with ⟨hLink, a, hCodec⟩
  unfold receive
  by_cases hSize : Mtu.IsSizeFrame frame
  · simp only [if_pos hSize]
    exact ⟨⟨hLink, a, hCodec⟩, rfl, hShows⟩
  · simp only [if_neg hSize, hCodec]
    rcases a.feedResponse frame with ⟨r, a'⟩
    rcases r with err | (- | response)
    · exact ⟨⟨hLink, a', rfl⟩, by simp, _, hShows⟩
    · exact ⟨⟨hLink, a', rfl⟩, rfl, hShows⟩
    · exact ⟨⟨hLink, a', rfl⟩, hShows⟩

theorem Exchange.step_shows
    (why : Purpose)
    (policy : WritePolicy)
    (now : Nat)
    {x : Exchange}
    {n : Nat}
    {s : Slicer}
    {e : HostEnd (Nat × L)}
    {t : Taped W A}
    (hOn : e.On n s)
    (hShows :
      t.Shows c.profile c.handshake
        ⟨n, .busy s why (x.todo s)⟩) :
    Leaves c why x.apdu n s
      (Exchange.step (c.taped A why) policy now x e t) := by
  rcases x with ⟨apdu, deadline, phase⟩
  rcases hOn with ⟨hLink, a, hCodec⟩
  cases phase with
  | start =>
      simp only [step, hCodec]
      exact ⟨⟨hLink, _, rfl⟩, rfl, hShows⟩
  | cutting rest =>
      simp only [todo] at hShows
      simp only [step]
      cases hNext : rest.next? with
      | none =>
          rw [Slices.toList_of_none hNext] at hShows
          exact ⟨⟨hLink, a, hCodec⟩, rfl, hShows⟩
      | some next =>
          rw [Slices.toList_of_next hNext] at hShows
          exact ⟨⟨hLink, a, hCodec⟩, rfl, hShows⟩
  | writing rest f =>
      simp only [todo] at hShows
      subst hLink
      have hWrite :=
        FrameWrite.step_shows c why policy now (x := f)
          (l := e.link) ⟨e.link.1, .busy s why rest.toList⟩
          hShows rfl (.wrote _ s why f.frame rest.toList)
          (fun answer hVain =>
            .wroteInVain _ s why f.frame rest.toList hVain)
      simp only [step]
      rcases hStep :
          FrameWrite.step (c.taped A why) policy e.link now f t
        with ⟨r, t'⟩
      rw [hStep] at hWrite
      rcases r with f' | f' | (err | u)
      · rw [← hWrite.1] at hWrite
        exact ⟨⟨rfl, a, hCodec⟩, rfl, hWrite.2⟩
      · rw [← hWrite.1] at hWrite
        exact leaves_waiting c now ⟨rfl, a, hCodec⟩ hWrite.2
      · exact ⟨⟨rfl, a, hCodec⟩, hWrite.1, _, hWrite.2⟩
      · exact ⟨⟨rfl, a, hCodec⟩, rfl, hWrite⟩
  | reading asked =>
      simp only [todo] at hShows
      simp only [step]
      rw [Connector.taped_event]
      rcases c.event asked e.link.2 t.world with ⟨r, v⟩
      have hPut := hShows.put v
      rcases r with - | (frame | -)
      · exact leaves_waiting c now ⟨hLink, a, hCodec⟩
          hPut.nothing
      · exact leaves_receive c _ ⟨hLink, a, hCodec⟩
          (hPut.note (.heard _ e.link.1 why (.data frame)) rfl)
          frame
      · exact ⟨⟨hLink, a, hCodec⟩, by simp, _,
          hPut.note (.heard _ e.link.1 why .lost) rfl⟩

/- Watching a link writes nothing. -/
theorem Watch.step_shows
    (asked : Asked)
    (e : HostEnd (Nat × L))
    {t : Taped W A}
    {w : Wire}
    (hShows : t.Shows c.profile c.handshake w) :
    (Watch.step (c.taped A .watch) asked e t).2.Shows
      c.profile c.handshake w := by
  unfold Watch.step
  rw [Connector.taped_event]
  rcases c.event asked e.link.2 t.world with ⟨r, v⟩
  have hPut := hShows.put v
  rcases r with - | (frame | -)
  · exact hPut.nothing
  · exact hPut.note (.heard _ e.link.1 .watch (.data frame)) rfl
  · exact hPut.note (.heard _ e.link.1 .watch .lost) rfl

------------------------------------------------------------
-- Bringing Up Links
------------------------------------------------------------

/- What an attempt to bring up a link makes of the wire. -/
def Attempt.Uses (h : Handshake) :
    Attempt (Nat × L) → Wire → Prop
  | .settingUp e x, w =>
      ∃ written, x.Asks h written ∧
        w = ⟨e.link.1, .setup written⟩
  | _, w => w.usage = .off

/-
  What a step of bringing up a link leaves: a link that is
  being set up, or is greeted and settled, or none at all.
-/
def BringUp.Leaves :
    Turn (BringUp (Nat × L)) (Ending (Nat × L)) ×
        Connection × Taped W A → Prop
  | (.done (.linked e), _, t) =>
      t.Shows c.profile c.handshake
          ⟨e.link.1, .setup c.handshake.greeting⟩ ∧
        ∃ s a, e.codec = some (s, a) ∧ s.profile = c.profile
  | (.done .expired, _, t) =>
      ∃ n, t.Shows c.profile c.handshake ⟨n, .off⟩
  | (.go x, _, t) =>
      ∃ w, x.attempt.Uses c.handshake w ∧
        t.Shows c.profile c.handshake w
  | (.wait x, _, t) =>
      ∃ w, x.attempt.Uses c.handshake w ∧
        t.Shows c.profile c.handshake w

theorem BringUp.attemptStep_shows
    (now : Nat)
    {x : BringUp (Nat × L)}
    (k : Connection)
    {t : Taped W A}
    {w : Wire}
    (hUses : x.attempt.Uses c.handshake w)
    (hShows : t.Shows c.profile c.handshake w) :
    Leaves c (x.attemptStep (c.taped A .setup) now k t) := by
  rcases x with ⟨deadline, number, attempt⟩
  cases attempt with
  | reaching asked =>
      simp only [attemptStep]
      rw [Connector.taped_reach]
      rcases c.reach asked t.world with ⟨r, v⟩
      rcases r with - | (- | -)
      · exact ⟨w, hUses, hShows.put v⟩
      · exact ⟨w, hUses, hShows.put v⟩
      · exact ⟨w, hUses, hShows.put v⟩
  | fallingBack due =>
      simp only [attemptStep, Turn.pause]
      by_cases hDue : due ≤ now
      · simp only [if_pos hDue]
        exact ⟨w, hUses, hShows⟩
      · simp only [if_neg hDue]
        exact ⟨w, hUses, hShows⟩
  | connecting asked =>
      simp only [attemptStep, Connector.taped]
      rcases c.connect asked t.world with ⟨r, v⟩
      rcases r with - | (e | l)
      · exact ⟨w, hUses, hShows.put v⟩
      · exact ⟨w, hUses, hShows.put v⟩
      · rcases w with ⟨n, usage⟩
        cases hUses
        have hOpened : t.opened = n := hShows.opened
        refine ⟨⟨t.opened + 1, .setup []⟩, ⟨[], rfl, rfl⟩, ?_,
          rfl⟩
        rw [hOpened]
        exact hShows.trace.concat (.opened n)
  | settingUp e y =>
      rcases hUses with ⟨written, hAsks, rfl⟩
      have hSetup :=
        Setup.step_shows c (.ofSettings k.settings)
          k.settings.mtuHandshakeTimeout.toNat now hShows hAsks
      have hLink :=
        Setup.step_link (c.taped A .setup)
          (.ofSettings k.settings)
          k.settings.mtuHandshakeTimeout.toNat now y e t
      simp only [attemptStep]
      generalize
        Setup.step (c.taped A .setup) _ _ now y e t = result
        at hSetup hLink ⊢
      rcases result with ⟨r, e', t'⟩
      dsimp only at hLink
      rw [← hLink] at hSetup
      rcases r with y' | y' | (err | u)
      · rcases hSetup with ⟨written', hAsks', hShows'⟩
        exact ⟨_, ⟨written', hAsks', rfl⟩, hShows'⟩
      · rcases hSetup with ⟨written', hAsks', hShows'⟩
        exact ⟨_, ⟨written', hAsks', rfl⟩, hShows'⟩
      · rcases hSetup with ⟨written', hShows'⟩
        dsimp only
        rw [Connector.taped_close]
        exact ⟨⟨e'.link.1, .off⟩, rfl,
          (hShows'.put _).note (.shut _ written') rfl⟩
      · exact hSetup
  | pausing due =>
      simp only [attemptStep, Turn.pause]
      by_cases hDue : due ≤ now
      · simp only [if_pos hDue, again]
        split <;> exact ⟨w, hUses, hShows⟩
      · simp only [if_neg hDue]
        exact ⟨w, hUses, hShows⟩
  | overflowed => exact ⟨w, hUses, hShows⟩

/- Giving an attempt up leaves no link. -/
theorem BringUp.abort_shows
    {x : BringUp (Nat × L)}
    {t : Taped W A}
    {w : Wire}
    (hUses : x.attempt.Uses c.handshake w)
    (hShows : t.Shows c.profile c.handshake w) :
    ∃ n,
      (x.abort (c.taped A .setup) t).Shows c.profile c.handshake
        ⟨n, .off⟩ := by
  rcases x with ⟨deadline, number, attempt⟩
  rcases w with ⟨n, usage⟩
  cases attempt with
  | settingUp e y =>
      rcases hUses with ⟨written, hAsks, hWire⟩
      cases hWire
      simp only [abort]
      rw [Connector.taped_close]
      exact ⟨_, (hShows.put _).note (.shut _ written) rfl⟩
  | _ =>
      cases hUses
      exact ⟨n, hShows⟩

theorem BringUp.step_shows
    (now : Nat)
    {x : BringUp (Nat × L)}
    (k : Connection)
    {t : Taped W A}
    {w : Wire}
    (hUses : x.attempt.Uses c.handshake w)
    (hShows : t.Shows c.profile c.handshake w) :
    Leaves c (x.step (c.taped A .setup) now k t) := by
  have hAttempt := attemptStep_shows c now k hUses hShows
  unfold step
  generalize
    x.attemptStep (c.taped A .setup) now k t = result
    at hAttempt ⊢
  rcases result with ⟨r, k', t'⟩
  cases r with
  | go x' => exact hAttempt
  | wait x' =>
      rcases hAttempt with ⟨w', hUses', hShows'⟩
      dsimp only
      by_cases hLate : x'.deadline ≤ now
      · rw [if_pos hLate]
        exact abort_shows c hUses' hShows'
      · rw [if_neg hLate]
        exact ⟨w', hUses', hShows'⟩
  | done ending => exact hAttempt

end Machines

end DeviceSession
