import DeviceSession.Proofs.Faultless.Attendance
import DeviceSession.Proofs.Faultless.Inquiry
import DeviceSession.Proofs.Run.Scenario

/-
  One exchange on a faultless link, step by step.

  The frames of the command go down, and then the frames of
  the response come up.  Each step but a wait brings the end
  nearer, and the two sides never both wait: a side without
  room has frames that the other one can take.

  Key definitions include:
    * `Turn.isWait`
    * `Passage`
    * `Rest`
    * `Passage.Nears`
    * `Passage.Ends`

  Main declarations:
    * `Passage.device_step`
    * `Passage.host_step`
    * `Passage.moves`
-/

------------------------------------------------------------
-- Passages
------------------------------------------------------------

namespace DeviceSession

/- Whether a machine waits for something else to change. -/
def Turn.isWait {S R : Type} : Turn S R → Bool
  | .wait _ => true
  | _ => false

variable {H : Type}

/- The response to a request, or to a check. -/
def Dialogue.reply
    (f : Manner H)
    (t : Dialogue H)
    (r? : Option Request) : Response :=
  (f (command r?) t.device).1

/-
  An exchange under way after a dialogue, and how many steps
  are left for the two sides together.
-/
inductive Passage
    (f : Manner H)
    (m : UInt8)
    (s : Slicer)
    (t : Dialogue H)
    (r? : Option Request)
    (x : Exchange)
    (a : Assembler) :
    Emulator H × PipeHub → Nat → Prop where
  /- The command goes down. -/
  | asking
      {j : Array JournalLine}
      {p : Emulator.Phase}
      {b : Assembler}
      {down : List (List UInt8)}
      {taken : Nat}
      (profile_eq : b.profile = .ble)
      (sends :
        Emulator.Sends (JournalLine.ofLog t.log) j p [])
      (expects :
        b.Expects (down ++ x.unsent s) x.apdu.encode)
      (plain :
        ∀ frame ∈ down ++ x.unsent s,
          ¬ Mtu.IsSizeFrame frame) :
      Passage f m s t r? x a
        (.tending m t.device j p b,
          .single (.carrying down [] taken) [])
        (p.turns + (x.turns s + (down ++ x.unsent s).length +
          2 * (s.frames (t.reply f r?).encode).length + 1))
  /- The response comes up. -/
  | answering
      {j : Array JournalLine}
      {p : Emulator.Phase}
      {b : Assembler}
      {up frames : List (List UInt8)}
      {taken : Nat}
      (profile_eq : b.profile = .ble)
      (unsent_eq : x.unsent s = [])
      (sends :
        Emulator.Sends (JournalLine.ofLog (t.next f r?).log) j p
          frames)
      (expects :
        a.Expects (up ++ frames) (t.reply f r?).encode)
      (plain :
        ∀ frame ∈ up ++ frames, ¬ Mtu.IsSizeFrame frame) :
      Passage f m s t r? x a
        (.tending m (t.next f r?).device j p b,
          .single (.carrying [] up taken) [])
        (p.turns + (x.turns s + (up ++ frames).length))

/-
  Nothing is on the way after a dialogue; the device may
  have a step left.
-/
inductive Rest
    (m : UInt8)
    (t : Dialogue H) :
    Emulator H × PipeHub → Nat → Prop where
  | mk
      {j : Array JournalLine}
      {p : Emulator.Phase}
      {b : Assembler}
      {taken : Nat}
      (profile_eq : b.profile = .ble)
      (sends :
        Emulator.Sends (JournalLine.ofLog t.log) j p []) :
      Rest m t
        (.tending m t.device j p b,
          .single (.carrying [] [] taken) [])
        p.turns

variable {h : Handler H} {f : Manner H} {m : UInt8}
variable {s : Slicer} {t : Dialogue H} {r? : Option Request}
variable {x : Exchange} {a : Assembler}
variable {w : Emulator H × PipeHub} {n : Nat}

------------------------------------------------------------
-- Steps of the Device
------------------------------------------------------------

theorem JournalLine.ofLog_append
    (log log' : List Exchanged) :
    ofLog (log ++ log') = ofLog log ++ ofLog log' :=
  List.flatMap_append

theorem Passage.device_step
    (hPrompt : h.Prompt f)
    (hSlicer : Slicer.ofMtu .ble m.toNat = .ok s)
    (hCommand : x.apdu = Dialogue.command r?)
    (hProfile : a.profile = .ble)
    (hPassage : Passage f m s t r? x a w n)
    (now : Nat) :
    Emulator.Nears h now (Passage f m s t r? x a) w n := by
  have hKind := Slicer.profile_eq_of_ofMtu hSlicer
  cases hPassage with
  | @answering j p b up frames taken hProfile' hUnsent hSends
      hExpects hPlain =>
      apply hSends.nears (.inr rfl) now
      intro j' p' frames' up' hSends' hFrames
      rw [← hFrames] at hExpects hPlain ⊢
      exact .answering hProfile' hUnsent hSends' hExpects hPlain
  | @asking j p b down taken hProfile' hSends hExpects
      hPlain =>
      by_cases hQuiet : p.turns ≠ 0 ∨ down = []
      · apply hSends.nears hQuiet now
        intro j' p' frames' up' hSends' hFrames
        rcases List.append_eq_nil_iff.mp hFrames with
          ⟨rfl, rfl⟩
        exact .asking hProfile' hSends' hExpects hPlain
      · rw [not_or, Decidable.not_not] at hQuiet
        rcases hQuiet with ⟨hTurns, hSome⟩
        rcases hSends.of_turns_eq_zero hTurns with
          ⟨-, hDeeds, asked, rfl⟩
        rcases List.exists_cons_of_ne_nil hSome with
          ⟨frame, rest, rfl⟩
        rcases Emulator.step_frame t.device j [] taken hPrompt
            hSlicer now asked (hPlain frame List.mem_cons_self)
            hExpects with
          ⟨j', b', hKeeps, hMore | hLast⟩
        · rcases hMore with ⟨hStep, hSame, hExpects'⟩
          refine ⟨_, _, .asking (hKeeps.trans hProfile')
              (.receiving .first (hSame.trans hDeeds))
              hExpects' fun frame' hMem => hPlain frame'
                (List.mem_cons_of_mem _ hMem),
            .inl ⟨hStep, ?_⟩⟩
          simp [Emulator.Phase.turns]
        · rcases hLast with ⟨hStep, hSaid, rfl, hUnsent⟩
          have hDevice :
              (t.next f r?).device = (f x.apdu t.device).2 := by
            rw [hCommand]
            rfl
          have hReply :
              t.reply f r? = (f x.apdu t.device).1 := by
            rw [hCommand]
            rfl
          have hLength :
              (t.reply f r?).encode.length ≤ 65535 := by
            have hData := hPrompt.length_le x.apdu t.device
            rw [hReply, Response.length_encode]
            omega
          have hLog :
              Emulator.deeds j' ++
                  [.responded 1 (t.reply f r?).status 0] =
                JournalLine.ofLog (t.next f r?).log := by
            rw [hSaid, hDeeds, Dialogue.next,
              JournalLine.ofLog_append, hReply, hCommand]
            simp [JournalLine.ofLog, JournalLine.ofExchanged]
          rw [← hDevice, ← hReply] at hStep
          refine ⟨_, _, .answering (hKeeps.trans hProfile')
              hUnsent (.responded (s.frames _) .first _ hLog)
              (a.expects_message s
                (hProfile.trans hKind.symm) hLength)
              (s.not_isSizeFrame (hKind ▸ rfl) _),
            .inl ⟨hStep, ?_⟩⟩
          simp [Emulator.Phase.turns]
          omega

theorem Rest.device_step
    (hRest : Rest m t w n)
    (now : Nat) :
    Emulator.Nears h now (Rest m t) w n := by
  cases hRest with
  | @mk j p b taken hProfile hSends =>
      apply hSends.nears (.inr rfl) now (n := 0)
      intro j' p' frames' up' hSends' hUp
      rcases List.append_eq_nil_iff.mp hUp with ⟨rfl, rfl⟩
      exact .mk hProfile hSends'

------------------------------------------------------------
-- Steps of the Host
------------------------------------------------------------

/- The exchange after a step, with the same deadline. -/
structure Exchange.Continues (x x' : Exchange) : Prop where
  apdu_eq : x'.apdu = x.apdu
  deadline_eq : x'.deadline = x.deadline
  unpaused : x'.Unpaused

/- What is left is told by the frames and the command. -/
theorem Passage.congr
    {x' : Exchange}
    (hPassage : Passage f m s t r? x a w n)
    (hApdu : x'.apdu = x.apdu)
    (hUnsent : x'.unsent s = x.unsent s)
    (hTurns : x'.turns s = x.turns s) :
    Passage f m s t r? x' a w n := by
  cases hPassage with
  | asking hProfile hSends hExpects hPlain =>
      rw [← hUnsent] at hExpects hPlain ⊢
      rw [← hApdu] at hExpects
      rw [← hTurns]
      exact .asking hProfile hSends hExpects hPlain
  | answering hProfile hNone hSends hExpects hPlain =>
      rw [← hTurns]
      exact .answering hProfile (hUnsent.trans hNone) hSends
        hExpects hPlain

/- A step of the host brings the end nearer, or waits. -/
def Passage.Nears
    (f : Manner H)
    (m : UInt8)
    (s : Slicer)
    (t : Dialogue H)
    (r? : Option Request)
    (q : WritePolicy)
    (now : Nat)
    (x : Exchange)
    (a : Assembler)
    (w : Emulator H × PipeHub)
    (n : Nat) : Prop :=
  ∃ x' a' w' n',
    x.Continues x' ∧ a'.profile = .ble ∧
      Passage f m s t r? x' a' w' n' ∧
      (Exchange.step (PipeHub.beside _) q now x
            ⟨1, some (s, a)⟩ w =
          (.go x', ⟨1, some (s, a')⟩, w') ∧
          n' < n ∨
        Exchange.step (PipeHub.beside _) q now x
            ⟨1, some (s, a)⟩ w =
          (.wait x', ⟨1, some (s, a')⟩, w') ∧
          w' = w ∧ n' = n)

/-
  A step of the host is the end: the response is there, and
  nothing is left over.
-/
def Passage.Ends
    (f : Manner H)
    (m : UInt8)
    (s : Slicer)
    (t : Dialogue H)
    (r? : Option Request)
    (q : WritePolicy)
    (now : Nat)
    (x : Exchange)
    (a : Assembler)
    (w : Emulator H × PipeHub)
    (n : Nat) : Prop :=
  ∃ a' w' n',
    a'.profile = .ble ∧ Rest m (t.next f r?) w' n' ∧ n' < n ∧
      Exchange.step (PipeHub.beside _) q now x
          ⟨1, some (s, a)⟩ w =
        (.done (.ok (t.reply f r?)), ⟨1, some (s, a')⟩, w')

section Host

variable {q : WritePolicy} {now : Nat}

/- A host that reads takes a frame, if there is one. -/
theorem Passage.step_reading
    (hTurns : x.turns s = 0)
    (hDue : now < x.deadline)
    (hProfile : a.profile = .ble)
    (hPassage : Passage f m s t r? x a w n) :
    Passage.Nears f m s t r? q now x a w n ∨
      Passage.Ends f m s t r? q now x a w n := by
  rcases Exchange.of_turns_eq_zero hTurns with
    ⟨hUnsent, asked, hPhase⟩
  have hReads (asked' : Asked) :
      x.Continues { x with phase := .reading asked' } :=
    ⟨rfl, rfl, trivial⟩
  have hSame :
      Passage f m s t r? { x with phase := .reading .again } a
        w n :=
    hPassage.congr rfl hUnsent.symm hTurns.symm
  cases hPassage with
  | asking hProfile' hSends hExpects hPlain =>
      exact .inl ⟨_, a, _, _, hReads .again, hProfile, hSame,
        .inr ⟨Exchange.step_reading_nil hPhase hDue, rfl, rfl⟩⟩
  | @answering j p b up frames taken hProfile' _ hSends
      hExpects hPlain =>
      cases up with
      | nil =>
          exact .inl ⟨_, a, _, _, hReads .again, hProfile,
            hSame,
            .inr ⟨Exchange.step_reading_nil hPhase hDue, rfl,
              rfl⟩⟩
      | cons frame up =>
          have hHead := hPlain frame List.mem_cons_self
          have hTail :
              ∀ frame' ∈ up ++ frames,
                ¬ Mtu.IsSizeFrame frame' :=
            fun frame' hMem =>
              hPlain frame' (List.mem_cons_of_mem _ hMem)
          rcases Exchange.step_reading_cons
              (Emulator.tending m (t.next f r?).device j p b)
              q now s [] up taken hPhase hHead hExpects with
            ⟨a', hKeeps, ⟨hStep, hRest⟩ | ⟨hStep, hNone⟩⟩
          · refine .inl ⟨_, a', _, _, hReads .first,
              hKeeps.trans hProfile,
              .answering hProfile' rfl hSends hRest hTail,
              .inl ⟨hStep, ?_⟩⟩
            rw [hTurns]
            simp [Exchange.turns]
          · rcases List.append_eq_nil_iff.mp hNone with
              ⟨rfl, rfl⟩
            refine .inr ⟨a', _, _, hKeeps.trans hProfile,
              .mk hProfile' hSends, ?_, hStep⟩
            simp

/- A host that writes goes on while there is room. -/
theorem Passage.step_writing
    (hTurns : x.turns s ≠ 0)
    (hUnpaused : x.Unpaused)
    (hDue : now < x.deadline)
    (hProfile : a.profile = .ble)
    (hPassage : Passage f m s t r? x a w n) :
    Passage.Nears f m s t r? q now x a w n := by
  cases hPassage with
  | @asking j p b down taken hProfile' hSends hExpects
      hPlain =>
      rcases Exchange.step_writing
          (Emulator.tending m t.device j p b) q a down []
          taken hUnpaused hDue hTurns with
        ⟨x', a', down', hApdu, hDeadline, hUnpaused', hKeeps,
          -, hFrames, hStep⟩
      rw [← hFrames] at hExpects hPlain ⊢
      rw [← hApdu] at hExpects
      refine ⟨x', a',
        (_, .single (.carrying down' [] taken) []), _,
        ⟨hApdu, hDeadline, hUnpaused'⟩,
        hKeeps.trans hProfile,
        .asking hProfile' hSends hExpects hPlain, ?_⟩
      rcases hStep with ⟨hGo, hLess⟩ | ⟨hWait, hSame, rfl, -⟩
      · exact .inl ⟨hGo, by omega⟩
      · exact .inr ⟨hWait, rfl, by rw [hSame]⟩
  | @answering j p b up frames taken hProfile' hUnsent hSends
      hExpects hPlain =>
      rcases Exchange.step_writing
          (Emulator.tending m (t.next f r?).device j p b) q a
          [] up taken hUnpaused hDue hTurns with
        ⟨x', a', down', hApdu, hDeadline, hUnpaused', hKeeps,
          hSame, hFrames, hStep⟩
      rw [hUnsent] at hFrames
      rcases List.append_eq_nil_iff.mp hFrames with
        ⟨rfl, hUnsent'⟩
      have hSame := hSame hUnsent
      subst hSame
      refine ⟨x', a',
        (_, .single (.carrying [] up taken) []), _,
        ⟨hApdu, hDeadline, hUnpaused'⟩, hKeeps.trans hProfile,
        .answering hProfile' hUnsent' hSends hExpects hPlain,
        ?_⟩
      rcases hStep with ⟨hGo, hLess⟩ | ⟨hWait, hSame, -⟩
      · exact .inl ⟨hGo, by omega⟩
      · exact .inr ⟨hWait, rfl, by rw [hSame]⟩

theorem Passage.host_step
    (hUnpaused : x.Unpaused)
    (hDue : now < x.deadline)
    (hProfile : a.profile = .ble)
    (hPassage : Passage f m s t r? x a w n) :
    Passage.Nears f m s t r? q now x a w n ∨
      Passage.Ends f m s t r? q now x a w n := by
  by_cases hTurns : x.turns s = 0
  · exact hPassage.step_reading hTurns hDue hProfile
  · exact .inl
      (hPassage.step_writing hTurns hUnpaused hDue hProfile)

end Host

------------------------------------------------------------
-- No Deadlock
------------------------------------------------------------

/- A device that a frame is on its way to does not wait. -/
theorem Emulator.Sends.not_isWait_of_down
    (hPrompt : h.Prompt f)
    (hSlicer : Slicer.ofMtu .ble m.toNat = .ok s)
    {said : List JournalLine}
    {y : H}
    {j : Array JournalLine}
    {p : Emulator.Phase}
    {b : Assembler}
    {c : Apdu}
    {down up rest : List (List UInt8)}
    {taken : Nat}
    (hSends : Emulator.Sends said j p [])
    (hExpects : b.Expects (down ++ rest) c.encode)
    (hPlain :
      ∀ frame ∈ down ++ rest, ¬ Mtu.IsSizeFrame frame)
    (hDown : down ≠ [])
    (now : Nat) :
    (Emulator.step h now (.tending m y j p b)
      (.single (.carrying down up taken) [])).1.isWait =
        false := by
  cases hSends with
  | receiving asked =>
      rcases List.exists_cons_of_ne_nil hDown with
        ⟨frame, down, rfl⟩
      rcases Emulator.step_frame y j up taken hPrompt hSlicer
          now asked (hPlain frame List.mem_cons_self)
          hExpects with
        ⟨j', b', -, hMore | hLast⟩
      · rw [hMore.1]
        rfl
      · rw [hLast.1]
        rfl
  | announced => rfl
  | responded => rfl

/- A device that has frames left sends while there is room. -/
theorem Emulator.Sends.not_isWait_of_room
    {said : List JournalLine}
    {y : H}
    {j : Array JournalLine}
    {p : Emulator.Phase}
    {b : Assembler}
    {down up frames : List (List UInt8)}
    {taken : Nat}
    (hSends : Emulator.Sends said j p frames)
    (hSome : frames ≠ [])
    (hRoom : up.length < Pipe.depth)
    (now : Nat) :
    (Emulator.step h now (.tending m y j p b)
      (.single (.carrying down up taken) [])).1.isWait =
        false := by
  have hTurns : p.turns ≠ 0 := fun hZero =>
    hSome (hSends.of_turns_eq_zero hZero).1
  rcases hSends.step h m y b up taken (.inl hTurns) now with
    ⟨_, _, _, _, -, -, ⟨hGo, -⟩ | ⟨-, -, hZero | hFull⟩⟩
  · rw [hGo]
    rfl
  · exact absurd hZero hTurns
  · exact absurd hRoom (Nat.not_lt_of_le hFull)

/- The two sides of an exchange never both wait. -/
theorem Passage.moves
    (hPrompt : h.Prompt f)
    (hSlicer : Slicer.ofMtu .ble m.toNat = .ok s)
    {q : WritePolicy}
    {now : Nat}
    (hUnpaused : x.Unpaused)
    (hDue : now < x.deadline)
    (hPassage : Passage f m s t r? x a w n)
    (now' : Nat) :
    (Exchange.step (PipeHub.beside _) q now x ⟨1, some (s, a)⟩
        w).1.isWait = false ∨
      (Emulator.step h now' w.1 w.2).1.isWait = false := by
  cases hPassage with
  | @asking j p b down taken hProfile hSends hExpects hPlain =>
      -- A full link is not an empty one.
      by_cases hDown : down = []
      · subst hDown
        left
        have hTurns : x.turns s ≠ 0 := by
          intro hZero
          have hNone := (Exchange.of_turns_eq_zero hZero).1
          exact hExpects.ne_nil (by rw [hNone]; rfl)
        rcases Exchange.step_writing
            (Emulator.tending m t.device j p b) q a [] []
            taken hUnpaused hDue hTurns with
          ⟨_, _, _, -, -, -, -, -, -,
            ⟨hGo, -⟩ | ⟨-, -, -, hFull⟩⟩
        · rw [hGo]
          rfl
        · cases hFull
      · right
        exact hSends.not_isWait_of_down hPrompt hSlicer hExpects
          hPlain hDown now'
  | @answering j p b up frames taken hProfile hUnsent hSends
      hExpects hPlain =>
      by_cases hTurns : x.turns s = 0
      · rcases Exchange.of_turns_eq_zero hTurns with
          ⟨-, asked, hPhase⟩
        cases up with
        | nil =>
            right
            have hRoom :
                ([] : List (List UInt8)).length <
                  Pipe.depth := by
              decide
            exact hSends.not_isWait_of_room hExpects.ne_nil
              hRoom now'
        | cons frame up =>
            left
            rcases Exchange.step_reading_cons
                (Emulator.tending m (t.next f r?).device j p b)
                q now s [] up taken hPhase
                (hPlain frame List.mem_cons_self) hExpects with
              ⟨a', -, ⟨hStep, -⟩ | ⟨hStep, -⟩⟩
            all_goals
              rw [hStep]
              rfl
      · left
        rcases Exchange.step_writing
            (Emulator.tending m (t.next f r?).device j p b) q a
            [] up taken hUnpaused hDue hTurns with
          ⟨_, _, _, -, -, -, -, -, -,
            ⟨hGo, -⟩ | ⟨-, -, -, hFull⟩⟩
        · rw [hGo]
          rfl
        · cases hFull

end DeviceSession
