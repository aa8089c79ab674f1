import DeviceSession.Connection.Driver
import DeviceSession.Device.Emulator

/-
  What host and device say to each other.

  A device that answers at once is told by a function of its
  state.  The requests alone then fix all that is said: each
  request is one exchange, with a question about the running
  app after it when its response may restart the link.

  Key definitions include:
    * `Handler.Prompt`
    * `Dialogue.replies`
    * `Dialogue.transcript`
    * `Dialogue.Proper`

  Main declarations:
    * `Dialogue.Proper.answers_eq`
    * `Dialogue.Proper.transcript_eq`
    * `Dialogue.Proper.log_begins`
-/

------------------------------------------------------------
-- Prompt Devices
------------------------------------------------------------

namespace DeviceSession

/- How a device answers a command, and its state then. -/
abbrev Manner (H : Type) :=
  Apdu → H → Response × H

/-
  The device answers each command on its first link at once,
  and what it says fits into a message.
-/
structure Handler.Prompt
    {H : Type}
    (h : Handler H)
    (f : Manner H) : Prop where
  handle_eq : ∀ a x hub,
    h.handle a 1 x hub = (.respond (f a x).1, (f a x).2, hub)
  length_le : ∀ a x, (f a x).1.data.length ≤ 65533

/- A command and the response to it. -/
abbrev Exchanged :=
  Apdu × Response

------------------------------------------------------------
-- Transcripts
------------------------------------------------------------

namespace Dialogue

variable {H : Type}

/- What is said for a request. -/
def exchanges
    (f : Manner H)
    (r : Request)
    (x : H) : List Exchanged :=
  let (y, x) := f r.apdu x
  let a := Command.getApp.apdu
  if Driver.triggers r y then [(r.apdu, y), (a, (f a x).1)]
  else [(r.apdu, y)]

/- The device after all that is said for a request. -/
def after (f : Manner H) (r : Request) (x : H) : H :=
  let (y, x) := f r.apdu x
  if Driver.triggers r y then (f Command.getApp.apdu x).2
  else x

/- The responses to a list of requests. -/
def replies
    (f : Manner H) :
    List Request → H → List Response
  | [], _ => []
  | r :: rs, x => (f r.apdu x).1 :: replies f rs (after f r x)

/- All that is said for a list of requests. -/
def transcript
    (f : Manner H) :
    List Request → H → List Exchanged
  | [], _ => []
  | r :: rs, x =>
      exchanges f r x ++ transcript f rs (after f r x)

/- The device after a list of requests. -/
def final (f : Manner H) (rs : List Request) (x : H) : H :=
  rs.foldl (fun x r => after f r x) x

/- A device replies to requests one after another. -/
theorem replies_append
    (f : Manner H)
    (rs rs' : List Request)
    (x : H) :
    replies f (rs ++ rs') x =
      replies f rs x ++ replies f rs' (final f rs x) := by
  induction rs generalizing x with
  | nil => rfl
  | cons r rs ih =>
      simp only [List.cons_append, replies, final,
        List.foldl_cons]
      rw [ih, final]

/- So does it log them. -/
theorem transcript_append
    (f : Manner H)
    (rs rs' : List Request)
    (x : H) :
    transcript f (rs ++ rs') x =
      transcript f rs x ++ transcript f rs' (final f rs x) := by
  induction rs generalizing x with
  | nil => rfl
  | cons r rs ih =>
      simp only [List.cons_append, transcript, final,
        List.foldl_cons]
      rw [ih, final, List.append_assoc]

/- Each is replied to once. -/
theorem length_replies
    (f : Manner H)
    (rs : List Request)
    (x : H) :
    (replies f rs x).length = rs.length := by
  induction rs generalizing x with
  | nil => rfl
  | cons r rs ih =>
      rw [replies, List.length_cons, List.length_cons, ih]

end Dialogue

------------------------------------------------------------
-- Dialogues
------------------------------------------------------------

/- What has been said up to some point. -/
structure Dialogue (H : Type) where
  /- The requests that have been answered. -/
  served : List Request := []
  answers : List Response := []
  log : List Exchanged := []
  device : H
  /- The device is to be asked which app is running. -/
  owes : Bool := false

namespace Dialogue

variable {H : Type}

/- The command for a request, or the question of a check. -/
def command : Option Request → Apdu
  | some r => r.apdu
  | none => Command.getApp.apdu

/- One exchange more, for a request or for a check. -/
def next
    (f : Manner H)
    (t : Dialogue H)
    (r? : Option Request) : Dialogue H :=
  let a := command r?
  let (y, x) := f a t.device
  { served := t.served ++ r?.toList
    answers := t.answers ++ (r?.map fun _ => y).toList
    log := t.log ++ [(a, y)]
    device := x
    owes := r?.any fun r => Driver.triggers r y }

/- Checks are made when they are owed, and not otherwise. -/
inductive Proper
    (f : Manner H)
    (x : H) : Dialogue H → Prop where
  | start : Proper f x { device := x }
  | next
      {t : Dialogue H}
      (before : Proper f x t)
      {r? : Option Request}
      (owes_eq : t.owes = r?.isNone) :
      Proper f x (t.next f r?)

/- What is said up to the next point without a debt. -/
def paid (f : Manner H) (t : Dialogue H) : Dialogue H :=
  if t.owes then t.next f none else t

/- Once its debts are paid, a dialogue is in step. -/
theorem Proper.paid_eq
    {f : Manner H}
    {x : H}
    {t : Dialogue H}
    (hProper : Proper f x t) :
    t.answers = replies f t.served x ∧
      (t.paid f).log = transcript f t.served x ∧
      (t.paid f).device = final f t.served x := by
  induction hProper with
  | start => exact ⟨rfl, rfl, rfl⟩
  | @next t _ r? hOwes ih =>
      rcases ih with ⟨hAnswers, hLog, hDevice⟩
      cases r? with
      | none =>
          have hOwes : t.owes = true := hOwes
          have hPaid :
              (t.next f none).paid f = t.paid f := by
            rw [paid, if_neg (by simp [Dialogue.next]), paid,
              if_pos hOwes]
          rw [hPaid]
          simpa [Dialogue.next] using
            ⟨hAnswers, hLog, hDevice⟩
      | some r =>
          rw [paid, if_neg (by simp [hOwes])] at hLog hDevice
          have hAfter :
              ((t.next f (some r)).paid f).log =
                  t.log ++ exchanges f r t.device ∧
                ((t.next f (some r)).paid f).device =
                  after f r t.device := by
            by_cases hTriggers :
                Driver.triggers r (f r.apdu t.device).1 = true
            <;> simp [paid, Dialogue.next, command, exchanges,
              after, hTriggers]
          have hServed :
              (t.next f (some r)).served = t.served ++ [r] :=
            rfl
          have hReplies :
              (t.next f (some r)).answers =
                t.answers ++ [(f r.apdu t.device).1] := rfl
          rw [hServed, hReplies, hAfter.1, hAfter.2,
            replies_append, transcript_append, hAnswers, hLog,
            hDevice]
          refine ⟨rfl, ?_, ?_⟩
          · simp [transcript]
          · simp [final]

variable {f : Manner H} {x : H} {t : Dialogue H}

/- The answers are those of the device, in order. -/
theorem Proper.answers_eq
    (hProper : Proper f x t) :
    t.answers = replies f t.served x :=
  hProper.paid_eq.1

/- There is one for each request that was served. -/
theorem Proper.length_answers
    (hProper : Proper f x t) :
    t.answers.length = t.served.length := by
  rw [hProper.answers_eq, length_replies]

/- All is said when nothing is owed. -/
theorem Proper.transcript_eq
    (hProper : Proper f x t)
    (hOwes : t.owes = false) :
    t.log = transcript f t.served x := by
  have hLog := hProper.paid_eq.2.1
  rwa [paid, if_neg (by simp [hOwes])] at hLog

/- What has been said is how the transcript begins. -/
theorem Proper.log_begins
    (hProper : Proper f x t)
    (rs : List Request) :
    t.log <+: transcript f (t.served ++ rs) x := by
  have hPaid : t.log <+: (t.paid f).log := by
    unfold paid
    split
    · exact List.prefix_append _ _
    · exact List.prefix_rfl
  rw [hProper.paid_eq.2.1] at hPaid
  rw [transcript_append]
  exact hPaid.trans (List.prefix_append _ _)

end Dialogue

end DeviceSession
