import DeviceSession.Proofs.Apdu.Cursors
import DeviceSession.Proofs.Bytes.Checked

/-
  Cursors as they are stored.

  A stored cursor is data and a number, and nothing keeps the
  number within the data.  Its reads add positions, cut
  slices and look bytes up, all of which may fault, and a
  read that fails halfway puts the number back by itself.

  No sequence of reads faults: each of them answers as the
  cursor does whose position is always within the data.

  Key definitions include:
    * `Cursor`
    * `Cursor.Step`
    * `Cursor.perform`
    * `Cursor.performAll`
    * `Cursor.Serves`

  Main declarations:
    * `Cursor.serves_lv`
    * `Cursor.perform_stored`
    * `Cursor.performAll_stored`
    * `Reader.performAll_wholly`
-/

------------------------------------------------------------
-- Stored Cursors
------------------------------------------------------------

namespace DeviceSession

/- Data, and a number that should lie within them. -/
structure Cursor where
  data : List UInt8
  index : Nat
deriving DecidableEq

namespace Cursor

open Checked

/-
  What is done to a cursor: nothing comes of it if it faults,
  and otherwise an answer and the cursor after it, also if
  the answer is an error.
-/
abbrev Step (α : Type) : Type :=
  ExceptT ShortRead (StateT Cursor Option) α

/- Set the cursor to a position. -/
def moveTo (index : Nat) : Step Unit :=
  modify fun c => { c with index }

/- Put the cursor back if a step fails. -/
def orBackTo {α : Type} (start : Nat) (step : Step α) : Step α :=
  fun c =>
    (step.run c).map fun
      | (.ok a, c') => (.ok a, c')
      | (.error e, c') => (.error e, { c' with index := start })

/- The position `n` bytes on, if it lies within the data. -/
def stop? (c : Cursor) (n : Nat) : Option Nat :=
  (add? c.index n).filter fun stop =>
    stop ≤ c.data.length

/- The next `n` bytes. -/
def bytes (n : Nat) : Step (List UInt8) := do
  let c ← get
  match c.stop? n with
  | none => throw ⟨c.index, n⟩
  | some stop =>
      let out ← slice? c.data c.index stop
      moveTo stop
      return out

def u8 : Step UInt8 := do
  let b ← bytes 1
  b[0]?

def u16 : Step UInt16 := do
  let b ← bytes 2
  return Word.of16 (← b[0]?) (← b[1]?)

def u32 : Step UInt32 := do
  let b ← bytes 4
  return Word.of32 (← b[0]?) (← b[1]?) (← b[2]?) (← b[3]?)

def lv : Step (List UInt8) := do
  let start := (← get).index
  let count ← u8
  orBackTo start (bytes count.toNat)

def lvAscii : Step String := do
  let value ← lv
  return Text.ofAsciiLossy value

def tlv : Step (UInt8 × List UInt8) := do
  let start := (← get).index
  let tag ← u8
  orBackTo start do
    let value ← lv
    return (tag, value)

def rest : Step (List UInt8) := do
  let c ← get
  let out ← slice? c.data c.index c.data.length
  moveTo c.data.length
  return out

/- The number of bytes after the cursor. -/
def remaining? (c : Cursor) : Option Nat :=
  sub? c.data.length c.index

/- Use a stored cursor once. -/
def perform : ReadCall → Step ReadValue
  | .u8 => do return .number (← u8).toNat
  | .u16 => do return .number (← u16).toNat
  | .u32 => do return .number (← u32).toNat
  | .bytes n => do return .bytes (← bytes n)
  | .lv => do return .bytes (← lv)
  | .lvAscii => do return .text (← lvAscii)
  | .tlv => do
      let (tag, value) ← tlv
      return .tagged tag value
  | .rest => do return .bytes (← rest)
  | .reset => do
      moveTo 0
      return .none

/-
  Uses in turn, each with the position after it and with the
  number of bytes that are left then.
-/
def performAll :
    List ReadCall → Cursor →
    Option (List (Except ShortRead ReadValue × Nat × Nat) × Cursor)
  | [], c => some ([], c)
  | call :: calls, c => do
      let (answer, c') ← (perform call).run c
      let left ← c'.remaining?
      let (answers, c'') ← performAll calls c'
      return ((answer, c'.index, left) :: answers, c'')

end Cursor

------------------------------------------------------------
-- What They Store
------------------------------------------------------------

/- A cursor as it is stored. -/
def Reader.stored (r : Reader) : Cursor :=
  ⟨r.data, r.position⟩

namespace Cursor

open Checked

variable {α β : Type}

section Run

variable (c : Cursor)

/- What each step of a reading does to the cursor. -/
theorem run_pure (a : α) :
    (pure a : Step α).run c = some (.ok a, c) := rfl

theorem run_get : (get : Step Cursor).run c = some (.ok c, c) := rfl

theorem run_moveTo (i : Nat) :
    (moveTo i).run c = some (.ok (), { c with index := i }) := rfl

theorem run_throw (e : ShortRead) :
    (throw e : Step α).run c = some (.error e, c) := rfl

theorem run_liftM (o : Option α) :
    (liftM o : Step α).run c = o.map fun a => (.ok a, c) := by
  cases o <;> rfl

/- One step after another; an error ends the reading. -/
theorem run_bind (x : Step α) (f : α → Step β) :
    (x >>= f).run c =
      (x.run c).bind fun
        | (.ok a, c') => (f a).run c'
        | (.error e, c') => some (.error e, c') := by
  have hRun : (x >>= f).run c =
      (x.run c).bind fun p => ExceptT.bindCont f p.1 p.2 := rfl
  rw [hRun]
  congr 1
  funext p
  rcases p with ⟨answer, c'⟩
  cases answer <;> rfl

/- A reading that fails goes back to its start. -/
theorem run_orBackTo (start : Nat) (x : Step α) :
    (orBackTo start x).run c =
      (x.run c).map fun
        | (.ok a, c') => (.ok a, c')
        | (.error e, c') =>
            (.error e, { c' with index := start }) := rfl

end Run

/- What a read comes to, with the cursor as it is stored. -/
def kept (r : Reader) :
    Except ShortRead (α × Reader) → Except ShortRead α × Cursor
  | .ok (a, r') => (.ok a, r'.stored)
  | .error e => (.error e, r.stored)

/-
  A step on stored cursors serves a read if it never faults
  and answers as the read does.  The read leaves the data
  alone.
-/
structure Serves
    (step : Step α)
    (read : Reader → Except ShortRead (α × Reader)) : Prop where
  answer :
    ∀ r : Reader, r.data.length < wordSize →
      step.run r.stored = some (kept r (read r))
  data :
    ∀ r a r', read r = .ok (a, r') → r'.data = r.data

/- Too large a sum lies outside the data as well. -/
theorem stop?_stored
    {r : Reader}
    (hWord : r.data.length < wordSize)
    (n : Nat) :
    r.stored.stop? n =
      if r.position + n ≤ r.data.length then
        some (r.position + n)
      else none := by
  unfold stop? add? Reader.stored
  by_cases hFits : r.position + n ≤ r.data.length
  · have hSum := Nat.lt_of_le_of_lt hFits hWord
    simp [hSum, hFits]
  · by_cases hSum : r.position + n < wordSize <;>
      simp [hSum, hFits, Nat.lt_of_not_le hFits]

/- Bytes that are taken are as many as were asked for. -/
theorem of_take
    {r r' : Reader}
    {n : Nat}
    {bs : List UInt8}
    (hTake : r.take n = .ok (bs, r')) :
    bs.length = n ∧ r'.data = r.data := by
  unfold Reader.take at hTake
  split at hTake
  · rename_i hFits
    cases hTake
    refine ⟨?_, rfl⟩
    rw [List.length_take, List.length_drop]
    omega
  · cases hTake

/- Bytes are served if there are enough. -/
theorem serves_bytes (n : Nat) :
    Serves (bytes n) fun r => r.take n where
  answer := by
    intro r hWord
    have hStop := stop?_stored hWord n
    by_cases hFits : r.position + n ≤ r.data.length
    · have hSlice :
          slice? r.stored.data r.stored.index (r.position + n) =
            some ((r.data.drop r.position).take n) :=
        (slice?_of_le (Nat.le_add_right _ _) hFits).trans (by
          rw [Nat.add_sub_cancel_left])
      have hTake : r.take n = _ := dif_pos hFits
      rw [hTake]
      rw [if_pos hFits] at hStop
      simp only [bytes, run_bind, run_get, Option.bind_some, hStop,
        hSlice, run_liftM, Option.map_some, run_moveTo, run_pure]
      rfl
    · have hTake : r.take n = _ := dif_neg hFits
      rw [hTake]
      rw [if_neg hFits] at hStop
      simp only [bytes, run_bind, run_get, Option.bind_some, hStop,
        run_throw]
      rfl
  data := fun _ _ _ hOk => (of_take hOk).2

/-
  What is read may be looked at before it is answered, which
  moves nothing.
-/
theorem Serves.decode
    {step : Step β}
    {read : Reader → Except ShortRead (β × Reader)}
    (hServes : Serves step read)
    {f : β → Step α}
    {g : β → α}
    {read' : Reader → Except ShortRead (α × Reader)}
    (hOk : ∀ r b r', read r = .ok (b, r') →
      read' r = .ok (g b, r') ∧
        ∀ c, (f b).run c = some (.ok (g b), c))
    (hError : ∀ r e, read r = .error e → read' r = .error e) :
    Serves (step >>= f) read' where
  answer := by
    intro r hWord
    rw [run_bind, hServes.answer r hWord, Option.bind_some]
    cases hRead : read r with
    | ok found =>
        rcases found with ⟨b, r'⟩
        rcases hOk r b r' hRead with ⟨hRead', hLook⟩
        rw [hRead']
        exact hLook r'.stored
    | error e =>
        rw [hError r e hRead]
        rfl
  data := by
    intro r a r' hRead'
    cases hRead : read r with
    | ok found =>
        rcases found with ⟨b, r''⟩
        have hFound := (hOk r b r'' hRead).1
        rw [hRead'] at hFound
        cases hFound
        exact hServes.data r b r' hRead
    | error e =>
        rw [hError r e hRead] at hRead'
        cases hRead'

/- A number is read from its bytes. -/
theorem serves_u8 : Serves u8 Reader.u8 := by
  apply (serves_bytes 1).decode (g := fun bs => bs.headD 0)
  · intro r bs r' hTake
    match bs, (of_take hTake).1 with
    | [b], _ =>
      refine ⟨?_, fun c => rfl⟩
      rw [Reader.u8, hTake]
      rfl
  · intro r e hTake
    rw [Reader.u8, hTake]
    rfl

/- So are longer ones. -/
theorem serves_u16 : Serves u16 Reader.u16 := by
  refine (serves_bytes 2).decode
    (g := fun bs => Word.of16 (bs.getD 0 0) (bs.getD 1 0)) ?_ ?_
  · intro r bs r' hTake
    match bs, (of_take hTake).1 with
    | [a, b], _ =>
      refine ⟨?_, fun c => rfl⟩
      rw [Reader.u16, hTake]
      rfl
  · intro r e hTake
    rw [Reader.u16, hTake]
    rfl

/- The longest takes four bytes. -/
theorem serves_u32 : Serves u32 Reader.u32 := by
  refine (serves_bytes 4).decode
    (g := fun bs => Word.of32 (bs.getD 0 0) (bs.getD 1 0)
      (bs.getD 2 0) (bs.getD 3 0)) ?_ ?_
  · intro r bs r' hTake
    match bs, (of_take hTake).1 with
    | [a, b, c, d], _ =>
      refine ⟨?_, fun c => rfl⟩
      rw [Reader.u32, hTake]
      rfl
  · intro r e hTake
    rw [Reader.u32, hTake]
    rfl

/-
  A second part that is missing puts the cursor back to where
  the first one began.
-/
theorem Serves.andThen
    {step : Step β}
    {read : Reader → Except ShortRead (β × Reader)}
    (hFirst : Serves step read)
    {next : β → Step α}
    {readNext : β → Reader → Except ShortRead (α × Reader)}
    (hNext : ∀ b, Serves (next b) (readNext b)) :
    Serves
      (do
        let start := (← get).index
        let b ← step
        orBackTo start (next b))
      (fun r => do
        let (b, r') ← read r
        readNext b r') where
  answer := by
    intro r hWord
    have hAnswer := hFirst.answer r hWord
    simp only [run_bind, run_get, Option.bind_some, hAnswer,
      run_orBackTo]
    cases hRead : read r with
    | error e => rfl
    | ok found =>
        rcases found with ⟨b, r'⟩
        have hData := hFirst.data r b r' hRead
        have hLater := (hNext b).answer r' (hData ▸ hWord)
        simp only [kept, hLater, Option.map_some, bind,
          Except.bind]
        cases readNext b r' with
        | ok _ => rfl
        | error e => simp only [Reader.stored, hData]
  data := by
    intro r a r' hOk
    cases hRead : read r with
    | error e =>
        rw [hRead] at hOk
        cases hOk
    | ok found =>
        rcases found with ⟨b, r''⟩
        rw [hRead] at hOk
        exact ((hNext b).data r'' a r' hOk).trans
          (hFirst.data r b r'' hRead)

/- A length is read, and as many bytes. -/
theorem serves_lv : Serves lv Reader.lv :=
  serves_u8.andThen fun count => serves_bytes count.toNat

/- They may have to be a text. -/
theorem serves_lvAscii : Serves lvAscii Reader.lvAscii := by
  apply serves_lv.decode (g := Text.ofAsciiLossy)
  · intro r bs r' hLv
    refine ⟨?_, fun c => rfl⟩
    rw [Reader.lvAscii, hLv]
    rfl
  · intro r e hLv
    rw [Reader.lvAscii, hLv]
    rfl

/- A tag comes before them. -/
theorem serves_tlv : Serves tlv Reader.tlv := by
  have hValue : ∀ tag : UInt8, Serves
      (do
        let value ← lv
        return (tag, value))
      (fun r => do
        let found ← r.lv
        return ((tag, found.1), found.2)) := by
    intro tag
    apply serves_lv.decode (g := fun value => (tag, value))
    · intro r value r' hLv
      refine ⟨?_, fun c => rfl⟩
      rw [hLv]
      rfl
    · intro r e hLv
      rw [hLv]
      rfl
  exact serves_u8.andThen hValue

/- All that is left can always be read. -/
theorem run_rest (r : Reader) :
    rest.run r.stored = some (.ok r.rest.1, r.rest.2.stored) := by
  have hSlice :
      slice? r.stored.data r.stored.index r.stored.data.length =
        some (r.data.drop r.position) := by
    refine (slice?_of_le r.position_le (Nat.le_refl _)).trans ?_
    exact congrArg some
      (List.take_of_length_le (Nat.le_of_eq List.length_drop))
  simp only [rest, run_bind, run_get, Option.bind_some, hSlice,
    run_liftM, Option.map_some, run_moveTo, run_pure]
  rfl

------------------------------------------------------------
-- Uses in Turn
------------------------------------------------------------

/- A step that serves a read answers with its value. -/
theorem Serves.perform
    {step : Step α}
    {read : Reader → Except ShortRead (α × Reader)}
    (hServes : Serves step read)
    (f : α → ReadValue)
    (r : Reader)
    (hWord : r.data.length < wordSize) :
    (do return f (← step) : Step ReadValue).run r.stored =
      some ((r.settle f (read r)).1,
        (r.settle f (read r)).2.stored) := by
  rw [run_bind, hServes.answer r hWord]
  cases read r <;> rfl

/- A use of a stored cursor never faults, and answers alike. -/
theorem perform_stored
    (c : ReadCall)
    (r : Reader)
    (hWord : r.data.length < wordSize) :
    (perform c).run r.stored =
      some ((r.perform c).1, (r.perform c).2.stored) := by
  cases c with
  | u8 => exact serves_u8.perform _ r hWord
  | u16 => exact serves_u16.perform _ r hWord
  | u32 => exact serves_u32.perform _ r hWord
  | bytes n => exact (serves_bytes n).perform _ r hWord
  | lv => exact serves_lv.perform _ r hWord
  | lvAscii => exact serves_lvAscii.perform _ r hWord
  | tlv => exact serves_tlv.perform _ r hWord
  | rest =>
      rw [perform, run_bind, run_rest]
      rfl
  | reset => rfl

/- The positions of cursors never exceed their data. -/
theorem remaining?_stored (r : Reader) :
    r.stored.remaining? = some r.remaining :=
  if_pos r.position_le

/-
  Uses in turn never fault either.  They answer as those of
  the cursor that cannot leave its data, with the same
  positions, and what is left is what lies behind them.
-/
theorem performAll_stored
    (calls : List ReadCall)
    (r : Reader)
    (hWord : r.data.length < wordSize) :
    performAll calls r.stored =
      some ((r.performAll calls).1.map fun x =>
          (x.1, x.2, r.data.length - x.2),
        (r.performAll calls).2.stored) := by
  induction calls generalizing r with
  | nil => rfl
  | cons call calls ih =>
      have hData := (r.wholeOrNothing_perform call).data
      have hLater := ih (r.perform call).2 (hData ▸ hWord)
      simp only [performAll, perform_stored call r hWord,
        remaining?_stored, hLater, bind, Option.bind, pure,
        Reader.performAll, List.map_cons, Reader.remaining, hData]
      rfl

end Cursor

namespace Reader

/- Calls can be made in parts. -/
theorem performAll_append
    (r : Reader)
    (before after : List ReadCall) :
    r.performAll (before ++ after) =
      let x := r.performAll before
      let y := x.2.performAll after
      (x.1 ++ y.1, y.2) := by
  induction before generalizing r with
  | nil => rfl
  | cons c before ih => simp [performAll, ih]

/- Each call has its answer. -/
theorem length_performAll (r : Reader) (calls : List ReadCall) :
    (r.performAll calls).1.length = calls.length := by
  induction calls generalizing r with
  | nil => rfl
  | cons c calls ih => simp [performAll, ih]

/- Reading leaves the data alone. -/
theorem data_performAll (r : Reader) (calls : List ReadCall) :
    (r.performAll calls).2.data = r.data := by
  induction calls generalizing r with
  | nil => rfl
  | cons c calls ih =>
      exact (ih _).trans (r.wholeOrNothing_perform c).data

/-
  Any uses of a cursor over any data.  The stored cursor
  never faults.  It answers, moves and counts as the one
  whose position is always within the data, and each use of
  that one takes a whole field or nothing.
-/
theorem performAll_wholly
    (data : List UInt8)
    (hWord : data.length < Checked.wordSize)
    (calls : List ReadCall) :
    let run := (ofBytes data).performAll calls
    Cursor.performAll calls ⟨data, 0⟩ =
      some (run.1.map fun x => (x.1, x.2, data.length - x.2),
        run.2.stored) ∧
    ∀ before c after,
      calls = before ++ c :: after →
        let r := ((ofBytes data).performAll before).2
        r.data = data ∧
          run.1[before.length]? =
            some ((r.perform c).1, (r.perform c).2.position) ∧
          r.WholeOrNothing c (r.perform c).1 (r.perform c).2 := by
  intro run
  refine ⟨Cursor.performAll_stored calls (ofBytes data) hWord, ?_⟩
  rintro before c after rfl r
  refine ⟨data_performAll _ before, ?_, r.wholeOrNothing_perform c⟩
  have hRun := performAll_append (ofBytes data) before (c :: after)
  have hLength := length_performAll (ofBytes data) before
  simp only [run, hRun, ← hLength, List.getElem?_append_right,
    Nat.le_refl, Nat.sub_self]
  rfl

end Reader

/- A value of three bytes of which one is there. -/
namespace Truncated

def data : List UInt8 :=
  [7, 3, 0xaa]

def calls : List ReadCall :=
  [.tlv, .u8, .bytes (18446744073709551615), .rest]

theorem tagged_rolled_back :
    data.length < Checked.wordSize ∧
    Cursor.performAll calls ⟨data, 0⟩ =
      some
        ([(.error ⟨2, 3⟩, 0, 3),
          (.ok (.number 7), 1, 2),
          (.error ⟨1, 18446744073709551615⟩, 1, 2),
          (.ok (.bytes [3, 0xaa]), 3, 0)],
        ⟨data, 3⟩) ∧
    (Reader.ofBytes data).WholeOrNothing .tlv (.error ⟨2, 3⟩)
      (Reader.ofBytes data) := by
  have hWord : data.length < Checked.wordSize := by decide
  rcases Reader.performAll_wholly data hWord calls with
    ⟨hRun, hUses⟩
  exact ⟨hWord, hRun, (hUses [] .tlv _ rfl).2.2⟩

end Truncated

end DeviceSession
