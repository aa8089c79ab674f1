import DeviceSession.Proofs.Apdu.ReadBack

/-
  Fields that are written as a whole or not at all.

  A field is refused if its text is invalid, or if there is
  less room left than its bytes take, the count included.
  Then one error is noted, and the payload is as it was, so
  later fields that fit are still taken.  The payload is what
  was taken, in order.

  A counted field is written in two parts, the count before
  the rest.  It has been seen to that both of them fit, so
  there is never a count without what it counts.

  Key definitions include:
    * `Hex.IsMarked`
    * `Field.Valid`
    * `Field.bytes`
    * `Field.objection`
    * `Draft`
    * `Draft.write`
    * `Builder.Refuses`
    * `Builder.AllOrNothing`
    * `Builder.taken`
    * `Builder.objections`

  Main declarations:
    * `Field.encode_eq`
    * `Builder.draft_add`
    * `Builder.add_allOrNothing`
    * `Builder.addAll_writes`
-/

------------------------------------------------------------
-- Texts of Hex Digits
------------------------------------------------------------

namespace DeviceSession

namespace Hex

/- A digit of either case. -/
def IsDigit (c : Char) : Prop :=
  ('0' ≤ c ∧ c ≤ '9') ∨ ('a' ≤ c ∧ c ≤ 'f') ∨
    ('A' ≤ c ∧ c ≤ 'F')

instance (c : Char) : Decidable (IsDigit c) := by
  unfold IsDigit
  infer_instance

/- A text without the mark of hex digits, if it has one. -/
def unmarked : List Char → List Char
  | '0' :: 'x' :: rest => rest
  | text => text

/- Digits that make up whole bytes, after one mark at most. -/
def IsMarked (text : List Char) : Prop :=
  (unmarked text).length % 2 = 0 ∧
    ∀ c ∈ unmarked text, IsDigit c

instance (text : List Char) : Decidable (IsMarked text) :=
  decidable_of_iff
    ((unmarked text).length % 2 = 0 ∧
      (unmarked text).all fun c => decide (IsDigit c))
    (by simp [IsMarked])

theorem isSome_nibble? (c : Char) :
    (nibble? c).isSome = true ↔ IsDigit c := by
  have hLe : ∀ d : Char, (d ≤ c ↔ d.toNat ≤ c.toNat) ∧
      (c ≤ d ↔ c.toNat ≤ d.toNat) :=
    fun d => ⟨Iff.rfl, Iff.rfl⟩
  unfold nibble? IsDigit
  simp only [(hLe _).1, (hLe _).2, Char.reduceToNat]
  grind

/- The induction is on pairs of digits, as they are read. -/
theorem isSome_decode? (text : List Char) :
    (decode? text).isSome = true ↔
      text.length % 2 = 0 ∧ ∀ c ∈ text, IsDigit c := by
  induction text using decode?.induct with
  | case1 => simp [decode?]
  | case2 c => simp [decode?]
  | case3 hi lo rest ih =>
      have hRead : (decode? (hi :: lo :: rest)).isSome = true ↔
          (nibble? hi).isSome = true ∧
            (nibble? lo).isSome = true ∧
            (decode? rest).isSome = true := by
        cases hHi : nibble? hi <;> cases hLo : nibble? lo <;>
          cases hRest : decode? rest <;>
          simp [decode?, hHi, hLo, hRest]
      have hEven : (hi :: lo :: rest).length % 2 =
          rest.length % 2 := by
        simp only [List.length_cons]
        omega
      rw [hRead, isSome_nibble?, isSome_nibble?, ih, hEven]
      simp only [List.forall_mem_cons]
      grind

theorem decodeMarked?_eq (text : List Char) :
    decodeMarked? text = decode? (unmarked text) := by
  fun_cases unmarked text
  · rfl
  · rename_i hPlain
    exact decodeMarked?.eq_2 text hPlain

theorem isSome_decodeMarked? (text : List Char) :
    (decodeMarked? text).isSome = true ↔ IsMarked text := by
  rw [decodeMarked?_eq, isSome_decode?, IsMarked]

end Hex

------------------------------------------------------------
-- Fields
------------------------------------------------------------

namespace Field

/- Whether the text of a field, if it has one, can be written. -/
def Valid : Field → Prop
  | ascii s | lvAscii s => Text.IsAscii s
  | hex s | lvHex s => Hex.IsMarked s.toList
  | u8 _ | u16 _ | u32 _ | bytes _ | lvBytes _ => True

instance (f : Field) : Decidable f.Valid := by
  cases f <;> unfold Valid <;> infer_instance

/- Whether a byte that counts the others comes first. -/
def isCounted : Field → Bool
  | lvBytes _ | lvAscii _ | lvHex _ => true
  | u8 _ | u16 _ | u32 _ | bytes _ | ascii _ | hex _ => false

/- The bytes of a field apart from that one. -/
def content : Field → List UInt8
  | u8 v => [v]
  | u16 v => Word.bytes16 v
  | u32 v => Word.bytes32 v
  | bytes bs | lvBytes bs => bs
  | ascii s | lvAscii s => Text.utf8 s
  | hex s | lvHex s => (Hex.decodeMarked? s.toList).getD []

/- All bytes of a field. -/
def image (f : Field) : List UInt8 :=
  if f.isCounted then counted f.content else f.content

/- What is wrong with a text that cannot be written. -/
def flaw : Field → BuildError
  | ascii _ | lvAscii _ => .notAscii
  | u8 _ | u16 _ | u32 _ | bytes _ | lvBytes _ | hex _ | lvHex _ =>
      .invalidHex

theorem hexBytes_eq (s : String) :
    hexBytes s =
      if Hex.IsMarked s.toList then
        .ok ((Hex.decodeMarked? s.toList).getD [])
      else
        .error .invalidHex := by
  simp only [← Hex.isSome_decodeMarked?, hexBytes]
  cases Hex.decodeMarked? s.toList <;> rfl

/- A field in a valid text has bytes; one in another has a flaw. -/
theorem encode_eq (f : Field) :
    f.encode = if f.Valid then .ok f.image else .error f.flaw := by
  cases f with
  | u8 v | u16 v | u32 v | bytes bs | lvBytes bs =>
      simp [encode, Valid, image, isCounted, content]
  | ascii s | lvAscii s =>
      simp only [encode, asciiBytes, Valid, image, isCounted,
        content, flaw]
      by_cases hAscii : Text.IsAscii s <;>
        simp [hAscii, Except.map]
  | hex s | lvHex s =>
      simp only [encode, hexBytes_eq, Valid, image, isCounted,
        content, flaw]
      by_cases hMarked : Hex.IsMarked s.toList <;>
        simp [hMarked, Except.map]

end Field

------------------------------------------------------------
-- Heads
------------------------------------------------------------

namespace Apdu

/- The bytes that say what a command asks for. -/
def head (a : Apdu) : List UInt8 :=
  [a.cla, a.ins, a.p1, a.p2]

theorem ext_head
    {a a' : Apdu}
    (hHead : a.head = a'.head)
    (hData : a.data = a'.data) :
    a = a' := by
  cases a
  cases a'
  simp_all [head]

end Apdu

------------------------------------------------------------
-- Drafts
------------------------------------------------------------

/- A payload in writing: bytes so far, and what was refused. -/
structure Draft where
  payload : List UInt8 := []
  errors : List BuildError := []
deriving DecidableEq

namespace Draft

/- The bytes that still fit. -/
def available (d : Draft) : Nat :=
  maxPayload - d.payload.length

def refuse (d : Draft) (e : BuildError) : Draft :=
  { d with errors := d.errors ++ [e] }

/- Append bytes that fit. -/
def push (d : Draft) (bytes : List UInt8) : Draft :=
  if bytes.length ≤ d.available then
    { d with payload := d.payload ++ bytes }
  else
    d.refuse (.dataOverflow bytes.length d.available)

/-
  Append the count of bytes, then the bytes.  There has to be
  a byte that counts them, and room for it and for them.
-/
def pushCounted (d : Draft) (bytes : List UInt8) : Draft :=
  if bytes.length ≤ 255 then
    if bytes.length + 1 ≤ d.available then
      (d.push [UInt8.ofNat bytes.length]).push bytes
    else
      d.refuse (.dataOverflow (bytes.length + 1) d.available)
  else
    d.refuse (.dataOverflow (bytes.length + 1) d.available)

/- Write a field: its text is looked at before anything else. -/
def write (d : Draft) (f : Field) : Draft :=
  if f.Valid then
    if f.isCounted then d.pushCounted f.content
    else d.push f.content
  else
    d.refuse f.flaw

/- The count is not written unless the rest is. -/
theorem pushCounted_eq (d : Draft) (bytes : List UInt8) :
    d.pushCounted bytes = d.push (counted bytes) := by
  have hRoom : d.available ≤ 255 := Nat.sub_le _ _
  by_cases hFits : bytes.length + 1 ≤ d.available
  · have hCount : 1 ≤ d.available := by omega
    have hRest : bytes.length ≤
        ({ d with payload :=
            d.payload ++ [UInt8.ofNat bytes.length] }
          : Draft).available := by
      unfold available at *
      simp only [List.length_append, List.length_singleton]
      omega
    rw [pushCounted, if_pos (by omega), if_pos hFits, push,
      push, List.length_singleton, if_pos hCount, if_pos hRest,
      push, length_counted, if_pos hFits]
    simp [counted]
  · rw [pushCounted, if_neg hFits, ite_self, push, length_counted,
      if_neg hFits]

theorem write_eq (d : Draft) (f : Field) :
    d.write f =
      if f.Valid then d.push f.image else d.refuse f.flaw := by
  unfold write Field.image
  rw [pushCounted_eq]
  cases f.isCounted <;> rfl

end Draft

------------------------------------------------------------
-- One Field
------------------------------------------------------------

namespace Builder

/- What has been written, and what was refused. -/
def draft (b : Builder) : Draft :=
  ⟨b.apdu.data, b.errors⟩

theorem add_eq (b : Builder) (f : Field) :
    b.add f =
      if f.Valid then b.push f.image else b.refuse f.flaw := by
  rw [add, f.encode_eq]
  by_cases hValid : f.Valid
  · rw [if_pos hValid, if_pos hValid]
  · rw [if_neg hValid, if_neg hValid]

theorem draft_push (b : Builder) (bytes : List UInt8) :
    (b.push bytes).draft = b.draft.push bytes := by
  by_cases hRoom : bytes.length ≤ b.available
  · have hRoom' : bytes.length ≤ b.draft.available := hRoom
    rw [push, dif_pos hRoom, Draft.push, if_pos hRoom']
    rfl
  · have hRoom' : ¬ bytes.length ≤ b.draft.available := hRoom
    rw [push, dif_neg hRoom, Draft.push, if_neg hRoom']
    rfl

/- Adding a field is writing it part by part. -/
theorem draft_add (b : Builder) (f : Field) :
    (b.add f).draft = b.draft.write f := by
  rw [Draft.write_eq, add_eq]
  by_cases hValid : f.Valid
  · rw [if_pos hValid, if_pos hValid, draft_push]
  · rw [if_neg hValid, if_neg hValid]
    rfl

theorem draft_addAll (b : Builder) (fs : List Field) :
    (b.addAll fs).draft = fs.foldl Draft.write b.draft := by
  induction fs generalizing b with
  | nil => rfl
  | cons f fs ih => rw [addAll, List.foldl_cons, List.foldl_cons,
      ← draft_add, ← ih, addAll]

/- A field is refused if an error is noted when it is added. -/
def Refuses (b : Builder) (f : Field) : Prop :=
  (b.add f).errors ≠ b.errors

instance (b : Builder) (f : Field) : Decidable (b.Refuses f) := by
  unfold Refuses
  infer_instance

/- Why a field cannot be added, if it cannot. -/
def objection (b : Builder) (f : Field) : BuildError :=
  if f.Valid then .dataOverflow f.image.length b.available
  else f.flaw

/-
  How a field is added.  It is refused exactly if its text is
  invalid or all its bytes together do not fit; what was
  refused before makes no difference.  A field that is taken
  is appended as a whole.  One that is refused leaves the
  command as it is, and one error.
-/
structure AllOrNothing (b : Builder) (f : Field) : Prop where
  refused_iff :
    b.Refuses f ↔ ¬ f.Valid ∨ b.available < f.image.length
  head : (b.add f).apdu.head = b.apdu.head
  taken :
    ¬ b.Refuses f →
      (b.add f).apdu.data = b.apdu.data ++ f.image ∧
      (b.add f).errors = b.errors
  refused :
    b.Refuses f →
      (b.add f).apdu = b.apdu ∧
      (b.add f).errors = b.errors ++ [b.objection f]

variable {b : Builder} {f : Field}

/- A field that can be taken. -/
theorem add_of_fits
    (hValid : f.Valid)
    (hRoom : f.image.length ≤ b.available) :
    (b.add f).errors = b.errors ∧
    (b.add f).apdu.data = b.apdu.data ++ f.image ∧
    (b.add f).apdu.head = b.apdu.head := by
  rw [add_eq, if_pos hValid, push, dif_pos hRoom]
  exact ⟨rfl, rfl, rfl⟩

/- A field that cannot. -/
theorem add_of_not_fits
    (hBad : ¬ f.Valid ∨ b.available < f.image.length) :
    b.add f = b.refuse (b.objection f) := by
  rw [add_eq, objection]
  by_cases hValid : f.Valid
  · have hLong : ¬ f.image.length ≤ b.available := by
      have := hBad.resolve_left (not_not_intro hValid)
      omega
    rw [if_pos hValid, if_pos hValid, push, dif_neg hLong]
  · rw [if_neg hValid, if_neg hValid]

theorem add_allOrNothing (b : Builder) (f : Field) :
    b.AllOrNothing f := by
  by_cases hBad : ¬ f.Valid ∨ b.available < f.image.length
  · have hAdd := add_of_not_fits hBad
    have hRefuses : b.Refuses f := by
      rw [Refuses, hAdd]
      simp [refuse]
    exact {
      refused_iff := iff_of_true hRefuses hBad
      head := by rw [hAdd]; rfl
      taken := fun hTaken => absurd hRefuses hTaken
      refused := fun _ => by rw [hAdd]; exact ⟨rfl, rfl⟩ }
  · have hValid : f.Valid :=
      Decidable.byContradiction fun hNot => hBad (.inl hNot)
    have hRoom : f.image.length ≤ b.available :=
      Nat.le_of_not_lt fun hLong => hBad (.inr hLong)
    obtain ⟨hErrors, hData, hHead⟩ := add_of_fits hValid hRoom
    exact {
      refused_iff :=
        iff_of_false (fun hRefuses => hRefuses hErrors) hBad
      head := hHead
      taken := fun _ => ⟨hData, hErrors⟩
      refused := fun hRefuses => absurd hErrors hRefuses }

------------------------------------------------------------
-- Fields in Turn
------------------------------------------------------------

/- The fields that are taken when fields are added in turn. -/
def taken : Builder → List Field → List Field
  | _, [] => []
  | b, f :: fs =>
      if b.Refuses f then taken (b.add f) fs
      else f :: taken (b.add f) fs

/- Why the others are refused. -/
def objections : Builder → List Field → List BuildError
  | _, [] => []
  | b, f :: fs =>
      if b.Refuses f then
        b.objection f :: objections (b.add f) fs
      else
        objections (b.add f) fs

theorem taken_sublist (b : Builder) (fs : List Field) :
    (b.taken fs).Sublist fs := by
  induction fs generalizing b with
  | nil => exact List.Sublist.refl []
  | cons f fs ih =>
      rw [taken]
      split
      · exact (ih _).cons f
      · exact (ih _).cons_cons f

/- Nothing is objected to exactly if everything is taken. -/
theorem objections_eq_nil_iff (b : Builder) (fs : List Field) :
    b.objections fs = [] ↔ b.taken fs = fs := by
  induction fs generalizing b with
  | nil => exact iff_of_true rfl rfl
  | cons f fs ih =>
      rw [objections, taken]
      split
      · have hShorter : taken (b.add f) fs ≠ f :: fs := by
          intro hAll
          have hLength := (taken_sublist (b.add f) fs).length_le
          rw [hAll, List.length_cons] at hLength
          omega
        exact iff_of_false (List.cons_ne_nil _ _) hShorter
      · rw [ih, List.cons_inj_right]

/-
  The induction is on the fields, from any builder on: each
  of them is taken or refused by what has been written up to
  there.
-/
theorem addAll_eq (b : Builder) (fs : List Field) :
    (b.addAll fs).apdu.head = b.apdu.head ∧
    (b.addAll fs).apdu.data =
      b.apdu.data ++ (b.taken fs).flatMap Field.image ∧
    (b.addAll fs).errors = b.errors ++ b.objections fs := by
  induction fs generalizing b with
  | nil => simp [addAll, taken, objections]
  | cons f fs ih =>
      have hFirst := b.add_allOrNothing f
      obtain ⟨hHead, hData, hErrors⟩ := ih (b.add f)
      have hAll : b.addAll (f :: fs) = (b.add f).addAll fs := rfl
      rw [hAll, hHead, hData, hErrors, taken, objections]
      refine ⟨hFirst.head, ?_⟩
      split
      next hRefuses =>
        obtain ⟨hSame, hNoted⟩ := hFirst.refused hRefuses
        rw [hSame, hNoted, List.append_assoc,
          List.singleton_append]
        exact ⟨rfl, rfl⟩
      next hTaken =>
        obtain ⟨hMore, hSame⟩ := hFirst.taken hTaken
        rw [hMore, hSame, List.append_assoc, List.flatMap_cons]
        exact ⟨rfl, rfl⟩

theorem build_eq_error_iff (b : Builder) (e : BuildError) :
    b.build = .error e ↔ b.errors.head? = some e := by
  unfold build
  cases b.errors <;> simp

/-
  Fields are added in turn, to a command without a payload.

  Each is taken as a whole or refused as a whole, whatever
  came before it.  The payload is what was taken, in order,
  and never too long.  There is one error for each field that
  was refused.  Writing the fields part by part, with the
  count of a counted field first, comes to the same.

  The command can be built exactly if all fields were taken.
  Otherwise building tells the first error.
-/
theorem addAll_writes
    (cla ins p1 p2 : UInt8)
    (fs : List Field) :
    let start := ofHeader cla ins p1 p2
    let b := start.addAll fs
    let payload := (start.taken fs).flatMap Field.image
    (∀ f, b.AllOrNothing f) ∧
    payload.length ≤ maxPayload ∧
    b.draft = ⟨payload, start.objections fs⟩ ∧
    b.draft = fs.foldl Draft.write {} ∧
    (∀ a,
      b.build = .ok a ↔
        start.taken fs = fs ∧
        a.head = [cla, ins, p1, p2] ∧
        a.data = payload) ∧
    (∀ e,
      b.build = .error e ↔
        (start.objections fs).head? = some e) := by
  intro start b payload
  obtain ⟨hHead, hData, hErrors⟩ := addAll_eq start fs
  have hPayload : b.apdu.data = payload := hData
  have hNoted : b.errors = start.objections fs := hErrors
  refine ⟨b.add_allOrNothing, ?_, ?_, ?_, ?_, ?_⟩
  · exact hPayload ▸ b.apdu.data_le
  · rw [draft, hPayload, hNoted]
  · exact draft_addAll start fs
  · intro a
    rw [build_eq_ok_iff, hNoted, objections_eq_nil_iff]
    refine and_congr_right fun _ => ⟨?_, ?_⟩
    · rintro rfl
      exact ⟨hHead, hPayload⟩
    · rintro ⟨hHead', hPayload'⟩
      exact Apdu.ext_head (hHead.trans hHead'.symm)
        (hPayload.trans hPayload'.symm)
  · intro e
    rw [build_eq_error_iff, hNoted]

/-
  A counted field of 254 bytes takes up the whole payload, so
  one byte before it leaves no room; the byte after it fits.
-/
example :
    let fs := [.u8 1, .lvBytes (List.replicate 254 0), .u8 2]
    (ofHeader 0 0 0 0).taken fs = [.u8 1, .u8 2] ∧
    (ofHeader 0 0 0 0).objections fs =
      [.dataOverflow 255 254] := by
  decide +kernel

end Builder

end DeviceSession
