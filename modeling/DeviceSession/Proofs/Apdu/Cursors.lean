import DeviceSession.Proofs.Apdu.ReadBack

/-
  Reads that take a whole field or nothing.

  A field is tag, count and value together.  A read finds one
  if all of its bytes lie between the cursor and the end; it
  yields what they stand for and moves past them.  Otherwise
  it says which bytes are missing, and the cursor stays.

  Key definitions include:
    * `ReadCall.Spells`
    * `ReadCall.extent`
    * `ReadCall.Begins`
    * `Reader.after`
    * `Reader.WholeOrNothing`

  Main declarations:
    * `ReadCall.extent_le_iff`
    * `Reader.perform_of_spells`
    * `Reader.perform_of_cut`
    * `Reader.wholeOrNothing_perform`
-/

------------------------------------------------------------
-- Fields
------------------------------------------------------------

namespace DeviceSession

namespace Word

theorem toNat_of16 (a b : UInt8) :
    (of16 a b).toNat = a.toNat * 256 + b.toNat := by
  have hA := a.toNat_lt
  have hB := b.toNat_lt
  rw [of16, UInt16.toNat_ofNat']
  omega

theorem toNat_of32 (a b c d : UInt8) :
    (of32 a b c d).toNat =
      a.toNat * 16777216 + b.toNat * 65536 +
        c.toNat * 256 + d.toNat := by
  have hA := a.toNat_lt
  have hB := b.toNat_lt
  have hC := c.toNat_lt
  have hD := d.toNat_lt
  rw [of32, UInt32.toNat_ofNat']
  omega

end Word

namespace ReadCall

/- What the bytes of one whole field stand for. -/
inductive Spells :
    ReadCall → List UInt8 → ReadValue → Prop where
  | u8 (b : UInt8) : Spells .u8 [b] (.number b.toNat)
  | u16 (a b : UInt8) :
      Spells .u16 [a, b] (.number (a.toNat * 256 + b.toNat))
  | u32 (a b c d : UInt8) :
      Spells .u32 [a, b, c, d]
        (.number
          (a.toNat * 16777216 + b.toNat * 65536 +
            c.toNat * 256 + d.toNat))
  | bytes (value : List UInt8) :
      Spells (.bytes value.length) value (.bytes value)
  | lv
      {count : UInt8}
      {value : List UInt8}
      (hCount : count.toNat = value.length) :
      Spells .lv (count :: value) (.bytes value)
  | lvAscii
      {count : UInt8}
      {value : List UInt8}
      (hCount : count.toNat = value.length) :
      Spells .lvAscii (count :: value)
        (.text (Text.ofAsciiLossy value))
  | tlv
      (tag : UInt8)
      {count : UInt8}
      {value : List UInt8}
      (hCount : count.toNat = value.length) :
      Spells .tlv (tag :: count :: value) (.tagged tag value)
  | rest (value : List UInt8) :
      Spells .rest value (.bytes value)

/-
  How many bytes a field takes that begins with the given
  bytes.  A count that is missing counts nothing.
-/
def extent (after : List UInt8) : ReadCall → Nat
  | u8 => 1
  | u16 => 2
  | u32 => 4
  | bytes n => n
  | lv | lvAscii => after[0]?.elim 0 UInt8.toNat + 1
  | tlv => after[1]?.elim 0 UInt8.toNat + 2
  | rest => after.length
  | reset => 0

variable {c : ReadCall} {after field tail : List UInt8}
variable {v : ReadValue}

/- A whole field takes as many bytes as it has. -/
theorem Spells.extent_append
    (hSpells : c.Spells field v)
    (hRest : c = .rest → tail = []) :
    c.extent (field ++ tail) = field.length := by
  cases hSpells with
  | u8 | u16 | u32 | bytes => rfl
  | lv hCount | lvAscii hCount | tlv tag hCount =>
      simp [extent, hCount]
  | rest => simp [extent, hRest rfl]

/- A count with as much behind it counts what it should. -/
theorem toNat_eq_length_take
    {count : UInt8}
    {value : List UInt8}
    (hFits : count.toNat ≤ value.length) :
    count.toNat = (value.take count.toNat).length :=
  (List.length_take_of_le hFits).symm

/- Bytes that are as many as a field takes make up one. -/
theorem exists_spells
    (hReads : c ≠ .reset)
    (hFits : c.extent after ≤ after.length) :
    ∃ v, c.Spells (after.take (c.extent after)) v := by
  cases c with
  | u8 =>
      match after, hFits with
      | b :: _, _ => exact ⟨_, .u8 b⟩
  | u16 =>
      match after, hFits with
      | a :: b :: _, _ => exact ⟨_, .u16 a b⟩
      | [_], hFits | [], hFits => simp [extent] at hFits
  | u32 =>
      match after, hFits with
      | a :: b :: c :: d :: _, _ => exact ⟨_, .u32 a b c d⟩
      | [_, _, _], hFits | [_, _], hFits | [_], hFits
      | [], hFits => simp [extent] at hFits
  | bytes n =>
      have hLength : (after.take n).length = n :=
        List.length_take_of_le hFits
      have hSpells := Spells.bytes (after.take n)
      rw [hLength] at hSpells
      exact ⟨_, hSpells⟩
  | lv =>
      match after, hFits with
      | count :: value, hFits =>
          have hCount : count.toNat ≤ value.length := by
            simpa [extent] using hFits
          have hSpells := Spells.lv (toNat_eq_length_take hCount)
          exact ⟨.bytes (value.take count.toNat),
            by simpa [extent] using hSpells⟩
  | lvAscii =>
      match after, hFits with
      | count :: value, hFits =>
          have hCount : count.toNat ≤ value.length := by
            simpa [extent] using hFits
          have hSpells :=
            Spells.lvAscii (toNat_eq_length_take hCount)
          exact ⟨.text (Text.ofAsciiLossy
              (value.take count.toNat)),
            by simpa [extent] using hSpells⟩
  | tlv =>
      match after, hFits with
      | tag :: count :: value, hFits =>
          have hCount : count.toNat ≤ value.length := by
            simpa [extent] using hFits
          have hSpells :=
            Spells.tlv tag (toNat_eq_length_take hCount)
          exact ⟨.tagged tag (value.take count.toNat),
            by simpa [extent] using hSpells⟩
      | [_], hFits | [], hFits => simp [extent] at hFits
  | rest => exact ⟨_, by simpa [extent] using Spells.rest after⟩
  | reset => exact absurd rfl hReads

/- Some beginning of the bytes is a whole field. -/
def Begins (c : ReadCall) (after : List UInt8) : Prop :=
  ∃ field v, field <+: after ∧ c.Spells field v

theorem extent_le_iff (hReads : c ≠ .reset) :
    c.extent after ≤ after.length ↔ c.Begins after := by
  constructor
  · intro hFits
    rcases exists_spells hReads hFits with ⟨v, hSpells⟩
    exact ⟨_, v, List.take_prefix _ _, hSpells⟩
  · rintro ⟨field, v, ⟨tail, rfl⟩, hSpells⟩
    by_cases hRest : c = .rest
    · simp [hRest, extent]
    · rw [hSpells.extent_append fun h => absurd h hRest,
        List.length_append]
      exact Nat.le_add_right _ _

end ReadCall

------------------------------------------------------------
-- Single Reads
------------------------------------------------------------

namespace Reader

/- The bytes between the cursor and the end. -/
def after (r : Reader) : List UInt8 :=
  r.data.drop r.position

theorem length_after (r : Reader) :
    r.after.length = r.remaining :=
  List.length_drop

theorem eq_between (r : Reader) :
    r = between (r.data.take r.position) r.after := by
  have hPosition : (r.data.take r.position).length = r.position :=
    List.length_take_of_le r.position_le
  have hData : r.data.take r.position ++ r.after = r.data :=
    List.take_append_drop _ _
  cases r with
  | mk data position position_le =>
      simp only [between, mk.injEq]
      exact ⟨hData.symm, hPosition.symm⟩

section Between

variable (before : List UInt8)
variable {c : ReadCall} {after field tail : List UInt8}
variable {v : ReadValue}

theorem remaining_between (before after : List UInt8) :
    (between before after).remaining = after.length := by
  simp [remaining, between]

theorem lv_between_of_count
    (tail : List UInt8)
    {count : UInt8}
    {value : List UInt8}
    (hCount : count.toNat = value.length) :
    (between before (count :: (value ++ tail))).lv =
      .ok (value, between (before ++ count :: value) tail) := by
  have hShort : value.length < 256 := hCount ▸ count.toNat_lt
  have hCounted : count :: value = counted value := by
    rw [counted, ← hCount, UInt8.ofNat_toNat]
  rw [← List.cons_append, hCounted]
  exact lv_between before tail hShort

/- A count that points past the end makes the read fail. -/
theorem lv_between_of_cut
    (hCut : after.length < ReadCall.lv.extent after) :
    ∃ e, (between before after).lv = .error e ∧
      (before ++ after).length < e.offset + e.wanted := by
  cases after with
  | nil =>
      have hTake :
          (between before []).take 1 =
            .error ⟨before.length, 1⟩ :=
        take_of_short (by simp [remaining_between])
      refine ⟨⟨before.length, 1⟩, ?_, by simp⟩
      simp [lv, u8, hTake, bind, Except.bind]
  | cons count value =>
      have hMissing : value.length < count.toNat := by
        simpa [ReadCall.extent] using hCut
      have hTake :
          (between (before ++ [count]) value).take count.toNat =
            .error ⟨(before ++ [count]).length, count.toNat⟩ :=
        take_of_short (by simpa [remaining_between])
      refine
        ⟨⟨(before ++ [count]).length, count.toNat⟩, ?_, ?_⟩
      · simp only [lv, u8_between, bind, Except.bind, hTake]
      · simp
        omega

/- A read that finds its field cut off leaves the cursor. -/
theorem perform_of_cut
    (hCut : after.length < c.extent after) :
    ∃ e,
      (between before after).perform c =
        (.error e, between before after) ∧
      (before ++ after).length < e.offset + e.wanted := by
  have hRemaining := remaining_between before after
  cases c with
  | u8 | u16 | u32 | bytes n =>
      refine ⟨_, perform_of_short (hRemaining ▸ hCut), ?_⟩
      simp only [ReadCall.extent] at hCut
      simp only [between, ReadCall.least, List.length_append]
      omega
  | lv =>
      rcases lv_between_of_cut before hCut with ⟨e, hLv, hEnd⟩
      exact ⟨e, by simp [perform, settle, hLv], hEnd⟩
  | lvAscii =>
      rcases lv_between_of_cut before hCut with ⟨e, hLv, hEnd⟩
      refine ⟨e, ?_, hEnd⟩
      simp [perform, settle, lvAscii, hLv, bind, Except.bind]
  | tlv =>
      cases after with
      | nil =>
          have hTake :
              (between before []).take 1 =
                .error ⟨before.length, 1⟩ :=
            take_of_short (by simp [remaining_between])
          refine ⟨⟨before.length, 1⟩, ?_, by simp⟩
          simp [perform, settle, tlv, u8, hTake, bind,
            Except.bind]
      | cons tag after =>
          have hRest :
              after.length < ReadCall.lv.extent after := by
            simpa [ReadCall.extent] using hCut
          rcases lv_between_of_cut (before ++ [tag]) hRest with
            ⟨e, hLv, hEnd⟩
          refine ⟨e, ?_, by simpa using hEnd⟩
          simp [perform, settle, tlv, u8_between, hLv, bind,
            Except.bind]
  | rest => exact absurd hCut (Nat.lt_irrefl _)
  | reset => exact absurd hCut (Nat.not_lt_zero _)

/- A read that finds a whole field yields it, and passes it. -/
theorem perform_of_spells
    (hSpells : c.Spells field v)
    (hRest : c = .rest → tail = []) :
    (between before (field ++ tail)).perform c =
      (.ok v, between (before ++ field) tail) := by
  cases hSpells with
  | u8 b =>
      simp [perform, settle, u8_between]
  | u16 a b =>
      have hTake :
          (between before (a :: b :: tail)).take 2 =
            .ok ([a, b], between (before ++ [a, b]) tail) :=
        take_between before tail [a, b]
      simp [perform, settle, u16, hTake, Word.toNat_of16, bind,
        Except.bind, pure, Except.pure]
  | u32 a b c d =>
      have hTake :
          (between before (a :: b :: c :: d :: tail)).take 4 =
            .ok ([a, b, c, d],
              between (before ++ [a, b, c, d]) tail) :=
        take_between before tail [a, b, c, d]
      simp [perform, settle, u32, hTake, Word.toNat_of32, bind,
        Except.bind, pure, Except.pure]
  | bytes =>
      simp [perform, settle, take_between]
  | lv hCount =>
      have hLv := lv_between_of_count before tail hCount
      simp [perform, settle, hLv]
  | lvAscii hCount =>
      have hLv := lv_between_of_count before tail hCount
      simp [perform, settle, lvAscii, hLv, bind, Except.bind,
        pure, Except.pure]
  | tlv tag hCount =>
      have hLv :=
        lv_between_of_count (before ++ [tag]) tail hCount
      simp [perform, settle, tlv, u8_between, hLv, bind,
        Except.bind, pure, Except.pure]
  | rest =>
      simp [perform, rest, between, hRest rfl]

end Between

/-
  A use of a cursor takes a whole field or nothing.  The
  cursor stays within the data, and what is left of them is
  the part behind it.  A read fails exactly if its field does
  not fit there, that is, if no beginning of that part is a
  whole field.  Then nothing has moved, and what is reported
  as missing does lie past the end.  Otherwise the value is
  spelled by the bytes at the cursor, which are passed.
-/
structure WholeOrNothing
    (r : Reader)
    (c : ReadCall)
    (answer : Except ShortRead ReadValue)
    (r' : Reader) : Prop where
  data : r'.data = r.data
  within : r'.position ≤ r.data.length
  split : r'.position + r'.remaining = r.data.length
  fails_iff :
    (∃ e, answer = .error e) ↔ r.remaining < c.extent r.after
  cut_iff :
    c ≠ .reset →
      ((∃ e, answer = .error e) ↔
        ¬ c.Begins r.after)
  nothing :
    ∀ e, answer = .error e →
      r' = r ∧ r.data.length < e.offset + e.wanted
  whole :
    ∀ v, answer = .ok v → c ≠ .reset →
      c.Spells (r.after.take (c.extent r.after)) v ∧
        r'.position = r.position + c.extent r.after
  reset : c = .reset → answer = .ok .none ∧ r'.position = 0

/- Where a read stops that has found its field. -/
theorem perform_of_fits
    {r : Reader}
    {c : ReadCall}
    (hReads : c ≠ .reset)
    (hFits : c.extent r.after ≤ r.remaining) :
    ∃ v r',
      r.perform c = (.ok v, r') ∧
      r'.data = r.data ∧
      r'.position = r.position + c.extent r.after ∧
      c.Spells (r.after.take (c.extent r.after)) v := by
  rw [← r.length_after] at hFits
  rcases ReadCall.exists_spells hReads hFits with ⟨v, hSpells⟩
  have hAll : c = .rest → r.after.drop (c.extent r.after) = [] := by
    rintro rfl
    exact List.drop_length
  have hPerform :=
    perform_of_spells (r.data.take r.position) hSpells hAll
  rw [List.take_append_drop, ← r.eq_between] at hPerform
  refine ⟨v, _, hPerform, ?_, ?_, hSpells⟩
  · simp only [between, List.append_assoc, List.take_append_drop]
    exact List.take_append_drop _ _
  · simp [between, List.length_take_of_le r.position_le,
      List.length_take_of_le hFits]

theorem add_remaining (r : Reader) :
    r.position + r.remaining = r.data.length :=
  Nat.add_sub_cancel' r.position_le

/- One use of a cursor, wherever it is. -/
theorem wholeOrNothing_perform (r : Reader) (c : ReadCall) :
    WholeOrNothing r c (r.perform c).1 (r.perform c).2 := by
  by_cases hReset : c = .reset
  · subst hReset
    exact {
      data := rfl
      within := Nat.zero_le _
      split := r.reset.add_remaining
      fails_iff := by simp [perform, ReadCall.extent]
      cut_iff := fun h => absurd rfl h
      nothing := by simp [perform]
      whole := fun _ _ h => absurd rfl h
      reset := fun _ => ⟨rfl, rfl⟩ }
  · have hSome :
        c.extent r.after ≤ r.remaining ↔ c.Begins r.after := by
      rw [← r.length_after]
      exact ReadCall.extent_le_iff hReset
    by_cases hFits : c.extent r.after ≤ r.remaining
    · rcases perform_of_fits hReset hFits with
        ⟨v, r', hPerform, hData, hPosition, hSpells⟩
      rw [hPerform]
      exact {
        data := hData
        within := hData ▸ r'.position_le
        split := hData ▸ r'.add_remaining
        fails_iff := by simp [hFits]
        cut_iff := fun _ => by simp [← hSome, hFits]
        nothing := by simp
        whole := by
          intro w hOk _
          cases hOk
          exact ⟨hSpells, hPosition⟩
        reset := fun h => absurd h hReset }
    · have hCut : r.after.length < c.extent r.after := by
        rw [r.length_after]
        exact Nat.lt_of_not_le hFits
      rcases perform_of_cut (r.data.take r.position) hCut with
        ⟨e, hPerform, hEnd⟩
      rw [← r.eq_between] at hPerform
      rw [hPerform]
      exact {
        data := rfl
        within := r.position_le
        split := r.add_remaining
        fails_iff := by simp [Nat.lt_of_not_le hFits]
        cut_iff := fun _ => by simp [← hSome, hFits]
        nothing := by
          intro e' hError
          cases hError
          refine ⟨rfl, ?_⟩
          simpa [after] using hEnd
        whole := by simp
        reset := fun h => absurd h hReset }

end Reader

end DeviceSession
