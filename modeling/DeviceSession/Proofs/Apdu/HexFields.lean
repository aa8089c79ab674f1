import DeviceSession.Proofs.Apdu.AllOrNothing

/-
  Fields that are given as hex digits.

  A row of digits stands for bytes, two digits for each of
  them, high one first.  It is read in pairs of characters,
  after one mark at most.  Reading the bytes of the text in
  pairs comes to the same: a character that is no digit has a
  byte that is none, however many bytes there are.

  Key definitions include:
    * `Hex.Stands`
    * `Hex.Spells`
    * `Hex.Denotes`
    * `Hex.decodeRaw?`

  Main declarations:
    * `Hex.decode?_eq_some_iff`
    * `Hex.denotes_iff`
    * `Hex.decodeRaw?_utf8`
    * `Builder.hex_written`
-/

------------------------------------------------------------
-- What Digits Stand For
------------------------------------------------------------

namespace DeviceSession

namespace Hex

/- The digits of either case, in the order of their values. -/
def lowerCase : List Char :=
  "0123456789abcdef".toList

def upperCase : List Char :=
  "0123456789ABCDEF".toList

/- The character is a digit of this value. -/
def Stands (c : Char) (n : Nat) : Prop :=
  lowerCase[n]? = some c ∨ upperCase[n]? = some c

/- The digits stand for the bytes, two for each of them. -/
inductive Spells : List Char → List UInt8 → Prop where
  | nil : Spells [] []
  | cons
      {hi lo : Char}
      {b : UInt8}
      {text : List Char}
      {bytes : List UInt8}
      (hHigh : Stands hi (b.toNat / 16))
      (hLow : Stands lo (b.toNat % 16))
      (hRest : Spells text bytes) :
      Spells (hi :: lo :: text) (b :: bytes)

/- The digits of an alphabet, by their numbers. -/
theorem getElem?_alphabet
    {alphabet : List Char}
    {code : Nat → Nat}
    (hCodes :
      alphabet.map Char.toNat = (List.range 16).map code)
    {c : Char}
    {n : Nat} :
    alphabet[n]? = some c ↔ n < 16 ∧ c.toNat = code n := by
  have hInjective :
      alphabet[n]? = some c ↔
        (alphabet.map Char.toNat)[n]? = some c.toNat := by
    rw [List.getElem?_map]
    cases alphabet[n]? with
    | none => simp
    | some d => simp [Char.toNat_inj]
  rw [hInjective, hCodes, List.getElem?_map]
  by_cases hSmall : n < 16
  · simp [hSmall, eq_comm]
  · simp [hSmall]

theorem stands_iff_toNat
    {c : Char}
    {n : Nat} :
    Stands c n ↔
      n < 16 ∧
        (c.toNat = (if n < 10 then 48 + n else 87 + n) ∨
          c.toNat = if n < 10 then 48 + n else 55 + n) := by
  have hLower : lowerCase.map Char.toNat =
      (List.range 16).map
        fun n => if n < 10 then 48 + n else 87 + n := by
    decide
  have hUpper : upperCase.map Char.toNat =
      (List.range 16).map
        fun n => if n < 10 then 48 + n else 55 + n := by
    decide
  rw [Stands, getElem?_alphabet hLower,
    getElem?_alphabet hUpper, and_or_left]

theorem nibble?_eq_some_iff
    {c : Char}
    {n : Nat} :
    nibble? c = some n ↔ Stands c n := by
  rw [stands_iff_toNat]
  unfold nibble?
  grind

theorem toNat_toLower (c : Char) :
    c.toLower.toNat =
      if 65 ≤ c.toNat ∧ c.toNat ≤ 90 then c.toNat + 32
      else c.toNat := by
  have hRange : (c.val ≥ 'A'.val ∧ c.val ≤ 'Z'.val) ↔
      65 ≤ c.toNat ∧ c.toNat ≤ 90 :=
    Iff.rfl
  unfold Char.toLower
  split
  · rename_i hUpper
    have hCode := hRange.mp hUpper
    rw [if_pos hCode]
    have hSum : (c.val + ('a'.val - 'A'.val)).toNat =
        c.val.toNat + 32 := by
      rw [UInt32.toNat_add]
      have : ('a'.val - 'A'.val).toNat = 32 := by decide
      have : c.val.toNat ≤ 90 := hCode.2
      omega
    exact hSum
  · rename_i hOther
    rw [if_neg (mt hRange.mpr hOther)]

theorem toNat_digit :
    ∀ n < 16,
      (digit n).toNat =
        if n < 10 then 48 + n else 87 + n := by
  decide

/- A digit is the one that is written, but for its case. -/
theorem stands_iff_toLower
    {c : Char}
    {n : Nat}
    (hSmall : n < 16) :
    Stands c n ↔ c.toLower = digit n := by
  rw [stands_iff_toNat, ← Char.toNat_inj, toNat_toLower,
    toNat_digit n hSmall]
  grind

theorem spells_cons_iff
    {hi lo : Char}
    {b : UInt8}
    {text : List Char}
    {bytes : List UInt8} :
    Spells (hi :: lo :: text) (b :: bytes) ↔
      Stands hi (b.toNat / 16) ∧ Stands lo (b.toNat % 16) ∧
        Spells text bytes := by
  constructor
  · intro hSpells
    cases hSpells with
    | cons hHigh hLow hRest => exact ⟨hHigh, hLow, hRest⟩
  · rintro ⟨hHigh, hLow, hRest⟩
    exact .cons hHigh hLow hRest

/- The induction is on pairs of digits, as they are read. -/
theorem decode?_eq_some_iff
    {text : List Char}
    {bytes : List UInt8} :
    decode? text = some bytes ↔ Spells text bytes := by
  constructor
  · intro hRead
    induction text using decode?.induct generalizing bytes with
    | case1 =>
        rcases Option.some.inj hRead with rfl
        exact .nil
    | case2 c => cases hRead
    | case3 hi lo rest ih =>
        rcases Option.bind_eq_some_iff.mp hRead with
          ⟨h, hHigh, hRead⟩
        rcases Option.bind_eq_some_iff.mp hRead with
          ⟨l, hLow, hRead⟩
        rcases Option.bind_eq_some_iff.mp hRead with
          ⟨bytes', hRest, hRead⟩
        rcases Option.some.inj hRead with rfl
        rw [nibble?_eq_some_iff] at hHigh hLow
        have hHigh' := (stands_iff_toNat.mp hHigh).1
        have hLow' := (stands_iff_toNat.mp hLow).1
        have hByte :
            (UInt8.ofNat (h * 16 + l)).toNat = h * 16 + l := by
          rw [UInt8.toNat_ofNat']
          omega
        have hQuotient : (h * 16 + l) / 16 = h := by omega
        have hRemainder : (h * 16 + l) % 16 = l := by omega
        refine .cons ?_ ?_ (ih hRest)
        · rwa [hByte, hQuotient]
        · rwa [hByte, hRemainder]
  · intro hSpells
    induction hSpells with
    | nil => rfl
    | @cons hi lo b text bytes hHigh hLow hRest ih =>
        rw [← nibble?_eq_some_iff] at hHigh hLow
        have hByte :
            UInt8.ofNat (b.toNat / 16 * 16 + b.toNat % 16) =
              b := by
          rw [Nat.div_add_mod', UInt8.ofNat_toNat]
        rw [decode?, hHigh, hLow, ih]
        exact congrArg (fun b => some (b :: bytes)) hByte

/- Written in lower case, the text is that of the bytes. -/
theorem spells_iff_toLower
    {text : List Char}
    {bytes : List UInt8} :
    Spells text bytes ↔
      text.map Char.toLower = chars bytes := by
  induction bytes generalizing text with
  | nil =>
      constructor
      · intro hSpells
        cases hSpells
        rfl
      · intro hText
        rw [List.map_eq_nil_iff.mp hText]
        exact .nil
  | cons b bytes ih =>
      have hByte := b.toNat_lt
      have hChars :
          chars (b :: bytes) =
            digit (b.toNat / 16) :: digit (b.toNat % 16) ::
              chars bytes :=
        rfl
      rw [hChars]
      match text with
      | [] => exact iff_of_false nofun nofun
      | [c] => exact iff_of_false nofun (by simp)
      | hi :: lo :: text =>
          rw [spells_cons_iff, stands_iff_toLower (by omega),
            stands_iff_toLower (by omega), ih]
          simp

------------------------------------------------------------
-- Marked Texts
------------------------------------------------------------

/- The text, without its mark if it has one, stands for them. -/
def Denotes (s : String) (bytes : List UInt8) : Prop :=
  Spells (unmarked s.toList) bytes

theorem decodeMarked?_eq_some_iff
    {s : String}
    {bytes : List UInt8} :
    decodeMarked? s.toList = some bytes ↔ Denotes s bytes := by
  rw [decodeMarked?_eq, decode?_eq_some_iff, Denotes]

/- Exactly pairs of digits stand for something. -/
theorem isMarked_iff_exists (s : String) :
    IsMarked s.toList ↔ ∃ bytes, Denotes s bytes := by
  rw [← isSome_decodeMarked?, Option.isSome_iff_exists]
  exact exists_congr fun _ => decodeMarked?_eq_some_iff

theorem eq_unmarked_or_marked (text : List Char) :
    text = unmarked text ∨
      text = '0' :: 'x' :: unmarked text := by
  fun_cases unmarked text
  · exact .inr rfl
  · exact .inl rfl

/- The mark cannot be taken for digits. -/
theorem unmarked_of_spells
    {text : List Char}
    {bytes : List UInt8}
    (hSpells : Spells text bytes) :
    unmarked text = text := by
  fun_cases unmarked text
  · cases hSpells with
    | cons _ hLow _ =>
        rcases stands_iff_toNat.mp hLow with ⟨hSmall, hCode⟩
        simp only [Char.reduceToNat] at hCode
        rcases hCode with hCode | hCode <;> split at hCode <;>
          omega
  · rfl

theorem toLower_eq_encode_iff
    {s : String}
    {bytes : List UInt8} :
    s.toLower = encode bytes ↔ Spells s.toList bytes := by
  have hLower : s.toLower = s.map Char.toLower := rfl
  rw [spells_iff_toLower, ← String.toList_inj, encode,
    String.toList_ofList, hLower, String.toList_map]

/-
  Texts of bytes are those that are written for them, in any
  case, and with one mark or without.
-/
theorem denotes_iff
    {s : String}
    {bytes : List UInt8} :
    Denotes s bytes ↔
      ∃ text : String,
        (s = text ∨ s = "0x" ++ text) ∧
        text.toLower = encode bytes := by
  simp only [toLower_eq_encode_iff]
  constructor
  · intro hDenotes
    rcases eq_unmarked_or_marked s.toList with hPlain | hMark
    · rw [Denotes, ← hPlain] at hDenotes
      exact ⟨s, .inl rfl, hDenotes⟩
    · refine ⟨String.ofList (unmarked s.toList), .inr ?_, ?_⟩
      · simpa [← String.toList_inj] using hMark
      · rwa [String.toList_ofList]
  · rintro ⟨text, rfl | rfl, hSpells⟩
    · rwa [Denotes, unmarked_of_spells hSpells]
    · rw [Denotes, String.toList_append]
      exact hSpells

------------------------------------------------------------
-- Reading by Bytes
------------------------------------------------------------

/- The value of a digit, by its byte. -/
def rawNibble? (b : UInt8) : Option UInt8 :=
  if 48 ≤ b ∧ b ≤ 57 then some (b - 48)
  else if 97 ≤ b ∧ b ≤ 102 then some (b - 97 + 10)
  else if 65 ≤ b ∧ b ≤ 70 then some (b - 65 + 10)
  else none

/- Bytes of a text without its mark, if it has one. -/
def rawUnmarked (raw : List UInt8) : List UInt8 :=
  if [48, 120] <+: raw then raw.drop 2 else raw

/- What pairs of digits stand for; an odd one is left out. -/
def rawPairs? : List UInt8 → Option (List UInt8)
  | hi :: lo :: rest => do
      let h ← rawNibble? hi
      let l ← rawNibble? lo
      let bytes ← rawPairs? rest
      return (h <<< 4 ||| l) :: bytes
  | _ => some []

/-
  What the bytes of a text stand for, where it is seen first
  that there is no odd one.
-/
def decodeRaw? (raw : List UInt8) : Option (List UInt8) :=
  if (rawUnmarked raw).length % 2 = 0 then
    rawPairs? (rawUnmarked raw)
  else none

theorem rawNibble?_eq (b : UInt8) :
    rawNibble? b =
      (nibble? (Text.ofAsciiByte b)).map UInt8.ofNat := by
  have hAll : ∀ i : Fin 256,
      rawNibble? (UInt8.ofNat i.val) =
        (nibble? (Text.ofAsciiByte (UInt8.ofNat i.val))).map
          UInt8.ofNat := by
    decide +kernel
  have hByte := hAll ⟨b.toNat, b.toNat_lt⟩
  rwa [UInt8.ofNat_toNat] at hByte

theorem mark_eq_ofAsciiByte_iff (b : UInt8) :
    ('0' = Text.ofAsciiByte b ↔ 48 = b) ∧
      ('x' = Text.ofAsciiByte b ↔ 120 = b) := by
  have hAll : ∀ i : Fin 256,
      ('0' = Text.ofAsciiByte (UInt8.ofNat i.val) ↔
          48 = UInt8.ofNat i.val) ∧
        ('x' = Text.ofAsciiByte (UInt8.ofNat i.val) ↔
          120 = UInt8.ofNat i.val) := by
    decide +kernel
  have hByte := hAll ⟨b.toNat, b.toNat_lt⟩
  rwa [UInt8.ofNat_toNat] at hByte

theorem unmarked_eq (text : List Char) :
    unmarked text =
      if ['0', 'x'] <+: text then text.drop 2 else text := by
  fun_cases unmarked text
  · rename_i rest
    exact (if_pos ⟨rest, rfl⟩).symm
  · rename_i hPlain
    refine (if_neg ?_).symm
    rintro ⟨rest, rfl⟩
    exact hPlain rest rfl

theorem map_rawUnmarked (raw : List UInt8) :
    (rawUnmarked raw).map Text.ofAsciiByte =
      unmarked (raw.map Text.ofAsciiByte) := by
  have hMark : ['0', 'x'] <+: raw.map Text.ofAsciiByte ↔
      [48, 120] <+: raw := by
    match raw with
    | [] => simp
    | [b] => simp [List.cons_prefix_cons]
    | b :: b' :: rest =>
        simp only [List.map_cons, List.cons_prefix_cons,
          List.nil_prefix, mark_eq_ofAsciiByte_iff]
  rw [unmarked_eq, rawUnmarked]
  by_cases hMarked : [48, 120] <+: raw
  · rw [if_pos hMarked, if_pos (hMark.mpr hMarked),
      List.map_drop]
  · rw [if_neg hMarked, if_neg (mt hMark.mp hMarked)]

theorem join_nibbles :
    ∀ h < 16, ∀ l < 16,
      UInt8.ofNat h <<< 4 ||| UInt8.ofNat l =
        UInt8.ofNat (h * 16 + l) := by
  decide +kernel

/- A last byte without another one refuses them all. -/
theorem rawPairs?_eq (raw : List UInt8) :
    (if raw.length % 2 = 0 then rawPairs? raw else none) =
      decode? (raw.map Text.ofAsciiByte) := by
  induction raw using rawPairs?.induct with
  | case1 hi lo rest ih =>
      have hEven : (hi :: lo :: rest).length % 2 =
          rest.length % 2 := by
        simp only [List.length_cons]
        omega
      rw [hEven, List.map_cons, List.map_cons, decode?, ← ih,
        rawPairs?, rawNibble?_eq, rawNibble?_eq]
      cases hHigh : nibble? (Text.ofAsciiByte hi) with
      | none => simp
      | some h =>
      cases hLow : nibble? (Text.ofAsciiByte lo) with
      | none => simp
      | some l =>
          rw [nibble?_eq_some_iff, stands_iff_toNat] at hHigh hLow
          have hJoin := join_nibbles h hHigh.1 l hLow.1
          split <;> simp [hJoin]
  | case2 raw hShort =>
      cases raw with
      | nil => rfl
      | cons hi tail =>
          cases tail with
          | nil => rfl
          | cons lo rest =>
              exact absurd rfl (hShort hi lo rest)

theorem decodeRaw?_eq (raw : List UInt8) :
    decodeRaw? raw =
      decodeMarked? (raw.map Text.ofAsciiByte) := by
  rw [decodeRaw?, rawPairs?_eq, map_rawUnmarked, decodeMarked?_eq]

/- Hex digits and their mark are ASCII. -/
theorem lt_of_isMarked
    {text : List Char}
    (hMarked : IsMarked text)
    {c : Char}
    (hMem : c ∈ text) :
    c.toNat < 128 := by
  have hDigit : ∀ d, IsDigit d → d.toNat < 128 := by
    intro d hDigit
    rw [← isSome_nibble?] at hDigit
    unfold nibble? at hDigit
    grind
  rcases eq_unmarked_or_marked text with hPlain | hMark
  · rw [hPlain] at hMem
    exact hDigit c (hMarked.2 c hMem)
  · rw [hMark] at hMem
    rcases List.mem_cons.mp hMem with rfl | hMem
    · decide
    · rcases List.mem_cons.mp hMem with rfl | hMem
      · decide
      · exact hDigit c (hMarked.2 c hMem)

theorem exists_large_byte
    {c : Char}
    (hLarge : 128 ≤ c.toNat) :
    ∃ b ∈ String.utf8EncodeChar c, 128 ≤ b.toNat := by
  have hFirst : ¬ c.val.toNat ≤ 127 := by
    have : c.val.toNat = c.toNat := rfl
    omega
  rw [String.utf8EncodeChar, if_neg hFirst]
  split
  · refine ⟨_, List.mem_cons_self, ?_⟩
    rw [UInt8.toNat_ofNat']
    omega
  · split <;>
      exact ⟨_, List.mem_cons_self, by
        rw [UInt8.toNat_ofNat']
        omega⟩

/- Reading a text by its bytes comes to the same. -/
theorem decodeRaw?_utf8 (s : String) :
    decodeRaw? (Text.utf8 s) = decodeMarked? s.toList := by
  rw [decodeRaw?_eq]
  by_cases hAscii : Text.IsAscii s
  · have hText :
        (Text.utf8 s).map Text.ofAsciiByte = s.toList := by
      have hBack := congrArg String.toList
        (Text.ofAsciiLossy_utf8 hAscii)
      rwa [Text.ofAsciiLossy, String.toList_ofList] at hBack
    rw [hText]
  · have hRefused : ∀ text,
        (∃ c ∈ text, 128 ≤ c.toNat) →
          decodeMarked? text = none := by
      rintro text ⟨c, hMem, hLarge⟩
      rw [← Option.not_isSome_iff_eq_none, isSome_decodeMarked?]
      intro hMarked
      have hSmall := lt_of_isMarked hMarked hMem
      omega
    unfold Text.IsAscii at hAscii
    simp only [Classical.not_forall, Nat.not_lt] at hAscii
    rcases hAscii with ⟨c, hMem, hLarge⟩
    rcases exists_large_byte hLarge with ⟨b, hByte, hHigh⟩
    rw [hRefused s.toList ⟨c, hMem, hLarge⟩]
    refine hRefused _ ⟨Text.ofAsciiByte b, ?_, ?_⟩
    · exact List.mem_map_of_mem
        (List.mem_flatMap.mpr ⟨c, hMem, hByte⟩)
    · rw [Text.ofAsciiByte, if_neg (Nat.not_lt.mpr hHigh)]
      decide

end Hex

------------------------------------------------------------
-- Fields of Hex Digits
------------------------------------------------------------

namespace Builder

variable {b : Builder} {s : String}

/- A text that stands for bytes is as good as the bytes. -/
theorem add_of_denotes
    {bytes : List UInt8}
    (hDenotes : Hex.Denotes s bytes) :
    b.add (.hex s) = b.add (.bytes bytes) ∧
      b.add (.lvHex s) = b.add (.lvBytes bytes) := by
  have hBytes : Field.hexBytes s = .ok bytes := by
    rw [Field.hexBytes,
      Hex.decodeMarked?_eq_some_iff.mpr hDenotes]
  constructor <;>
    simp [add, Field.encode, hBytes, Except.map]

/- Any other text is refused for what it is. -/
theorem add_of_not_isMarked
    (hBad : ¬ Hex.IsMarked s.toList) :
    b.add (.hex s) = b.refuse .invalidHex ∧
      b.add (.lvHex s) = b.refuse .invalidHex := by
  have hBytes : Field.hexBytes s = .error .invalidHex := by
    rw [Field.hexBytes_eq, if_neg hBad]
  constructor <;>
    simp [add, Field.encode, hBytes, Except.map]

/- Bytes that are added are never found to be bad digits. -/
theorem errors_push_ne (b : Builder) (bytes : List UInt8) :
    (b.push bytes).errors ≠ b.errors ++ [.invalidHex] := by
  unfold push
  split
  · simp
  · simp [refuse]

/-
  A field of hex digits is refused as such exactly if its
  text is no row of pairs of digits.
-/
theorem refused_iff
    {f : Field}
    (hText : f = .hex s ∨ f = .lvHex s) :
    (b.add f).apdu = b.apdu ∧
        (b.add f).errors = b.errors ++ [.invalidHex] ↔
      ¬ Hex.IsMarked s.toList := by
  constructor
  · rintro ⟨-, hErrors⟩ hMarked
    have hValid : f.Valid := by
      rcases hText with rfl | rfl <;> exact hMarked
    rw [add_eq, if_pos hValid] at hErrors
    exact errors_push_ne b f.image hErrors
  · intro hBad
    have hAdd : b.add f = b.refuse .invalidHex := by
      have hRefused := add_of_not_isMarked (b := b) hBad
      rcases hText with rfl | rfl
      · exact hRefused.1
      · exact hRefused.2
    rw [hAdd]
    exact ⟨rfl, rfl⟩

/-
  A text stands for the bytes that it is written for, in
  either case or a mix of both, and with one mark or without.
  Reading tells exactly these bytes, and comes to the same if
  it goes by the bytes of the text.

  The texts that stand for bytes are the pairs of digits,
  after one mark at most.  A field with such a text does what
  a field with the bytes does.  One with any other text is
  refused for it, and leaves the payload as it is.
-/
theorem hex_written (b : Builder) (s : String) :
    (∀ bytes,
      (Hex.decodeMarked? s.toList = some bytes ↔
        Hex.Denotes s bytes) ∧
      (Hex.Denotes s bytes ↔
        ∃ text : String,
          (s = text ∨ s = "0x" ++ text) ∧
          text.toLower = Hex.encode bytes)) ∧
      Hex.decodeRaw? (Text.utf8 s) =
        Hex.decodeMarked? s.toList ∧
      (Hex.IsMarked s.toList ↔
        ∃ bytes,
          Hex.Denotes s bytes ∧
          b.add (.hex s) = b.add (.bytes bytes) ∧
          b.add (.lvHex s) = b.add (.lvBytes bytes)) ∧
      ((b.add (.hex s)).apdu = b.apdu ∧
          (b.add (.hex s)).errors = b.errors ++ [.invalidHex] ↔
        ¬ Hex.IsMarked s.toList) ∧
      ((b.add (.lvHex s)).apdu = b.apdu ∧
          (b.add (.lvHex s)).errors =
            b.errors ++ [.invalidHex] ↔
        ¬ Hex.IsMarked s.toList) := by
  refine ⟨fun bytes => ⟨?_, ?_⟩, ?_, ?_, ?_, ?_⟩
  · exact Hex.decodeMarked?_eq_some_iff
  · exact Hex.denotes_iff
  · exact Hex.decodeRaw?_utf8 s
  · rw [Hex.isMarked_iff_exists]
    refine exists_congr fun bytes => ⟨fun hDenotes => ?_, ?_⟩
    · exact ⟨hDenotes, add_of_denotes hDenotes⟩
    · exact fun h => h.1
  · exact refused_iff (.inl rfl)
  · exact refused_iff (.inr rfl)

/-
  The mark is in lower case and comes once; a character of
  two bytes is no pair of digits.
-/
example :
    let b := (ofHeader 0 0 0 0).addAll
      [ .hex "0xDeAd", .lvHex "0x", .hex "0X00",
        .hex "0x0x00", .hex "é", .hex "abc" ]
    b.apdu.data = [0xde, 0xad, 0] ∧
      b.errors = List.replicate 4 .invalidHex := by
  decide +kernel

end Builder

end DeviceSession
