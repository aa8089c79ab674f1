import DeviceSession.Apdu.Builder
import DeviceSession.Apdu.Reader

/-
  Fields that read back as they were written.

  A payload is put together from typed pieces, and taken
  apart by the reads that match them.  Pieces that fit are
  all written, one after another; then each read finds its
  piece where the one before it has ended.  Pieces that do
  not fit are noticed when the command is built.

  Key definitions include:
    * `Piece`
    * `Piece.length`
    * `Piece.fields`
    * `Piece.call`
    * `Piece.outline`
    * `Reader.between`
    * `Reader.performAll`

  Main declarations:
    * `Builder.errors_addAll_iff`
    * `Reader.perform_between`
    * `Builder.performAll_build`
-/

------------------------------------------------------------
-- Texts of ASCII Characters
------------------------------------------------------------

namespace DeviceSession

namespace Text

/- The byte of an ASCII character. -/
def asciiByte (c : Char) : UInt8 :=
  UInt8.ofNat c.toNat

/- The character of a byte that may be one. -/
def ofAsciiByte (b : UInt8) : Char :=
  if b.toNat < 128 then Char.ofNat b.toNat else replacement

theorem ofAsciiByte_asciiByte
    {c : Char}
    (hAscii : c.toNat < 128) :
    ofAsciiByte (asciiByte c) = c := by
  have hByte : (asciiByte c).toNat = c.toNat := by
    rw [asciiByte, UInt8.toNat_ofNat']
    omega
  rw [ofAsciiByte, hByte, if_pos hAscii, Char.ofNat_toNat]

theorem utf8EncodeChar_of_lt
    {c : Char}
    (hAscii : c.toNat < 128) :
    String.utf8EncodeChar c = [asciiByte c] := by
  have hSmall : c.val.toNat ≤ 127 := Nat.le_of_lt_succ hAscii
  rw [String.utf8EncodeChar, if_pos hSmall]
  rfl

/- A text of such characters has one byte for each. -/
theorem utf8_eq_map
    {s : String}
    (hAscii : IsAscii s) :
    utf8 s = s.toList.map asciiByte := by
  unfold IsAscii at hAscii
  unfold utf8
  generalize s.toList = chars at hAscii ⊢
  induction chars with
  | nil => rfl
  | cons c cs ih =>
      rw [List.flatMap_cons,
        utf8EncodeChar_of_lt (hAscii c List.mem_cons_self),
        ih fun d hMem =>
          hAscii d (List.mem_cons_of_mem c hMem)]
      rfl

theorem length_utf8
    {s : String}
    (hAscii : IsAscii s) :
    (utf8 s).length = s.length := by
  rw [utf8_eq_map hAscii, List.length_map, String.length_toList]

/- Its bytes read back as the text. -/
theorem ofAsciiLossy_utf8
    {s : String}
    (hAscii : IsAscii s) :
    ofAsciiLossy (utf8 s) = s := by
  have hChars : (utf8 s).map ofAsciiByte = s.toList :=
    calc (utf8 s).map ofAsciiByte
      _ = s.toList.map (ofAsciiByte ∘ asciiByte) := by
        rw [utf8_eq_map hAscii, List.map_map]
      _ = s.toList.map id :=
        List.map_congr_left fun c hMem =>
          ofAsciiByte_asciiByte (hAscii c hMem)
      _ = s.toList := List.map_id s.toList
  exact (congrArg String.ofList hChars).trans
    String.ofList_toList

end Text

------------------------------------------------------------
-- Pieces
------------------------------------------------------------

/- A typed piece of a payload that can be read back. -/
inductive Piece where
  | u8 (value : UInt8)
  | u16 (value : UInt16)
  | u32 (value : UInt32)
  | bytes (value : List UInt8)
  | lvBytes (value : List UInt8)
  | lvAscii (value : String) (ascii : Text.IsAscii value)
  /- A byte that tags, then a counted value. -/
  | tlv (tag : UInt8) (value : List UInt8)

namespace Piece

/- How many bytes a piece takes. -/
def length : Piece → Nat
  | u8 _ => 1
  | u16 _ => 2
  | u32 _ => 4
  | bytes bs => bs.length
  | lvBytes bs => 1 + bs.length
  | lvAscii s _ => 1 + s.length
  | tlv _ bs => 2 + bs.length

/- How many bytes pieces take together. -/
def total : List Piece → Nat
  | [] => 0
  | p :: ps => p.length + total ps

/- The fields that write a piece. -/
def fields : Piece → List Field
  | u8 v => [.u8 v]
  | u16 v => [.u16 v]
  | u32 v => [.u32 v]
  | bytes bs => [.bytes bs]
  | lvBytes bs => [.lvBytes bs]
  | lvAscii s _ => [.lvAscii s]
  | tlv tag bs => [.u8 tag, .lvBytes bs]

/- The read that matches a piece. -/
def call : Piece → ReadCall
  | u8 _ => .u8
  | u16 _ => .u16
  | u32 _ => .u32
  | bytes bs => .bytes bs.length
  | lvBytes _ => .lv
  | lvAscii _ _ => .lvAscii
  | tlv _ _ => .tlv

/- What that read yields. -/
def value : Piece → ReadValue
  | u8 v => .number v.toNat
  | u16 v => .number v.toNat
  | u32 v => .number v.toNat
  | bytes bs => .bytes bs
  | lvBytes bs => .bytes bs
  | lvAscii s _ => .text s
  | tlv tag bs => .tagged tag bs

/-
  What reading pieces from a position on yields: for each of
  them its value, and the position where it ends.
-/
def outline :
    Nat → List Piece → List (Except ShortRead ReadValue × Nat)
  | _, [] => []
  | n, p :: ps =>
      (.ok p.value, n + p.length) :: outline (n + p.length) ps

/- The bytes that each field of a piece writes. -/
def chunks : Piece → List (List UInt8)
  | u8 v => [[v]]
  | u16 v => [Word.bytes16 v]
  | u32 v => [Word.bytes32 v]
  | bytes bs => [bs]
  | lvBytes bs => [counted bs]
  | lvAscii s _ => [counted (Text.utf8 s)]
  | tlv tag bs => [[tag], counted bs]

/- The bytes of a piece. -/
def encode (p : Piece) : List UInt8 :=
  p.chunks.flatten

theorem encode_fields (p : Piece) :
    p.fields.map Field.encode = p.chunks.map .ok := by
  cases p with
  | lvAscii s ascii =>
      simp [fields, chunks, Field.encode, Field.asciiBytes, ascii,
        Except.map]
  | _ => rfl

theorem length_encode (p : Piece) :
    p.encode.length = p.length := by
  cases p with
  | lvAscii s ascii =>
      simp [encode, chunks, length, length_counted,
        Text.length_utf8 ascii, Nat.add_comm]
  | tlv tag bs =>
      simp [encode, chunks, length, length_counted]
      omega
  | _ =>
      simp [encode, chunks, length, length_counted,
        Word.length_bytes16, Word.length_bytes32, Nat.add_comm]

theorem length_flatMap_encode (ps : List Piece) :
    (ps.flatMap encode).length = total ps := by
  induction ps with
  | nil => rfl
  | cons p ps ih =>
      rw [List.flatMap_cons, List.length_append, length_encode, ih,
        total]

end Piece

------------------------------------------------------------
-- Writing Pieces
------------------------------------------------------------

namespace Builder

variable {b : Builder}

/- Bytes that fit are appended, and nothing is refused. -/
theorem push_of_fits
    {bytes : List UInt8}
    (hFits : b.apdu.data.length + bytes.length ≤ maxPayload) :
    (b.push bytes).errors = b.errors ∧
      (b.push bytes).apdu.data = b.apdu.data ++ bytes := by
  have hRoom : bytes.length ≤ b.available := by
    unfold available
    omega
  rw [push, dif_pos hRoom]
  exact ⟨rfl, rfl⟩

/- Bytes that do not fit are refused. -/
theorem errors_push_ne_nil
    {bytes : List UInt8}
    (hLong : maxPayload < b.apdu.data.length + bytes.length) :
    (b.push bytes).errors ≠ [] := by
  have hRoom : ¬ bytes.length ≤ b.available := by
    have hBound := b.apdu.data_le
    unfold available
    omega
  rw [push, dif_neg hRoom]
  simp [refuse]

/- What has been refused is not forgotten. -/
theorem errors_prefix_add (b : Builder) (f : Field) :
    b.errors <+: (b.add f).errors := by
  unfold add
  cases f.encode with
  | error e => exact List.prefix_append b.errors [e]
  | ok bytes =>
      simp only [push]
      split
      · exact List.prefix_refl b.errors
      · exact List.prefix_append b.errors _

theorem errors_prefix_addAll (b : Builder) (fs : List Field) :
    b.errors <+: (b.addAll fs).errors := by
  induction fs generalizing b with
  | nil => exact List.prefix_refl b.errors
  | cons f fs ih =>
      exact (b.errors_prefix_add f).trans (ih (b.add f))

/-
  Fields in texts that are valid: none is refused exactly if
  all of them fit.  Then they stand one after another.
-/
theorem errors_addAll_iff
    {fs : List Field}
    {chunks : List (List UInt8)}
    (hEncode : fs.map Field.encode = chunks.map .ok)
    (hClean : b.errors = []) :
    ((b.addAll fs).errors = [] ↔
      b.apdu.data.length + chunks.flatten.length ≤
        maxPayload) ∧
    ((b.addAll fs).errors = [] →
      (b.addAll fs).apdu.data =
        b.apdu.data ++ chunks.flatten) := by
  induction fs generalizing b chunks with
  | nil =>
      obtain rfl : chunks = [] := by simpa using hEncode.symm
      have hBound := b.apdu.data_le
      simp [addAll, hClean, hBound]
  | cons f fs ih =>
      obtain ⟨bytes, chunks, rfl, hBytes, hRest⟩ :
          ∃ bytes rest,
            chunks = bytes :: rest ∧
            f.encode = .ok bytes ∧
            fs.map Field.encode = rest.map .ok := by
        cases chunks with
        | nil => simp at hEncode
        | cons bytes rest =>
            simp only [List.map_cons, List.cons.injEq] at hEncode
            exact ⟨bytes, rest, rfl, hEncode.1, hEncode.2⟩
      have hAdd : b.addAll (f :: fs) = (b.push bytes).addAll fs := by
        simp [addAll, add, hBytes]
      rw [hAdd, List.flatten_cons, List.length_append]
      by_cases hFits :
          b.apdu.data.length + bytes.length ≤ maxPayload
      · obtain ⟨hErrors, hData⟩ := push_of_fits hFits
        have hTail := ih hRest (hErrors.trans hClean)
        rw [hData, List.length_append, List.append_assoc,
          Nat.add_assoc] at hTail
        exact hTail
      · have hRefused : ((b.push bytes).addAll fs).errors ≠ [] :=
          fun hNone =>
            errors_push_ne_nil (Nat.lt_of_not_le hFits)
              (List.prefix_nil.mp
                (hNone ▸ errors_prefix_addAll _ fs))
        refine ⟨⟨fun hNone => absurd hNone hRefused, ?_⟩,
          fun hNone => absurd hNone hRefused⟩
        intro hAll
        omega

theorem build_eq_ok_iff (a : Apdu) :
    b.build = .ok a ↔ b.errors = [] ∧ b.apdu = a := by
  unfold build
  cases b.errors <;> simp

end Builder

------------------------------------------------------------
-- Reading Pieces
------------------------------------------------------------

namespace Reader

/- A cursor with bytes before and after it. -/
def between (before after : List UInt8) : Reader where
  data := before ++ after
  position := before.length
  position_le := by simp

section between

variable (before rest : List UInt8)

theorem take_between (bs : List UInt8) :
    (between before (bs ++ rest)).take bs.length =
      .ok (bs, between (before ++ bs) rest) := by
  have hRoom :
      (between before (bs ++ rest)).position + bs.length ≤
        (between before (bs ++ rest)).data.length := by
    simp [between]
  rw [take, dif_pos hRoom]
  simp [between]

theorem u8_between (v : UInt8) :
    (between before (v :: rest)).u8 =
      .ok (v, between (before ++ [v]) rest) := by
  rw [u8, show 1 = [v].length from rfl,
    ← List.singleton_append, take_between before rest [v]]
  rfl

theorem u16_between (v : UInt16) :
    (between before (Word.bytes16 v ++ rest)).u16 =
      .ok (v, between (before ++ Word.bytes16 v) rest) := by
  rw [u16, ← Word.length_bytes16 v, take_between]
  simp only [bind, Except.bind, Word.bytes16, Word.of16_bytes16,
    pure, Except.pure]

theorem u32_between (v : UInt32) :
    (between before (Word.bytes32 v ++ rest)).u32 =
      .ok (v, between (before ++ Word.bytes32 v) rest) := by
  rw [u32, ← Word.length_bytes32 v, take_between]
  simp only [bind, Except.bind, Word.bytes32, Word.of32_bytes32,
    pure, Except.pure]

theorem lv_between
    {bs : List UInt8}
    (hShort : bs.length < 256) :
    (between before (counted bs ++ rest)).lv =
      .ok (bs, between (before ++ counted bs) rest) := by
  have hLength : (UInt8.ofNat bs.length).toNat = bs.length := by
    rw [UInt8.toNat_ofNat']
    omega
  rw [lv, counted, List.cons_append, u8_between]
  simp only [bind, Except.bind, hLength, take_between,
    List.append_assoc, List.singleton_append]

/- A read that matches a piece finds it, and stops after it. -/
theorem perform_between
    {p : Piece}
    (hFits : p.length ≤ maxPayload) :
    (between before (p.encode ++ rest)).perform p.call =
      (.ok p.value, between (before ++ p.encode) rest) := by
  simp only [maxPayload] at hFits
  cases p with
  | u8 v =>
      simp [Piece.encode, Piece.chunks, Piece.call, Piece.value,
        perform, settle, u8_between]
  | u16 v =>
      simp [Piece.encode, Piece.chunks, Piece.call, Piece.value,
        perform, settle, u16_between]
  | u32 v =>
      simp [Piece.encode, Piece.chunks, Piece.call, Piece.value,
        perform, settle, u32_between]
  | bytes bs =>
      simp [Piece.encode, Piece.chunks, Piece.call, Piece.value,
        perform, settle, take_between]
  | lvBytes bs =>
      have hShort : bs.length < 256 := by
        simp only [Piece.length] at hFits
        omega
      simp [Piece.encode, Piece.chunks, Piece.call, Piece.value,
        perform, settle, lv_between before rest hShort]
  | lvAscii s ascii =>
      have hShort : (Text.utf8 s).length < 256 := by
        simp only [Piece.length] at hFits
        rw [Text.length_utf8 ascii]
        omega
      simp [Piece.encode, Piece.chunks, Piece.call, Piece.value,
        perform, settle, lvAscii, lv_between before rest hShort,
        bind, Except.bind, pure, Except.pure,
        Text.ofAsciiLossy_utf8 ascii]
  | tlv tag bs =>
      have hShort : bs.length < 256 := by
        simp only [Piece.length] at hFits
        omega
      have hValue := lv_between (before ++ [tag]) rest hShort
      simp [Piece.encode, Piece.chunks, Piece.call, Piece.value,
        perform, settle, tlv, u8_between, hValue, bind,
        Except.bind, pure, Except.pure]

end between

/- The values of reads in turn, each with where it ends. -/
def performAll (r : Reader) :
    List ReadCall →
    List (Except ShortRead ReadValue × Nat) × Reader
  | [] => ([], r)
  | c :: cs =>
      let (v, r') := r.perform c
      let (vs, r'') := performAll r' cs
      ((v, r'.position) :: vs, r'')

/- Pieces in turn read back, each up to where it ends. -/
theorem performAll_between
    (before : List UInt8)
    {ps : List Piece}
    (hFits : Piece.total ps ≤ maxPayload) :
    (between before (ps.flatMap Piece.encode)).performAll
        (ps.map Piece.call) =
      (Piece.outline before.length ps,
        between (before ++ ps.flatMap Piece.encode) []) := by
  induction ps generalizing before with
  | nil => simp [performAll, Piece.outline]
  | cons p ps ih =>
      rw [Piece.total] at hFits
      have hFirst : p.length ≤ maxPayload := by omega
      have hLater : Piece.total ps ≤ maxPayload := by omega
      simp only [List.map_cons, List.flatMap_cons, performAll,
        perform_between before _ hFirst, ih _ hLater,
        Piece.outline, List.append_assoc]
      simp [between, p.length_encode]

end Reader

/- How many bytes a read asks for first. -/
def ReadCall.least : ReadCall → Nat
  | u8 | lv | lvAscii | tlv => 1
  | u16 => 2
  | u32 => 4
  | bytes n => n
  | rest | reset => 0

namespace Reader

theorem take_of_short
    {r : Reader}
    {n : Nat}
    (hShort : r.remaining < n) :
    r.take n = .error ⟨r.position, n⟩ := by
  have hBound := r.position_le
  unfold remaining at hShort
  rw [take, dif_neg (by omega)]

/- A read that asks for more than there is left fails. -/
theorem perform_of_short
    {r : Reader}
    {c : ReadCall}
    (hShort : r.remaining < c.least) :
    r.perform c = (.error ⟨r.position, c.least⟩, r) := by
  have hTake := take_of_short hShort
  cases c with
  | rest | reset => simp [ReadCall.least] at hShort
  | bytes n =>
      simp only [perform, ReadCall.least] at hTake ⊢
      simp [hTake, settle]
  | u8 | u16 | u32 | lv | lvAscii | tlv =>
      simp only [ReadCall.least] at hTake
      simp [perform, settle, u8, u16, u32, lv, lvAscii, tlv, hTake,
        bind, Except.bind, ReadCall.least]

end Reader

------------------------------------------------------------
-- There and Back
------------------------------------------------------------

/-
  Pieces make up a command exactly if they are not too long
  together.  The reads that match them find their values in
  its payload, each up to where its piece ends.  Nothing is
  left after that, and no further read finds anything.
-/
theorem Builder.performAll_build
    (cla ins p1 p2 : UInt8)
    (ps : List Piece) :
    let b := (ofHeader cla ins p1 p2).addAll
      (ps.flatMap Piece.fields)
    ((∃ a, b.build = .ok a) ↔ Piece.total ps ≤ maxPayload) ∧
    ∀ a, b.build = .ok a →
      ∃ r : Reader,
        (Reader.ofBytes a.data).performAll (ps.map Piece.call) =
          (Piece.outline 0 ps, r) ∧
        r.remaining = 0 ∧
        ∀ c : ReadCall,
          0 < c.least →
            r.perform c = (.error ⟨r.position, c.least⟩, r) := by
  intro b
  have hEncode :
      (ps.flatMap Piece.fields).map Field.encode =
        (ps.flatMap Piece.chunks).map .ok := by
    simp only [List.map_flatMap, Piece.encode_fields]
  have hFlatten :
      (ps.flatMap Piece.chunks).flatten =
        ps.flatMap Piece.encode := by
    simp only [List.flatMap_def, List.flatten_flatten,
      List.map_map]
    rfl
  have hEmpty : (ofHeader cla ins p1 p2).apdu.data = [] := rfl
  obtain ⟨hFits, hData⟩ :
      (b.errors = [] ↔ Piece.total ps ≤ maxPayload) ∧
      (b.errors = [] →
        b.apdu.data = ps.flatMap Piece.encode) := by
    have hAll := errors_addAll_iff hEncode
      (b := ofHeader cla ins p1 p2) rfl
    rwa [hFlatten, Piece.length_flatMap_encode, hEmpty,
      List.length_nil, Nat.zero_add, List.nil_append] at hAll
  constructor
  · simp only [build_eq_ok_iff, hFits, exists_and_left,
      exists_eq', and_true]
  · intro a hBuild
    obtain ⟨hNone, rfl⟩ := (b.build_eq_ok_iff a).mp hBuild
    refine ⟨.between (ps.flatMap Piece.encode) [], ?_, ?_, ?_⟩
    · rw [hData hNone]
      exact Reader.performAll_between [] (hFits.mp hNone)
    · simp [Reader.remaining, Reader.between]
    · intro c hAsks
      apply Reader.perform_of_short
      simpa [Reader.remaining, Reader.between] using hAsks

end DeviceSession
