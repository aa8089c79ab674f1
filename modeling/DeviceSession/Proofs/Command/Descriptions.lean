import DeviceSession.Command.Dashboard
import DeviceSession.Proofs.Apdu.Cursors

/-
  Descriptions of apps, written and read.

  A payload that is read as a description is laid out as a
  format byte, counted name, counted version, then nothing,
  or counted flags and whatever else there may be.  A
  description is read back from its own payload exactly if
  one byte can count each of its parts.  In the other
  direction a payload of the one known format, with ASCII
  texts, begins with the payload of what is read from it.

  Key definitions include:
    * `AppInfo.Layout`
    * `AppInfo.Layout.payload`
    * `AppInfo.Layout.info`
    * `AppInfo.nameBytes`
    * `AppInfo.versionBytes`

  Main declarations:
    * `Reader.counted_or_cut`
    * `AppInfo.parse_eq_ok_iff`
    * `AppInfo.parse_encode_iff`
    * `AppInfo.Layout.payload_eq_encode_append`
    * `Command.getApp_transcribes`
-/

------------------------------------------------------------
-- ASCII Bytes
------------------------------------------------------------

namespace DeviceSession

namespace Text

/- Every byte is one of the first 128. -/
def AsciiBytes (bytes : List UInt8) : Prop :=
  ∀ b ∈ bytes, b.toNat < 128

instance (bytes : List UInt8) : Decidable (AsciiBytes bytes) :=
  List.decidableBAll (fun b : UInt8 => b.toNat < 128) _

variable {bytes : List UInt8}

theorem length_ofAsciiLossy (bytes : List UInt8) :
    (ofAsciiLossy bytes).length = bytes.length := by
  rw [ofAsciiLossy, String.length_ofList, List.length_map]

theorem toNat_ofAsciiByte
    {b : UInt8}
    (hAscii : b.toNat < 128) :
    (ofAsciiByte b).toNat = b.toNat := by
  have hValid : b.toNat.isValidChar := .inl (by omega)
  rw [ofAsciiByte, if_pos hAscii, Char.ofNat, dif_pos hValid]
  rfl

theorem isAscii_ofAsciiLossy (hAscii : AsciiBytes bytes) :
    IsAscii (ofAsciiLossy bytes) := by
  intro c hMem
  rw [ofAsciiLossy, String.toList_ofList] at hMem
  rcases List.mem_map.mp hMem with ⟨b, hByte, rfl⟩
  have hLt := hAscii b hByte
  exact (toNat_ofAsciiByte hLt).symm ▸ hLt

/- The text of such bytes is written as these bytes. -/
theorem utf8_ofAsciiLossy (hAscii : AsciiBytes bytes) :
    utf8 (ofAsciiLossy bytes) = bytes := by
  have hByte : ∀ b ∈ bytes, asciiByte (ofAsciiByte b) = b := by
    intro b hMem
    rw [asciiByte, toNat_ofAsciiByte (hAscii b hMem),
      UInt8.ofNat_toNat]
  calc utf8 (ofAsciiLossy bytes)
    _ = (ofAsciiLossy bytes).toList.map asciiByte :=
      utf8_eq_map (isAscii_ofAsciiLossy hAscii)
    _ = (bytes.map ofAsciiByte).map asciiByte := by
      rw [ofAsciiLossy, String.toList_ofList]
      rfl
    _ = bytes.map (asciiByte ∘ ofAsciiByte) := List.map_map
    _ = bytes.map id := List.map_congr_left hByte
    _ = bytes := List.map_id bytes

end Text

------------------------------------------------------------
-- Counted Fields
------------------------------------------------------------

namespace Reader

/- A counted field is there and is read, or it is cut off. -/
theorem counted_or_cut (before after : List UInt8) :
    (∃ bs tail,
      bs.length < 256 ∧ after = counted bs ++ tail) ∨
    ∃ e, (between before after).lv = .error e ∧
      (before ++ after).length < e.offset + e.wanted := by
  by_cases hFits : ReadCall.lv.extent after ≤ after.length
  · match after, hFits with
    | count :: value, hFits =>
      have hCount : count.toNat ≤ value.length := by
        simpa [ReadCall.extent] using hFits
      have hLength := ReadCall.toNat_eq_length_take hCount
      refine .inl
        ⟨value.take count.toNat, value.drop count.toNat, ?_, ?_⟩
      · exact hLength ▸ count.toNat_lt
      · rw [counted, ← hLength, UInt8.ofNat_toNat,
          List.cons_append, List.take_append_drop]
  · exact .inr (lv_between_of_cut before (Nat.lt_of_not_le hFits))

theorem lvAscii_between
    (before rest : List UInt8)
    {bs : List UInt8}
    (hShort : bs.length < 256) :
    (between before (counted bs ++ rest)).lvAscii =
      .ok (Text.ofAsciiLossy bs,
        between (before ++ counted bs) rest) := by
  rw [lvAscii, lv_between before rest hShort]
  rfl

theorem lvAscii_of_lv_error
    {r : Reader}
    {e : ShortRead}
    (hLv : r.lv = .error e) :
    r.lvAscii = .error e := by
  rw [lvAscii, hLv]
  rfl

end Reader

------------------------------------------------------------
-- Layouts
------------------------------------------------------------

namespace AppInfo

/- The parts of a payload that is read as a description. -/
structure Layout where
  format : UInt8
  name : List UInt8
  version : List UInt8
  flags : Option (List UInt8)
  /- What follows the flags, which is not looked at. -/
  extra : List UInt8
  name_lt : name.length < 256
  version_lt : version.length < 256
  flags_lt : ∀ fs ∈ flags, fs.length < 256
  extra_of_none : flags = none → extra = []

namespace Layout

/- The payload that is laid out like this. -/
def payload (l : Layout) : List UInt8 :=
  l.format :: counted l.name ++ (counted l.version ++
    (l.flags.elim [] counted ++ l.extra))

/- What is read from it. -/
def info (l : Layout) : AppInfo where
  name := Text.ofAsciiLossy l.name
  version := Text.ofAsciiLossy l.version
  flags := l.flags

end Layout

section Parse

open Reader

variable (format : UInt8) {name version : List UInt8}

theorem parse_nil : parse [] = .error ⟨0, 1⟩ := rfl

/- The payload is past its format byte. -/
theorem parse_cons (after : List UInt8) :
    parse (format :: after) = (do
      let (name, r) ← (between [format] after).lvAscii
      let (version, r) ← r.lvAscii
      if r.remaining = 0 then
        return { name, version }
      else
        let (flags, _) ← r.lv
        return { name, version, flags := some flags }) := by
  have hFormat :
      (ofBytes (format :: after)).u8 =
        .ok (format, between [format] after) :=
    u8_between [] after format
  rw [parse, hFormat]
  rfl

/- The payload is past its texts. -/
theorem parse_texts
    (hName : name.length < 256)
    (hVersion : version.length < 256)
    (tail : List UInt8) :
    let r := between
      ([format] ++ counted name ++ counted version) tail
    let texts : AppInfo :=
      ⟨Text.ofAsciiLossy name, Text.ofAsciiLossy version, none⟩
    parse (format :: counted name ++ (counted version ++ tail)) =
      if tail = [] then .ok texts
      else r.lv.map fun x => { texts with flags := some x.1 } := by
  intro r texts
  rw [List.cons_append, parse_cons, lvAscii_between _ _ hName]
  simp only [bind, Except.bind, lvAscii_between _ tail hVersion,
    remaining_between, List.length_eq_zero_iff]
  split
  · rfl
  · cases r.lv <;> rfl

end Parse

theorem parse_payload (l : Layout) :
    parse l.payload = .ok l.info := by
  rw [Layout.payload, parse_texts l.format l.name_lt l.version_lt]
  cases hFlags : l.flags with
  | none =>
      simp [l.extra_of_none hFlags, Layout.info, hFlags]
  | some flags =>
      have hLv := Reader.lv_between
        ([l.format] ++ counted l.name ++ counted l.version)
        l.extra (l.flags_lt flags hFlags)
      have hTail : counted flags ++ l.extra ≠ [] := by
        simp [counted]
      rw [Option.elim_some, if_neg hTail, hLv]
      simp [Layout.info, hFlags, Except.map]

section Missing

variable (format : UInt8) {name version : List UInt8}

/- After both texts, flags may be cut off. -/
theorem layout_or_error_versioned
    (hName : name.length < 256)
    (hVersion : version.length < 256)
    (tail : List UInt8) :
    let p :=
      format :: (counted name ++ (counted version ++ tail))
    (∃ l : Layout, l.payload = p) ∨
      ∃ e, parse p = .error e ∧
        p.length < e.offset + e.wanted := by
  intro p
  by_cases hTail : tail = []
  · subst hTail
    exact .inl ⟨⟨format, name, version, none, [], hName, hVersion,
      by simp, fun _ => rfl⟩, by simp [Layout.payload, p]⟩
  · rcases Reader.counted_or_cut
        ([format] ++ counted name ++ counted version) tail with
      ⟨flags, extra, hFlags, rfl⟩ | ⟨e, hLv, hEnd⟩
    · exact .inl ⟨⟨format, name, version, some flags, extra,
        hName, hVersion, by simpa using hFlags, by simp⟩,
        by simp [Layout.payload, p]⟩
    · refine .inr ⟨e, ?_, by simpa [p] using hEnd⟩
      have hParse := parse_texts format hName hVersion tail
      simp only [if_neg hTail, hLv] at hParse
      exact hParse

/- After the name, the version may be cut off. -/
theorem layout_or_error_named
    (hName : name.length < 256)
    (after : List UInt8) :
    let p := format :: (counted name ++ after)
    (∃ l : Layout, l.payload = p) ∨
      ∃ e, parse p = .error e ∧
        p.length < e.offset + e.wanted := by
  intro p
  rcases Reader.counted_or_cut ([format] ++ counted name) after with
    ⟨version, tail, hVersion, rfl⟩ | ⟨e, hLv, hEnd⟩
  · exact layout_or_error_versioned format hName hVersion tail
  · refine .inr ⟨e, ?_, by simpa [p] using hEnd⟩
    rw [parse_cons, Reader.lvAscii_between _ _ hName]
    simp only [bind, Except.bind,
      Reader.lvAscii_of_lv_error hLv]

end Missing

/-
  A payload is laid out as a description, or a part of it is
  missing that would lie past its end.
-/
theorem layout_or_error (p : List UInt8) :
    (∃ l : Layout, l.payload = p) ∨
    ∃ e, parse p = .error e ∧ p.length < e.offset + e.wanted := by
  cases p with
  | nil => exact .inr ⟨⟨0, 1⟩, parse_nil, by simp⟩
  | cons format after =>
      rcases Reader.counted_or_cut [format] after with
        ⟨name, after, hName, rfl⟩ | ⟨e, hLv, hEnd⟩
      · exact layout_or_error_named format hName after
      · refine .inr ⟨e, ?_, hEnd⟩
        rw [parse_cons, Reader.lvAscii_of_lv_error hLv]
        rfl

theorem parse_eq_ok_iff
    {p : List UInt8}
    {x : AppInfo} :
    parse p = .ok x ↔
      ∃ l : Layout, l.payload = p ∧ l.info = x := by
  constructor
  · intro hOk
    rcases layout_or_error p with ⟨l, rfl⟩ | ⟨e, hError, -⟩
    · rw [parse_payload] at hOk
      cases hOk
      exact ⟨l, rfl, rfl⟩
    · rw [hError] at hOk
      cases hOk
  · rintro ⟨l, rfl, rfl⟩
    exact parse_payload l

theorem missing_of_parse_eq_error
    {p : List UInt8}
    {e : ShortRead}
    (hError : parse p = .error e) :
    p.length < e.offset + e.wanted := by
  rcases layout_or_error p with ⟨l, rfl⟩ | ⟨e', hError', hEnd⟩
  · rw [parse_payload] at hError
    cases hError
  · rw [hError] at hError'
    cases hError'
    exact hEnd

------------------------------------------------------------
-- There and Back
------------------------------------------------------------

/- One byte can count each part of a description. -/
structure Countable (x : AppInfo) : Prop where
  name : (Text.utf8 x.name).length ≤ 255
  version : (Text.utf8 x.version).length ≤ 255
  flags : ∀ flags ∈ x.flags, flags.length ≤ 255

/- Whatever is read is countable, if its texts are ASCII. -/
theorem countable_of_parse
    {p : List UInt8}
    {x : AppInfo}
    (hParse : parse p = .ok x)
    (hName : Text.IsAscii x.name)
    (hVersion : Text.IsAscii x.version) :
    x.Countable := by
  rcases parse_eq_ok_iff.mp hParse with ⟨l, -, rfl⟩
  have hNameLength := Text.length_ofAsciiLossy l.name
  have hVersionLength := Text.length_ofAsciiLossy l.version
  exact {
    name := by
      rw [Text.length_utf8 hName, Layout.info, hNameLength]
      exact Nat.le_of_lt_succ l.name_lt
    version := by
      rw [Text.length_utf8 hVersion, Layout.info, hVersionLength]
      exact Nat.le_of_lt_succ l.version_lt
    flags := fun flags hFlags =>
      Nat.le_of_lt_succ (l.flags_lt flags hFlags) }

/- A count cut to one byte never leads back. -/
theorem parse_encode_iff
    {x : AppInfo}
    (hName : Text.IsAscii x.name)
    (hVersion : Text.IsAscii x.version) :
    parse x.encode = .ok x ↔ x.Countable := by
  constructor
  · intro hParse
    exact countable_of_parse hParse hName hVersion
  · intro hCountable
    refine parse_eq_ok_iff.mpr ⟨{
      format := 0x01
      name := Text.utf8 x.name
      version := Text.utf8 x.version
      flags := x.flags
      extra := []
      name_lt := Nat.lt_succ_of_le hCountable.name
      version_lt := Nat.lt_succ_of_le hCountable.version
      flags_lt := fun flags hFlags =>
        Nat.lt_succ_of_le (hCountable.flags flags hFlags)
      extra_of_none := fun _ => rfl }, ?_, ?_⟩
    · simp [Layout.payload, encode]
    · simp [Layout.info, Text.ofAsciiLossy_utf8 hName,
        Text.ofAsciiLossy_utf8 hVersion]

/- The bytes that a byte of a payload counts. -/
def countedAt (p : List UInt8) (i : Nat) : List UInt8 :=
  (p.drop (i + 1)).take (p.getD i 0).toNat

/- The name in a payload, as bytes. -/
def nameBytes (p : List UInt8) : List UInt8 :=
  countedAt p 1

/- The version in a payload, as bytes. -/
def versionBytes (p : List UInt8) : List UInt8 :=
  countedAt p (2 + (nameBytes p).length)

theorem countedAt_append
    (before after : List UInt8)
    {bs : List UInt8}
    (hShort : bs.length < 256) :
    countedAt (before ++ (counted bs ++ after)) before.length =
      bs := by
  have hLength : (UInt8.ofNat bs.length).toNat = bs.length := by
    rw [UInt8.toNat_ofNat']
    omega
  simp [countedAt, counted, hLength]

namespace Layout

theorem nameBytes_payload (l : Layout) :
    nameBytes l.payload = l.name :=
  countedAt_append [l.format] _ l.name_lt

theorem versionBytes_payload (l : Layout) :
    versionBytes l.payload = l.version := by
  have hCounted := countedAt_append
    (l.format :: counted l.name) (l.flags.elim [] counted ++ l.extra)
    l.version_lt
  rw [List.length_cons, length_counted] at hCounted
  rw [versionBytes, nameBytes_payload, Nat.add_comm 2]
  exact hCounted

/- Nothing is lost of the one format with ASCII texts. -/
theorem payload_eq_encode_append
    (l : Layout)
    (hFormat : l.format = 0x01)
    (hName : Text.AsciiBytes l.name)
    (hVersion : Text.AsciiBytes l.version) :
    l.payload = l.info.encode ++ l.extra := by
  simp [payload, encode, info, hFormat,
    Text.utf8_ofAsciiLossy hName, Text.utf8_ofAsciiLossy hVersion]

end Layout

end AppInfo

------------------------------------------------------------
-- The Command That Asks for It
------------------------------------------------------------

namespace Command

/- A successful response is read as its payload is. -/
theorem getApp_parse_eq_ok_iff
    {p : List UInt8}
    {x : AppInfo} :
    getApp.parse ⟨.success, p⟩ = .ok x ↔
      AppInfo.parse p = .ok x := by
  have hSuccess :
      expectSuccess ErrorTable.empty ⟨.success, p⟩ = .ok () := rfl
  simp only [getApp, hSuccess, bind, Except.bind]
  cases AppInfo.parse p <;> simp [pure, Except.pure]

theorem getApp_parse_eq_error_iff
    {p : List UInt8}
    {error : CommandError Empty} :
    getApp.parse ⟨.success, p⟩ = .error error ↔
      ∃ e, AppInfo.parse p = .error e ∧
        error = .invalidResponse e := by
  have hSuccess :
      expectSuccess ErrorTable.empty ⟨.success, p⟩ = .ok () := rfl
  simp only [getApp, hSuccess, bind, Except.bind]
  cases AppInfo.parse p <;> simp [pure, Except.pure, eq_comm]

/-
  Asking which app is running.  A description with ASCII
  texts is read back from its own payload exactly if it is
  countable.  A payload of the one format with ASCII texts
  that is read begins with the payload of what is read from
  it.  One that is not read lacks bytes past its end.
-/
theorem getApp_transcribes :
    (∀ x : AppInfo,
      Text.IsAscii x.name →
      Text.IsAscii x.version →
        (getApp.parse ⟨.success, x.encode⟩ = .ok x ↔
          x.Countable)) ∧
    (∀ p x,
      p.head? = some 0x01 →
      getApp.parse ⟨.success, p⟩ = .ok x →
      Text.AsciiBytes (AppInfo.nameBytes p) →
      Text.AsciiBytes (AppInfo.versionBytes p) →
        x.encode <+: p) ∧
    (∀ p error,
      getApp.parse ⟨.success, p⟩ = .error error →
        ∃ e : ShortRead,
          error = .invalidResponse e ∧
            p.length < e.offset + e.wanted) := by
  refine ⟨?_, ?_, ?_⟩
  · intro x hName hVersion
    exact getApp_parse_eq_ok_iff.trans
      (AppInfo.parse_encode_iff hName hVersion)
  · intro p x hFormat hParse hName hVersion
    have hOk := getApp_parse_eq_ok_iff.mp hParse
    rcases AppInfo.parse_eq_ok_iff.mp hOk with ⟨l, rfl, rfl⟩
    rw [l.nameBytes_payload] at hName
    rw [l.versionBytes_payload] at hVersion
    have hOne : l.format = 0x01 := Option.some.inj hFormat
    exact ⟨l.extra,
      (l.payload_eq_encode_append hOne hName hVersion).symm⟩
  · intro p error hParse
    rcases getApp_parse_eq_error_iff.mp hParse with
      ⟨e, hRead, rfl⟩
    exact ⟨e, rfl, AppInfo.missing_of_parse_eq_error hRead⟩

end Command

/- A description whose flags are there but empty. -/
namespace Flagless

def info : AppInfo where
  name := "A"
  version := "1"
  flags := some []

def payload : List UInt8 :=
  [1, 1, 0x41, 1, 0x31, 0, 0xff]

theorem description_transcribed :
    Text.IsAscii info.name ∧
    Text.IsAscii info.version ∧
    Command.getApp.parse ⟨.success, info.encode⟩ = .ok info ∧
    payload.head? = some 0x01 ∧
    Command.getApp.parse ⟨.success, payload⟩ = .ok info ∧
    info.encode <+: payload ∧
    Command.getApp.parse ⟨.success, payload.take 4⟩ =
      .error (.invalidResponse ⟨4, 1⟩) ∧
    (payload.take 4).length < 4 + 1 := by
  rcases Command.getApp_transcribes with ⟨hBack, hPrefix, hShort⟩
  have hName : Text.IsAscii info.name := by decide
  have hVersion : Text.IsAscii info.version := by decide
  have hParse :
      Command.getApp.parse ⟨.success, payload⟩ = .ok info := rfl
  have hCut :
      Command.getApp.parse ⟨.success, payload.take 4⟩ =
        .error (.invalidResponse ⟨4, 1⟩) := rfl
  refine ⟨hName, hVersion, ?_, rfl, hParse, ?_, hCut, ?_⟩
  · exact (hBack info hName hVersion).mpr
      ⟨by decide, by decide, by simp [info]⟩
  · exact hPrefix payload info rfl hParse (by decide) (by decide)
  · rcases hShort _ _ hCut with ⟨e, hError, hEnd⟩
    cases hError
    exact hEnd

end Flagless

end DeviceSession
