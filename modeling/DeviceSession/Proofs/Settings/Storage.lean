import DeviceSession.Proofs.Settings.Validity
import Mathlib.Algebra.Group.Nat.Defs
import Mathlib.Data.List.Forall2

/-
  Settings and their stored form.

  A format writes settings one after the other: the one small
  setting as a byte, the others as words.  It reads them one
  after the other, and does not ask for what follows the last
  of them.  A word is written in up to five bytes that spell
  it.  From each of them a reader can tell whether it is the
  last one, and takes what belongs to the word and nothing
  else.

  In any such format settings that are stored are got back,
  whatever follows them, and no stored form begins another
  one.  The standard formats are such formats.

  Key definitions include:
    * `Varint.Spells`
    * `Settings.Key.Spells`
    * `Settings.Formats.Documented`

  Main declarations:
    * `Varint.decode?_encode_append`
    * `Settings.Formats.restore_store`
    * `Settings.Formats.standard_documented`
    * `Settings.stored_restored`
-/

------------------------------------------------------------
-- Spellings of a Number
------------------------------------------------------------

namespace DeviceSession

namespace Varint

/-
  The bytes spell the number: seven bits each, lowest first,
  and the last byte is the one without its high bit.  The
  last bytes may spell leading zeros.
-/
inductive Spells : List UInt8 → Nat → Prop where
  | last (b : UInt8) (hLast : b.toNat < 128) :
      Spells [b] b.toNat
  | more
      (b : UInt8)
      (hMore : 128 ≤ b.toNat)
      {rest : List UInt8}
      {n : Nat}
      (hRest : Spells rest n) :
      Spells (b :: rest) (b.toNat - 128 + 128 * n)

theorem Spells.length_pos
    {form : List UInt8}
    {n : Nat}
    (h : Spells form n) :
    0 < form.length := by
  cases h <;> exact Nat.succ_pos _

theorem toNat_ofNat_more (n : Nat) :
    (UInt8.ofNat (n % 128 + 128)).toNat = n % 128 + 128 := by
  rw [UInt8.toNat_ofNat']
  omega

/- The induction is on the number, group by group. -/
theorem spells_encode (n : Nat) : Spells (encode n) n := by
  induction n using encode.induct with
  | case1 n hSmall =>
      have hByte : (UInt8.ofNat n).toNat = n := by
        rw [UInt8.toNat_ofNat']
        omega
      have hSpells := Spells.last (UInt8.ofNat n) (by omega)
      rw [encode, if_pos hSmall]
      rwa [hByte] at hSpells
  | case2 n hLarge ih =>
      have hByte := toNat_ofNat_more n
      have hSpells :=
        Spells.more (UInt8.ofNat (n % 128 + 128)) (by omega) ih
      have hNumber :
          n % 128 + 128 - 128 + 128 * (n / 128) = n := by
        omega
      rw [encode, if_neg hLarge]
      rwa [hByte, hNumber] at hSpells

/- A number takes no more bytes than there is need for. -/
theorem length_encode_le
    (k n : Nat)
    (hRoom : n < 128 ^ (k + 1)) :
    (encode n).length ≤ k + 1 := by
  induction k generalizing n with
  | zero =>
      rw [encode, if_pos (by omega)]
      exact Nat.le_refl 1
  | succ k ih =>
      rw [encode]
      split
      · exact Nat.le_add_left 1 (k + 1)
      · rw [Nat.pow_succ] at hRoom
        have hRest := ih (n / 128) (by omega)
        exact Nat.succ_le_succ hRest

theorem length_encode_word (w : UInt32) :
    (encode w.toNat).length ≤ 5 := by
  have hWord := w.toNat_lt
  exact length_encode_le 4 w.toNat (by omega)

/- The bytes themselves tell where the number ends. -/
theorem Spells.decodeWithin?
    {form : List UInt8}
    {n : Nat}
    (hSpells : Spells form n)
    {more : Nat}
    (hShort : form.length ≤ more + 1)
    (hSmall : n < 16 * 128 ^ more)
    (rest : List UInt8) :
    decodeWithin? more (form ++ rest) = some (n, rest) := by
  induction hSpells generalizing more with
  | last b hLast =>
      cases more with
      | zero =>
          have hLow : b.toNat < 16 := by simpa using hSmall
          simp [Varint.decodeWithin?, hLow]
      | succ more => simp [Varint.decodeWithin?, hLast]
  | more b hMore hRest ih =>
      cases more with
      | zero =>
          have hPos := hRest.length_pos
          rw [List.length_cons] at hShort
          omega
      | succ more =>
          have hShort' := Nat.le_of_succ_le_succ hShort
          have hByte := b.toNat_lt
          have hTail := ih hShort' (by
            rw [Nat.pow_succ] at hSmall
            omega)
          simp [Varint.decodeWithin?, Nat.not_lt.mpr hMore,
            hTail]

end Varint

------------------------------------------------------------
-- Values by Key
------------------------------------------------------------

namespace Settings

theorem get_lt_bound (s : Settings) (k : Key) :
    s.get k < k.bound := by
  cases k with
  | frameWriteRetries => exact s.frameWriteRetries.toNat_lt
  | _ => exact UInt32.toNat_lt _

/- Settings are what they are set to, one after the other. -/
theorem foldl_set_get (s : Settings) :
    Key.all.foldl (fun a k => a.set k (s.get k)) {} = s := by
  simp [Key.all, set, get]

/-
  The bytes spell a value of a setting: the one small setting
  as it is, the others as numbers of up to five bytes.
-/
def Key.Spells (k : Key) (form : List UInt8) (n : Nat) :
    Prop :=
  match k with
  | .frameWriteRetries => ∃ b, form = [b] ∧ n = b.toNat
  | _ => Varint.Spells form n ∧ form.length ≤ 5

------------------------------------------------------------
-- What Is Known of a Format
------------------------------------------------------------

namespace Formats

/- What the documents of a format say of its stored form. -/
structure Documented (f : Formats) : Prop where
  /- Settings are written in the order of their keys. -/
  stored :
    ∀ s,
      f.store s = (Key.all.mapM (f.put s)).map List.flatten
  /- A byte is written as it is. -/
  bytePut : ∀ b, f.putByte b = some [b]
  /- A word is written seven bits at a time. -/
  wordPut :
    ∀ w, ∃ form,
      f.putWord w = some form ∧
        Varint.Spells form w.toNat ∧ form.length ≤ 5
  /- Settings are read in the order of their keys.  What is
     not used is not looked at. -/
  restored :
    ∀ blob,
      f.restore blob = (f.takeAll Key.all {} blob).map Prod.fst
  byteTaken :
    ∀ b rest, f.takeByte (b :: rest) = some (b, rest)
  /- A word is read up to the byte without its high bit. -/
  wordTaken :
    ∀ form (w : UInt32) rest,
      Varint.Spells form w.toNat → form.length ≤ 5 →
        f.takeWord (form ++ rest) = some (w, rest)

section Documents

variable {f : Formats}

/- A setting is written in bytes that spell it. -/
theorem Documented.put
    (h : f.Documented)
    (s : Settings)
    (k : Key) :
    ∃ form, f.put s k = some form ∧ k.Spells form (s.get k) := by
  cases k with
  | frameWriteRetries =>
      exact ⟨[s.frameWriteRetries], h.bytePut _, _, rfl, rfl⟩
  | _ =>
      simp only [Formats.put, get, UInt32.ofNat_toNat]
      exact h.wordPut _

/- A setting is read from such bytes, and no others. -/
theorem Documented.take
    (h : f.Documented)
    {k : Key}
    {form : List UInt8}
    {n : Nat}
    (hSpells : k.Spells form n)
    (hBound : n < k.bound)
    (rest : List UInt8) :
    f.take k (form ++ rest) = some (n, rest) := by
  cases k with
  | frameWriteRetries =>
      rcases hSpells with ⟨b, rfl, rfl⟩
      simp only [Formats.take, List.singleton_append,
        h.byteTaken]
      rfl
  | _ =>
      rcases hSpells with ⟨hSpells, hShort⟩
      have hWord : (UInt32.ofNat n).toNat = n :=
        UInt32.toNat_ofNat_of_lt' hBound
      rw [← hWord] at hSpells
      simp only [Formats.take,
        h.wordTaken form _ rest hSpells hShort, Option.map_some,
        Prod.map, hWord, id]

/- The given settings are written one after the other. -/
theorem Documented.putAll
    (h : f.Documented)
    (s : Settings)
    (ks : List Key) :
    ∃ forms,
      ks.mapM (f.put s) = some forms ∧
        List.Forall₂ (fun k form => k.Spells form (s.get k))
          ks forms := by
  induction ks with
  | nil => exact ⟨[], rfl, .nil⟩
  | cons k ks ih =>
      rcases h.put s k with ⟨form, hPut, hSpells⟩
      rcases ih with ⟨forms, hRest, hForms⟩
      refine ⟨form :: forms, ?_, .cons hSpells hForms⟩
      rw [List.mapM_cons, hPut, hRest]
      rfl

/-
  They are read one after the other.  The induction is on the
  settings left to read, whatever has been read before.
-/
theorem Documented.takeAll
    (h : f.Documented)
    {s : Settings}
    {ks : List Key}
    {forms : List (List UInt8)}
    (hForms :
      List.Forall₂ (fun k form => k.Spells form (s.get k))
        ks forms)
    (start : Settings)
    (tail : List UInt8) :
    f.takeAll ks start (forms.flatten ++ tail) =
      some (ks.foldl (fun a k => a.set k (s.get k)) start,
        tail) := by
  induction hForms generalizing start with
  | nil => rfl
  | @cons k form ks forms hSpells hForms ih =>
      rw [List.flatten_cons, List.append_assoc,
        Formats.takeAll,
        h.take hSpells (s.get_lt_bound k) _]
      exact ih (start.set k (s.get k))

/- What is written is read again, whatever follows it. -/
theorem restore_store
    (h : f.Documented)
    (s : Settings) :
    ∃ forms : List (List UInt8),
      f.store s = some forms.flatten ∧
        List.Forall₂ (fun k form => k.Spells form (s.get k))
          Key.all forms ∧
        ∀ tail,
          f.restore (forms.flatten ++ tail) = some s := by
  rcases h.putAll s Key.all with ⟨forms, hPut, hForms⟩
  refine ⟨forms, ?_, hForms, fun tail => ?_⟩
  · rw [h.stored, hPut]
    rfl
  · rw [h.restored, h.takeAll hForms, foldl_set_get]
    rfl

/- No stored form begins another one. -/
theorem prefix_iff
    (h : f.Documented)
    {s s' : Settings}
    {blob blob' : List UInt8}
    (hSave : f.save s = .ok blob)
    (hSave' : f.save s' = .ok blob') :
    blob <+: blob' ↔ s = s' := by
  rcases restore_store h s with ⟨forms, hStore, -, hRead⟩
  rcases restore_store h s' with ⟨forms', hStore', -, hRead'⟩
  simp only [save, hStore, Except.ok.injEq] at hSave
  simp only [save, hStore', Except.ok.injEq] at hSave'
  subst hSave hSave'
  constructor
  · rintro ⟨tail, hTail⟩
    have hWhole := hRead' []
    rw [List.append_nil, ← hTail, hRead tail] at hWhole
    exact Option.some.inj hWhole
  · rintro rfl
    rw [hStore] at hStore'
    exact Option.some.inj hStore' ▸ List.prefix_rfl

end Documents

------------------------------------------------------------
-- The Standard Stored Form
------------------------------------------------------------

theorem put_standard (s : Settings) (k : Key) :
    standard.put s k = some (s.encodeKey k) := by
  cases k with
  | frameWriteRetries => rfl
  | _ =>
      simp only [put, standard, encodeKey, get,
        UInt32.ofNat_toNat]

/- A number that is read is given to its setting as a word. -/
theorem takeAll_standard
    (ks : List Key)
    (start : Settings)
    (bytes : List UInt8) :
    (standard.takeAll ks start bytes).map Prod.fst =
      decodeKeys? ks start bytes := by
  induction ks generalizing start bytes with
  | nil => rfl
  | cons k ks ih =>
      rw [Formats.takeAll, decodeKeys?]
      cases k with
      | frameWriteRetries =>
          cases bytes with
          | nil => rfl
          | cons b rest => exact ih _ rest
      | _ =>
          simp only [Formats.take, decodeKey?]
          change (((Varint.decode? bytes).map _).map _ >>= _).map
            _ = _
          cases Varint.decode? bytes with
          | none => rfl
          | some p =>
              refine (ih _ p.2).trans ?_
              simp only [Prod.map, set, UInt32.ofNat_toNat, id]
              rfl

theorem standard_documented : standard.Documented where
  stored := by
    intro s
    have hPut : standard.put s = fun k => pure (s.encodeKey k) :=
      funext (put_standard s)
    rw [hPut, List.mapM_pure]
    simp [standard, encode, List.flatMap_def]
  bytePut _ := rfl
  wordPut w :=
    ⟨Varint.encode w.toNat, rfl, Varint.spells_encode w.toNat,
      Varint.length_encode_word w⟩
  restored blob := (takeAll_standard Key.all {} blob).symm
  byteTaken _ _ := rfl
  wordTaken := by
    intro form w rest hSpells hShort
    have hRead :
        Varint.decode? (form ++ rest) = some (w.toNat, rest) :=
      hSpells.decodeWithin? hShort w.toNat_lt rest
    simp [standard, hRead]

end Formats

------------------------------------------------------------
-- Storing and Restoring
------------------------------------------------------------

/-
  In any format that is as its documents say, settings can
  always be written: each in its turn, the small one as a
  byte, the others seven bits at a time.  Whatever follows
  what has been written, exactly valid settings are got back
  from it, as they were.  Others are refused for what is
  wrong with them.  What is written for settings neither is
  nor begins what is written for others.
-/
theorem stored_restored
    {f : Formats}
    (hDocumented : f.Documented)
    (s : Settings) :
    ∃ blob,
      f.save s = .ok blob ∧
      (∃ forms,
        List.Forall₂ (fun k form => k.Spells form (s.get k))
          Key.all forms ∧
        blob = forms.flatten) ∧
      (∀ tail,
        f.load (blob ++ tail) = .ok s ↔ s.validate = .ok ()) ∧
      (∀ tail e,
        f.load (blob ++ tail) = .error e ↔
          s.validate = .error e) ∧
      ∀ s' blob',
        f.save s' = .ok blob' → (blob <+: blob' ↔ s = s') := by
  rcases Formats.restore_store hDocumented s with
    ⟨forms, hStore, hForms, hRead⟩
  have hSave : f.save s = .ok forms.flatten := by
    rw [Formats.save, hStore]
  have hLoad : ∀ tail,
      f.load (forms.flatten ++ tail) =
        s.validate.map fun _ => s := by
    intro tail
    rw [Formats.load, hRead]
    rfl
  refine ⟨forms.flatten, hSave, ⟨forms, hForms, rfl⟩,
    fun tail => ?_, fun tail e => ?_, fun s' blob' hSave' => ?_⟩
  · rw [hLoad]
    cases s.validate <;> simp [Except.map]
  · rw [hLoad]
    cases s.validate <;> simp [Except.map]
  · exact Formats.prefix_iff hDocumented hSave hSave'

end Settings

/- Numbers at both sides of where one more byte is needed. -/
namespace Boundaries

open Settings (Formats)

def settings : Settings where
  apduTimeout := 4294967295
  frameWriteRetries := 200
  frameRetryDelay := 127
  mtuHandshakeTimeout := 128
  reconnectBudget := 16384
  reconnectDelay := 16383
  outOfRangeDelay := 2097152
  reachabilityFallback := 268435455

def blob : List UInt8 :=
  [ 0xff, 0xff, 0xff, 0xff, 0x0f, 200, 0x7f,
    0x80, 0x01, 0x80, 0x80, 0x01, 0xff, 0x7f,
    0x80, 0x80, 0x80, 0x01, 0xff, 0xff, 0xff, 0x7f ]

theorem boundaries_restored :
    Formats.standard.Documented ∧
      settings.validate = .ok () ∧
      Formats.standard.save settings = .ok blob ∧
      ∀ tail,
        Formats.standard.load (blob ++ tail) =
          .ok settings := by
  have hDocumented := Formats.standard_documented
  have hValid : settings.validate = .ok () := by decide
  have hBlob : Formats.standard.save settings = .ok blob := by
    decide +kernel
  rcases Settings.stored_restored hDocumented settings with
    ⟨blob', hSave, -, hLoad, -⟩
  cases hBlob.symm.trans hSave
  exact ⟨hDocumented, hValid, hBlob,
    fun tail => (hLoad tail).mpr hValid⟩

end Boundaries

end DeviceSession
