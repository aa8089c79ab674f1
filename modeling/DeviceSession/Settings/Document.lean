import DeviceSession.Json.Lexeme
import DeviceSession.Settings.Basic

/-
  Settings written as a JSON document.

  A document is an object with some of the settings by
  name, or an array with the first of them in order.  What
  is not given keeps its default.  An object may hold other
  members, whatever their values; a setting may be given
  once only.

  This is the standard reader.  What is said of documents is
  said of every reader, in `Settings.Formats`.

  Key definitions include:
    * `Json.Skip`
    * `Json.Skip.next`
    * `Settings.Document`
    * `Settings.Document.next`
    * `Settings.parse?`
    * `Settings.ofJson`
-/

------------------------------------------------------------
-- Skipping Values
------------------------------------------------------------

namespace DeviceSession

namespace Json

/- What may come next in a value that is skipped. -/
inductive Expected where
  | value
  /- The first element of an array, or its end. -/
  | elementOrEnd
  /- The first name of an object, or its end. -/
  | nameOrEnd
  | name
  | colon
  | commaOrEnd
deriving DecidableEq

/- The kinds of brackets that are open. -/
inductive Bracket where
  | object
  | array
deriving DecidableEq

/- A value being skipped: inner brackets come first. -/
structure Skip where
  expected : Expected := .value
  brackets : List Bracket := []
deriving DecidableEq

namespace Skip

/- After a value: go on, or none if nothing is open. -/
def afterValue : List Bracket → Option Skip
  | [] => none
  | bs => some ⟨.commaOrEnd, bs⟩

/- The start of a value.  The inner `none` says it is over. -/
def startValue (bs : List Bracket) :
    Lexeme → Option (Option Skip)
  | .openObject => some (some ⟨.nameOrEnd, .object :: bs⟩)
  | .openArray => some (some ⟨.elementOrEnd, .array :: bs⟩)
  | .string _ | .number _ | .word => some (afterValue bs)
  | _ => none

/-
  One more lexeme of a value that is skipped.  The outer
  `none` refuses it; the inner one says that the value is
  over.
-/
def next (s : Skip) (t : Lexeme) : Option (Option Skip) :=
  match s.expected, s.brackets, t with
  | .value, bs, t => startValue bs t
  | .elementOrEnd, .array :: bs, .closeArray =>
      some (afterValue bs)
  | .elementOrEnd, bs, t => startValue bs t
  | .nameOrEnd, .object :: bs, .closeObject =>
      some (afterValue bs)
  | .nameOrEnd, bs, .string _ => some (some ⟨.colon, bs⟩)
  | .name, bs, .string _ => some (some ⟨.colon, bs⟩)
  | .colon, bs, .colon => some (some ⟨.value, bs⟩)
  | .commaOrEnd, .object :: bs, .comma =>
      some (some ⟨.name, .object :: bs⟩)
  | .commaOrEnd, .array :: bs, .comma =>
      some (some ⟨.value, .array :: bs⟩)
  | .commaOrEnd, .object :: bs, .closeObject =>
      some (afterValue bs)
  | .commaOrEnd, .array :: bs, .closeArray =>
      some (afterValue bs)
  | _, _, _ => none

end Skip

end Json

------------------------------------------------------------
-- Documents
------------------------------------------------------------

namespace Settings

open Json (Lexeme Skip)

/- Where in a document a reader is. -/
inductive Place where
  | start
  /- At the first name of the object, or its end. -/
  | nameOrEnd
  | name
  /- After the name of a setting, or another name. -/
  | colon (key : Option Key)
  | value (key : Option Key)
  /- In the value of another member. -/
  | skipping (s : Skip)
  /- After a member. -/
  | commaOrEnd
  /- At the first element of the array, or its end. -/
  | elementOrEnd (keys : List Key)
  | element (keys : List Key)
  /- After an element. -/
  | elementCommaOrEnd (keys : List Key)
  /- After the whole. -/
  | finished

/- A document, read up to some place. -/
structure Document where
  place : Place := .start
  settings : Settings := {}
  given : List Key := []

namespace Document

def goto (d : Document) (p : Place) : Document :=
  { d with place := p }

/- Give a setting a value, once and within its bound. -/
def give
    (d : Document)
    (k : Key)
    (t : Lexeme)
    (p : Place) : Option Document :=
  match t with
  | .number (some n) =>
      if n < k.bound ∧ k ∉ d.given then
        some {
          place := p
          settings := d.settings.set k n
          given := k :: d.given }
      else none
  | _ => none

/- Go on in the value of a member that is no setting. -/
def skip (d : Document) (s : Skip) (t : Lexeme) :
    Option Document := do
  match ← s.next t with
  | some s' => return d.goto (.skipping s')
  | none => return d.goto .commaOrEnd

/- Take in one lexeme. -/
def next (d : Document) (t : Lexeme) : Option Document :=
  match d.place, t with
  | .start, .openObject => some (d.goto .nameOrEnd)
  | .start, .openArray =>
      some (d.goto (.elementOrEnd Key.all))
  | .nameOrEnd, .closeObject => some (d.goto .finished)
  | .nameOrEnd, .string (some s)
  | .name, .string (some s) =>
      some (d.goto (.colon (Key.ofName? s)))
  | .colon k, .colon => some (d.goto (.value k))
  | .value (some k), t => d.give k t .commaOrEnd
  | .value none, t => d.skip {} t
  | .skipping s, t => d.skip s t
  | .commaOrEnd, .comma => some (d.goto .name)
  | .commaOrEnd, .closeObject => some (d.goto .finished)
  | .elementOrEnd _, .closeArray => some (d.goto .finished)
  | .elementOrEnd (k :: ks), t
  | .element (k :: ks), t =>
      d.give k t (.elementCommaOrEnd ks)
  | .elementCommaOrEnd ks, .comma =>
      some (d.goto (.element ks))
  | .elementCommaOrEnd _, .closeArray =>
      some (d.goto .finished)
  | _, _ => none

end Document

/- The settings that a text gives. -/
def parse? (text : String) : Option Settings := do
  let lexemes ← Json.lexemes? text
  let d ← lexemes.foldlM Document.next {}
  match d.place with
  | .finished => return d.settings
  | _ => none

/- Valid settings out of a document. -/
def ofJson (text : String) : Except Fault Settings :=
  accept .malformedJson (parse? text)

end Settings

end DeviceSession
