import ObjectDepot.Json.Kind
import ObjectDepot.TypeName

/-!
Shapes: the types known from the start, each with the fields it declares. A declared field has a
kind, which decides the values it can hold, may be locked, and may carry constraints for the
validator.
-/

namespace ObjectDepot

inductive FieldKind where
  | text
  /-- A text that null cannot stand for. -/
  | properText
  | flag
  | integer
  | texts
  | textMap
  deriving DecidableEq, Repr

inductive Constraint where
  /-- Present, not null and, for text, not blank. -/
  | required
  | maxLength (characters : Nat)
  | atLeast (bound : Int)
  | atMost (bound : Int)
  | email
  | latLng
  | locale
  deriving DecidableEq, Repr

structure FieldSpec where
  name : String
  kind : FieldKind
  /-- Set when the object is created and not changed by updates. -/
  locked : Bool
  constraints : List Constraint
  deriving DecidableEq, Repr

def lockedField (name : String) (kind : FieldKind) (constraints : List Constraint) : FieldSpec :=
  ⟨name, kind, true, constraints⟩

/-- A field that updates may change. -/
def openField (name : String) (kind : FieldKind) (constraints : List Constraint) : FieldSpec :=
  ⟨name, kind, false, constraints⟩

inductive Shape where
  | app
  | user
  | tag
  | address
  | translation
  | vote
  deriving DecidableEq, Repr

namespace Shape

/-- All shapes, in the order in which their types are registered. -/
def all : List Shape := [.app, .user, .tag, .address, .translation, .vote]

def singular : Shape → String
  | app => "app"
  | user => "user"
  | tag => "tag"
  | address => "address"
  | translation => "translation"
  | vote => "vote"

def plural : Shape → String
  | app => "apps"
  | user => "users"
  | tag => "tags"
  | address => "addresses"
  | translation => "translations"
  | vote => "votes"

/-- The fields a shape declares beside the envelope. -/
def fields : Shape → List FieldSpec
  | app => [
      lockedField "shared" .flag [],
      lockedField "datatypes" .textMap [],
      openField "active" .flag []]
  | user => [
      lockedField "identifier" .text [.required],
      openField "email" .text [.required, .email],
      openField "groups" .text [],
      openField "active" .flag [],
      openField "picture" .text [.maxLength 2048]]
  | tag => [
      lockedField "tag" .text [.required, .maxLength 255],
      openField "count" .integer [.atLeast 0]]
  | address => [
      openField "address" .text [.required, .maxLength 255],
      openField "country" .text [.required],
      openField "latlng" .text [.latLng],
      openField "phone" .text [.maxLength 255]]
  | translation => [
      lockedField "locale" .text [.required, .locale],
      lockedField "thekey" .text [.required],
      openField "value" .text [.required],
      openField "approved" .flag []]
  | vote => [
      openField "value" .integer [.required, .atLeast (-1), .atMost 1],
      openField "expiresAfter" .integer [.atLeast 0]]

def ofSingular? (name : String) : Option Shape := all.find? (fun s => s.singular = name)

theorem ofSingular?_singular (s : Shape) : ofSingular? s.singular = some s := by
  cases s <;> decide

theorem plural_eq_pluralize (s : Shape) : s.plural = TypeName.pluralize s.singular := by
  cases s <;> decide

end Shape

def specOf? (specs : List FieldSpec) (name : String) : Option FieldSpec :=
  specs.find? (fun f => f.name = name)

namespace Shape

def declares (s : Shape) (name : String) : Bool := (specOf? s.fields name).isSome

def isLocked (s : Shape) (name : String) : Bool :=
  match specOf? s.fields name with
  | some f => f.locked
  | none => false

end Shape

/-! ### Reading fields -/

/-- A field whose value does not fit, and why. -/
structure FieldFault where
  field : String
  message : String
  deriving DecidableEq, Repr

/-- Reads a value as one of a kind. The result is what is kept of it: an absent text, flag or
integer may be written as null, and an empty list or map says nothing. -/
def FieldKind.read : FieldKind → Json → Except String (Option Json)
  | .text, .null => .ok none
  | .text, v => v.asText.map (fun _ => some v)
  | .properText, v => v.asText.map (fun _ => some v)
  | .flag, .null => .ok none
  | .flag, v => v.asFlag.map (fun _ => some v)
  | .integer, .null => .ok none
  | .integer, v => v.asInteger.map (fun _ => some v)
  | .texts, v => v.asTexts.map (fun texts => if texts.isEmpty then none else some v)
  | .textMap, v => v.asTextMap.map (fun m => if m.isEmpty then none else some v)

/-- The message for a field that does not fit; fields that are not declared always fit. -/
def misfit? (specs : List FieldSpec) (name : String) (value : Json) : Option FieldFault :=
  match specOf? specs name with
  | none => none
  | some f =>
    match f.kind.read value with
    | .ok _ => none
    | .error message => some ⟨name, message⟩

/-- What is kept of a field; nothing of one that is not declared. -/
def kept? (specs : List FieldSpec) (name : String) (value : Json) : Option Json :=
  match specOf? specs name with
  | none => none
  | some f =>
    match f.kind.read value with
    | .ok v => v
    | .error _ => none

/-- Reads fields as declared. The first misfit in key order is reported. -/
def readFields (specs : List FieldSpec) (fields : FieldMap) : Except FieldFault FieldMap :=
  match fields.entries.findSome? (fun e => misfit? specs e.1 e.2) with
  | some fault => .error fault
  | none => .ok (fields.filterMap (kept? specs))

/-- The message for a list with more values than there are fields. -/
def tooManyValues (values : List Json) : String :=
  "invalid length " ++ toString values.length ++ ", expected fewer elements in array"

/-- Reads values given by position, in the order of the declarations. Missing ones at the end are
absent; there may be none to spare. -/
def readPositions (specs : List FieldSpec) (values : List Json) : Except String FieldMap := do
  let read ← (specs.zip values).mapM (fun p => (p.1.kind.read p.2).map (p.1.name, ·))
  if specs.length < values.length then throw (tooManyValues values)
  return KeyMap.ofList (read.filterMap (fun r => r.2.map (r.1, ·)))

/-- Reads a whole record, given by name or by position. -/
def readRecord (record : String) (specs : List FieldSpec) : Json → Except String FieldMap
  | .obj members => (readFields specs (KeyMap.ofList members)).mapError FieldFault.message
  | .arr values => readPositions specs values
  | v => .error (v.misfit record)

def Shape.ofJson (s : Shape) : Json → Except String FieldMap :=
  readRecord
    (match s with
      | .app => "struct AppFields"
      | .user => "struct UserFields"
      | .tag => "struct TagFields"
      | .address => "struct AddressFields"
      | .translation => "struct TranslationFields"
      | .vote => "struct VoteFields")
    s.fields

end ObjectDepot
