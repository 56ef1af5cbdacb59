import ObjectDepot.KeyMap.Lemmas
import ObjectDepot.Shape

/-!
The envelope: what every object carries whatever its type. Written as fields it holds what is set,
and always the type; `get?` is the view through which the fields are known.
-/

namespace ObjectDepot

structure Envelope where
  /-- Assigned by storage when absent. -/
  id : Option String := none
  type : String := ""
  /-- The identifier of the owning app. -/
  appid : Option String := none
  parentid : Option String := none
  creatorid : Option String := none
  name : Option String := none
  tags : List String := []
  /-- Creation time in milliseconds since 1970. -/
  timestamp : Option Int := none
  updated : Option Int := none
  /-- Set only for objects of apps that share a partition. -/
  shardkey : Option String := none
  deriving DecidableEq, Repr

namespace Envelope

/-- The envelope's fields in the order in which the validator visits them. -/
def fieldSpecs : List FieldSpec := [
  lockedField "id" .text [],
  lockedField "type" .properText [.required],
  lockedField "appid" .text [],
  lockedField "creatorid" .text [],
  lockedField "timestamp" .integer [],
  openField "parentid" .text [],
  openField "name" .text [.maxLength 255],
  openField "tags" .texts [],
  openField "updated" .integer [],
  openField "shardkey" .text []]

def serverAssigned : List String := ["id", "appid", "shardkey", "timestamp", "updated"]

def spec? (name : String) : Option FieldSpec := specOf? fieldSpecs name

def has (name : String) : Bool := (spec? name).isSome

def get? (e : Envelope) : String → Option Json
  | "id" => e.id.map .str
  | "type" => some (.str e.type)
  | "appid" => e.appid.map .str
  | "creatorid" => e.creatorid.map .str
  | "timestamp" => e.timestamp.map .int
  | "parentid" => e.parentid.map .str
  | "name" => e.name.map .str
  | "tags" => if e.tags.isEmpty then none else some (.ofStrings e.tags)
  | "updated" => e.updated.map .int
  | "shardkey" => e.shardkey.map .str
  | _ => none

def toFields (e : Envelope) : FieldMap :=
  KeyMap.ofList (fieldSpecs.filterMap (fun f => (e.get? f.name).map (f.name, ·)))

def textOf? (fields : FieldMap) (name : String) : Option String := (fields.get? name).bind Json.str?

def integerOf? (fields : FieldMap) (name : String) : Option Int :=
  match fields.get? name with
  | some (.int n) => some n
  | _ => none

def textsOf (fields : FieldMap) (name : String) : List String :=
  match fields.get? name with
  | some (.arr items) => items.filterMap Json.str?
  | _ => []

/-- Takes the envelope out of fields that fit their kinds. -/
def ofReadFields (fields : FieldMap) : Envelope where
  id := textOf? fields "id"
  type := (textOf? fields "type").getD ""
  appid := textOf? fields "appid"
  parentid := textOf? fields "parentid"
  creatorid := textOf? fields "creatorid"
  name := textOf? fields "name"
  tags := textsOf fields "tags"
  timestamp := integerOf? fields "timestamp"
  updated := integerOf? fields "updated"
  shardkey := textOf? fields "shardkey"

def ofFields (fields : FieldMap) : Except FieldFault Envelope :=
  (readFields fieldSpecs fields).map ofReadFields

/-- The envelope's fields in the order in which they are given by position. -/
def positions : List FieldSpec :=
  ["id", "type", "appid", "parentid", "creatorid", "name", "tags", "timestamp", "updated",
    "shardkey"].filterMap spec?

def ofJson (v : Json) : Except String Envelope :=
  (match v with
    | .obj _ => readRecord "struct ObjectMeta" fieldSpecs v
    | _ => readRecord "struct ObjectMeta" positions v).map ofReadFields

end Envelope

end ObjectDepot
