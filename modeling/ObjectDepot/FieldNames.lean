import ObjectDepot.Object

/-!
Between maps of fields as clients write them and objects. Clients may know the identifier and the
type under other names. A shard key never comes from a client: it is dropped from every map.
-/

namespace ObjectDepot

/-- Which fields an update may touch. -/
inductive FieldFilter where
  | all
  | skipLocked
  deriving DecidableEq, Repr

/-- The names under which clients know the identifier and the type. -/
structure FieldNames where
  id : String := "id"
  type : String := "type"
  deriving DecidableEq, Repr

namespace FieldNames

def type? (names : FieldNames) (fields : FieldMap) : Option String :=
  (fields.get? names.type).bind Json.str?

def identifier? (names : FieldNames) (fields : FieldMap) : Option String :=
  ((fields.get? names.id).bind Json.str?).filter (fun id => !Text.isBlank id)

def withType (names : FieldNames) (fields : FieldMap) (type : String) : FieldMap :=
  fields.insert names.type (.str type)

/-- From the clients' names to the envelope's. -/
def normalize (names : FieldNames) (fields : FieldMap) : FieldMap :=
  ((fields.erase "shardkey").rename names.id "id").rename names.type "type"

/-- From the envelope's names to the clients'. -/
def toFields (names : FieldNames) (o : Object) : FieldMap :=
  (o.toFields.rename "id" names.id).rename "type" names.type

/-- Lays fields over an object as far as the filter lets them. -/
def apply (o : Object) (fields : FieldMap) (filter : FieldFilter) : Except ValidationError Object :=
  let fields := match filter with
    | .all => fields
    | .skipLocked => fields.filter (fun name _ => !o.isLocked name)
  (o.overlay fields).mapError Object.FieldFault.error

def toObject (names : FieldNames) (fields : FieldMap) : Except ValidationError Object :=
  Object.ofFields (names.normalize fields)

/-- Makes an object of its type and identifier, and of the other fields that the filter lets
through. -/
def toObjectThrough (names : FieldNames) (fields : FieldMap) (filter : FieldFilter) :
    Except ValidationError Object := do
  let fields := names.normalize fields
  let isHead (name : String) : Bool := name = "type" || name = "id"
  let o ← Object.ofFields (fields.filter (fun name _ => isHead name))
  apply o (fields.filter (fun name _ => !isHead name)) filter

/-- Changes an object by a map of fields; its type stays. -/
def change (names : FieldNames) (o : Object) (fields : FieldMap) (filter : FieldFilter) :
    Except ValidationError Object :=
  apply o ((names.normalize fields).erase "type") filter

end FieldNames

end ObjectDepot
