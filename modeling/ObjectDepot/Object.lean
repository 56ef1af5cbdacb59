import ObjectDepot.Envelope
import ObjectDepot.Error
import ObjectDepot.Json.Printer
import ObjectDepot.Text.Blank

/-!
Objects: an envelope and a body. The body of a type with a shape holds the fields the shape
declares; the body of any other type is open and holds anything. Flattened, an object is one map of
all fields that are set, and such a map determines the object.
-/

namespace ObjectDepot

structure Body where
  /-- None for an open body. -/
  shape : Option Shape
  fields : FieldMap

namespace Body

def forType (type : String) : Body := ⟨Shape.ofSingular? type, .empty⟩

def isOpen (b : Body) : Bool := b.shape.isNone

def withFields (b : Body) (fields : FieldMap) : Except FieldFault Body :=
  match b.shape with
  | some s => (readFields s.fields fields).map (⟨some s, ·⟩)
  | none => .ok ⟨none, fields⟩

end Body

structure Object where
  envelope : Envelope
  body : Body

namespace Object

def ofType (type : String) : Object := ⟨{ type := type }, .forType type⟩

def id (o : Object) : Option String := o.envelope.id

def type (o : Object) : String := o.envelope.type

def appid (o : Object) : Option String := o.envelope.appid

def shardKey (o : Object) : Option String := o.envelope.shardkey

def shape (o : Object) : Option Shape := o.body.shape

def withId (o : Object) (id : Option String) : Object :=
  { o with envelope := { o.envelope with id := id } }

def withAppid (o : Object) (appid : Option String) : Object :=
  { o with envelope := { o.envelope with appid := appid } }

def withShardKey (o : Object) (key : Option String) : Object :=
  { o with envelope := { o.envelope with shardkey := key } }

def withName (o : Object) (name : Option String) : Object :=
  { o with envelope := { o.envelope with name := name } }

def withTimestamp (o : Object) (time : Option Int) : Object :=
  { o with envelope := { o.envelope with timestamp := time } }

def withUpdated (o : Object) (time : Option Int) : Object :=
  { o with envelope := { o.envelope with updated := time } }

def givenId? (o : Object) : Option String := o.id.filter (fun id => !Text.isBlank id)

/-- The plural of the type: the shape's own, or derived from the name. -/
def plural (o : Object) : String :=
  match o.shape with
  | some s => s.plural
  | none => TypeName.pluralize o.type

/-- The path of the object, once it has an identifier. -/
def uri? (o : Object) : Option String := o.id.map (fun id => "/" ++ o.plural ++ "/" ++ id)

/-- Whether updates leave a field alone. -/
def isLocked (o : Object) (field : String) : Bool :=
  match Envelope.spec? field with
  | some f => f.locked
  | none =>
    match o.shape with
    | some s => s.isLocked field
    | none => false

def accepts (o : Object) (field : String) : Bool :=
  Envelope.has field ||
    match o.shape with
    | some s => s.declares field
    | none => true

/-- All fields that are set. The envelope comes before a body field of the same name. -/
def toFields (o : Object) : FieldMap := o.body.fields.extend o.envelope.toFields

/-- Changes a map: null removes a field, any other value sets it. -/
def patch (fields changes : FieldMap) : FieldMap :=
  (fields.filter (fun name _ => !changes.contains name)).extend
    (changes.filter (fun _ v => !v.isNull))

/-- Lays fields over the object. The type cannot be changed, and fields the object cannot hold are
ignored. If a field does not fit, the fault is reported and there is no object. -/
def overlay (o : Object) (fields : FieldMap) : Except FieldFault Object := do
  let ofEnvelope := fields.filter (fun name _ => Envelope.has name && name != "type")
  let ofBody := fields.filter (fun name _ => !Envelope.has name && o.accepts name)
  let envelope ← Envelope.ofFields (patch o.envelope.toFields ofEnvelope)
  let body ← o.body.withFields (patch o.body.fields ofBody)
  return ⟨envelope, body⟩

def FieldFault.error (f : FieldFault) : ValidationError := .invalidField f.field f.message

/-- Reads the type out of a map of fields. -/
def typeOf (fields : FieldMap) : Except ValidationError String :=
  match fields.get? "type" with
  | none | some .null => .error (.missingType "type")
  | some (.str t) =>
    if TypeName.isValid t then .ok t
    else if Text.isBlank t then .error (.missingType "type")
    else .error (.unknownType t)
  | some v => .error (.unknownType v.text)

def ofFields (fields : FieldMap) : Except ValidationError Object := do
  let type ← typeOf fields
  ((ofType type).overlay (fields.erase "type")).mapError FieldFault.error

/-- Lays the fields set on another object over this one, which keeps its type. -/
def mergeFrom (o other : Object) : Except ValidationError Object :=
  (o.overlay other.toFields).mapError FieldFault.error

end Object

end ObjectDepot
