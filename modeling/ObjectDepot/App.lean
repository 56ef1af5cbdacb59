import ObjectDepot.Object

/-!
Apps: the tenants. An app owns a partition of objects, named by its identifier. The app itself is an
object too, stored in another partition under the identifier behind `app:`.
-/

namespace ObjectDepot

structure AppId where
  text : String
  deriving DecidableEq, Repr

namespace AppId

/-- What stands before the identifier in the id of an app's record. -/
def marker : String := "app:"

/-- The identifier in the id of a record; one marker is taken off if there is one. -/
def ofObjectId (id : String) : AppId :=
  ⟨if marker.toList.isPrefixOf id.toList then String.ofList (id.toList.drop marker.length) else id⟩

def objectId (a : AppId) : String := marker ++ a.text

def isBlank (a : AppId) : Bool := Text.isBlank a.text

end AppId

/-- The fields of an app's record beside the envelope. -/
structure AppSettings where
  /-- Whether the app shares its partition with others. -/
  shared : Option Bool := none
  /-- The app's own types, by plural. -/
  datatypes : KeyMap String := .empty
  active : Option Bool := none
  deriving DecidableEq

namespace AppSettings

def get? (s : AppSettings) : String → Option Json
  | "shared" => s.shared.map .bool
  | "datatypes" => if s.datatypes.isEmpty then none else some (.ofStringMap s.datatypes)
  | "active" => s.active.map .bool
  | _ => none

def toFields (s : AppSettings) : FieldMap :=
  KeyMap.ofList (Shape.app.fields.filterMap (fun f => (s.get? f.name).map (f.name, ·)))

def flagOf? (fields : FieldMap) (name : String) : Option Bool :=
  match fields.get? name with
  | some (.bool b) => some b
  | _ => none

def textMapOf (fields : FieldMap) (name : String) : KeyMap String :=
  match fields.get? name with
  | some (.obj members) => (KeyMap.ofList members).filterMap (fun _ v => v.str?)
  | _ => .empty

def ofFields (fields : FieldMap) : AppSettings where
  shared := flagOf? fields "shared"
  datatypes := textMapOf fields "datatypes"
  active := flagOf? fields "active"

end AppSettings

structure App where
  envelope : Envelope
  settings : AppSettings
  deriving DecidableEq

namespace App

/-- The record of a new app, to be stored in the partition of `root`. -/
def named (name : String) (root : AppId) : App where
  envelope := {
    id := some (AppId.objectId ⟨name⟩)
    type := "app"
    appid := some root.text
    name := some name }
  settings := {}

/-- The root app, which lives in its own partition. -/
def root (root : AppId) : App := named root.text root

def identifier (a : App) : AppId := .ofObjectId (a.envelope.id.getD "")

/-- The partition in which the app's record is stored. -/
def partition (a : App) : AppId :=
  match a.envelope.appid with
  | some appid => ⟨appid⟩
  | none => a.identifier

def isShared (a : App) : Bool := a.settings.shared.getD false

def withShared (a : App) (shared : Bool) : App :=
  { a with settings := { a.settings with shared := some shared } }

def types (a : App) : KeyMap String := a.settings.datatypes

/-- Registers a type; none if the plural is taken, for entries are never replaced. -/
def addType? (a : App) (plural singular : String) : Option App :=
  if a.types.contains plural then none
  else some { a with settings := { a.settings with datatypes := a.types.insert plural singular } }

/-- The shard key of the app's objects: its identifier, but only in a shared partition. -/
def shardKey (a : App) : Option String := if a.isShared then some a.identifier.text else none

/-- Stamps the shard key on an object, whatever it had. -/
def stamp (a : App) (o : Object) : Object := o.withShardKey a.shardKey

def adopt (a : App) (o : Object) : Object := a.stamp (o.withAppid (some a.identifier.text))

def toObject (a : App) : Object := ⟨a.envelope, ⟨some .app, a.settings.toFields⟩⟩

/-- The app that a record describes. It must have the shape of an app, and an identifier. -/
def ofObject (o : Object) : Except StorageError App :=
  match o.shape, o.id with
  | some .app, some id =>
    if (AppId.ofObjectId id).isBlank then .error (.invalidTenant id)
    else .ok ⟨o.envelope, .ofFields o.body.fields⟩
  | _, id => .error (.invalidTenant (id.getD ""))

end App

end ObjectDepot
