import ObjectDepot.App
import ObjectDepot.FieldNames

/-!
The configuration of a service, with its defaults and what makes it unusable.
-/

namespace ObjectDepot

structure Config where
  /-- The longest request body, in bytes. -/
  maxEntitySize : Nat := 1048576
  maxBatchDelete : Nat := 30
  /-- Singular names of types to be treated like those with a shape. -/
  extraCoreTypes : List String := []
  idField : String := "id"
  typeField : String := "type"
  /-- The identifier of the app for requests without credentials. -/
  rootApp : String := "root"
  logLevel : String := "info"
  deriving DecidableEq, Repr

namespace Config

def forTesting : Config := { maxEntitySize := 65536, maxBatchDelete := 5, logLevel := "debug" }

def fieldNames (c : Config) : FieldNames := ⟨c.idField, c.typeField⟩

def root (c : Config) : AppId := ⟨c.rootApp⟩

def faults (c : Config) : List String :=
  let fault (wrong : Bool) (text : String) : List String := if wrong then [text] else []
  fault (c.maxEntitySize = 0) "Max entity size cannot be 0" ++
    fault (c.maxBatchDelete = 0) "Max batch delete size cannot be 0" ++
    fault (Text.isBlank c.idField) "Id field name cannot be empty" ++
    fault (Text.isBlank c.typeField) "Type field name cannot be empty" ++
    fault (c.idField = c.typeField) "Id and type field names must differ" ++
    fault c.root.isBlank "Root app cannot be empty" ++
    c.extraCoreTypes.flatMap (fun name =>
      fault (!TypeName.isValid (Text.trim name)) ("Invalid core type name: '" ++ name ++ "'"))

end Config

end ObjectDepot
