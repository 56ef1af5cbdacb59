/-!
What can go wrong with an object and with storing it: each error is a cause, and its wording is in
one function.
-/

namespace ObjectDepot

/-- Messages of one answer are joined by a full stop and a space. -/
def joinMessages (messages : List String) : String := ". ".intercalate messages

/-- Why fields do not make an object, or an object is not acceptable. -/
inductive ValidationError where
  /-- The field that tells the type is absent. -/
  | missingType (field : String)
  /-- The type is told by something that is no type name. -/
  | unknownType (text : String)
  | invalidField (field message : String)
  | invalidObject (messages : List String)
  deriving DecidableEq, Repr

def ValidationError.message : ValidationError → String
  | .missingType field => "missing type discriminator '" ++ field ++ "'"
  | .unknownType text => "unrecognized type: " ++ text
  | .invalidField field message => "invalid value for '" ++ field ++ "': " ++ message
  | .invalidObject messages => "invalid object: " ++ joinMessages messages

inductive StorageError where
  | notFound (app id : String)
  | alreadyExists (app id : String)
  /-- An object without an app. -/
  | missingTenant (id : String)
  /-- An object of another app, or a record that is no app. -/
  | invalidTenant (app : String)
  | invalid (error : ValidationError)
  | unavailable (backend message : String)
  | internal (backend message : String)
  | serialization (message : String)
  deriving DecidableEq, Repr

def StorageError.message : StorageError → String
  | .notFound app id => "object not found: " ++ app ++ "/" ++ id
  | .alreadyExists app id => "object already exists: " ++ app ++ "/" ++ id
  | .missingTenant id => "object " ++ id ++ " is not linked to an app"
  | .invalidTenant app => "invalid app: " ++ app
  | .invalid error => error.message
  | .unavailable backend _ => "backend unavailable: " ++ backend
  | .internal backend message => "internal error in " ++ backend ++ ": " ++ message
  | .serialization message => "serialization error: " ++ message

/-- A failed read or write of the machine is an internal error of an unnamed backend. -/
def StorageError.ofInputOutput (message : String) : StorageError := .internal "unknown" message

end ObjectDepot
