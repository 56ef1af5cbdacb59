import ObjectDepot.Format.Coordinates
import ObjectDepot.Format.Email
import ObjectDepot.Format.Locale
import ObjectDepot.Object

/-!
Validation of objects: one message for each violated constraint, the envelope's fields first. An
object is valid when there is none. Open bodies are not looked into.
-/

namespace ObjectDepot

/-- Whether a value says as much as an absent one. -/
def Json.isVoid : Json → Bool
  | .null => true
  | .str s => Text.isBlank s
  | _ => false

/-- The message for a value that is there and violates a constraint. Text constraints concern texts
and bounds concern integers. -/
def Constraint.violation? (field : String) (value : Json) (c : Constraint) : Option String :=
  let message (holds : Bool) (text : String) : Option String :=
    if holds then none else some ("'" ++ field ++ "' " ++ text)
  match c, value with
  | .maxLength n, .str s =>
    message (s.length ≤ n) ("must be at most " ++ toString n ++ " characters long")
  | .atLeast n, .int v => message (n ≤ v) ("must be at least " ++ toString n)
  | .atMost n, .int v => message (v ≤ n) ("must be at most " ++ toString n)
  | .email, .str s => message (Format.isEmail s) "must be a valid email address"
  | .latLng, .str s => message (Format.isCoordinates s) "has an invalid format"
  | .locale, .str s => message (Format.isLocale s) "has an invalid format"
  | _, _ => none

def FieldSpec.violations (f : FieldSpec) (fields : FieldMap) : List String :=
  match (fields.get? f.name).filter (fun v => !v.isVoid) with
  | some v => f.constraints.filterMap (Constraint.violation? f.name v)
  | none => if f.constraints.contains .required then ["'" ++ f.name ++ "' is required"] else []

def typeViolations (type : String) : List String :=
  if Text.isBlank type then ["'type' is missing"]
  else if TypeName.isValid type then []
  else ["'type' has an invalid format"]

namespace Object

/-- The fields that are validated: the envelope's other than the type, then the declared ones. -/
def validatedSpecs (o : Object) : List FieldSpec :=
  Envelope.fieldSpecs.filter (fun f => f.name != "type") ++
    match o.shape with
    | some s => s.fields
    | none => []

def violations (o : Object) : List String :=
  typeViolations o.type ++ o.validatedSpecs.flatMap (fun f => f.violations o.toFields)

def isValid (o : Object) : Bool := o.violations.isEmpty

def ensureValid (o : Object) : Except ValidationError Unit :=
  if o.isValid then .ok () else .error (.invalidObject o.violations)

end Object

end ObjectDepot
