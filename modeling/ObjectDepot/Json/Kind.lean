import ObjectDepot.Json
import ObjectDepot.Text.Quoted

/-!
Reading a JSON value as a value of a given kind, and the message when it is of another one. Lists
and maps are read element by element, and the first misfit is the one reported.
-/

namespace ObjectDepot.Json

/-- How a message names a value that stands where another kind is wanted. -/
def found : Json → String
  | .null => "null"
  | .bool b => "boolean `" ++ toString b ++ "`"
  | .int n => "integer `" ++ toString n ++ "`"
  | .double d => "floating point `" ++ d.text ++ "`"
  | .str s => "string " ++ Text.quoted s
  | .arr _ => "sequence"
  | .obj _ => "map"

def misfit (value : Json) (wanted : String) : String :=
  "invalid type: " ++ value.found ++ ", expected " ++ wanted

def outOfRange (n : Int) (wanted : String) : String :=
  "invalid value: integer `" ++ toString n ++ "`, expected " ++ wanted

def asText : Json → Except String String
  | .str s => .ok s
  | v => .error (v.misfit "a string")

def asFlag : Json → Except String Bool
  | .bool b => .ok b
  | v => .error (v.misfit "a boolean")

/-- An integer between two bounds; a double never counts as one. -/
def asIntegerIn (low high : Int) (wanted : String) : Json → Except String Int
  | .int n => if low ≤ n ∧ n ≤ high then .ok n else .error (outOfRange n wanted)
  | v => .error (v.misfit wanted)

/-- A signed integer of 64 bits. -/
def asInteger : Json → Except String Int := asIntegerIn (-Nat.pow 2 63) (Nat.pow 2 63 - 1) "i64"

def asTexts : Json → Except String (List String)
  | .arr items => items.mapM asText
  | v => .error (v.misfit "a sequence")

def asTextMap : Json → Except String (KeyMap String)
  | .obj members => do
    let entries ← members.mapM (fun m => (asText m.2).map (m.1, ·))
    return KeyMap.ofList entries
  | v => .error (v.misfit "a map")

end ObjectDepot.Json
