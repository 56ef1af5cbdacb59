import ObjectDepot.KeyMap
import ObjectDepot.Number.Shortest

/-!
JSON values. Integers and doubles are different values even where they denote the same number, and
the members of an object are sorted by key; an object at the top of a record is a `FieldMap`.
-/

namespace ObjectDepot

inductive Json where
  | null
  | bool (b : Bool)
  | int (n : Int)
  | double (d : Binary64)
  | str (s : String)
  | arr (items : List Json)
  | obj (members : List (String × Json))
  deriving Inhabited

/-- The fields of a record, sorted by name. -/
abbrev FieldMap := KeyMap Json

namespace Json

def ofFields (fields : FieldMap) : Json := .obj fields.entries

def ofStrings (strings : List String) : Json := .arr (strings.map .str)

def ofStringMap (m : KeyMap String) : Json := ofFields (m.map .str)

def ofOption (s : Option String) : Json := (s.map .str).getD .null

def fields? : Json → Option FieldMap
  | .obj members => some (KeyMap.ofList members)
  | _ => none

def str? : Json → Option String
  | .str s => some s
  | _ => none

def isNull : Json → Bool
  | .null => true
  | _ => false

end Json

end ObjectDepot
