import ObjectDepot.Storage

/-!
The type registry. Core types are those of the shapes and the extra ones a deployment names; they
are found once and do not change. Any other type is recorded on the app that uses it, plural to
singular, and an entry once made is never replaced.
-/

namespace ObjectDepot

/-- Singular names of types by their plurals. -/
abbrev TypeMap := KeyMap String

structure Registry where
  extra : List String
  core : Option TypeMap := none
  discoveries : Nat := 0
  deriving DecidableEq

namespace Registry

def ofExtra (extra : List String) : Registry := { extra := extra }

/-- Of two core types with one plural the first stands. -/
def addCore (types : TypeMap) (plural singular : String) : TypeMap :=
  if types.contains plural then types else types.insert plural singular

def shapeTypes : TypeMap :=
  Shape.all.foldl (fun types s => addCore types s.plural s.singular) .empty

/-- The core types: those of the shapes, then the extra names that are valid, blanks around them
aside. -/
def findCore (extra : List String) : TypeMap :=
  ((extra.map Text.trim).filter TypeName.isValid).foldl
    (fun types s => addCore types (TypeName.pluralize s) s) shapeTypes

/-- The core types, found on first use. -/
def coreTypes : StateM Registry TypeMap := fun r =>
  match r.core with
  | some types => (types, r)
  | none =>
    let types := findCore r.extra
    (types, { r with core := some types, discoveries := r.discoveries + 1 })

/-- The core types and the app's; where both have a plural, the app's entry. -/
def allTypes (app : App) : StateM Registry TypeMap := do
  return (← coreTypes).extend app.types

def isKnown (app : App) (o : Object) : StateM Registry Bool := do
  return (← coreTypes).contains o.plural || app.types.contains o.plural

/-- The types of objects that are neither core types nor the app's. Of two with one plural the last
stands. Objects without a proper type name do not count, and if there are no others the core types
are not needed. -/
def newTypes (app : App) (os : List Object) : StateM Registry TypeMap := do
  let named := os.filter (fun o => TypeName.isValid o.type)
  if named.isEmpty then return .empty
  let core ← coreTypes
  let isNew (o : Object) : Bool := !(core.contains o.plural || app.types.contains o.plural)
  return KeyMap.ofList ((named.filter isNew).map (fun o => (o.plural, o.type)))

/-- Adds entries to an app's types, leaving alone those it has, and counts the new ones. -/
def addTypes (app : App) (pending : TypeMap) : App × Nat :=
  pending.entries.foldl
    (fun (app, added) e =>
      match app.addType? e.1 e.2 with
      | some app => (app, added + 1)
      | none => (app, added))
    (app, 0)

/-- Records pending types on the app's stored record, which is read anew so that entries made in the
meantime are kept; a missing record is created. The number of new entries is the answer. -/
def recordTypes {σ : Type} (storage : Storage σ) (app : App) (pending : TypeMap) :
    StateM σ (Except StorageError Nat) := do
  match ← storage.read app.partition app.identifier.objectId with
  | .error e => return .error e
  | .ok stored =>
    match stored.elim (.ok app) App.ofObject with
    | .error e => return .error e
    | .ok latest =>
      let (latest, added) := addTypes latest pending
      if added = 0 then return .ok 0
      else
        let answer ←
          if stored.isSome then do
            let w ← storage.update app.partition latest.toObject
            pure w.answer
          else do
            let w ← storage.create app.partition latest.toObject
            pure (w.answer.map (fun _ => ()))
        return answer.map (fun _ => added)

end Registry

end ObjectDepot
