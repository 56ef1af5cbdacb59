import ObjectDepot.Storage

/-!
Storage in memory: partitions of objects, each object under its identifier. Identifiers and times
come from a supply that the caller provides. A batch of new objects is stored as a whole or not at
all.
-/

namespace ObjectDepot

/-- The time, and identifiers for objects that have none, of which the first `drawn` are used. -/
structure Supply where
  now : Int
  ids : Nat → String
  drawn : Nat := 0

namespace Supply

def id (s : Supply) : String := s.ids s.drawn

def next (s : Supply) : Supply := { s with drawn := s.drawn + 1 }

end Supply

abbrev Partition := KeyMap Object

structure Memory where
  partitions : KeyMap Partition
  supply : Supply

namespace Memory

def ofSupply (supply : Supply) : Memory := ⟨.empty, supply⟩

/-- The objects of an app; none where nothing was ever stored. -/
def objects (m : Memory) (app : AppId) : Partition := (m.partitions.get? app.text).getD .empty

def get? (m : Memory) (app : AppId) (id : String) : Option Object := (m.objects app).get? id

def withPartition (m : Memory) (app : AppId) (p : Partition) : Memory :=
  { m with partitions := m.partitions.insert app.text p }

def put (m : Memory) (app : AppId) (id : String) (o : Object) : Memory :=
  m.withPartition app ((m.objects app).insert id o)

/-- Only an object of the app may be written to its partition. -/
def checkOwner (app : AppId) (o : Object) : Except StorageError Unit :=
  match o.appid with
  | some appid =>
    if appid = app.text then .ok ()
    else if Text.isBlank appid then .error (.missingTenant (o.id.getD ""))
    else .error (.invalidTenant appid)
  | none => .error (.missingTenant (o.id.getD ""))

/-- The identifier a new object gets: its own, or one from the supply. -/
def assignedId (s : Supply) (o : Object) : String × Supply :=
  match o.givenId? with
  | some id => (id, s)
  | none => (s.id, s.next)

/-- Makes a new object ready for a partition, with identifier and time of creation. -/
def makeReady (app : AppId) (p : Partition) (s : Supply) (o : Object) :
    Written String Object × Supply :=
  match checkOwner app o with
  | .error e => (⟨.error e, o⟩, s)
  | .ok () =>
    let (id, s) := assignedId s o
    if p.contains id then (⟨.error (.alreadyExists app.text id), o⟩, s)
    else (⟨.ok id, (o.withId (some id)).withTimestamp (some s.now)⟩, s)

def create (app : AppId) (o : Object) : StateM Memory (Written String Object) := fun m =>
  let (w, supply) := makeReady app (m.objects app) m.supply o
  let m := { m with supply }
  match w.answer with
  | .error _ => (w, m)
  | .ok id => (w, m.put app id w.left)

def read (app : AppId) (id : String) : StateM Memory (Except StorageError (Option Object)) :=
  fun m => (.ok (m.get? app id), m)

def update (app : AppId) (o : Object) : StateM Memory (Written Unit Object) := fun m =>
  match checkOwner app o with
  | .error e => (⟨.error e, o⟩, m)
  | .ok () =>
    let id := o.id.getD ""
    match m.get? app id with
    | none => (⟨.error (.notFound app.text id), o⟩, m)
    | some stored =>
      let o := (o.withTimestamp stored.envelope.timestamp).withUpdated (some m.supply.now)
      (⟨.ok (), o⟩, m.put app id o)

/-- Removes objects; a partition that was never written to is left alone. -/
def remove (m : Memory) (app : AppId) (ids : List String) : Memory :=
  match m.partitions.get? app.text with
  | none => m
  | some p => m.withPartition app (ids.foldl KeyMap.erase p)

def delete (app : AppId) (o : Object) : StateM Memory (Except StorageError Unit) :=
  fun m => (.ok (), m.remove app o.id.toList)

def readAll (app : AppId) (ids : List String) (_inOrder : Bool) :
    StateM Memory (Except StorageError (List Object)) :=
  fun m => (.ok (ids.filterMap (m.get? app)), m)

/-- Makes new objects ready one after the other. Each must be new to the partition and to those
already made ready. -/
def makeAllReady (app : AppId) (p staged : Partition) (s : Supply) :
    List Object → Written Partition (List Object) × Supply
  | [] => (⟨.ok staged, []⟩, s)
  | o :: rest =>
    match makeReady app p s o with
    | (⟨.error e, o⟩, s) => (⟨.error e, o :: rest⟩, s)
    | (⟨.ok id, o⟩, s) =>
      if staged.contains id then (⟨.error (.alreadyExists app.text id), o :: rest⟩, s)
      else
        let (more, s) := makeAllReady app p (staged.insert id o) s rest
        (⟨more.answer, o :: more.left⟩, s)

def createAll (app : AppId) (os : List Object) :
    StateM Memory (Written (List String) (List Object)) := fun m =>
  let (w, supply) := makeAllReady app (m.objects app) .empty m.supply os
  let m := { m with supply }
  match w.answer with
  | .error e => (⟨.error e, w.left⟩, m)
  | .ok staged =>
    (⟨.ok (w.left.filterMap Object.id), w.left⟩,
      m.withPartition app ((m.objects app).extend staged))

/-- Merges objects into the stored ones of a partition. A merge that fails ends the run; what was
merged before it stays. -/
def mergeAll (now : Int) (p : Partition) : List Object → Written Unit (List Object) × Partition
  | [] => (⟨.ok (), []⟩, p)
  | o :: rest =>
    match o.id.bind p.get? with
    | none =>
      let (more, p) := mergeAll now p rest
      (⟨more.answer, o :: more.left⟩, p)
    | some stored =>
      match stored.mergeFrom o with
      | .error e => (⟨.error (.invalid e), o :: rest⟩, p)
      | .ok merged =>
        let merged := merged.withUpdated (some now)
        let (more, p) := mergeAll now (p.insert (o.id.getD "") merged) rest
        (⟨more.answer, merged :: more.left⟩, p)

def checkOwners (app : AppId) : List Object → Except StorageError Unit
  | [] => .ok ()
  | o :: rest =>
    match checkOwner app o with
    | .error e => .error e
    | .ok () => checkOwners app rest

def updateAll (app : AppId) (os : List Object) : StateM Memory (Written Unit (List Object)) :=
  fun m =>
    match checkOwners app os with
    | .error e => (⟨.error e, os⟩, m)
    | .ok () =>
      match m.partitions.get? app.text with
      | none => (⟨.ok (), os⟩, m)
      | some p =>
        let (w, p) := mergeAll m.supply.now p os
        (w, m.withPartition app p)

def deleteAll (app : AppId) (os : List Object) : StateM Memory (Except StorageError Unit) :=
  fun m => (.ok (), m.remove app (os.filterMap Object.id))

def singles : SingleStorage Memory where
  name := "memory"
  create := create
  read := read
  update := update
  delete := delete

def storage : Storage Memory where
  toSingleStorage := singles
  readAll := readAll
  createAll := createAll
  updateAll := updateAll
  deleteAll := deleteAll

/-- How the storage shows itself in diagnostics. -/
def summary (m : Memory) : String :=
  "InMemoryBackend \x7b partitions: " ++ toString m.partitions.size ++ " \x7d"

end Memory

end ObjectDepot
