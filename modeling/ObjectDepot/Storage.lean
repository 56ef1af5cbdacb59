import ObjectDepot.App

/-!
The storage interface: eight operations, each on the partition of one app. Writing changes the
objects it is given (identifiers and times are stamped on them), and what has become of them is told
also when the operation fails.

A backend with operations on single objects only gets the batch operations as loops over them.
-/

namespace ObjectDepot

/-- The outcome of a write: its answer, and the objects as it left them. -/
structure Written (α β : Type) where
  answer : Except StorageError α
  left : β

structure SingleStorage (σ : Type) where
  name : String
  /-- Stores a new object and gives its identifier, made up if it had none. -/
  create : AppId → Object → StateM σ (Written String Object)
  read : AppId → String → StateM σ (Except StorageError (Option Object))
  /-- Replaces an object; the time of creation is kept. -/
  update : AppId → Object → StateM σ (Written Unit Object)
  /-- Deletes an object; it need not be there. -/
  delete : AppId → Object → StateM σ (Except StorageError Unit)

structure Storage (σ : Type) extends SingleStorage σ where
  /-- Reads the objects that exist; the flag asks for the order of the identifiers. -/
  readAll : AppId → List String → Bool → StateM σ (Except StorageError (List Object))
  createAll : AppId → List Object → StateM σ (Written (List String) (List Object))
  /-- Merges the fields that each object sets into the stored one; objects that are not stored are
  passed over. -/
  updateAll : AppId → List Object → StateM σ (Written Unit (List Object))
  deleteAll : AppId → List Object → StateM σ (Except StorageError Unit)

namespace SingleStorage

variable {σ : Type}

def readEach (s : SingleStorage σ) (app : AppId) :
    List String → StateM σ (Except StorageError (List Object))
  | [] => return .ok []
  | id :: rest => do
    match ← s.read app id with
    | .error e => return .error e
    | .ok found =>
      let more ← s.readEach app rest
      return more.map (found.toList ++ ·)

def createEach (s : SingleStorage σ) (app : AppId) :
    List Object → StateM σ (Written (List String) (List Object))
  | [] => return ⟨.ok [], []⟩
  | o :: rest => do
    let first ← s.create app o
    match first.answer with
    | .error e => return ⟨.error e, first.left :: rest⟩
    | .ok id =>
      let more ← s.createEach app rest
      return ⟨more.answer.map (id :: ·), first.left :: more.left⟩

/-- Merges one object into the stored one. An object that vanishes between the two is passed over
like one that was not there. -/
def updateMerged (s : SingleStorage σ) (app : AppId) (o : Object) :
    StateM σ (Written Unit Object) := do
  match o.id with
  | none => return ⟨.ok (), o⟩
  | some id =>
    match ← s.read app id with
    | .error e => return ⟨.error e, o⟩
    | .ok none => return ⟨.ok (), o⟩
    | .ok (some stored) =>
      match stored.mergeFrom o with
      | .error e => return ⟨.error (.invalid e), o⟩
      | .ok merged =>
        let updated ← s.update app merged
        match updated.answer with
        | .ok () => return ⟨.ok (), updated.left⟩
        | .error (.notFound _ _) => return ⟨.ok (), o⟩
        | .error e => return ⟨.error e, o⟩

def updateEach (s : SingleStorage σ) (app : AppId) :
    List Object → StateM σ (Written Unit (List Object))
  | [] => return ⟨.ok (), []⟩
  | o :: rest => do
    let first ← s.updateMerged app o
    match first.answer with
    | .error e => return ⟨.error e, first.left :: rest⟩
    | .ok () =>
      let more ← s.updateEach app rest
      return ⟨more.answer, first.left :: more.left⟩

def deleteEach (s : SingleStorage σ) (app : AppId) :
    List Object → StateM σ (Except StorageError Unit)
  | [] => return .ok ()
  | o :: rest => do
    match ← s.delete app o with
    | .error e => return .error e
    | .ok () => s.deleteEach app rest

def toStorage (s : SingleStorage σ) : Storage σ where
  toSingleStorage := s
  readAll app ids _ := s.readEach app ids
  createAll := s.createEach
  updateAll := s.updateEach
  deleteAll := s.deleteEach

end SingleStorage

end ObjectDepot
