import ObjectDepot.Config
import ObjectDepot.Registry
import ObjectDepot.Service.Failure

/-!
A service: a storage, a configuration and a way to run work in the background, together with the
state that requests act on. Requests register the types they see; batch requests leave that to the
background.
-/

namespace ObjectDepot

/-- What becomes of work that is handed to the background: it waits to be run, or nobody runs it. -/
inductive Background where
  | queued
  | dropped
  deriving DecidableEq, Repr

structure Service (σ : Type) where
  storage : Storage σ
  config : Config
  background : Background := .queued

/-- Work for the background: the types of these objects are to be registered on the app. -/
structure Registration where
  app : App
  objects : List Object

structure ServiceState (σ : Type) where
  store : σ
  registry : Registry
  pending : List Registration := []

/-- A request: it fails or gives an answer, and changes the state either way. -/
abbrev Request (σ α : Type) := ExceptT Failure (StateM (ServiceState σ)) α

namespace ServiceState

variable {σ α : Type}

def onStore (call : StateM σ α) : StateM (ServiceState σ) α := fun s =>
  let (a, store) := call s.store
  (a, { s with store })

def onRegistry (call : StateM Registry α) : StateM (ServiceState σ) α := fun s =>
  let (a, registry) := call s.registry
  (a, { s with registry })

end ServiceState

namespace Service

variable {σ α : Type}

def initial (svc : Service σ) (store : σ) : ServiceState σ :=
  { store := store, registry := .ofExtra svc.config.extraCoreTypes }

def names (svc : Service σ) : FieldNames := svc.config.fieldNames

/-- An operation of the storage as part of a request. -/
def call (operation : StateM σ (Except StorageError α)) : Request σ α :=
  ExceptT.mk do
    let answer ← ServiceState.onStore operation
    return answer.mapError Failure.ofStorage

/-- An operation of the storage that writes, with what it leaves. -/
def callWriting {β : Type} (operation : StateM σ (Written α β)) : Request σ (α × β) :=
  ExceptT.mk do
    let written ← ServiceState.onStore operation
    return (written.answer.map (·, written.left)).mapError Failure.ofStorage

/-- Records the types of objects that neither the core nor the app knows, all with one write. The
number of types added is the answer. -/
def registerTypes (svc : Service σ) (app : Option App) (objects : List Object) :
    StateM (ServiceState σ) (Except StorageError Nat) := do
  match app with
  | none => return .ok 0
  | some app =>
    if objects.isEmpty then return .ok 0
    else
      let pending ← ServiceState.onRegistry (Registry.newTypes app objects)
      if pending.isEmpty then return .ok 0
      else ServiceState.onStore (Registry.recordTypes svc.storage app pending)

def registerLater (svc : Service σ) (task : Registration) : StateM (ServiceState σ) Unit :=
  modify (fun s =>
    match svc.background with
    | .queued => { s with pending := s.pending ++ [task] }
    | .dropped => s)

/-- Runs one registration; nobody hears of its failure. -/
def runRegistration (svc : Service σ) (task : Registration) : StateM (ServiceState σ) Unit := do
  let _ ← svc.registerTypes (some task.app) task.objects

/-- Runs all work that waits, oldest first, and counts it. -/
def runPending (svc : Service σ) : StateM (ServiceState σ) Nat := do
  let tasks := (← get).pending
  modify (fun s => { s with pending := [] })
  tasks.forM svc.runRegistration
  return tasks.length

end Service

end ObjectDepot
