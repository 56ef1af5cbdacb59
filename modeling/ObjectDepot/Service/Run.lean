import ObjectDepot.Service.Batch
import ObjectDepot.Service.Single
import ObjectDepot.Storage.Memory

/-!
Runs of a service on storage in memory. What happens to the service are requests, each under an app,
and registrations out of the background, in any order. Each happens at a time of its own and draws
its identifiers from a supply of its own.
-/

namespace ObjectDepot

/-- What is asked of the service. Updates and deletes tell their target by a `τ`. -/
inductive Call (τ : Type) where
  | create (hint : Option String) (body : RequestBody)
  | read (id : String)
  | update (target : τ) (body : RequestBody)
  | delete (target : τ)
  | batchRead (ids : List String)
  | batchCreate (body : RequestBody)
  | batchUpdate (body : RequestBody)
  | batchDelete (ids : List String)

namespace Call

variable {τ τ' : Type}

def map (f : τ → τ') : Call τ → Call τ'
  | create hint body => create hint body
  | read id => read id
  | update target body => update (f target) body
  | delete target => delete (f target)
  | batchRead ids => batchRead ids
  | batchCreate body => batchCreate body
  | batchUpdate body => batchUpdate body
  | batchDelete ids => batchDelete ids

end Call

def Request.on {σ α : Type} (request : Request σ α) (s : ServiceState σ) :
    Except Failure α × ServiceState σ := request.run s

abbrev Outcome := Except Failure Response

namespace Service

variable {σ : Type}

def inMemory (config : Config) (background : Background) : Service Memory :=
  { storage := Memory.storage, config := config, background := background }

def answer (svc : Service σ) (app : App) : Call (Option Object) → Request σ Response
  | .create hint body => svc.create app hint body
  | .read id => svc.read app id
  | .update target body => svc.update app target body
  | .delete target => svc.delete app target
  | .batchRead ids => svc.batchRead app ids
  | .batchCreate body => svc.batchCreate app body
  | .batchUpdate body => svc.batchUpdate app body
  | .batchDelete ids => svc.batchDelete app ids

end Service

inductive Action where
  /-- A request; its target is looked up in the partition of the app. -/
  | request (app : App) (call : Call String)
  /-- One of the registrations that wait for an app is run, counted from the oldest. -/
  | registration (app : AppId) (index : Nat)

def Action.app : Action → AppId
  | request app _ => app.identifier
  | registration app _ => app

structure Event where
  supply : Supply
  action : Action

def Event.app (e : Event) : AppId := e.action.app

def takeWaiting (app : AppId) : Nat → List Registration → Option (Registration × List Registration)
  | _, [] => none
  | index, task :: rest =>
    if task.app.identifier = app then
      match index with
      | 0 => some (task, rest)
      | index + 1 => (takeWaiting app index rest).map (fun r => (r.1, task :: r.2))
    else (takeWaiting app index rest).map (fun r => (r.1, task :: r.2))

def ServiceState.withSupply (s : ServiceState Memory) (supply : Supply) : ServiceState Memory :=
  { s with store := { s.store with supply := supply } }

namespace Service

def runWaiting {σ : Type} (svc : Service σ) (app : AppId) (index : Nat) (s : ServiceState σ) :
    ServiceState σ :=
  match takeWaiting app index s.pending with
  | none => s
  | some (task, rest) => (svc.runRegistration task { s with pending := rest }).2

/-- Lets something happen. A request has an outcome, a registration has none. -/
def step (svc : Service Memory) (e : Event) (s : ServiceState Memory) :
    Option Outcome × ServiceState Memory :=
  let s := s.withSupply e.supply
  match e.action with
  | .request app call =>
    let (outcome, s) := (svc.answer app (call.map (s.store.get? app.identifier))).on s
    (some outcome, s)
  | .registration app index => (none, svc.runWaiting app index s)

/-- Lets one thing happen after the other. The outcomes come with the apps they are meant for. -/
def run (svc : Service Memory) : List Event → ServiceState Memory →
    List (AppId × Outcome) × ServiceState Memory
  | [], s => ([], s)
  | e :: events, s =>
    let (outcome, s) := svc.step e s
    let (outcomes, s) := svc.run events s
    ((outcome.map (e.app, ·)).toList ++ outcomes, s)

end Service

end ObjectDepot
