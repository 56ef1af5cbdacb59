import ObjectDepot.Service
import ObjectDepot.Service.RequestBody
import ObjectDepot.Service.Response
import ObjectDepot.Validation

/-!
Requests on single objects: create, read, update and delete. Each acts in the partition of the app
it is made under, and stamps app and shard key on what it writes.
-/

namespace ObjectDepot.Service

variable {σ : Type}

/-- Creates an object. Its type is the hint, unless that is blank, or else the one in the body.
Types are registered before the object is validated, and a failure to do so is made good when the
type is seen again. -/
def create (svc : Service σ) (app : App) (hint : Option String) (body : RequestBody) :
    Request σ Response := do
  let fields ← RequestBody.readObject svc.config.maxEntitySize body
  let fields := match hint.filter (fun t => !Text.isBlank t) with
    | some type => svc.names.withType fields type
    | none => fields
  let o ← (svc.names.toObject fields).mapError Failure.ofValidation
  let o := app.adopt o
  let _ ← (svc.registerTypes (some app) [o] : StateM (ServiceState σ) _)
  if !o.isValid then throw (.badRequest o.violations)
  let (id, o) ← callWriting (svc.storage.create app.identifier o)
  if Text.isBlank id then throw (.badRequest ["Failed to create object."])
  return .created (svc.names.toFields o) o.uri?

def read (svc : Service σ) (app : App) (id : String) : Request σ Response := do
  match ← call (svc.storage.read app.identifier id) with
  | some o => return .ok (svc.names.toFields o)
  | none => throw .notFound

/-- Updates a target that the caller has looked up. The body is laid over it, locked fields aside,
and the result replaces what is stored. -/
def update (svc : Service σ) (app : App) (target : Option Object) (body : RequestBody) :
    Request σ Response := do
  let fields ← RequestBody.readObject svc.config.maxEntitySize body
  match target.filter (fun o => o.id.isSome && o.appid = some app.identifier.text) with
  | none => throw .notFound
  | some o =>
    let o := app.stamp o
    let o ← (svc.names.change o fields .skipLocked).mapError Failure.ofValidation
    if !o.isValid then throw (.badRequest o.violations)
    let ((), o) ← callWriting (svc.storage.update app.identifier o)
    return .ok (svc.names.toFields o)

/-- Deletes a target that the caller has looked up, in the app's own partition whatever app the
target names. -/
def delete (svc : Service σ) (app : App) (target : Option Object) : Request σ Response := do
  match target.filter (fun o => o.id.isSome && o.appid.isSome) with
  | none => throw (.badRequest [])
  | some o =>
    call (svc.storage.delete app.identifier (app.adopt o))
    return .okEmpty

end ObjectDepot.Service
