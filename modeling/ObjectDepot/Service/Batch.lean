import ObjectDepot.Service
import ObjectDepot.Service.RequestBody
import ObjectDepot.Service.Response
import ObjectDepot.Validation

/-!
Requests on many objects. Items are judged one by one: those that cannot be used are dropped and the
others go on. Only what concerns the request as a whole makes it fail.
-/

namespace ObjectDepot.Service

variable {σ : Type}

/-- Reads the objects that exist, in the order of the identifiers. -/
def batchRead (svc : Service σ) (app : App) (ids : List String) : Request σ Response := do
  if ids.isEmpty then throw (.badRequest ["Missing ids."])
  let found ← call (svc.storage.readAll app.identifier ids true)
  return .okList (found.map svc.names.toFields)

/-- The object that an item of a batch create stands for; none if the item is dropped. -/
def newObject? (svc : Service σ) (app : App) (item : Json) : Option Object := do
  let fields ← item.fields?
  let o ← (svc.names.toObject fields).toOption
  if o.isValid then some (app.adopt o) else none

/-- Keeps objects whose identifier is not among those taken, nor that of an object kept before. -/
def keepUntaken (taken : List String) : List Object → List Object
  | [] => []
  | o :: rest =>
    match o.givenId? with
    | none => o :: keepUntaken taken rest
    | some id =>
      if taken.contains id then keepUntaken taken rest
      else o :: keepUntaken (id :: taken) rest

/-- Drops objects whose identifier is stored or repeated. Storage is asked only if there are
identifiers to ask for. -/
def keepNew (svc : Service σ) (app : App) (os : List Object) : Request σ (List Object) := do
  let requested := os.filterMap Object.givenId?
  if requested.isEmpty then return os
  let stored ← call (svc.storage.readAll app.identifier requested false)
  return keepUntaken (stored.filterMap Object.id) os

/-- Creates objects from the items that can be used, and gives those that were stored. Their types
are registered in the background. -/
def batchCreate (svc : Service σ) (app : App) (body : RequestBody) : Request σ Response := do
  let items ← RequestBody.readList svc.config.maxEntitySize body
  let os ← svc.keepNew app (items.filterMap (svc.newObject? app))
  if os.isEmpty then return .okList []
  let (_, os) ← callWriting (svc.storage.createAll app.identifier os)
  svc.registerLater ⟨app, os⟩
  return .okList (os.map svc.names.toFields)

/-- The partial object that an item of a batch update stands for; none if the item is dropped. An
item must tell identifier and type. -/
def changes? (svc : Service σ) (app : App) (item : Json) : Option Object := do
  let fields ← item.fields?
  let _ ← svc.names.identifier? fields
  let _ ← svc.names.type? fields
  let o ← (svc.names.toObjectThrough fields .skipLocked).toOption
  return app.adopt o

/-- Merges items into the stored objects and gives the objects that were sent to storage. They are
not validated. -/
def batchUpdate (svc : Service σ) (app : App) (body : RequestBody) : Request σ Response := do
  let items ← RequestBody.readList svc.config.maxEntitySize body
  let os := items.filterMap (svc.changes? app)
  if !os.isEmpty then
    let _ ← callWriting (svc.storage.updateAll app.identifier os)
  return .okList (os.map svc.names.toFields)

/-- Deletes the objects that exist among those named. -/
def batchDelete (svc : Service σ) (app : App) (ids : List String) : Request σ Response := do
  if ids.isEmpty then throw (.badRequest ["Missing ids."])
  let max := svc.config.maxBatchDelete
  if max < ids.length then
    throw (.badRequest ["Limit reached. Maximum number of items to delete is " ++ toString max])
  let found ← call (svc.storage.readAll app.identifier ids false)
  let os := (found.filter (fun o => o.id.isSome && !Text.isBlank o.type)).map app.stamp
  if !os.isEmpty then call (svc.storage.deleteAll app.identifier os)
  return .okEmpty

end ObjectDepot.Service
