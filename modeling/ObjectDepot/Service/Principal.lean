import ObjectDepot.Service

/-!
Principals: who makes a request, and the app it is made under. Records of apps are stored in the
root app's partition; a principal without one, or without credentials, gets the root app.
-/

namespace ObjectDepot

inductive Principal where
  | anonymous
  | app (appid : AppId)
  | user (id : String) (appid : AppId)
  deriving DecidableEq, Repr

def Principal.appid? : Principal → Option AppId
  | .anonymous => none
  | .app appid => some appid
  | .user _ appid => some appid

namespace Service

variable {σ : Type}

def loadApp (svc : Service σ) (appid : AppId) : Request σ (Option App) := do
  match ← call (svc.storage.read svc.config.root appid.objectId) with
  | none => return none
  | some record => return some (← (App.ofObject record).mapError Failure.ofStorage)

/-- The root app as it is stored, or a new one. -/
def rootApp (svc : Service σ) : Request σ App := do
  return (← svc.loadApp svc.config.root).getD (.root svc.config.root)

def resolve (svc : Service σ) (principal : Principal) : Request σ App := do
  match principal.appid? with
  | none => svc.rootApp
  | some appid =>
    match ← svc.loadApp appid with
    | some app => return app
    | none => svc.rootApp

end Service

end ObjectDepot
