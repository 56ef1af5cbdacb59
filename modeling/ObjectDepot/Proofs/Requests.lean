import ObjectDepot.Proofs.FieldReading
import ObjectDepot.Service.Run

/-! What each request does to a state, said through the operations of the storage. A request decodes
its input first; until then the state is as it was. -/

namespace ObjectDepot

namespace Request

variable {σ α β : Type}

theorem on_pure (a : α) (s : ServiceState σ) : (pure a : Request σ α).on s = (.ok a, s) := rfl

theorem on_throw (f : Failure) (s : ServiceState σ) :
    (throw f : Request σ α).on s = (.error f, s) := rfl

theorem on_bind (r : Request σ α) (next : α → Request σ β) (s : ServiceState σ) :
    (r >>= next).on s =
      match r.on s with
      | (.ok a, s) => (next a).on s
      | (.error f, s) => (.error f, s) := by
  simp only [Request.on, bind, ExceptT.bind, ExceptT.mk, ExceptT.run, StateT.bind]
  rcases r s with ⟨_ | _, _⟩ <;> rfl

theorem on_decoded (x : Except Failure α) (s : ServiceState σ) :
    (liftM x : Request σ α).on s = (x, s) := rfl

theorem on_state (x : StateM (ServiceState σ) α) (s : ServiceState σ) :
    (liftM x : Request σ α).on s = (.ok (x s).1, (x s).2) := rfl

theorem on_call (operation : StateM σ (Except StorageError α)) (s : ServiceState σ) :
    (Service.call operation).on s =
      ((operation s.store).1.mapError .ofStorage, { s with store := (operation s.store).2 }) := rfl

theorem on_callWriting (operation : StateM σ (Written α β)) (s : ServiceState σ) :
    (Service.callWriting operation).on s =
      (((operation s.store).1.answer.map (·, (operation s.store).1.left)).mapError .ofStorage,
        { s with store := (operation s.store).2 }) := rfl

end Request

namespace Service

variable {σ : Type}

theorem registerTypes_eq (svc : Service σ) (app : App) (os : List Object) (s : ServiceState σ) :
    svc.registerTypes (some app) os s =
      if os.isEmpty then (.ok 0, s)
      else
        let (pending, registry) := Registry.newTypes app os s.registry
        if pending.isEmpty then (.ok 0, { s with registry })
        else
          let (answer, store) := Registry.recordTypes svc.storage app pending s.store
          (answer, { s with registry, store }) := by
  simp only [registerTypes]
  cases os.isEmpty with
  | true => rfl
  | false =>
    simp only [Bool.false_eq_true, if_false, ServiceState.onRegistry, bind, StateT.bind]
    rcases Registry.newTypes app os s.registry with ⟨pending, registry⟩
    cases hp : pending.isEmpty <;> simp [hp] <;> rfl

/-- The object that a create makes of its input. -/
def draft (svc : Service σ) (app : App) (hint : Option String) (body : RequestBody) :
    Except Failure Object :=
  (RequestBody.readObject svc.config.maxEntitySize body).bind fun fields =>
    ((svc.names.toObject
      (match hint.filter (fun t => !Text.isBlank t) with
        | some type => svc.names.withType fields type
        | none => fields)).mapError Failure.ofValidation).map app.adopt

theorem create_on (svc : Service σ) (app : App) (hint : Option String) (body : RequestBody)
    (s : ServiceState σ) :
    (svc.create app hint body).on s =
      match svc.draft app hint body with
      | .error f => (.error f, s)
      | .ok o =>
        let s := (svc.registerTypes (some app) [o] s).2
        if o.isValid then
          let (w, store) := svc.storage.create app.identifier o s.store
          (match w.answer with
            | .error e => .error (.ofStorage e)
            | .ok id =>
              if Text.isBlank id then .error (.badRequest ["Failed to create object."])
              else .ok (.created (svc.names.toFields w.left) w.left.uri?), { s with store })
        else (.error (.badRequest o.violations), s) := by
  unfold create draft
  rw [Request.on_bind, Request.on_decoded]
  cases RequestBody.readObject svc.config.maxEntitySize body with
  | error f => rfl
  | ok fields =>
    simp only [Except.bind, Request.on_bind, Request.on_decoded]
    cases (svc.names.toObject _).mapError Failure.ofValidation with
    | error f => rfl
    | ok o =>
      simp only [Except.map, Request.on_state]
      cases hv : (app.adopt o).isValid with
      | false => simp [Request.on_throw]
      | true =>
        simp only [Bool.not_true, Bool.false_eq_true, if_false, if_true, Request.on_bind,
          Request.on_callWriting]
        rcases svc.storage.create app.identifier _ _ with ⟨⟨_ | id, left⟩, store⟩
        · rfl
        · cases hb : Text.isBlank id <;> simp [Except.map, mapError_ok, hb] <;> rfl

theorem read_on (svc : Service σ) (app : App) (id : String) (s : ServiceState σ) :
    (svc.read app id).on s =
      let (answer, store) := svc.storage.read app.identifier id s.store
      (match answer with
        | .error e => .error (.ofStorage e)
        | .ok none => .error .notFound
        | .ok (some o) => .ok (.ok (svc.names.toFields o)), { s with store }) := by
  unfold read
  rw [Request.on_bind, Request.on_call]
  rcases svc.storage.read app.identifier id s.store with ⟨_ | _ | _, store⟩ <;> rfl

/-- The object that an update makes of its target and its input. -/
def revision (svc : Service σ) (app : App) (target : Option Object) (body : RequestBody) :
    Except Failure Object :=
  (RequestBody.readObject svc.config.maxEntitySize body).bind fun fields =>
    match target.filter (fun o => o.id.isSome && o.appid = some app.identifier.text) with
    | none => .error .notFound
    | some o =>
      ((svc.names.change (app.stamp o) fields .skipLocked).mapError Failure.ofValidation).bind
        fun o => if o.isValid then .ok o else .error (.badRequest o.violations)

theorem update_on (svc : Service σ) (app : App) (target : Option Object) (body : RequestBody)
    (s : ServiceState σ) :
    (svc.update app target body).on s =
      match svc.revision app target body with
      | .error f => (.error f, s)
      | .ok o =>
        let (w, store) := svc.storage.update app.identifier o s.store
        (match w.answer with
          | .error e => .error (.ofStorage e)
          | .ok () => .ok (.ok (svc.names.toFields w.left)), { s with store }) := by
  unfold update revision
  rw [Request.on_bind, Request.on_decoded]
  cases RequestBody.readObject svc.config.maxEntitySize body with
  | error f => rfl
  | ok fields =>
    simp only [Except.bind]
    cases target.filter (fun o => o.id.isSome && o.appid = some app.identifier.text) with
    | none => rfl
    | some o =>
      simp only [Request.on_bind, Request.on_decoded]
      cases (svc.names.change (app.stamp o) fields .skipLocked).mapError Failure.ofValidation with
      | error f => rfl
      | ok o =>
        cases hv : o.isValid with
        | false => simp [hv, Request.on_throw]
        | true =>
          simp only [hv, Bool.not_true, Bool.false_eq_true, if_false, if_true, Request.on_bind,
            Request.on_callWriting]
          rcases svc.storage.update app.identifier o s.store with ⟨⟨_ | _, left⟩, store⟩ <;> rfl

theorem delete_on (svc : Service σ) (app : App) (target : Option Object) (s : ServiceState σ) :
    (svc.delete app target).on s =
      match target.filter (fun o => o.id.isSome && o.appid.isSome) with
      | none => (.error (.badRequest []), s)
      | some o =>
        let (answer, store) := svc.storage.delete app.identifier (app.adopt o) s.store
        (match answer with
          | .error e => .error (.ofStorage e)
          | .ok () => .ok .okEmpty, { s with store }) := by
  unfold delete
  cases target.filter (fun o => o.id.isSome && o.appid.isSome) with
  | none => rfl
  | some o =>
    simp only [Request.on_bind, Request.on_call]
    rcases svc.storage.delete app.identifier (app.adopt o) s.store with ⟨_ | _, store⟩ <;> rfl

theorem batchRead_on (svc : Service σ) (app : App) (ids : List String) (s : ServiceState σ) :
    (svc.batchRead app ids).on s =
      if ids.isEmpty then (.error (.badRequest ["Missing ids."]), s)
      else
        let (answer, store) := svc.storage.readAll app.identifier ids true s.store
        (match answer with
          | .error e => .error (.ofStorage e)
          | .ok found => .ok (.okList (found.map svc.names.toFields)), { s with store }) := by
  unfold batchRead
  cases ids.isEmpty with
  | true => rfl
  | false =>
    simp only [Bool.false_eq_true, if_false, Request.on_bind, Request.on_call]
    rcases svc.storage.readAll app.identifier ids true s.store with ⟨_ | _, store⟩ <;> rfl

theorem keepNew_on (svc : Service σ) (app : App) (os : List Object) (s : ServiceState σ) :
    (svc.keepNew app os).on s =
      if (os.filterMap Object.givenId?).isEmpty then (.ok os, s)
      else
        let (answer, store) :=
          svc.storage.readAll app.identifier (os.filterMap Object.givenId?) false s.store
        (match answer with
          | .error e => .error (.ofStorage e)
          | .ok stored => .ok (keepUntaken (stored.filterMap Object.id) os), { s with store }) := by
  unfold keepNew
  simp only
  cases (os.filterMap Object.givenId?).isEmpty with
  | true => rfl
  | false =>
    simp only [Bool.false_eq_true, if_false, Request.on_bind, Request.on_call]
    rcases svc.storage.readAll app.identifier (os.filterMap Object.givenId?) false s.store with
      ⟨_ | _, store⟩ <;> rfl

theorem batchCreate_on (svc : Service σ) (app : App) (body : RequestBody) (s : ServiceState σ) :
    (svc.batchCreate app body).on s =
      match RequestBody.readList svc.config.maxEntitySize body with
      | .error f => (.error f, s)
      | .ok items =>
        let (kept, s) := (svc.keepNew app (items.filterMap (svc.newObject? app))).on s
        match kept with
        | .error f => (.error f, s)
        | .ok os =>
          if os.isEmpty then (.ok (.okList []), s)
          else
            let (w, store) := svc.storage.createAll app.identifier os s.store
            match w.answer with
            | .error e => (.error (.ofStorage e), { s with store })
            | .ok _ =>
              (.ok (.okList (w.left.map svc.names.toFields)),
                (svc.registerLater ⟨app, w.left⟩ { s with store }).2) := by
  unfold batchCreate
  rw [Request.on_bind, Request.on_decoded]
  cases RequestBody.readList svc.config.maxEntitySize body with
  | error f => rfl
  | ok items =>
    simp only [Request.on_bind]
    rcases (svc.keepNew app (items.filterMap (svc.newObject? app))).on s with ⟨_ | os, s⟩
    · rfl
    · cases hos : os.isEmpty with
      | true => simp [hos, Request.on_pure]
      | false =>
        simp only [hos, Bool.false_eq_true, if_false, Request.on_bind, Request.on_callWriting]
        rcases svc.storage.createAll app.identifier os s.store with ⟨⟨_ | _, left⟩, store⟩ <;> rfl

theorem batchUpdate_on (svc : Service σ) (app : App) (body : RequestBody) (s : ServiceState σ) :
    (svc.batchUpdate app body).on s =
      match RequestBody.readList svc.config.maxEntitySize body with
      | .error f => (.error f, s)
      | .ok items =>
        let os := items.filterMap (svc.changes? app)
        if os.isEmpty then (.ok (.okList []), s)
        else
          let (w, store) := svc.storage.updateAll app.identifier os s.store
          (match w.answer with
            | .error e => .error (.ofStorage e)
            | .ok () => .ok (.okList (os.map svc.names.toFields)), { s with store }) := by
  unfold batchUpdate
  rw [Request.on_bind, Request.on_decoded]
  cases RequestBody.readList svc.config.maxEntitySize body with
  | error f => rfl
  | ok items =>
    cases hos : (items.filterMap (svc.changes? app)).isEmpty with
    | true => simp [List.isEmpty_iff.mp hos, Request.on_pure]
    | false =>
      simp only [hos, Bool.not_false, Bool.false_eq_true, if_false, if_true, Request.on_bind,
        Request.on_callWriting]
      rcases svc.storage.updateAll app.identifier _ s.store with ⟨⟨_ | _, left⟩, store⟩ <;> rfl

def deletable (app : App) (found : List Object) : List Object :=
  (found.filter (fun o => o.id.isSome && !Text.isBlank o.type)).map app.stamp

theorem batchDelete_on (svc : Service σ) (app : App) (ids : List String) (s : ServiceState σ) :
    (svc.batchDelete app ids).on s =
      if ids.isEmpty then (.error (.badRequest ["Missing ids."]), s)
      else if svc.config.maxBatchDelete < ids.length then
        (.error (.badRequest ["Limit reached. Maximum number of items to delete is " ++
          toString svc.config.maxBatchDelete]), s)
      else
        let (answer, store) := svc.storage.readAll app.identifier ids false s.store
        let s := { s with store }
        match answer with
        | .error e => (.error (.ofStorage e), s)
        | .ok found =>
          if (deletable app found).isEmpty then (.ok .okEmpty, s)
          else
            let (answer, store) :=
              svc.storage.deleteAll app.identifier (deletable app found) s.store
            (match answer with
              | .error e => .error (.ofStorage e)
              | .ok () => .ok .okEmpty, { s with store }) := by
  unfold batchDelete
  cases ids.isEmpty with
  | true => rfl
  | false =>
    by_cases hmax : svc.config.maxBatchDelete < ids.length
    · simp [hmax, Request.on_throw]
    · simp only [hmax, Bool.false_eq_true, if_false, Request.on_bind, Request.on_call]
      rcases svc.storage.readAll app.identifier ids false s.store with ⟨_ | found, store⟩
      · rfl
      · simp only [mapError_ok, deletable]
        by_cases hos : ((found.filter
            (fun o => o.id.isSome && !Text.isBlank o.type)).map app.stamp).isEmpty
        · simp only [hos, Bool.not_true, Bool.false_eq_true, if_false, if_true, Request.on_pure]
        · simp only [hos, Bool.not_false, Bool.false_eq_true, if_false, if_true, Request.on_bind,
            Request.on_call]
          rcases svc.storage.deleteAll app.identifier _ store with ⟨_ | _, store⟩ <;> rfl

section InMemory

variable (config : Config) (background : Background) (app : AppId) (m : Memory)

theorem inMemory_create (o : Object) :
    (inMemory config background).storage.create app o m = Memory.create app o m := rfl

theorem inMemory_update (o : Object) :
    (inMemory config background).storage.update app o m = Memory.update app o m := rfl

theorem inMemory_createAll (os : List Object) :
    (inMemory config background).storage.createAll app os m = Memory.createAll app os m := rfl

theorem inMemory_readAll (ids : List String) (inOrder : Bool) :
    (inMemory config background).storage.readAll app ids inOrder m =
      (.ok (ids.filterMap (m.get? app)), m) := rfl

end InMemory

end Service
end ObjectDepot
