import ObjectDepot.Proofs.RequestFrame

/-! What a request depends on. Two states are the same for an app when its partition, the supply and
the registrations that wait for it are; a request of the app then has the same outcome in both, and
leaves them the same for the app. -/

namespace ObjectDepot

/-- Two storages that one app cannot tell apart. -/
structure Memory.SameFor (app : AppId) (m m' : Memory) : Prop where
  partition : m.partitions.get? app.text = m'.partitions.get? app.text
  supply : m.supply = m'.supply

/-- An operation that acts on the partition of one app alone. -/
def Memory.Local {α : Type} (app : AppId) (operation : StateM Memory α) : Prop :=
  ∀ m m', m.SameFor app m' →
    (operation m).1 = (operation m').1 ∧ (operation m).2.SameFor app (operation m').2

namespace Memory

variable {app : AppId} {m m' : Memory}

theorem SameFor.objects (h : m.SameFor app m') : m.objects app = m'.objects app := by
  rw [Memory.objects, Memory.objects, h.partition]

theorem SameFor.get? (h : m.SameFor app m') (id : String) : m.get? app id = m'.get? app id := by
  rw [Memory.get?, Memory.get?, h.objects]

theorem SameFor.withSupply (h : m.SameFor app m') (supply : Supply) :
    ({ m with supply } : Memory).SameFor app { m' with supply } := ⟨h.partition, rfl⟩

theorem SameFor.withPartition (h : m.SameFor app m') (p : Partition) :
    (m.withPartition app p).SameFor app (m'.withPartition app p) := by
  refine ⟨?_, h.supply⟩
  rw [Memory.withPartition, Memory.withPartition, KeyMap.get?_insert_self, KeyMap.get?_insert_self]

theorem SameFor.put (h : m.SameFor app m') (id : String) (o : Object) :
    (m.put app id o).SameFor app (m'.put app id o) := by
  rw [Memory.put, Memory.put, h.objects]
  exact h.withPartition _

theorem SameFor.remove (h : m.SameFor app m') (ids : List String) :
    (m.remove app ids).SameFor app (m'.remove app ids) := by
  rw [Memory.remove, Memory.remove, h.partition]
  cases m'.partitions.get? app.text with
  | none => exact h
  | some p => exact h.withPartition _

theorem local_create (o : Object) : Local app (create app o) := by
  intro m m' h
  unfold create
  rw [h.objects, h.supply]
  dsimp only
  split
  · exact ⟨rfl, h.withSupply _⟩
  · refine ⟨rfl, ?_⟩
    exact (h.withSupply _).put _ _

theorem local_read (id : String) : Local app (read app id) := by
  intro m m' h
  exact ⟨by simp only [read, h.get?], h⟩

theorem local_update (o : Object) : Local app (update app o) := by
  intro m m' h
  unfold update
  split
  · exact ⟨rfl, h⟩
  · dsimp only
    rw [h.get?, h.supply]
    split
    · exact ⟨rfl, h⟩
    · exact ⟨rfl, h.put _ _⟩

theorem local_delete (o : Object) : Local app (delete app o) :=
  fun _ _ h => ⟨rfl, h.remove _⟩

theorem local_readAll (ids : List String) (inOrder : Bool) :
    Local app (readAll app ids inOrder) := by
  intro m m' h
  have hget : m.get? app = m'.get? app := funext h.get?
  exact ⟨by simp only [readAll, hget], h⟩

theorem local_createAll (os : List Object) : Local app (createAll app os) := by
  intro m m' h
  unfold createAll
  rw [h.objects, h.supply]
  dsimp only
  split
  · exact ⟨rfl, h.withSupply _⟩
  · refine ⟨rfl, ?_⟩
    dsimp only
    rw [(h.withSupply _).objects]
    exact (h.withSupply _).withPartition _

theorem local_updateAll (os : List Object) : Local app (updateAll app os) := by
  intro m m' h
  unfold updateAll
  rw [h.partition, h.supply]
  split
  · exact ⟨rfl, h⟩
  · split
    · exact ⟨rfl, h⟩
    · exact ⟨rfl, h.withPartition _⟩

theorem local_deleteAll (os : List Object) : Local app (deleteAll app os) :=
  fun _ _ h => ⟨rfl, h.remove _⟩

end Memory

def ServiceState.waiting {σ : Type} (s : ServiceState σ) (app : AppId) : List Registration :=
  s.pending.filter (fun t => t.app.identifier = app)

structure ServiceState.SameFor (app : AppId) (s s' : ServiceState Memory) : Prop where
  store : s.store.SameFor app s'.store
  waiting : s.waiting app = s'.waiting app

namespace Request

variable {α β : Type} {app : AppId}

/-- A request that one app alone has to do with. -/
def Local (app : AppId) (r : Request Memory α) : Prop :=
  ∀ s s', s.SameFor app s' → (r.on s).1 = (r.on s').1 ∧ (r.on s).2.SameFor app (r.on s').2

theorem local_pure (a : α) : Local app (pure a) := fun _ _ h => ⟨rfl, h⟩

theorem local_throw (f : Failure) : Local app (throw f : Request Memory α) :=
  fun _ _ h => ⟨rfl, h⟩

theorem local_throw_bind (f : Failure) (next : α → Request Memory β) :
    Local app ((throw f : Request Memory α) >>= next) := fun _ _ h => ⟨rfl, h⟩

theorem local_decoded (x : Except Failure α) : Local app (liftM x : Request Memory α) :=
  fun _ _ h => ⟨rfl, h⟩

theorem Local.bind {r : Request Memory α} {next : α → Request Memory β} (hr : Local app r)
    (hnext : ∀ a, Local app (next a)) : Local app (r >>= next) := by
  intro s s' h
  obtain ⟨houtcome, hsame⟩ := hr s s' h
  rw [on_bind, on_bind]
  rcases hrs : r.on s with ⟨outcome, t⟩
  rcases hrs' : r.on s' with ⟨outcome', t'⟩
  rw [hrs, hrs'] at houtcome hsame
  dsimp only at houtcome hsame
  subst houtcome
  cases outcome with
  | error f => exact ⟨rfl, hsame⟩
  | ok a => exact hnext a t t' hsame

theorem local_call {operation : StateM Memory (Except StorageError α)}
    (h : Memory.Local app operation) : Local app (Service.call operation) := by
  intro s s' hs
  obtain ⟨hanswer, hstore⟩ := h s.store s'.store hs.store
  rw [on_call, on_call, hanswer]
  exact ⟨rfl, hstore, hs.waiting⟩

theorem local_callWriting {operation : StateM Memory (Written α β)}
    (h : Memory.Local app operation) : Local app (Service.callWriting operation) := by
  intro s s' hs
  obtain ⟨hwritten, hstore⟩ := h s.store s'.store hs.store
  rw [on_callWriting, on_callWriting, hwritten]
  exact ⟨rfl, hstore, hs.waiting⟩

theorem Local.after {x : StateM (ServiceState Memory) α} {next : Request Memory β}
    (hx : ∀ s s', s.SameFor app s' → (x s).2.SameFor app (x s').2) (hnext : Local app next) :
    Local app (liftM x >>= fun _ => next) := by
  intro s s' h
  rw [on_bind, on_bind, on_state, on_state]
  exact hnext _ _ (hx s s' h)

end Request

namespace Service

variable (config : Config) (background : Background)

/-- Recording types of an app touches nothing but the partition that holds the app's record. -/
theorem recordsTypes_confined {app : App} (hid : app.envelope.id = some app.identifier.objectId)
    {os : List Object} {m m' : Memory} (h : RecordsTypes app os m m') :
    m'.supply = m.supply ∧ ∀ other, other ≠ app.partition →
      m'.partitions.get? other.text = m.partitions.get? other.text := by
  rcases h with rfl | ⟨pending, -, rfl⟩
  · exact ⟨rfl, fun _ _ => rfl⟩
  · rcases Registry.recordTypes_cases app pending m with h | ⟨record, latest, -, -, h⟩ | ⟨-, h⟩
    · rw [h]
      exact ⟨rfl, fun _ _ => rfl⟩
    · rw [h]
      exact ⟨Memory.supply_update _ _ m,
        fun other hother => Write.partitions_run (w := .update app.partition _) hother⟩
    · rw [h]
      refine ⟨?_, fun other hother => Write.partitions_run (w := .create app.partition _) hother⟩
      have hgiven := Frame.givenId_addTypes hid pending
      rcases Memory.create_of_givenId (m := m) hgiven with hcreate | ⟨o', hcreate⟩
      · rw [hcreate]
      · rw [hcreate]
        rfl

theorem registerTypes_sameFor {app : App} (hid : app.envelope.id = some app.identifier.objectId)
    (hne : app.partition ≠ app.identifier) (os : List Object) {s s' : ServiceState Memory}
    (h : s.SameFor app.identifier s') :
    ((inMemory config background).registerTypes (some app) os s).2.SameFor app.identifier
      ((inMemory config background).registerTypes (some app) os s').2 := by
  obtain ⟨hrecords, hpending⟩ := registerTypes_effect config background app os s
  obtain ⟨hrecords', hpending'⟩ := registerTypes_effect config background app os s'
  obtain ⟨hsupply, hpartition⟩ := recordsTypes_confined hid hrecords
  obtain ⟨hsupply', hpartition'⟩ := recordsTypes_confined hid hrecords'
  refine ⟨⟨?_, ?_⟩, ?_⟩
  · rw [hpartition _ hne.symm, hpartition' _ hne.symm, h.store.partition]
  · rw [hsupply, hsupply', h.store.supply]
  · rw [ServiceState.waiting, ServiceState.waiting, hpending, hpending']
    exact h.waiting

theorem registerLater_sameFor {app : AppId} (t : Registration) {s s' : ServiceState Memory}
    (h : s.SameFor app s') :
    ((inMemory config background).registerLater t s).2.SameFor app
      ((inMemory config background).registerLater t s').2 := by
  cases background with
  | dropped => exact h
  | queued =>
    refine ⟨h.store, ?_⟩
    have happend (s : ServiceState Memory) :
        ((inMemory config .queued).registerLater t s).2.waiting app =
          s.waiting app ++ [t].filter (fun t => t.app.identifier = app) :=
      List.filter_append ..
    rw [happend, happend, h.waiting]

theorem local_create {app : App} (hid : app.envelope.id = some app.identifier.objectId)
    (hne : app.partition ≠ app.identifier) (hint : Option String) (body : RequestBody) :
    Request.Local app.identifier ((inMemory config background).create app hint body) := by
  unfold create
  refine .bind (Request.local_decoded _) fun fields => ?_
  refine .bind (Request.local_decoded _) fun o => ?_
  refine .after (fun s s' h => registerTypes_sameFor config background hid hne _ h) ?_
  split
  · exact Request.local_throw_bind _ _
  · refine .bind (Request.local_callWriting (Memory.local_create _)) fun ⟨id, left⟩ => ?_
    dsimp only
    split
    · exact Request.local_throw_bind _ _
    · exact Request.local_pure _

theorem local_read (app : App) (id : String) :
    Request.Local app.identifier ((inMemory config background).read app id) := by
  unfold read
  refine .bind (Request.local_call (Memory.local_read id)) fun found => ?_
  split
  · exact Request.local_pure _
  · exact Request.local_throw _

theorem local_update (app : App) (target : Option Object) (body : RequestBody) :
    Request.Local app.identifier ((inMemory config background).update app target body) := by
  unfold update
  refine .bind (Request.local_decoded _) fun fields => ?_
  split
  · exact Request.local_throw _
  · refine .bind (Request.local_decoded _) fun o => ?_
    split
    · exact Request.local_throw_bind _ _
    · refine .bind (Request.local_callWriting (Memory.local_update _)) fun written => ?_
      exact Request.local_pure _

theorem local_delete (app : App) (target : Option Object) :
    Request.Local app.identifier ((inMemory config background).delete app target) := by
  unfold delete
  split
  · exact Request.local_throw _
  · refine .bind (Request.local_call (Memory.local_delete _)) fun _ => ?_
    exact Request.local_pure _

theorem local_batchRead (app : App) (ids : List String) :
    Request.Local app.identifier ((inMemory config background).batchRead app ids) := by
  unfold batchRead
  split
  · exact Request.local_throw_bind _ _
  · refine .bind (Request.local_call (Memory.local_readAll ids true)) fun found => ?_
    exact Request.local_pure _

theorem local_keepNew (app : App) (os : List Object) :
    Request.Local app.identifier ((inMemory config background).keepNew app os) := by
  unfold keepNew
  dsimp only
  split
  · exact Request.local_pure _
  · refine .bind (Request.local_call (Memory.local_readAll _ false)) fun stored => ?_
    exact Request.local_pure _

theorem local_batchCreate (app : App) (body : RequestBody) :
    Request.Local app.identifier ((inMemory config background).batchCreate app body) := by
  unfold batchCreate
  refine .bind (Request.local_decoded _) fun items => ?_
  refine .bind (local_keepNew config background app _) fun os => ?_
  split
  · exact Request.local_pure _
  · refine .bind (Request.local_callWriting (Memory.local_createAll os)) fun written => ?_
    exact .after (fun s s' h => registerLater_sameFor config background _ h)
      (Request.local_pure _)

theorem local_batchUpdate (app : App) (body : RequestBody) :
    Request.Local app.identifier ((inMemory config background).batchUpdate app body) := by
  unfold batchUpdate
  refine .bind (Request.local_decoded _) fun items => ?_
  dsimp only
  split
  · refine .bind (Request.local_callWriting (Memory.local_updateAll _)) fun written => ?_
    exact Request.local_pure _
  · exact Request.local_pure _

theorem local_batchDelete (app : App) (ids : List String) :
    Request.Local app.identifier ((inMemory config background).batchDelete app ids) := by
  unfold batchDelete
  split
  · exact Request.local_throw_bind _ _
  · dsimp only
    split
    · exact Request.local_throw_bind _ _
    · refine .bind (Request.local_call (Memory.local_readAll ids false)) fun found => ?_
      split
      · refine .bind (Request.local_call (Memory.local_deleteAll _)) fun _ => ?_
        exact Request.local_pure _
      · exact Request.local_pure _

theorem local_answer {app : App} (hid : app.envelope.id = some app.identifier.objectId)
    (hne : app.partition ≠ app.identifier) (call : Call (Option Object)) :
    Request.Local app.identifier ((inMemory config background).answer app call) := by
  cases call with
  | create hint body => exact local_create config background hid hne hint body
  | read id => exact local_read config background app id
  | update target body => exact local_update config background app target body
  | delete target => exact local_delete config background app target
  | batchRead ids => exact local_batchRead config background app ids
  | batchCreate body => exact local_batchCreate config background app body
  | batchUpdate body => exact local_batchUpdate config background app body
  | batchDelete ids => exact local_batchDelete config background app ids

end Service
end ObjectDepot
