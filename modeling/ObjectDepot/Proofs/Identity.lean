import ObjectDepot.Proofs.LockedFields

/-! What of an object never changes. From its creation until it is deleted an object keeps its
identifier, its type, its app, its creator, the time of its creation and the shape of its body,
whatever is asked of the service and whatever types are registered. -/

namespace ObjectDepot

/-- What two states of one object have in common. -/
structure Object.SameIdentity (o o' : Object) : Prop where
  id : o'.id = o.id
  type : o'.type = o.type
  appid : o'.appid = o.appid
  creatorid : o'.envelope.creatorid = o.envelope.creatorid
  timestamp : o'.envelope.timestamp = o.envelope.timestamp
  shape : o'.shape = o.shape

namespace Object

theorem SameIdentity.refl (o : Object) : o.SameIdentity o := ⟨rfl, rfl, rfl, rfl, rfl, rfl⟩

theorem SameIdentity.trans {o o' o'' : Object} (h : o.SameIdentity o') (h' : o'.SameIdentity o'') :
    o.SameIdentity o'' :=
  ⟨h'.id.trans h.id, h'.type.trans h.type, h'.appid.trans h.appid, h'.creatorid.trans h.creatorid,
    h'.timestamp.trans h.timestamp, h'.shape.trans h.shape⟩

/-- The locked fields of the envelope and the shape make up the identity. -/
theorem sameIdentity_of_get? {o o' : Object}
    (h : ∀ k, Envelope.has k → o.isLocked k → o'.envelope.get? k = o.envelope.get? k)
    (hshape : o'.shape = o.shape) : o.SameIdentity o' := by
  have texts {a b : Option String} (hab : a.map Json.str = b.map Json.str) : a = b :=
    Option.map_injective (fun _ _ h => Json.str.inj h) hab
  have times {a b : Option Int} (hab : a.map Json.int = b.map Json.int) : a = b :=
    Option.map_injective (fun _ _ h => Json.int.inj h) hab
  exact ⟨texts (h "id" rfl rfl), Json.str.inj (Option.some.inj (h "type" rfl rfl)),
    texts (h "appid" rfl rfl), texts (h "creatorid" rfl rfl), times (h "timestamp" rfl rfl),
    hshape⟩

theorem sameIdentity_of_envelope_eq {o o' : Object} (h : o'.envelope = o.envelope)
    (hshape : o'.shape = o.shape) : o.SameIdentity o' :=
  sameIdentity_of_get? (fun k _ _ => by rw [h]) hshape

theorem SameIdentity.inPlaceOf {o stored : Object} (h : stored.SameIdentity o) (time : Int) :
    stored.SameIdentity (o.inPlaceOf stored time) :=
  ⟨h.id, h.type, h.appid, h.creatorid, rfl, h.shape⟩

theorem sameIdentity_of_mergeFrom {app : AppId} {id : String} {stored o merged : Object}
    (hstored : stored.StoredAs app id) (ho : o.ChangeFor app) (hid : o.id = some id)
    (hmerge : stored.mergeFrom o = .ok merged) : stored.SameIdentity merged :=
  sameIdentity_of_get?
    (fun _ hhas hk => get?_envelope_mergeFrom_locked hstored ho hid hmerge hhas hk)
    (shape_mergeFrom hmerge)

theorem sameIdentity_of_revision {σ : Type} {svc : Service σ} {app : App} {target o : Object}
    {body : RequestBody} (ht : target.Sound)
    (h : svc.revision app (some target) body = .ok o) : target.SameIdentity o := by
  obtain ⟨fields, t, -, heq, -, -, hchange, -⟩ := Service.revision_eq_ok_iff.mp h
  obtain rfl := Option.some.inj heq
  rw [FieldNames.change] at hchange
  have hlay := FieldNames.apply_eq_ok_iff.mp hchange
  have hshape : o.shape = (app.stamp target).shape := shape_overlay hlay
  refine sameIdentity_of_get? (fun k _ hk => ?_) hshape
  have hlocked : (app.stamp target).isLocked k = true := hk
  have hshard : k ≠ "shardkey" := by
    rintro rfl
    cases hk
  rw [get?_overlay_envelope (ht.withShardKey _) hlay, FieldNames.get?_filter_unlocked,
    if_pos hlocked, get?_withShardKey, if_neg hshard]
  simp [changed]

end Object

/-- What stands under an identifier is still there, and is the same object. -/
def Memory.Keeps (m m' : Memory) (app : AppId) (id : String) : Prop :=
  ∀ o, m.get? app id = some o → ∃ o', m'.get? app id = some o' ∧ o.SameIdentity o'

namespace Memory

theorem Keeps.refl (m : Memory) (app : AppId) (id : String) : m.Keeps m app id :=
  fun o ho => ⟨o, ho, .refl o⟩

theorem Keeps.trans {m m' m'' : Memory} {app : AppId} {id : String} (h : m.Keeps m' app id)
    (h' : m'.Keeps m'' app id) : m.Keeps m'' app id := by
  intro o ho
  obtain ⟨o', ho', hsame⟩ := h o ho
  obtain ⟨o'', ho'', hsame'⟩ := h' o' ho'
  exact ⟨o'', ho'', hsame.trans hsame'⟩

end Memory

namespace Write

/-- A write whose objects are the ones they are put in the place of, or are merged as changes. -/
def Faithful (m : Memory) : Write → Prop
  | update app o => ∀ stored, m.get? app (o.id.getD "") = some stored →
      stored.SameIdentity (o.inPlaceOf stored m.supply.now)
  | updateAll app os => ∀ o ∈ os, o.ChangeFor app
  | _ => True

theorem keeps_merged {app : AppId} {os : List Object} {id : String} {now : Int} {stored next : Object}
    (hnow : IsInt64 now) (hos : ∀ o ∈ os, o.ChangeFor app) (hstored : stored.StoredAs app id)
    (h : Relation.ReflTransGen (Object.MergedWith os id now) stored next) :
    next.StoredAs app id ∧ stored.SameIdentity next := by
  induction h with
  | refl => exact ⟨hstored, .refl stored⟩
  | tail _ hstep ih =>
    obtain ⟨hnext, hsame⟩ := ih
    obtain ⟨o, ho, hid, merged, hmerge, rfl⟩ := hstep
    have hmerged := Object.sameIdentity_of_mergeFrom hnext (hos o ho) hid hmerge
    exact ⟨Memory.storedAs_of_mergeFrom hnow hnext hid (hos o ho).owner hmerge, hsame.trans
      ⟨hmerged.id, hmerged.type, hmerged.appid, hmerged.creatorid, hmerged.timestamp,
        hmerged.shape⟩⟩

/-- A faithful write keeps all that it does not delete. -/
theorem keeps_of_faithful {w : Write} {m : Memory} (hm : m.Consistent) (hw : w.Faithful m)
    (app : AppId) (id : String) :
    m.Keeps (w.run m) app id ∨ app = w.app ∧ w.Deletes id ∧ (w.run m).get? app id = none := by
  cases hget : m.get? app id with
  | none => exact .inl (fun o ho => by simp [hget] at ho)
  | some stored =>
    have hkeeps {o : Object} (hrun : (w.run m).get? app id = some o)
        (hsame : stored.SameIdentity o) : m.Keeps (w.run m) app id := by
      intro x hx
      obtain rfl := Option.some.inj (hget.symm.trans hx)
      exact ⟨o, hrun, hsame⟩
    rcases w.run_of_stored m hget with hrun | ⟨o, rfl, rfl, hrun⟩ | ⟨os, next, rfl, hsteps, hrun⟩ | h
    · exact .inl (hkeeps hrun (.refl stored))
    · exact .inl (hkeeps hrun (hw stored hget))
    · have hstored := hm.partitions app id stored hget
      exact .inl (hkeeps hrun (keeps_merged hm.supply.now hw hstored hsteps).2)
    · exact .inr h

theorem keeps_of_not_deletes {w : Write} {m : Memory} (hm : m.Consistent) (hw : w.Faithful m)
    (hdeletes : ∀ id, ¬ w.Deletes id) (app : AppId) (id : String) : m.Keeps (w.run m) app id := by
  rcases keeps_of_faithful hm hw app id with hkeeps | ⟨-, h, -⟩
  · exact hkeeps
  · exact absurd h (hdeletes id)

end Write

/-- Recording types rewrites the record of an app, which stays the same object. -/
theorem RecordsTypes.keeps {app : App} {os : List Object} {m m' : Memory} (hm : m.Consistent)
    (h : RecordsTypes app os m m') (owner : AppId) (id : String) : m.Keeps m' owner id := by
  rcases h with rfl | ⟨pending, -, rfl⟩
  · exact .refl m' owner id
  · rcases Registry.recordTypes_cases app pending m with
      h | ⟨record, latest, hget, hlatest, h⟩ | ⟨-, h⟩
    · rw [h]
      exact .refl m owner id
    · obtain ⟨hshape, heq⟩ := App.ofObject_eq_ok hlatest
      have henvelope : (Registry.addTypes latest pending).1.toObject.envelope = record.envelope := by
        rw [Registry.envelope_addTypes, heq]
      have hsame := Object.sameIdentity_of_envelope_eq henvelope hshape.symm
      have hfaithful : (Write.update app.partition
          (Registry.addTypes latest pending).1.toObject).Faithful m := by
        intro stored hstored
        rw [hsame.id, (hm.partitions app.partition _ record hget).key, Option.getD_some,
          hget] at hstored
        obtain rfl := Option.some.inj hstored
        exact hsame.inPlaceOf _
      rw [h]
      exact Write.keeps_of_not_deletes hm hfaithful (fun _ h => h) owner id
    · rw [h]
      exact Write.keeps_of_not_deletes (w := .create app.partition _) hm trivial (fun _ h => h)
        owner id

/-- Whether a request under an app is to delete what stands under an identifier. -/
def Call.Deletes (id : String) : Call (Option Object) → Prop
  | .delete target => ∃ o ∈ target, o.id = some id
  | .batchDelete ids => id ∈ ids
  | _ => False

/-- Whether a request, if it is an update, is of an object as it is stored. -/
def Call.UpdatesStored (m : Memory) : Call (Option Object) → Prop
  | .update target _ => ∃ owner id, target = m.get? owner id
  | _ => True

namespace Service

/-- An object that is updated as it is stored is put in its own place. -/
theorem stored_of_revision {svc : Service Memory} {app : App} {m : Memory} (hm : m.Consistent)
    {owner : AppId} {id : String} {body : RequestBody} {o : Object}
    (h : svc.revision app (m.get? owner id) body = .ok o) :
    ∃ target, m.get? app.identifier (o.id.getD "") = some target ∧
      svc.revision app (some target) body = .ok o := by
  obtain ⟨_, target, -, htarget, -, happid, -⟩ := revision_eq_ok_iff.mp h
  have hstored := hm.partitions owner id target htarget
  obtain rfl : owner = app.identifier :=
    Memory.text_eq_iff.mp (Option.some.inj (hstored.owner.symm.trans happid))
  rw [htarget] at h
  have hid := (Object.sameIdentity_of_revision hstored.sound h).id.trans hstored.key
  exact ⟨target, by rw [hid, Option.getD_some, htarget], h⟩

theorem mem_of_mem_deletable {app : App} {m : Memory} (hm : m.Consistent) {ids : List String}
    {o : Object} (ho : o ∈ deletable app (ids.filterMap (m.get? app.identifier))) {id : String}
    (hid : o.id = some id) : id ∈ ids := by
  obtain ⟨x, hx, rfl⟩ := List.mem_map.mp ho
  obtain ⟨key, hkey, hget⟩ := List.mem_filterMap.mp (List.mem_filter.mp hx).1
  have hstored := (hm.partitions app.identifier key x hget).key
  obtain rfl : id = key := Option.some.inj (hid.symm.trans hstored)
  exact hkey

/-- A request keeps all objects but those it is to delete. -/
theorem Does.keeps {svc : Service Memory} {app : App} (happ : app.envelope.Sound) {m m' : Memory}
    (hm : m.Reachable) {call : Call (Option Object)} {tasks : List Registration}
    (hupdate : call.UpdatesStored m) (h : Does svc app m call m' tasks)
    (owner : AppId) (id : String) :
    m.Keeps m' owner id ∨
      owner = app.identifier ∧ call.Deletes id ∧ m'.get? owner id = none := by
  have hconsistent := hm.consistent
  cases h with
  | nothing => exact .inl (.refl m owner id)
  | records _ hrecords => exact .inl (hrecords.keeps hconsistent owner id)
  | @creates _ _ o m₁ _ hrecords =>
    have hkeeps := hrecords.keeps hconsistent owner id
    have hm₁ := (Memory.reachable_recordsTypes happ hm hrecords).consistent
    exact .inl (hkeeps.trans (Write.keeps_of_not_deletes (w := .create app.identifier o) hm₁ trivial
      (fun _ h => h) owner id))
  | @updates target body o ho =>
    obtain ⟨partition, key, rfl⟩ := hupdate
    obtain ⟨target, htarget, ho⟩ := stored_of_revision hconsistent ho
    have hsound := (hconsistent.partitions _ _ target htarget).sound
    have hfaithful : (Write.update app.identifier o).Faithful m := by
      intro stored hget
      obtain rfl := Option.some.inj (htarget.symm.trans hget)
      exact (Object.sameIdentity_of_revision hsound ho).inPlaceOf _
    exact .inl (Write.keeps_of_not_deletes hconsistent hfaithful (fun _ h => h) owner id)
  | deletes target =>
    rcases Write.keeps_of_faithful (w := .delete app.identifier (app.adopt target)) hconsistent
      trivial owner id with hkeeps | ⟨howner, hdeletes, hnone⟩
    · exact .inl hkeeps
    · exact .inr ⟨howner, ⟨target, rfl, hdeletes⟩, hnone⟩
  | @createsAll body items os =>
    exact .inl (Write.keeps_of_not_deletes (w := .createAll app.identifier os) hconsistent trivial
      (fun _ h => h) owner id)
  | @updatesAll body items =>
    have hfaithful : (Write.updateAll app.identifier
        (items.filterMap (svc.changes? app))).Faithful m := fun o ho => changeFor_of_mem ho
    exact .inl (Write.keeps_of_not_deletes hconsistent hfaithful (fun _ h => h) owner id)
  | deletesAll ids =>
    rcases Write.keeps_of_faithful (w := .deleteAll app.identifier _) hconsistent trivial owner id
      with hkeeps | ⟨howner, ⟨o, ho, hid⟩, hnone⟩
    · exact .inl hkeeps
    · exact .inr ⟨howner, mem_of_mem_deletable hconsistent ho hid, hnone⟩

end Service

/-- Something that is done with a service. Unlike in a run, updates and deletes are given their
targets, which may be any objects. -/
inductive Act where
  | request (app : App) (call : Call (Option Object))
  | registration (app : AppId) (index : Nat)

namespace Act

/-- Under an app that there can be and with targets that there can be. -/
def Sound : Act → Prop
  | request app call => app.envelope.Sound ∧ ∀ o ∈ call.targets, o.Sound
  | registration _ _ => True

def UpdatesStored (m : Memory) : Act → Prop
  | request _ call => call.UpdatesStored m
  | registration _ _ => True

def Deletes (app : AppId) (id : String) : Act → Prop
  | request caller call => app = caller.identifier ∧ call.Deletes id
  | registration _ _ => False

end Act

namespace Service

def act (svc : Service Memory) (supply : Supply) (s : ServiceState Memory) :
    Act → ServiceState Memory
  | .request app call => ((svc.answer app call).on (s.withSupply supply)).2
  | .registration app index => svc.runWaiting app index (s.withSupply supply)

def actAll (svc : Service Memory) : List (Supply × Act) → ServiceState Memory → ServiceState Memory
  | [], s => s
  | (supply, a) :: acts, s => svc.actAll acts (svc.act supply s a)

/-- Whether all updates among a number of acts are of objects as they are stored at the time. -/
def AllUpdateStored (svc : Service Memory) : List (Supply × Act) → ServiceState Memory → Prop
  | [], _ => True
  | (supply, a) :: acts, s => a.UpdatesStored s.store ∧ svc.AllUpdateStored acts (svc.act supply s a)

variable (config : Config) (background : Background) {supply : Supply} {a : Act}
  {s : ServiceState Memory}

theorem reachable_act (hsupply : supply.Sound) (ha : a.Sound) (hs : s.Reachable) :
    ((inMemory config background).act supply s a).Reachable := by
  have hwait : (s.withSupply supply).Reachable := ⟨.wait hs.store hsupply, hs.pending⟩
  cases a with
  | request app call => exact reachable_answer config background ha.1 hwait ha.2
  | registration app index => exact reachable_runWaiting config background app index hwait

/-- One act keeps every object that it is not to delete. -/
theorem act_keeps (hsupply : supply.Sound) (ha : a.Sound) (hs : s.Reachable)
    (hupdate : a.UpdatesStored s.store) (app : AppId) (id : String) :
    s.store.Keeps ((inMemory config background).act supply s a).store app id ∨
      a.Deletes app id ∧
        ((inMemory config background).act supply s a).store.get? app id = none := by
  have hwait : (s.withSupply supply).store.Reachable := .wait hs.store hsupply
  cases a with
  | request caller call =>
    obtain ⟨tasks, hdoes, -⟩ := answer_does config background caller (s.withSupply supply) call
    rcases hdoes.keeps ha.1 hwait hupdate app id with hkeeps | ⟨howner, hdeletes, hnone⟩
    · exact .inl hkeeps
    · exact .inr ⟨⟨howner, hdeletes⟩, hnone⟩
  | registration owner index =>
    refine .inl ?_
    refine store_runWaiting (P := (s.store.Keeps · app id)) (s := s.withSupply supply) config
      background (.refl s.store app id) (fun t _ m hrecords => ?_) owner index
    exact hrecords.keeps hwait.consistent app id

/-- Whatever is done with a service, an object that is stored stays the same object, or else there
is a request that is to delete it and takes it away. -/
theorem actAll_keeps_identity {acts : List (Supply × Act)}
    (hacts : ∀ r ∈ acts, r.1.Sound ∧ r.2.Sound) (hs : s.Reachable)
    (hupdates : (inMemory config background).AllUpdateStored acts s) {app : AppId} {id : String}
    {o : Object} (ho : s.store.get? app id = some o) :
    (∃ o', ((inMemory config background).actAll acts s).store.get? app id = some o' ∧
        o.SameIdentity o') ∨
      ∃ before r after, acts = before ++ r :: after ∧ r.2.Deletes app id ∧
        ((inMemory config background).actAll (before ++ [r]) s).store.get? app id = none := by
  induction acts generalizing s o with
  | nil => exact .inl ⟨o, ho, .refl o⟩
  | cons r acts ih =>
    obtain ⟨hsupply, ha⟩ := hacts r List.mem_cons_self
    obtain ⟨hupdate, hrest⟩ := hupdates
    rcases act_keeps config background hsupply ha hs hupdate app id with hkeeps | ⟨hdeletes, hnone⟩
    · obtain ⟨o', ho', hsame⟩ := hkeeps o ho
      have hh := ih (fun x hx => hacts x (List.mem_cons_of_mem _ hx))
        (reachable_act config background hsupply ha hs) hrest ho'
      rcases hh with ⟨o'', ho'', hsame'⟩ | ⟨before, x, after, rfl, hdeletes, hnone⟩
      · exact .inl ⟨o'', ho'', hsame.trans hsame'⟩
      · exact .inr ⟨r :: before, x, after, rfl, hdeletes, hnone⟩
    · exact .inr ⟨[], r, acts, rfl, hdeletes, hnone⟩

/-- The user of `shop` is updated, by itself and in a batch, with a forged identity. -/
def forgeries : List (Supply × Act) :=
  [(.still, .request .shop (.update (userState.store.get? App.shop.identifier "u")
      (.ofText "\x7b\"id\":\"x\",\"creatorid\":\"x\",\"name\":\"A\"\x7d"))),
    (.still, .request .shop (.batchUpdate
      (.ofText "[\x7b\"id\":\"u\",\"type\":\"dog\",\"timestamp\":7,\"name\":\"B\"\x7d]"))),
    (.still, .registration App.shop.identifier 0)]

theorem actAll_keeps_identity_user :
    (∀ r ∈ forgeries, r.1.Sound ∧ r.2.Sound) ∧ userState.Reachable ∧
      (inMemory {} .queued).AllUpdateStored forgeries userState ∧
      ∃ o, userState.store.get? App.shop.identifier "u" = some o ∧
        ((∃ o', ((inMemory {} .queued).actAll forgeries userState).store.get?
              App.shop.identifier "u" = some o' ∧ o.SameIdentity o') ∨
          ∃ before r after, forgeries = before ++ r :: after ∧
            r.2.Deletes App.shop.identifier "u" ∧
            ((inMemory {} .queued).actAll (before ++ [r]) userState).store.get?
              App.shop.identifier "u" = none) := by
  have hreachable : userState.Reachable := shopState_reachable _
  have hacts : ∀ r ∈ forgeries, r.1.Sound ∧ r.2.Sound := by
    intro r hr
    simp only [forgeries, List.mem_cons, List.not_mem_nil, or_false] at hr
    rcases hr with rfl | rfl | rfl
    · refine ⟨Supply.sound_still, App.sound_shop, fun o ho => ?_⟩
      exact (hreachable.store.consistent.partitions _ _ o (Option.mem_toList.mp ho)).sound
    · exact ⟨Supply.sound_still, App.sound_shop, by rintro o ⟨⟩⟩
    · exact ⟨Supply.sound_still, trivial⟩
  have hupdates : (inMemory {} .queued).AllUpdateStored forgeries userState :=
    ⟨⟨App.shop.identifier, "u", rfl⟩, trivial, trivial, trivial⟩
  have hsome : (userState.store.get? App.shop.identifier "u").isSome := by decide +kernel
  obtain ⟨o, ho⟩ := Option.isSome_iff_exists.mp hsome
  exact ⟨hacts, hreachable, hupdates, o, ho,
    actAll_keeps_identity {} .queued hacts hreachable hupdates ho⟩

end Service
end ObjectDepot
