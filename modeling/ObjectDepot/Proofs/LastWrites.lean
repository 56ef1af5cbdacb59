import ObjectDepot.Proofs.Discovery
import ObjectDepot.Proofs.NormalForm
import ObjectDepot.Proofs.UpdatePaths

/-! What is read is what was written last. The maps that a creating or an updating request gives are
those of the objects it stores, and an object stays as it is stored until a request of its app writes,
merges into or deletes it, or a registration rewrites it as the record of an app. -/

namespace ObjectDepot

/-- The maps of fields that an answer gives. -/
def Outcome.maps : Outcome → List FieldMap
  | .error _ => []
  | .ok response =>
    match response.payload with
    | .object fields => [fields]
    | .objects list => list
    | .empty => []

/-- Whether a request gives the objects that it stores. -/
def Call.Saves {τ : Type} : Call τ → Prop
  | .create _ _ | .update _ _ | .batchCreate _ => True
  | _ => False

namespace Memory

theorem get?_create_of_ok {app : AppId} {o left : Object} {m m' : Memory} {id : String}
    (h : create app o m = (⟨.ok id, left⟩, m')) : m'.get? app id = some left := by
  unfold create at h
  rcases hready : makeReady app (m.objects app) m.supply o with ⟨⟨answer, made⟩, supply⟩
  rw [hready] at h
  cases answer with
  | error e => cases h
  | ok key =>
    cases h
    rw [get?_put, if_pos rfl]

theorem get?_update_of_ok {app : AppId} {o left : Object} {m m' : Memory}
    (h : update app o m = (⟨.ok (), left⟩, m')) : m'.get? app (o.id.getD "") = some left := by
  unfold update at h
  cases howner : checkOwner app o with
  | error e =>
    rw [howner] at h
    cases h
  | ok _ =>
    rw [howner] at h
    dsimp only at h
    cases hget : m.get? app (o.id.getD "") with
    | none =>
      rw [hget] at h
      cases h
    | some stored =>
      rw [hget] at h
      cases h
      rw [get?_put, if_pos rfl]

end Memory

namespace Service

variable (config : Config) (background : Background)

/-- Each map that is given is that of an object that is stored now. -/
def GivesStored (svc : Service Memory) (app : App) (r : Outcome × ServiceState Memory) : Prop :=
  ∀ f ∈ r.1.maps, ∃ id o, r.2.store.get? app.identifier id = some o ∧ svc.names.toFields o = f

theorem create_givesStored (app : App) (hint : Option String) (body : RequestBody)
    (s : ServiceState Memory) :
    (inMemory config background).GivesStored app
      (((inMemory config background).create app hint body).on s) := by
  intro f hf
  rw [create_on] at hf ⊢
  cases hdraft : (inMemory config background).draft app hint body with
  | error e =>
    rw [hdraft] at hf
    cases hf
  | ok o =>
    rw [hdraft] at hf
    dsimp only at hf ⊢
    generalize ((inMemory config background).registerTypes (some app) [o] s).2 = s' at hf ⊢
    split at hf
    · rename_i hvalid
      rw [if_pos hvalid]
      rw [inMemory_create] at hf ⊢
      rcases hw : Memory.create app.identifier o s'.store with ⟨⟨answer, left⟩, store⟩
      rw [hw] at hf
      cases answer with
      | error e => cases hf
      | ok id =>
        dsimp only at hf
        split at hf
        · cases hf
        · obtain rfl := List.mem_singleton.mp hf
          exact ⟨id, left, Memory.get?_create_of_ok hw, rfl⟩
    · cases hf

theorem update_givesStored (app : App) (target : Option Object) (body : RequestBody)
    (s : ServiceState Memory) :
    (inMemory config background).GivesStored app
      (((inMemory config background).update app target body).on s) := by
  intro f hf
  rw [update_on] at hf ⊢
  cases hrevision : (inMemory config background).revision app target body with
  | error e =>
    rw [hrevision] at hf
    cases hf
  | ok o =>
    rw [hrevision] at hf
    dsimp only at hf ⊢
    rw [inMemory_update] at hf ⊢
    rcases hw : Memory.update app.identifier o s.store with ⟨⟨answer, left⟩, store⟩
    rw [hw] at hf
    cases answer with
    | error e => cases hf
    | ok _ =>
      obtain rfl := List.mem_singleton.mp hf
      exact ⟨_, left, Memory.get?_update_of_ok hw, rfl⟩

theorem batchCreate_givesStored (app : App) (body : RequestBody) (s : ServiceState Memory) :
    (inMemory config background).GivesStored app
      (((inMemory config background).batchCreate app body).on s) := by
  intro f hf
  rw [batchCreate_on] at hf ⊢
  cases hread : RequestBody.readList (inMemory config background).config.maxEntitySize body with
  | error e =>
    rw [hread] at hf
    cases hf
  | ok items =>
    obtain ⟨kept, hkept, -⟩ := keepNew_spec config background app
      (items.filterMap ((inMemory config background).newObject? app)) s
    rw [hread] at hf
    dsimp only at hf ⊢
    rw [hkept] at hf ⊢
    dsimp only at hf ⊢
    split at hf
    · cases hf
    · rename_i hsome
      rw [if_neg hsome]
      rw [inMemory_createAll] at hf ⊢
      rcases hw : Memory.createAll app.identifier kept s.store with ⟨⟨answer, left⟩, store⟩
      rw [hw] at hf
      cases answer with
      | error e => cases hf
      | ok ids =>
        obtain ⟨o, ho, rfl⟩ := List.mem_map.mp hf
        obtain ⟨id, hid⟩ := (Memory.mem_left_createAll (by rw [hw])).1 o ho
        rw [hw] at hid
        refine ⟨id, o, ?_, rfl⟩
        cases background <;> exact hid

theorem answer_givesStored (app : App) {call : Call (Option Object)} (hcall : call.Saves)
    (s : ServiceState Memory) :
    (inMemory config background).GivesStored app
      (((inMemory config background).answer app call).on s) := by
  cases call with
  | create hint body => exact create_givesStored config background app hint body s
  | update target body => exact update_givesStored config background app target body s
  | batchCreate body => exact batchCreate_givesStored config background app body s
  | _ => cases hcall

end Service

namespace Registry

/-- Recording types leaves an object as it is, unless it is the record and types are added. -/
theorem recordTypes_stays (app : App) (pending : TypeMap) {m : Memory} (hm : m.Consistent)
    {owner : AppId} {id : String} {o : Object} (ho : m.get? owner id = some o) :
    (recordTypes Memory.storage app pending m).2.get? owner id = some o ∨
      app.partition = owner ∧ app.identifier.objectId = id ∧
        ∃ n, (recordTypes Memory.storage app pending m).1 = .ok (n + 1) := by
  rcases recordTypes_cases app pending m with
    h | ⟨record, latest, hget, hlatest, -⟩ | ⟨-, h⟩
  · rw [h]
    exact .inl ho
  · rw [recordTypes_of_record hm hget hlatest]
    split
    · exact .inl ho
    · rename_i hadded
      by_cases hother : owner ≠ app.partition ∨ id ≠ app.identifier.objectId
      · exact .inl ((Memory.get?_put_of_ne m _ hother).trans ho)
      · obtain ⟨n, hn⟩ := Nat.exists_eq_succ_of_ne_zero (mt List.length_eq_zero_iff.mp hadded)
        simp only [not_or, not_not] at hother
        exact .inr ⟨hother.1.symm, hother.2.symm, n, congrArg Except.ok hn⟩
  · rw [h]
    exact .inl (Write.run_of_creates (w := .create app.partition _) trivial ho)

end Registry

/-- The identifier that a partial object gets is the one its fields tell. -/
theorem FieldNames.get?_id_of_toObjectThrough {fields : FieldMap} {x : Object} {id : String}
    (h : ({} : FieldNames).toObjectThrough fields .skipLocked = .ok x) (hid : x.id = some id) :
    fields.get? "id" = some (.str id) := by
  obtain ⟨head, hhead, happly⟩ := toObjectThrough_eq_ok_iff.mp h
  have hlocked : head.isLocked "id" = true := rfl
  rw [Object.id_eq_some_iff, Object.get?_overlay_envelope (Object.sound_ofFields hhead)
      (apply_eq_ok_iff.mp happly), get?_filter_unlocked, hlocked] at hid
  have hheadId : head.toFields.get? "id" = some (.str id) := by
    rw [(Object.wellFormed_ofFields hhead).get?_toFields_of_has rfl]
    exact hid
  have hsent := KeyMap.get?_of_get?_filter (Object.get?_of_ofFields hhead hheadId)
  rwa [get?_normalize, if_neg (by decide)] at hsent

namespace Service

/-- Whether a registration rewrites what stands under an identifier: it is the record of the app,
and types are added to it. -/
def Rewrites (svc : Service Memory) (app : App) (os : List Object) (s : ServiceState Memory)
    (owner : AppId) (id : String) : Prop :=
  app.partition = owner ∧ app.identifier.objectId = id ∧
    ∃ n, (svc.registerTypes (some app) os s).1 = .ok (n + 1)

/-- What may change an object that is stored: a request under its app that gives another object of
its identifier, or takes it away, or sends an item for it; and a registration that rewrites it. -/
inductive Touches (svc : Service Memory) (s : ServiceState Memory) (owner : AppId) (id : String) :
    Act → Prop
  | writes {app : App} {call : Call (Option Object)} {f : FieldMap}
      (happ : app.identifier = owner) (hcall : call.Saves)
      (hf : f ∈ Outcome.maps ((svc.answer app call).on s).1) (hid : f.get? "id" = some (.str id)) :
      Touches svc s owner id (.request app call)
  | deletes {app : App} {call : Call (Option Object)} (happ : app.identifier = owner)
      (hcall : call.Deletes id)
      (hgone : ((svc.answer app call).on s).2.store.get? owner id = none) :
      Touches svc s owner id (.request app call)
  | sends {app : App} {body : RequestBody} {items : List Json} {item : Json} {fields : FieldMap}
      (happ : app.identifier = owner)
      (hread : RequestBody.readList svc.config.maxEntitySize body = .ok items)
      (hitem : item ∈ items) (hfields : item.fields? = some fields)
      (hid : fields.get? "id" = some (.str id)) :
      Touches svc s owner id (.request app (.batchUpdate body))
  | registers {app : App} {hint : Option String} {body : RequestBody} {o : Object}
      (ho : svc.draft app hint body = .ok o) (h : svc.Rewrites app [o] s owner id) :
      Touches svc s owner id (.request app (.create hint body))
  | registersLater {app : AppId} {index : Nat} {t : Registration} {rest : List Registration}
      (ht : takeWaiting app index s.pending = some (t, rest))
      (h : svc.Rewrites t.app t.objects { s with pending := rest } owner id) :
      Touches svc s owner id (.registration app index)

/-- Whether none of a number of acts touches what stands under an identifier. -/
def NoneTouches (svc : Service Memory) (owner : AppId) (id : String) :
    List (Supply × Act) → ServiceState Memory → Prop
  | [], _ => True
  | (supply, a) :: acts, s =>
    ¬ svc.Touches (s.withSupply supply) owner id a ∧ svc.NoneTouches owner id acts (svc.act supply s a)

variable {config : Config} {background : Background} {s : ServiceState Memory} {app : App}
  {owner : AppId} {id : String} {o : Object}

theorem registerTypes_stays (hs : s.store.Consistent) {os : List Object}
    (ho : s.store.get? owner id = some o)
    (h : ¬ (inMemory config background).Rewrites app os s owner id) :
    ((inMemory config background).registerTypes (some app) os s).2.store.get? owner id = some o := by
  unfold Rewrites at h
  rw [registerTypes_eq] at h ⊢
  split
  · exact ho
  · rename_i hos
    rw [if_neg hos] at h
    rcases hnew : Registry.newTypes app os s.registry with ⟨pending, registry⟩
    rw [hnew] at h
    dsimp only at h ⊢
    split
    · exact ho
    · rename_i hpending
      rw [if_neg hpending] at h
      rcases Registry.recordTypes_stays app pending hs ho with hstays | hrewrites
      · exact hstays
      · exact absurd hrewrites h

theorem create_stays (hs : s.store.Consistent) {hint : Option String} {body : RequestBody}
    (ho : s.store.get? owner id = some o)
    (h : ¬ (inMemory config background).Touches s owner id (.request app (.create hint body))) :
    (((inMemory config background).create app hint body).on s).2.store.get? owner id = some o := by
  rw [create_on]
  cases hdraft : (inMemory config background).draft app hint body with
  | error e => exact ho
  | ok x =>
    have hregistered := registerTypes_stays hs ho (fun hrewrites => h (.registers hdraft hrewrites))
    dsimp only
    split
    · exact Write.run_of_creates (w := .create app.identifier x) trivial hregistered
    · exact hregistered

/-- An update that replaces an object gives the one that takes its place. -/
theorem update_stays (hnames : config.fieldNames = {}) (hs : s.store.Consistent)
    {target : Option Object} {body : RequestBody} (ho : s.store.get? owner id = some o)
    (h : ¬ (inMemory config background).Touches s owner id (.request app (.update target body))) :
    (((inMemory config background).update app target body).on s).2.store.get? owner id = some o := by
  cases hrevision : (inMemory config background).revision app target body with
  | error e =>
    rw [update_on, hrevision]
    exact ho
  | ok x =>
    have hx := sound_revision hrevision
    have hupdate : (((inMemory config background).update app target body).on s).2.store =
        (Write.update app.identifier x).run s.store := by
      rw [update_on, hrevision]
      rfl
    rw [hupdate]
    rcases (Write.update app.identifier x).run_of_stored s.store ho with
      hrun | ⟨y, heq, hid, hrun⟩ | ⟨_, _, heq, -⟩ | ⟨-, hdeletes, -⟩
    · exact hrun
    · obtain ⟨rfl, rfl⟩ : app.identifier = owner ∧ x = y := by simpa using heq
      have hsound : ∀ z ∈ (Write.update app.identifier x).objects, z.Sound := by
        simpa [Write.objects] using sound_revision hrevision
      have hafter := (hs.run hsound).partitions app.identifier id _ hrun
      have hwritten : Memory.storage.update app.identifier x s.store = _ :=
        Memory.update_eq_of_stored hafter.owner hafter.key ho
      have hgiven : (((inMemory config background).answer app (.update target body)).on s).1 =
          .ok (.ok (x.inPlaceOf o s.store.supply.now).toFields) := by
        rw [answer, update_on, hrevision, ← FieldNames.toFields_default, ← hnames]
        dsimp only [inMemory]
        rw [hwritten]
        rfl
      have hcall : (Call.update target body).Saves := trivial
      refine absurd (.writes rfl hcall (by rw [hgiven]; exact List.mem_singleton_self _) ?_) h
      rw [Object.get?_toFields, Object.id_eq_some_iff.mp hafter.key]
      rfl
    · cases heq
    · cases hdeletes

theorem answer_stays (hnames : config.fieldNames = {}) (hs : s.store.Consistent)
    {call : Call (Option Object)} (ho : s.store.get? owner id = some o)
    (h : ¬ (inMemory config background).Touches s owner id (.request app call)) :
    (((inMemory config background).answer app call).on s).2.store.get? owner id = some o := by
  obtain ⟨tasks, hdoes, -⟩ := answer_does config background app s call
  generalize hafter : (((inMemory config background).answer app call).on s).2.store = after at hdoes ⊢
  cases hdoes with
  | nothing => exact ho
  | records _ _ => exact hafter ▸ create_stays hs ho h
  | creates _ _ => exact hafter ▸ create_stays hs ho h
  | updates _ => exact hafter ▸ update_stays hnames hs ho h
  | createsAll _ _ _ => exact Write.run_of_creates (w := .createAll app.identifier _) trivial ho
  | deletes target =>
    rcases (Write.delete app.identifier (app.adopt target)).run_of_stored s.store ho with
      hrun | ⟨_, heq, -⟩ | ⟨_, _, heq, -⟩ | ⟨howner, hdeletes, hgone⟩
    · exact hrun
    · cases heq
    · cases heq
    · exact absurd (.deletes howner.symm ⟨target, rfl, hdeletes⟩ (hafter ▸ hgone)) h
  | deletesAll ids =>
    rcases (Write.deleteAll app.identifier _).run_of_stored s.store ho with
      hrun | ⟨_, heq, -⟩ | ⟨_, _, heq, -⟩ | ⟨howner, ⟨x, hx, hid⟩, hgone⟩
    · exact hrun
    · cases heq
    · cases heq
    · exact absurd (.deletes howner.symm (mem_of_mem_deletable hs hx hid) (hafter ▸ hgone)) h
  | @updatesAll body items hread =>
    rcases (Write.updateAll app.identifier _).run_of_stored s.store ho with
      hrun | ⟨_, heq, -⟩ | ⟨os, next, heq, hsteps, hrun⟩ | ⟨-, hdeletes, -⟩
    · exact hrun
    · cases heq
    · cases heq
      cases hsteps with
      | refl => exact hrun
      | tail _ hstep =>
        -- Some item is merged into the object, and it tells the identifier.
        obtain ⟨x, hx, hid, -⟩ := hstep
        obtain ⟨item, hitem, hchanges⟩ := List.mem_filterMap.mp hx
        obtain ⟨fields, y, hfields, -, -, hread', rfl⟩ := changes?_eq_some_iff.mp hchanges
        have hdefault : (inMemory config background).names = {} := hnames
        rw [hdefault] at hread'
        exact absurd (.sends rfl hread hitem hfields
          (FieldNames.get?_id_of_toObjectThrough hread' hid)) h
    · cases hdeletes

/-- One act leaves an object as it is that it does not touch. -/
theorem act_stays (hnames : config.fieldNames = {}) {supply : Supply} (hsupply : supply.Sound)
    (hs : s.store.Reachable) {a : Act} (ho : s.store.get? owner id = some o)
    (h : ¬ (inMemory config background).Touches (s.withSupply supply) owner id a) :
    ((inMemory config background).act supply s a).store.get? owner id = some o := by
  have hwait : (s.withSupply supply).store.Consistent := hs.consistent.withSupply hsupply
  cases a with
  | request app call => exact answer_stays hnames hwait ho h
  | registration app index =>
    rw [act, runWaiting]
    cases htake : takeWaiting app index (s.withSupply supply).pending with
    | none => exact ho
    | some taken =>
      obtain ⟨t, rest⟩ := taken
      exact registerTypes_stays (s := { s.withSupply supply with pending := rest }) hwait ho
        (fun hrewrites => h (.registersLater htake hrewrites))

/-- An object stays as it is stored as long as nothing touches it. -/
theorem actAll_stays (hnames : config.fieldNames = {}) {acts : List (Supply × Act)}
    (hacts : ∀ r ∈ acts, r.1.Sound ∧ r.2.Sound) (hs : s.Reachable)
    (ho : s.store.get? owner id = some o)
    (h : (inMemory config background).NoneTouches owner id acts s) :
    ((inMemory config background).actAll acts s).store.get? owner id = some o := by
  induction acts generalizing s with
  | nil => exact ho
  | cons r acts ih =>
    obtain ⟨hsupply, ha⟩ := hacts r List.mem_cons_self
    obtain ⟨hfirst, hrest⟩ := h
    exact ih (fun x hx => hacts x (List.mem_cons_of_mem _ hx))
      (reachable_act config background hsupply ha hs) (act_stays hnames hsupply hs.store ho hfirst) hrest

/-- Reads give the last write. After a request has given a map of fields that it stored, and while
nothing touches what it stored, that map is what is read, and what a batch of reads gives wherever
its identifier stands. -/
theorem read_gives_last_write (hnames : config.fieldNames = {}) (hs : s.Reachable)
    {supply : Supply} {call : Call (Option Object)} {later : List (Supply × Act)}
    (hacts : ∀ r ∈ (supply, .request app call) :: later, r.1.Sound ∧ r.2.Sound)
    (hcall : call.Saves) {f : FieldMap}
    (hf : f ∈ Outcome.maps
      (((inMemory config background).answer app call).on (s.withSupply supply)).1)
    (hid : f.get? "id" = some (.str id))
    (hlater : (inMemory config background).NoneTouches app.identifier id later
      ((inMemory config background).act supply s (.request app call)))
    {reader : App} (hreader : reader.identifier = app.identifier) :
    let svc := inMemory config background
    let after := svc.actAll ((supply, .request app call) :: later) s
    let current (id : String) := (after.store.get? app.identifier id).map Object.toFields
    current id = some f ∧ (svc.read reader id).on after = (.ok (.ok f), after) ∧
      ∀ ids, (svc.batchRead reader ids).on after =
        (if ids.isEmpty then .error (.badRequest ["Missing ids."])
          else .ok (.okList (ids.filterMap current)), after) := by
  intro svc after current
  obtain ⟨hsupply, ha⟩ := hacts _ List.mem_cons_self
  have hdefault : svc.names = {} := hnames
  have hnow := reachable_act config background hsupply ha hs
  obtain ⟨key, o, ho, rfl⟩ := answer_givesStored config background app hcall (s.withSupply supply) f hf
  have hstored := hnow.store.consistent.partitions app.identifier key o ho
  rw [hdefault, FieldNames.toFields_default] at hid ⊢
  obtain rfl : key = id := by
    rw [Object.get?_toFields, Object.id_eq_some_iff.mp hstored.key] at hid
    exact Json.str.inj (Option.some.inj hid)
  have hlaterActs : ∀ r ∈ later, r.1.Sound ∧ r.2.Sound :=
    fun r hr => hacts r (List.mem_cons_of_mem _ hr)
  have hstays := actAll_stays hnames hlaterActs hnow ho hlater
  have hkept : after.store.get? app.identifier key = some o := hstays
  have hfields : svc.names.toFields = Object.toFields := by
    funext x
    rw [hdefault, FieldNames.toFields_default]
  refine ⟨congrArg (Option.map Object.toFields) hkept, ?_, fun ids => ?_⟩
  · have hread : svc.storage.read reader.identifier key after.store =
        (.ok (after.store.get? reader.identifier key), after.store) := rfl
    rw [read_on, hread, hreader, hkept, hfields]
  · have hread : svc.storage.readAll reader.identifier ids true after.store =
        (.ok (ids.filterMap (after.store.get? reader.identifier)), after.store) := rfl
    rw [batchRead_on, hread, hreader, hfields]
    split
    · rfl
    · have hcurrent : (ids.filterMap (after.store.get? app.identifier)).map Object.toFields =
          ids.filterMap current := List.map_filterMap ..
      rw [← hcurrent]

def dogCreate : Call (Option Object) :=
  .create none (.ofText "\x7b\"id\":\"d\",\"type\":\"dog\",\"name\":\"Rex\"\x7d")

def catItems : RequestBody := .ofText "[\x7b\"id\":\"c\",\"type\":\"cat\",\"name\":\"Tom\"\x7d]"

/-- A cat is created, its type is registered, and it is updated. -/
def catActs : List (Supply × Act) :=
  [(.still, .request .shop (.batchCreate catItems)), (.still, .registration App.shop.identifier 0),
    (.still, .request .shop (.batchUpdate catItems))]

theorem noneTouches_catActs :
    let svc := inMemory {} .queued
    svc.NoneTouches App.shop.identifier "d" catActs
      (svc.act .still (svc.initial (.ofSupply .still)) (.request .shop dogCreate)) := by
  intro svc
  refine ⟨fun h => ?_, fun h => ?_, fun h => ?_, trivial⟩
  · cases h with
    | writes _ _ hf hid =>
      have hother : ∀ f ∈ Outcome.maps ((svc.answer .shop (.batchCreate catItems)).on
          ((svc.act .still (svc.initial (.ofSupply .still)) (.request .shop dogCreate)).withSupply
            .still)).1, (f.get? "id").bind Json.str? = some "c" := by
        decide +kernel
      have hfound := hother _ hf
      rw [hid] at hfound
      exact absurd hfound (by decide)
    | deletes _ hcall _ => cases hcall
  · cases h with
    | @registersLater _ _ t rest ht hrewrites =>
      have hroot : (takeWaiting App.shop.identifier 0
          ((svc.act .still (svc.act .still (svc.initial (.ofSupply .still))
            (.request .shop dogCreate)) (.request .shop (.batchCreate catItems))).withSupply
              .still).pending).map (fun r => r.1.app.partition) = some ⟨"root"⟩ := by
        decide +kernel
      rw [ht] at hroot
      have hshop : t.app.partition = App.shop.identifier := hrewrites.1
      rw [Option.map_some, hshop] at hroot
      exact absurd hroot (by decide)
  · cases h with
    | writes _ hcall _ _ => cases hcall
    | deletes _ hcall _ => cases hcall
    | @sends _ _ items item fields _ hread hitem hfields hid =>
      have hother : (match RequestBody.readList svc.config.maxEntitySize catItems with
          | .ok items => items
          | .error _ => []).all (fun item => (item.fields?.bind (·.get? "id")).bind Json.str? =
            some "c") := by
        decide +kernel
      rw [hread] at hother
      have hfound := List.all_eq_true.mp hother item hitem
      rw [hfields, Option.bind_some, hid] at hfound
      cases hfound

theorem read_gives_last_write_dog :
    let svc := inMemory {} .queued
    let start := svc.initial (.ofSupply .still)
    let after := svc.actAll ((.still, .request .shop dogCreate) :: catActs) start
    let current (id : String) := (after.store.get? App.shop.identifier id).map Object.toFields
    start.Reachable ∧
      (∀ r ∈ (Supply.still, Act.request .shop dogCreate) :: catActs, r.1.Sound ∧ r.2.Sound) ∧
      svc.NoneTouches App.shop.identifier "d" catActs
        (svc.act .still start (.request .shop dogCreate)) ∧
      ∃ f ∈ Outcome.maps ((svc.answer .shop dogCreate).on (start.withSupply .still)).1,
        f.get? "id" = some (.str "d") ∧ current "d" = some f ∧
        (svc.read .shop "d").on after = (.ok (.ok f), after) ∧
        ∀ ids, (svc.batchRead .shop ids).on after =
          (if ids.isEmpty then .error (.badRequest ["Missing ids."])
            else .ok (.okList (ids.filterMap current)), after) := by
  intro svc start after current
  have hreachable : start.Reachable := reachable_initial {} .queued (.empty Supply.sound_still)
  have hacts : ∀ r ∈ (Supply.still, Act.request .shop dogCreate) :: catActs,
      r.1.Sound ∧ r.2.Sound := by
    intro r hr
    simp only [catActs, List.mem_cons, List.not_mem_nil, or_false] at hr
    rcases hr with rfl | rfl | rfl | rfl
    · exact ⟨Supply.sound_still, App.sound_shop, by rintro o ⟨⟩⟩
    · exact ⟨Supply.sound_still, App.sound_shop, by rintro o ⟨⟩⟩
    · exact ⟨Supply.sound_still, trivial⟩
    · exact ⟨Supply.sound_still, App.sound_shop, by rintro o ⟨⟩⟩
  have hgiven : (Outcome.maps ((svc.answer .shop dogCreate).on (start.withSupply .still)).1).any
      (fun f => (f.get? "id").bind Json.str? = some "d") := by
    decide +kernel
  obtain ⟨f, hf, hid⟩ := List.any_eq_true.mp hgiven
  obtain ⟨v, hv, hstr⟩ := Option.bind_eq_some_iff.mp (of_decide_eq_true hid)
  rw [Json.str?_eq_some_iff.mp hstr] at hv
  exact ⟨hreachable, hacts, noneTouches_catActs, f, hf, hv,
    read_gives_last_write rfl hreachable hacts trivial hf hv noneTouches_catActs rfl⟩

end Service
end ObjectDepot
