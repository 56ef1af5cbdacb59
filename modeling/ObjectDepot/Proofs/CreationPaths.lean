import ObjectDepot.Proofs.BatchCreates
import ObjectDepot.Proofs.ItemIsolation
import ObjectDepot.Proofs.Validity

/-! The two ways to create an object: on its own, or as the only item of a batch. On its own, its type
is registered first and what is stored is looked at last; in a batch it is the other way round. In the
partition of the app both come to the same. -/

namespace ObjectDepot

/-- A time, and one identifier that is given out again and again. -/
def Supply.same (now : Int) (id : String) : Supply := { now := now, ids := fun _ => id }

/-- An item makes an object, and nothing is stored under the identifier that it tells. -/
def MakesNew (names : FieldNames) (p : Partition) (item : Json) (o : Object) : Prop :=
  Makes names item o ∧ ∀ id, o.givenId? = some id → p.get? id = none

theorem makes_iff {names : FieldNames} {item : Json} {fields : FieldMap} {o : Object}
    (hitem : item.fields? = some fields) :
    Makes names item o ↔ names.toObject fields = .ok o ∧ o.violations = [] := by
  constructor
  · rintro ⟨members, rfl, hmakes⟩
    cases hitem
    exact hmakes
  · cases item with
    | obj members =>
      cases hitem
      exact fun hmakes => ⟨members, rfl, hmakes⟩
    | _ => cases hitem

/-- A single item survives just in case it makes a new object. -/
theorem Survivors.single {names : FieldNames} {p : Partition} {item : Json} {os : List Object}
    (h : Survivors names p [item] os) :
    (∃ o, os = [o] ∧ MakesNew names p item o) ∨ os = [] ∧ ∀ o, ¬ MakesNew names p item o := by
  have hnone {os : List Object} (h : Survivors names p [] os) : os = [] := by
    refine List.eq_nil_iff_forall_not_mem.mpr (fun o ho => ?_)
    obtain ⟨_, hmem, -⟩ := h.makes ho
    cases hmem
  have hsplit {items : List Json} {last : Json} (h : [] ++ [item] = items ++ [last]) :
      items = [] ∧ item = last := by
    obtain ⟨hinit, hlast⟩ := List.append_inj' h rfl
    exact ⟨hinit.symm, List.singleton_inj.mp hlast⟩
  generalize hitems : [item] = items at h
  cases h with
  | nil => cases hitems
  | kept hrest hmakes hid =>
    obtain ⟨rfl, hlast⟩ := hsplit hitems
    obtain rfl := hlast
    obtain rfl := hnone hrest
    exact .inl ⟨_, rfl, hmakes, fun id hgiven => (hid id hgiven).1⟩
  | dropped hrest hno =>
    obtain ⟨rfl, hlast⟩ := hsplit hitems
    obtain rfl := hlast
    obtain rfl := hnone hrest
    refine .inr ⟨rfl, fun o hnew => ?_⟩
    obtain ⟨id, hgiven, htaken | ⟨x, hx, -⟩⟩ := hno o hnew.1
    · exact htaken (hnew.2 id hgiven)
    · cases hx

namespace Memory

variable {app : AppId} {m : Memory} {o : Object} {id : String}

/-- To create a list of one object is to create the object. -/
theorem createAll_singleton (app : AppId) (o : Object) (m : Memory) :
    createAll app [o] m =
      (⟨(create app o m).1.answer.map ([·]), [(create app o m).1.left]⟩, (create app o m).2) := by
  unfold createAll create
  simp only [makeAllReady]
  rcases hr : makeReady app (m.objects app) m.supply o with ⟨⟨answer, left⟩, s⟩
  cases answer with
  | error e => rfl
  | ok id =>
    obtain ⟨-, -, -, rfl⟩ := makeReady_eq_ok hr
    have hextend := Partition.extend_insert (m.objects app) .empty id (o.asNew id m.supply.now)
    have hempty : (m.objects app).extend .empty = m.objects app := rfl
    have hobjects : ({ m with supply := s } : Memory).objects app = m.objects app := rfl
    rw [hempty] at hextend
    simp only [KeyMap.contains, put, hobjects, ← hextend]
    rfl

theorem assignedId_of_same {s : Supply} (h : s.ids = fun _ => id) :
    (assignedId s o).1 = o.givenId?.getD id := by
  unfold assignedId
  cases o.givenId? with
  | some _ => rfl
  | none => exact congrFun h s.drawn

theorem objects_create_of_free (howner : o.appid = some app.text) (hid : (assignedId m.supply o).1 = id)
    (hfree : m.get? app id = none) :
    (create app o m).1 = ⟨.ok id, o.asNew id m.supply.now⟩ ∧
      (create app o m).2.objects app = (m.objects app).insert id (o.asNew id m.supply.now) := by
  subst hid
  rw [create_of_free howner hfree]
  refine ⟨rfl, ?_⟩
  simp only [put, objects_withPartition, if_true]
  rfl

theorem create_of_taken (hgiven : o.givenId? = some id) (htaken : m.get? app id ≠ none) :
    ∃ e, (create app o m).1.answer = .error e ∧
      (create app o m).2.objects app = m.objects app := by
  unfold create
  rcases hr : makeReady app (m.objects app) m.supply o with ⟨⟨answer, left⟩, s⟩
  cases answer with
  | error e => exact ⟨e, rfl, rfl⟩
  | ok key =>
    obtain ⟨-, hkey, hfree, -⟩ := makeReady_eq_ok hr
    rw [assignedId, hgiven] at hkey
    cases hkey
    exact absurd hfree htaken

end Memory

namespace Service

section

variable (config : Config) (background : Background) {app : App} {s : ServiceState Memory}
  {item : Json} {o : Object} {id : String}

theorem draft_of_item {body : RequestBody} {fields : FieldMap}
    (hread : RequestBody.readObject config.maxEntitySize body = .ok fields) :
    (inMemory config background).draft app none body =
      ((config.fieldNames.toObject fields).mapError Failure.ofValidation).map app.adopt := by
  have hread' : RequestBody.readObject (inMemory config background).config.maxEntitySize body =
      .ok fields := hread
  unfold draft
  rw [hread']
  rfl

theorem isValid_adopt (app : App) (o : Object) :
    (app.adopt o).isValid = true ↔ o.violations = [] := by
  rw [(o.restamped_adopt app).isValid, Object.isValid, List.isEmpty_iff]

/-- A new object is stored under the identifier that it tells, or else under the one given out. -/
theorem created_of_makesNew {names : FieldNames} {m : Memory}
    (hnew : MakesNew names (m.objects app.identifier) item o)
    (hids : m.supply.ids = fun _ => id) (hfree : m.get? app.identifier id = none) :
    let x := (app.adopt o).asNew (o.givenId?.getD id) m.supply.now
    (Memory.create app.identifier (app.adopt o) m).1 = ⟨.ok (o.givenId?.getD id), x⟩ ∧
      (Memory.create app.identifier (app.adopt o) m).2.objects app.identifier =
        (m.objects app.identifier).insert (o.givenId?.getD id) x := by
  have hkey : (Memory.assignedId m.supply (app.adopt o)).1 = o.givenId?.getD id :=
    Memory.assignedId_of_same hids
  refine Memory.objects_create_of_free rfl hkey ?_
  cases hgiven : o.givenId? with
  | none => exact hfree
  | some key => exact hnew.2 key hgiven

theorem create_of_makesNew {body : RequestBody} {fields : FieldMap}
    (hown : app.partition ≠ app.identifier)
    (hread : RequestBody.readObject config.maxEntitySize body = .ok fields)
    (hitem : item.fields? = some fields)
    (hnew : MakesNew config.fieldNames (s.store.objects app.identifier) item o)
    (hids : s.store.supply.ids = fun _ => id) (hblank : Text.isBlank id = false)
    (hfree : s.store.get? app.identifier id = none) :
    let x := (app.adopt o).asNew (o.givenId?.getD id) s.store.supply.now
    ∃ after, ((inMemory config background).create app none body).on s =
        (.ok (.created (config.fieldNames.toFields x) x.uri?), after) ∧
      after.store.objects app.identifier =
        (s.store.objects app.identifier).insert (o.givenId?.getD id) x := by
  obtain ⟨hobject, hviolations⟩ := (makes_iff hitem).mp hnew.1
  have hrecords := (registerTypes_effect config background app [app.adopt o] s).1
  have hobjects := hrecords.objects (Ne.symm hown)
  obtain ⟨hids', hnow⟩ := hrecords.supply
  rw [create_on, draft_of_item config background hread, hobject]
  dsimp only [mapError_ok, Except.map]
  generalize ((inMemory config background).registerTypes (some app) [app.adopt o] s).2 = t at *
  have hblankKey : Text.isBlank (o.givenId?.getD id) = false := by
    cases hgiven : o.givenId? with
    | none => exact hblank
    | some key => simpa using (Option.filter_eq_some_iff.mp hgiven).2
  rw [← hobjects] at hnew ⊢
  rw [Memory.get?, ← hobjects] at hfree
  obtain ⟨hwritten, hstored⟩ := created_of_makesNew hnew (hids'.trans hids) hfree
  rw [if_pos ((isValid_adopt app o).mpr hviolations), inMemory_create]
  rcases hcreate : Memory.create app.identifier (app.adopt o) t.store with ⟨w, store⟩
  rw [hcreate] at hwritten hstored
  obtain rfl : w = _ := hwritten
  dsimp only
  rw [hblankKey, ← hnow]
  exact ⟨_, rfl, hstored⟩

theorem create_of_not_makesNew {body : RequestBody} {fields : FieldMap}
    (hown : app.partition ≠ app.identifier)
    (hread : RequestBody.readObject config.maxEntitySize body = .ok fields)
    (hitem : item.fields? = some fields)
    (hnot : ∀ o, ¬ MakesNew config.fieldNames (s.store.objects app.identifier) item o) :
    ∃ e after, ((inMemory config background).create app none body).on s = (.error e, after) ∧
      after.store.objects app.identifier = s.store.objects app.identifier := by
  rw [create_on, draft_of_item config background hread]
  cases hobject : config.fieldNames.toObject fields with
  | error e => exact ⟨_, _, rfl, rfl⟩
  | ok o =>
    have hrecords := (registerTypes_effect config background app [app.adopt o] s).1
    have hobjects := hrecords.objects (Ne.symm hown)
    dsimp only [mapError_ok, Except.map]
    generalize ((inMemory config background).registerTypes (some app) [app.adopt o] s).2 = t at *
    split
    · rename_i hvalid
      -- The object is made, so the identifier that it tells must be taken.
      have hmakes : Makes config.fieldNames item o :=
        (makes_iff hitem).mpr ⟨hobject, (isValid_adopt app o).mp hvalid⟩
      have htaken : ∃ key, o.givenId? = some key ∧ t.store.get? app.identifier key ≠ none := by
        by_contra hfree
        refine hnot o ⟨hmakes, fun key hkey => ?_⟩
        by_contra hstored
        rw [← hobjects] at hstored
        exact hfree ⟨key, hkey, hstored⟩
      obtain ⟨key, hkey, hstored⟩ := htaken
      obtain ⟨e, hanswer, hkept⟩ := Memory.create_of_taken (o := app.adopt o) hkey hstored
      rw [inMemory_create]
      rcases hcreate : Memory.create app.identifier (app.adopt o) t.store with ⟨w, store⟩
      rw [hcreate] at hanswer hkept
      dsimp only at hanswer hkept ⊢
      rw [hanswer]
      exact ⟨_, _, rfl, hkept.trans hobjects⟩
    · exact ⟨_, _, rfl, hobjects⟩

theorem batchCreate_of_makesNew (hs : s.store.Consistent) {body : RequestBody}
    (hread : RequestBody.readList config.maxEntitySize body = .ok [item])
    (hnew : MakesNew config.fieldNames (s.store.objects app.identifier) item o)
    (hids : s.store.supply.ids = fun _ => id) (hfree : s.store.get? app.identifier id = none) :
    let x := (app.adopt o).asNew (o.givenId?.getD id) s.store.supply.now
    ∃ after, ((inMemory config background).batchCreate app body).on s =
        (.ok (.okList [config.fieldNames.toFields x]), after) ∧
      after.store.objects app.identifier =
        (s.store.objects app.identifier).insert (o.givenId?.getD id) x := by
  obtain ⟨drafts, hsurvivors, hkeep⟩ := keepNew_survivors config background app [item] hs
  rcases hsurvivors.single with ⟨o', rfl, hnew'⟩ | ⟨-, hno⟩
  · obtain rfl : o' = o := hnew'.1.unique hnew.1
    obtain ⟨hwritten, hstored⟩ := created_of_makesNew hnew hids hfree
    have hall := Memory.createAll_singleton app.identifier (app.adopt o') s.store
    rw [hwritten] at hall
    rw [List.map_singleton] at hkeep
    refine ⟨_, batchCreate_something config background app hread hkeep (congrArg Prod.fst hall), ?_⟩
    rw [hall]
    exact hstored
  · exact absurd hnew (hno o)

theorem batchCreate_of_not_makesNew (hs : s.store.Consistent) {body : RequestBody}
    (hread : RequestBody.readList config.maxEntitySize body = .ok [item])
    (hnot : ∀ o, ¬ MakesNew config.fieldNames (s.store.objects app.identifier) item o) :
    ((inMemory config background).batchCreate app body).on s = (.ok (.okList []), s) := by
  obtain ⟨drafts, hsurvivors, hkeep⟩ := keepNew_survivors config background app [item] hs
  rcases hsurvivors.single with ⟨o, -, hnew⟩ | ⟨rfl, -⟩
  · exact absurd hnew (hnot o)
  · exact batchCreate_nothing config background app hread hkeep

end

/-- A request to create an object and a batch with the object as its only item, made at the same time
and given the same identifier, agree. Either both give and store the same object, or neither stores
anything, and the request fails where the batch gives nothing. -/
theorem create_iff_batchCreate (config : Config) (background : Background) {app : App}
    (hown : app.partition ≠ app.identifier) {single batch : RequestBody} {fields : FieldMap}
    {item : Json} (hsingle : RequestBody.readObject config.maxEntitySize single = .ok fields)
    (hbatch : RequestBody.readList config.maxEntitySize batch = .ok [item])
    (hitem : item.fields? = some fields) {s : ServiceState Memory} (hs : s.store.Reachable)
    {now : Int} {id : String} (hsupply : (Supply.same now id).Sound)
    (hfree : s.store.get? app.identifier id = none) :
    let svc := inMemory config background
    let start := s.withSupply (.same now id)
    let created := (svc.create app none single).on start
    let listed := (svc.batchCreate app batch).on start
    (Outcome.status created.1 = 201 ↔ ∃ f, listed.1 = .ok (.okList [f])) ∧
      (Outcome.status created.1 = 201 → ∃ f location, created.1 = .ok (.created f location) ∧
        listed.1 = .ok (.okList [f]) ∧
        created.2.store.objects app.identifier = listed.2.store.objects app.identifier) ∧
      (Outcome.status created.1 ≠ 201 → (∃ e, created.1 = .error e) ∧ listed.1 = .ok (.okList []) ∧
        created.2.store.objects app.identifier = s.store.objects app.identifier ∧
        listed.2.store.objects app.identifier = s.store.objects app.identifier) := by
  intro svc start created listed
  have hstart : start.store.Consistent := hs.consistent.withSupply hsupply
  have hids : start.store.supply.ids = fun _ => id := rfl
  have hfree' : start.store.get? app.identifier id = none := hfree
  by_cases hnew : ∃ o, MakesNew config.fieldNames (start.store.objects app.identifier) item o
  · obtain ⟨o, hnew⟩ := hnew
    obtain ⟨after, hcreate, hstored⟩ := create_of_makesNew config background hown hsingle
      hitem hnew hids (hsupply.ids 0) hfree'
    obtain ⟨after', hlist, hstored'⟩ := batchCreate_of_makesNew config background hstart
      hbatch hnew hids hfree'
    have hcreated : created = _ := hcreate
    have hlisted : listed = _ := hlist
    rw [hcreated, hlisted]
    refine ⟨⟨fun _ => ⟨_, rfl⟩, fun _ => rfl⟩, fun _ => ⟨_, _, rfl, rfl, hstored.trans hstored'.symm⟩,
      fun h => absurd rfl h⟩
  · have hnot := not_exists.mp hnew
    obtain ⟨e, after, hcreate, hstored⟩ := create_of_not_makesNew config background hown
      hsingle hitem hnot
    have hlist := batchCreate_of_not_makesNew config background hstart hbatch hnot
    have hcreated : created = _ := hcreate
    have hlisted : listed = _ := hlist
    have hstatus : Outcome.status created.1 ≠ 201 := by
      have hfailed : Outcome.status created.1 = e.status := by
        rw [hcreated]
        rfl
      have hclient := e.le_status
      omega
    refine ⟨⟨fun h => absurd h hstatus, fun ⟨f, hf⟩ => ?_⟩, fun h => absurd h hstatus, fun _ => ?_⟩
    · rw [hlisted] at hf
      cases hf
    · rw [hcreated, hlisted]
      exact ⟨⟨e, rfl⟩, rfl, hstored, rfl⟩

def newCat : RequestBody := .ofText "\x7b\"type\":\"cat\"\x7d"

def newCatAlone : RequestBody := .ofText "[\x7b\"type\":\"cat\"\x7d]"

theorem create_iff_batchCreate_cat :
    let svc := inMemory {} .queued
    let start := dogState.withSupply (.same 5 "n")
    let created := (svc.create .shop none newCat).on start
    let listed := (svc.batchCreate .shop newCatAlone).on start
    App.shop.partition ≠ App.shop.identifier ∧ dogState.store.Reachable ∧
      (Supply.same 5 "n").Sound ∧ dogState.store.get? App.shop.identifier "n" = none ∧
      Outcome.status created.1 = 201 ∧
      ∃ f location, created.1 = .ok (.created f location) ∧ listed.1 = .ok (.okList [f]) ∧
        created.2.store.objects App.shop.identifier = listed.2.store.objects App.shop.identifier := by
  intro svc start created listed
  have hown : App.shop.partition ≠ App.shop.identifier := by decide
  have hreachable : dogState.store.Reachable := .wait (shopState_reachable _).store sound_growing
  have hsupply : (Supply.same 5 "n").Sound := 
    ⟨⟨by decide, by decide⟩, fun _ => (by decide : Text.isBlank "n" = false)⟩
  have hfree : dogState.store.get? App.shop.identifier "n" = none := by
    refine Option.isNone_iff_eq_none.mp ?_
    decide +kernel
  have hsingle : RequestBody.readObject ({} : Config).maxEntitySize newCat =
      .ok (KeyMap.ofList [("type", .str "cat")]) := by
    decide +kernel
  have hbatch : RequestBody.readList ({} : Config).maxEntitySize newCatAlone =
      .ok [.obj [("type", .str "cat")]] := by
    decide +kernel
  have hstatus : Outcome.status created.1 = 201 := by decide +kernel
  exact ⟨hown, hreachable, hsupply, hfree, hstatus, (create_iff_batchCreate {} .queued hown hsingle
    hbatch rfl hreachable hsupply hfree).2.1 hstatus⟩

/-- A cat with lists nested in each other, as deep as an object can be read that stands alone. -/
def nestedText : String :=
  "\x7b\"type\":\"cat\",\"a\":" ++ String.ofList (List.replicate 126 '[') ++
    String.ofList (List.replicate 126 ']') ++ "\x7d"

/-- In a list an object is one level deeper, so it may be too deep there alone. -/
theorem batchCreate_refuses_nested :
    let svc := inMemory {} .queued
    let start := dogState.withSupply (.same 5 "n")
    let created := (svc.create .shop none (.ofText nestedText)).on start
    let listed := (svc.batchCreate .shop (.ofText ("[" ++ nestedText ++ "]"))).on start
    App.shop.partition ≠ App.shop.identifier ∧ dogState.store.Reachable ∧
      nestedText.utf8ByteSize + 2 ≤ ({} : Config).maxEntitySize ∧
      Outcome.status created.1 = 201 ∧ Outcome.status listed.1 = 400 ∧
      ¬ ∃ f, listed.1 = .ok (.okList [f]) := by
  intro svc start created listed
  have hstatus : Outcome.status listed.1 = 400 := by decide +kernel
  refine ⟨by decide, .wait (shopState_reachable _).store sound_growing, by decide +kernel,
    by decide +kernel, hstatus, ?_⟩
  rintro ⟨f, hf⟩
  rw [hf] at hstatus
  cases hstatus

end Service
end ObjectDepot
