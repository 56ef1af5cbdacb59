import ObjectDepot.Proofs.NewObjects
import ObjectDepot.Proofs.Principals
import ObjectDepot.Proofs.RegisteredTypes
import ObjectDepot.Proofs.RequestFrame
import ObjectDepot.Proofs.TypeGains

/-! Exactly what a registration does. It reads the record of the app anew and writes it once, if it
lacks any of the plurals that the view of the app lacked, or creates it. Its answer counts these
plurals. To register the same objects again changes nothing. -/

namespace ObjectDepot

/-- A view of an app that tells where the record of the app belongs. -/
structure App.Located (a : App) : Prop where
  id : a.envelope.id = some a.identifier.objectId
  owner : a.envelope.appid = some a.partition.text
  notBlank : a.identifier.isBlank = false

/-- A view of an app that tells under which identifier the record of the app belongs. -/
structure App.Keyed (a : App) : Prop where
  id : a.envelope.id = some a.identifier.objectId
  notBlank : a.identifier.isBlank = false

/-- A view whose record can be written: it is there, or the view tells whose it is to be. -/
structure App.Recordable (a : App) (m : Memory) : Prop where
  keyed : a.Keyed
  owner : m.get? a.partition a.identifier.objectId = none →
    a.envelope.appid = some a.partition.text

/-- The record of an app as it is stored, or else as it would be. -/
def App.recordIn (a : App) (m : Memory) : Object :=
  (m.get? a.partition a.identifier.objectId).getD a.toObject

/-- The record of an app, written with types beside its own. A record that was stored gets the time
of the update, a new one the time of its creation. -/
structure Object.WrittenWith (o : Object) (types : TypeMap) (stored : Bool) (now : Int)
    (o' : Object) : Prop where
  id : o'.id = o.id
  shape : o'.shape = some .app
  types : o'.datatypes = types.extend o.datatypes
  time : if stored then o'.envelope.updated = some now else o'.envelope.timestamp = some now
  fields : ∀ k, k ≠ "datatypes" → (k ≠ if stored then "updated" else "timestamp") →
    o'.toFields.get? k = o.toFields.get? k

namespace AppSettings

theorem ofFields_toFields (s : AppSettings) : ofFields s.toFields = s := by
  have hflag {k : String} {b : Option Bool} (h : s.get? k = b.map .bool) :
      flagOf? s.toFields k = b := by
    rw [flagOf?, get?_toFields, h]
    cases b <;> rfl
  rw [ofFields, hflag (b := s.shared) rfl, textMapOf_toFields, hflag (b := s.active) rfl]

end AppSettings

namespace App

variable {a : App} {m : Memory}

theorem Located.keyed (h : a.Located) : a.Keyed := ⟨h.id, h.notBlank⟩

theorem Located.recordable (h : a.Located) (m : Memory) : a.Recordable m :=
  ⟨h.keyed, fun _ => h.owner⟩

theorem Keyed.isBlank_ofObjectId (h : a.Keyed) :
    (AppId.ofObjectId a.identifier.objectId).isBlank = false := by
  rw [AppId.ofObjectId_objectId, h.notBlank]

theorem Keyed.ofObject_toObject (h : a.Keyed) : ofObject a.toObject = .ok a := by
  have happ : a.toObject.IsApp := ⟨rfl, a.identifier.objectId, h.id, h.isBlank_ofObjectId⟩
  rw [ofObject_of_isApp happ]
  simp only [toObject, AppSettings.ofFields_toFields]

theorem located_shop : shop.Located :=
  ⟨by decide +kernel, by decide +kernel, by decide +kernel⟩

theorem Keyed.ofObject_recordIn (h : a.Keyed) : ofObject (a.recordIn m) =
    (m.get? a.partition a.identifier.objectId).elim (.ok a) ofObject := by
  rw [recordIn]
  cases m.get? a.partition a.identifier.objectId with
  | none => exact h.ofObject_toObject
  | some o => rfl

theorem Keyed.id_recordIn (h : a.Keyed) (hm : m.Consistent) :
    (a.recordIn m).id = some a.identifier.objectId := by
  rw [recordIn]
  cases hget : m.get? a.partition a.identifier.objectId with
  | none => exact h.id
  | some o => exact (hm.partitions _ _ o hget).key

end App

namespace Memory

theorem create_of_new {m : Memory} {app : AppId} {o : Object} {id : String}
    (howner : o.appid = some app.text) (hid : o.givenId? = some id) (hfree : m.get? app id = none) :
    create app o m =
      (⟨.ok id, o.asNew id m.supply.now⟩, m.put app id (o.asNew id m.supply.now)) := by
  have hassigned : assignedId m.supply o = (id, m.supply) := by simp [assignedId, hid]
  have hcreate := create_of_free (m := m) howner (by rw [hassigned]; exact hfree)
  rw [hassigned] at hcreate
  exact hcreate

end Memory

namespace Object

theorem get?_toFields_withTimestamp_of_ne (o : Object) (time : Option Int) {k : String}
    (hk : k ≠ "timestamp") : (o.withTimestamp time).toFields.get? k = o.toFields.get? k := by
  rw [get?_toFields, get?_toFields, get?_withTimestamp, if_neg hk]
  rfl

theorem asNew_of_id {o : Object} {id : String} (h : o.id = some id) (time : Int) :
    o.asNew id time = o.withTimestamp (some time) := by
  rw [asNew, ← h]
  rfl

theorem writtenWith_inPlaceOf {record : Object} {latest : App} (hrecord : record.Sound)
    (hlatest : App.ofObject record = .ok latest) (types : TypeMap) (now : Int) :
    record.WrittenWith types true now
      ((Registry.addTypes latest types).1.toObject.inPlaceOf record now) := by
  have hgains := gainsTypes_inPlaceOf hrecord hlatest types now
  refine ⟨hgains.id, hgains.shape.trans (App.ofObject_eq_ok hlatest).1, ?_, rfl, hgains.fields⟩
  exact KeyMap.ext (fun k => by rw [hgains.types, KeyMap.get?_extend])

theorem writtenWith_asNew {a : App} (h : a.Keyed) (types : TypeMap) (now : Int) :
    a.toObject.WrittenWith types false now
      ((Registry.addTypes a types).1.toObject.asNew a.identifier.objectId now) := by
  have henvelope := Registry.envelope_addTypes a types
  have hid : (Registry.addTypes a types).1.toObject.id = some a.identifier.objectId :=
    (congrArg Envelope.id henvelope).trans h.id
  rw [asNew_of_id hid]
  refine ⟨hid.trans h.id.symm, rfl, ?_, rfl, fun k hk htime => ?_⟩
  · have hdatatypes : ((Registry.addTypes a types).1.toObject.withTimestamp (some now)).datatypes =
        (Registry.addTypes a types).1.toObject.datatypes := rfl
    rw [hdatatypes, App.datatypes_toObject, App.datatypes_toObject, Registry.addTypes_eq]
    rfl
  · rw [get?_toFields_withTimestamp_of_ne _ _ htime, Registry.addTypes_eq,
      App.get?_toObject_withTypes _ _ hk]

end Object

namespace Registry

theorem missing_of_isEmpty {pending : TypeMap} (h : pending.isEmpty) (types : TypeMap) :
    missing types pending = [] := by
  rw [missing, KeyMap.keys, List.isEmpty_iff.mp h]
  rfl

theorem isEmpty_of_missing {types pending : TypeMap} (h : missing types pending ≠ []) :
    pending.isEmpty = false :=
  Bool.eq_false_iff.mpr (fun hempty => h (missing_of_isEmpty hempty types))

theorem missing_extend (types pending : TypeMap) :
    missing (KeyMap.extend pending types) pending = [] := by
  refine missing_eq_nil_iff.mpr (fun k hk => ?_)
  rw [KeyMap.contains] at hk ⊢
  rw [KeyMap.get?_extend, Option.isSome_or, hk, Bool.or_true]

variable {app : App} {m : Memory}

theorem recordTypes_of_rejected (h : app.Keyed) {e : StorageError}
    (hrejected : App.ofObject (app.recordIn m) = .error e) (pending : TypeMap) :
    recordTypes Memory.storage app pending m = (.error e, m) := by
  rw [recordTypes_eq, ← h.ofObject_recordIn, hrejected]

theorem recordTypes_of_none_missing (h : app.Keyed) {latest : App}
    (hlatest : App.ofObject (app.recordIn m) = .ok latest) {pending : TypeMap}
    (hmissing : missing (app.recordIn m).datatypes pending = []) :
    recordTypes Memory.storage app pending m = (.ok 0, m) := by
  rw [← App.types_ofObject hlatest] at hmissing
  rw [recordTypes_eq, ← h.ofObject_recordIn, hlatest]
  exact if_pos hmissing

theorem recordTypes_of_unstored (h : app.Recordable m)
    (hget : m.get? app.partition app.identifier.objectId = none) {pending : TypeMap}
    (hmissing : missing app.types pending ≠ []) :
    recordTypes Memory.storage app pending m = (.ok (missing app.types pending).length,
      m.put app.partition app.identifier.objectId
        ((addTypes app pending).1.toObject.asNew app.identifier.objectId m.supply.now)) := by
  have henvelope := envelope_addTypes app pending
  have hcreate := Memory.create_of_new ((congrArg Envelope.appid henvelope).trans (h.owner hget))
    (Frame.givenId_addTypes h.keyed.id pending) hget
  rw [recordTypes_eq, hget]
  simp only [Option.elim_none, Option.isSome_none, Bool.false_eq_true, if_false, hcreate,
    if_neg hmissing]
  rfl

/-- A first record is written only for a view that tells whose it is. -/
theorem owner_of_recordTypes (hget : m.get? app.partition app.identifier.objectId = none)
    {pending : TypeMap} (hmissing : missing app.types pending ≠ []) {n : Nat}
    (h : (recordTypes Memory.storage app pending m).1 = .ok n) :
    app.envelope.appid = some app.partition.text := by
  cases hcheck : Memory.checkOwner app.partition (addTypes app pending).1.toObject with
  | ok _ =>
    have howner := Memory.checkOwner_eq_ok_iff.mp hcheck
    exact (congrArg Envelope.appid (envelope_addTypes app pending)).symm.trans howner
  | error e =>
    rw [recordTypes_eq, hget] at h
    simp [hmissing, Memory.create_of_foreign hcheck, Except.map] at h

/-- Types that the record lacks are written to it at once, and counted. -/
theorem recordTypes_of_missing (h : app.Recordable m) (hm : m.Consistent) {latest : App}
    (hlatest : App.ofObject (app.recordIn m) = .ok latest) {pending : TypeMap}
    (hmissing : missing (app.recordIn m).datatypes pending ≠ []) :
    ∃ r, recordTypes Memory.storage app pending m =
        (.ok (missing (app.recordIn m).datatypes pending).length,
          m.put app.partition app.identifier.objectId r) ∧
      (app.recordIn m).WrittenWith pending
        (m.get? app.partition app.identifier.objectId).isSome m.supply.now r := by
  cases hget : m.get? app.partition app.identifier.objectId with
  | none =>
    have hrecord : app.recordIn m = app.toObject := by rw [App.recordIn, hget, Option.getD_none]
    rw [hrecord] at hmissing ⊢
    rw [App.datatypes_toObject] at hmissing ⊢
    exact ⟨_, recordTypes_of_unstored h hget hmissing, Object.writtenWith_asNew h.keyed _ _⟩
  | some record =>
    have hrecord : app.recordIn m = record := by rw [App.recordIn, hget, Option.getD_some]
    rw [hrecord] at hlatest hmissing ⊢
    have hstored := hm.partitions _ _ record hget
    have hrecordTypes := recordTypes_of_record hm hget hlatest pending
    rw [App.types_ofObject hlatest, if_neg hmissing] at hrecordTypes
    exact ⟨_, hrecordTypes, Object.writtenWith_inPlaceOf hstored.sound hlatest _ _⟩

/-- A registry that has looked for the new types of objects. -/
def searched (r : Registry) (app : App) (os : List Object) : Registry :=
  if os.isEmpty then r else (newTypes app os r).2

theorem newTypes_again (app : App) (os : List Object) (r : Registry) :
    (newTypes app os (newTypes app os r).2).2 = (newTypes app os r).2 := by
  have hcore : coreTypes (coreTypes r).2 = coreTypes r := by
    unfold coreTypes
    cases hr : r.core <;> simp [hr]
  simp only [newTypes_eq]
  split
  · rfl
  · rw [hcore]

theorem searched_again (r : Registry) (app : App) (os : List Object) :
    (r.searched app os).searched app os = r.searched app os := by
  unfold searched
  split
  · rfl
  · exact newTypes_again app os r

theorem known_searched (r : Registry) (app : App) (os : List Object) :
    (r.searched app os).known = r.known := by
  unfold searched
  split
  · rfl
  · exact (newTypes_known app os r).2

end Registry

namespace Service

variable {σ : Type} (svc : Service σ) {app : App} {os : List Object} {s : ServiceState σ}

/-- A registration by the types that are not known to it. -/
theorem registerTypes_searched (app : App) (os : List Object) (s : ServiceState σ) :
    svc.registerTypes (some app) os s =
      let pending := Registry.unknownTypes s.registry.known app os
      let registry := s.registry.searched app os
      if pending.isEmpty then (.ok 0, { s with registry })
      else
        let (answer, store) := Registry.recordTypes svc.storage app pending s.store
        (answer, { s with registry, store }) := by
  rw [registerTypes_eq]
  cases os with
  | nil => rfl
  | cons o os =>
    rw [← (Registry.newTypes_known app (o :: os) s.registry).1]
    rfl

theorem registerTypes_of_none (h : (Registry.unknownTypes s.registry.known app os).isEmpty) :
    svc.registerTypes (some app) os s =
      (.ok 0, { s with registry := s.registry.searched app os }) := by
  rw [registerTypes_searched]
  exact if_pos h

theorem registerTypes_of_some
    (h : (Registry.unknownTypes s.registry.known app os).isEmpty = false) :
    svc.registerTypes (some app) os s =
      let w := Registry.recordTypes svc.storage app
        (Registry.unknownTypes s.registry.known app os) s.store
      (w.1, { s with registry := s.registry.searched app os, store := w.2 }) := by
  rw [registerTypes_searched]
  exact if_neg (by rw [h]; exact Bool.false_ne_true)

theorem registry_registerTypes : (svc.registerTypes (some app) os s).2.registry =
    s.registry.searched app os := by
  cases h : (Registry.unknownTypes s.registry.known app os).isEmpty with
  | true => rw [registerTypes_of_none svc h]
  | false => rw [registerTypes_of_some svc h]

end Service

namespace Service

variable (config : Config) (background : Background) {s : ServiceState Memory} {app : App}

theorem registerTypes_of_none_missing (happ : app.Keyed) {latest : App}
    (hlatest : App.ofObject (app.recordIn s.store) = .ok latest) {os : List Object}
    (hmissing : Registry.missing (app.recordIn s.store).datatypes
      (Registry.unknownTypes s.registry.known app os) = []) :
    (inMemory config background).registerTypes (some app) os s =
      (.ok 0, { s with registry := s.registry.searched app os }) := by
  cases hempty : (Registry.unknownTypes s.registry.known app os).isEmpty with
  | true => exact registerTypes_of_none _ hempty
  | false =>
    have hrecord : Registry.recordTypes (inMemory config background).storage app
        (Registry.unknownTypes s.registry.known app os) s.store = (.ok 0, s.store) :=
      Registry.recordTypes_of_none_missing happ hlatest hmissing
    rw [registerTypes_of_some _ hempty, hrecord]

/-- What a registration does whose record can be read. -/
theorem registerTypes_records (hs : s.store.Consistent) (happ : app.Recordable s.store) {latest : App}
    (hlatest : App.ofObject (app.recordIn s.store) = .ok latest) (os : List Object) :
    let key := app.identifier.objectId
    let record := app.recordIn s.store
    let pending := Registry.unknownTypes s.registry.known app os
    let r := (inMemory config background).registerTypes (some app) os s
    r.1 = .ok (Registry.missing record.datatypes pending).length ∧
      (Registry.missing record.datatypes pending = [] → r.2.store = s.store) ∧
      (Registry.missing record.datatypes pending ≠ [] →
        ∃ o, r.2.store = s.store.put app.partition key o ∧
          record.WrittenWith pending (s.store.get? app.partition key).isSome s.store.supply.now
            o) := by
  intro key record pending r
  by_cases hmissing : Registry.missing record.datatypes pending = []
  · have hr : r = _ := registerTypes_of_none_missing config background happ.keyed hlatest hmissing
    rw [hr, hmissing]
    exact ⟨rfl, fun _ => rfl, fun h => absurd rfl h⟩
  · have hr : r = _ :=
      registerTypes_of_some (inMemory config background) (Registry.isEmpty_of_missing hmissing)
    obtain ⟨o, hrecord, hwritten⟩ := Registry.recordTypes_of_missing happ hs hlatest hmissing
    have hrecord' :
        Registry.recordTypes (inMemory config background).storage app pending s.store = _ :=
      hrecord
    rw [hr, hrecord']
    exact ⟨rfl, fun h => absurd h hmissing, fun _ => ⟨o, rfl, hwritten⟩⟩

/-- The record of the app after a registration: it is one, and has all that was to be added. -/
theorem recordIn_registerTypes (hs : s.store.Consistent) (happ : app.Recordable s.store) {latest : App}
    (hlatest : App.ofObject (app.recordIn s.store) = .ok latest) (os : List Object) :
    let after := app.recordIn ((inMemory config background).registerTypes (some app) os s).2.store
    after.IsApp ∧ after.datatypes =
      KeyMap.extend (Registry.unknownTypes s.registry.known app os)
        (app.recordIn s.store).datatypes := by
  intro after
  obtain ⟨-, hnone, hsome⟩ := registerTypes_records config background hs happ hlatest os
  by_cases hmissing : Registry.missing (app.recordIn s.store).datatypes
      (Registry.unknownTypes s.registry.known app os) = []
  · have hafter : after = app.recordIn s.store := congrArg app.recordIn (hnone hmissing)
    rw [hafter, Registry.extend_of_none_missing hmissing]
    exact ⟨App.isApp_of_ofObject hlatest, rfl⟩
  · obtain ⟨o, hstore, hwritten⟩ := hsome hmissing
    have hafter : after = o := by
      change app.recordIn _ = o
      rw [App.recordIn, hstore, Memory.get?_put, if_pos rfl, Option.getD_some]
    have hid := hwritten.id.trans (happ.keyed.id_recordIn hs)
    rw [hafter]
    exact ⟨⟨hwritten.shape, _, hid, happ.keyed.isBlank_ofObjectId⟩, hwritten.types⟩

theorem registerTypes_rejected (happ : app.Keyed) {e : StorageError}
    (hrejected : App.ofObject (app.recordIn s.store) = .error e) (os : List Object) :
    let pending := Registry.unknownTypes s.registry.known app os
    let r := (inMemory config background).registerTypes (some app) os s
    r.1 = (if KeyMap.isEmpty pending then .ok 0 else .error e) ∧ r.2.store = s.store := by
  intro pending r
  cases hempty : KeyMap.isEmpty pending with
  | true =>
    have hr : r = _ := registerTypes_of_none (inMemory config background) hempty
    rw [hr]
    exact ⟨rfl, rfl⟩
  | false =>
    have hr : r = _ := registerTypes_of_some (inMemory config background) hempty
    have hrecord : Registry.recordTypes (inMemory config background).storage app pending s.store =
        (.error e, s.store) := Registry.recordTypes_of_rejected happ hrejected pending
    rw [hr, hrecord]
    exact ⟨rfl, rfl⟩

theorem readable_of_registered (happ : app.Keyed) {os : List Object} {n : Nat}
    (hempty : (Registry.unknownTypes s.registry.known app os).isEmpty = false)
    (h : ((inMemory config background).registerTypes (some app) os s).1 = .ok n) :
    ∃ latest, App.ofObject (app.recordIn s.store) = .ok latest := by
  cases hread : App.ofObject (app.recordIn s.store) with
  | ok latest => exact ⟨latest, rfl⟩
  | error e =>
    have hanswer := (registerTypes_rejected config background happ hread os).1
    rw [h, hempty] at hanswer
    cases hanswer

theorem registerTypes_again (hs : s.store.Consistent) (happ : app.Located) {os : List Object}
    {n : Nat} (h : ((inMemory config background).registerTypes (some app) os s).1 = .ok n) (supply : Supply) :
    let after := ((inMemory config background).registerTypes (some app) os s).2.withSupply supply
    (inMemory config background).registerTypes (some app) os after = (.ok 0, after) := by
  intro after
  have hregistry : after.registry = s.registry.searched app os := registry_registerTypes _
  have hknown : after.registry.known = s.registry.known := by
    rw [hregistry, Registry.known_searched]
  have hsearched : { after with registry := after.registry.searched app os } = after := by
    rw [hregistry, Registry.searched_again, ← hregistry]
  cases hempty : (Registry.unknownTypes s.registry.known app os).isEmpty with
  | true => rw [registerTypes_of_none _ (by rw [hknown, hempty]), hsearched]
  | false =>
    obtain ⟨latest, hlatest⟩ := readable_of_registered config background happ.keyed hempty h
    obtain ⟨hisApp, htypes⟩ :=
      recordIn_registerTypes config background hs (happ.recordable s.store) hlatest os
    have hrecord : app.recordIn after.store = app.recordIn
        ((inMemory config background).registerTypes (some app) os s).2.store := rfl
    rw [← hrecord] at hisApp htypes
    have hmissing : Registry.missing (app.recordIn after.store).datatypes
        (Registry.unknownTypes after.registry.known app os) = [] := by
      rw [htypes, hknown, Registry.missing_extend]
    rw [registerTypes_of_none_missing config background happ.keyed (App.ofObject_of_isApp hisApp)
      hmissing, hsearched]

/-- Exactly what a registration does, however old the view of the app. If the record that is stored
is not one of an app, types to be added make it fail, and nothing changes. If it is, or if there is
none, the answer is the number of plurals to be added that the record lacks; if it lacks any, the
record is written with all that it had and what it lacks, and if not, nothing is. Once registered,
the same objects make no difference again. -/
theorem registerTypes_exact (hs : s.store.Reachable) (happ : app.Located) (os : List Object) :
    let svc := inMemory config background
    let key := app.identifier.objectId
    let stored := s.store.get? app.partition key
    let record := app.recordIn s.store
    let pending := Registry.unknownTypes s.registry.known app os
    let missing := Registry.missing record.datatypes pending
    let r := svc.registerTypes (some app) os s
    (∀ o e, stored = some o → App.ofObject o = .error e →
      r.1 = (if KeyMap.isEmpty pending then .ok 0 else .error e) ∧ r.2.store = s.store) ∧
    ((∀ o, stored = some o → ∃ latest, App.ofObject o = .ok latest) →
      r.1 = .ok missing.length ∧
      (missing = [] → r.2.store = s.store) ∧
      (missing ≠ [] → ∃ o, r.2.store = s.store.put app.partition key o ∧
        record.WrittenWith pending stored.isSome s.store.supply.now o)) ∧
    r.2.registry.known = s.registry.known ∧ r.2.pending = s.pending ∧
    ∀ n, r.1 = .ok n → ∀ supply : Supply,
      svc.registerTypes (some app) os (r.2.withSupply supply) = (.ok 0, r.2.withSupply supply) := by
  intro svc key stored record pending missing r
  have hregistry : r.2.registry = s.registry.searched app os := registry_registerTypes _
  refine ⟨fun o e ho he => ?_, fun hreads => ?_, ?_, ?_, fun n hn supply => ?_⟩
  · have hrejected : App.ofObject (app.recordIn s.store) = .error e := by
      rw [happ.keyed.ofObject_recordIn]
      exact (congrArg (Option.elim · (.ok app) App.ofObject) ho).trans he
    exact registerTypes_rejected config background happ.keyed hrejected os
  · obtain ⟨latest, hlatest⟩ : ∃ latest, App.ofObject record = .ok latest := by
      rw [happ.keyed.ofObject_recordIn]
      cases ho : s.store.get? app.partition app.identifier.objectId with
      | none => exact ⟨app, rfl⟩
      | some o => exact hreads o ho
    exact registerTypes_records config background hs.consistent (happ.recordable s.store) hlatest os
  · rw [hregistry, Registry.known_searched]
  · exact (registerTypes_effect config background app os s).2
  · exact registerTypes_again config background hs.consistent happ hn supply

/-- Objects of new types, two of them with one plural, and of types that need no entry. -/
def mixedObjects : List Object :=
  [.ofType "cat", .ofType "dog", .ofType "box", .ofType "boxe", .ofType "user", .ofType ""]

theorem registerTypes_exact_shop :
    dogRecordState.store.Reachable ∧ App.shop.Located ∧
      let svc := inMemory {} .queued
      let record := App.shop.recordIn dogRecordState.store
      let pending := Registry.unknownTypes dogRecordState.registry.known .shop mixedObjects
      let r := svc.registerTypes (some .shop) mixedObjects dogRecordState
      pending = .ofList [("boxes", "boxe"), ("cats", "cat"), ("dogs", "dog")] ∧
      record.datatypes = .ofList [("dogs", "dog")] ∧ r.1 = .ok 2 ∧
      (∃ o, r.2.store = dogRecordState.store.put App.shop.partition App.shop.identifier.objectId o ∧
        record.WrittenWith pending true dogRecordState.store.supply.now o) ∧
      svc.registerTypes (some .shop) mixedObjects (r.2.withSupply .still) =
        (.ok 0, r.2.withSupply .still) := by
  have hreachable : dogRecordState.store.Reachable := (shopState_reachable _).store
  have hlocated := App.located_shop
  obtain ⟨-, hrecords, -, -, hagain⟩ :=
    registerTypes_exact {} .queued hreachable hlocated mixedObjects
  have hpending : Registry.unknownTypes dogRecordState.registry.known .shop mixedObjects =
      .ofList [("boxes", "boxe"), ("cats", "cat"), ("dogs", "dog")] := by decide +kernel
  have hrecord : (App.shop.recordIn dogRecordState.store).datatypes =
      .ofList [("dogs", "dog")] := by decide +kernel
  have hshape : (dogRecordState.store.get? App.shop.partition App.shop.identifier.objectId).bind
      Object.shape = some .app := by decide +kernel
  obtain ⟨stored, hstored, hshape⟩ := Option.bind_eq_some_iff.mp hshape
  have hmissing : (Registry.missing (App.shop.recordIn dogRecordState.store).datatypes
      (Registry.unknownTypes dogRecordState.registry.known .shop mixedObjects)).length = 2 := by
    rw [hpending, hrecord]
    decide +kernel
  obtain ⟨hanswer, -, hwrites⟩ := hrecords (fun o ho => ⟨_, App.ofObject_of_isApp
    (hreachable.consistent.isApp hlocated.notBlank ho
      (Option.some.inj (hstored.symm.trans ho) ▸ hshape))⟩)
  rw [hmissing] at hanswer
  rw [hstored] at hwrites
  exact ⟨hreachable, hlocated, hpending, hrecord, hanswer,
    hwrites (fun h => by rw [h] at hmissing; cases hmissing), hagain 2 hanswer .still⟩

end Service

end ObjectDepot
