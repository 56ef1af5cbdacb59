import ObjectDepot.Proofs.Reachability
import ObjectDepot.Proofs.Registration

/-! What a registration makes of the record of an app. The types to be added are those that neither
the core nor a view of the app has; the record keeps the entries it has of them, gains the others,
and is otherwise the same but for the time of its update. -/

namespace ObjectDepot

namespace Registry

/-- The core types, whether or not they have been found yet. -/
def known (r : Registry) : TypeMap := r.core.getD (findCore r.extra)

theorem coreTypes_known (r : Registry) :
    (coreTypes r).1 = r.known ∧ (coreTypes r).2.known = r.known := by
  unfold coreTypes known
  cases hcore : r.core with
  | none => exact ⟨rfl, rfl⟩
  | some types => exact ⟨rfl, by simp [hcore]⟩

/-- Whether the type of an object is to be added to a view of an app. -/
def isUnknown (core : TypeMap) (app : App) (o : Object) : Bool :=
  TypeName.isValid o.type && !(core.contains o.plural || app.types.contains o.plural)

def unknownTypes (core : TypeMap) (app : App) (os : List Object) : TypeMap :=
  KeyMap.ofList ((os.filter (isUnknown core app)).map (fun o => (o.plural, o.type)))

theorem unknownTypes_of_no_names {core : TypeMap} {app : App} {os : List Object}
    (h : os.filter (fun o => TypeName.isValid o.type) = []) :
    unknownTypes core app os = .empty := by
  have hnone : os.filter (isUnknown core app) = [] := by
    rw [List.filter_eq_nil_iff] at h ⊢
    intro o ho
    simp [isUnknown, h o ho]
  rw [unknownTypes, hnone]
  rfl

theorem newTypes_eq (app : App) (os : List Object) (r : Registry) :
    newTypes app os r =
      (unknownTypes r.known app os,
        if (os.filter (fun o => TypeName.isValid o.type)).isEmpty then r else (coreTypes r).2) := by
  simp only [newTypes, bind]
  split
  · rename_i hnone
    rw [unknownTypes_of_no_names (List.isEmpty_iff.mp hnone)]
    rfl
  · have hfilter (core : TypeMap) : (os.filter (fun o => TypeName.isValid o.type)).filter
        (fun o => !(core.contains o.plural || app.types.contains o.plural)) =
          os.filter (isUnknown core app) := by
      rw [List.filter_filter]
      exact List.filter_congr (fun o _ => Bool.and_comm _ _)
    rw [unknownTypes, ← (coreTypes_known r).1, ← hfilter]
    rfl

theorem newTypes_known (app : App) (os : List Object) (r : Registry) :
    (newTypes app os r).1 = unknownTypes r.known app os ∧ (newTypes app os r).2.known = r.known := by
  rw [newTypes_eq]
  refine ⟨rfl, ?_⟩
  dsimp only
  split
  · rfl
  · exact (coreTypes_known r).2

theorem contains_unknownTypes_iff {core : TypeMap} {app : App} {os : List Object} {k : String} :
    (unknownTypes core app os).contains k ↔
      (∃ o ∈ os, o.plural = k ∧ TypeName.isValid o.type) ∧
        core.contains k = false ∧ app.types.contains k = false := by
  simp only [unknownTypes, KeyMap.contains_ofList_iff, List.mem_map, List.mem_filter, isUnknown,
    Bool.and_eq_true, Bool.not_eq_true', Bool.or_eq_false_iff, Prod.mk.injEq]
  constructor
  · rintro ⟨_, o, ⟨ho, hvalid, hnew⟩, rfl, -⟩
    exact ⟨⟨o, ho, rfl, hvalid⟩, hnew⟩
  · rintro ⟨⟨o, ho, rfl, hvalid⟩, hnew⟩
    exact ⟨o.type, o, ⟨ho, hvalid, hnew⟩, rfl, rfl⟩

theorem mem_of_get?_unknownTypes {core : TypeMap} {app : App} {os : List Object} {k v : String}
    (h : (unknownTypes core app os).get? k = some v) :
    ∃ o ∈ os, o.plural = k ∧ o.type = v ∧ TypeName.isValid o.type := by
  obtain ⟨o, ho, heq⟩ := List.mem_map.mp (KeyMap.mem_of_get?_ofList h)
  obtain ⟨hmem, hnew⟩ := List.mem_filter.mp ho
  simp only [isUnknown, Bool.and_eq_true] at hnew
  exact ⟨o, hmem, congrArg Prod.fst heq, congrArg Prod.snd heq, hnew.1⟩

end Registry

/-- What the record of an app has become when types were to be added to it. -/
structure Object.GainsTypes (o : Object) (types : TypeMap) (o' : Object) : Prop where
  id : o'.id = o.id
  shape : o'.shape = o.shape
  types : ∀ k, o'.datatypes.get? k = (o.datatypes.get? k).or (types.get? k)
  fields : ∀ k, k ≠ "datatypes" → k ≠ "updated" → o'.toFields.get? k = o.toFields.get? k

namespace Object

theorem GainsTypes.contains_iff {o o' : Object} {types : TypeMap} (h : o.GainsTypes types o')
    (k : String) : o'.datatypes.contains k ↔ o.datatypes.contains k ∨ types.contains k := by
  simp only [KeyMap.contains, h.types, Option.isSome_or, Bool.or_eq_true]

theorem GainsTypes.trans {o o' o'' : Object} {types types' : TypeMap}
    (h : o.GainsTypes types o') (h' : o'.GainsTypes types' o'') :
    o.GainsTypes (KeyMap.extend types' types) o'' := by
  refine ⟨h'.id.trans h.id, h'.shape.trans h.shape, fun k => ?_, fun k hk hupdated => ?_⟩
  · rw [h'.types, h.types, KeyMap.get?_extend, Option.or_assoc]
  · rw [h'.fields k hk hupdated, h.fields k hk hupdated]

theorem get?_toFields_withUpdated_of_ne (o : Object) (time : Option Int) {k : String}
    (hk : k ≠ "updated") : (o.withUpdated time).toFields.get? k = o.toFields.get? k := by
  rw [get?_toFields, get?_toFields, get?_withUpdated, if_neg hk]
  rfl

theorem gainsTypes_inPlaceOf {record : Object} {latest : App} (hrecord : record.Sound)
    (hlatest : App.ofObject record = .ok latest) (types : TypeMap) (time : Int) :
    record.GainsTypes types ((Registry.addTypes latest types).1.toObject.inPlaceOf record time) := by
  obtain ⟨hshape, -⟩ := App.ofObject_eq_ok hlatest
  obtain ⟨hadded, hget⟩ := Registry.addTypes_spec latest types
  have henvelope := Registry.envelope_addTypes_ofObject hlatest types
  have hplace : (Registry.addTypes latest types).1.toObject.inPlaceOf record time =
      (Registry.addTypes latest types).1.toObject.withUpdated (some time) := by
    rw [inPlaceOf, ← henvelope, withTimestamp_self]
  have hid : (Registry.addTypes latest types).1.toObject.id = record.id :=
    congrArg Envelope.id henvelope
  refine ⟨hid, hshape.symm, fun k => ?_, fun k hk hupdated => ?_⟩
  · have hdatatypes : ((Registry.addTypes latest types).1.toObject.inPlaceOf record time).datatypes =
        (Registry.addTypes latest types).1.toObject.datatypes := rfl
    rw [hdatatypes, App.datatypes_toObject, hget, App.types_ofObject hlatest]
  · rw [hplace, get?_toFields_withUpdated_of_ne _ _ hupdated, hadded,
      App.get?_toObject_withTypes _ _ hk, App.get?_toObject_ofObject hrecord hlatest hk]

end Object

/-- The record of an app gains types and stays one, and nothing else that is stored changes. -/
structure Memory.RecordGains (m m' : Memory) (app : AppId) (id : String) (o : Object)
    (types : TypeMap) : Prop where
  record : ∃ o', m'.get? app id = some o' ∧ o.GainsTypes types o'
  others : ∀ other k, other ≠ app ∨ k ≠ id → m'.get? other k = m.get? other k

namespace Memory

theorem RecordGains.nothing {m : Memory} {app : AppId} {id : String} {o : Object} {types : TypeMap}
    (hget : m.get? app id = some o)
    (h : ∀ k, o.datatypes.get? k = (o.datatypes.get? k).or (types.get? k)) :
    m.RecordGains m app id o types :=
  ⟨⟨o, hget, rfl, rfl, h, fun _ _ _ => rfl⟩, fun _ _ _ => rfl⟩

theorem RecordGains.trans {m m' m'' : Memory} {app : AppId} {id : String} {o o' : Object}
    {types types' : TypeMap} (h : m.RecordGains m' app id o types)
    (hget : m'.get? app id = some o') (h' : m'.RecordGains m'' app id o' types') :
    m.RecordGains m'' app id o (KeyMap.extend types' types) := by
  obtain ⟨next, hnext, hgains⟩ := h.record
  obtain rfl : next = o' := Option.some.inj (hnext.symm.trans hget)
  obtain ⟨o'', ho'', hgains'⟩ := h'.record
  exact ⟨⟨o'', ho'', hgains.trans hgains'⟩,
    fun other k hk => (h'.others other k hk).trans (h.others other k hk)⟩

theorem get?_put_of_ne (m : Memory) {app other : AppId} {id k : String} (o : Object)
    (h : other ≠ app ∨ k ≠ id) : (m.put app id o).get? other k = m.get? other k := by
  by_cases hother : other = app
  · subst hother
    rw [get?_put, if_neg (h.resolve_left (not_not_intro rfl))]
  · rw [get?, put, objects_withPartition, if_neg hother]
    rfl

end Memory

namespace Registry

/-- What recording types on a stored record comes to: its answer counts the types it adds, and if
there are any the record is written anew. -/
theorem recordTypes_of_record {m : Memory} (hm : m.Consistent) {app : App} {record : Object}
    {latest : App} (hget : m.get? app.partition app.identifier.objectId = some record)
    (hlatest : App.ofObject record = .ok latest) (pending : TypeMap) :
    recordTypes Memory.storage app pending m =
      if missing latest.types pending = [] then (.ok 0, m)
      else (.ok (missing latest.types pending).length, m.put app.partition app.identifier.objectId
        ((addTypes latest pending).1.toObject.inPlaceOf record m.supply.now)) := by
  have hstored := hm.partitions app.partition app.identifier.objectId record hget
  have henvelope := envelope_addTypes_ofObject hlatest pending
  have howner := (congrArg Envelope.appid henvelope).trans hstored.owner
  have hkey := (congrArg Envelope.id henvelope).trans hstored.key
  have hupdate := Memory.update_eq_of_stored howner hkey hget
  rw [recordTypes_eq, hget]
  simp only [Option.elim_some, Option.isSome_some, if_true, hlatest, hupdate]
  rfl

/-- Types that are recorded on an app whose record is stored are what that record gains. -/
theorem recordTypes_gains {m : Memory} (hm : m.Consistent) {app latest : App} {o : Object}
    (hget : m.get? app.partition app.identifier.objectId = some o)
    (hlatest : App.ofObject o = .ok latest) (pending : TypeMap) :
    m.RecordGains (recordTypes Memory.storage app pending m).2 app.partition
      app.identifier.objectId o pending := by
  have hstored := hm.partitions app.partition app.identifier.objectId o hget
  rw [recordTypes_of_record hm hget hlatest]
  split
  · rename_i hnone
    refine .nothing hget (fun k => ?_)
    rw [App.types_ofObject hlatest] at hnone
    rw [← KeyMap.get?_extend, extend_of_none_missing hnone]
  · refine ⟨⟨_, by rw [Memory.get?_put, if_pos rfl], ?_⟩, fun other k h => ?_⟩
    · exact Object.gainsTypes_inPlaceOf hstored.sound hlatest pending m.supply.now
    · exact Memory.get?_put_of_ne m _ h

end Registry

namespace Service

variable (config : Config) (background : Background)

/-- A registration is for the record of the app what its unknown types are, and leaves the core
types as they are known. -/
theorem registerTypes_gains {s : ServiceState Memory} (hs : s.store.Consistent) {app latest : App}
    {o : Object} (hget : s.store.get? app.partition app.identifier.objectId = some o)
    (hlatest : App.ofObject o = .ok latest) (os : List Object) :
    let after := ((inMemory config background).registerTypes (some app) os s).2
    s.store.RecordGains after.store app.partition app.identifier.objectId o
        (Registry.unknownTypes s.registry.known app os) ∧
      after.registry.known = s.registry.known ∧ after.pending = s.pending := by
  have hnothing {types : TypeMap} (h : types = .empty) : s.store.RecordGains s.store app.partition
      app.identifier.objectId o types := by
    refine .nothing hget (fun k => ?_)
    rw [h, KeyMap.get?_empty, Option.or_none]
  obtain ⟨htypes, hknown⟩ := Registry.newTypes_known app os s.registry
  rw [registerTypes_eq]
  split
  · rename_i hnil
    obtain rfl := List.isEmpty_iff.mp hnil
    exact ⟨hnothing rfl, rfl, rfl⟩
  · rcases hnew : Registry.newTypes app os s.registry with ⟨pending, registry⟩
    rw [hnew] at htypes hknown
    dsimp only at htypes hknown ⊢
    subst htypes
    split
    · rename_i hempty
      exact ⟨hnothing (KeyMap.ext_entries (List.isEmpty_iff.mp hempty)), hknown, rfl⟩
    · exact ⟨Registry.recordTypes_gains hs hget hlatest _, hknown, rfl⟩

end Service
end ObjectDepot
