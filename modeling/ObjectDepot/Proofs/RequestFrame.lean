import ObjectDepot.Proofs.Runs
import ObjectDepot.Proofs.TypeGains

/-! The frame of a request: what it leaves as it is. Outside the app's own partition a request
changes nothing but the record of the app, and of that only the time of change and the types. -/

namespace ObjectDepot

/-- How the record of an app may change: types are added, each brought by one of the objects. -/
structure Object.RecordChange (os : List Object) (o o' : Object) : Prop where
  fields : ∀ k, k ≠ "updated" → k ≠ "datatypes" → o'.toFields.get? k = o.toFields.get? k
  kept : ∀ k v, o.datatypes.get? k = some v → o'.datatypes.get? k = some v
  gained : ∀ k v, o'.datatypes.get? k = some v →
    o.datatypes.get? k = some v ∨ ∃ d ∈ os, d.plural = k ∧ d.type = v

/-- What stays when a request under an app decodes certain objects. -/
structure Frame (app : App) (os : List Object) (m m' : Memory) : Prop where
  elsewhere : ∀ other, other ≠ app.identifier → other ≠ app.partition →
    m'.partitions.get? other.text = m.partitions.get? other.text
  others : app.partition ≠ app.identifier → ∀ id, id ≠ app.identifier.objectId →
    m'.get? app.partition id = m.get? app.partition id
  record : app.partition ≠ app.identifier →
    ∀ o, m.get? app.partition app.identifier.objectId = some o →
      ∃ o', m'.get? app.partition app.identifier.objectId = some o' ∧ o.RecordChange os o'

namespace Object

theorem RecordChange.refl (os : List Object) (o : Object) : o.RecordChange os o :=
  ⟨fun _ _ _ => rfl, fun _ _ h => h, fun _ _ h => .inl h⟩

theorem RecordChange.trans {os : List Object} {o o' o'' : Object} (h : o.RecordChange os o')
    (h' : o'.RecordChange os o'') : o.RecordChange os o'' := by
  refine ⟨fun k hu hd => ?_, fun k v hv => h'.kept k v (h.kept k v hv), fun k v hv => ?_⟩
  · rw [h'.fields k hu hd, h.fields k hu hd]
  · rcases h'.gained k v hv with hv | hv
    · exact h.gained k v hv
    · exact .inr hv

theorem RecordChange.mono {os os' : List Object} {o o' : Object} (h : o.RecordChange os o')
    (hos : TypedLike os os') : o.RecordChange os' o' := by
  refine ⟨h.fields, h.kept, fun k v hv => ?_⟩
  rcases h.gained k v hv with hv | ⟨d, hd, rfl, rfl⟩
  · exact .inl hv
  · obtain ⟨d', hd', hp, ht⟩ := hos d hd
    exact .inr ⟨d', hd', hp.symm, ht.symm⟩

end Object

theorem Object.GainsTypes.recordChange {o o' : Object} {types : TypeMap} {os : List Object}
    (h : o.GainsTypes types o') (htypes : Registry.BroughtBy types os) : o.RecordChange os o' := by
  refine ⟨fun k hupdated hk => h.fields k hk hupdated, fun k v hv => ?_, fun k v hv => ?_⟩
  · rw [h.types, hv, Option.some_or]
  · rw [h.types, Option.or_eq_some_iff] at hv
    rcases hv with hv | ⟨-, hv⟩
    · exact .inl hv
    · exact .inr (htypes k v hv)

namespace Frame

theorem refl (app : App) (os : List Object) (m : Memory) : Frame app os m m :=
  ⟨fun _ _ _ => rfl, fun _ _ _ => rfl, fun _ o ho => ⟨o, ho, .refl os o⟩⟩

theorem trans {app : App} {os : List Object} {m m' m'' : Memory} (h : Frame app os m m')
    (h' : Frame app os m' m'') : Frame app os m m'' := by
  refine ⟨fun other hi hp => ?_, fun hne id hid => ?_, fun hne o ho => ?_⟩
  · rw [h'.elsewhere other hi hp, h.elsewhere other hi hp]
  · rw [h'.others hne id hid, h.others hne id hid]
  · obtain ⟨o', ho', hchange⟩ := h.record hne o ho
    obtain ⟨o'', ho'', hchange'⟩ := h'.record hne o' ho'
    exact ⟨o'', ho'', hchange.trans hchange'⟩

theorem mono {app : App} {os os' : List Object} {m m' : Memory} (h : Frame app os m m')
    (hos : TypedLike os os') : Frame app os' m m' := by
  refine ⟨h.elsewhere, h.others, fun hne o ho => ?_⟩
  obtain ⟨o', ho', hchange⟩ := h.record hne o ho
  exact ⟨o', ho', hchange.mono hos⟩

theorem of_own {app : App} {os : List Object} {m m' : Memory}
    (h : ∀ other, other ≠ app.identifier →
      m'.partitions.get? other.text = m.partitions.get? other.text) : Frame app os m m' := by
  have hget (hne : app.partition ≠ app.identifier) (id : String) :
      m'.get? app.partition id = m.get? app.partition id := by
    rw [Memory.get?, Memory.objects, h app.partition hne]
    rfl
  exact ⟨fun other hi _ => h other hi, fun hne id _ => hget hne id,
    fun hne o ho => ⟨o, by rw [hget hne, ho], .refl os o⟩⟩

end Frame

namespace Memory

theorem supply_update (app : AppId) (o : Object) (m : Memory) :
    (update app o m).2.supply = m.supply := by
  unfold update
  split
  · rfl
  · dsimp only
    split <;> rfl

theorem create_of_givenId {m : Memory} {app : AppId} {o : Object} {id : String}
    (hid : o.givenId? = some id) :
    (create app o m).2 = m ∨ ∃ o', (create app o m).2 = m.put app id o' := by
  unfold create makeReady
  cases checkOwner app o with
  | error e => exact .inl rfl
  | ok _ =>
    simp only [assignedId, hid]
    cases (m.objects app).contains id with
    | true => exact .inl rfl
    | false => exact .inr ⟨_, rfl⟩

end Memory

theorem AppId.isBlank_objectId (a : AppId) : Text.isBlank a.objectId = false := by
  have hmarker : Text.isBlank marker = false := by decide +kernel
  rw [Text.isBlank] at hmarker
  rw [Text.isBlank, objectId, String.toList_append, List.all_append, hmarker, Bool.false_and]

namespace Frame

theorem of_put {app : App} {os : List Object} {m : Memory} {o' : Object}
    (h : ∀ o, m.get? app.partition app.identifier.objectId = some o → o.RecordChange os o') :
    Frame app os m (m.put app.partition app.identifier.objectId o') := by
  refine ⟨fun other _ hp => Memory.partitions_withPartition m hp _, fun _ id hid => ?_,
    fun _ o ho => ⟨o', ?_, h o ho⟩⟩
  · rw [Memory.get?_put, if_neg hid]
  · rw [Memory.get?_put, if_pos rfl]

theorem givenId_addTypes {app : App} (hid : app.envelope.id = some app.identifier.objectId)
    (pending : TypeMap) :
    (Registry.addTypes app pending).1.toObject.givenId? = some app.identifier.objectId := by
  rw [Object.givenId?, Object.id, Registry.envelope_addTypes, hid]
  simp [Option.filter, AppId.isBlank_objectId]

theorem of_recordTypes {app : App} (hid : app.envelope.id = some app.identifier.objectId)
    {os : List Object} {pending : TypeMap}
    (hpending : Registry.BroughtBy pending os) {m : Memory} (hm : m.Consistent) :
    Frame app os m (Registry.recordTypes Memory.storage app pending m).2 := by
  rcases Registry.recordTypes_cases app pending m with
    h | ⟨record, latest, hget, hlatest, h⟩ | ⟨hget, h⟩
  · rw [h]
    exact refl app os m
  · have hstored := hm.partitions app.partition _ _ hget
    have henvelope := Registry.envelope_addTypes_ofObject hlatest pending
    rw [h, Memory.update_of_stored ?_ ?_ hget]
    · refine of_put (fun o ho => ?_)
      obtain rfl : record = o := Option.some.inj (hget.symm.trans ho)
      have hgains := Object.gainsTypes_inPlaceOf hstored.sound hlatest pending m.supply.now
      exact hgains.recordChange hpending
    · rw [← hstored.owner, Object.appid, henvelope]
      rfl
    · rw [← hstored.key, Object.id, henvelope]
      rfl
  · rw [h]
    rcases Memory.create_of_givenId (givenId_addTypes hid pending) with hcreate | ⟨o', hcreate⟩
    · rw [hcreate]
      exact refl app os m
    · rw [hcreate]
      exact of_put (fun o ho => by rw [hget] at ho; cases ho)

theorem of_recordsTypes {app : App} (hid : app.envelope.id = some app.identifier.objectId)
    {os : List Object} {m m' : Memory} (hm : m.Consistent) (h : RecordsTypes app os m m') :
    Frame app os m m' := by
  rcases h with rfl | ⟨pending, hpending, rfl⟩
  · exact refl app os m'
  · exact of_recordTypes hid hpending hm

theorem of_writesOnce {app : App} {os : List Object} {condition : Prop} {m m' : Memory}
    (h : WritesOnce app.identifier condition m m') : Frame app os m m' := by
  rcases h with rfl | ⟨w, hw, -, rfl⟩
  · exact refl app os m'
  · exact of_own (fun other hother => w.partitions_run (by rw [hw]; exact hother))

end Frame

namespace Service

theorem runRegistration_frame (config : Config) (background : Background) {t : Registration}
    (hid : t.app.envelope.id = some t.app.identifier.objectId) {s : ServiceState Memory}
    (hs : s.store.Reachable) :
    Frame t.app t.objects s.store ((inMemory config background).runRegistration t s).2.store :=
  .of_recordsTypes hid hs.consistent
    (registerTypes_effect config background t.app t.objects s).1

/-- The frame of a request, whatever its answer, and of each registration it leaves for later. -/
theorem answer_frame (config : Config) (background : Background) {app : App}
    (hid : app.envelope.id = some app.identifier.objectId) {s : ServiceState Memory}
    (hs : s.store.Reachable) (call : Call (Option Object)) :
    let svc := inMemory config background
    let after := ((svc.answer app call).on s).2
    Frame app (svc.decoded app call) s.store after.store ∧
      ∃ tasks, after.pending = s.pending ++ tasks ∧ ∀ t ∈ tasks, ∀ s' : ServiceState Memory,
        s'.store.Reachable →
          Frame app (svc.decoded app call) s'.store (svc.runRegistration t s').2.store := by
  intro svc after
  obtain ⟨⟨m, hrecords, hwrites⟩, tasks, hpending, htasks⟩ :=
    answer_effect config background app s call
  refine ⟨(Frame.of_recordsTypes hid hs.consistent hrecords).trans (.of_writesOnce hwrites),
    tasks, hpending, fun t ht s' hs' => ?_⟩
  obtain ⟨rfl, htyped⟩ := htasks t ht
  exact (runRegistration_frame config background hid hs').mono htyped

theorem answer_frame_shop :
    App.shop.envelope.id = some App.shop.identifier.objectId ∧
      (shopState [.ofText "\x7b\"id\":\"d\",\"type\":\"dog\"\x7d"]).store.Reachable ∧
      let s := shopState [.ofText "\x7b\"id\":\"d\",\"type\":\"dog\"\x7d"]
      let call : Call (Option Object) := .batchCreate (.ofText "[\x7b\"type\":\"cat\"\x7d]")
      let svc := inMemory {} .queued
      let after := ((svc.answer .shop call).on s).2
      Frame .shop (svc.decoded .shop call) s.store after.store ∧
        ∃ tasks, after.pending = s.pending ++ tasks ∧ ∀ t ∈ tasks, ∀ s' : ServiceState Memory,
          s'.store.Reachable →
            Frame .shop (svc.decoded .shop call) s'.store (svc.runRegistration t s').2.store := by
  have hid : App.shop.envelope.id = some App.shop.identifier.objectId := by decide +kernel
  have hreachable := (shopState_reachable
    [.ofText "\x7b\"id\":\"d\",\"type\":\"dog\"\x7d"]).store
  exact ⟨hid, hreachable, answer_frame {} .queued hid hreachable
    (.batchCreate (.ofText "[\x7b\"type\":\"cat\"\x7d]"))⟩

end Service
end ObjectDepot
