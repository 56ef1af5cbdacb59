import ObjectDepot.Proofs.Reachability
import ObjectDepot.Proofs.Requests

/-! What a batch update sends to storage, and what becomes of the partition: the objects are merged
into it one after the other, and no other partition is touched. -/

namespace ObjectDepot

namespace Object

/-- What a batch update sends to storage: it holds no locked field but those that say which object
it is, and no field of the envelope stands in its body. -/
structure ChangeFor (o : Object) (app : AppId) : Prop where
  sound : o.Sound
  owner : o.appid = some app.text
  locked : ∀ k, o.isLocked k → k ≠ "id" → k ≠ "type" → k ≠ "appid" → o.toFields.get? k = none
  body : ∀ k, Envelope.has k → o.body.fields.get? k = none

theorem changeFor_adopt {o : Object} (h : FieldNames.OnlyUnlocked o) (app : App) :
    (app.adopt o).ChangeFor app.identifier := by
  refine ⟨(h.sound.withAppid _).withShardKey _, rfl, fun k hk hid htype happid => ?_, h.body⟩
  have hk' : o.isLocked k = true := hk
  have hshard : k ≠ "shardkey" := by
    rintro rfl
    cases hk
  have hnone := h.locked k hk' hid htype
  rw [get?_toFields] at hnone ⊢
  rw [App.adopt, App.stamp, get?_withShardKey, if_neg hshard, get?_withAppid, if_neg happid]
  exact hnone

end Object

namespace Memory

theorem mergeAll_empty (now : Int) : ∀ os : List Object,
    mergeAll now .empty os = (⟨.ok (), os⟩, .empty)
  | [] => rfl
  | o :: os => by
    have habsent : o.id.bind (KeyMap.empty : Partition).get? = none := by cases o.id <;> rfl
    rw [mergeAll_cons_of_absent habsent, mergeAll_empty now os]

theorem updateAll_spec {app : AppId} {os : List Object} (h : ∀ o ∈ os, o.appid = some app.text)
    (m : Memory) :
    (updateAll app os m).1.answer = (mergeAll m.supply.now (m.objects app) os).1.answer ∧
      (updateAll app os m).2.objects app = (mergeAll m.supply.now (m.objects app) os).2 ∧
      (updateAll app os m).2.supply = m.supply ∧
      ∀ other, other ≠ app → (updateAll app os m).2.objects other = m.objects other := by
  unfold updateAll
  rw [checkOwners_eq_ok_iff.mpr h]
  cases hp : m.partitions.get? app.text with
  | none =>
    have hempty : m.objects app = .empty := by simp [objects, hp]
    simp [hempty, mergeAll_empty]
  | some p =>
    rw [objects_of_partition hp]
    refine ⟨rfl, ?_, rfl, fun other hother => ?_⟩
    · simp [objects_withPartition]
    · simp [objects_withPartition, hother]

end Memory

namespace Service

theorem changes?_eq_some_iff {σ : Type} {svc : Service σ} {app : App} {item : Json} {o : Object} :
    svc.changes? app item = some o ↔
      ∃ fields x, item.fields? = some fields ∧ (svc.names.identifier? fields).isSome ∧
        (svc.names.type? fields).isSome ∧
        svc.names.toObjectThrough fields .skipLocked = .ok x ∧ app.adopt x = o := by
  unfold changes?
  simp only [bind, Option.bind_eq_some_iff, pure, Option.some.injEq, toOption_eq_some_iff,
    Option.isSome_iff_exists]
  constructor
  · rintro ⟨fields, hfields, id, hid, type, htype, x, hx, heq⟩
    exact ⟨fields, x, hfields, ⟨id, hid⟩, ⟨type, htype⟩, hx, heq⟩
  · rintro ⟨fields, x, hfields, ⟨id, hid⟩, ⟨type, htype⟩, hx, heq⟩
    exact ⟨fields, hfields, id, hid, type, htype, x, hx, heq⟩

theorem changeFor_of_changes? {σ : Type} {svc : Service σ} {app : App} {item : Json} {o : Object}
    (h : svc.changes? app item = some o) : o.ChangeFor app.identifier := by
  obtain ⟨fields, x, -, -, -, hx, rfl⟩ := changes?_eq_some_iff.mp h
  exact Object.changeFor_adopt (FieldNames.onlyUnlocked_toObjectThrough hx) app

theorem changeFor_of_mem {σ : Type} {svc : Service σ} {app : App} {items : List Json} {o : Object}
    (h : o ∈ items.filterMap (svc.changes? app)) : o.ChangeFor app.identifier := by
  obtain ⟨item, -, hitem⟩ := List.mem_filterMap.mp h
  exact changeFor_of_changes? hitem

/-- A batch update whose body can be read merges its items, and the answer tells how that went. -/
theorem batchUpdate_spec (config : Config) (background : Background) (app : App)
    {body : RequestBody} {items : List Json} (s : ServiceState Memory)
    (h : RequestBody.readList config.maxEntitySize body = .ok items) :
    let svc := inMemory config background
    let result := Memory.mergeAll s.store.supply.now (s.store.objects app.identifier)
      (items.filterMap (svc.changes? app))
    ((svc.batchUpdate app body).on s).1 =
        (match result.1.answer with
          | .error e => .error (.ofStorage e)
          | .ok () => .ok (.okList ((items.filterMap (svc.changes? app)).map svc.names.toFields))) ∧
      ((svc.batchUpdate app body).on s).2.store.objects app.identifier = result.2 ∧
      ((svc.batchUpdate app body).on s).2.store.supply = s.store.supply ∧
      ∀ other, other ≠ app.identifier →
        ((svc.batchUpdate app body).on s).2.store.objects other = s.store.objects other := by
  intro svc result
  have hread : RequestBody.readList svc.config.maxEntitySize body = .ok items := h
  obtain ⟨hanswer, hobjects, hsupply, hothers⟩ :=
    Memory.updateAll_spec (fun o ho => (changeFor_of_mem ho).owner) s.store
  rw [batchUpdate_on, hread]
  dsimp only
  by_cases hos : (items.filterMap (svc.changes? app)).isEmpty
  · have hnil := List.isEmpty_iff.mp hos
    simp [result, hnil, Memory.mergeAll]
  · rw [if_neg hos]
    refine ⟨?_, hobjects, hsupply, hothers⟩
    rw [← hanswer]
    rfl

theorem consistent_batchUpdate (config : Config) (background : Background) (app : App)
    (body : RequestBody) {s : ServiceState Memory} (hs : s.store.Consistent) :
    (((inMemory config background).batchUpdate app body).on s).2.store.Consistent := by
  rw [batchUpdate_on]
  split
  · exact hs
  · dsimp only
    split
    · exact hs
    · exact hs.run (w := .updateAll app.identifier _) (fun o ho => (changeFor_of_mem ho).sound)

end Service
end ObjectDepot
