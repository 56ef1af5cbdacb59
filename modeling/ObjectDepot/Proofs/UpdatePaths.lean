import ObjectDepot.Proofs.Identity
import ObjectDepot.Proofs.ItemIsolation
import ObjectDepot.Proofs.KeptValues
import ObjectDepot.Proofs.TypedBodies

/-! The two ways to update an object. An update lays the fields of its body over the stored object
and replaces it; a batch update makes a partial object of the same fields and merges it. Where no
field is null and the shard key is that of the app, both leave the same. -/

namespace ObjectDepot

namespace FieldNames

theorem get?_normalize (fields : FieldMap) (k : String) :
    (({} : FieldNames).normalize fields).get? k = if k = "shardkey" then none else fields.get? k := by
  rw [normalize_default, KeyMap.get?_erase]

theorem unlocked_change (o : Object) (fields : FieldMap) :
    ((({} : FieldNames).normalize fields).erase "type").filter (fun k _ => !o.isLocked k) =
      o.updatable fields := by
  refine KeyMap.ext (fun k => ?_)
  rw [get?_filter_unlocked, KeyMap.get?_erase, get?_normalize, Object.get?_updatable]
  have htype : o.isLocked "type" = true := rfl
  by_cases hk : k = "type"
  · simp [hk, htype]
  · cases hl : o.isLocked k <;> simp [hk]

end FieldNames

namespace FieldNames

end FieldNames

namespace Object

variable {o x : Object} {app : App} {id : String} {fields : FieldMap}

theorem alike_of_overlays {r r' : Object} (ho : o.Sound) {changes changes' : FieldMap}
    (hr : o.overlay changes = .ok r) (hr' : o.overlay changes' = .ok r')
    (henv : ∀ k, Envelope.has k → k ≠ "type" →
      changed (o.keeps? k) (changes'.get? k) (o.envelope.get? k) =
        changed (o.keeps? k) (changes.get? k) (o.envelope.get? k))
    (hbody : ∀ k, Envelope.has k = false →
      changed (o.keeps? k) (changes'.get? k) (o.body.fields.get? k) =
        changed (o.keeps? k) (changes.get? k) (o.body.fields.get? k)) : r.Alike r' := by
  have hbodies : r'.body = r.body := by
    have hshapes : r'.body.shape = r.body.shape := (shape_overlay hr').trans (shape_overlay hr).symm
    have hfields : r'.body.fields = r.body.fields := by
      refine KeyMap.ext (fun k => ?_)
      rw [get?_overlay_body ho hr', get?_overlay_body ho hr]
      cases hhas : Envelope.has k with
      | true => rfl
      | false => simpa [keeps?_of_not_has hhas] using hbody k hhas
    rcases hb : r.body with ⟨shape, fields⟩
    rcases hb' : r'.body with ⟨shape', fields'⟩
    simp_all
  refine alike_of_get? hbodies (fun k _ => ?_)
  rw [get?_overlay_envelope ho hr', get?_overlay_envelope ho hr]
  split
  · rename_i hk
    obtain ⟨hhas, htype⟩ : Envelope.has k = true ∧ k ≠ "type" := by simpa using hk
    simpa [keeps?_of_has hhas] using henv k hhas htype
  · rfl

/-- Fields of the envelope that a batch update sends whatever the item holds. -/
def alwaysSent : List String := ["id", "appid", "shardkey"]

theorem has_of_sent : ∀ k ∈ alwaysSent, Envelope.has k := by decide

theorem get?_updatable_of_sent (o : Object) (fields : FieldMap) {k : String}
    (hk : k ∈ alwaysSent) : (o.updatable fields).get? k = none := by
  rw [get?_updatable]
  simp only [alwaysSent, List.mem_cons, List.not_mem_nil, or_false] at hk
  rcases hk with rfl | rfl | rfl
  · exact if_pos (.inl rfl)
  · exact if_pos (.inl rfl)
  · exact if_pos (.inr rfl)

/-- What is sent for the update of an object: what the object has already, and what it would keep
of the fields. -/
structure PartialFor (x o : Object) (fields : FieldMap) : Prop where
  stored : ∀ k ∈ alwaysSent, x.toFields.get? k = o.envelope.get? k
  others : ∀ k, k ≠ "type" → k ∉ alwaysSent →
    x.toFields.get? k = ((o.updatable fields).get? k).bind (o.keeps? k)

theorem PartialFor.admits (h : x.PartialFor o fields) (ho : o.Sound) : o.Admits x.toFields := by
  intro k v hv _
  by_cases htype : k = "type"
  · subst htype
    rfl
  · refine misfit?_of_keeps ?_
    by_cases hk : k ∈ alwaysSent
    · rw [h.stored k hk] at hv
      exact (keeps?_envelope ho (has_of_sent k hk) hv).2
    · rw [h.others k htype hk] at hv
      obtain ⟨w, -, hw⟩ := Option.bind_eq_some_iff.mp hv
      obtain rfl := keeps?_eq_some hw
      exact hw

/-- To merge what is sent for an update is to make the update. -/
theorem PartialFor.merge (h : x.PartialFor o fields) (ho : o.Sound)
    (hnull : ∀ k v, fields.get? k = some v → v.isNull = false)
    (htags : fields.get? "tags" ≠ some (.arr [])) {r : Object}
    (hr : o.overlay (o.updatable fields) = .ok r) :
    ∃ merged, o.mergeFrom x = .ok merged ∧ r.Alike merged := by
  obtain ⟨merged, hmerged⟩ := (exists_overlay_iff ho).mpr (h.admits ho)
  have hkept {k : String} {v : Json} (hv : (o.updatable fields).get? k = some v) :=
    keeps?_updatable ho hnull htags ((exists_overlay_iff ho).mp ⟨r, hr⟩) hv
  refine ⟨merged, mergeFrom_eq_ok_iff.mpr hmerged, alike_of_overlays ho hr hmerged ?_ ?_⟩
  · intro k hhas htype
    by_cases hk : k ∈ alwaysSent
    · rw [h.stored k hk, changed_self (fun v hv => keeps?_envelope ho hhas hv),
        get?_updatable_of_sent o fields hk]
      rfl
    · rw [h.others k htype hk]
      refine changed_bind_keep (fun v hv => ⟨(hkept hv).1, ?_⟩)
      rcases (hkept hv).2 with hkeep | ⟨-, hbody, -⟩
      · exact .inl hkeep
      · exact absurd hhas (by simp [hbody])
  · intro k hbody
    have htype : k ≠ "type" := by
      rintro rfl
      cases hbody
    have hk : k ∉ alwaysSent := fun hk => by simp [has_of_sent k hk] at hbody
    rw [h.others k htype hk]
    refine changed_bind_keep (fun v hv => ⟨(hkept hv).1, ?_⟩)
    rcases (hkept hv).2 with hkeep | ⟨hkeep, -, hold⟩
    · exact .inl hkeep
    · exact .inr ⟨hkeep, hold⟩

theorem isValid_type {o : Object} (h : o.isValid) : TypeName.isValid o.type := by
  have hnone := List.append_eq_nil_iff.mp (List.isEmpty_iff.mp h)
  have htype := hnone.1
  unfold typeViolations at htype
  split at htype
  · cases htype
  · split at htype
    · assumption
    · cases htype

end Object

namespace Service

section

variable {config : Config} {background : Background} {app : App} {id : String}
  {o r : Object} {fields : FieldMap}

/-- The revision of an object is the stamped object with the fields laid over it that are not
locked. -/
theorem overlay_stamp_of_revision (hnames : config.fieldNames = {}) {body : RequestBody}
    (hbody : RequestBody.readObject config.maxEntitySize body = .ok fields)
    (h : (inMemory config background).revision app (some o) body = .ok r) :
    (app.stamp o).overlay (o.updatable fields) = .ok r := by
  obtain ⟨fields', target, hread, heq, -, -, hchange, -⟩ := revision_eq_ok_iff.mp h
  obtain rfl := Option.some.inj heq
  obtain rfl : fields = fields' := Except.ok.inj (hbody.symm.trans hread)
  have hdefault : (inMemory config background).names = {} := hnames
  rw [hdefault, FieldNames.change] at hchange
  have hlay := FieldNames.apply_eq_ok_iff.mp hchange
  rwa [FieldNames.unlocked_change] at hlay

theorem exists_revision {s : ServiceState Memory} {target : Option Object} {body : RequestBody}
    (h : Outcome.status (((inMemory config background).update app target body).on s).1 = 200) :
    ∃ r, (inMemory config background).revision app target body = .ok r := by
  cases hrevision : (inMemory config background).revision app target body with
  | ok r => exact ⟨r, rfl⟩
  | error f =>
    rw [update_on, hrevision] at h
    exact absurd h f.status_ne_ok

/-- An update whose revision goes through puts it in the place of the object, with the time, and gives
its fields. -/
theorem update_of_revision {s : ServiceState Memory} (hs : s.store.Consistent) {body : RequestBody}
    (ho : s.store.get? app.identifier id = some o)
    (h : (inMemory config background).revision app (some o) body = .ok r) :
    ((inMemory config background).update app (some o) body).on s =
      let new := r.withUpdated (some s.store.supply.now)
      (.ok (.ok ((inMemory config background).names.toFields new)),
        { s with store := s.store.put app.identifier id new }) := by
  have hstored := hs.partitions app.identifier id o ho
  have hsame := Object.sameIdentity_of_revision hstored.sound h
  have hnew : r.inPlaceOf o s.store.supply.now = r.withUpdated (some s.store.supply.now) := by
    rw [Object.inPlaceOf, ← hsame.timestamp, Object.withTimestamp_self]
  have hwritten : (inMemory config background).storage.update app.identifier r s.store = _ :=
    Memory.update_eq_of_stored (hsame.appid.trans hstored.owner) (hsame.id.trans hstored.key) ho
  rw [update_on, h]
  dsimp only
  rw [hwritten, hnew]

theorem objects_update {s : ServiceState Memory} (hs : s.store.Consistent) {body : RequestBody}
    (ho : s.store.get? app.identifier id = some o)
    (h : (inMemory config background).revision app (some o) body = .ok r) :
    let after := (((inMemory config background).update app (some o) body).on s).2.store
    after.objects app.identifier =
        (s.store.objects app.identifier).insert id (r.withUpdated (some s.store.supply.now)) ∧
      ∀ other, other ≠ app.identifier → after.objects other = s.store.objects other := by
  intro after
  have hafter : after =
      s.store.put app.identifier id (r.withUpdated (some s.store.supply.now)) := by
    simp only [after, update_of_revision hs ho h]
  rw [hafter, Memory.put]
  refine ⟨?_, fun other hother => ?_⟩
  · rw [Memory.objects_withPartition, if_pos rfl]
  · rw [Memory.objects_withPartition, if_neg hother]

end

end Service
end ObjectDepot
