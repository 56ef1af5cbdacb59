import ObjectDepot.Proofs.StoredForms
import ObjectDepot.Proofs.UpdatePaths

/-! An update, field by field. What a field holds afterwards follows from whether it is locked, what
the body says of it and what the object held; an update that is refused leaves the service as it
was. -/

namespace ObjectDepot

namespace Object

/-- A field that takes what the body of an update says of it. -/
structure TakesUpdates (o : Object) (k : String) : Prop where
  notShardKey : k ≠ "shardkey"
  notUpdated : k ≠ "updated"
  unlocked : o.isLocked k = false
  accepted : o.accepts k

/-- The fields that an object has once it is updated under an app by a map of fields. A null takes a
field away, and so does an empty list of tags. -/
structure UpdatedTo (o : Object) (app : App) (now : Int) (fields after : FieldMap) : Prop where
  locked : ∀ k, o.isLocked k → after.get? k = o.toFields.get? k
  shardKey : after.get? "shardkey" = app.shardKey.map .str
  updated : after.get? "updated" = some (.int now)
  cleared : ∀ k v, o.TakesUpdates k → fields.get? k = some v →
    v.isNull ∨ k = "tags" ∧ v = .arr [] → after.get? k = none
  set : ∀ k v, o.TakesUpdates k → fields.get? k = some v → v.isNull = false →
    ¬ (k = "tags" ∧ v = .arr []) → after.get? k = some v
  kept : ∀ k, o.TakesUpdates k → fields.get? k = none → after.get? k = o.toFields.get? k
  unknown : ∀ k, o.accepts k = false → after.get? k = none

variable {o r : Object} {app : App} {fields : FieldMap}

/-- Every field after an update: the time and the shard key are stamped, and the fields of the body
that are not locked are laid over those that the object had. -/
theorem get?_toFields_updated (ho : o.WellFormed)
    (hlay : (app.stamp o).overlay (o.updatable fields) = .ok r) {now : Int} (hnow : IsInt64 now)
    (k : String) :
    (r.withUpdated (some now)).toFields.get? k =
      if k = "updated" then some (.int now)
      else if k = "shardkey" then app.shardKey.map .str
      else changed (o.keeps? k) ((o.updatable fields).get? k) (o.toFields.get? k) := by
  have hstamped : (app.stamp o).Sound := ho.sound.withShardKey _
  have hstamp := (o.restamped_stamp app).wellFormed ho hstamped.envelope
  have hr := hstamp.overlay hlay
  have htime : ∀ t, some now = some t → IsInt64 t := by
    rintro t ⟨⟩
    exact hnow
  have hnew : (r.withUpdated (some now)).WellFormed :=
    (r.restamped_withUpdated (some now)).wellFormed hr (hr.sound.withUpdated htime).envelope
  have htype : (o.updatable fields).get? "type" = none := by
    rw [get?_updatable]
    exact if_pos (.inl rfl)
  have hshard : (o.updatable fields).get? "shardkey" = none := by
    rw [get?_updatable]
    exact if_pos (.inr rfl)
  cases hhas : Envelope.has k with
  | true =>
    rw [hnew.get?_toFields_of_has hhas, get?_withUpdated, get?_overlay_envelope hstamped hlay,
      ho.get?_toFields_of_has hhas, keeps?_of_has hhas, App.stamp, get?_withShardKey, hhas]
    by_cases hk : k = "type"
    · subst hk
      rw [htype]
      rfl
    · by_cases hkey : k = "shardkey"
      · subst hkey
        rw [hshard]
        rfl
      · simp [hk, hkey]
  | false =>
    have hne {name : String} (hname : Envelope.has name) : k ≠ name := by
      rintro rfl
      rw [hname] at hhas
      cases hhas
    rw [get?_toFields_of_not_has _ hhas, get?_toFields_of_not_has _ hhas, keeps?_of_not_has hhas,
      if_neg (hne rfl), if_neg (hne rfl)]
    have hbody := get?_overlay_body hstamped hlay k
    rw [hhas, if_neg Bool.false_ne_true] at hbody
    exact hbody

theorem updatedTo_of_overlay (ho : o.WellFormed)
    (hlay : (app.stamp o).overlay (o.updatable fields) = .ok r) {now : Int} (hnow : IsInt64 now) :
    o.UpdatedTo app now fields (r.withUpdated (some now)).toFields := by
  have hget := get?_toFields_updated ho hlay hnow
  have hadmits : o.Admits (o.updatable fields) :=
    Admits.of_shape_eq ((exists_overlay_iff (ho.sound.withShardKey _)).mp ⟨r, hlay⟩) rfl
  have htaken {k : String} (hk : o.TakesUpdates k) :
      (r.withUpdated (some now)).toFields.get? k =
        changed (o.keeps? k) (fields.get? k) (o.toFields.get? k) ∧
      (o.updatable fields).get? k = fields.get? k := by
    have hsent : (o.updatable fields).get? k = fields.get? k := by
      rw [get?_updatable, hk.unlocked]
      simp [hk.notShardKey]
    rw [hget, if_neg hk.notUpdated, if_neg hk.notShardKey, hsent]
    exact ⟨rfl, rfl⟩
  refine ⟨fun k hk => ?_, hget "shardkey", hget "updated", fun k v hk hv hclear => ?_,
    fun k v hk hv hnull htags => ?_, fun k hk hv => ?_, fun k hk => ?_⟩
  · have hne {name : String} (hname : o.isLocked name = false) : k ≠ name := by
      rintro rfl
      rw [hk] at hname
      cases hname
    rw [hget, if_neg (hne rfl), if_neg (hne rfl), get?_updatable, if_pos (.inl hk)]
    rfl
  · rw [(htaken hk).1, hv]
    rcases hclear with hnull | ⟨rfl, rfl⟩
    · simp [changed, hnull]
    · rfl
  · have hfits := hadmits k v ((htaken hk).2.trans hv) hnull
    have hkept := keeps?_of_accepts hk.accepted hk.unlocked hnull
      (fun htag hempty => htags ⟨htag, hempty⟩) hfits
    rw [(htaken hk).1, hv]
    simp [changed, hnull, hkept]
  · rw [(htaken hk).1, hv]
    rfl
  · have hhas : Envelope.has k = false := (Bool.or_eq_false_iff.mp hk).1
    have hne {name : String} (hname : Envelope.has name) : k ≠ name := by
      rintro rfl
      rw [hname] at hhas
      cases hhas
    rw [hget, if_neg (hne rfl), if_neg (hne rfl), keeps?_of_not_has hhas,
      get?_toFields_of_not_has o hhas, get?_body_of_not_accepts ho.sound hk]
    cases (o.updatable fields).get? k with
    | none => rfl
    | some v => simp [changed, kept?_of_not_accepts hk]

end Object

theorem Memory.update_of_error {app : AppId} {o left : Object} {m m' : Memory} {e : StorageError}
    (h : update app o m = (⟨.error e, left⟩, m')) : m' = m := by
  unfold update at h
  split at h
  · cases h
    rfl
  · dsimp only at h
    split at h <;> cases h
    rfl

namespace Service

variable {config : Config} {background : Background}

/-- An update that is refused leaves the service as it was. -/
theorem update_of_error {app : App} {target : Option Object} {body : RequestBody}
    {s : ServiceState Memory} {f : Failure}
    (h : (((inMemory config background).update app target body).on s).1 = .error f) :
    (((inMemory config background).update app target body).on s).2 = s := by
  rw [update_on] at h ⊢
  cases hrevision : (inMemory config background).revision app target body with
  | error e => rfl
  | ok r =>
    rw [hrevision] at h
    dsimp only at h ⊢
    rw [inMemory_update] at h ⊢
    rcases hw : Memory.update app.identifier r s.store with ⟨⟨answer, left⟩, store⟩
    rw [hw] at h
    cases answer with
    | ok _ => cases h
    | error e =>
      obtain rfl := Memory.update_of_error hw
      rfl

/-- A target that is absent or belongs to another app is not found. -/
theorem update_not_found {app : App} {target : Option Object} {body : RequestBody}
    {fields : FieldMap} (hbody : RequestBody.readObject config.maxEntitySize body = .ok fields)
    (htarget : ∀ o, target = some o → o.appid ≠ some app.identifier.text) (s : ServiceState Memory) :
    ((inMemory config background).update app target body).on s = (.error .notFound, s) := by
  have hbody' : RequestBody.readObject (inMemory config background).config.maxEntitySize body =
      .ok fields := hbody
  have hnone : target.filter (fun o => o.id.isSome && o.appid = some app.identifier.text) = none := by
    cases target with
    | none => rfl
    | some o => simp [Option.filter_some, htarget o rfl]
  have hrevision : (inMemory config background).revision app target body = .error .notFound := by
    rw [revision, hbody']
    simp only [Except.bind, hnone]
  rw [update_on, hrevision]

/-- An update of a stored object that is answered with 200 replaces that object and nothing else, by
one whose fields follow from those it had and those of the body, and which is the answer. An update
that is refused leaves everything as it was. -/
theorem update_field_by_field (hnames : config.fieldNames = {}) {s : ServiceState Memory}
    (hs : Reached config background App.WellFormed TargetsKnown s) {supply : Supply}
    (hsupply : supply.Sound) (app : App) :
    let update (target : Option Object) (body : RequestBody) :=
      ((inMemory config background).update app target body).on (s.withSupply supply)
    (∀ id o body fields, s.store.get? app.identifier id = some o →
      RequestBody.readObject config.maxEntitySize body = .ok fields →
      Outcome.status (update (some o) body).1 = 200 →
      o.id = some id ∧ ∃ new : Object, o.UpdatedTo app supply.now fields new.toFields ∧
        (update (some o) body).1 = .ok (.ok new.toFields) ∧
        (update (some o) body).2.store.objects app.identifier =
          (s.store.objects app.identifier).insert id new ∧
        ∀ other, other ≠ app.identifier →
          (update (some o) body).2.store.objects other = s.store.objects other) ∧
    (∀ target body f, (update target body).1 = .error f →
      (update target body).2 = s.withSupply supply) ∧
    ∀ target body fields, RequestBody.readObject config.maxEntitySize body = .ok fields →
      (∀ o, target = some o → o.appid ≠ some app.identifier.text) →
      update target body = (.error .notFound, s.withSupply supply) := by
  intro update
  refine ⟨fun id o body fields ho hbody hstatus => ?_, fun target body f => update_of_error,
    fun target body fields hbody htarget => update_not_found hbody htarget _⟩
  have hwait : (s.withSupply supply).store.Consistent := hs.consistent.withSupply hsupply
  obtain ⟨r, hrevision⟩ := exists_revision hstatus
  have hlay := overlay_stamp_of_revision hnames hbody hrevision
  have hanswer := update_of_revision hwait ho hrevision
  have hdefault : (inMemory config background).names = {} := hnames
  obtain ⟨hobjects, hothers⟩ := objects_update hwait ho hrevision
  refine ⟨(hwait.partitions app.identifier id o ho).key, r.withUpdated (some supply.now),
    Object.updatedTo_of_overlay (hs.wellFormed _ _ _ ho) hlay hsupply.now, ?_, hobjects, hothers⟩
  simp only [update, hanswer, hdefault, FieldNames.toFields_default]
  rfl

theorem reached_targetsKnown : Reached {} .queued App.WellFormed TargetsKnown dogAndVote :=
  reached_dogAndVote wellFormed_shop (by rintro m hint body o ⟨⟩)
    (fun _ owner id _ _ ho => .inl ⟨owner, id, Option.mem_toList.mp ho⟩)

def dogUpdate : RequestBody := .ofText ("\x7b\"age\":null,\"tags\":[],\"color\":\"red\"," ++
  "\"id\":\"x\",\"shardkey\":\"k\",\"updated\":5\x7d")

theorem update_field_by_field_dog :
    let after := ((inMemory {} .queued).update .shop
      (dogAndVote.store.get? App.shop.identifier "d") dogUpdate).on (dogAndVote.withSupply .still)
    Reached {} .queued App.WellFormed TargetsKnown dogAndVote ∧ Supply.still.Sound ∧
      ∃ o fields, dogAndVote.store.get? App.shop.identifier "d" = some o ∧
        RequestBody.readObject ({} : Config).maxEntitySize dogUpdate = .ok fields ∧
        Outcome.status after.1 = 200 ∧ o.id = some "d" ∧
        ∃ new : Object, o.UpdatedTo .shop 0 fields new.toFields ∧
          after.1 = .ok (.ok new.toFields) ∧
          after.2.store.objects App.shop.identifier =
            (dogAndVote.store.objects App.shop.identifier).insert "d" new ∧
          ∀ other, other ≠ App.shop.identifier →
            after.2.store.objects other = dogAndVote.store.objects other := by
  have hstatus : Outcome.status (((inMemory {} .queued).update .shop
      (dogAndVote.store.get? App.shop.identifier "d") dogUpdate).on
        (dogAndVote.withSupply .still)).1 = 200 := by
    decide +kernel
  have hsome : (dogAndVote.store.get? App.shop.identifier "d").isSome := by decide +kernel
  have hread : (RequestBody.readObject ({} : Config).maxEntitySize dogUpdate).toOption.isSome := by
    decide +kernel
  obtain ⟨o, ho⟩ := Option.isSome_iff_exists.mp hsome
  cases hfields : RequestBody.readObject ({} : Config).maxEntitySize dogUpdate with
  | error f =>
    rw [hfields] at hread
    cases hread
  | ok fields =>
    rw [ho] at hstatus ⊢
    exact ⟨reached_targetsKnown, Supply.sound_still, o, fields, rfl, rfl, hstatus,
      (update_field_by_field rfl reached_targetsKnown Supply.sound_still .shop).1 "d" o dogUpdate
        fields ho hfields hstatus⟩

end Service
end ObjectDepot
