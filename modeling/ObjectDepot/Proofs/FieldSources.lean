import ObjectDepot.Proofs.BatchUpdates
import ObjectDepot.Proofs.NormalForm
import ObjectDepot.Proofs.WireNames

/-! Where the type and the identifier of an object come from. They are looked for under the clients'
names, but when an object is made the envelope's own names count too, and one name may be moved out
of the way of the other. So what the accessors tell of a map is what the object has just in case
they look at the fields that it was made of. -/

namespace ObjectDepot

/-- What a value says; null says nothing. -/
def told (v : Option Json) : Option Json := v.filter (fun v => !v.isNull)

theorem bind_str?_of_told {v : Option Json} {id : Option String} (h : told v = id.map .str) :
    v.bind Json.str? = id := by
  rcases v with _ | v
  · cases id <;> trivial
  · cases v <;> cases id <;> simp_all [told, Json.isNull, Json.str?]

theorem Object.told_id_of_ofFields {fields : FieldMap} {o : Object}
    (h : ofFields fields = .ok o) : told (fields.get? "id") = o.id.map .str := by
  have haccepts : o.accepts "id" = true := Bool.true_or _
  rw [← get?_toFields_id (wellFormed_ofFields h), toFields_ofFields h, KeyMap.get?_filter]
  simp [told, tells, haccepts]

theorem Object.get?_type_of_ofFields {fields : FieldMap} {o : Object}
    (h : ofFields fields = .ok o) : fields.get? "type" = some (.str o.type) :=
  get?_of_ofFields h (get?_toFields_type o)

namespace FieldNames

open KeyMap

/-- Whether a map has a value under a name that is not dropped with the shard key. -/
def carries (fields : FieldMap) (k : String) : Bool := k != "shardkey" && fields.contains k

/-- The field whose value is moved to where the type is. -/
def movedType? (names : FieldNames) (fields : FieldMap) : Option String :=
  if names.type = "id" ∧ carries fields names.id then some names.id
  else if carries fields names.type then some names.type
  else none

/-- The field whose value becomes the type. -/
def typeSource (names : FieldNames) (fields : FieldMap) : String :=
  (names.movedType? fields).getD "type"

/-- The field whose value becomes the identifier, unless the type takes its place. -/
def idSource (names : FieldNames) (fields : FieldMap) : Option String :=
  if names.type = "id" then none
  else if carries fields names.id then some names.id
  else some "id"

/-- The accessors tell of a map what the object that is made of it has. -/
structure Agrees (names : FieldNames) (fields : FieldMap) (o : Object) : Prop where
  type : names.type? fields = some o.type
  id : told (fields.get? names.id) = o.id.map .str

/-- What the clients' names tell of a map is what an object would be made of. -/
structure Direct (names : FieldNames) (fields : FieldMap) : Prop where
  type : fields.get? names.type = fields.get? (names.typeSource fields)
  id : told (fields.get? names.id) = told ((names.idSource fields).bind fields.get?)

variable {names : FieldNames} {fields : FieldMap} {o : Object}

theorem get?_erase_shardkey (fields : FieldMap) (k : String) :
    (fields.erase "shardkey").get? k = if carries fields k then fields.get? k else none := by
  rw [get?_erase]
  by_cases hk : k = "shardkey"
  · simp [carries, hk]
  · cases hv : fields.get? k <;> simp [carries, contains, hk, hv]

theorem get?_ne_none_of_carries {k : String} (h : carries fields k) : fields.get? k ≠ none := by
  have hcontains : fields.contains k := (Bool.and_eq_true_iff.mp h).2
  exact Option.isSome_iff_ne_none.mp hcontains

/-- The fields when the identifier has been moved to its place and the type not yet. -/
def identified (names : FieldNames) (fields : FieldMap) : FieldMap :=
  (fields.erase "shardkey").rename names.id "id"

theorem get?_identified_id : (names.identified fields).get? "id" =
    if carries fields names.id then fields.get? names.id else fields.get? "id" := by
  have hid : (fields.erase "shardkey").get? "id" = fields.get? "id" := by
    rw [get?_erase, if_neg (by decide)]
  have hsource := get?_erase_shardkey fields names.id
  cases hc : carries fields names.id with
  | false =>
    rw [identified, rename_of_missing (by simpa [hc] using hsource), hid]
    rfl
  | true =>
    rw [hc, if_pos rfl] at hsource
    rw [identified, get?_rename, hid, hsource, if_pos rfl, if_pos rfl]
    by_cases hsame : names.id = "id"
    · rw [if_pos (.inl hsame), hsame]
    · rw [if_neg (by simp [hsame, get?_ne_none_of_carries hc])]

theorem get?_of_movedType? {k : String} (h : names.movedType? fields = some k) :
    fields.get? k ≠ none := by
  unfold movedType? at h
  split at h
  · rename_i hid
    obtain rfl := Option.some.inj h
    exact get?_ne_none_of_carries hid.2
  · split at h
    · rename_i hcarries
      obtain rfl := Option.some.inj h
      exact get?_ne_none_of_carries hcarries
    · cases h

theorem get?_identified_type (hne : names.id ≠ names.type) (fields : FieldMap) :
    (names.identified fields).get? names.type = (names.movedType? fields).bind fields.get? := by
  unfold movedType?
  by_cases hid : names.type = "id"
  · rw [hid, get?_identified_id]
    cases hc : carries fields names.id with
    | true => simp
    | false => cases hv : fields.get? "id" <;> simp [carries, contains, hv]
  · rw [identified, get?_rename_of_ne hne.symm hid, get?_erase_shardkey,
      if_neg (fun h : names.type = "id" ∧ _ => hid h.1)]
    cases carries fields names.type <;> rfl

theorem get?_of_get?_identified {k : String} {v : Json} (hk : k ≠ "id")
    (h : (names.identified fields).get? k = some v) : fields.get? k = some v := by
  have herased : (fields.erase "shardkey").get? k = some v := by
    rw [identified, get?_rename, if_neg hk] at h
    split at h
    · exact h
    · split at h
      · cases h
      · exact h
  rw [get?_erase_shardkey] at herased
  split at herased
  · exact herased
  · cases herased

theorem get?_typeSource {v : Json} (hne : names.id ≠ names.type)
    (h : (names.normalize fields).get? "type" = some v) :
    fields.get? (names.typeSource fields) = some v := by
  have hstays := get?_identified_type hne fields
  rw [normalize, ← identified, get?_rename, hstays] at h
  rw [typeSource]
  cases hmoved : names.movedType? fields with
  | none =>
    rw [if_pos (.inr (by rw [hmoved]; rfl))] at h
    exact get?_of_get?_identified (by decide) h
  | some k =>
    have hk := get?_of_movedType? hmoved
    by_cases htype : names.type = "type"
    · rw [if_pos (.inl htype), ← htype, hstays, hmoved] at h
      exact h
    · rw [hmoved, if_neg (by simp [htype, hk]), if_pos rfl] at h
      exact h

theorem get?_idSource (names : FieldNames) (fields : FieldMap) :
    (names.normalize fields).get? "id" = (names.idSource fields).bind fields.get? := by
  by_cases htype : names.type = "id"
  · rw [normalize, idSource, if_pos htype, htype, get?_rename_source (by decide)]
    rfl
  · rw [normalize, get?_rename_of_ne (Ne.symm htype) (by decide), ← identified, get?_identified_id,
      idSource, if_neg htype]
    cases carries fields names.id <;> rfl

/-- Of fields that make an object, its type and its identifier make one too. -/
theorem exists_ofFields_headOf (h : Object.ofFields fields = .ok o) :
    ∃ head, Object.ofFields (headOf fields) = .ok head ∧ head.type = o.type ∧ head.id = o.id := by
  obtain ⟨type, htype, hvalid, hlay⟩ := Object.ofFields_eq_ok_iff.mp h
  have hsound := Object.sound_ofType type
  have hadmits := (Object.admits_of_ofFields h).of_shape_eq (Object.shape_overlay hlay).symm
  have hheadAdmits : (Object.ofType type).Admits ((headOf fields).erase "type") :=
    hadmits.of_le (fun k v hv => get?_of_get?_filter (get?_of_get?_filter hv))
  obtain ⟨head, hheadLay⟩ := (Object.exists_overlay_iff hsound).mpr hheadAdmits
  have hheadType : (headOf fields).get? "type" = some (.str type) := by
    rw [get?_headOf, if_pos (.inl rfl), htype]
  have hhead := Object.ofFields_eq_ok_iff.mpr ⟨type, hheadType, hvalid, hheadLay⟩
  refine ⟨head, hhead, ?_, ?_⟩
  · rw [Object.type_overlay hsound hheadLay, Object.type_overlay hsound hlay]
  · have hid := Object.told_id_of_ofFields hhead
    rw [get?_headOf, if_pos (.inr rfl), Object.told_id_of_ofFields h] at hid
    exact (Option.map_injective (fun _ _ => Json.str.inj) hid).symm

/-- Fields that make an object make a partial object too, of the same type and identifier. -/
theorem exists_toObjectThrough (h : names.toObject fields = .ok o) :
    ∃ x, names.toObjectThrough fields .skipLocked = .ok x ∧ x.type = o.type ∧ x.id = o.id := by
  obtain ⟨head, hhead, htype, hid⟩ := exists_ofFields_headOf h
  have hsound := Object.sound_ofFields hhead
  have hshape : head.shape = o.shape := by
    rw [Object.shape_ofFields hhead, Object.shape_ofFields h, htype]
  obtain ⟨x, hlay⟩ := (Object.exists_overlay_iff hsound).mpr
    (((Object.admits_of_ofFields h).of_shape_eq hshape).of_le
      (fun k v hv => get?_of_get?_filter (get?_of_get?_filter hv)))
  refine ⟨x, toObjectThrough_eq_ok_iff.mpr ⟨head, hhead, apply_eq_ok_iff.mpr hlay⟩, ?_, ?_⟩
  · rw [Object.type_overlay hsound hlay, htype]
  · have hlocked : head.isLocked "id" = true := rfl
    have hid' := Object.get?_overlay_envelope hsound hlay "id"
    rw [get?_filter_unlocked, hlocked] at hid'
    have hmap : x.id.map Json.str = head.id.map Json.str := hid'
    rw [Option.map_injective (fun _ _ => Json.str.inj) hmap, hid]

theorem get?_sources (hne : names.id ≠ names.type) (h : names.toObject fields = .ok o) :
    fields.get? (names.typeSource fields) = some (.str o.type) ∧
      told ((names.idSource fields).bind fields.get?) = o.id.map .str := by
  refine ⟨get?_typeSource hne (Object.get?_type_of_ofFields h), ?_⟩
  rw [← get?_idSource]
  exact Object.told_id_of_ofFields h

theorem agrees_iff_direct (hne : names.id ≠ names.type) (h : names.toObject fields = .ok o) :
    names.Agrees fields o ↔ names.Direct fields := by
  obtain ⟨htype, hid⟩ := get?_sources hne h
  have htold : names.type? fields = some o.type ↔ fields.get? names.type = some (.str o.type) := by
    simp only [type?, Option.bind_eq_some_iff, Json.str?_eq_some_iff, exists_eq_right]
  constructor
  · rintro ⟨htype', hid'⟩
    exact ⟨(htold.mp htype').trans htype.symm, hid'.trans hid.symm⟩
  · rintro ⟨htype', hid'⟩
    exact ⟨htold.mpr (htype'.trans htype), hid'.trans hid⟩

theorem Agrees.identifier? (h : names.Agrees fields o) :
    names.identifier? fields = o.givenId? := by
  rw [FieldNames.identifier?, bind_str?_of_told h.id, Object.givenId?]

theorem direct_default (fields : FieldMap) : ({} : FieldNames).Direct fields := by
  refine ⟨?_, ?_⟩
  · simp only [typeSource, movedType?]
    cases carries fields "type" <;> rfl
  · simp only [idSource]
    cases carries fields "id" <;> rfl

/-- If the type goes by the name of the shard key and the identifier by that of the type, nothing
has a type. -/
theorem toObject_typeless (fields : FieldMap) (o : Object) :
    (⟨"type", "shardkey"⟩ : FieldNames).toObject fields ≠ .ok o := by
  intro h
  have htype := Object.get?_type_of_ofFields h
  have hmissing : ((⟨"type", "shardkey"⟩ : FieldNames).identified fields).get? "shardkey" = none :=
    get?_identified_type (by decide) fields
  rw [normalize, ← identified, rename_of_missing hmissing, identified,
    get?_rename_source (by decide)] at htype
  cases htype

/-- If the type has another name, and the identifier does not take its own, a type under the
envelope's name makes an object of which the accessor knows no type. -/
theorem exists_untold_type (htype : names.type ≠ "type") (hid : names.id ≠ "type") :
    ∃ fields o, names.toObject fields = .ok o ∧ names.type? fields = none := by
  have hget {k : String} (hk : k ≠ "type") :
      (KeyMap.ofList [("type", Json.str "dog")]).get? k = none := get?_insert_of_ne _ _ hk
  refine ⟨KeyMap.ofList [("type", .str "dog")], .ofType "dog", ?_, ?_⟩
  · have hdropped : (KeyMap.ofList [("type", Json.str "dog")]).erase "shardkey" =
        KeyMap.ofList [("type", .str "dog")] := by rfl
    rw [toObject, normalize, hdropped, rename_of_missing (hget hid), rename_of_missing (hget htype)]
    rfl
  · rw [type?, hget htype]
    rfl

/-- If the identifier has another name, and the type does not take its own, an identifier under the
envelope's name goes into an object of which the accessor knows none. -/
theorem exists_untold_id (hne : names.id ≠ names.type) (hid : names.id ≠ "id")
    (htypeId : names.type ≠ "id") (hkey : names.type ≠ "shardkey") :
    ∃ fields o, names.toObject fields = .ok o ∧ o.id.isSome ∧ fields.get? names.id = none := by
  let untyped : FieldMap := .ofList [("id", .str "d")]
  let dog : Object := ⟨{ id := some "d", type := "dog" }, ⟨none, .empty⟩⟩
  have hmade : Object.ofFields ((KeyMap.ofList [("id", .str "d")]).insert "type" (.str "dog")) =
      .ok dog := by rfl
  have huntyped {k : String} (hk : k ≠ "id") : untyped.get? k = none := get?_insert_of_ne _ _ hk
  have hmissing : (untyped.insert names.type (.str "dog")).get? names.id = none := by
    rw [get?_insert_of_ne _ _ hne, huntyped hid]
  have hdropped : (untyped.insert names.type (.str "dog")).erase "shardkey" =
      untyped.insert names.type (.str "dog") := by
    refine KeyMap.ext (fun k => ?_)
    rw [get?_erase]
    split
    · rename_i hk
      rw [hk, get?_insert_of_ne _ _ hkey.symm, huntyped (by decide)]
    · rfl
  have hmoved : (untyped.insert names.type (.str "dog")).rename names.type "type" =
      untyped.insert "type" (.str "dog") := by
    by_cases htype : names.type = "type"
    · rw [htype, rename_self]
    · refine KeyMap.ext (fun k => ?_)
      rw [get?_rename, get?_insert_self, if_neg (by simp [htype]), get?_insert, get?_insert]
      split
      · rfl
      · split
        · rename_i hk
          rw [hk, huntyped htypeId]
        · rfl
  refine ⟨untyped.insert names.type (.str "dog"), dog, ?_, rfl, hmissing⟩
  rw [toObject, normalize, hdropped, rename_of_missing hmissing, hmoved, hmade]

/-- If the two names are exchanged, the type goes to where the identifier is and back. -/
theorem toObject_exchanged : (⟨"type", "id"⟩ : FieldNames).toObject
    (.ofList [("id", .str "dog"), ("type", .str "d")]) = .ok (.ofType "d") := by
  rfl

theorem agrees_always_iff (hne : names.id ≠ names.type) :
    (∀ fields o, names.toObject fields = .ok o → names.Agrees fields o) ↔
      names = {} ∨ names = ⟨"type", "shardkey"⟩ := by
  constructor
  · intro hall
    obtain ⟨id, type⟩ := names
    have hidTold (hid : id ≠ "id") (htypeId : type ≠ "id") : type = "shardkey" := by
      refine Decidable.byContradiction (fun hkey => ?_)
      obtain ⟨fields, o, ho, hsome, hnone⟩ := exists_untold_id hne hid htypeId hkey
      have htold := bind_str?_of_told (hall fields o ho).id
      rw [hnone] at htold
      rw [← htold] at hsome
      cases hsome
    by_cases htype : type = "type"
    · subst htype
      by_cases hid : id = "id"
      · exact .inl (by rw [hid])
      · exact absurd (hidTold hid (by decide)) (by decide)
    · by_cases hid : id = "type"
      · subst hid
        by_cases htypeId : type = "id"
        · subst htypeId
          have hother := (hall _ _ toObject_exchanged).type
          exact absurd hother (by decide)
        · exact .inr (by rw [hidTold (by decide) htypeId])
      · obtain ⟨fields, o, ho, hnone⟩ := @exists_untold_type ⟨id, type⟩ htype hid
        have htold := (hall fields o ho).type
        rw [hnone] at htold
        cases htold
  · rintro (rfl | rfl) fields o ho
    · exact (agrees_iff_direct (by decide) ho).mpr (direct_default fields)
    · exact absurd ho (toObject_typeless fields o)

/-- What an item of a batch update stands for, if an object can be made of it. -/
theorem changes?_of_toObject {σ : Type} {svc : Service σ} {item : Json}
    (hitem : item.fields? = some fields) (h : svc.names.toObject fields = .ok o) (app : App) :
    (svc.changes? app item).map (fun x => (x.type, x.id)) =
      if (svc.names.type? fields).isSome ∧ (svc.names.identifier? fields).isSome
      then some (o.type, o.id) else none := by
  obtain ⟨x, hx, htype, hid⟩ := exists_toObjectThrough h
  split
  · rename_i htold
    have hchanges := Service.changes?_eq_some_iff.mpr
      ⟨fields, x, hitem, htold.2, htold.1, hx, rfl (a := app.adopt x)⟩
    rw [hchanges, Option.map_some, ← htype, ← hid]
    rfl
  · rename_i htold
    rw [Option.map_eq_none_iff, Option.eq_none_iff_forall_ne_some]
    intro y hy
    obtain ⟨fields', -, hfields, hidTold, htypeTold, -⟩ := Service.changes?_eq_some_iff.mp hy
    obtain rfl := Option.some.inj (hitem.symm.trans hfields)
    exact htold ⟨htypeTold, hidTold⟩

end FieldNames

/-- Under the names of a configuration that is accepted, the accessors tell of a map what the object
made of it has just in case they look at the fields that it is made of. An item of a batch update
always stands for the type and the identifier of the object; where the accessors agree it is dropped
only for want of an identifier. They agree on all maps just in case the names are the envelope's
own, or are such that no object is ever made. -/
theorem FieldNames.toObject_agrees_iff {config : Config} (h : config.faults = []) :
    (∀ fields o, config.fieldNames.toObject fields = .ok o →
      (config.fieldNames.Agrees fields o ↔ config.fieldNames.Direct fields) ∧
      ∀ {σ : Type} (svc : Service σ) (app : App) (item : Json),
        svc.config = config → item.fields? = some fields →
        (∀ x, svc.changes? app item = some x → x.type = o.type ∧ x.id = o.id) ∧
        (config.fieldNames.Agrees fields o →
          (svc.changes? app item).isSome = o.givenId?.isSome)) ∧
    ((∀ fields o, config.fieldNames.toObject fields = .ok o → config.fieldNames.Agrees fields o) ↔
      config.fieldNames = {} ∨ config.fieldNames = ⟨"type", "shardkey"⟩) := by
  have hne := config.names_ne h
  refine ⟨fun fields o ho => ⟨agrees_iff_direct hne ho, fun svc app item hsvc hitem => ?_⟩,
    agrees_always_iff hne⟩
  subst hsvc
  have hchanges := changes?_of_toObject hitem ho app
  refine ⟨fun x hx => ?_, fun hagrees => ?_⟩
  · rw [hx, Option.map_some] at hchanges
    split at hchanges
    · exact Prod.ext_iff.mp (Option.some.inj hchanges)
    · cases hchanges
  · have htype : svc.names.type? fields = some o.type := hagrees.type
    have hid : svc.names.identifier? fields = o.givenId? := hagrees.identifier?
    rw [← Option.isSome_map, hchanges, htype, hid]
    cases o.givenId? <;> rfl

/-- Clients know the identifier and the type under names that nothing else has. -/
def Config.renamed : Config := { idField := "_id", typeField := "kind" }

/-- A dog under the clients' names, and something else under the envelope's. -/
def twofoldItem : Json :=
  .obj [("_id", .str "d"), ("kind", .str "dog"), ("id", .str "c"), ("type", .str "cat")]

/-- A dog under the envelope's names only. -/
def unnamedItem : Json := .obj [("id", .str "d"), ("type", .str "dog")]

theorem FieldNames.toObject_agrees_iff_renamed :
    Config.renamed.faults = [] ∧
      ∃ fields o, twofoldItem.fields? = some fields ∧
        Config.renamed.fieldNames.toObject fields = .ok o ∧
        Config.renamed.fieldNames.Agrees fields o ∧
        ∃ x, (Service.inMemory .renamed .queued).changes? .shop twofoldItem = some x ∧
          x.type = o.type ∧ x.id = o.id := by
  have hfaults : Config.renamed.faults = [] := by decide +kernel
  refine ⟨hfaults, .ofList [("_id", .str "d"), ("kind", .str "dog"), ("id", .str "c"),
    ("type", .str "cat")], _, rfl, rfl, ?_, ?_⟩
  · exact ((toObject_agrees_iff hfaults).1 _ _ rfl).1.mpr ⟨by rfl, by rfl⟩
  · have hitem := ((toObject_agrees_iff hfaults).1 _ _ rfl).2
      (Service.inMemory .renamed .queued) .shop twofoldItem rfl rfl
    exact ⟨_, by rfl, hitem.1 _ (by rfl)⟩

/-- An object is made of fields of which the accessors know neither type nor identifier: a batch
create takes the item that a batch update drops. -/
theorem FieldNames.toObject_disagrees :
    Config.renamed.faults = [] ∧
      ∃ fields o, unnamedItem.fields? = some fields ∧
        Config.renamed.fieldNames.toObject fields = .ok o ∧ o.type = "dog" ∧ o.id = some "d" ∧
        Config.renamed.fieldNames.type? fields = none ∧
        Config.renamed.fieldNames.identifier? fields = none ∧
        fields.get? Config.renamed.fieldNames.id = none ∧
        (Service.inMemory .renamed .queued).newObject? .shop unnamedItem = some (App.shop.adopt o) ∧
        (Service.inMemory .renamed .queued).changes? .shop unnamedItem = none := by
  refine ⟨by decide +kernel, _, _, rfl, by rfl, rfl, rfl, by rfl, by rfl, by rfl, by rfl, by rfl⟩

end ObjectDepot
