import ObjectDepot.Json.Equality
import ObjectDepot.Proofs.FlatForm

/-! What an object gives back of the fields it was made of. Written out again it has the fields that
it can hold, each with the very value that came in, but for the shard key and for values that say
nothing: nulls, an empty list of tags, and an empty map of types on an app. -/

namespace ObjectDepot

theorem Envelope.texts_iff_tags {k : String} {f : FieldSpec} (hf : specOf? fieldSpecs k = some f) :
    f.kind ≠ .textMap ∧ (f.kind = .texts ↔ k = "tags") := by
  have htable : ∀ f ∈ fieldSpecs, f.kind ≠ .textMap ∧ (f.kind = .texts ↔ f.name = "tags") := by
    decide
  obtain rfl : f.name = k := by simpa using List.find?_some hf
  exact htable f (List.mem_of_find?_eq_some hf)

theorem Shape.textMap_iff_datatypes {s : Shape} {k : String} {f : FieldSpec}
    (hf : specOf? s.fields k = some f) :
    f.kind ≠ .texts ∧ (f.kind = .textMap ↔ s = .app ∧ k = "datatypes") := by
  have htable : ∀ s ∈ all, ∀ f ∈ s.fields,
      f.kind ≠ .texts ∧ (f.kind = .textMap ↔ s = .app ∧ f.name = "datatypes") := by
    decide
  obtain rfl : f.name = k := by simpa using List.find?_some hf
  exact htable s s.mem_all f (List.mem_of_find?_eq_some hf)

namespace Object

/-- Whether a value says something when it is given for a field: null does not, nor do an empty list
of tags and, on an app, an empty map of types. -/
def tells (o : Object) (k : String) (v : Json) : Bool :=
  !v.isNull && !(k = "tags" && v = .arr []) &&
    !(o.shape = some .app && k = "datatypes" && v = .obj [])

variable {o : Object} {fields : FieldMap} {k : String} {v : Json}

theorem keeps?_of_tells (haccepts : o.accepts k) (htype : k ≠ "type")
    (hfits : o.misfit? k v = none) (htells : o.tells k v) : o.keeps? k v = some v := by
  simp only [tells, Bool.and_eq_true, Bool.not_eq_true', Bool.and_eq_false_iff,
    decide_eq_false_iff_not] at htells
  obtain ⟨⟨hnull, htags⟩, hdatatypes⟩ := htells
  cases hhas : Envelope.has k with
  | true =>
    obtain ⟨f, hf⟩ := Option.isSome_iff_exists.mp hhas
    obtain ⟨hmap, htexts⟩ := Envelope.texts_iff_tags hf
    rw [misfit?, if_pos hhas, if_neg htype] at hfits
    rw [keeps?_of_has hhas]
    refine kept?_of_fits hf hfits hnull (fun hkind => ?_) (fun hkind => absurd hkind hmap)
    exact htags.resolve_left (not_not_intro (htexts.mp hkind))
  | false =>
    rw [misfit?, hhas, if_neg Bool.false_ne_true] at hfits
    rw [keeps?_of_not_has hhas]
    cases hshape : o.body.shape with
    | none => simp [Body.kept?, hshape]
    | some s =>
      have hdeclares : s.declares k := by simpa [accepts, hhas, shape, hshape] using haccepts
      obtain ⟨f, hf⟩ := Option.isSome_iff_exists.mp hdeclares
      obtain ⟨htexts, hmap⟩ := Shape.textMap_iff_datatypes hf
      simp only [Body.misfit?, Body.kept?, hshape] at hfits ⊢
      refine kept?_of_fits hf hfits hnull (fun hkind => absurd hkind htexts) (fun hkind => ?_)
      obtain ⟨rfl, rfl⟩ := hmap.mp hkind
      simpa [shape, hshape] using hdatatypes

theorem keeps?_of_not_tells (hnull : v.isNull = false) (htells : o.tells k v = false) :
    o.keeps? k v = none := by
  simp only [tells, hnull, Bool.not_false, Bool.true_and, Bool.and_eq_false_iff, Bool.not_eq_false',
    Bool.and_eq_true, decide_eq_true_eq] at htells
  rcases htells with ⟨rfl, rfl⟩ | ⟨⟨hshape, rfl⟩, rfl⟩
  · rfl
  · have hshape' : o.body.shape = some .app := hshape
    have hhas : Envelope.has "datatypes" = false := rfl
    simp only [keeps?_of_not_has hhas, Body.kept?, hshape']
    rfl

theorem keeps?_of_not_accepts (haccepts : o.accepts k = false) : o.keeps? k v = none := by
  rw [keeps?_of_not_has (Bool.or_eq_false_iff.mp haccepts).1]
  exact kept?_of_not_accepts haccepts v

/-- What an object that is made of fields has for each of them. -/
theorem get?_toFields_ofFields (h : ofFields fields = .ok o) (htype : k ≠ "type") :
    o.toFields.get? k = changed (o.keeps? k) (fields.get? k) none := by
  obtain ⟨type, -, -, hlay⟩ := ofFields_eq_ok_iff.mp h
  have hnew := sound_ofType type
  have hwell := wellFormed_ofFields h
  have hfields : (fields.erase "type").get? k = fields.get? k := by
    rw [KeyMap.get?_erase, if_neg htype]
  cases hhas : Envelope.has k with
  | true =>
    rw [hwell.get?_toFields_of_has hhas, get?_overlay_envelope hnew hlay, hfields,
      get?_ofType_envelope htype, keeps?_of_has hhas, if_pos (by simpa [hhas] using htype)]
  | false =>
    rw [get?_toFields_of_not_has o hhas, get?_overlay_body hnew hlay, hfields,
      keeps?_of_not_has hhas, kept?_of_shape_eq (shape_overlay hlay), hhas,
      if_neg Bool.false_ne_true]
    rfl

theorem admits_of_ofFields (h : ofFields fields = .ok o) : o.Admits fields := by
  obtain ⟨type, -, -, hlay⟩ := ofFields_eq_ok_iff.mp h
  have hadmits := (exists_overlay_iff (sound_ofType type)).mp ⟨o, hlay⟩
  intro k v hv hnull
  by_cases htype : k = "type"
  · subst htype
    rfl
  · refine hadmits.of_shape_eq (shape_overlay hlay) k v ?_ hnull
    rw [KeyMap.get?_erase, if_neg htype, hv]

/-- An object that is made of fields has those of them that it accepts and that say something. -/
theorem toFields_ofFields (h : ofFields fields = .ok o) :
    o.toFields = fields.filter (fun k v => o.accepts k && o.tells k v) := by
  refine KeyMap.ext (fun k => ?_)
  rw [KeyMap.get?_filter]
  by_cases htype : k = "type"
  · subst htype
    obtain ⟨type, hget, -, hlay⟩ := ofFields_eq_ok_iff.mp h
    obtain rfl := type_overlay (sound_ofType type) hlay
    have haccepts : o.accepts "type" = true := Bool.true_or _
    have htells : o.tells "type" (.str o.type) = true := by simp [tells, Json.isNull]
    rw [hget, get?_toFields_type, Option.filter_some, haccepts, htells]
    rfl
  · rw [get?_toFields_ofFields h htype]
    cases hv : fields.get? k with
    | none => rfl
    | some v =>
      rw [Option.filter_some]
      cases hnull : v.isNull with
      | true => simp [changed, tells, hnull]
      | false =>
        simp only [changed, hnull, Bool.false_eq_true, if_false]
        cases haccepts : o.accepts k with
        | false => simp [keeps?_of_not_accepts haccepts]
        | true =>
          cases htells : o.tells k v with
          | false => simp [keeps?_of_not_tells hnull htells]
          | true =>
            exact keeps?_of_tells haccepts htype (admits_of_ofFields h k v hv hnull) htells

/-- Reading fields makes none up. -/
theorem get?_of_ofFields (h : ofFields fields = .ok o) (hv : o.toFields.get? k = some v) :
    fields.get? k = some v := by
  rw [toFields_ofFields h] at hv
  exact KeyMap.get?_of_get?_filter hv

end Object

namespace FieldNames

/-- Under the envelope's own names an object gives back, of the fields it was made of, all that it
accepts and that say something, each with the value it came with. Only the shard key is left out. -/
theorem toFields_toObject {fields : FieldMap} {o : Object}
    (h : ({} : FieldNames).toObject fields = .ok o) :
    ({} : FieldNames).toFields o =
      fields.filter (fun k v => k != "shardkey" && o.accepts k && o.tells k v) := by
  rw [toObject_default] at h
  rw [toFields_default, Object.toFields_ofFields h]
  refine KeyMap.ext (fun k => ?_)
  rw [KeyMap.get?_filter, KeyMap.get?_filter, KeyMap.get?_erase]
  by_cases hkey : k = "shardkey"
  · subst hkey
    cases fields.get? "shardkey" <;> rfl
  · have hne : (k != "shardkey") = true := by simpa using hkey
    simp only [hne, Bool.true_and, if_neg hkey]

/-- An app with fields that say nothing, one that apps do not have, and a shard key. -/
def acmeFields : FieldMap := KeyMap.ofList [
  ("type", .str "app"), ("id", .str "app:acme"), ("name", .null), ("tags", .arr []),
  ("timestamp", .int 9223372036854775807), ("shardkey", .str "k"), ("color", .str "red"),
  ("datatypes", .obj []), ("shared", .bool true)]

/-- A dog with values of any form. -/
def rexFields : FieldMap := KeyMap.ofList [
  ("type", .str "dog"), ("tags", .arr [.str "a"]), ("datatypes", .obj []), ("owner", .null),
  ("toys", .arr [.null, .obj [("size", .int (-9223372036854775808)), ("torn", .arr [])]])]

theorem toFields_toObject_acme :
    (∃ o, ({} : FieldNames).toObject acmeFields = .ok o ∧
      ({} : FieldNames).toFields o =
        acmeFields.filter (fun k v => k != "shardkey" && o.accepts k && o.tells k v) ∧
      ({} : FieldNames).toFields o = KeyMap.ofList [("type", .str "app"), ("id", .str "app:acme"),
        ("timestamp", .int 9223372036854775807), ("shared", .bool true)]) ∧
    ∃ o, ({} : FieldNames).toObject rexFields = .ok o ∧
      ({} : FieldNames).toFields o =
        rexFields.filter (fun k v => k != "shardkey" && o.accepts k && o.tells k v) ∧
      ({} : FieldNames).toFields o = rexFields.erase "owner" := by
  have hacme : (({} : FieldNames).toObject acmeFields).toOption.map ({} : FieldNames).toFields =
      some (KeyMap.ofList [("type", .str "app"), ("id", .str "app:acme"),
        ("timestamp", .int 9223372036854775807), ("shared", .bool true)]) := by decide +kernel
  have hrex : (({} : FieldNames).toObject rexFields).toOption.map ({} : FieldNames).toFields =
      some (rexFields.erase "owner") := by decide +kernel
  obtain ⟨acme, hacme, hacmeFields⟩ := Option.map_eq_some_iff.mp hacme
  obtain ⟨rex, hrex, hrexFields⟩ := Option.map_eq_some_iff.mp hrex
  rw [toOption_eq_some_iff] at hacme hrex
  exact ⟨⟨acme, hacme, toFields_toObject hacme, hacmeFields⟩,
    rex, hrex, toFields_toObject hrex, hrexFields⟩

end FieldNames
end ObjectDepot
