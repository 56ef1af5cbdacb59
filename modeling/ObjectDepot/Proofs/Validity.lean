import ObjectDepot.Proofs.FlatForm

/-! On what the validity of an object depends: its type, its name and the fields that its shape
declares. None of these is assigned by the server, so that stamping an object, before or after it is
validated, neither makes it valid nor invalid. The record of an app is valid for its envelope alone. -/

namespace ObjectDepot

theorem FieldSpec.violations_eq_nil {f : FieldSpec} {fields : FieldMap}
    (hopt : f.constraints.contains .required = false)
    (h : ∀ v, fields.get? f.name = some v → ∀ c ∈ f.constraints, c.violation? f.name v = none) :
    f.violations fields = [] := by
  unfold violations
  split
  · rename_i v hv
    exact List.filterMap_eq_nil_iff.mpr (h v (Option.filter_eq_some_iff.mp hv).1)
  · rw [hopt, if_neg Bool.false_ne_true]

theorem FieldSpec.violations_of_unconstrained {f : FieldSpec} (h : f.constraints = [])
    (fields : FieldMap) : f.violations fields = [] := by
  refine violations_eq_nil (by rw [h]; rfl) (fun v _ c hc => ?_)
  rw [h] at hc
  cases hc

theorem FieldSpec.violations_congr {f : FieldSpec} {fields fields' : FieldMap}
    (h : f.constraints ≠ [] → fields.get? f.name = fields'.get? f.name) :
    f.violations fields = f.violations fields' := by
  by_cases hc : f.constraints = []
  · rw [violations_of_unconstrained hc, violations_of_unconstrained hc]
  · rw [violations, violations, h hc]

namespace Object

theorem isValid_iff {o : Object} : o.isValid ↔ o.violations = [] := List.isEmpty_iff

theorem violations_of_eq {o o' : Object} (htype : o'.type = o.type) (hshape : o'.shape = o.shape)
    (h : ∀ f ∈ o.validatedSpecs, f.constraints ≠ [] →
      o'.toFields.get? f.name = o.toFields.get? f.name) : o'.violations = o.violations := by
  have hspecs : o'.validatedSpecs = o.validatedSpecs := by simp only [validatedSpecs, hshape]
  have heach : o.validatedSpecs.flatMap (fun f => f.violations o'.toFields) =
      o.validatedSpecs.flatMap (fun f => f.violations o.toFields) := by
    rw [List.flatMap_def, List.flatMap_def]
    congr 1
    exact List.map_congr_left (fun f hf => FieldSpec.violations_congr (h f hf))
  rw [violations, violations, htype, hspecs, heach]

/-- The other object is this one but for some fields of the envelope. -/
structure SameBut (fields : List String) (o o' : Object) : Prop where
  body : o'.body = o.body
  envelope : ∀ k, k ∉ fields → o'.envelope.get? k = o.envelope.get? k

abbrev Restamped (o o' : Object) : Prop := SameBut Envelope.serverAssigned o o'

theorem restamped (o : Object) (id appid key : Option String) (timestamp updated : Option Int) :
    o.Restamped ⟨{ o.envelope with
      id := id, appid := appid, shardkey := key, timestamp := timestamp, updated := updated },
      o.body⟩ := by
  refine ⟨rfl, fun k hk => ?_⟩
  unfold Envelope.get?
  split <;> first | rfl | exact absurd (by decide) hk

theorem restamped_adopt (o : Object) (app : App) : o.Restamped (app.adopt o) :=
  o.restamped o.id _ _ _ _

theorem restamped_stamp (o : Object) (app : App) : o.Restamped (app.stamp o) :=
  o.restamped o.id o.appid _ _ _

theorem restamped_asNew (o : Object) (id : String) (time : Int) : o.Restamped (o.asNew id time) :=
  o.restamped _ o.appid o.shardKey _ o.envelope.updated

theorem restamped_inPlaceOf (o stored : Object) (time : Int) :
    o.Restamped (o.inPlaceOf stored time) :=
  o.restamped o.id o.appid o.shardKey _ _

theorem restamped_withUpdated (o : Object) (time : Option Int) : o.Restamped (o.withUpdated time) :=
  o.restamped o.id o.appid o.shardKey o.envelope.timestamp _

theorem Restamped.type {o o' : Object} (h : o.Restamped o') : o'.type = o.type := by
  have htype := h.envelope "type" (by decide)
  exact Json.str.inj (Option.some.inj htype)

theorem Restamped.wellFormed {o o' : Object} (h : o.Restamped o') (ho : o.WellFormed)
    (hsound : o'.envelope.Sound) : o'.WellFormed :=
  ho.of_body_eq hsound h.type h.body

/-- No constraint concerns a field that the server assigns. -/
theorem not_mem_serverAssigned {o : Object} {f : FieldSpec} (hf : f ∈ o.validatedSpecs)
    (hc : f.constraints ≠ []) : f.name ∉ Envelope.serverAssigned := by
  have henvelope : ∀ f ∈ Envelope.fieldSpecs, f.constraints ≠ [] →
      f.name ∉ Envelope.serverAssigned := by decide
  have hshape : ∀ s ∈ Shape.all, ∀ f ∈ s.fields, f.name ∉ Envelope.serverAssigned := by decide
  rcases List.mem_append.mp hf with hf | hf
  · exact henvelope f (List.mem_filter.mp hf).1 hc
  · cases hs : o.shape with
    | none =>
      rw [hs] at hf
      cases hf
    | some s =>
      rw [hs] at hf
      exact hshape s s.mem_all f hf

theorem Restamped.violations {o o' : Object} (h : o.Restamped o') : o'.violations = o.violations :=
  violations_of_eq h.type (congrArg Body.shape h.body) (fun f hf hc => by
    rw [get?_toFields, get?_toFields, h.body, h.envelope f.name (not_mem_serverAssigned hf hc)])

theorem Restamped.isValid {o o' : Object} (h : o.Restamped o') : o'.isValid = o.isValid := by
  rw [Object.isValid, Object.isValid, h.violations]

end Object

namespace App

/-- Among the fields of a record the name alone is constrained. -/
theorem constrained_toObject {a : App} {f : FieldSpec} (hf : f ∈ a.toObject.validatedSpecs)
    (hc : f.constraints ≠ []) : f = openField "name" .text [.maxLength 255] := by
  have htable : ∀ f ∈ Envelope.fieldSpecs.filter (fun f => f.name != "type") ++ Shape.app.fields,
      f.constraints ≠ [] → f = openField "name" .text [.maxLength 255] := by decide
  exact htable f hf hc

theorem violations_toObject_of_eq {a : App} {o : Object} (ho : o.WellFormed)
    (hshape : o.shape = some .app) (henvelope : a.envelope = o.envelope)
    (ha : a.toObject.WellFormed) : o.violations = a.toObject.violations := by
  refine Object.violations_of_eq (congrArg Envelope.type henvelope.symm) hshape (fun f hf hc => ?_)
  obtain rfl := constrained_toObject hf hc
  have hname : Envelope.has (openField "name" .text [.maxLength 255]).name := rfl
  rw [ha.get?_toFields_of_has hname, ho.get?_toFields_of_has hname]
  exact congrArg (Envelope.get? · "name") henvelope.symm

theorem violations_toObject {a : App} (ha : a.WellFormed)
    (hname : ∀ n, a.envelope.name = some n → n.length ≤ 255) : a.toObject.violations = [] := by
  have htype : typeViolations a.toObject.type = [] := by
    have happ : a.toObject.type = "app" := ha.type
    rw [happ]
    decide
  have hget : a.toObject.toFields.get? "name" = a.envelope.name.map .str :=
    (wellFormed_toObject ha).get?_toFields_of_has rfl
  have hspec : (openField "name" .text [.maxLength 255]).violations a.toObject.toFields = [] := by
    refine FieldSpec.violations_eq_nil rfl (fun v hv c hc => ?_)
    obtain rfl := List.mem_singleton.mp hc
    obtain ⟨n, hn, rfl⟩ := Option.map_eq_some_iff.mp (hget.symm.trans hv)
    exact if_pos (decide_eq_true (hname n hn))
  rw [Object.violations, htype, List.nil_append, List.flatMap_eq_nil_iff]
  intro f hf
  by_cases hc : f.constraints = []
  · exact FieldSpec.violations_of_unconstrained hc _
  · rw [constrained_toObject hf hc]
    exact hspec

end App
end ObjectDepot
