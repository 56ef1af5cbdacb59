import ObjectDepot.Proofs.KeptValues
import ObjectDepot.Proofs.TypedBodies

/-! The flat form of objects. The objects that read back from their own fields are those with a valid
type, the body that belongs to it, and in an open body no field of the envelope and no null. Laying
fields over such an object and stamping it gives such an object again. -/

namespace ObjectDepot

theorem Shape.not_has_of_declares {s : Shape} {k : String} (h : (specOf? s.fields k).isSome) :
    Envelope.has k = false := by
  have htable : ∀ s ∈ all, ∀ f ∈ s.fields, Envelope.has f.name = false := by decide
  obtain ⟨f, hf, rfl⟩ := specOf?_isSome_iff.mp h
  exact htable s s.mem_all f hf

theorem kept?_null_ne (specs : List FieldSpec) (k : String) : kept? specs k .null ≠ some .null := by
  intro h
  obtain ⟨-, f, -, hread⟩ := kept?_eq_some_iff.mp h
  exact f.kind.read_null_ne hread

theorem isNull_of_kept {specs : List FieldSpec} {k : String} {v : Json}
    (h : kept? specs k v = some v) : v.isNull = false := by
  cases v with
  | null => exact absurd h (kept?_null_ne specs k)
  | _ => rfl

namespace Object

theorem ext_get? {o o' : Object} (hshape : o.shape = o'.shape)
    (henvelope : ∀ k, o.envelope.get? k = o'.envelope.get? k)
    (hbody : ∀ k, o.body.fields.get? k = o'.body.fields.get? k) : o = o' := by
  obtain ⟨envelope, shape, fields⟩ := o
  obtain ⟨envelope', shape', fields'⟩ := o'
  obtain rfl : envelope = envelope' := Envelope.ext_get? henvelope
  obtain rfl : shape = shape' := hshape
  obtain rfl : fields = fields' := KeyMap.ext hbody
  rfl

/-- What an open body may hold: neither a field of the envelope nor a null. -/
def OpenBodyPlain (o : Object) : Prop :=
  o.shape = none → ∀ k v, o.body.fields.get? k = some v → Envelope.has k = false ∧ v.isNull = false

structure WellFormed (o : Object) : Prop where
  sound : o.Sound
  name : TypeName.isValid o.type
  typed : o.Typed
  plain : o.OpenBodyPlain

def ReadsBack (o : Object) : Prop := ofFields o.toFields = .ok o

theorem WellFormed.body {o : Object} (ho : o.WellFormed) {k : String} {v : Json}
    (hv : o.body.fields.get? k = some v) : Envelope.has k = false ∧ v.isNull = false := by
  cases hshape : o.shape with
  | none => exact ho.plain hshape k v hv
  | some s =>
    have hshape' : o.body.shape = some s := hshape
    have hbody := ho.sound.body k v hv
    have hkept : kept? s.fields k v = some v := by simpa only [Body.kept?, hshape'] using hbody
    obtain ⟨-, f, hf, -⟩ := kept?_eq_some_iff.mp hkept
    have hdeclared : (specOf? s.fields k).isSome := Option.isSome_of_eq_some hf
    exact ⟨Shape.not_has_of_declares hdeclared, isNull_of_kept hkept⟩

theorem WellFormed.get?_body_of_has {o : Object} (ho : o.WellFormed) {k : String}
    (hk : Envelope.has k) : o.body.fields.get? k = none := by
  cases hv : o.body.fields.get? k with
  | none => rfl
  | some v =>
    have hnot := (ho.body hv).1
    rw [hk] at hnot
    cases hnot

theorem WellFormed.get?_toFields_of_has {o : Object} (ho : o.WellFormed) {k : String}
    (hk : Envelope.has k) : o.toFields.get? k = o.envelope.get? k := by
  rw [get?_toFields, ho.get?_body_of_has hk, Option.or_none]

theorem get?_toFields_of_not_has (o : Object) {k : String} (hk : Envelope.has k = false) :
    o.toFields.get? k = o.body.fields.get? k := by
  rw [get?_toFields, Envelope.get?_of_not_has hk, Option.none_or]

theorem get?_toFields_type (o : Object) : o.toFields.get? "type" = some (.str o.type) := by
  rw [get?_toFields]
  rfl

theorem Sound.kept?_envelope {o : Object} (ho : o.Sound) {k : String} {v : Json}
    (hv : o.envelope.get? k = some v) : kept? Envelope.fieldSpecs k v = some v :=
  ho.envelope.kept_toFields k v ((Envelope.get?_toFields o.envelope k).trans hv)

theorem admits_own {o : Object} (ho : o.WellFormed) :
    (ofType o.type).Admits (o.toFields.erase "type") := by
  intro k v hv hnull
  rw [KeyMap.get?_erase] at hv
  split at hv
  · cases hv
  · rename_i htype
    cases hk : Envelope.has k with
    | true =>
      rw [ho.get?_toFields_of_has hk] at hv
      simpa [misfit?, hk, htype] using misfit?_of_kept (ho.sound.kept?_envelope hv)
    | false =>
      rw [get?_toFields_of_not_has o hk] at hv
      have hfits := ho.sound.misfit?_body hv
      have hshape : (ofType o.type).body.shape = o.body.shape := ho.typed.symm
      simpa only [misfit?, hk, Bool.false_eq_true, if_false, Body.misfit?, hshape] using hfits

theorem changed_kept {keep : Json → Option Json} {v : Option Json}
    (hkeep : ∀ x, v = some x → keep x = some x ∧ x.isNull = false) : changed keep v none = v := by
  cases v with
  | none => rfl
  | some x =>
    obtain ⟨hx, hnull⟩ := hkeep x rfl
    simp [changed, hnull, hx]

/-- A well formed object is what its fields are read as. -/
theorem WellFormed.readsBack {o : Object} (ho : o.WellFormed) : o.ReadsBack := by
  have hnew := sound_ofType o.type
  obtain ⟨o', hlay⟩ := (exists_overlay_iff hnew).mpr (admits_own ho)
  have hshape : o'.shape = o.shape := (shape_overlay hlay).trans ho.typed.symm
  have hopen : (ofType o.type).body.kept? = o.body.kept? := by
    have heq : (ofType o.type).body.shape = o.body.shape := ho.typed.symm
    funext name v
    simp only [Body.kept?, heq]
  have henvelope (k : String) : o'.envelope.get? k = o.envelope.get? k := by
    rw [get?_overlay_envelope hnew hlay, KeyMap.get?_erase]
    by_cases htype : k = "type"
    · subst htype
      rfl
    · cases hk : Envelope.has k with
      | true =>
        have hkeep (x : Json) (hx : o.envelope.get? k = some x) :
            kept? Envelope.fieldSpecs k x = some x ∧ x.isNull = false :=
          ⟨ho.sound.kept?_envelope hx, isNull_of_kept (ho.sound.kept?_envelope hx)⟩
        rw [if_pos (by simpa using htype), if_neg htype, ho.get?_toFields_of_has hk,
          get?_ofType_envelope htype, changed_kept hkeep]
      | false => simp [get?_ofType_envelope htype, Envelope.get?_of_not_has hk]
  have hbody (k : String) : o'.body.fields.get? k = o.body.fields.get? k := by
    rw [get?_overlay_body hnew hlay]
    cases hk : Envelope.has k with
    | true =>
      rw [ho.get?_body_of_has hk]
      rfl
    | false =>
      have htype : k ≠ "type" := by
        rintro rfl
        cases hk
      have hkeep (x : Json) (hx : o.body.fields.get? k = some x) :
          o.body.kept? k x = some x ∧ x.isNull = false :=
        ⟨ho.sound.body k x hx, (ho.body hx).2⟩
      have hempty : (ofType o.type).body.fields.get? k = none := rfl
      rw [if_neg Bool.false_ne_true, KeyMap.get?_erase, if_neg htype, get?_toFields_of_not_has o hk,
        hempty, hopen, changed_kept hkeep]
  obtain rfl : o' = o := ext_get? hshape henvelope hbody
  exact ofFields_eq_ok_iff.mpr ⟨o'.type, get?_toFields_type o', ho.name, hlay⟩

theorem WellFormed.overlay {o o' : Object} {fields : FieldMap} (ho : o.WellFormed)
    (h : o.overlay fields = .ok o') : o'.WellFormed := by
  refine ⟨sound_overlay h, ?_, ho.typed.overlay ho.sound h, fun hshape k v hv => ?_⟩
  · rw [type_overlay ho.sound h]
    exact ho.name
  · rw [shape_overlay h] at hshape
    rw [get?_overlay_body ho.sound h] at hv
    cases hk : Envelope.has k with
    | true =>
      rw [hk, if_pos rfl, ho.get?_body_of_has hk] at hv
      cases hv
    | false =>
      refine ⟨rfl, ?_⟩
      rw [hk, if_neg Bool.false_ne_true] at hv
      cases hchange : fields.get? k with
      | none =>
        rw [hchange] at hv
        exact (ho.plain hshape k v hv).2
      | some x =>
        cases hnull : x.isNull with
        | true => simp [hchange, changed, hnull] at hv
        | false =>
          have hshape' : o.body.shape = none := hshape
          have hx : x = v := by simpa [hchange, changed, hnull, Body.kept?, hshape'] using hv
          rw [← hx, hnull]

theorem wellFormed_ofFields {fields : FieldMap} {o : Object} (h : ofFields fields = .ok o) :
    o.WellFormed := by
  obtain ⟨type, -, hname, hlay⟩ := ofFields_eq_ok_iff.mp h
  have hnew : (ofType type).WellFormed :=
    ⟨sound_ofType type, hname, rfl, fun _ k v hv => by cases hv⟩
  exact hnew.overlay hlay

theorem readsBack_iff {o : Object} : o.ReadsBack ↔ o.WellFormed :=
  ⟨wellFormed_ofFields, WellFormed.readsBack⟩

/-- Being well formed is a matter of the type and the body, as long as the times are sound. -/
theorem WellFormed.of_body_eq {o o' : Object} (ho : o.WellFormed) (henvelope : o'.envelope.Sound)
    (htype : o'.type = o.type) (hbody : o'.body = o.body) : o'.WellFormed := by
  have hshape : o'.shape = o.shape := congrArg Body.shape hbody
  refine ⟨⟨henvelope, hbody ▸ ho.sound.body⟩, htype ▸ ho.name, ho.typed.of_eq htype hshape, ?_⟩
  intro hopen k v hv
  rw [hbody] at hv
  exact ho.plain (hshape ▸ hopen) k v hv

theorem WellFormed.mergeFrom {o other merged : Object} (ho : o.WellFormed)
    (h : o.mergeFrom other = .ok merged) : merged.WellFormed :=
  ho.overlay (mergeFrom_eq_ok_iff.mp h)

theorem WellFormed.apply {o o' : Object} {fields : FieldMap} {filter : FieldFilter}
    (ho : o.WellFormed) (h : FieldNames.apply o fields filter = .ok o') : o'.WellFormed := by
  simp only [FieldNames.apply, mapError_eq_ok_iff] at h
  exact ho.overlay h

theorem wellFormed_toObjectThrough {names : FieldNames} {fields : FieldMap} {filter : FieldFilter}
    {o : Object} (h : names.toObjectThrough fields filter = .ok o) : o.WellFormed := by
  unfold FieldNames.toObjectThrough at h
  simp only [bind, Except.bind] at h
  split at h
  · cases h
  · rename_i head hhead
    exact (wellFormed_ofFields hhead).apply h

end Object

theorem App.wellFormed_toObject {a : App} (ha : a.WellFormed) : a.toObject.WellFormed := by
  refine ⟨App.sound_toObject ha.sound, ?_, App.typed_toObject ha.type, fun hshape => by cases hshape⟩
  have htype : a.toObject.type = "app" := ha.type
  rw [htype]
  decide

end ObjectDepot
