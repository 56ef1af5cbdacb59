import ObjectDepot.FieldNames
import ObjectDepot.Proofs.Overlay

/-! Objects made of the fields of a client. Whatever the fields, an object that comes out has the
shape of its type; one that is made for an update carries nothing that is locked for its type. -/

namespace ObjectDepot

namespace Object

theorem get?_ofType_envelope {type k : String} (hk : k ≠ "type") :
    (ofType type).envelope.get? k = none := by
  unfold Envelope.get?
  split <;> first | rfl | exact absurd rfl hk

theorem type_overlay {o o' : Object} {fields : FieldMap} (ho : o.Sound)
    (h : o.overlay fields = .ok o') : o'.type = o.type := by
  have ht := get?_overlay_envelope ho h "type"
  exact Json.str.inj (Option.some.inj ht)

theorem isLocked_of_shape_eq {o o' : Object} (h : o'.shape = o.shape) (field : String) :
    o'.isLocked field = o.isLocked field := by
  simp only [isLocked, h]

theorem kept?_of_shape_eq {o o' : Object} (h : o'.shape = o.shape) :
    o'.body.kept? = o.body.kept? := by
  have h' : o'.body.shape = o.body.shape := h
  funext name v
  simp only [Body.kept?, h']

theorem typeOf_eq_ok_iff {fields : FieldMap} {type : String} :
    typeOf fields = .ok type ↔ fields.get? "type" = some (.str type) ∧ TypeName.isValid type := by
  unfold typeOf
  split
  · rename_i h
    simp [h]
  · rename_i h
    simp [h]
  · rename_i t h
    simp only [h, Option.some.injEq, Json.str.injEq]
    split
    · rename_i hv
      constructor
      · rintro ⟨⟩
        exact ⟨rfl, hv⟩
      · rintro ⟨rfl, -⟩
        rfl
    · rename_i hv
      split <;> simp <;> rintro rfl <;> simpa using hv
  · rename_i v hnull hstr h
    simp only [reduceCtorEq, h, Option.some.injEq, false_iff, not_and]
    rintro rfl
    exact absurd rfl (hstr type)

theorem ofFields_eq_ok_iff {fields : FieldMap} {o : Object} :
    ofFields fields = .ok o ↔
      ∃ type, fields.get? "type" = some (.str type) ∧ TypeName.isValid type ∧
        (ofType type).overlay (fields.erase "type") = .ok o := by
  unfold ofFields
  cases ht : typeOf fields with
  | error e =>
    simp only [bind, Except.bind, reduceCtorEq, false_iff, not_exists, not_and]
    intro type h hv
    rw [typeOf_eq_ok_iff.mpr ⟨h, hv⟩] at ht
    cases ht
  | ok type =>
    obtain ⟨hget, hv⟩ := typeOf_eq_ok_iff.mp ht
    simp [bind, Except.bind, mapError_eq_ok_iff, hget, hv]

theorem sound_ofFields {fields : FieldMap} {o : Object} (h : ofFields fields = .ok o) :
    o.Sound := by
  obtain ⟨type, -, -, ho⟩ := ofFields_eq_ok_iff.mp h
  exact sound_overlay ho

theorem shape_ofFields {fields : FieldMap} {o : Object} (h : ofFields fields = .ok o) :
    o.shape = Shape.ofSingular? o.type := by
  obtain ⟨type, -, -, ho⟩ := ofFields_eq_ok_iff.mp h
  rw [shape_overlay ho, type_overlay (sound_ofType type) ho]
  rfl

end Object

namespace FieldNames

theorem toFields_default (o : Object) : ({} : FieldNames).toFields o = o.toFields := by
  rw [toFields, KeyMap.rename_self, KeyMap.rename_self]

theorem normalize_default (fields : FieldMap) :
    ({} : FieldNames).normalize fields = fields.erase "shardkey" := by
  rw [normalize, KeyMap.rename_self, KeyMap.rename_self]

theorem toObject_default (fields : FieldMap) :
    ({} : FieldNames).toObject fields = Object.ofFields (fields.erase "shardkey") := by
  rw [toObject, normalize_default]

theorem apply_eq_ok_iff {o o' : Object} {fields : FieldMap} :
    apply o fields .skipLocked = .ok o' ↔
      o.overlay (fields.filter (fun name _ => !o.isLocked name)) = .ok o' := by
  simp only [apply, mapError_eq_ok_iff]

theorem sound_apply {o o' : Object} {fields : FieldMap} {filter : FieldFilter}
    (h : apply o fields filter = .ok o') : o'.Sound := by
  simp only [apply, mapError_eq_ok_iff] at h
  exact Object.sound_overlay h

theorem get?_filter_unlocked (o : Object) (fields : FieldMap) (k : String) :
    (fields.filter (fun name _ => !o.isLocked name)).get? k =
      if o.isLocked k then none else fields.get? k := by
  rw [KeyMap.get?_filter_keys]
  cases o.isLocked k <;> rfl

def headOf (fields : FieldMap) : FieldMap :=
  fields.filter (fun name _ => name = "type" || name = "id")

theorem toObjectThrough_eq_ok_iff {names : FieldNames} {fields : FieldMap} {o : Object} :
    names.toObjectThrough fields .skipLocked = .ok o ↔
      ∃ head, Object.ofFields (headOf (names.normalize fields)) = .ok head ∧
        apply head ((names.normalize fields).filter (fun name _ => !(name = "type" || name = "id")))
          .skipLocked = .ok o := by
  unfold toObjectThrough
  simp only [bind, Except.bind, headOf]
  cases Object.ofFields ((names.normalize fields).filter
      (fun name _ => name = "type" || name = "id")) with
  | error e => simp
  | ok head => simp

theorem get?_headOf (fields : FieldMap) (k : String) :
    (headOf fields).get? k = if k = "type" ∨ k = "id" then fields.get? k else none := by
  rw [headOf, KeyMap.get?_filter_keys]
  simp only [Bool.or_eq_true, decide_eq_true_eq]

/-- The object that is made first: it has a type, perhaps an identifier, and nothing else. -/
theorem head_spec {fields : FieldMap} {head : Object}
    (h : Object.ofFields (headOf fields) = .ok head) :
    head.Sound ∧ (∀ k, k ≠ "type" → k ≠ "id" → head.envelope.get? k = none) ∧
      ∀ k, head.body.fields.get? k = none := by
  obtain ⟨type, -, -, hlay⟩ := Object.ofFields_eq_ok_iff.mp h
  have hnew {k : String} (htype : k ≠ "type") (hid : k ≠ "id") :
      ((headOf fields).erase "type").get? k = none := by
    simp [KeyMap.get?_erase, get?_headOf, htype, hid]
  refine ⟨Object.sound_ofFields h, fun k htype hid => ?_, fun k => ?_⟩
  · rw [Object.get?_overlay_envelope (Object.sound_ofType type) hlay, hnew htype hid]
    simp [changed, Object.get?_ofType_envelope htype]
  · rw [Object.get?_overlay_body (Object.sound_ofType type) hlay]
    cases hhas : Envelope.has k with
    | true => rfl
    | false =>
      have hne {name : String} (hname : Envelope.has name) : k ≠ name := by
        rintro rfl
        simp [hhas] at hname
      rw [if_neg Bool.false_ne_true, hnew (hne rfl) (hne rfl)]
      rfl

/-- An object with nothing but its type, its identifier and fields that are not locked for it. -/
structure OnlyUnlocked (o : Object) : Prop where
  sound : o.Sound
  shape : o.shape = Shape.ofSingular? o.type
  locked : ∀ k, o.isLocked k → k ≠ "id" → k ≠ "type" → o.toFields.get? k = none
  body : ∀ k, Envelope.has k → o.body.fields.get? k = none

theorem onlyUnlocked_toObjectThrough {names : FieldNames} {fields : FieldMap} {o : Object}
    (h : names.toObjectThrough fields .skipLocked = .ok o) : OnlyUnlocked o := by
  obtain ⟨head, hhead, happly⟩ := toObjectThrough_eq_ok_iff.mp h
  have hlay := apply_eq_ok_iff.mp happly
  obtain ⟨hsound, henv, hbody⟩ := head_spec hhead
  have hshape := Object.shape_overlay hlay
  refine ⟨sound_apply happly, ?_, fun k hk hid htype => ?_, fun k hk => ?_⟩
  · rw [hshape, Object.type_overlay hsound hlay]
    exact Object.shape_ofFields hhead
  · have hlocked : head.isLocked k = true := by
      rw [← hk, Object.isLocked_of_shape_eq hshape]
    rw [Object.get?_toFields, Object.get?_overlay_envelope hsound hlay,
      Object.get?_overlay_body hsound hlay, get?_filter_unlocked, hlocked, if_pos rfl, hbody]
    simp [changed, henv k htype hid]
  · rw [Object.get?_overlay_body hsound hlay, if_pos hk, hbody]

end FieldNames
end ObjectDepot
