import ObjectDepot.Proofs.ObjectFields

/-! Laying fields over an object, field by field: a field that is not among the changes stays, null
takes it away, and another value replaces it. This goes through exactly when the values fit, and
which values fit depends on the shape of the object alone. -/

namespace ObjectDepot

/-- What a field holds after a change of which something may be kept. -/
def changed (keep : Json → Option Json) (change old : Option Json) : Option Json :=
  match change with
  | none => old
  | some v => if v.isNull then none else keep v

theorem changed_bind {keep : Json → Option Json} {change old : Option Json}
    (h : ∀ v, old = some v → keep v = some v) :
    (changed some change old).bind keep = changed keep change old := by
  cases change with
  | none =>
    cases old with
    | none => rfl
    | some v => exact h v rfl
  | some v => cases hv : v.isNull <;> simp [changed, hv]

namespace Body

theorem withFields_eq_ok_iff {b b' : Body} {fields : FieldMap} :
    b.withFields fields = .ok b' ↔
      b'.shape = b.shape ∧
        (∀ name v, fields.get? name = some v → b.misfit? name v = none) ∧
        b'.fields = fields.filterMap b.kept? := by
  obtain ⟨shape, old⟩ := b
  obtain ⟨shape', new⟩ := b'
  cases shape with
  | none =>
    have hkept : fields.filterMap (kept? ⟨none, old⟩) = fields := by
      refine KeyMap.ext (fun k => ?_)
      rw [KeyMap.get?_filterMap]
      cases fields.get? k <;> rfl
    rw [hkept]
    simp [withFields, misfit?, eq_comm]
  | some s =>
    have hkept : kept? ⟨some s, old⟩ = ObjectDepot.kept? s.fields := rfl
    rw [hkept]
    simp only [withFields, misfit?, map_eq_ok_iff, readFields_eq_ok_iff, Fits, Body.mk.injEq]
    constructor
    · rintro ⟨read, ⟨hfits, rfl⟩, rfl, rfl⟩
      exact ⟨rfl, hfits, rfl⟩
    · rintro ⟨rfl, hfits, rfl⟩
      exact ⟨_, ⟨hfits, rfl⟩, rfl, rfl⟩

theorem sound_withFields {b b' : Body} {fields : FieldMap} (h : b.withFields fields = .ok b') :
    b'.Sound := by
  obtain ⟨hs, -, hf⟩ := withFields_eq_ok_iff.mp h
  intro name v hv
  rw [hf, KeyMap.get?_filterMap] at hv
  obtain ⟨u, -, hu⟩ := Option.bind_eq_some_iff.mp hv
  have hb : b'.kept? = b.kept? := by
    funext name v
    simp only [kept?, hs]
  rw [hb]
  cases hshape : b.shape with
  | none => simp [kept?, hshape]
  | some s =>
    simp only [kept?, hshape] at hu ⊢
    exact kept?_self hu

end Body

namespace Object

theorem get?_patch (fields changes : FieldMap) (k : String) :
    (patch fields changes).get? k = changed some (changes.get? k) (fields.get? k) := by
  rw [patch, KeyMap.get?_extend, KeyMap.get?_filter, KeyMap.get?_filter, KeyMap.contains]
  cases hc : changes.get? k with
  | none => cases fields.get? k <;> simp [changed]
  | some v => cases hv : v.isNull <;> cases fields.get? k <;> simp [changed, hv, Option.filter]

def envelopeChanges (fields : FieldMap) : FieldMap :=
  fields.filter (fun name _ => Envelope.has name && name != "type")

def bodyChanges (o : Object) (fields : FieldMap) : FieldMap :=
  fields.filter (fun name _ => !Envelope.has name && o.accepts name)

theorem overlay_eq_ok_iff {o o' : Object} {fields : FieldMap} :
    o.overlay fields = .ok o' ↔
      Envelope.ofFields (patch o.envelope.toFields (envelopeChanges fields)) = .ok o'.envelope ∧
        o.body.withFields (patch o.body.fields (o.bodyChanges fields)) = .ok o'.body := by
  obtain ⟨envelope', body'⟩ := o'
  unfold overlay
  simp only [bind, Except.bind, pure, Except.pure, envelopeChanges, bodyChanges]
  cases Envelope.ofFields (patch o.envelope.toFields
      (fields.filter (fun name _ => Envelope.has name && name != "type"))) with
  | error e => simp
  | ok envelope =>
    cases o.body.withFields (patch o.body.fields
        (fields.filter (fun name _ => !Envelope.has name && o.accepts name))) with
    | error e => simp
    | ok body => simp

theorem get?_envelopeChanges (fields : FieldMap) (k : String) :
    (envelopeChanges fields).get? k =
      if Envelope.has k && k != "type" then fields.get? k else none := by
  rw [envelopeChanges, KeyMap.get?_filter_keys]

theorem get?_bodyChanges (o : Object) (fields : FieldMap) (k : String) :
    (o.bodyChanges fields).get? k =
      if !Envelope.has k && o.accepts k then fields.get? k else none := by
  rw [bodyChanges, KeyMap.get?_filter_keys]

/-- The envelope holds what can be read of the patched fields. -/
theorem get?_overlay_envelope_read {o o' : Object} {fields : FieldMap}
    (h : o.overlay fields = .ok o') (k : String) :
    o'.envelope.get? k =
      (changed some ((envelopeChanges fields).get? k) (o.envelope.get? k)).bind
        (kept? Envelope.fieldSpecs k) := by
  obtain ⟨r, hr, he⟩ := map_eq_ok_iff.mp (overlay_eq_ok_iff.mp h).1
  have hget (k : String) : r.get? k =
      (changed some ((envelopeChanges fields).get? k) (o.envelope.get? k)).bind
        (kept? Envelope.fieldSpecs k) := by
    rw [get?_readFields hr, get?_patch, Envelope.get?_toFields]
  have htype : r.get? "type" = some (.str o.envelope.type) := by
    rw [hget, get?_envelopeChanges]
    rfl
  rw [← he, Envelope.get?_ofReadFields (kept_readFields hr) htype, hget]

theorem get?_overlay_envelope {o o' : Object} {fields : FieldMap} (ho : o.Sound)
    (h : o.overlay fields = .ok o') (k : String) :
    o'.envelope.get? k =
      if Envelope.has k && k != "type" then
        changed (kept? Envelope.fieldSpecs k) (fields.get? k) (o.envelope.get? k)
      else o.envelope.get? k := by
  have hold (v : Json) (hv : o.envelope.get? k = some v) :
      kept? Envelope.fieldSpecs k v = some v :=
    ho.envelope.kept_toFields k v (by rw [Envelope.get?_toFields, hv])
  rw [get?_overlay_envelope_read h, changed_bind hold, get?_envelopeChanges]
  split <;> rfl

theorem shape_overlay {o o' : Object} {fields : FieldMap} (h : o.overlay fields = .ok o') :
    o'.shape = o.shape := (Body.withFields_eq_ok_iff.mp (overlay_eq_ok_iff.mp h).2).1

theorem undeclared_of_not_accepts {o : Object} {k : String} (h : o.accepts k = false) :
    ∃ s, o.body.shape = some s ∧ specOf? s.fields k = none := by
  simp only [accepts, Bool.or_eq_false_iff] at h
  cases hs : o.body.shape with
  | none => simp [shape, hs] at h
  | some s => exact ⟨s, rfl, by simpa [shape, hs, Shape.declares] using h.2⟩

theorem kept?_of_not_accepts {o : Object} {k : String} (h : o.accepts k = false) (v : Json) :
    o.body.kept? k v = none := by
  obtain ⟨s, hs, hk⟩ := undeclared_of_not_accepts h
  simp [Body.kept?, hs, kept?_of_undeclared hk]

theorem get?_body_of_not_accepts {o : Object} (ho : o.Sound) {k : String}
    (h : o.accepts k = false) : o.body.fields.get? k = none := by
  cases hv : o.body.fields.get? k with
  | none => rfl
  | some v => simpa [kept?_of_not_accepts h v] using ho.body k v hv

theorem get?_overlay_body {o o' : Object} {fields : FieldMap} (ho : o.Sound)
    (h : o.overlay fields = .ok o') (k : String) :
    o'.body.fields.get? k =
      if Envelope.has k then o.body.fields.get? k
      else changed (o.body.kept? k) (fields.get? k) (o.body.fields.get? k) := by
  obtain ⟨-, -, hf⟩ := Body.withFields_eq_ok_iff.mp (overlay_eq_ok_iff.mp h).2
  rw [hf, KeyMap.get?_filterMap, get?_patch, changed_bind (ho.body k), get?_bodyChanges]
  cases hk : Envelope.has k with
  | true => rfl
  | false =>
    cases ha : o.accepts k with
    | true => rfl
    | false =>
      have hkept := kept?_of_not_accepts ha
      have hold := get?_body_of_not_accepts ho ha
      cases fields.get? k <;> simp [changed, hkept, hold]

theorem sound_overlay {o o' : Object} {fields : FieldMap} (h : o.overlay fields = .ok o') :
    o'.Sound := by
  obtain ⟨he, hb⟩ := overlay_eq_ok_iff.mp h
  obtain ⟨r, hr, he⟩ := map_eq_ok_iff.mp he
  exact ⟨he ▸ Envelope.sound_ofReadFields (kept_readFields hr), Body.sound_withFields hb⟩

/-- Why a value cannot be laid over a field; the type is never laid over. -/
def misfit? (o : Object) (name : String) (v : Json) : Option FieldFault :=
  if Envelope.has name then
    if name = "type" then none else ObjectDepot.misfit? Envelope.fieldSpecs name v
  else o.body.misfit? name v

/-- Every change either takes a field away or fits. -/
def Admits (o : Object) (fields : FieldMap) : Prop :=
  ∀ name v, fields.get? name = some v → v.isNull = false → o.misfit? name v = none

theorem Admits.of_shape_eq {o o' : Object} {fields : FieldMap} (h : o.Admits fields)
    (hs : o'.shape = o.shape) : o'.Admits fields := by
  intro name v hv hn
  have hm := h name v hv hn
  have hs' : o'.body.shape = o.body.shape := hs
  simpa only [misfit?, Body.misfit?, hs'] using hm

theorem Admits.of_le {o : Object} {fields fields' : FieldMap} (h : o.Admits fields)
    (hle : ∀ k v, fields'.get? k = some v → fields.get? k = some v) : o.Admits fields' :=
  fun k v hv => h k v (hle k v hv)

theorem patch_fits_iff {fits : String → Json → Prop} {fields changes : FieldMap}
    (hold : ∀ k v, fields.get? k = some v → fits k v) :
    (∀ k v, (patch fields changes).get? k = some v → fits k v) ↔
      ∀ k v, changes.get? k = some v → v.isNull = false → fits k v := by
  constructor
  · intro h k v hv hn
    refine h k v ?_
    simp [get?_patch, changed, hv, hn]
  · intro h k v hv
    rw [get?_patch] at hv
    cases hc : changes.get? k with
    | none =>
      rw [hc] at hv
      exact hold k v hv
    | some u =>
      rw [hc] at hv
      cases hn : u.isNull with
      | true => simp [changed, hn] at hv
      | false =>
        obtain rfl : u = v := by simpa [changed, hn] using hv
        exact h k u hc hn

theorem Sound.misfit?_body {o : Object} (ho : o.Sound) {k : String} {v : Json}
    (hv : o.body.fields.get? k = some v) : o.body.misfit? k v = none := by
  have hk := ho.body k v hv
  cases hs : o.body.shape with
  | none => simp [Body.misfit?, hs]
  | some s =>
    simp only [Body.kept?, Body.misfit?, hs] at hk ⊢
    exact misfit?_of_kept hk

theorem misfit?_of_not_accepts {o : Object} {k : String} (h : o.accepts k = false) (v : Json) :
    o.body.misfit? k v = none := by
  obtain ⟨s, hs, hk⟩ := undeclared_of_not_accepts h
  simp [Body.misfit?, hs, misfit?_of_undeclared hk]

theorem exists_withFields_iff {b : Body} {fields : FieldMap} :
    (∃ b', b.withFields fields = .ok b') ↔
      ∀ name v, fields.get? name = some v → b.misfit? name v = none := by
  constructor
  · rintro ⟨b', h⟩
    exact (Body.withFields_eq_ok_iff.mp h).2.1
  · intro h
    exact ⟨⟨b.shape, fields.filterMap b.kept?⟩, Body.withFields_eq_ok_iff.mpr ⟨rfl, h, rfl⟩⟩

theorem exists_ofFields_iff {fields : FieldMap} :
    (∃ e, Envelope.ofFields fields = .ok e) ↔ Fits Envelope.fieldSpecs fields := by
  rw [← exists_readFields_iff]
  constructor
  · rintro ⟨e, h⟩
    obtain ⟨r, hr, -⟩ := map_eq_ok_iff.mp h
    exact ⟨r, hr⟩
  · rintro ⟨r, hr⟩
    exact ⟨_, map_eq_ok_iff.mpr ⟨r, hr, rfl⟩⟩

theorem admits_iff {o : Object} {fields : FieldMap} :
    o.Admits fields ↔
      (∀ k v, (envelopeChanges fields).get? k = some v → v.isNull = false →
        ObjectDepot.misfit? Envelope.fieldSpecs k v = none) ∧
      ∀ k v, (o.bodyChanges fields).get? k = some v → v.isNull = false →
        o.body.misfit? k v = none := by
  simp only [get?_envelopeChanges, get?_bodyChanges, Admits, misfit?]
  constructor
  · intro h
    refine ⟨fun k v hv hn => ?_, fun k v hv hn => ?_⟩
    · split at hv
      · rename_i hk
        simp only [Bool.and_eq_true, bne_iff_ne, ne_eq] at hk
        simpa [hk.1, hk.2] using h k v hv hn
      · cases hv
    · split at hv
      · rename_i hk
        simp only [Bool.and_eq_true, Bool.not_eq_true'] at hk
        simpa [hk.1] using h k v hv hn
      · cases hv
  · rintro ⟨he, hb⟩ k v hv hn
    cases hk : Envelope.has k with
    | true =>
      by_cases ht : k = "type"
      · simp [ht]
      · simpa [ht] using he k v (by simp [hk, ht, hv]) hn
    | false =>
      cases ha : o.accepts k with
      | true => simpa using hb k v (by simp [hk, ha, hv]) hn
      | false => simpa using misfit?_of_not_accepts ha v

theorem exists_overlay_iff {o : Object} (ho : o.Sound) {fields : FieldMap} :
    (∃ o', o.overlay fields = .ok o') ↔ o.Admits fields := by
  have henvelope : (∃ e, Envelope.ofFields (patch o.envelope.toFields (envelopeChanges fields)) =
      .ok e) ↔ ∀ k v, (envelopeChanges fields).get? k = some v → v.isNull = false →
        ObjectDepot.misfit? Envelope.fieldSpecs k v = none := by
    rw [exists_ofFields_iff]
    exact patch_fits_iff ho.envelope.kept_toFields.fits
  have hbody : (∃ b, o.body.withFields (patch o.body.fields (o.bodyChanges fields)) = .ok b) ↔
      ∀ k v, (o.bodyChanges fields).get? k = some v → v.isNull = false →
        o.body.misfit? k v = none := by
    rw [exists_withFields_iff]
    exact patch_fits_iff (fun k v => ho.misfit?_body)
  have hboth : (∃ o', o.overlay fields = .ok o') ↔
      (∃ e, Envelope.ofFields (patch o.envelope.toFields (envelopeChanges fields)) = .ok e) ∧
        ∃ b, o.body.withFields (patch o.body.fields (o.bodyChanges fields)) = .ok b := by
    simp only [overlay_eq_ok_iff]
    exact ⟨fun ⟨o', he, hb⟩ => ⟨⟨_, he⟩, _, hb⟩, fun ⟨⟨e, he⟩, b, hb⟩ => ⟨⟨e, b⟩, he, hb⟩⟩
  rw [hboth, henvelope, hbody, admits_iff]

end Object
end ObjectDepot
