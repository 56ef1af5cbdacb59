import ObjectDepot.Proofs.FieldReading
import ObjectDepot.Envelope

/-! The envelope through its fields: it is determined by them, and reading back the fields of an
envelope, or fields that fit and tell a type, gives an envelope with just these fields. -/

namespace ObjectDepot.Envelope

theorem get?_of_not_has {e : Envelope} {k : String} (h : has k = false) : e.get? k = none := by
  unfold get?
  split <;> first | rfl | exact absurd h (by decide)

theorem get?_toFields (e : Envelope) (k : String) : e.toFields.get? k = e.get? k := by
  rw [toFields, get?_ofList_specs]
  split
  · rfl
  · rename_i h
    exact (get?_of_not_has (by simpa [has, spec?] using h)).symm

theorem ofStrings_injective {a b : List String} (h : Json.ofStrings a = Json.ofStrings b) :
    a = b := by
  have hm : a.map Json.str = b.map Json.str := by simpa [Json.ofStrings] using h
  exact List.map_inj_right (fun _ _ h => Json.str.inj h) |>.mp hm

theorem ext_get? {e e' : Envelope} (h : ∀ k, e.get? k = e'.get? k) : e = e' := by
  have texts {a b : Option String} (hab : a.map Json.str = b.map Json.str) : a = b :=
    Option.map_injective (fun _ _ h => Json.str.inj h) hab
  have times {a b : Option Int} (hab : a.map Json.int = b.map Json.int) : a = b :=
    Option.map_injective (fun _ _ h => Json.int.inj h) hab
  have type : e.type = e'.type := by simpa [get?] using h "type"
  have tags : e.tags = e'.tags := by
    have ht := h "tags"
    simp only [get?, List.isEmpty_iff] at ht
    split at ht <;> split at ht <;> simp_all
    exact ofStrings_injective ht
  cases e
  cases e'
  simp only [Envelope.mk.injEq]
  exact ⟨texts (h "id"), type, texts (h "appid"), texts (h "parentid"), texts (h "creatorid"),
    texts (h "name"), tags, times (h "timestamp"), times (h "updated"), texts (h "shardkey")⟩

/-- The times are 64-bit integers; the other fields can hold any value. -/
structure Sound (e : Envelope) : Prop where
  timestamp : ∀ t, e.timestamp = some t → IsInt64 t
  updated : ∀ t, e.updated = some t → IsInt64 t

theorem Sound.kept_toFields {e : Envelope} (he : e.Sound) : Kept fieldSpecs e.toFields := by
  intro k v h
  rw [get?_toFields] at h
  have text {o : Option String} {f : FieldSpec} (hf : specOf? fieldSpecs k = some f)
      (hk : f.kind = .text) (ho : o.map Json.str = some v) :
      ∃ f, specOf? fieldSpecs k = some f ∧ f.kind.read v = .ok (some v) := by
    obtain ⟨s, -, rfl⟩ := Option.map_eq_some_iff.mp ho
    exact ⟨f, hf, hk ▸ FieldKind.read_text_self_iff.mpr ⟨s, rfl⟩⟩
  have time {o : Option Int} {f : FieldSpec} (hf : specOf? fieldSpecs k = some f)
      (hk : f.kind = .integer) (hr : ∀ t, o = some t → IsInt64 t) (ho : o.map Json.int = some v) :
      ∃ f, specOf? fieldSpecs k = some f ∧ f.kind.read v = .ok (some v) := by
    obtain ⟨t, ht, rfl⟩ := Option.map_eq_some_iff.mp ho
    exact ⟨f, hf, hk ▸ FieldKind.read_integer_self_iff.mpr ⟨t, hr t ht, rfl⟩⟩
  refine kept?_eq_some_iff.mpr ⟨rfl, ?_⟩
  unfold get? at h
  split at h
  · exact text rfl rfl h
  · cases h
    exact ⟨_, rfl, FieldKind.read_properText_self_iff.mpr ⟨_, rfl⟩⟩
  · exact text rfl rfl h
  · exact text rfl rfl h
  · exact time rfl rfl he.timestamp h
  · exact text rfl rfl h
  · exact text rfl rfl h
  · split at h
    · cases h
    · rename_i hne
      cases h
      exact ⟨_, rfl, FieldKind.read_texts_self_iff.mpr ⟨_, by simpa using hne, rfl⟩⟩
  · exact time rfl rfl he.updated h
  · exact text rfl rfl h
  · cases h

theorem textOf?_map {m : FieldMap} (hm : Kept fieldSpecs m) {k : String} {f : FieldSpec}
    (hf : specOf? fieldSpecs k = some f) (hk : f.kind = .text) :
    (textOf? m k).map .str = m.get? k := by
  cases hv : m.get? k with
  | none => simp [textOf?, hv]
  | some v =>
    obtain ⟨s, rfl⟩ := FieldKind.read_text_self_iff.mp (hk ▸ hm.read_of_declared hf hv)
    simp [textOf?, hv, Json.str?]

theorem integerOf?_spec {m : FieldMap} (hm : Kept fieldSpecs m) {k : String} {f : FieldSpec}
    (hf : specOf? fieldSpecs k = some f) (hk : f.kind = .integer) :
    (integerOf? m k).map .int = m.get? k ∧ ∀ t, integerOf? m k = some t → IsInt64 t := by
  cases hv : m.get? k with
  | none => simp [integerOf?, hv]
  | some v =>
    obtain ⟨n, hn, rfl⟩ := FieldKind.read_integer_self_iff.mp (hk ▸ hm.read_of_declared hf hv)
    simp [integerOf?, hv, hn]

theorem filterMap_str? (texts : List String) :
    (texts.map Json.str).filterMap Json.str? = texts := by
  induction texts with
  | nil => rfl
  | cons t texts ih => simpa [Json.str?] using ih

/-- Fields that fit and tell the type are the fields of the envelope read out of them. -/
theorem get?_ofReadFields {m : FieldMap} (hm : Kept fieldSpecs m) {type : String}
    (ht : m.get? "type" = some (.str type)) (k : String) : (ofReadFields m).get? k = m.get? k := by
  unfold get?
  split
  · exact textOf?_map hm rfl rfl
  · rw [ht]
    simp [ofReadFields, textOf?, ht, Json.str?]
  · exact textOf?_map hm rfl rfl
  · exact textOf?_map hm rfl rfl
  · exact (integerOf?_spec hm rfl rfl).1
  · exact textOf?_map hm rfl rfl
  · exact textOf?_map hm rfl rfl
  · cases hv : m.get? "tags" with
    | none => simp [ofReadFields, textsOf, hv]
    | some v =>
      obtain ⟨texts, hne, rfl⟩ := FieldKind.read_texts_self_iff.mp (hm.read_of_declared rfl hv)
      have htexts : textsOf m "tags" = texts := by
        simp only [textsOf, hv, Json.ofStrings, filterMap_str?]
      simp [ofReadFields, htexts, hne]
  · exact (integerOf?_spec hm rfl rfl).1
  · exact textOf?_map hm rfl rfl
  · rename_i h1 h2 h3 h4 h5 h6 h7 h8 h9 h10
    refine (hm.get?_of_undeclared ?_).symm
    simp [specOf?, fieldSpecs, lockedField, openField, Ne.symm h1, Ne.symm h2, Ne.symm h3,
      Ne.symm h4, Ne.symm h5, Ne.symm h6, Ne.symm h7, Ne.symm h8, Ne.symm h9, Ne.symm h10]

theorem sound_ofReadFields {m : FieldMap} (hm : Kept fieldSpecs m) : (ofReadFields m).Sound :=
  ⟨(integerOf?_spec hm rfl rfl).2, (integerOf?_spec hm rfl rfl).2⟩

end ObjectDepot.Envelope
