import ObjectDepot.Proofs.Overlay

/-! What an object keeps of the values that are laid over it. A value that fits is kept as it is,
unless it is empty. Of the fields that an update may touch the tags alone can be empty, so that a
value is lost only where the shape of a body does not declare its field. -/

namespace ObjectDepot

theorem Json.eq_of_asTextMap {v : Json} {texts : KeyMap String} (h : v.asTextMap = .ok texts)
    (hempty : texts.isEmpty) : v = .obj [] := by
  cases v with
  | obj members =>
    obtain ⟨entries, hread, rfl⟩ : ∃ entries,
        members.mapM (fun m => (asText m.2).map (m.1, ·)) = .ok entries ∧
          KeyMap.ofList entries = texts := map_eq_ok_iff.mp h
    obtain rfl := KeyMap.eq_nil_of_ofList hempty
    cases members with
    | nil => rfl
    | cons m members =>
      rw [List.mapM_cons] at hread
      cases hm : asText m.2 with
      | error e =>
        rw [hm] at hread
        cases hread
      | ok text =>
        cases hrest : members.mapM (fun m => (asText m.2).map (m.1, ·)) <;>
          rw [hm, hrest] at hread <;> cases hread
  | _ => cases h

theorem FieldKind.read_eq_none {k : FieldKind} {v : Json} (h : k.read v = .ok none) :
    v = .null ∨ k = .texts ∧ v = .arr [] ∨ k = .textMap ∧ v = .obj [] := by
  have never {α : Type} {x : Except String α} (hx : x.map (fun _ => some v) = .ok none) : False := by
    obtain ⟨a, -, ha⟩ := map_eq_ok_iff.mp hx
    cases ha
  unfold FieldKind.read at h
  split at h
  · exact .inl rfl
  · exact (never h).elim
  · exact (never h).elim
  · exact .inl rfl
  · exact (never h).elim
  · exact .inl rfl
  · exact (never h).elim
  · obtain ⟨texts, hread, hempty⟩ := map_eq_ok_iff.mp h
    split at hempty
    · rename_i hnil
      refine .inr (.inl ⟨rfl, ?_⟩)
      cases v with
      | arr items =>
        rw [Json.asTexts, mapM_asText_eq_ok_iff, List.isEmpty_iff.mp hnil] at hread
        rw [hread]
        rfl
      | _ => cases hread
    · cases hempty
  · obtain ⟨texts, hread, hempty⟩ := map_eq_ok_iff.mp h
    split at hempty
    · rename_i hnil
      exact .inr (.inr ⟨rfl, Json.eq_of_asTextMap hread hnil⟩)
    · cases hempty

theorem FieldKind.read_null_ne (k : FieldKind) : k.read .null ≠ .ok (some .null) := by
  cases k <;> simp [FieldKind.read, Json.asText, Json.asTexts, Json.asTextMap, Except.map]

/-- A value that fits is kept, unless it is null or empty. -/
theorem kept?_of_fits {specs : List FieldSpec} {name : String} {f : FieldSpec} {v : Json}
    (hf : specOf? specs name = some f) (hfits : misfit? specs name v = none)
    (hnull : v.isNull = false) (htexts : f.kind = .texts → v ≠ .arr [])
    (hmap : f.kind = .textMap → v ≠ .obj []) : kept? specs name v = some v := by
  simp only [misfit?, hf] at hfits
  cases hr : f.kind.read v with
  | error message => simp [hr] at hfits
  | ok w =>
    cases w with
    | none =>
      rcases FieldKind.read_eq_none hr with rfl | ⟨hkind, h⟩ | ⟨hkind, h⟩
      · cases hnull
      · exact absurd h (htexts hkind)
      · exact absurd h (hmap hkind)
    | some w => exact kept?_eq_some_iff.mpr ⟨rfl, f, hf, FieldKind.read_eq_some hr ▸ hr⟩

/-- Of the fields of the envelope that are not locked, the tags alone may be an empty list. -/
theorem Envelope.kind_of_unlocked {name : String} {f : FieldSpec} (hf : spec? name = some f)
    (hlocked : f.locked = false) : f.kind ≠ .textMap ∧ (f.kind = .texts → name = "tags") := by
  have htable : ∀ f ∈ fieldSpecs, f.locked = false →
      f.kind ≠ .textMap ∧ (f.kind = .texts → f.name = "tags") := by decide
  rw [spec?, specOf?] at hf
  obtain ⟨hmap, htexts⟩ := htable f (List.mem_of_find?_eq_some hf) hlocked
  have hname : f.name = name := by simpa using List.find?_some hf
  exact ⟨hmap, fun hkind => hname.symm.trans (htexts hkind)⟩

theorem Shape.kind_of_unlocked {s : Shape} {name : String} {f : FieldSpec}
    (hf : specOf? s.fields name = some f) (hlocked : f.locked = false) :
    f.kind ≠ .textMap ∧ f.kind ≠ .texts := by
  have htable : ∀ s ∈ all, ∀ f ∈ s.fields, f.locked = false →
      f.kind ≠ .textMap ∧ f.kind ≠ .texts := by decide
  exact htable s s.mem_all f (List.mem_of_find?_eq_some hf) hlocked

/-- A change by what is kept of a value is the change by the value, if it is kept as it is or else
there is nothing to change. -/
theorem changed_bind_keep {keep : Json → Option Json} {change old : Option Json}
    (h : ∀ v, change = some v →
      v.isNull = false ∧ (keep v = some v ∨ keep v = none ∧ old = none)) :
    changed keep (change.bind keep) old = changed keep change old := by
  cases change with
  | none => rfl
  | some v =>
    obtain ⟨hnull, hkeep | ⟨hkeep, hold⟩⟩ := h v rfl
    · rw [Option.bind_some, hkeep]
    · simp [changed, hnull, hkeep, hold]

theorem changed_self {keep : Json → Option Json} {old : Option Json}
    (h : ∀ v, old = some v → v.isNull = false ∧ keep v = some v) : changed keep old old = old := by
  cases old with
  | none => rfl
  | some v =>
    obtain ⟨hnull, hkeep⟩ := h v rfl
    simp [changed, hnull, hkeep]

namespace Object

/-- The fields that an update by a map lays over an object. -/
def updatable (o : Object) (fields : FieldMap) : FieldMap :=
  fields.filter (fun k _ => !(o.isLocked k || k = "shardkey"))

theorem get?_updatable (o : Object) (fields : FieldMap) (k : String) :
    (o.updatable fields).get? k =
      if o.isLocked k ∨ k = "shardkey" then none else fields.get? k := by
  rw [updatable, KeyMap.get?_filter_keys]
  cases o.isLocked k <;> by_cases hk : k = "shardkey" <;> simp [hk]

theorem get?_updatable_eq_some_iff {o : Object} {fields : FieldMap} {k : String} {v : Json} :
    (o.updatable fields).get? k = some v ↔
      o.isLocked k = false ∧ k ≠ "shardkey" ∧ fields.get? k = some v := by
  rw [get?_updatable]
  cases o.isLocked k <;> by_cases hk : k = "shardkey" <;> simp [hk]

variable {o : Object}

/-- What an object keeps of a value for a field. -/
def keeps? (o : Object) (k : String) (v : Json) : Option Json :=
  if Envelope.has k then ObjectDepot.kept? Envelope.fieldSpecs k v else o.body.kept? k v

theorem keeps?_of_has {k : String} (h : Envelope.has k = true) :
    o.keeps? k = ObjectDepot.kept? Envelope.fieldSpecs k := by
  funext v
  simp [keeps?, h]

theorem keeps?_of_not_has {k : String} (h : Envelope.has k = false) :
    o.keeps? k = o.body.kept? k := by
  funext v
  simp [keeps?, h]

theorem keeps?_eq_some {k : String} {v w : Json} (h : o.keeps? k v = some w) : w = v := by
  unfold keeps? at h
  split at h
  · exact (kept?_eq_some_iff.mp h).1
  · unfold Body.kept? at h
    split at h
    · exact (kept?_eq_some_iff.mp h).1
    · exact (Option.some.inj h).symm

theorem misfit?_of_keeps {k : String} {v : Json} (h : o.keeps? k v = some v) :
    o.misfit? k v = none := by
  unfold keeps? at h
  unfold misfit?
  cases hhas : Envelope.has k with
  | true =>
    rw [hhas, if_pos rfl] at h
    by_cases htype : k = "type"
    · simp [htype]
    · simpa [htype] using misfit?_of_kept h
  | false =>
    rw [hhas] at h
    rw [if_neg Bool.false_ne_true] at h ⊢
    unfold Body.kept? at h
    unfold Body.misfit?
    cases hs : o.body.shape with
    | none => rfl
    | some s =>
      rw [hs] at h
      exact misfit?_of_kept h

theorem keeps?_envelope (ho : o.Sound) {k : String} (hhas : Envelope.has k) {v : Json}
    (hv : o.envelope.get? k = some v) : v.isNull = false ∧ o.keeps? k v = some v := by
  rw [← Envelope.get?_toFields] at hv
  have hkept := ho.envelope.kept_toFields k v hv
  refine ⟨?_, by rwa [keeps?_of_has hhas]⟩
  obtain ⟨-, f, -, hread⟩ := kept?_eq_some_iff.mp hkept
  cases v with
  | null => exact absurd hread f.kind.read_null_ne
  | _ => rfl

theorem kept?_envelope_unlocked {k : String} {f : FieldSpec} (hspec : Envelope.spec? k = some f)
    (hlocked : f.locked = false) {v : Json} (hnull : v.isNull = false)
    (htags : k = "tags" → v ≠ .arr [])
    (hfits : ObjectDepot.misfit? Envelope.fieldSpecs k v = none) :
    ObjectDepot.kept? Envelope.fieldSpecs k v = some v := by
  obtain ⟨hmap, htexts⟩ := Envelope.kind_of_unlocked hspec hlocked
  exact kept?_of_fits hspec hfits hnull (fun hkind => htags (htexts hkind))
    (fun hkind => absurd hkind hmap)

theorem kept?_body_accepted {k : String} (hspec : Envelope.spec? k = none)
    (haccepts : o.accepts k) (hunlocked : o.isLocked k = false) {v : Json} (hnull : v.isNull = false)
    (hfits : o.body.misfit? k v = none) : o.body.kept? k v = some v := by
  cases hshape : o.body.shape with
  | none => simp [Body.kept?, hshape]
  | some s =>
    have hhas : Envelope.has k = false := by simp [Envelope.has, hspec]
    have hdeclares : s.declares k := by simpa [accepts, hhas, shape, hshape] using haccepts
    obtain ⟨f, hf⟩ := Option.isSome_iff_exists.mp hdeclares
    have hlocked : f.locked = false := by
      simpa [isLocked, hspec, shape, hshape, Shape.isLocked, hf] using hunlocked
    have hfits' : ObjectDepot.misfit? s.fields k v = none := by
      simpa [Body.misfit?, hshape] using hfits
    obtain ⟨hmap, htexts⟩ := Shape.kind_of_unlocked hf hlocked
    have hkept : o.body.kept? k v = ObjectDepot.kept? s.fields k v := by
      simp [Body.kept?, hshape]
    rw [hkept]
    exact kept?_of_fits hf hfits' hnull (fun hkind => absurd hkind htexts)
      (fun hkind => absurd hkind hmap)

/-- A value that fits a field that may be changed is kept, unless it is null or takes all tags
away. -/
theorem keeps?_of_accepts {k : String} (haccepts : o.accepts k) (hunlocked : o.isLocked k = false)
    {v : Json} (hnull : v.isNull = false) (htags : k = "tags" → v ≠ .arr [])
    (hfits : o.misfit? k v = none) : o.keeps? k v = some v := by
  cases hspec : Envelope.spec? k with
  | some f =>
    have hhas : Envelope.has k = true := by simp [Envelope.has, hspec]
    have hlocked : f.locked = false := by simpa [isLocked, hspec] using hunlocked
    have htype : k ≠ "type" := by
      rintro rfl
      cases hunlocked
    rw [misfit?, if_pos hhas, if_neg htype] at hfits
    rw [keeps?_of_has hhas]
    exact kept?_envelope_unlocked hspec hlocked hnull htags hfits
  | none =>
    have hhas : Envelope.has k = false := by simp [Envelope.has, hspec]
    rw [misfit?, hhas, if_neg Bool.false_ne_true] at hfits
    rw [keeps?_of_not_has hhas]
    exact kept?_body_accepted hspec haccepts hunlocked hnull hfits

/-- What is laid over is kept as it is, but for a body field that the shape does not declare. -/
theorem keeps?_updatable (ho : o.Sound) {fields : FieldMap}
    (hnull : ∀ k v, fields.get? k = some v → v.isNull = false)
    (htags : fields.get? "tags" ≠ some (.arr [])) (hadmits : o.Admits (o.updatable fields))
    {k : String} {v : Json} (hv : (o.updatable fields).get? k = some v) :
    v.isNull = false ∧ (o.keeps? k v = some v ∨
      o.keeps? k v = none ∧ Envelope.has k = false ∧ o.body.fields.get? k = none) := by
  obtain ⟨hunlocked, -, hget⟩ := get?_updatable_eq_some_iff.mp hv
  have hv' := hnull k v hget
  have hfits := hadmits k v hv hv'
  refine ⟨hv', ?_⟩
  have htags' : k = "tags" → v ≠ .arr [] := by
    rintro rfl rfl
    exact htags hget
  cases haccepts : o.accepts k with
  | true => exact .inl (keeps?_of_accepts haccepts hunlocked hv' htags' hfits)
  | false =>
    have hhas : Envelope.has k = false := (Bool.or_eq_false_iff.mp haccepts).1
    rw [keeps?_of_not_has hhas]
    exact .inr ⟨kept?_of_not_accepts haccepts v, hhas, get?_body_of_not_accepts ho haccepts⟩

end Object
end ObjectDepot
