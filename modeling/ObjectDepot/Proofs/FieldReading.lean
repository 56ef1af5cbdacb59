import ObjectDepot.KeyMap.Lemmas
import ObjectDepot.Shape

/-! What is kept of a field is the value itself. Reading a map of fields succeeds exactly when every
field fits its kind, and the result is then known field by field. -/

namespace ObjectDepot

theorem map_eq_ok_iff {ε α β : Type} {f : α → β} {x : Except ε α} {b : β} :
    x.map f = .ok b ↔ ∃ a, x = .ok a ∧ f a = b := by
  cases x <;> simp [Except.map]

theorem map_eq_error_iff {ε α β : Type} {f : α → β} {x : Except ε α} {e : ε} :
    x.map f = .error e ↔ x = .error e := by
  cases x <;> simp [Except.map]

theorem exists_map_iff {ε α β : Type} {f : α → β} {x : Except ε α} :
    (∃ b, x.map f = .ok b) ↔ ∃ a, x = .ok a := by
  cases x <;> simp [Except.map]

theorem mapError_ok {ε ε' α : Type} (f : ε → ε') (a : α) :
    (Except.ok a : Except ε α).mapError f = .ok a := rfl

theorem mapError_error {ε ε' α : Type} (f : ε → ε') (e : ε) :
    (Except.error e : Except ε α).mapError f = .error (f e) := rfl

theorem mapError_eq_ok_iff {ε ε' α : Type} {f : ε → ε'} {x : Except ε α} {a : α} :
    x.mapError f = .ok a ↔ x = .ok a := by
  cases x <;> simp [mapError_ok, mapError_error]

theorem toOption_eq_some_iff {ε α : Type} {x : Except ε α} {a : α} :
    x.toOption = some a ↔ x = .ok a := by
  cases x <;> simp [Except.toOption]

theorem Json.str?_eq_some_iff {v : Json} {text : String} : v.str? = some text ↔ v = .str text := by
  cases v <;> simp [str?]

theorem FieldKind.read_eq_some {k : FieldKind} {v w : Json} (h : k.read v = .ok (some w)) :
    w = v := by
  have keeps {α : Type} {x : Except String α} (hx : x.map (fun _ => some v) = .ok (some w)) :
      w = v := by
    obtain ⟨a, -, ha⟩ := map_eq_ok_iff.mp hx
    exact (Option.some.inj ha).symm
  have drops {α : Type} {x : Except String α} {p : α → Bool}
      (hx : x.map (fun a => if p a then none else some v) = .ok (some w)) : w = v := by
    obtain ⟨a, -, ha⟩ := map_eq_ok_iff.mp hx
    split at ha
    · cases ha
    · exact (Option.some.inj ha).symm
  unfold FieldKind.read at h
  split at h <;> first | exact keeps h | exact drops h | simp at h

/-- The range of a signed integer of 64 bits. -/
def IsInt64 (n : Int) : Prop := -Nat.pow 2 63 ≤ n ∧ n ≤ Nat.pow 2 63 - 1

theorem mapM_asText_eq_ok_iff {items : List Json} {texts : List String} :
    items.mapM Json.asText = .ok texts ↔ items = texts.map .str := by
  induction items generalizing texts with
  | nil => cases texts <;> simp [pure, Except.pure]
  | cons item items ih =>
    rw [List.mapM_cons]
    cases item with
    | str s =>
      cases hm : items.mapM Json.asText with
      | error e =>
        have hne (l : List String) : items ≠ l.map .str := fun h => by simp [ih.mpr h] at hm
        cases texts <;> simp [Json.asText, bind, Except.bind, hne]
      | ok l =>
        have hl := ih.mp hm
        cases texts with
        | nil => simp [Json.asText, bind, Except.bind, pure, Except.pure]
        | cons t texts =>
          have hinj : l = texts ↔ items = texts.map .str := by rw [← ih, hm]; simp
          simp [Json.asText, bind, Except.bind, pure, Except.pure, hinj]
    | null => cases texts <;> simp [Json.asText, bind, Except.bind]
    | bool b => cases texts <;> simp [Json.asText, bind, Except.bind]
    | int n => cases texts <;> simp [Json.asText, bind, Except.bind]
    | double d => cases texts <;> simp [Json.asText, bind, Except.bind]
    | arr l => cases texts <;> simp [Json.asText, bind, Except.bind]
    | obj l => cases texts <;> simp [Json.asText, bind, Except.bind]

theorem Shape.mem_all (s : Shape) : s ∈ all := by
  cases s <;> decide

namespace FieldKind

theorem read_text_self_iff {v : Json} :
    FieldKind.text.read v = .ok (some v) ↔ ∃ s, v = .str s := by
  cases v <;> simp [FieldKind.read, Json.asText, Except.map]

theorem read_properText_self_iff {v : Json} :
    FieldKind.properText.read v = .ok (some v) ↔ ∃ s, v = .str s := by
  cases v <;> simp [FieldKind.read, Json.asText, Except.map]

theorem read_flag_self_iff {v : Json} :
    FieldKind.flag.read v = .ok (some v) ↔ ∃ b, v = .bool b := by
  cases v <;> simp [FieldKind.read, Json.asFlag, Except.map]

theorem read_integer_self_iff {v : Json} :
    FieldKind.integer.read v = .ok (some v) ↔ ∃ n, IsInt64 n ∧ v = .int n := by
  cases v with
  | int n =>
    simp only [FieldKind.read, Json.asInteger, Json.asIntegerIn, IsInt64, Json.int.injEq,
      exists_eq_right']
    split <;> simp_all [Except.map]
  | null => simp [FieldKind.read]
  | _ => simp [FieldKind.read, Json.asInteger, Json.asIntegerIn, Except.map]

theorem read_texts_self_iff {v : Json} :
    FieldKind.texts.read v = .ok (some v) ↔ ∃ texts, texts ≠ [] ∧ v = .ofStrings texts := by
  cases v with
  | arr items =>
    rw [FieldKind.read, map_eq_ok_iff]
    simp only [Json.asTexts, mapM_asText_eq_ok_iff, Json.ofStrings, Json.arr.injEq]
    constructor
    · rintro ⟨texts, rfl, h⟩
      exact ⟨texts, by rintro rfl; simp at h, rfl⟩
    · rintro ⟨texts, hne, rfl⟩
      exact ⟨texts, rfl, by simp [hne]⟩
  | _ => simp [FieldKind.read, Json.asTexts, Except.map, Json.ofStrings]

end FieldKind

theorem kept?_eq_some_iff {specs : List FieldSpec} {name : String} {v w : Json} :
    kept? specs name v = some w ↔
      w = v ∧ ∃ f, specOf? specs name = some f ∧ f.kind.read v = .ok (some v) := by
  cases hf : specOf? specs name with
  | none => simp [kept?, hf]
  | some f =>
    cases hr : f.kind.read v with
    | error message => simp [kept?, hf, hr]
    | ok kept =>
      simp only [kept?, hf, hr, Option.some.injEq, exists_eq_left', Except.ok.injEq]
      constructor
      · rintro rfl
        have hw := FieldKind.read_eq_some hr
        exact ⟨hw, by rw [hw]⟩
      · rintro ⟨rfl, rfl⟩
        rfl

theorem kept?_of_undeclared {specs : List FieldSpec} {name : String}
    (h : specOf? specs name = none) (v : Json) : kept? specs name v = none := by
  simp [kept?, h]

theorem kept?_self {specs : List FieldSpec} {name : String} {v w : Json}
    (h : kept? specs name v = some w) : kept? specs name w = some w := by
  obtain ⟨rfl, -⟩ := kept?_eq_some_iff.mp h
  exact h

theorem misfit?_of_kept {specs : List FieldSpec} {name : String} {v : Json}
    (h : kept? specs name v = some v) : misfit? specs name v = none := by
  obtain ⟨-, f, hf, hr⟩ := kept?_eq_some_iff.mp h
  simp [misfit?, hf, hr]

theorem misfit?_of_undeclared {specs : List FieldSpec} {name : String}
    (h : specOf? specs name = none) (v : Json) : misfit? specs name v = none := by
  simp [misfit?, h]

def Fits (specs : List FieldSpec) (fields : FieldMap) : Prop :=
  ∀ name v, fields.get? name = some v → misfit? specs name v = none

theorem readFields_eq_ok_iff {specs : List FieldSpec} {fields read : FieldMap} :
    readFields specs fields = .ok read ↔
      Fits specs fields ∧ read = fields.filterMap (kept? specs) := by
  have hfits : fields.entries.findSome? (fun e => misfit? specs e.1 e.2) = none ↔
      Fits specs fields := by
    rw [List.findSome?_eq_none_iff]
    exact ⟨fun h name v hv => h _ (KeyMap.get?_eq_some_iff.mp hv),
      fun h e he => h e.1 e.2 (KeyMap.get?_eq_some_iff.mpr he)⟩
  unfold readFields
  cases hs : fields.entries.findSome? (fun e => misfit? specs e.1 e.2) with
  | none => simp [hfits.mp hs, eq_comm]
  | some fault =>
    have hnot : ¬ Fits specs fields := fun h => by simp [hfits.mpr h] at hs
    simp [hnot]

theorem exists_readFields_iff {specs : List FieldSpec} {fields : FieldMap} :
    (∃ read, readFields specs fields = .ok read) ↔ Fits specs fields := by
  simp [readFields_eq_ok_iff]

theorem get?_readFields {specs : List FieldSpec} {fields read : FieldMap}
    (h : readFields specs fields = .ok read) (name : String) :
    read.get? name = (fields.get? name).bind (kept? specs name) := by
  rw [(readFields_eq_ok_iff.mp h).2, KeyMap.get?_filterMap]

/-- Fields that are kept as they are when they are read. -/
def Kept (specs : List FieldSpec) (fields : FieldMap) : Prop :=
  ∀ name v, fields.get? name = some v → kept? specs name v = some v

theorem kept_readFields {specs : List FieldSpec} {fields read : FieldMap}
    (h : readFields specs fields = .ok read) : Kept specs read := by
  intro name v hv
  rw [get?_readFields h] at hv
  obtain ⟨u, -, hu⟩ := Option.bind_eq_some_iff.mp hv
  exact kept?_self hu

theorem Kept.fits {specs : List FieldSpec} {fields : FieldMap} (h : Kept specs fields) :
    Fits specs fields := fun name v hv => misfit?_of_kept (h name v hv)

theorem Kept.get?_of_undeclared {specs : List FieldSpec} {fields : FieldMap}
    (h : Kept specs fields) {name : String} (hn : specOf? specs name = none) :
    fields.get? name = none := by
  cases hv : fields.get? name with
  | none => rfl
  | some v => simpa [kept?_of_undeclared hn] using h name v hv

theorem Kept.read_of_declared {specs : List FieldSpec} {fields : FieldMap}
    (h : Kept specs fields) {f : FieldSpec} {name : String} (hf : specOf? specs name = some f)
    {v : Json} (hv : fields.get? name = some v) : f.kind.read v = .ok (some v) := by
  obtain ⟨-, g, hg, hr⟩ := kept?_eq_some_iff.mp (h name v hv)
  rw [hf] at hg
  cases hg
  exact hr

theorem specOf?_isSome_iff {specs : List FieldSpec} {name : String} :
    (specOf? specs name).isSome ↔ ∃ f ∈ specs, f.name = name := by
  simp [specOf?, List.find?_isSome]

theorem lookup_specs {α : Type} (g : String → Option α) (k : String) :
    ∀ specs : List FieldSpec,
      lookupEntry k (specs.filterMap (fun f => (g f.name).map (f.name, ·))) =
        if (specOf? specs k).isSome then g k else none
  | [] => rfl
  | f :: specs => by
    have ih := lookup_specs g k specs
    by_cases hk : f.name = k
    · subst hk
      have hs : (specOf? (f :: specs) f.name).isSome := specOf?_isSome_iff.mpr ⟨f, by simp⟩
      cases hg : g f.name with
      | none => simpa [hg] using ih
      | some v => simp [hg, hs, lookupEntry]
    · have hs : specOf? (f :: specs) k = specOf? specs k := by simp [specOf?, hk]
      rw [hs, ← ih]
      cases hg : g f.name with
      | none => simp [hg]
      | some v => simp [hg, lookupEntry, Ne.symm hk]

theorem get?_ofList_specs {α : Type} (g : String → Option α) (specs : List FieldSpec)
    (k : String) :
    (KeyMap.ofList (specs.filterMap (fun f => (g f.name).map (f.name, ·)))).get? k =
      if (specOf? specs k).isSome then g k else none := by
  have hs : (specOf? specs.reverse k).isSome = (specOf? specs k).isSome := by
    rw [Bool.eq_iff_iff, specOf?_isSome_iff, specOf?_isSome_iff]
    simp
  rw [KeyMap.get?_ofList, ← List.filterMap_reverse, lookup_specs, hs]

end ObjectDepot
