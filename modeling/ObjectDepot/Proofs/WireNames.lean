import ObjectDepot.Config
import ObjectDepot.Proofs.NormalForm

/-! Objects under the clients' names. Written with other names for the identifier and the type, and
read again, an object comes back but for its shard key just in case no field of it stands in the way
of these names. So a configuration loses nothing of any object just in case each of its names is the
envelope's own or is neither a field of the envelope nor one that a shape declares. -/

namespace ObjectDepot

namespace FieldNames

/-- What an object comes to that is written under the clients' names and read again. -/
def reread (names : FieldNames) (o : Object) : Except ValidationError Object :=
  names.toObject (names.toFields o)

/-- No field of an object is in the way of the clients' names. -/
def Clear (names : FieldNames) (o : Object) : Prop :=
  (names.type = "type" ∨ names.type ≠ "shardkey" ∧ o.toFields.get? names.type = none) ∧
    (names.id = "id" ∨
      if o.id.isSome then names.id ≠ "shardkey" ∧ o.toFields.get? names.id = none
      else names.id = "shardkey" ∨ names.id = "type" ∨ o.toFields.get? names.id = none)

end FieldNames

namespace Object

theorem toFields_withShardKey_none {o : Object} (ho : o.WellFormed) :
    (o.withShardKey none).toFields = o.toFields.erase "shardkey" := by
  refine KeyMap.ext (fun k => ?_)
  have hbody : (o.withShardKey none).body = o.body := rfl
  rw [get?_toFields, get?_withShardKey, KeyMap.get?_erase, get?_toFields, hbody]
  by_cases hk : k = "shardkey"
  · subst hk
    rw [ho.get?_body_of_has rfl]
    rfl
  · simp [hk]

theorem WellFormed.withShardKey {o : Object} (ho : o.WellFormed) (key : Option String) :
    (o.withShardKey key).WellFormed :=
  ho.of_body_eq (ho.sound.withShardKey key).envelope rfl rfl

theorem get?_toFields_id {o : Object} (ho : o.WellFormed) :
    o.toFields.get? "id" = o.id.map .str := ho.get?_toFields_of_has rfl

end Object

namespace FieldNames

open KeyMap

variable {names : FieldNames} {o : Object}

/-- The fields of an object on their way, when it has been written and its shard key is dropped. -/
def sent (names : FieldNames) (o : Object) : FieldMap := (names.toFields o).erase "shardkey"

theorem get?_sent_type (h : names.type ≠ "type") : (names.sent o).get? "type" = none := by
  rw [sent, get?_erase, if_neg (by decide), toFields, get?_rename_source h.symm]

theorem get?_sent_of_missing (hne : names.id ≠ names.type) (hid : o.id = none)
    (h : names.id = "shardkey" ∨ names.id = "type" ∨ o.toFields.get? names.id = none)
    (ho : o.WellFormed) : (names.sent o).get? names.id = none := by
  have hfree : o.toFields.rename "id" names.id = o.toFields :=
    rename_of_missing (by rw [Object.get?_toFields_id ho, hid]; rfl) _
  by_cases htype : names.id = "type"
  · rw [htype]
    exact get?_sent_type (htype ▸ hne.symm)
  · rw [sent, toFields, hfree, get?_erase, get?_rename_of_ne htype hne]
    rcases h with h | h | h
    · rw [if_pos h]
    · exact absurd h htype
    · rw [h, ite_self]

theorem rename_type_back (h : names.Clear o) :
    ((o.toFields.rename "type" names.type).erase "shardkey").rename names.type "type" =
      o.toFields.erase "shardkey" := by
  rcases h.1 with h | ⟨hkey, hfree⟩
  · rw [h, rename_self, rename_self]
  · have hfree' : (o.toFields.erase "shardkey").get? names.type = none := by
      rw [get?_erase, hfree, ite_self]
    rw [erase_rename _ (by decide) hkey.symm, rename_back hfree']

/-- Neither name is taken for the other field, if both fields are there. -/
theorem Clear.apart (h : names.Clear o) (hid : o.toFields.get? "id" ≠ none)
    (hfree : o.toFields.get? names.id = none) : names.id ≠ "type" ∧ "id" ≠ names.type := by
  refine ⟨fun heq => ?_, fun heq => ?_⟩
  · rw [heq, Object.get?_toFields_type] at hfree
    cases hfree
  · rcases h.1 with htype | ⟨-, hgone⟩
    · exact absurd (heq.trans htype) (by decide)
    · rw [← heq] at hgone
      exact hid hgone

/-- If no field is in the way, the fields come back as they were, without the shard key. -/
theorem normalize_toFields (hne : names.id ≠ names.type) (ho : o.WellFormed)
    (h : names.Clear o) : names.normalize (names.toFields o) = o.toFields.erase "shardkey" := by
  have hback := rename_type_back h
  have hget := Object.get?_toFields_id ho
  by_cases hsame : names.id = "id"
  · rw [normalize, toFields, hsame, rename_self, rename_self, hback]
  · have hid := h.2
    rw [or_iff_right hsame] at hid
    cases hoid : o.id with
    | none =>
      rw [hoid] at hid hget
      have hmissing := get?_sent_of_missing hne hoid (by simpa using hid) ho
      have hstays : o.toFields.rename "id" names.id = o.toFields := rename_of_missing hget _
      rw [sent] at hmissing
      rw [normalize, rename_of_missing hmissing, toFields, hstays, hback]
    | some x =>
      obtain ⟨hkey, hfree⟩ : names.id ≠ "shardkey" ∧ o.toFields.get? names.id = none := by
        simpa [hoid] using hid
      obtain ⟨hidType, htypeId⟩ := h.apart (by rw [hget, hoid]; exact Option.some_ne_none _) hfree
      have hfree' : ((o.toFields.rename "type" names.type).erase "shardkey").get? names.id = none := by
        rw [get?_erase, get?_rename_of_ne hidType hne, hfree, ite_self]
      rw [normalize, toFields, rename_comm _ (by decide) htypeId hidType hne,
        erase_rename _ (by decide) hkey.symm, rename_back hfree', hback]

theorem get?_normalize_id (hne : names.id ≠ names.type) (hid : names.id ≠ "id")
    (htype : names.id ≠ "type") (fields : FieldMap) :
    (names.normalize fields).get? names.id = none := by
  rw [normalize, get?_rename_of_ne hne htype, get?_rename_source hid]

theorem get?_normalize_type (h : names.type ≠ "type") (fields : FieldMap) :
    (names.normalize fields).get? names.type = none :=
  get?_rename_source h

/-- An identifier under another name is lost if nothing arrives under that name. -/
theorem get?_id_of_not_sent (hid : names.id ≠ "id") (h : (names.sent o).get? names.id = none) :
    (names.normalize (names.toFields o)).get? "id" = none := by
  rw [sent] at h
  rw [normalize, rename_of_missing h]
  by_cases htype : names.type = "id"
  · rw [htype, get?_rename_source (by decide)]
  · rw [get?_rename_of_ne (Ne.symm htype) (by decide), get?_erase, if_neg (by decide), toFields,
      get?_rename_of_ne (by decide) (Ne.symm htype), get?_rename_source (Ne.symm hid)]

/-- A type under the name of the shard key is dropped with it. -/
theorem get?_type_of_shardkey (hne : names.id ≠ names.type) (htype : names.type = "shardkey") :
    (names.normalize (names.toFields o)).get? "type" = none := by
  have hid : "shardkey" ≠ names.id := fun h => hne (h.symm.trans htype.symm)
  have hsent : (names.sent o).get? "type" = none := get?_sent_type (by rw [htype]; decide)
  have hkey : ((names.sent o).rename names.id "id").get? "shardkey" = none := by
    rw [get?_rename_of_ne hid (by decide), sent, get?_erase, if_pos rfl]
  rw [sent] at hsent hkey
  rw [normalize, htype, rename_of_missing hkey, get?_rename]
  split
  · exact hsent
  · rw [if_neg (by decide)]
    split
    · rfl
    · exact hsent

/-- What does not arrive was not there, if the object comes back. -/
theorem missing_of_reread (ho : o.WellFormed) (h : names.reread o = .ok (o.withShardKey none))
    {k : String} (hk : k ≠ "shardkey")
    (hnone : (names.normalize (names.toFields o)).get? k = none) : o.toFields.get? k = none := by
  cases hv : o.toFields.get? k with
  | none => rfl
  | some v =>
    have hback : (o.withShardKey none).toFields.get? k = some v := by
      rw [Object.toFields_withShardKey_none ho, get?_erase, if_neg hk, hv]
    exact (Object.get?_of_ofFields h hback).symm.trans hnone

theorem clear_type_of_reread (hne : names.id ≠ names.type) (ho : o.WellFormed)
    (h : names.reread o = .ok (o.withShardKey none)) :
    names.type = "type" ∨ names.type ≠ "shardkey" ∧ o.toFields.get? names.type = none := by
  by_cases htype : names.type = "type"
  · exact .inl htype
  · have hkey : names.type ≠ "shardkey" := by
      intro hkey
      have hgone := missing_of_reread ho h (by decide) (get?_type_of_shardkey hne hkey)
      rw [Object.get?_toFields_type] at hgone
      cases hgone
    exact .inr ⟨hkey, missing_of_reread ho h hkey (get?_normalize_type htype _)⟩

theorem sent_of_reread {x : String} (ho : o.WellFormed)
    (h : names.reread o = .ok (o.withShardKey none)) (hid : names.id ≠ "id")
    (hoid : o.id = some x) : (names.sent o).get? names.id ≠ none := by
  intro hnone
  have hgone := missing_of_reread ho h (by decide) (get?_id_of_not_sent hid hnone)
  rw [Object.get?_toFields_id ho, hoid] at hgone
  cases hgone

theorem clear_of_reread (hne : names.id ≠ names.type) (ho : o.WellFormed)
    (h : names.reread o = .ok (o.withShardKey none)) : names.Clear o := by
  refine ⟨clear_type_of_reread hne ho h, ?_⟩
  by_cases hid : names.id = "id"
  · exact .inl hid
  · refine .inr ?_
    have hfree (hkey : names.id ≠ "shardkey") (htype : names.id ≠ "type") :
        o.toFields.get? names.id = none :=
      missing_of_reread ho h hkey (get?_normalize_id hne hid htype _)
    cases hoid : o.id with
    | none =>
      by_cases hkey : names.id = "shardkey"
      · simp [hkey]
      · by_cases htype : names.id = "type"
        · simp [htype]
        · simp [hfree hkey htype]
    | some x =>
      have hsent := sent_of_reread ho h hid hoid
      have hkey : names.id ≠ "shardkey" := by
        intro hkey
        exact hsent (by rw [sent, get?_erase, if_pos hkey])
      have htype : names.id ≠ "type" := by
        intro htype
        exact hsent (by rw [htype]; exact get?_sent_type (htype ▸ hne.symm))
      simp [hkey, hfree hkey htype]

theorem reread_iff_clear (hne : names.id ≠ names.type) (ho : o.WellFormed) :
    names.reread o = .ok (o.withShardKey none) ↔ names.Clear o := by
  refine ⟨clear_of_reread hne ho, fun h => ?_⟩
  rw [reread, toObject, normalize_toFields hne ho h, ← Object.toFields_withShardKey_none ho]
  exact (ho.withShardKey none).readsBack

end FieldNames

/-- A name that is neither a field of the envelope nor declared by a shape. -/
def SpareName (k : String) : Prop := Envelope.has k = false ∧ ∀ s : Shape, s.declares k = false

/-- An open body has no field under the clients' names. -/
def Object.LacksNames (o : Object) (names : FieldNames) : Prop :=
  o.shape = none →
    o.body.fields.get? names.id = none ∧ o.body.fields.get? names.type = none

theorem Object.get?_toFields_of_spare {o : Object} (ho : o.WellFormed) {k : String}
    (hk : SpareName k) (hopen : o.shape = none → o.body.fields.get? k = none) :
    o.toFields.get? k = none := by
  rw [get?_toFields_of_not_has o hk.1]
  cases hs : o.shape with
  | none => exact hopen hs
  | some s =>
    cases hv : o.body.fields.get? k with
    | none => rfl
    | some v =>
      have hs' : o.body.shape = some s := hs
      have hkept := ho.sound.body k v hv
      simp only [Body.kept?, hs'] at hkept
      obtain ⟨-, f, hf, -⟩ := kept?_eq_some_iff.mp hkept
      have hundeclared := hk.2 s
      simp [Shape.declares, hf] at hundeclared

/-- A value that each kind of field keeps. -/
def FieldKind.sample : FieldKind → Json
  | .text | .properText => .str "x"
  | .flag => .bool true
  | .integer => .int 0
  | .texts => .arr [.str "x"]
  | .textMap => .obj [("x", .str "x")]

theorem FieldKind.read_sample (k : FieldKind) : k.read k.sample = .ok (some k.sample) := by
  cases k <;> rfl

namespace Object

/-- An object with all fields of the envelope. -/
def fullEnvelope : Object where
  envelope :=
    ⟨some "x", "dog", some "x", some "x", some "x", some "x", ["x"], some 0, some 0, some "x"⟩
  body := ⟨none, .empty⟩

theorem wellFormed_fullEnvelope : fullEnvelope.WellFormed := by
  have htime : ∀ t, some (0 : Int) = some t → IsInt64 t := by
    rintro t ⟨⟩
    exact ⟨by decide, by decide⟩
  exact ⟨⟨⟨htime, htime⟩, fun k v hv => by cases hv⟩, by decide, rfl,
    fun _ k v hv => by cases hv⟩

theorem isSome_get?_fullEnvelope {k : String} (hk : Envelope.has k) :
    (fullEnvelope.toFields.get? k).isSome := by
  have htable : ∀ f ∈ Envelope.fieldSpecs, (fullEnvelope.envelope.get? f.name).isSome := by decide
  obtain ⟨f, hf, rfl⟩ := specOf?_isSome_iff.mp hk
  rw [wellFormed_fullEnvelope.get?_toFields_of_has hk]
  exact htable f hf

/-- An object with an identifier and one field that its shape declares. -/
def withDeclared (s : Shape) (f : FieldSpec) : Object where
  envelope := { id := some "x", type := s.singular }
  body := ⟨some s, KeyMap.empty.insert f.name f.kind.sample⟩

theorem wellFormed_withDeclared {s : Shape} {f : FieldSpec} {k : String}
    (hf : specOf? s.fields k = some f) (hname : f.name = k) : (withDeclared s f).WellFormed := by
  have hvalid : TypeName.isValid s.singular := by cases s <;> decide
  refine ⟨⟨⟨by rintro t ⟨⟩, by rintro t ⟨⟩⟩, fun n v hv => ?_⟩, hvalid,
    (Shape.ofSingular?_singular s).symm, fun hshape => by cases hshape⟩
  simp only [withDeclared, KeyMap.get?_insert] at hv
  split at hv
  · rename_i hn
    obtain rfl := Option.some.inj hv
    subst hn hname
    exact kept?_eq_some_iff.mpr ⟨rfl, f, hf, f.kind.read_sample⟩
  · cases hv

end Object

namespace FieldNames

variable {names : FieldNames}

/-- Every field but those of one's own can be in the way. -/
theorem exists_in_the_way {k : String} (hk : ¬ SpareName k) :
    ∃ o : Object, o.WellFormed ∧ o.id.isSome ∧ (∀ names, o.LacksNames names) ∧
      o.toFields.get? k ≠ none := by
  by_cases hhas : Envelope.has k
  · refine ⟨.fullEnvelope, Object.wellFormed_fullEnvelope, rfl, fun names _ => ⟨rfl, rfl⟩, ?_⟩
    exact Option.isSome_iff_ne_none.mp (Object.isSome_get?_fullEnvelope hhas)
  · have hdeclared : ∃ s : Shape, s.declares k := by
      by_cases hno : ∃ s : Shape, s.declares k
      · exact hno
      · exact absurd ⟨by simpa using hhas, fun s => by simpa using not_exists.mp hno s⟩ hk
    obtain ⟨s, hs⟩ := hdeclared
    obtain ⟨f, hf⟩ := Option.isSome_iff_exists.mp hs
    have hname : f.name = k := by simpa using List.find?_some hf
    refine ⟨.withDeclared s f, Object.wellFormed_withDeclared hf hname, rfl, ?_, ?_⟩
    · intro names hshape
      cases hshape
    · rw [Object.get?_toFields_of_not_has _ (by simpa using hhas)]
      simp [Object.withDeclared, hname]

/-- The names under which every object comes back. -/
def Lossless (names : FieldNames) : Prop :=
  (names.id = "id" ∨ SpareName names.id) ∧ (names.type = "type" ∨ SpareName names.type)

theorem Lossless.clear {o : Object} (h : names.Lossless) (ho : o.WellFormed)
    (hlacks : o.LacksNames names) : names.Clear o := by
  obtain ⟨hid, htype⟩ := h
  have hkey {k : String} (hk : SpareName k) : k ≠ "shardkey" := by
    rintro rfl
    cases hk.1
  refine ⟨htype.imp_right fun hspare => ⟨hkey hspare, ?_⟩, hid.imp_right fun hspare => ?_⟩
  · exact Object.get?_toFields_of_spare ho hspare (fun hs => (hlacks hs).2)
  · have hfree := Object.get?_toFields_of_spare ho hspare (fun hs => (hlacks hs).1)
    split
    · exact ⟨hkey hspare, hfree⟩
    · exact .inr (.inr hfree)

theorem lossless_of_clear
    (h : ∀ o : Object, o.WellFormed → o.LacksNames names → names.Clear o) : names.Lossless := by
  refine ⟨?_, ?_⟩
  · by_cases hspare : SpareName names.id
    · exact .inr hspare
    · obtain ⟨o, ho, hid, hlacks, hfield⟩ := exists_in_the_way hspare
      refine (h o ho (hlacks names)).2.imp_right fun hclear => absurd ?_ hfield
      rw [if_pos hid] at hclear
      exact hclear.2
  · by_cases hspare : SpareName names.type
    · exact .inr hspare
    · obtain ⟨o, ho, -, hlacks, hfield⟩ := exists_in_the_way hspare
      exact (h o ho (hlacks names)).1.imp_right fun hclear => absurd hclear.2 hfield

end FieldNames

theorem Config.names_ne {config : Config} (h : config.faults = []) :
    config.fieldNames.id ≠ config.fieldNames.type := by
  intro heq
  have heq' : config.idField = config.typeField := heq
  simp [faults, heq'] at h

/-- Under the names of a configuration that is accepted, an object comes back without its shard key
just in case none of its fields is in the way of the names; and all objects do just in case each name
is the envelope's own or a spare one. -/
theorem FieldNames.reread_lossless_iff {config : Config} (h : config.faults = []) :
    (∀ o : Object, o.WellFormed →
      (config.fieldNames.reread o = .ok (o.withShardKey none) ↔ config.fieldNames.Clear o)) ∧
    ((∀ o : Object, o.WellFormed → o.LacksNames config.fieldNames →
      config.fieldNames.reread o = .ok (o.withShardKey none)) ↔ config.fieldNames.Lossless) := by
  have hne := config.names_ne h
  refine ⟨fun o ho => reread_iff_clear hne ho, fun hall => ?_, fun hlossless o ho hlacks => ?_⟩
  · exact lossless_of_clear (fun o ho hlacks => (reread_iff_clear hne ho).mp (hall o ho hlacks))
  · exact (reread_iff_clear hne ho).mpr (hlossless.clear ho hlacks)

/-- Types go by the envelope's own name for identifiers. -/
def Config.crossed : Config := { idField := "_id", typeField := "id" }

def Object.rex : Object := ⟨{ id := some "rex", type := "dog" }, ⟨none, .empty⟩⟩

/-- A dog comes back as something whose type is the identifier of the dog. -/
theorem FieldNames.reread_crossed :
    Config.crossed.faults = [] ∧
      Object.ofFields (KeyMap.ofList [("id", .str "rex"), ("type", .str "dog")]) = .ok .rex ∧
      Object.rex.LacksNames Config.crossed.fieldNames ∧
      Config.crossed.fieldNames.toFields .rex =
        KeyMap.ofList [("_id", .str "rex"), ("id", .str "dog")] ∧
      Config.crossed.fieldNames.reread .rex = .ok (.ofType "rex") ∧
      Config.crossed.fieldNames.reread .rex ≠ .ok (Object.rex.withShardKey none) := by
  have hreread : Config.crossed.fieldNames.reread .rex = .ok (.ofType "rex") := by rfl
  refine ⟨by decide +kernel, by rfl, fun _ => ⟨rfl, rfl⟩, by rfl, hreread, fun h => ?_⟩
  have hid := congrArg Object.id (Except.ok.inj (hreread.symm.trans h))
  cases hid

theorem FieldNames.reread_lossless_iff_crossed :
    Config.crossed.faults = [] ∧ Object.rex.WellFormed ∧
      (Config.crossed.fieldNames.reread .rex = .ok (Object.rex.withShardKey none) ↔
        Config.crossed.fieldNames.Clear .rex) ∧ ¬ Config.crossed.fieldNames.Clear .rex := by
  have hfaults : Config.crossed.faults = [] := by decide +kernel
  have hread : Object.ofFields (KeyMap.ofList [("id", .str "rex"), ("type", .str "dog")]) =
      .ok .rex := by rfl
  have hrex := Object.wellFormed_ofFields hread
  refine ⟨hfaults, hrex, (reread_lossless_iff hfaults).1 .rex hrex, fun h => ?_⟩
  rcases h.1 with h | ⟨-, h⟩
  · exact absurd h (by decide)
  · cases h

end ObjectDepot
