import ObjectDepot.App
import ObjectDepot.Proofs.ObjectFields

/-! Apps and their records. A record of an app and the app read out of it have the same fields; the
types of an app come back as they were written. -/

namespace ObjectDepot

namespace AppSettings

theorem get?_of_undeclared {s : AppSettings} {k : String}
    (h : specOf? Shape.app.fields k = none) : s.get? k = none := by
  unfold get?
  split <;> first | rfl | cases h

theorem get?_toFields (s : AppSettings) (k : String) : s.toFields.get? k = s.get? k := by
  rw [toFields, get?_ofList_specs]
  split
  · rfl
  · rename_i h
    exact (get?_of_undeclared (by simpa using h)).symm

theorem mapM_asText_members (entries : List (String × String)) :
    (entries.map (fun e => (e.1, Json.str e.2))).mapM
      (fun m => (Json.asText m.2).map (m.1, ·)) = .ok entries := by
  induction entries with
  | nil => rfl
  | cons e entries ih =>
    rw [List.map_cons, List.mapM_cons, ih]
    rfl

theorem entries_map_str (types : KeyMap String) :
    (types.map Json.str).entries = types.entries.map (fun e => (e.1, Json.str e.2)) := by
  simp [KeyMap.map, KeyMap.filterMap]

theorem read_textMap_self {types : KeyMap String} (h : types.isEmpty = false) :
    FieldKind.textMap.read (.ofStringMap types) = .ok (some (.ofStringMap types)) := by
  have hread : (Json.ofStringMap types).asTextMap = .ok types := by
    simp only [Json.ofStringMap, Json.ofFields, Json.asTextMap, entries_map_str,
      mapM_asText_members, bind, Except.bind, pure, Except.pure, KeyMap.ofList_entries]
  simp [FieldKind.read, hread, Except.map, h]

theorem sound_toFields (s : AppSettings) : Body.Sound ⟨some .app, s.toFields⟩ := by
  intro k v hv
  rw [get?_toFields] at hv
  refine kept?_eq_some_iff.mpr ⟨rfl, ?_⟩
  unfold get? at hv
  split at hv
  · obtain ⟨b, -, rfl⟩ := Option.map_eq_some_iff.mp hv
    exact ⟨_, rfl, FieldKind.read_flag_self_iff.mpr ⟨b, rfl⟩⟩
  · split at hv
    · cases hv
    · rename_i hne
      cases hv
      exact ⟨_, rfl, read_textMap_self (by simpa using hne)⟩
  · obtain ⟨b, -, rfl⟩ := Option.map_eq_some_iff.mp hv
    exact ⟨_, rfl, FieldKind.read_flag_self_iff.mpr ⟨b, rfl⟩⟩
  · cases hv

theorem textMapOf_toFields (s : AppSettings) : textMapOf s.toFields "datatypes" = s.datatypes := by
  rw [textMapOf, get?_toFields]
  cases he : s.datatypes.isEmpty with
  | true =>
    have hentries : s.datatypes.entries = [] := List.isEmpty_iff.mp he
    simp only [get?, he, if_true]
    exact KeyMap.ext_entries hentries.symm
  | false =>
    simp only [get?, he, Bool.false_eq_true, if_false, Json.ofStringMap, Json.ofFields,
      KeyMap.ofList_entries]
    refine KeyMap.ext (fun k => ?_)
    rw [KeyMap.get?_filterMap, KeyMap.get?_map]
    cases s.datatypes.get? k <;> rfl

theorem flagOf?_map {m : FieldMap} (hm : Kept Shape.app.fields m) {k : String} {f : FieldSpec}
    (hf : specOf? Shape.app.fields k = some f) (hk : f.kind = .flag) :
    (flagOf? m k).map .bool = m.get? k := by
  cases hv : m.get? k with
  | none => simp [flagOf?, hv]
  | some v =>
    obtain ⟨b, rfl⟩ := FieldKind.read_flag_self_iff.mp (hk ▸ hm.read_of_declared hf hv)
    simp [flagOf?, hv]

theorem get?_ofFields {m : FieldMap} (hm : Kept Shape.app.fields m) {k : String}
    (hk : k ≠ "datatypes") : (ofFields m).get? k = m.get? k := by
  unfold get?
  split
  · exact flagOf?_map hm rfl rfl
  · exact absurd rfl hk
  · exact flagOf?_map hm rfl rfl
  · rename_i hshared hdatatypes hactive
    refine (hm.get?_of_undeclared ?_).symm
    simp [specOf?, Shape.fields, lockedField, openField, Ne.symm hshared, Ne.symm hdatatypes,
      Ne.symm hactive]

end AppSettings

/-- The types that a record of an app holds, by plural. -/
def Object.datatypes (o : Object) : KeyMap String :=
  AppSettings.textMapOf o.body.fields "datatypes"

namespace App

def withTypes (a : App) (types : KeyMap String) : App :=
  { a with settings := { a.settings with datatypes := types } }

theorem get?_toObject_withTypes (a : App) (types : KeyMap String) {k : String}
    (hk : k ≠ "datatypes") :
    (a.withTypes types).toObject.toFields.get? k = a.toObject.toFields.get? k := by
  have hsettings : (a.withTypes types).settings.get? k = a.settings.get? k := by
    unfold AppSettings.get?
    split <;> first | rfl | exact absurd rfl hk
  rw [Object.get?_toFields, Object.get?_toFields]
  simp only [toObject, AppSettings.get?_toFields, hsettings]
  rfl

theorem ofObject_eq_ok {o : Object} {a : App} (h : ofObject o = .ok a) :
    o.shape = some .app ∧ a = ⟨o.envelope, .ofFields o.body.fields⟩ := by
  unfold ofObject at h
  split at h
  · rename_i hshape _
    split at h
    · cases h
    · exact ⟨hshape, (Except.ok.inj h).symm⟩
  · cases h

theorem sound_toObject {a : App} (h : a.envelope.Sound) : a.toObject.Sound :=
  ⟨h, AppSettings.sound_toFields a.settings⟩

theorem datatypes_toObject (a : App) : a.toObject.datatypes = a.types :=
  AppSettings.textMapOf_toFields a.settings

theorem types_ofObject {o : Object} {a : App} (h : ofObject o = .ok a) :
    a.types = o.datatypes := by
  rw [(ofObject_eq_ok h).2]
  rfl

/-- Reading a record and writing it back changes no field but perhaps the types. -/
theorem get?_toObject_ofObject {o : Object} {a : App} (ho : o.Sound) (h : ofObject o = .ok a)
    {k : String} (hk : k ≠ "datatypes") : a.toObject.toFields.get? k = o.toFields.get? k := by
  obtain ⟨hshape, rfl⟩ := ofObject_eq_ok h
  have hshape' : o.body.shape = some .app := hshape
  have hkept : Kept Shape.app.fields o.body.fields := by
    intro name v hv
    have hb := ho.body name v hv
    simpa only [Body.kept?, hshape'] using hb
  rw [Object.get?_toFields, Object.get?_toFields]
  simp only [toObject, AppSettings.get?_toFields, AppSettings.get?_ofFields hkept hk]

end App

end ObjectDepot
