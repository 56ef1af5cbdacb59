import ObjectDepot.Proofs.FieldSources

/-! Making an object in two steps. Fields laid over an object in two goes are as good as all of them
laid over it at once, so an object that starts from its type and its identifier and gets the other
fields afterwards is the one that is made of all of them. If the locked fields are to be skipped, it
is the one made of the fields without them, for only the type decides what is locked. -/

namespace ObjectDepot

theorem changed_or (keep : Json → Option Json) (first second old : Option Json) :
    changed keep (second.or first) old = changed keep second (changed keep first old) := by
  cases second with
  | none => rfl
  | some v => rfl

namespace Object

variable {o o' o'' : Object} {fields more : FieldMap}

theorem overlay_overlay (ho : o.Sound) (h : o.overlay fields = .ok o')
    (hmore : o'.overlay more = .ok o'') : o.overlay (fields.extend more) = .ok o'' := by
  have ho' := sound_overlay h
  have hshape := shape_overlay h
  have hadmits : o.Admits (fields.extend more) := by
    intro k v hv hnull
    rw [KeyMap.get?_extend] at hv
    cases hk : more.get? k with
    | none =>
      rw [hk, Option.none_or] at hv
      exact (exists_overlay_iff ho).mp ⟨o', h⟩ k v hv hnull
    | some w =>
      rw [hk, Option.some_or] at hv
      have hadmits' := (exists_overlay_iff ho').mp ⟨o'', hmore⟩
      exact hadmits'.of_shape_eq hshape.symm k v (hk.trans hv) hnull
  obtain ⟨x, hx⟩ := (exists_overlay_iff ho).mpr hadmits
  have heq : x = o'' := by
    refine ext_get? ?_ (fun k => ?_) (fun k => ?_)
    · rw [shape_overlay hx, shape_overlay hmore, hshape]
    · rw [get?_overlay_envelope ho hx, get?_overlay_envelope ho' hmore,
        get?_overlay_envelope ho h, KeyMap.get?_extend, changed_or]
      split <;> rfl
    · rw [get?_overlay_body ho hx, get?_overlay_body ho' hmore, get?_overlay_body ho h,
        kept?_of_shape_eq hshape, KeyMap.get?_extend, changed_or]
      split <;> rfl
  rw [hx, heq]

/-- Two maps laid over an object one after the other are one map, in which the second has the
say. -/
theorem overlay_overlay_iff (ho : o.Sound) (h : o.overlay fields = .ok o') :
    o'.overlay more = .ok o'' ↔ o.overlay (fields.extend more) = .ok o'' := by
  refine ⟨overlay_overlay ho h, fun hboth => ?_⟩
  have hadmits := (exists_overlay_iff ho).mp ⟨o'', hboth⟩
  have hadmits' : o'.Admits more := by
    refine (hadmits.of_le (fun k v hv => ?_)).of_shape_eq (shape_overlay h)
    rw [KeyMap.get?_extend, hv, Option.some_or]
  obtain ⟨x, hx⟩ := (exists_overlay_iff (sound_overlay h)).mpr hadmits'
  have hxboth := overlay_overlay ho h hx
  rw [hboth] at hxboth
  rw [hx, Except.ok.inj hxboth]

end Object

namespace FieldNames

variable {names : FieldNames} {fields : FieldMap} {o : Object}

/-- The fields that come after the type and the identifier. -/
def restOf (fields : FieldMap) : FieldMap :=
  fields.filter (fun name _ => !(name = "type" || name = "id"))

theorem get?_restOf (fields : FieldMap) (k : String) :
    (restOf fields).get? k = if k = "type" ∨ k = "id" then none else fields.get? k := by
  rw [restOf, KeyMap.get?_filter_keys]
  by_cases htype : k = "type"
  · simp [htype]
  · by_cases hid : k = "id" <;> simp [htype, hid]

theorem headOf_extend_restOf (fields : FieldMap) :
    ((headOf fields).erase "type").extend (restOf fields) = fields.erase "type" := by
  refine KeyMap.ext (fun k => ?_)
  rw [KeyMap.get?_extend, KeyMap.get?_erase, KeyMap.get?_erase, get?_headOf, get?_restOf]
  by_cases htype : k = "type"
  · simp [htype]
  · by_cases hid : k = "id"
    · simp [hid]
    · simp [htype, hid]

/-- To make an object of fields is to make one of its type and its identifier and to lay the rest
over it. -/
theorem ofFields_eq_ok_iff_head :
    Object.ofFields fields = .ok o ↔
      ∃ head, Object.ofFields (headOf fields) = .ok head ∧
        head.overlay (restOf fields) = .ok o := by
  have hhead {head : Object} (h : Object.ofFields (headOf fields) = .ok head) :
      head.overlay (restOf fields) = .ok o ↔ Object.ofFields fields = .ok o := by
    obtain ⟨type, htype, hvalid, hlay⟩ := Object.ofFields_eq_ok_iff.mp h
    rw [get?_headOf, if_pos (.inl rfl)] at htype
    rw [Object.overlay_overlay_iff (Object.sound_ofType type) hlay, headOf_extend_restOf,
      Object.ofFields_eq_ok_iff]
    constructor
    · intro hall
      exact ⟨type, htype, hvalid, hall⟩
    · rintro ⟨type', htype', -, hall⟩
      obtain rfl : type = type' := Json.str.inj (Option.some.inj (htype.symm.trans htype'))
      exact hall
  constructor
  · intro h
    obtain ⟨head, hmade, -⟩ := exists_ofFields_headOf h
    exact ⟨head, hmade, (hhead hmade).mpr h⟩
  · rintro ⟨head, hmade, hlay⟩
    exact (hhead hmade).mp hlay

theorem toObjectThrough_all :
    names.toObjectThrough fields .all = .ok o ↔ names.toObject fields = .ok o := by
  rw [toObject, ofFields_eq_ok_iff_head, toObjectThrough]
  simp only [bind, Except.bind, apply, headOf, restOf]
  cases Object.ofFields ((names.normalize fields).filter
      (fun name _ => name = "type" || name = "id")) with
  | error e => simp
  | ok head => simp [mapError_eq_ok_iff]

/-- What is left of fields without those that are locked for a type: the type and the identifier,
and whatever is not locked. -/
def unlockedFor (type : String) (fields : FieldMap) : FieldMap :=
  fields.filter (fun k _ => k = "type" || k = "id" || !(Object.ofType type).isLocked k)

theorem headOf_unlockedFor (type : String) (fields : FieldMap) :
    headOf (unlockedFor type fields) = headOf fields := by
  refine KeyMap.ext (fun k => ?_)
  rw [get?_headOf, get?_headOf, unlockedFor, KeyMap.get?_filter_keys]
  by_cases hk : k = "type" ∨ k = "id"
  · rcases hk with rfl | rfl <;> rfl
  · rw [if_neg hk, if_neg hk]

theorem restOf_unlockedFor (o : Object) (hshape : o.shape = Shape.ofSingular? o.type)
    (fields : FieldMap) :
    restOf (unlockedFor o.type fields) = (restOf fields).filter (fun k _ => !o.isLocked k) := by
  refine KeyMap.ext (fun k => ?_)
  have hsame : (Object.ofType o.type).shape = o.shape := hshape.symm
  have hlocked := Object.isLocked_of_shape_eq hsame k
  rw [get?_restOf, get?_filter_unlocked, get?_restOf, unlockedFor, KeyMap.get?_filter_keys, hlocked]
  by_cases hk : k = "type" ∨ k = "id"
  · rw [if_pos hk, if_pos hk]
    split <;> rfl
  · obtain ⟨htype, hid⟩ := not_or.mp hk
    rw [if_neg hk, if_neg hk]
    cases o.isLocked k <;> simp [htype, hid]

theorem toObjectThrough_skipLocked {type : String}
    (htype : (names.normalize fields).get? "type" = some (.str type)) :
    names.toObjectThrough fields .skipLocked = .ok o ↔
      Object.ofFields (unlockedFor type (names.normalize fields)) = .ok o := by
  rw [toObjectThrough_eq_ok_iff, ofFields_eq_ok_iff_head, headOf_unlockedFor]
  refine exists_congr (fun head => and_congr_right (fun hhead => ?_))
  have hsame : head.type = type := by
    have hget := Object.get?_type_of_ofFields hhead
    rw [get?_headOf, if_pos (.inl rfl), htype] at hget
    exact (Json.str.inj (Option.some.inj hget)).symm
  rw [apply_eq_ok_iff, ← hsame, restOf_unlockedFor head (Object.shape_ofFields hhead)]
  rfl

theorem normalize_unlockedFor (type : String) (fields : FieldMap) :
    ({} : FieldNames).normalize (unlockedFor type fields) =
      unlockedFor type (({} : FieldNames).normalize fields) := by
  refine KeyMap.ext (fun k => ?_)
  rw [normalize_default, normalize_default, unlockedFor, unlockedFor, KeyMap.get?_erase,
    KeyMap.get?_filter_keys, KeyMap.get?_filter_keys, KeyMap.get?_erase]
  by_cases hk : k = "shardkey"
  · simp [hk]
  · rw [if_neg hk, if_neg hk]

/-- Made through the filter that lets everything pass, an object is what its fields make of it. Made
through the one that skips locked fields, it is what the fields make of it that are not locked for
the type they name. -/
theorem toObjectThrough_agrees (fields : FieldMap) (o : Object) :
    (({} : FieldNames).toObjectThrough fields .all = .ok o ↔
        ({} : FieldNames).toObject fields = .ok o) ∧
      (({} : FieldNames).toObjectThrough fields .skipLocked = .ok o ↔
        ({} : FieldNames).toObject
          (unlockedFor ((({} : FieldNames).type? fields).getD "") fields) = .ok o) := by
  refine ⟨toObjectThrough_all, ?_⟩
  have hget : (({} : FieldNames).normalize fields).get? "type" = fields.get? "type" := by
    rw [normalize_default, KeyMap.get?_erase, if_neg (by decide)]
  cases htype : ({} : FieldNames).type? fields with
  | some type =>
    obtain ⟨v, hv, hstr⟩ := Option.bind_eq_some_iff.mp htype
    obtain rfl := Json.str?_eq_some_iff.mp hstr
    rw [toObjectThrough_skipLocked (hget.trans hv), toObject, normalize_unlockedFor]
    rfl
  | none =>
    -- Where no text stands for the type nothing is made in either way.
    have hno {fields' : FieldMap} (hfields : fields'.get? "type" = fields.get? "type")
        (o : Object) : Object.ofFields fields' ≠ .ok o := by
      intro h
      have htold := Object.get?_type_of_ofFields h
      rw [hfields] at htold
      have hnone : (fields.get? "type").bind Json.str? = none := htype
      rw [htold] at hnone
      cases hnone
    constructor
    · intro h
      obtain ⟨head, hhead, -⟩ := toObjectThrough_eq_ok_iff.mp h
      refine absurd hhead (hno ?_ head)
      rw [get?_headOf, if_pos (.inl rfl), hget]
    · intro h
      refine absurd h (hno ?_ o)
      rw [normalize_unlockedFor, unlockedFor, KeyMap.get?_filter_keys, hget]
      rfl

/-- A time that is none spoils a dog, unless locked fields are skipped. -/
example :
    let fields : FieldMap := .ofList [("type", .str "dog"), ("timestamp", .str "soon")]
    (({} : FieldNames).toObjectThrough fields .all).isOk = false ∧
      (({} : FieldNames).toObjectThrough fields .skipLocked).isOk = true := by
  decide +kernel

end FieldNames
end ObjectDepot
