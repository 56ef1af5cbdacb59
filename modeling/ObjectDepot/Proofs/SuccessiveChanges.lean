import Mathlib.Data.List.Lattice
import ObjectDepot.Proofs.BlamedFields
import ObjectDepot.Proofs.PartialObjects

/-! Changing an object several times. Only the shape of an object decides which fields count for it,
and no change touches the shape, so changes that succeed one after the other come to a single change
by all their fields together, where the last word on a field is the one that holds, be it a null. A
change can fail where the single one does not, if what was wrong with it is overwritten later. -/

namespace ObjectDepot

namespace KeyMap

variable {α : Type} {m n : KeyMap α}

theorem extend_self (m : KeyMap α) : m.extend m = m := by
  refine ext (fun k => ?_)
  rw [get?_extend, Option.or_self]

theorem filter_keys_extend (m n : KeyMap α) (keep : String → Bool) :
    (m.extend n).filter (fun k _ => keep k) =
      (m.filter (fun k _ => keep k)).extend (n.filter (fun k _ => keep k)) := by
  refine ext (fun k => ?_)
  rw [get?_filter_keys, get?_extend, get?_extend, get?_filter_keys, get?_filter_keys]
  cases keep k <;> rfl

theorem erase_extend (m n : KeyMap α) (key : String) :
    (m.extend n).erase key = (m.erase key).extend (n.erase key) :=
  filter_keys_extend m n (fun k => k != key)

theorem get?_eq_none_of_disjoint (h : m.keys.Disjoint n.keys) (k : String) :
    m.get? k = none ∨ n.get? k = none := by
  by_contra hboth
  obtain ⟨hm, hn⟩ := not_or.mp hboth
  exact h (mem_keys_iff.mpr (Option.isSome_iff_ne_none.mpr hm))
    (mem_keys_iff.mpr (Option.isSome_iff_ne_none.mpr hn))

theorem extend_comm (h : m.keys.Disjoint n.keys) : m.extend n = n.extend m := by
  refine ext (fun k => ?_)
  rw [get?_extend, get?_extend]
  rcases get?_eq_none_of_disjoint h k with hm | hn
  · rw [hm, Option.or_none, Option.none_or]
  · rw [hn, Option.or_none, Option.none_or]

end KeyMap

namespace FieldNames

variable {names : FieldNames} {first second fields : FieldMap} {filter : FieldFilter}
  {o o' r : Object}

/-- Changes an object by one map of fields after the other. -/
def changeAll (names : FieldNames) (o : Object) (maps : List FieldMap) (filter : FieldFilter) :
    Except ValidationError Object :=
  maps.foldlM (fun o fields => names.change o fields filter) o

theorem changeAll_singleton (names : FieldNames) (o : Object) (fields : FieldMap)
    (filter : FieldFilter) : names.changeAll o [fields] filter = names.change o fields filter := by
  rw [changeAll, List.foldlM_cons]
  exact bind_pure _

theorem changeAll_append_eq_ok_iff {maps rest : List FieldMap} :
    names.changeAll o (maps ++ rest) filter = .ok r ↔
      ∃ o', names.changeAll o maps filter = .ok o' ∧ names.changeAll o' rest filter = .ok r := by
  simp only [changeAll, List.foldlM_append]
  cases maps.foldlM (fun o fields => names.change o fields filter) o <;> simp [bind, Except.bind]

theorem changeAll_cons_eq_ok_iff {rest : List FieldMap} :
    names.changeAll o (fields :: rest) filter = .ok r ↔
      ∃ o', names.change o fields filter = .ok o' ∧ names.changeAll o' rest filter = .ok r := by
  rw [← List.singleton_append, changeAll_append_eq_ok_iff, changeAll_singleton]

theorem sound_change (h : names.change o fields filter = .ok o') : o'.Sound := sound_apply h

theorem shape_change (h : names.change o fields filter = .ok o') : o'.shape = o.shape := by
  rw [change_eq, mapError_eq_ok_iff] at h
  exact Object.shape_overlay h

theorem passed_of_shape_eq (names : FieldNames) (h : o'.shape = o.shape) (fields : FieldMap)
    (filter : FieldFilter) : names.passed o' fields filter = names.passed o fields filter := by
  simp only [passed, Object.isLocked_of_shape_eq h]

theorem passed_extend (o : Object) (first second : FieldMap) (filter : FieldFilter) :
    ({} : FieldNames).passed o (first.extend second) filter =
      (({} : FieldNames).passed o first filter).extend
        (({} : FieldNames).passed o second filter) := by
  simp only [passed, normalize_default, KeyMap.erase_extend]
  exact KeyMap.filter_keys_extend _ _ (fun k => filter = .all || !o.isLocked k)

theorem get?_passed (o : Object) (fields : FieldMap) (filter : FieldFilter) (k : String) :
    (({} : FieldNames).passed o fields filter).get? k =
      if k = "type" ∨ k = "shardkey" ∨ filter = .skipLocked ∧ o.isLocked k then none
      else fields.get? k := by
  rw [passed, normalize_default, KeyMap.get?_filter_keys, KeyMap.get?_erase, KeyMap.get?_erase]
  by_cases htype : k = "type"
  · simp [htype]
  · by_cases hkey : k = "shardkey"
    · simp [hkey]
    · cases filter <;> cases o.isLocked k <;> simp [htype, hkey]

/-- Every field after a change. -/
theorem get?_toFields_change (ho : o.WellFormed)
    (h : ({} : FieldNames).change o fields filter = .ok r) (k : String) :
    r.toFields.get? k =
      if k = "type" ∨ k = "shardkey" ∨ filter = .skipLocked ∧ o.isLocked k then o.toFields.get? k
      else changed (o.keeps? k) (fields.get? k) (o.toFields.get? k) := by
  rw [change_eq, mapError_eq_ok_iff] at h
  have hr := ho.overlay h
  have hpassed := get?_passed o fields filter k
  have hall : r.toFields.get? k = changed (o.keeps? k)
      ((({} : FieldNames).passed o fields filter).get? k) (o.toFields.get? k) := by
    cases hhas : Envelope.has k with
    | true =>
      rw [hr.get?_toFields_of_has hhas, ho.get?_toFields_of_has hhas, Object.keeps?_of_has hhas,
        Object.get?_overlay_envelope ho.sound h, hhas]
      by_cases hk : k = "type"
      · rw [hpassed.trans (if_pos (.inl hk))]
        split <;> rfl
      · simp [hk]
    | false =>
      rw [Object.get?_toFields_of_not_has _ hhas, Object.get?_toFields_of_not_has _ hhas,
        Object.keeps?_of_not_has hhas, Object.get?_overlay_body ho.sound h, hhas]
      rfl
  rw [hall, hpassed]
  split <;> rfl

/-- Changes that succeed one after the other are the change by both maps of fields at once, in which
the second has the say. -/
theorem change_change_iff (ho : o.Sound) (h : ({} : FieldNames).change o first filter = .ok o') :
    ({} : FieldNames).change o' second filter = .ok r ↔
      ({} : FieldNames).change o (first.extend second) filter = .ok r := by
  have hshape := shape_change h
  rw [change_eq, mapError_eq_ok_iff] at h
  rw [change_eq, change_eq, mapError_eq_ok_iff, mapError_eq_ok_iff, passed_extend,
    passed_of_shape_eq _ hshape]
  exact Object.overlay_overlay_iff ho h

/-- A name that is a number spoils a dog, unless a text is laid over it in the same change. -/
example :
    let dog := Object.ofType "dog"
    let wrong : FieldMap := .ofList [("name", .int 5)]
    let fine : FieldMap := .ofList [("name", .str "Rex")]
    (({} : FieldNames).change dog wrong .all).isOk = false ∧
      (({} : FieldNames).change dog (wrong.extend fine) .all).isOk = true := by
  decide +kernel

theorem exists_change_of_le (ho : o.Sound)
    (hle : ∀ k v, first.get? k = some v → fields.get? k = some v)
    (h : ({} : FieldNames).change o fields filter = .ok r) :
    ∃ o', ({} : FieldNames).change o first filter = .ok o' := by
  have hsuits := (exists_change_iff ho).mp ⟨r, h⟩
  refine (exists_change_iff ho).mpr (fun k v hv => hsuits k v ?_)
  obtain ⟨htold, hcounts⟩ := KeyMap.get?_filter_eq_some_iff.mp hv
  exact KeyMap.get?_filter_eq_some_iff.mpr ⟨hle k v htold, hcounts⟩

/-- If the second map does not gainsay the first, it cannot make good what is wrong with it, so the
changes succeed one after the other just in case they do so together. -/
theorem changeAll_pair_iff (ho : o.Sound)
    (hle : ∀ k v, first.get? k = some v → (first.extend second).get? k = some v) :
    ({} : FieldNames).changeAll o [first, second] filter = .ok r ↔
      ({} : FieldNames).change o (first.extend second) filter = .ok r := by
  simp only [changeAll_cons_eq_ok_iff, changeAll_singleton]
  constructor
  · rintro ⟨o', hfirst, hsecond⟩
    exact (change_change_iff ho hfirst).mp hsecond
  · intro h
    obtain ⟨o', hfirst⟩ := exists_change_of_le ho hle h
    exact ⟨o', hfirst, (change_change_iff ho hfirst).mpr h⟩

/-- However many changes succeed one after the other, they come to a single one. -/
theorem change_of_changeAll (ho : o.Sound) {rest : List FieldMap}
    (h : ({} : FieldNames).changeAll o (first :: rest) filter = .ok r) :
    ({} : FieldNames).change o (rest.foldl KeyMap.extend first) filter = .ok r := by
  induction rest generalizing first with
  | nil => rwa [changeAll_singleton] at h
  | cons second rest ih =>
    obtain ⟨o', hfirst, hmore⟩ := changeAll_cons_eq_ok_iff.mp h
    obtain ⟨o'', hsecond, hrest⟩ := changeAll_cons_eq_ok_iff.mp hmore
    have hboth := (change_change_iff ho hfirst).mp hsecond
    exact ih (changeAll_cons_eq_ok_iff.mpr ⟨o'', hboth, hrest⟩)

theorem changeAll_twice (ho : o.Sound) (fields : FieldMap) (filter : FieldFilter) :
    ({} : FieldNames).changeAll o [fields, fields] filter =
      ({} : FieldNames).change o fields filter := by
  cases h : ({} : FieldNames).change o fields filter with
  | ok r =>
    have hself := KeyMap.extend_self fields
    rw [changeAll_pair_iff ho (fun k v hv => hself.symm ▸ hv), hself, h]
  | error e =>
    rw [changeAll, List.foldlM_cons, h]
    rfl

theorem changeAll_swap (ho : o.Sound) (h : first.keys.Disjoint second.keys) :
    ({} : FieldNames).changeAll o [first, second] filter = .ok r ↔
      ({} : FieldNames).changeAll o [second, first] filter = .ok r := by
  have hcomm := KeyMap.extend_comm h
  rw [changeAll_pair_iff ho, changeAll_pair_iff ho, hcomm]
  · intro k v hv
    rw [← hcomm, KeyMap.get?_extend, hv, Option.some_or]
  · intro k v hv
    rw [hcomm, KeyMap.get?_extend, hv, Option.some_or]

/-- Maps of which no two have a field in common can be taken in any order. -/
theorem changeAll_perm (ho : o.Sound) {maps maps' : List FieldMap} (hperm : maps.Perm maps')
    (hapart : maps.Pairwise (fun m n => m.keys.Disjoint n.keys)) :
    ({} : FieldNames).changeAll o maps filter = .ok r ↔
      ({} : FieldNames).changeAll o maps' filter = .ok r := by
  induction hperm generalizing o with
  | nil => rfl
  | cons fields _ ih =>
    obtain ⟨-, hrest⟩ := List.pairwise_cons.mp hapart
    rw [changeAll_cons_eq_ok_iff, changeAll_cons_eq_ok_iff]
    exact exists_congr (fun o' => and_congr_right (fun h => ih (sound_change h) hrest))
  | swap first second rest =>
    obtain ⟨hsecond, -⟩ := List.pairwise_cons.mp hapart
    have hdisjoint := hsecond first List.mem_cons_self
    change ({} : FieldNames).changeAll o ([second, first] ++ rest) filter = .ok r ↔
      ({} : FieldNames).changeAll o ([first, second] ++ rest) filter = .ok r
    rw [changeAll_append_eq_ok_iff, changeAll_append_eq_ok_iff]
    exact exists_congr (fun o' => and_congr_left' (changeAll_swap ho hdisjoint))
  | trans hleft _ ihleft ihright =>
    have hmiddle := (hleft.pairwise_iff List.Disjoint.symm).mp hapart
    exact (ihleft ho hapart).trans (ihright ho hmiddle)

/-- A change sets and clears the fields that it may touch. Once it has succeeded, another one does
what both together do to the first object. So a change that is made twice is made once, and two
changes that have no field in common can be made in either order. -/
theorem successive_changes (ho : o.WellFormed) (filter : FieldFilter) :
    (∀ fields o', ({} : FieldNames).change o fields filter = .ok o' → ∀ k, o'.toFields.get? k =
      if k = "type" ∨ k = "shardkey" ∨ filter = .skipLocked ∧ o.isLocked k then o.toFields.get? k
      else changed (o.keeps? k) (fields.get? k) (o.toFields.get? k)) ∧
    (∀ first second o', ({} : FieldNames).change o first filter = .ok o' →
      ∀ r, ({} : FieldNames).change o' second filter = .ok r ↔
        ({} : FieldNames).change o (first.extend second) filter = .ok r) ∧
    (∀ fields, ({} : FieldNames).changeAll o [fields, fields] filter =
      ({} : FieldNames).change o fields filter) ∧
    ∀ first second, first.keys.Disjoint second.keys →
      ∀ r, ({} : FieldNames).changeAll o [first, second] filter = .ok r ↔
        ({} : FieldNames).changeAll o [second, first] filter = .ok r := by
  refine ⟨fun fields o' h k => get?_toFields_change ho h k, ?_,
    fun fields => changeAll_twice ho.sound fields filter, ?_⟩
  · intro first second o' h r
    exact change_change_iff ho.sound h
  · intro first second h r
    exact changeAll_swap ho.sound h

def ann : Object :=
  ⟨{ id := some "ann", type := "user", name := some "Ann", tags := ["staff"] },
    ⟨some .user, .ofList [("identifier", .str "ann"), ("email", .str "ann@acme.co")]⟩⟩

theorem wellFormed_ann : ann.WellFormed := by
  have hmade : Object.ofFields (.ofList [("id", .str "ann"), ("type", .str "user"),
      ("name", .str "Ann"), ("tags", .arr [.str "staff"]), ("identifier", .str "ann"),
      ("email", .str "ann@acme.co")]) = .ok ann := by rfl
  exact Object.wellFormed_ofFields hmade

def anna : Object := { ann with envelope.name := some "Anna", envelope.tags := ["admin"] }

def nameless : Object := { ann with envelope.name := none, envelope.tags := [] }

/-- Beside a name and a tag a field that is locked, one that users do not have, and a shard key. -/
def newName : FieldMap := .ofList [
  ("name", .str "Anna"), ("tags", .arr [.str "admin"]), ("identifier", .str "eve"),
  ("color", .str "red"), ("shardkey", .str "k")]

def noName : FieldMap := .ofList [("name", .null), ("tags", .arr []), ("id", .str "eve")]

def newEmail : FieldMap := .ofList [("email", .str "anna@acme.co"), ("groups", .null)]

theorem successive_changes_ann :
    ann.WellFormed ∧ ({} : FieldNames).change ann newName .skipLocked = .ok anna ∧
      anna.toFields.get? "name" =
        changed (ann.keeps? "name") (newName.get? "name") (ann.toFields.get? "name") ∧
      ({} : FieldNames).change anna noName .skipLocked = .ok nameless ∧
      ({} : FieldNames).change ann (newName.extend noName) .skipLocked = .ok nameless ∧
      ({} : FieldNames).changeAll ann [newName, newName] .skipLocked = .ok anna ∧
      newName.keys.Disjoint newEmail.keys ∧
      ∃ r, ({} : FieldNames).changeAll ann [newName, newEmail] .skipLocked = .ok r ∧
        ({} : FieldNames).changeAll ann [newEmail, newName] .skipLocked = .ok r := by
  have hnew : ({} : FieldNames).change ann newName .skipLocked = .ok anna := by rfl
  have hno : ({} : FieldNames).change anna noName .skipLocked = .ok nameless := by rfl
  have hapart : newName.keys.Disjoint newEmail.keys := by
    intro k hk hk'
    revert k
    decide +kernel
  have hsome : (({} : FieldNames).changeAll ann [newName, newEmail] .skipLocked).toOption.isSome :=
    by decide +kernel
  obtain ⟨r, hr⟩ := Option.isSome_iff_exists.mp hsome
  rw [toOption_eq_some_iff] at hr
  obtain ⟨hfield, hboth, htwice, hswap⟩ := successive_changes wellFormed_ann .skipLocked
  have hname := (hfield _ _ hnew "name").trans (if_neg (by decide))
  exact ⟨wellFormed_ann, hnew, hname, hno, (hboth _ _ _ hnew _).mp hno,
    (htwice newName).trans hnew, hapart, r, hr, (hswap _ _ hapart _).mp hr⟩

end FieldNames
end ObjectDepot
