import ObjectDepot.Proofs.AppRecords
import ObjectDepot.Proofs.Requests

/-! Registration of types: which types are new, what they add to an app, and how the record of the
app is written. -/

namespace ObjectDepot

namespace Registry

theorem addTypes_fold (entries : List (String × String)) (a : App) (added : Nat) :
    let r := (entries.foldl (fun (app, added) e =>
      match app.addType? e.1 e.2 with
      | some app => (app, added + 1)
      | none => (app, added)) (a, added)).1
    r = a.withTypes r.types ∧
      ∀ k, r.types.get? k = (a.types.get? k).or (lookupEntry k entries) := by
  induction entries generalizing a added with
  | nil => exact ⟨rfl, fun k => by simp [lookupEntry]⟩
  | cons e entries ih =>
    rw [List.foldl_cons]
    cases hc : a.types.contains e.1 with
    | true =>
      have htaken : a.addType? e.1 e.2 = none := by simp [App.addType?, hc]
      simp only [htaken]
      refine ⟨(ih a added).1, fun k => ?_⟩
      rw [(ih a added).2 k, lookupEntry]
      split
      · rename_i hk
        obtain ⟨v, hv⟩ := Option.isSome_iff_exists.mp hc
        simp [hk, hv]
      · rfl
    | false =>
      have hadd : a.addType? e.1 e.2 = some (a.withTypes (a.types.insert e.1 e.2)) := by
        simp [App.addType?, hc, App.withTypes]
      simp only [hadd]
      obtain ⟨heq, hget⟩ := ih (a.withTypes (a.types.insert e.1 e.2)) (added + 1)
      refine ⟨heq, fun k => ?_⟩
      have hnew : (a.withTypes (a.types.insert e.1 e.2)).types = a.types.insert e.1 e.2 := rfl
      rw [hget k, hnew, KeyMap.get?_insert, lookupEntry]
      split
      · rename_i hk
        have hfree : a.types.get? e.1 = none := by simpa [KeyMap.contains] using hc
        simp [hk, hfree]
      · rfl

theorem addTypes_spec (a : App) (pending : TypeMap) :
    (addTypes a pending).1 = a.withTypes (addTypes a pending).1.types ∧
      ∀ k, (addTypes a pending).1.types.get? k = (a.types.get? k).or (pending.get? k) :=
  addTypes_fold pending.entries a 0

/-- The plurals of pending types that others do not have. -/
def missing (types pending : TypeMap) : List String := pending.keys.filter (!types.contains ·)

theorem missing_eq_nil_iff {types pending : TypeMap} :
    missing types pending = [] ↔ ∀ k, pending.contains k → types.contains k := by
  simp only [missing, List.filter_eq_nil_iff, KeyMap.mem_keys_iff, Bool.not_eq_true',
    Bool.not_eq_false]

theorem extend_of_none_missing {types pending : TypeMap} (h : missing types pending = []) :
    KeyMap.extend pending types = types := by
  refine KeyMap.ext (fun k => ?_)
  have hk := missing_eq_nil_iff.mp h k
  rw [KeyMap.get?_extend]
  cases htypes : types.get? k with
  | some v => rfl
  | none => simpa [KeyMap.contains, htypes] using hk

theorem addTypes_eq (a : App) (pending : TypeMap) :
    (addTypes a pending).1 = a.withTypes (KeyMap.extend pending a.types) := by
  obtain ⟨hadded, hget⟩ := addTypes_spec a pending
  rw [hadded]
  congr 1
  exact KeyMap.ext (fun k => by rw [hget, KeyMap.get?_extend])

theorem addTypes_fold_count {entries : List (String × String)} (hsorted : SortedByKey entries)
    (a : App) (added : Nat) :
    (entries.foldl (fun (app, added) e =>
      match app.addType? e.1 e.2 with
      | some app => (app, added + 1)
      | none => (app, added)) (a, added)).2 =
      added + ((entries.map (·.1)).filter (!a.types.contains ·)).length := by
  induction entries generalizing a added with
  | nil => rfl
  | cons e entries ih =>
    obtain ⟨hfirst, hrest⟩ := List.pairwise_cons.mp hsorted
    rw [List.foldl_cons, List.map_cons]
    cases htaken : a.types.contains e.1 with
    | true =>
      have hadd : a.addType? e.1 e.2 = none := by simp [App.addType?, htaken]
      simp only [hadd]
      rw [ih hrest, List.filter_cons_of_neg (by simp [htaken])]
    | false =>
      have hadd : a.addType? e.1 e.2 = some (a.withTypes (a.types.insert e.1 e.2)) := by
        simp [App.addType?, htaken, App.withTypes]
      simp only [hadd]
      -- The later keys are greater, so that the entry just made takes none of them.
      have hsame : (entries.map (·.1)).filter (!(a.types.insert e.1 e.2).contains ·) =
          (entries.map (·.1)).filter (!a.types.contains ·) := by
        refine List.filter_congr (fun k hk => ?_)
        obtain ⟨x, hx, rfl⟩ := List.mem_map.mp hk
        have hne : x.1 ≠ e.1 := fun h => String.lt_irrefl _ (h ▸ hfirst x hx)
        rw [KeyMap.contains, KeyMap.get?_insert_of_ne _ _ hne]
        rfl
      rw [ih hrest, List.filter_cons_of_pos (by simp [htaken]), List.length_cons]
      have htypes : (a.withTypes (a.types.insert e.1 e.2)).types = a.types.insert e.1 e.2 := rfl
      rw [htypes, hsame]
      omega

theorem addTypes_count (a : App) (pending : TypeMap) :
    (addTypes a pending).2 = (missing a.types pending).length :=
  (addTypes_fold_count pending.sorted a 0).trans (Nat.zero_add _)

theorem envelope_addTypes (a : App) (pending : TypeMap) :
    (addTypes a pending).1.toObject.envelope = a.envelope := by
  rw [(addTypes_spec a pending).1]
  rfl

theorem envelope_addTypes_ofObject {record : Object} {latest : App}
    (h : App.ofObject record = .ok latest) (pending : TypeMap) :
    (addTypes latest pending).1.toObject.envelope = record.envelope := by
  rw [envelope_addTypes, (App.ofObject_eq_ok h).2]

/-- Types that objects bring: each by the plural of the object and its type. -/
def BroughtBy (pending : TypeMap) (os : List Object) : Prop :=
  ∀ k v, pending.get? k = some v → ∃ o ∈ os, o.plural = k ∧ o.type = v

theorem newTypes_broughtBy (app : App) (os : List Object) (r : Registry) :
    BroughtBy (newTypes app os r).1 os := by
  unfold newTypes
  simp only [bind]
  split
  · intro k v hv
    cases hv
  · intro k v hv
    obtain ⟨o, ho, heq⟩ := List.mem_map.mp (KeyMap.mem_of_get?_ofList hv)
    cases heq
    exact ⟨o, (List.mem_filter.mp (List.mem_filter.mp ho).1).1, rfl, rfl⟩

/-- What recording types comes to on storage in memory. -/
theorem recordTypes_eq (app : App) (pending : TypeMap) (m : Memory) :
    recordTypes Memory.storage app pending m =
      match (m.get? app.partition app.identifier.objectId).elim (.ok app) App.ofObject with
      | .error e => (.error e, m)
      | .ok latest =>
        if missing latest.types pending = [] then (.ok 0, m)
        else
          let written :=
            if (m.get? app.partition app.identifier.objectId).isSome then
              let (w, m') := Memory.update app.partition (addTypes latest pending).1.toObject m
              (w.answer, m')
            else
              let (w, m') := Memory.create app.partition (addTypes latest pending).1.toObject m
              (w.answer.map (fun _ => ()), m')
          (written.1.map (fun _ => (missing latest.types pending).length), written.2) := by
  have hread : Memory.storage.read app.partition app.identifier.objectId m =
      (.ok (m.get? app.partition app.identifier.objectId), m) := rfl
  unfold recordTypes
  simp only [bind, StateT.bind, hread, addTypes_count, List.length_eq_zero_iff]
  cases (m.get? app.partition app.identifier.objectId).elim (.ok app) App.ofObject with
  | error e => rfl
  | ok latest =>
    dsimp only
    split
    · rfl
    · cases (m.get? app.partition app.identifier.objectId).isSome <;> rfl

/-- Recording types replaces the record that is stored, or stores a first one, or does nothing. -/
theorem recordTypes_cases (app : App) (pending : TypeMap) (m : Memory) :
    (recordTypes Memory.storage app pending m).2 = m ∨
      (∃ record latest, m.get? app.partition app.identifier.objectId = some record ∧
        App.ofObject record = .ok latest ∧
        (recordTypes Memory.storage app pending m).2 =
          (Memory.update app.partition (addTypes latest pending).1.toObject m).2) ∨
      (m.get? app.partition app.identifier.objectId = none ∧
        (recordTypes Memory.storage app pending m).2 =
          (Memory.create app.partition (addTypes app pending).1.toObject m).2) := by
  rw [recordTypes_eq]
  cases hget : m.get? app.partition app.identifier.objectId with
  | none =>
    simp only [Option.elim_none, Option.isSome_none, Bool.false_eq_true, if_false]
    split
    · exact .inl rfl
    · exact .inr (.inr ⟨trivial, rfl⟩)
  | some record =>
    simp only [Option.elim_some, Option.isSome_some, if_true]
    cases hlatest : App.ofObject record with
    | error e => exact .inl rfl
    | ok latest =>
      simp only []
      split
      · exact .inl rfl
      · exact .inr (.inl ⟨record, latest, rfl, hlatest, rfl⟩)

end Registry
end ObjectDepot
