import Mathlib.Logic.Relation
import ObjectDepot.Proofs.Merging

/-! What one write does to a storage, entry by entry. It concerns the partition of one app. What
stands there under an identifier is afterwards what stood there before, or a new object, or one in
the place of the old, or the old one with others merged into it, or it is gone. -/

namespace ObjectDepot

/-- An operation of the storage that writes, with the objects it is given. -/
inductive Write where
  | create (app : AppId) (o : Object)
  | update (app : AppId) (o : Object)
  | delete (app : AppId) (o : Object)
  | createAll (app : AppId) (os : List Object)
  | updateAll (app : AppId) (os : List Object)
  | deleteAll (app : AppId) (os : List Object)

namespace Write

def app : Write → AppId
  | create app _ | update app _ | delete app _ => app
  | createAll app _ | updateAll app _ | deleteAll app _ => app

def objects : Write → List Object
  | create _ o | update _ o | delete _ o => [o]
  | createAll _ os | updateAll _ os | deleteAll _ os => os

def run (m : Memory) : Write → Memory
  | create app o => (Memory.create app o m).2
  | update app o => (Memory.update app o m).2
  | delete app o => (Memory.delete app o m).2
  | createAll app os => (Memory.createAll app os m).2
  | updateAll app os => (Memory.updateAll app os m).2
  | deleteAll app os => (Memory.deleteAll app os m).2

/-- Whether a write takes away what stands under an identifier. -/
def Deletes (id : String) : Write → Prop
  | delete _ o => o.id = some id
  | deleteAll _ os => ∃ o ∈ os, o.id = some id
  | _ => False

end Write

namespace Object

/-- A new object as it is stored. -/
def asNew (o : Object) (id : String) (time : Int) : Object :=
  (o.withId (some id)).withTimestamp (some time)

/-- An object as it is stored in the place of another one. -/
def inPlaceOf (o stored : Object) (time : Int) : Object :=
  (o.withTimestamp stored.envelope.timestamp).withUpdated (some time)

/-- The identifier a new object may get: its own, or else one out of the supply. -/
def MayGet (o : Object) (s : Supply) (id : String) : Prop :=
  o.givenId? = some id ∨ o.givenId? = none ∧ ∃ n, s.ids n = id

/-- One of the objects of a batch, merged into what stands under its identifier. -/
def MergedWith (os : List Object) (id : String) (time : Int) (stored next : Object) : Prop :=
  ∃ o ∈ os, o.id = some id ∧
    ∃ merged, stored.mergeFrom o = .ok merged ∧ next = merged.withUpdated (some time)

end Object

/-- What a write of its app may make of that which stands under an identifier. -/
inductive Write.Changes (s : Supply) (id : String) : Write → Option Object → Option Object → Prop
  | same (w : Write) (old : Option Object) : Changes s id w old old
  | created {w : Write} {o : Object} (ho : o ∈ w.objects) (howner : o.appid = some w.app.text)
      (hid : o.MayGet s id) : Changes s id w none (some (o.asNew id s.now))
  | replaced {app : AppId} {o stored : Object} (howner : o.appid = some app.text)
      (hid : o.id.getD "" = id) :
      Changes s id (.update app o) (some stored) (some (o.inPlaceOf stored s.now))
  | merged {app : AppId} {os : List Object} {stored next : Object}
      (howners : ∀ o ∈ os, o.appid = some app.text)
      (h : Relation.ReflTransGen (Object.MergedWith os id s.now) stored next) :
      Changes s id (.updateAll app os) (some stored) (some next)
  | deleted {w : Write} {old : Option Object} (h : w.Deletes id) : Changes s id w old none

namespace Memory

theorem text_eq_iff {a b : AppId} : a.text = b.text ↔ a = b := by
  cases a
  cases b
  simp

theorem objects_withPartition (m : Memory) (app other : AppId) (p : Partition) :
    (m.withPartition app p).objects other = if other = app then p else m.objects other := by
  unfold objects withPartition
  rw [KeyMap.get?_insert]
  by_cases h : other = app
  · simp [h]
  · simp [h, text_eq_iff]

theorem partitions_withPartition (m : Memory) {app other : AppId} (h : other ≠ app)
    (p : Partition) : (m.withPartition app p).partitions.get? other.text =
      m.partitions.get? other.text :=
  KeyMap.get?_insert_of_ne m.partitions p (fun ht => h (text_eq_iff.mp ht))

theorem objects_of_partition {m : Memory} {app : AppId} {p : Partition}
    (h : m.partitions.get? app.text = some p) : m.objects app = p := by
  simp [objects, h]

theorem get?_withPartition (m : Memory) (app : AppId) (p : Partition) (id : String) :
    (m.withPartition app p).get? app id = p.get? id := by
  rw [get?, objects_withPartition, if_pos rfl]

theorem get?_put (m : Memory) (app : AppId) (id k : String) (o : Object) :
    (m.put app id o).get? app k = if k = id then some o else m.get? app k := by
  rw [put, get?_withPartition, KeyMap.get?_insert]
  rfl

theorem checkOwner_eq_ok_iff {app : AppId} {o : Object} :
    checkOwner app o = .ok () ↔ o.appid = some app.text := by
  unfold checkOwner
  cases o.appid with
  | none => simp
  | some appid =>
    by_cases h : appid = app.text
    · simp [h]
    · cases hb : Text.isBlank appid <;> simp [h, hb]

theorem checkOwners_eq_ok_iff {app : AppId} {os : List Object} :
    checkOwners app os = .ok () ↔ ∀ o ∈ os, o.appid = some app.text := by
  induction os with
  | nil => simp [checkOwners]
  | cons o os ih =>
    unfold checkOwners
    cases ho : checkOwner app o with
    | error e =>
      have hne : ¬ o.appid = some app.text := fun h => by simp [checkOwner_eq_ok_iff.mpr h] at ho
      simp [hne]
    | ok _ => simp [ih, checkOwner_eq_ok_iff.mp ho]

theorem assignedId_spec (s : Supply) (o : Object) :
    o.MayGet s (assignedId s o).1 ∧ (assignedId s o).2.ids = s.ids ∧
      (assignedId s o).2.now = s.now := by
  unfold assignedId
  cases hid : o.givenId? with
  | none => exact ⟨.inr ⟨hid, s.drawn, rfl⟩, rfl, rfl⟩
  | some id => exact ⟨.inl hid, rfl, rfl⟩

theorem makeReady_supply (app : AppId) (p : Partition) (s : Supply) (o : Object) :
    (makeReady app p s o).2.ids = s.ids ∧ (makeReady app p s o).2.now = s.now := by
  unfold makeReady
  cases checkOwner app o with
  | error e => exact ⟨rfl, rfl⟩
  | ok _ =>
    dsimp only
    split <;> exact (assignedId_spec s o).2

theorem makeReady_eq_ok {app : AppId} {p : Partition} {s s' : Supply} {o left : Object}
    {id : String} (h : makeReady app p s o = (⟨.ok id, left⟩, s')) :
    o.appid = some app.text ∧ (id, s') = assignedId s o ∧ p.get? id = none ∧
      left = o.asNew id s.now := by
  unfold makeReady at h
  cases ho : checkOwner app o with
  | error e => simp [ho] at h
  | ok _ =>
    rw [ho] at h
    dsimp only at h
    split at h
    · simp at h
    · rename_i hc
      simp only [Prod.mk.injEq, Written.mk.injEq, Except.ok.injEq] at h
      obtain ⟨⟨rfl, rfl⟩, rfl⟩ := h
      refine ⟨checkOwner_eq_ok_iff.mp ho, rfl, by simpa [KeyMap.contains] using hc, ?_⟩
      rw [(assignedId_spec s o).2.2]
      rfl

theorem create_of_foreign {app : AppId} {m : Memory} {o : Object} {e : StorageError}
    (h : checkOwner app o = .error e) : create app o m = (⟨.error e, o⟩, m) := by
  rw [create, makeReady, h]

theorem mayGet_of_makeReady {app : AppId} {p : Partition} {s s' : Supply} {o left : Object}
    {id : String} (h : makeReady app p s o = (⟨.ok id, left⟩, s')) : o.MayGet s id := by
  have hid := (assignedId_spec s o).1
  rw [← (makeReady_eq_ok h).2.1] at hid
  exact hid

theorem update_eq_of_stored {m : Memory} {app : AppId} {o stored : Object} {id : String}
    (howner : o.appid = some app.text) (hid : o.id = some id) (hget : m.get? app id = some stored) :
    update app o m =
      (⟨.ok (), o.inPlaceOf stored m.supply.now⟩, m.put app id (o.inPlaceOf stored m.supply.now)) := by
  unfold update
  rw [checkOwner_eq_ok_iff.mpr howner]
  simp [hid, hget, Object.inPlaceOf]

theorem update_of_stored {m : Memory} {app : AppId} {o stored : Object} {id : String}
    (howner : o.appid = some app.text) (hid : o.id = some id) (hget : m.get? app id = some stored) :
    (update app o m).2 = m.put app id
      ((o.withTimestamp stored.envelope.timestamp).withUpdated (some m.supply.now)) := by
  rw [update_eq_of_stored howner hid hget]
  rfl

/-- What is made ready out of a batch: new objects under identifiers new to the partition. -/
theorem makeAllReady_spec (app : AppId) (p : Partition) (os : List Object) (s : Supply)
    (staged : Partition) :
    (makeAllReady app p staged s os).2.ids = s.ids ∧
      (makeAllReady app p staged s os).2.now = s.now ∧
      ∀ result, (makeAllReady app p staged s os).1.answer = .ok result →
        ∀ id x, result.get? id = some x → staged.get? id = some x ∨
          p.get? id = none ∧ ∃ o ∈ os, o.appid = some app.text ∧ o.MayGet s id ∧
            x = o.asNew id s.now := by
  induction os generalizing s staged with
  | nil =>
    refine ⟨rfl, rfl, ?_⟩
    rintro result ⟨⟩ id x hx
    exact .inl hx
  | cons o os ih =>
    obtain ⟨hids, hnow⟩ := makeReady_supply app p s o
    unfold makeAllReady
    rcases hr : makeReady app p s o with ⟨⟨answer, left⟩, s'⟩
    rw [hr] at hids hnow
    cases answer with
    | error e => exact ⟨hids, hnow, by rintro result ⟨⟩⟩
    | ok key =>
      dsimp only
      split
      · exact ⟨hids, hnow, by rintro result ⟨⟩⟩
      · obtain ⟨howner, -, hfree, rfl⟩ := makeReady_eq_ok hr
        have hkey := mayGet_of_makeReady hr
        obtain ⟨ihids, ihnow, ihresult⟩ := ih s' (staged.insert key (o.asNew key s.now))
        refine ⟨ihids.trans hids, ihnow.trans hnow, fun result hresult id x hx => ?_⟩
        rcases ihresult result hresult id x hx with hx | ⟨hid, o', ho', howner', hget, rfl⟩
        · rw [KeyMap.get?_insert] at hx
          split at hx
          · rename_i heq
            cases hx
            exact .inr ⟨heq ▸ hfree, o, List.mem_cons_self, howner, heq ▸ hkey, by rw [heq]⟩
          · exact .inl hx
        · rw [Object.MayGet, hids] at hget
          exact .inr ⟨hid, o', List.mem_cons_of_mem _ ho', howner', hget, by rw [hnow]⟩

theorem get?_foldl_erase (p : Partition) (k : String) : ∀ ids : List String,
    (ids.foldl KeyMap.erase p).get? k = if k ∈ ids then none else p.get? k := by
  intro ids
  induction ids generalizing p with
  | nil => simp
  | cons id ids ih =>
    rw [List.foldl_cons, ih, KeyMap.get?_erase]
    by_cases hk : k = id <;> by_cases hm : k ∈ ids <;> simp [hk, hm]

theorem get?_remove (m : Memory) (app : AppId) (ids : List String) (k : String) :
    (m.remove app ids).get? app k = if k ∈ ids then none else m.get? app k := by
  unfold remove
  cases hp : m.partitions.get? app.text with
  | none => simp [get?, objects, hp]
  | some p => rw [get?_withPartition, get?_foldl_erase, get?, objects_of_partition hp]

theorem withPartition_withPartition (m : Memory) (app : AppId) (p q : Partition) :
    (m.withPartition app p).withPartition app q = m.withPartition app q := by
  simp only [withPartition, KeyMap.insert_insert]

theorem withPartition_of_partition {m : Memory} {app : AppId} {p : Partition}
    (h : m.partitions.get? app.text = some p) : m.withPartition app p = m := by
  simp only [withPartition, KeyMap.insert_of_get? h]

theorem remove_of_partition {m : Memory} {app : AppId} {p : Partition}
    (h : m.partitions.get? app.text = some p) (ids : List String) :
    m.remove app ids = m.withPartition app (ids.foldl KeyMap.erase p) := by
  rw [remove, h]

theorem remove_of_no_partition {m : Memory} {app : AppId}
    (h : m.partitions.get? app.text = none) (ids : List String) : m.remove app ids = m := by
  rw [remove, h]

/-- Only identifiers under which something stands count. -/
theorem remove_congr {m : Memory} {app : AppId} {ids ids' : List String}
    (h : ∀ id o, m.get? app id = some o → (id ∈ ids ↔ id ∈ ids')) :
    m.remove app ids = m.remove app ids' := by
  cases hp : m.partitions.get? app.text with
  | none => rw [remove_of_no_partition hp, remove_of_no_partition hp]
  | some p =>
    have herase : ids.foldl KeyMap.erase p = ids'.foldl KeyMap.erase p := by
      refine KeyMap.ext (fun k => ?_)
      rw [get?_foldl_erase, get?_foldl_erase]
      cases hk : p.get? k with
      | none => rw [ite_self, ite_self]
      | some o =>
        have hmem := h k o (by rw [get?, objects_of_partition hp, hk])
        simp only [hmem]
    rw [remove_of_partition hp, remove_of_partition hp, herase]

theorem remove_nil (m : Memory) (app : AppId) : m.remove app [] = m := by
  cases hp : m.partitions.get? app.text with
  | none => exact remove_of_no_partition hp []
  | some p =>
    rw [remove_of_partition hp]
    exact withPartition_of_partition hp

theorem remove_remove (m : Memory) (app : AppId) (ids ids' : List String) :
    (m.remove app ids).remove app ids' = m.remove app (ids ++ ids') := by
  cases hp : m.partitions.get? app.text with
  | none => simp only [remove_of_no_partition hp]
  | some p =>
    have hp' : (m.remove app ids).partitions.get? app.text = some (ids.foldl KeyMap.erase p) := by
      rw [remove_of_partition hp]
      exact KeyMap.get?_insert_self ..
    rw [remove_of_partition hp', remove_of_partition hp, remove_of_partition hp,
      withPartition_withPartition, List.foldl_append]

theorem objects_remove (m : Memory) (app : AppId) (ids : List String) :
    (m.remove app ids).objects app = (m.objects app).filter (fun id _ => !ids.contains id) := by
  refine KeyMap.ext (fun k => (get?_remove m app ids k).trans ?_)
  rw [KeyMap.get?_filter_keys]
  by_cases hk : k ∈ ids <;> simp [hk, get?]

theorem partitions_remove (m : Memory) {app other : AppId} (h : other ≠ app) (ids : List String) :
    (m.remove app ids).partitions.get? other.text = m.partitions.get? other.text := by
  cases hp : m.partitions.get? app.text with
  | none => rw [remove_of_no_partition hp]
  | some p => rw [remove_of_partition hp, partitions_withPartition m h]

/-- A batch of merges, entry by entry. -/
theorem get?_mergeAll (now : Int) (p : Partition) (os : List Object) (id : String) :
    (p.get? id = none → (mergeAll now p os).2.get? id = none) ∧
      ∀ stored, p.get? id = some stored → ∃ next, (mergeAll now p os).2.get? id = some next ∧
        Relation.ReflTransGen (Object.MergedWith os id now) stored next := by
  refine mergeAll_keeps (P := fun q => (p.get? id = none → q.get? id = none) ∧
    ∀ stored, p.get? id = some stored → ∃ next, q.get? id = some next ∧
      Relation.ReflTransGen (Object.MergedWith os id now) stored next) ?_
      ⟨fun h => h, fun stored hs => ⟨stored, hs, .refl⟩⟩
  rintro q o key target merged ⟨hnone, hsome⟩ ho hkey htarget hmerge
  by_cases hid : id = key
  · subst hid
    refine ⟨fun hp => ?_, fun stored hs => ?_⟩
    · rw [hnone hp] at htarget
      cases htarget
    · obtain ⟨next, hnext, hsteps⟩ := hsome stored hs
      obtain rfl : next = target := Option.some.inj (hnext.symm.trans htarget)
      exact ⟨_, KeyMap.get?_insert_self .., hsteps.tail ⟨o, ho, hkey, merged, hmerge, rfl⟩⟩
  · rw [KeyMap.get?_insert_of_ne _ _ hid]
    exact ⟨hnone, hsome⟩

end Memory

namespace Write

open Memory

/-- A write concerns one partition. -/
theorem partitions_run {w : Write} {m : Memory} {other : AppId} (h : other ≠ w.app) :
    (w.run m).partitions.get? other.text = m.partitions.get? other.text := by
  cases w with
  | create app o =>
    simp only [run, Memory.create]
    split
    · rfl
    · exact partitions_withPartition _ h _
  | update app o =>
    simp only [run, Memory.update]
    split
    · rfl
    · split
      · rfl
      · exact partitions_withPartition _ h _
  | delete app o =>
    simp only [run, Memory.delete, remove]
    split
    · rfl
    · exact partitions_withPartition _ h _
  | createAll app os =>
    simp only [run, Memory.createAll]
    split
    · rfl
    · exact partitions_withPartition _ h _
  | updateAll app os =>
    simp only [run, Memory.updateAll]
    split
    · rfl
    · split
      · rfl
      · exact partitions_withPartition _ h _
  | deleteAll app os =>
    simp only [run, Memory.deleteAll, remove]
    split
    · rfl
    · exact partitions_withPartition _ h _

theorem objects_run {w : Write} {m : Memory} {other : AppId} (h : other ≠ w.app) :
    (w.run m).objects other = m.objects other := by
  rw [Memory.objects, Memory.objects, partitions_run h]

/-- Of the supply a write takes identifiers and nothing else. -/
theorem supply_run (w : Write) (m : Memory) :
    (w.run m).supply.ids = m.supply.ids ∧ (w.run m).supply.now = m.supply.now := by
  cases w with
  | create app o =>
    have hready := makeReady_supply app (m.objects app) m.supply o
    simp only [run, Memory.create]
    split <;> exact hready
  | update app o =>
    simp only [run, Memory.update]
    split
    · exact ⟨rfl, rfl⟩
    · split <;> exact ⟨rfl, rfl⟩
  | delete app o =>
    simp only [run, Memory.delete, remove]
    split <;> exact ⟨rfl, rfl⟩
  | createAll app os =>
    obtain ⟨hids, hnow, -⟩ :=
      makeAllReady_spec app (m.objects app) os m.supply .empty
    simp only [run, Memory.createAll]
    split <;> exact ⟨hids, hnow⟩
  | updateAll app os =>
    simp only [run, Memory.updateAll]
    split
    · exact ⟨rfl, rfl⟩
    · split <;> exact ⟨rfl, rfl⟩
  | deleteAll app os =>
    simp only [run, Memory.deleteAll, remove]
    split <;> exact ⟨rfl, rfl⟩

theorem changes_create (app : AppId) (o : Object) (m : Memory) (id : String) :
    Changes m.supply id (.create app o) (m.get? app id) ((Memory.create app o m).2.get? app id) := by
  unfold Memory.create
  rcases hr : makeReady app (m.objects app) m.supply o with ⟨⟨answer, left⟩, s⟩
  cases answer with
  | error e => exact .same _ _
  | ok key =>
    obtain ⟨howner, -, hfree, rfl⟩ := makeReady_eq_ok hr
    dsimp only
    rw [get?_put]
    split
    · rename_i hid
      subst hid
      rw [get?, hfree]
      exact .created List.mem_cons_self howner (mayGet_of_makeReady hr)
    · exact .same _ _

theorem changes_update (app : AppId) (o : Object) (m : Memory) (id : String) :
    Changes m.supply id (.update app o) (m.get? app id) ((Memory.update app o m).2.get? app id) := by
  unfold Memory.update
  cases howner : checkOwner app o with
  | error e => exact .same _ _
  | ok _ =>
    dsimp only
    cases hget : m.get? app (o.id.getD "") with
    | none => exact .same _ _
    | some stored =>
      dsimp only
      rw [get?_put]
      split
      · rename_i hid
        rw [hid, hget]
        exact .replaced (checkOwner_eq_ok_iff.mp howner) rfl
      · exact .same _ _

theorem changes_createAll (app : AppId) (os : List Object) (m : Memory) (id : String) :
    Changes m.supply id (.createAll app os) (m.get? app id)
      ((Memory.createAll app os m).2.get? app id) := by
  obtain ⟨-, -, hready⟩ :=
    makeAllReady_spec app (m.objects app) os m.supply .empty
  unfold Memory.createAll
  rcases hr : makeAllReady app (m.objects app) .empty m.supply os with ⟨⟨answer, left⟩, s⟩
  rw [hr] at hready
  cases answer with
  | error e => exact .same _ _
  | ok staged =>
    dsimp only
    rw [get?_withPartition, KeyMap.get?_extend]
    cases hid : staged.get? id with
    | none => exact .same _ _
    | some x =>
      rcases hready staged rfl id x hid with hempty | ⟨hfree, o, ho, howner, hget, rfl⟩
      · cases hempty
      · rw [get?, hfree]
        exact .created ho howner hget

theorem changes_updateAll (app : AppId) (os : List Object) (m : Memory) (id : String) :
    Changes m.supply id (.updateAll app os) (m.get? app id)
      ((Memory.updateAll app os m).2.get? app id) := by
  unfold Memory.updateAll
  cases howners : checkOwners app os with
  | error e => exact .same _ _
  | ok _ =>
    dsimp only
    cases hp : m.partitions.get? app.text with
    | none => exact .same _ _
    | some p =>
      obtain ⟨hnone, hsome⟩ := get?_mergeAll m.supply.now p os id
      dsimp only
      rw [get?_withPartition, get?, objects_of_partition hp]
      cases hid : p.get? id with
      | none =>
        rw [hnone hid]
        exact .same _ _
      | some stored =>
        obtain ⟨next, hnext, hsteps⟩ := hsome stored hid
        rw [hnext]
        exact .merged (checkOwners_eq_ok_iff.mp howners) hsteps

/-- What a write makes of an entry of its partition. -/
theorem changes_run (w : Write) (m : Memory) (id : String) :
    w.Changes m.supply id (m.get? w.app id) ((w.run m).get? w.app id) := by
  cases w with
  | create app o => exact changes_create app o m id
  | update app o => exact changes_update app o m id
  | createAll app os => exact changes_createAll app os m id
  | updateAll app os => exact changes_updateAll app os m id
  | delete app o =>
    simp only [run, Memory.delete, Write.app]
    rw [get?_remove]
    split
    · rename_i hid
      exact .deleted (Option.mem_toList.mp hid)
    · exact .same _ _
  | deleteAll app os =>
    simp only [run, Memory.deleteAll, Write.app]
    rw [get?_remove]
    split
    · rename_i hid
      obtain ⟨o, ho, hid⟩ := List.mem_filterMap.mp hid
      exact .deleted ⟨o, ho, hid⟩
    · exact .same _ _

/-- What becomes of an object that is stored: it stays, or another one takes its place, or others are
merged into it, or it is deleted. -/
theorem run_of_stored (w : Write) (m : Memory) {app : AppId} {id : String} {o : Object}
    (ho : m.get? app id = some o) :
    (w.run m).get? app id = some o ∨
      (∃ x, w = .update app x ∧ x.id.getD "" = id ∧
        (w.run m).get? app id = some (x.inPlaceOf o m.supply.now)) ∨
      (∃ os next, w = .updateAll app os ∧
        Relation.ReflTransGen (Object.MergedWith os id m.supply.now) o next ∧
        (w.run m).get? app id = some next) ∨
      app = w.app ∧ w.Deletes id ∧ (w.run m).get? app id = none := by
  by_cases happ : app = w.app
  · subst happ
    have hchanges := w.changes_run m id
    rw [ho] at hchanges
    generalize (w.run m).get? w.app id = new at hchanges ⊢
    cases hchanges with
    | same => exact .inl rfl
    | replaced _ hid => exact .inr (.inl ⟨_, rfl, hid, rfl⟩)
    | merged _ hsteps => exact .inr (.inr (.inl ⟨_, _, rfl, hsteps, rfl⟩))
    | deleted hdeletes => exact .inr (.inr (.inr ⟨rfl, hdeletes, rfl⟩))
  · rw [get?, objects_run happ]
    exact .inl ho

/-- Whether a write may put an object where nothing stands. -/
def Creates : Write → Prop
  | create _ _ | createAll _ _ => True
  | _ => False

theorem run_of_creates {w : Write} (hw : w.Creates) {m : Memory} {app : AppId} {id : String}
    {o : Object} (ho : m.get? app id = some o) : (w.run m).get? app id = some o := by
  rcases w.run_of_stored m ho with hrun | ⟨_, rfl, -⟩ | ⟨_, _, rfl, -⟩ | ⟨-, hdeletes, -⟩
  · exact hrun
  · cases hw
  · cases hw
  · cases w with
    | create => cases hdeletes
    | createAll => cases hdeletes
    | _ => cases hw

theorem run_of_missing {w : Write} (hw : ¬ w.Creates) {m : Memory} {id : String}
    (hnone : m.get? w.app id = none) : (w.run m).get? w.app id = none := by
  cases w with
  | create app o => exact absurd trivial hw
  | createAll app os => exact absurd trivial hw
  | update owner o =>
    rw [run, app, Memory.update]
    rw [app] at hnone
    split
    · exact hnone
    · dsimp only
      split
      · exact hnone
      · rename_i stored hstored
        rw [get?_put]
        split
        · rename_i hid
          rw [hid, hstored] at hnone
          cases hnone
        · exact hnone
  | updateAll app os =>
    rw [run, Memory.updateAll]
    split
    · exact hnone
    · split
      · exact hnone
      · rename_i p hp
        have hmerged := (get?_mergeAll m.supply.now p os id).1
        rw [← objects_of_partition hp] at hmerged ⊢
        dsimp only
        rw [Write.app, get?_withPartition]
        exact hmerged hnone
  | delete app o =>
    rw [run, Memory.delete, Write.app, get?_remove]
    split
    · rfl
    · exact hnone
  | deleteAll app os =>
    rw [run, Memory.deleteAll, Write.app, get?_remove]
    split
    · rfl
    · exact hnone

/-- An object that is new to a storage is one that a write of its partition creates. -/
theorem new_of_missing {w : Write} {m : Memory} {app : AppId} {id : String} {x : Object}
    (hnone : m.get? app id = none) (hx : (w.run m).get? app id = some x) :
    app = w.app ∧ w.Creates ∧ ∃ o ∈ w.objects, x = o.asNew id m.supply.now := by
  by_cases happ : app = w.app
  · subst happ
    have hcreates : w.Creates := by
      by_cases hw : w.Creates
      · exact hw
      · rw [run_of_missing hw hnone] at hx
        cases hx
    have hchanges := w.changes_run m id
    rw [hnone, hx] at hchanges
    cases hchanges with
    | created ho _ _ => exact ⟨rfl, hcreates, _, ho, rfl⟩
  · rw [get?, objects_run happ, ← get?, hnone] at hx
    cases hx

theorem old_or_new {w : Write} (hw : w.Creates) {m : Memory} {app : AppId} {id : String} {x : Object}
    (hx : (w.run m).get? app id = some x) :
    m.get? app id = some x ∨
      m.get? app id = none ∧ ∃ o ∈ w.objects, x = o.asNew id m.supply.now := by
  cases hget : m.get? app id with
  | some y => exact .inl ((run_of_creates hw hget).symm.trans hx)
  | none => exact .inr ⟨rfl, (new_of_missing hget hx).2.2⟩

end Write
end ObjectDepot
