import ObjectDepot.Proofs.Writes

/-! Which storages can be reached. Every write puts an object under its own identifier, which is not
blank, and into the partition of the app it names, so that all stored objects are found there. -/

namespace ObjectDepot

/-- A supply as machines have it: the clock is a 64-bit integer, and no identifier is blank. -/
structure Supply.Sound (s : Supply) : Prop where
  now : IsInt64 s.now
  ids : ∀ n, Text.isBlank (s.ids n) = false

def Supply.NeverBlank (s : Supply) : Prop := ∀ n, Text.isBlank (s.ids n) = false

def Supply.still : Supply := { now := 0, ids := fun _ => "new" }

theorem Supply.sound_still : still.Sound := by
  have hblank : Text.isBlank "new" = false := by decide +kernel
  exact ⟨⟨by decide, by decide⟩, fun _ => hblank⟩

namespace Memory

/-- What becomes of an empty storage by any writes of any objects, while time passes. -/
inductive Reachable : Memory → Prop
  | empty {s : Supply} (hs : s.Sound) : Reachable (ofSupply s)
  | wait {m : Memory} {s : Supply} (hm : Reachable m) (hs : s.Sound) :
    Reachable { m with supply := s }
  | write {m : Memory} {w : Write} (hm : Reachable m) (hw : ∀ o ∈ w.objects, o.Sound) :
    Reachable (w.run m)

end Memory

/-- An object in its place: under its own identifier, in the partition of the app it names. -/
structure Object.StoredUnder (o : Object) (app : AppId) (id : String) : Prop where
  key : o.id = some id
  owner : o.appid = some app.text
  notBlank : Text.isBlank id = false

/-- An object as it stands under an identifier in the partition of an app. -/
structure Object.StoredAs (o : Object) (app : AppId) (id : String) : Prop extends
    o.StoredUnder app id where
  sound : o.Sound

def Partition.Consistent (app : AppId) (p : Partition) : Prop :=
  ∀ id o, p.get? id = some o → o.StoredAs app id

structure Memory.Consistent (m : Memory) : Prop where
  supply : m.supply.Sound
  partitions : ∀ app, Partition.Consistent app (m.objects app)

theorem Partition.Consistent.insert {app : AppId} {p : Partition} (hp : p.Consistent app)
    {id : String} {o : Object} (ho : o.StoredAs app id) :
    Partition.Consistent app (p.insert id o) := by
  intro k x hx
  rw [KeyMap.get?_insert] at hx
  split at hx
  · rename_i hk
    cases hx
    exact hk ▸ ho
  · exact hp k x hx

namespace Object

theorem not_isBlank_of_mayGet {o : Object} {s : Supply} {id : String} (hids : s.NeverBlank)
    (h : o.MayGet s id) : Text.isBlank id = false := by
  rcases h with hgiven | ⟨-, n, rfl⟩
  · obtain ⟨-, hb⟩ := Option.filter_eq_some_iff.mp hgiven
    simpa using hb
  · exact hids n

theorem storedUnder_of_mergeFrom {app : AppId} {id : String} {o stored merged : Object}
    (hid : o.id = some id) (howner : o.appid = some app.text) (hb : Text.isBlank id = false)
    (hmerge : stored.mergeFrom o = .ok merged) (time : Option Int) :
    (merged.withUpdated time).StoredUnder app id :=
  ⟨id_mergeFrom hmerge hid, appid_mergeFrom hmerge howner, hb⟩

end Object

namespace Write.Changes

variable {s : Supply} {id : String} {w : Write} {old new : Option Object}

/-- No write puts an object out of its place. -/
theorem storedUnder (hids : s.NeverBlank) (h : w.Changes s id old new)
    (hold : ∀ o, old = some o → o.StoredUnder w.app id) :
    ∀ o, new = some o → o.StoredUnder w.app id := by
  cases h with
  | same => exact hold
  | created ho howner hid =>
    rintro x ⟨⟩
    exact ⟨rfl, howner, Object.not_isBlank_of_mayGet hids hid⟩
  | @replaced app o stored howner hid =>
    rintro x ⟨⟩
    have hb := (hold stored rfl).notBlank
    refine ⟨?_, howner, hb⟩
    -- The key is the identifier of the object or else blank, and nothing stands under a blank one.
    cases hkey : o.id with
    | none =>
      obtain rfl : "" = id := by simpa [hkey] using hid
      simp [Text.isBlank] at hb
    | some key =>
      obtain rfl : key = id := by simpa [hkey] using hid
      exact hkey
  | @merged app os stored next howners hsteps =>
    rintro x ⟨⟩
    have hstored := hold stored rfl
    induction hsteps with
    | refl => exact hstored
    | tail _ hstep _ =>
      obtain ⟨o, ho, hkey, merged, hmerge, rfl⟩ := hstep
      exact Object.storedUnder_of_mergeFrom hkey (howners o ho) hstored.notBlank hmerge _
  | deleted => rintro x ⟨⟩

theorem sound (hnow : IsInt64 s.now) (hw : ∀ o ∈ w.objects, o.Sound) (h : w.Changes s id old new)
    (hold : ∀ o, old = some o → o.Sound) : ∀ o, new = some o → o.Sound := by
  have htime : ∀ t, some s.now = some t → IsInt64 t := by
    rintro t ⟨⟩
    exact hnow
  cases h with
  | same => exact hold
  | created ho _ _ =>
    rintro x ⟨⟩
    exact ((hw _ ho).withId _).withTimestamp htime
  | @replaced app o stored _ _ =>
    rintro x ⟨⟩
    have ho := hw o List.mem_cons_self
    exact (ho.withTimestamp (hold stored rfl).envelope.timestamp).withUpdated htime
  | @merged app os stored next _ hsteps =>
    rintro x ⟨⟩
    induction hsteps with
    | refl => exact hold stored rfl
    | tail _ hstep _ =>
      obtain ⟨o, -, -, merged, hmerge, rfl⟩ := hstep
      exact Object.sound_merged hmerge hnow
  | deleted => rintro x ⟨⟩

end Write.Changes

namespace Memory

theorem Consistent.withSupply {m : Memory} (hm : m.Consistent) {s : Supply} (hs : s.Sound) :
    ({ m with supply := s } : Memory).Consistent := ⟨hs, hm.partitions⟩

theorem Consistent.run {m : Memory} (hm : m.Consistent) {w : Write}
    (hw : ∀ o ∈ w.objects, o.Sound) : (w.run m).Consistent := by
  obtain ⟨hids, hnow⟩ := w.supply_run m
  refine ⟨⟨hnow ▸ hm.supply.now, hids ▸ hm.supply.ids⟩, fun app id o ho => ?_⟩
  by_cases happ : app = w.app
  · subst happ
    have hchanges := w.changes_run m id
    refine ⟨hchanges.storedUnder hm.supply.ids (fun x hx => ?_) o ho,
      hchanges.sound hm.supply.now hw (fun x hx => ?_) o ho⟩
    · exact (hm.partitions w.app id x hx).toStoredUnder
    · exact (hm.partitions w.app id x hx).sound
  · rw [Write.objects_run happ] at ho
    exact hm.partitions app id o ho

theorem storedAs_of_mergeFrom {app : AppId} {id : String} {now : Int} (hnow : IsInt64 now)
    {stored o merged : Object} (hstored : stored.StoredAs app id) (hid : o.id = some id)
    (howner : o.appid = some app.text) (hmerge : stored.mergeFrom o = .ok merged) :
    (merged.withUpdated (some now)).StoredAs app id :=
  ⟨Object.storedUnder_of_mergeFrom hid howner hstored.notBlank hmerge _,
    Object.sound_merged hmerge hnow⟩

/-- Every object of a storage that can be reached stands under its own identifier, in the partition
of the app it names. -/
theorem Reachable.consistent {m : Memory} (h : Reachable m) : m.Consistent := by
  induction h with
  | empty hs => exact ⟨hs, fun app id o ho => by cases ho⟩
  | wait _ hs ih => exact ih.withSupply hs
  | write _ hw ih => exact ih.run hw

end Memory
end ObjectDepot
