import ObjectDepot.Proofs.Identity
import ObjectDepot.Proofs.ItemIsolation

/-! Shard keys. While no app changes whether it is shared, its objects carry its shard key, whatever
clients send. A merge takes over a shard key but takes none away, so that only an update of an object
by itself clears the key an object got before its app ceased to be shared. -/

namespace ObjectDepot

namespace FieldNames

/-- No client's fields hold a shard key, whatever the names clients have for other fields. -/
theorem get?_normalize_shardkey (names : FieldNames) (fields : FieldMap) :
    (names.normalize fields).get? "shardkey" = none := by
  have hrename {m : FieldMap} {source target : String} (htarget : "shardkey" ≠ target)
      (hm : m.get? "shardkey" = none) : (m.rename source target).get? "shardkey" = none := by
    rw [KeyMap.rename]
    split
    · exact hm
    · split
      · rw [KeyMap.get?_insert_of_ne _ _ htarget, KeyMap.get?_erase, hm, ite_self]
      · exact hm
  have herase : (fields.erase "shardkey").get? "shardkey" = none := by simp [KeyMap.get?_erase]
  exact hrename (by decide) (hrename (by decide) herase)

end FieldNames

namespace Object

theorem get?_shardkey (o : Object) : o.envelope.get? "shardkey" = o.shardKey.map .str := rfl

theorem shardKey_overlay {o o' : Object} {fields : FieldMap} {key : Option String}
    (hkey : fields.get? "shardkey" = key.map .str) (h : o.overlay fields = .ok o') :
    o'.shardKey = key.or o.shardKey := by
  have hkept (t : String) : kept? Envelope.fieldSpecs "shardkey" (.str t) = some (.str t) :=
    kept?_eq_some_iff.mpr ⟨rfl, _, rfl, FieldKind.read_text_self_iff.mpr ⟨t, rfl⟩⟩
  have hread : o'.shardKey.map Json.str = (key.or o.shardKey).map .str := by
    rw [← get?_shardkey, get?_overlay_envelope_read h, get?_envelopeChanges, hkey, get?_shardkey]
    cases key with
    | some t => exact hkept t
    | none =>
      cases o.shardKey with
      | some t => exact hkept t
      | none => rfl
  exact Option.map_injective (fun _ _ h => Json.str.inj h) hread

/-- What is merged into an object that is stored, with the shard key of its app. -/
structure StampedChange (o : Object) (key : Option String) : Prop where
  key : o.shardKey = key
  body : o.body.fields.get? "shardkey" = none

theorem MergedWith.shardKey {os : List Object} {id : String} {now : Int} {key : Option String}
    {stored next : Object} (hos : ∀ o ∈ os, o.StampedChange key)
    (h : MergedWith os id now stored next) : next.shardKey = key.or stored.shardKey := by
  obtain ⟨o, ho, -, merged, hmerge, rfl⟩ := h
  have hfield : o.toFields.get? "shardkey" = key.map .str := by
    rw [get?_toFields, (hos o ho).body, Option.or_none, get?_shardkey, (hos o ho).key]
  have hmerged := shardKey_overlay hfield (mergeFrom_eq_ok_iff.mp hmerge)
  exact hmerged

theorem shardKey_of_merges {os : List Object} {id : String} {now : Int} {key : Option String}
    {stored next : Object} (hos : ∀ o ∈ os, o.StampedChange key)
    (h : Relation.ReflTransGen (MergedWith os id now) stored next) :
    next.shardKey = stored.shardKey ∨ next.shardKey = key.or stored.shardKey := by
  induction h with
  | refl => exact .inl rfl
  | tail _ hstep ih =>
    have hnext := hstep.shardKey hos
    rcases ih with ih | ih
    · exact .inr (hnext.trans (by rw [ih]))
    · exact .inr (hnext.trans (by rw [ih, ← Option.or_assoc, Option.or_self]))

structure BelongsTo (o : Object) (app : AppId) (key : Option String) : Prop where
  appid : o.appid = some app.text
  shardKey : o.shardKey = key

end Object

namespace Write

def Stamps (key : Option String) : Write → Prop
  | updateAll _ os => ∀ o ∈ os, o.StampedChange key
  | w => ∀ o ∈ w.objects, o.shardKey = key

theorem Changes.belongsTo {s : Supply} {id : String} {w : Write} {old new : Option Object}
    {key : Option String} (h : w.Changes s id old new) (hw : w.Stamps key)
    (hold : ∀ o, old = some o → o.BelongsTo w.app key) :
    ∀ o, new = some o → o.BelongsTo w.app key := by
  cases h with
  | same => exact hold
  | @created w o ho howner hid =>
    rintro x ⟨⟩
    refine ⟨howner, ?_⟩
    cases w with
    | updateAll app os => exact (hw o ho).key
    | _ => exact hw o ho
  | @replaced app o stored howner hid =>
    rintro x ⟨⟩
    exact ⟨howner, hw o List.mem_cons_self⟩
  | @merged app os stored next howners hsteps =>
    rintro x ⟨⟩
    induction hsteps with
    | refl => exact hold stored rfl
    | tail _ hstep ih =>
      have hkey := hstep.shardKey hw
      rw [ih.shardKey, Option.or_self] at hkey
      obtain ⟨o, ho, -, merged, hmerge, rfl⟩ := hstep
      exact ⟨Object.appid_mergeFrom hmerge (howners o ho), hkey⟩
  | deleted => rintro x ⟨⟩

end Write

/-- Every object outside the partition of `root` belongs to the app that owns its partition, and has
the shard key of that app. -/
def Memory.Stamped (root : AppId) (sharing : AppId → Bool) (m : Memory) : Prop :=
  ∀ app, app ≠ root → ∀ id o, m.get? app id = some o →
    o.BelongsTo app (if sharing app then some app.text else none)

/-- An app whose record lives in the partition of `root`, and that is shared or not as it always is. -/
structure App.SharesAs (app : App) (root : AppId) (sharing : AppId → Bool) : Prop where
  partition : app.partition = root
  shared : app.isShared = sharing app.identifier

theorem App.SharesAs.shardKey {app : App} {root : AppId} {sharing : AppId → Bool}
    (h : app.SharesAs root sharing) :
    app.shardKey = if sharing app.identifier then some app.identifier.text else none := by
  rw [App.shardKey, h.shared]

namespace Memory

variable {root : AppId} {sharing : AppId → Bool} {m m' : Memory} {app : App}

theorem Stamped.write (hm : m.Stamped root sharing) {w : Write}
    (hw : w.Stamps (if sharing w.app then some w.app.text else none)) :
    (w.run m).Stamped root sharing := by
  intro app happ id o ho
  by_cases hown : app = w.app
  · subst hown
    exact (w.changes_run m id).belongsTo hw (hm w.app happ id) o ho
  · rw [get?, Write.objects_run hown] at ho
    exact hm app happ id o ho

theorem Stamped.recordsTypes (hm : m.Stamped root sharing) (happ : app.SharesAs root sharing)
    {os : List Object} (h : RecordsTypes app os m m') : m'.Stamped root sharing := by
  intro other hother id o ho
  refine hm other hother id o ?_
  rw [← ho, get?, get?, h.objects (happ.partition ▸ hother)]

end Memory

def Act.KeepsSharing (root : AppId) (sharing : AppId → Bool) : Act → Prop
  | request app _ => app.SharesAs root sharing
  | registration _ _ => True

structure ServiceState.Stamped (root : AppId) (sharing : AppId → Bool) (s : ServiceState Memory) :
    Prop where
  store : s.store.Stamped root sharing
  pending : ∀ t ∈ s.pending, t.app.SharesAs root sharing

namespace Service

section

variable {svc : Service Memory} {app : App}

theorem Made.shardKey {o : Object} (h : svc.Made app o) : o.shardKey = app.shardKey := by
  obtain ⟨fields, x, -, rfl⟩ := h
  rfl

theorem shardKey_revision {target : Option Object} {body : RequestBody} {o : Object}
    (h : svc.revision app target body = .ok o) : o.shardKey = app.shardKey := by
  obtain ⟨fields, t, -, -, -, -, hchange, -⟩ := revision_eq_ok_iff.mp h
  have hlay := FieldNames.apply_eq_ok_iff.mp hchange
  have hnone : (((svc.names.normalize fields).erase "type").filter
      (fun name _ => !(app.stamp t).isLocked name)).get? "shardkey" =
        (none : Option String).map .str := by
    rw [FieldNames.get?_filter_unlocked, KeyMap.get?_erase, FieldNames.get?_normalize_shardkey]
    simp
  exact Object.shardKey_overlay hnone hlay

theorem stampedChange_of_changes? {item : Json} {o : Object} (h : svc.changes? app item = some o) :
    o.StampedChange app.shardKey := by
  obtain ⟨fields, x, -, -, -, hx, rfl⟩ := changes?_eq_some_iff.mp h
  exact ⟨rfl, (changeFor_of_changes? h).body "shardkey" rfl⟩

theorem Does.stamped {root : AppId} {sharing : AppId → Bool} (happ : app.SharesAs root sharing)
    {m m' : Memory} (hm : m.Stamped root sharing) {call : Call (Option Object)}
    {tasks : List Registration} (h : Does svc app m call m' tasks) : m'.Stamped root sharing := by
  have hkey := happ.shardKey
  cases h with
  | nothing => exact hm
  | records _ hrecords => exact hm.recordsTypes happ hrecords
  | @creates hint body o m₁ ho hrecords =>
    refine Memory.Stamped.write (w := .create app.identifier o) (hm.recordsTypes happ hrecords) ?_
    intro x hx
    obtain rfl := List.mem_singleton.mp hx
    exact (made_of_draft ho).shardKey.trans hkey
  | @updates target body o ho =>
    refine Memory.Stamped.write (w := .update app.identifier o) hm ?_
    intro x hx
    obtain rfl := List.mem_singleton.mp hx
    exact (shardKey_revision ho).trans hkey
  | deletes target =>
    refine Memory.Stamped.write (w := .delete app.identifier (app.adopt target)) hm ?_
    intro x hx
    obtain rfl := List.mem_singleton.mp hx
    exact hkey
  | @createsAll body items os _ _ hos _ =>
    refine Memory.Stamped.write (w := .createAll app.identifier os) hm ?_
    intro x hx
    obtain ⟨item, -, hitem⟩ := List.mem_filterMap.mp (hos x hx)
    exact (made_of_newObject? hitem).shardKey.trans hkey
  | @updatesAll body items _ =>
    refine Memory.Stamped.write (w := .updateAll app.identifier _) hm ?_
    intro x hx
    obtain ⟨item, -, hitem⟩ := List.mem_filterMap.mp hx
    exact hkey ▸ stampedChange_of_changes? hitem
  | deletesAll ids =>
    refine Memory.Stamped.write (w := .deleteAll app.identifier _) hm ?_
    intro x hx
    obtain ⟨o, -, rfl⟩ := List.mem_map.mp hx
    exact hkey

end

variable (config : Config) (background : Background) {root : AppId} {sharing : AppId → Bool}

theorem stamped_act {a : Act} (ha : a.KeepsSharing root sharing) {s : ServiceState Memory}
    (hs : s.Stamped root sharing) (supply : Supply) :
    ((inMemory config background).act supply s a).Stamped root sharing := by
  have hwait : (s.withSupply supply).Stamped root sharing := ⟨hs.store, hs.pending⟩
  cases a with
  | request app call =>
    obtain ⟨tasks, hdoes, -⟩ := answer_does config background app (s.withSupply supply) call
    exact ⟨hdoes.stamped ha hwait.store, pending_answer (P := (·.SharesAs root sharing))
      config background ha hwait.pending call⟩
  | registration app index =>
    refine ⟨?_, pending_runWaiting (P := (·.SharesAs root sharing)) config background app index
      hwait.pending⟩
    refine store_runWaiting config background hwait.store (fun t ht m hrecords => ?_) app index
    exact hwait.store.recordsTypes (hwait.pending t ht) hrecords

theorem stamped_actAll {acts : List (Supply × Act)}
    (hacts : ∀ r ∈ acts, r.2.KeepsSharing root sharing) {s : ServiceState Memory}
    (hs : s.Stamped root sharing) :
    ((inMemory config background).actAll acts s).Stamped root sharing := by
  induction acts generalizing s with
  | nil => exact hs
  | cons r acts ih =>
    have hr := stamped_act config background (hacts r List.mem_cons_self) hs r.1
    exact ih (fun x hx => hacts x (List.mem_cons_of_mem _ hx)) hr

/-- A storage that is empty but for the partition of `root` comes to hold, outside of that partition,
objects that name the app they belong to and carry its shard key just in case it is shared. -/
theorem actAll_linked {m : Memory} (hm : ∀ app, app ≠ root → m.objects app = .empty)
    {acts : List (Supply × Act)} (hacts : ∀ r ∈ acts, r.2.KeepsSharing root sharing) {app : AppId}
    (happ : app ≠ root) {id : String} {o : Object}
    (ho : ((inMemory config background).actAll acts
      ((inMemory config background).initial m)).store.get? app id = some o) :
    o.appid = some app.text ∧ o.shardKey = if sharing app then some app.text else none := by
  have hinitial : ((inMemory config background).initial m).Stamped root sharing := by
    refine ⟨fun other hother k x hx => ?_, fun t ht => by cases ht⟩
    have hempty : m.get? other k = none := by rw [Memory.get?, hm other hother, KeyMap.get?_empty]
    cases hempty.symm.trans hx
  have hend := stamped_actAll config background hacts hinitial
  have hbelongs := hend.store app happ id o ho
  exact ⟨hbelongs.appid, hbelongs.shardKey⟩

/-- What `shop`, which is shared, and `farm`, which is not, do with forged fields. The object that is
updated is not even stored like that. -/
def forgedKeys : List (Supply × Act) :=
  let shop := App.shop.withShared true
  let dog := ((Object.ofType "dog").withId (some "d")).withAppid (some "shop")
  [(.still, .request shop (.create none
      (.ofText "\x7b\"id\":\"d\",\"type\":\"dog\",\"appid\":\"farm\",\"shardkey\":\"farm\"\x7d"))),
    (.still, .request shop (.update (some (dog.withShardKey (some "farm")))
      (.ofText "\x7b\"name\":\"A\",\"shardkey\":null\x7d"))),
    (.still, .request shop (.batchUpdate
      (.ofText "[\x7b\"id\":\"d\",\"type\":\"dog\",\"appid\":\"farm\",\"shardkey\":\"\"\x7d]"))),
    (.still, .request (.named "farm" ⟨"root"⟩) (.batchCreate
      (.ofText "[\x7b\"id\":\"c\",\"type\":\"cow\",\"shardkey\":\"shop\"\x7d]"))),
    (.still, .registration ⟨"farm"⟩ 0)]

theorem actAll_linked_dog :
    (∀ app : AppId, app ≠ ⟨"root"⟩ → (Memory.ofSupply .still).objects app = .empty) ∧
      (∀ r ∈ forgedKeys, r.2.KeepsSharing ⟨"root"⟩ (fun app => app = ⟨"shop"⟩)) ∧
      ∃ o, ((inMemory {} .queued).actAll forgedKeys
          ((inMemory {} .queued).initial (.ofSupply .still))).store.get? ⟨"shop"⟩ "d" = some o ∧
        o.appid = some "shop" ∧ o.shardKey = some "shop" := by
  have hempty : ∀ app : AppId, app ≠ ⟨"root"⟩ → (Memory.ofSupply .still).objects app = .empty :=
    fun _ _ => rfl
  have hacts : ∀ r ∈ forgedKeys, r.2.KeepsSharing ⟨"root"⟩ (fun app => app = ⟨"shop"⟩) := by
    intro r hr
    simp only [forgedKeys, List.mem_cons, List.not_mem_nil, or_false] at hr
    rcases hr with rfl | rfl | rfl | rfl | rfl
    · exact ⟨rfl, by decide⟩
    · exact ⟨rfl, by decide⟩
    · exact ⟨rfl, by decide⟩
    · exact ⟨rfl, by decide⟩
    · trivial
  have hsome : (((inMemory {} .queued).actAll forgedKeys
      ((inMemory {} .queued).initial (.ofSupply .still))).store.get? ⟨"shop"⟩ "d").isSome := by
    decide +kernel
  obtain ⟨o, ho⟩ := Option.isSome_iff_exists.mp hsome
  exact ⟨hempty, hacts, o, ho, actAll_linked {} .queued hempty hacts (by decide) ho⟩

end Service

namespace Memory

/-- When a batch goes through, each object that is named in it has the key of the batch, and without
one the key it had. -/
theorem shardKey_mergeAll {key : Option String} {now : Int} {os : List Object}
    (hos : ∀ o ∈ os, o.StampedChange key) {p : Partition}
    (hanswer : (mergeAll now p os).1.answer = .ok ()) {o : Object} (ho : o ∈ os) {id : String}
    (hid : o.id = some id) {stored : Object} (hget : p.get? id = some stored) :
    ∃ after, (mergeAll now p os).2.get? id = some after ∧
      after.shardKey = key.or stored.shardKey := by
  induction os generalizing p stored with
  | nil => cases ho
  | cons x os ih =>
    have hos' : ∀ y ∈ os, y.StampedChange key := fun y hy => hos y (List.mem_cons_of_mem _ hy)
    cases htarget : x.id.bind p.get? with
    | none =>
      rw [mergeAll_cons_of_absent htarget] at hanswer ⊢
      rcases List.mem_cons.mp ho with rfl | ho
      · simp [hid, hget] at htarget
      · exact ih hos' hanswer ho hget
    | some target =>
      obtain ⟨k, hk, hfound⟩ := Option.bind_eq_some_iff.mp htarget
      cases hmerge : target.mergeFrom x with
      | error e =>
        rw [mergeAll_cons_of_error hk hfound hmerge] at hanswer
        cases hanswer
      | ok merged =>
        rw [mergeAll_cons_of_ok hk hfound hmerge] at hanswer ⊢
        by_cases heq : id = k
        · subst heq
          obtain rfl : target = stored := Option.some.inj (hfound.symm.trans hget)
          have hfirst : Object.MergedWith (x :: os) id now target (merged.withUpdated (some now)) :=
            ⟨x, List.mem_cons_self, hk, merged, hmerge, rfl⟩
          obtain ⟨after, hafter, hsteps⟩ := (get?_mergeAll now
            (p.insert id (merged.withUpdated (some now))) os id).2 _ (KeyMap.get?_insert_self ..)
          have hkey := hfirst.shardKey hos
          refine ⟨after, hafter, ?_⟩
          -- What follows in the batch brings the same key again.
          rcases Object.shardKey_of_merges hos' hsteps with hafter | hafter
          · exact hafter.trans hkey
          · rw [hafter, hkey, ← Option.or_assoc, Option.or_self]
        · have hget' := (KeyMap.get?_insert_of_ne p (merged.withUpdated (some now)) heq).trans hget
          rcases List.mem_cons.mp ho with rfl | ho
          · exact absurd (Option.some.inj (hid.symm.trans hk)) heq
          · exact ih hos' hanswer ho hget'

end Memory

theorem App.or_shardKey_iff (app : App) (key : Option String) :
    app.shardKey.or key = app.shardKey ↔ app.isShared ∨ key = none := by
  by_cases h : app.isShared
  · simp [App.shardKey, h]
  · simp [App.shardKey, h]

namespace Service

/-- A batch update that is answered with 200 gives the objects that its items name the shard key of
the app, except that an app that is not shared leaves them the key they have. -/
theorem batchUpdate_restamps_iff (config : Config) (background : Background)
    {s : ServiceState Memory} (app : App) (body : RequestBody)
    (h : Outcome.status (((inMemory config background).batchUpdate app body).on s).1 = 200) :
    ∃ items, RequestBody.readList config.maxEntitySize body = .ok items ∧
      ∀ o ∈ items.filterMap ((inMemory config background).changes? app), ∀ id, o.id = some id →
        let before := s.store.get? app.identifier id
        let after := (((inMemory config background).batchUpdate app body).on s).2.store.get?
          app.identifier id
        after.map Object.shardKey = before.map (fun stored => app.shardKey.or stored.shardKey) ∧
          ∀ x, after = some x → (x.shardKey = app.shardKey ↔
            app.isShared ∨ before.bind Object.shardKey = none) := by
  cases hread : RequestBody.readList config.maxEntitySize body with
  | error f =>
    have hread' : RequestBody.readList (inMemory config background).config.maxEntitySize body =
        .error f := hread
    rw [batchUpdate_on, hread'] at h
    exact absurd h f.status_ne_ok
  | ok items =>
    refine ⟨items, rfl, fun o ho id hid => ?_⟩
    intro before after
    have hanswer := (status_batchUpdate_iff config background app s hread).mp h
    obtain ⟨-, hobjects, -, -⟩ := batchUpdate_spec config background app s hread
    have hafter : after = (Memory.mergeAll s.store.supply.now (s.store.objects app.identifier)
        (items.filterMap ((inMemory config background).changes? app))).2.get? id :=
      congrArg (fun p : Partition => p.get? id) hobjects
    have hos : ∀ x ∈ items.filterMap ((inMemory config background).changes? app),
        x.StampedChange app.shardKey := by
      intro x hx
      obtain ⟨item, -, hitem⟩ := List.mem_filterMap.mp hx
      exact stampedChange_of_changes? hitem
    have hkeys : after.map Object.shardKey =
        before.map (fun stored => app.shardKey.or stored.shardKey) := by
      cases hbefore : before with
      | none =>
        rw [hafter, (Memory.get?_mergeAll _ _ _ id).1 hbefore]
        rfl
      | some stored =>
        obtain ⟨x, hx, hkey⟩ := Memory.shardKey_mergeAll hos hanswer ho hid hbefore
        rw [hafter, hx, Option.map_some, hkey, Option.map_some]
    refine ⟨hkeys, fun x hx => ?_⟩
    rw [hx] at hkeys
    cases hbefore : before with
    | none => simp [hbefore] at hkeys
    | some stored =>
      have hkey : x.shardKey = app.shardKey.or stored.shardKey := by simpa [hbefore] using hkeys
      rw [hkey, App.or_shardKey_iff, Option.bind_some]

def sharedDogState : ServiceState Memory :=
  ((inMemory {} .queued).run
    [⟨.still, .request (App.shop.withShared true)
      (.create none (.ofText "\x7b\"id\":\"d\",\"type\":\"dog\"\x7d"))⟩]
    ((inMemory {} .queued).initial (.ofSupply .still))).2

theorem batchUpdate_restamps_iff_dog :
    Outcome.status (((inMemory {} .queued).batchUpdate .shop dogBody).on sharedDogState).1 = 200 ∧
      ∃ items, RequestBody.readList ({} : Config).maxEntitySize dogBody = .ok items ∧
        ∀ o ∈ items.filterMap ((inMemory {} .queued).changes? .shop), ∀ id, o.id = some id →
          let before := sharedDogState.store.get? App.shop.identifier id
          let after := (((inMemory {} .queued).batchUpdate .shop dogBody).on
            sharedDogState).2.store.get? App.shop.identifier id
          after.map Object.shardKey =
              before.map (fun stored => App.shop.shardKey.or stored.shardKey) ∧
            ∀ x, after = some x → (x.shardKey = App.shop.shardKey ↔
              App.shop.isShared ∨ before.bind Object.shardKey = none) := by
  have hstatus : Outcome.status
      (((inMemory {} .queued).batchUpdate .shop dogBody).on sharedDogState).1 = 200 := by
    decide +kernel
  exact ⟨hstatus, batchUpdate_restamps_iff {} .queued .shop dogBody hstatus⟩

def keyOfDog (s : ServiceState Memory) : Option String :=
  (s.store.get? App.shop.identifier "d").bind Object.shardKey

/-- The dog keeps the shard key of `shop` in a batch update when `shop` is shared no longer, while an
update of the dog by itself clears it. -/
theorem batchUpdate_keeps_shardKey :
    let svc := inMemory {} .queued
    let batch := (svc.batchUpdate .shop dogBody).on sharedDogState
    let single := (svc.update .shop (sharedDogState.store.get? App.shop.identifier "d")
      (.ofText "\x7b\"name\":\"R\"\x7d")).on sharedDogState
    RequestBody.readList ({} : Config).maxEntitySize dogBody = .ok [dogFields] ∧
      ((svc.changes? .shop dogFields).bind Object.id) = some "d" ∧
      App.shop.shardKey = none ∧ keyOfDog sharedDogState = some "shop" ∧
      Outcome.status batch.1 = 200 ∧ keyOfDog batch.2 = some "shop" ∧
      Outcome.status single.1 = 200 ∧ keyOfDog single.2 = none := by
  decide +kernel

end Service
end ObjectDepot
