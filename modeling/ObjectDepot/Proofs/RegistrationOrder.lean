import ObjectDepot.Proofs.Principals
import ObjectDepot.Proofs.RegisteredTypes
import ObjectDepot.Proofs.TypeGains

/-! Registrations that wait for one app may be run in any order. Each adds to the record, as it then
is, the types that its own view of the app lacks, so that in the end the record has the plurals of
all of them; which order they had shows only where two types have one plural. -/

namespace ObjectDepot

namespace Registry

/-- All entries of several maps; where some of them have a key, the first one's. -/
def firstOf : List TypeMap → TypeMap
  | [] => .empty
  | types :: rest => (firstOf rest).extend types

theorem get?_firstOf_cons (types : TypeMap) (rest : List TypeMap) (k : String) :
    (firstOf (types :: rest)).get? k = (types.get? k).or ((firstOf rest).get? k) :=
  KeyMap.get?_extend _ _ k

theorem contains_firstOf_iff {maps : List TypeMap} {k : String} :
    (firstOf maps).contains k ↔ ∃ types ∈ maps, types.contains k := by
  induction maps with
  | nil => simp [firstOf, KeyMap.contains]
  | cons types maps ih =>
    rw [KeyMap.contains] at ih ⊢
    rw [get?_firstOf_cons, Option.isSome_or, Bool.or_eq_true, ih]
    simp [KeyMap.contains]

theorem mem_of_get?_firstOf {maps : List TypeMap} {k v : String}
    (h : (firstOf maps).get? k = some v) : ∃ types ∈ maps, types.get? k = some v := by
  induction maps with
  | nil => cases h
  | cons types maps ih =>
    rw [get?_firstOf_cons, Option.or_eq_some_iff] at h
    rcases h with h | ⟨-, h⟩
    · exact ⟨types, List.mem_cons_self, h⟩
    · obtain ⟨types', hmem, h⟩ := ih h
      exact ⟨types', List.mem_cons_of_mem _ hmem, h⟩

end Registry

theorem Object.GainsTypes.isApp {o o' : Object} {types : TypeMap} (h : o.GainsTypes types o')
    (ho : o.IsApp) : o'.IsApp := by
  rw [IsApp, h.shape, h.id]
  exact ho

/-- A view of an app, however old, whose record stands in the partition of `root`. -/
structure App.IsViewOf (a : App) (root owner : AppId) : Prop where
  sound : a.envelope.Sound
  identifier : a.identifier = owner
  partition : a.partition = root

namespace Registration

/-- The types that a registration is to add to a record. -/
def brings (core : TypeMap) (t : Registration) : TypeMap :=
  Registry.unknownTypes core t.app t.objects

def allBring (core : TypeMap) (ts : List Registration) : TypeMap :=
  Registry.firstOf (ts.map (brings core))

/-- No two of the objects have one plural and different types. -/
def Agree (ts : List Registration) : Prop :=
  ∀ t ∈ ts, ∀ t' ∈ ts, ∀ x ∈ t.objects, ∀ y ∈ t'.objects, x.plural = y.plural → x.type = y.type

variable {core : TypeMap} {ts ts' : List Registration}

theorem contains_allBring_iff {k : String} :
    (allBring core ts).contains k ↔ ∃ t ∈ ts, (t.brings core).contains k := by
  simp [allBring, Registry.contains_firstOf_iff]

theorem mem_of_get?_allBring {k v : String} (h : (allBring core ts).get? k = some v) :
    ∃ t ∈ ts, ∃ x ∈ t.objects, x.plural = k ∧ x.type = v := by
  obtain ⟨types, htypes, hv⟩ := Registry.mem_of_get?_firstOf h
  obtain ⟨t, ht, rfl⟩ := List.mem_map.mp htypes
  obtain ⟨x, hx, hplural, htype, -⟩ := Registry.mem_of_get?_unknownTypes hv
  exact ⟨t, ht, x, hx, hplural, htype⟩

theorem contains_allBring_of_perm (core : TypeMap) (h : ts.Perm ts') (k : String) :
    (allBring core ts').contains k ↔ (allBring core ts).contains k := by
  simp only [contains_allBring_iff, h.mem_iff]

theorem allBring_of_perm (h : ts.Perm ts') (hagree : Agree ts) :
    allBring core ts' = allBring core ts := by
  refine KeyMap.ext (fun k => ?_)
  have hsame := contains_allBring_of_perm core h k
  simp only [KeyMap.contains] at hsame
  cases hv : (allBring core ts).get? k with
  | none => simpa [hv] using hsame
  | some v =>
    obtain ⟨v', hv'⟩ := Option.isSome_iff_exists.mp (hsame.mpr (by rw [hv]; rfl))
    obtain ⟨t, ht, x, hx, hxk, rfl⟩ := mem_of_get?_allBring hv
    obtain ⟨t', ht', y, hy, hyk, rfl⟩ := mem_of_get?_allBring hv'
    rw [hv', hagree t ht t' (h.mem_iff.mpr ht') x hx y hy (hxk.trans hyk.symm)]

end Registration

namespace Service

/-- Runs registrations one after the other, each at a time of its own. -/
def runTasks (svc : Service Memory) :
    List (Supply × Registration) → ServiceState Memory → ServiceState Memory
  | [], s => s
  | (supply, t) :: tasks, s => svc.runTasks tasks (svc.runRegistration t (s.withSupply supply)).2

variable (config : Config) (background : Background)

theorem runRegistration_gains {s : ServiceState Memory} (hs : s.store.Reachable)
    {supply : Supply} (hsupply : supply.Sound) {root owner : AppId} {t : Registration}
    (ht : t.app.IsViewOf root owner) {record : Object}
    (hget : s.store.get? root owner.objectId = some record) (hrecord : record.IsApp) :
    let after := ((inMemory config background).runRegistration t (s.withSupply supply)).2
    s.store.RecordGains after.store root owner.objectId record (t.brings s.registry.known) ∧
      after.registry.known = s.registry.known ∧ after.store.Reachable := by
  have hwait : (s.withSupply supply).store.Reachable := .wait hs hsupply
  obtain ⟨hsound, rfl, rfl⟩ := ht
  obtain ⟨hgains, hknown, -⟩ :=
    registerTypes_gains config background hwait.consistent hget (App.ofObject_of_isApp hrecord)
      t.objects
  have heffect := registerTypes_effect config background t.app t.objects (s.withSupply supply)
  exact ⟨⟨hgains.record, hgains.others⟩, hknown,
    Memory.reachable_recordsTypes hsound hwait heffect.1⟩

/-- After registrations for one app its record has what the first of them to bring a plural brought
for it, as far as the record had nothing. -/
theorem runTasks_gains {root owner : AppId} {tasks : List (Supply × Registration)}
    (htasks : ∀ r ∈ tasks, r.1.Sound ∧ r.2.app.IsViewOf root owner) {s : ServiceState Memory}
    (hs : s.store.Reachable) {record : Object}
    (hget : s.store.get? root owner.objectId = some record) (hrecord : record.IsApp) :
    s.store.RecordGains ((inMemory config background).runTasks tasks s).store root owner.objectId
      record (Registration.allBring s.registry.known (tasks.map Prod.snd)) := by
  induction tasks generalizing s record with
  | nil => exact .nothing hget (fun _ => (Option.or_none).symm)
  | cons r tasks ih =>
    obtain ⟨hsupply, ht⟩ := htasks r List.mem_cons_self
    obtain ⟨hgains, hknown, hreachable⟩ :=
      runRegistration_gains config background hs hsupply ht hget hrecord
    obtain ⟨next, hnext, hadded⟩ := hgains.record
    have hh := ih (fun x hx => htasks x (List.mem_cons_of_mem _ hx)) hreachable hnext
      (hadded.isApp hrecord)
    rw [hknown] at hh
    exact hgains.trans hnext hh

/-- Registrations for one app commute. In whatever order they are run, however old the views they
were left with, the record has the same plurals in the end: those it had and those of types that some
view lacks. Its other fields stay as they were, but for the time of the update. Its types are the
same too if no two objects have one plural and different types. -/
theorem registrations_commute {root owner : AppId} {tasks tasks' : List (Supply × Registration)}
    (htasks : ∀ r ∈ tasks, r.1.Sound ∧ r.2.app.IsViewOf root owner) (htasks' : ∀ r ∈ tasks', r.1.Sound)
    (horder : (tasks.map Prod.snd).Perm (tasks'.map Prod.snd)) {s : ServiceState Memory}
    (hs : s.store.Reachable) {record : Object}
    (hget : s.store.get? root owner.objectId = some record) (hrecord : record.IsApp) :
    let svc := inMemory config background
    ∃ o o', (svc.runTasks tasks s).store.get? root owner.objectId = some o ∧
      (svc.runTasks tasks' s).store.get? root owner.objectId = some o' ∧ o.IsApp ∧ o'.IsApp ∧
      (∀ k, o.datatypes.contains k ↔ record.datatypes.contains k ∨
        ∃ t ∈ tasks.map Prod.snd, (t.brings s.registry.known).contains k) ∧
      (∀ k, o'.datatypes.contains k ↔ o.datatypes.contains k) ∧
      (∀ k, k ≠ "datatypes" → k ≠ "updated" →
        o.toFields.get? k = record.toFields.get? k ∧ o'.toFields.get? k = o.toFields.get? k) ∧
      (Registration.Agree (tasks.map Prod.snd) → o'.datatypes = o.datatypes) := by
  intro svc
  have hfor : ∀ r ∈ tasks', r.1.Sound ∧ r.2.app.IsViewOf root owner := by
    intro r hr
    have hmem : r.2 ∈ tasks.map Prod.snd := horder.mem_iff.mpr (List.mem_map_of_mem hr)
    obtain ⟨r', hr', heq⟩ := List.mem_map.mp hmem
    exact ⟨htasks' r hr, heq ▸ (htasks r' hr').2⟩
  obtain ⟨o, ho, hgains⟩ := (runTasks_gains config background htasks hs hget hrecord).record
  obtain ⟨o', ho', hgains'⟩ := (runTasks_gains config background hfor hs hget hrecord).record
  refine ⟨o, o', ho, ho', hgains.isApp hrecord, hgains'.isApp hrecord, fun k => ?_, fun k => ?_,
    fun k hk hupdated => ?_, fun hagree => KeyMap.ext (fun k => ?_)⟩
  · rw [hgains.contains_iff, Registration.contains_allBring_iff]
  · rw [hgains.contains_iff, hgains'.contains_iff, Registration.contains_allBring_of_perm _ horder]
  · rw [hgains'.fields k hk hupdated, hgains.fields k hk hupdated]
    exact ⟨rfl, rfl⟩
  · rw [hgains.types, hgains'.types, Registration.allBring_of_perm horder hagree]

/-- Two registrations for `shop`, one with a view from before the dogs were registered. -/
def shopTasks : List (Supply × Registration) :=
  [(.still, ⟨.shop, [.ofType "dog", .ofType "cat"]⟩),
    (.still, ⟨App.shop.withTypes (.ofList [("dogs", "dog")]), [.ofType "cow", .ofType "cat"]⟩)]

theorem registrations_commute_shop :
    (∀ r ∈ shopTasks, r.1.Sound ∧ r.2.app.IsViewOf ⟨"root"⟩ ⟨"shop"⟩) ∧
      (∀ r ∈ shopTasks.reverse, r.1.Sound) ∧
      (shopTasks.map Prod.snd).Perm (shopTasks.reverse.map Prod.snd) ∧
      dogRecordState.store.Reachable ∧ Registration.Agree (shopTasks.map Prod.snd) ∧
      ∃ record, dogRecordState.store.get? ⟨"root"⟩ "app:shop" = some record ∧ record.IsApp ∧
        let svc := inMemory {} .queued
        ∃ o o', (svc.runTasks shopTasks dogRecordState).store.get? ⟨"root"⟩ "app:shop" = some o ∧
          (svc.runTasks shopTasks.reverse dogRecordState).store.get? ⟨"root"⟩ "app:shop" = some o' ∧
          o.IsApp ∧ o'.IsApp ∧
          (∀ k, o.datatypes.contains k ↔ record.datatypes.contains k ∨
            ∃ t ∈ shopTasks.map Prod.snd, (t.brings dogRecordState.registry.known).contains k) ∧
          (∀ k, o'.datatypes.contains k ↔ o.datatypes.contains k) ∧
          (∀ k, k ≠ "datatypes" → k ≠ "updated" →
            o.toFields.get? k = record.toFields.get? k ∧
              o'.toFields.get? k = o.toFields.get? k) ∧
          o'.datatypes = o.datatypes := by
  have htasks : ∀ r ∈ shopTasks, r.1.Sound ∧ r.2.app.IsViewOf ⟨"root"⟩ ⟨"shop"⟩ := by
    intro r hr
    simp only [shopTasks, List.mem_cons, List.not_mem_nil, or_false] at hr
    have hid : App.shop.identifier = ⟨"shop"⟩ := AppId.ofObjectId_objectId ⟨"shop"⟩
    rcases hr with rfl | rfl <;> exact ⟨Supply.sound_still, App.sound_shop, hid, rfl⟩
  have hsupplies : ∀ r ∈ shopTasks.reverse, r.1.Sound :=
    fun r hr => (htasks r (List.mem_reverse.mp hr)).1
  have horder : (shopTasks.map Prod.snd).Perm (shopTasks.reverse.map Prod.snd) :=
    (List.reverse_perm shopTasks).symm.map Prod.snd
  have hreachable : dogRecordState.store.Reachable := (shopState_reachable _).store
  have hagree : Registration.Agree (shopTasks.map Prod.snd) := by
    unfold Registration.Agree
    decide +kernel
  have hsome : ((dogRecordState.store.get? ⟨"root"⟩ "app:shop").filter
      (fun o => o.shape = some .app)).isSome := by decide +kernel
  obtain ⟨record, hrecord⟩ := Option.isSome_iff_exists.mp hsome
  obtain ⟨hget, hshape⟩ := Option.filter_eq_some_iff.mp hrecord
  have hname : AppId.isBlank ⟨"shop"⟩ = false := by decide +kernel
  have happ : record.IsApp := hreachable.consistent.isApp hname hget (by simpa using hshape)
  obtain ⟨o, o', ho, ho', hisApp, hisApp', hplurals, hsame, hfields, htypes⟩ :=
    registrations_commute {} .queued htasks hsupplies horder hreachable hget happ
  exact ⟨htasks, hsupplies, horder, hreachable, hagree, record, hget, happ, o, o', ho, ho', hisApp,
    hisApp', hplurals, hsame, hfields, htypes hagree⟩

end Service
end ObjectDepot
