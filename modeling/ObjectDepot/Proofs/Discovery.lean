import ObjectDepot.Proofs.Identity
import ObjectDepot.Proofs.RecordNames
import ObjectDepot.Proofs.RegistrationOrder

/-! Which types can be found. While objects are created for an app whose view is read anew each time,
every plural is that of a core type, or registered on the record, or brought by a registration that
waits. Once none waits, each object is found by its plural, under the one type that got it. -/

namespace ObjectDepot

theorem takeWaiting_perm {app : AppId} {index : Nat} {tasks rest : List Registration}
    {t : Registration} (h : takeWaiting app index tasks = some (t, rest)) :
    tasks.Perm (t :: rest) := by
  induction tasks generalizing index rest with
  | nil => cases h
  | cons x tasks ih =>
    have hskip {index : Nat}
        (h : (takeWaiting app index tasks).map (fun r => (r.1, x :: r.2)) = some (t, rest)) :
        (x :: tasks).Perm (t :: rest) := by
      obtain ⟨⟨t', rest'⟩, htake, heq⟩ := Option.map_eq_some_iff.mp h
      cases heq
      exact ((ih htake).cons x).trans (.swap _ _ _)
    unfold takeWaiting at h
    split at h
    · cases index with
      | zero =>
        cases h
        exact .refl _
      | succ index => exact hskip h
    · exact hskip h

namespace Memory

theorem mem_left_makeAllReady {app : AppId} {p : Partition} {os : List Object} {s : Supply}
    {staged result : Partition} (h : (makeAllReady app p staged s os).1.answer = .ok result) :
    (∀ id x, staged.get? id = some x → result.get? id = some x) ∧
      (∀ x ∈ (makeAllReady app p staged s os).1.left, ∃ id, result.get? id = some x) ∧
      ∀ id x, result.get? id = some x → staged.get? id = some x ∨
        x ∈ (makeAllReady app p staged s os).1.left := by
  induction os generalizing s staged with
  | nil =>
    cases h
    exact ⟨fun _ _ hx => hx, by rintro x ⟨⟩, fun _ _ hx => .inl hx⟩
  | cons o os ih =>
    rw [makeAllReady] at h ⊢
    rcases hready : makeReady app p s o with ⟨⟨answer, left⟩, s'⟩
    rw [hready] at h
    cases answer with
    | error e => cases h
    | ok key =>
      dsimp only at h ⊢
      split at h
      · cases h
      · rename_i hfree
        rw [if_neg hfree]
        obtain ⟨hstaged, hleft, hresult⟩ := ih h
        have hnone : staged.get? key = none := by simpa [KeyMap.contains] using hfree
        refine ⟨fun id x hx => hstaged id x ?_, fun x hx => ?_, fun id x hx => ?_⟩
        · have hne : id ≠ key := by
            rintro rfl
            cases hnone.symm.trans hx
          rw [KeyMap.get?_insert_of_ne _ _ hne, hx]
        · rcases List.mem_cons.mp hx with rfl | hx
          · exact ⟨key, hstaged key x (KeyMap.get?_insert_self ..)⟩
          · exact hleft x hx
        · rcases hresult id x hx with hx | hx
          · rw [KeyMap.get?_insert] at hx
            split at hx
            · cases hx
              exact .inr List.mem_cons_self
            · exact .inl hx
          · exact .inr (List.mem_cons_of_mem _ hx)

theorem mem_left_createAll {app : AppId} {os left : List Object} {m : Memory} {ids : List String}
    (h : (createAll app os m).1 = ⟨.ok ids, left⟩) :
    (∀ x ∈ left, ∃ id, (createAll app os m).2.get? app id = some x) ∧
      ∀ id x, m.get? app id = none → (createAll app os m).2.get? app id = some x → x ∈ left := by
  rw [createAll] at h ⊢
  rcases hready : makeAllReady app (m.objects app) .empty m.supply os with ⟨⟨answer, made⟩, s⟩
  rw [hready] at h
  cases answer with
  | error e => cases h
  | ok result =>
    cases h
    have hanswer : (makeAllReady app (m.objects app) .empty m.supply os).1.answer = .ok result := by
      rw [hready]
    obtain ⟨-, hleft, hresult⟩ := mem_left_makeAllReady hanswer
    rw [hready] at hleft hresult
    dsimp only
    refine ⟨fun x hx => ?_, fun id x hnone hx => ?_⟩
    · obtain ⟨id, hid⟩ := hleft x hx
      refine ⟨id, ?_⟩
      rw [get?_withPartition, KeyMap.get?_extend, hid, Option.some_or]
    · rw [get?, objects] at hnone
      rw [get?_withPartition, KeyMap.get?_extend, objects, hnone, Option.or_none] at hx
      rcases hresult id x hx with hx | hx
      · cases hx
      · exact hx

theorem get?_createAll_of_error {app : AppId} {os left : List Object} {m : Memory}
    {e : StorageError} (h : (createAll app os m).1 = ⟨.error e, left⟩) (other : AppId)
    (id : String) : (createAll app os m).2.get? other id = m.get? other id := by
  rw [createAll] at h ⊢
  rcases hready : makeAllReady app (m.objects app) .empty m.supply os with ⟨⟨answer, made⟩, s⟩
  rw [hready] at h
  cases answer with
  | error e => rfl
  | ok result => cases h

end Memory

namespace Object

theorem SameIdentity.plural {o o' : Object} (h : o.SameIdentity o') : o'.plural = o.plural := by
  rw [Object.plural, Object.plural, h.shape, h.type]

end Object

/-- Whether each type is held by the plural that is derived from it. -/
def KeyMap.IsDerived (types : TypeMap) : Prop :=
  ∀ k v, types.get? k = some v → TypeName.pluralize v = k

namespace Registry

theorem isDerived_addCore {types : TypeMap} (h : types.IsDerived) {plural singular : String}
    (hplural : TypeName.pluralize singular = plural) : (addCore types plural singular).IsDerived := by
  unfold addCore
  split
  · exact h
  · intro k v hv
    rw [KeyMap.get?_insert] at hv
    split at hv
    · rename_i hk
      cases hv
      exact hplural.trans hk.symm
    · exact h k v hv

theorem isDerived_findCore (extra : List String) : (findCore extra).IsDerived := by
  have hshapes : shapeTypes.IsDerived := by
    unfold shapeTypes
    refine List.foldlRecOn _ _ (fun k v hv => ?_) (fun types h s _ => ?_)
    · cases hv
    · exact isDerived_addCore h s.plural_eq_pluralize.symm
  unfold findCore
  exact List.foldlRecOn _ _ hshapes (fun types h s _ => isDerived_addCore h rfl)

end Registry

def ServiceState.Seen (s : ServiceState Memory) (owner : AppId) (drafts : List Object)
    (o : Object) : Prop :=
  (∃ id, s.store.get? owner id = some o) ∨ o ∈ drafts

def ServiceState.Shows (s : ServiceState Memory) (owner : AppId) (drafts : List Object)
    (plural type : String) : Prop :=
  ∃ o, s.Seen owner drafts o ∧ o.plural = plural ∧ o.type = type

theorem ServiceState.Shows.mono {s s' : ServiceState Memory} {owner : AppId}
    {drafts drafts' : List Object} {plural type : String} (h : s.Shows owner drafts plural type)
    (hstore : ∀ id, s.store.Keeps s'.store owner id) (hdrafts : ∀ o ∈ drafts, o ∈ drafts') :
    s'.Shows owner drafts' plural type := by
  obtain ⟨o, ⟨id, ho⟩ | ho, rfl, rfl⟩ := h
  · obtain ⟨o', ho', hsame⟩ := hstore id o ho
    exact ⟨o', .inl ⟨id, ho'⟩, hsame.plural, hsame.type⟩
  · exact ⟨o, .inr (hdrafts o ho), rfl, rfl⟩

/-- Whether a registration brings an object of a plural and of a properly named type. -/
def Registration.Has (t : Registration) (plural : String) : Prop :=
  ∃ x ∈ t.objects, x.plural = plural ∧ TypeName.isValid x.type

/-- Whether a plural is that of a core type, or is registered, or is brought by a registration of the
app that waits. -/
def Accounted (core types : TypeMap) (owner : AppId) (tasks : List Registration)
    (plural : String) : Prop :=
  core.contains plural ∨ types.contains plural ∨
    ∃ t ∈ tasks, t.app.identifier = owner ∧ t.Has plural

theorem Accounted.mono {core types types' : TypeMap} {owner : AppId}
    {tasks tasks' : List Registration} {plural : String}
    (h : Accounted core types owner tasks plural)
    (htypes : types.contains plural → types'.contains plural)
    (htasks : ∀ t ∈ tasks, t ∈ tasks') : Accounted core types' owner tasks' plural := by
  rcases h with hcore | hhas | ⟨t, ht, hwaits⟩
  · exact .inl hcore
  · exact .inr (.inl (htypes hhas))
  · exact .inr (.inr ⟨t, htasks t ht, hwaits⟩)

/-- The record of an app, the core types, and what waits: all plurals are accounted for, and only
types of objects that were seen are registered. -/
structure ServiceState.Accounts (s : ServiceState Memory) (root owner : AppId) (core : TypeMap)
    (drafts : List Object) (record : Object) : Prop where
  reachable : s.Reachable
  known : s.registry.known = core
  held : s.store.get? root owner.objectId = some record
  isApp : record.IsApp
  typed : ∀ o, s.Seen owner drafts o → o.Typed
  registered : ∀ k v, record.datatypes.get? k = some v →
    core.contains k = false ∧ s.Shows owner drafts k v
  stored : ∀ id o, s.store.get? owner id = some o →
    Accounted core record.datatypes owner s.pending o.plural
  waiting : ∀ t ∈ s.pending, t.app.identifier = owner → t.app.IsViewOf root owner ∧
    (∀ k, t.app.types.contains k → record.datatypes.contains k) ∧
    ∀ x ∈ t.objects, s.Shows owner drafts x.plural x.type

namespace ServiceState.Accounts

variable {s : ServiceState Memory} {root owner : AppId} {core : TypeMap} {drafts : List Object}
  {record : Object}

theorem withSupply (h : s.Accounts root owner core drafts record) {supply : Supply}
    (hsupply : supply.Sound) : (s.withSupply supply).Accounts root owner core drafts record :=
  ⟨⟨.wait h.reachable.store hsupply, h.reachable.pending⟩, h.known, h.held, h.isApp,
    h.typed, h.registered, h.stored, h.waiting⟩

theorem withDraft (h : s.Accounts root owner core drafts record) {d : Object} (hd : d.Typed) :
    s.Accounts root owner core (drafts ++ [d]) record := by
  have hmono {k v : String} (hshows : s.Shows owner drafts k v) :
      s.Shows owner (drafts ++ [d]) k v :=
    hshows.mono (fun id => .refl s.store owner id) (fun _ ho => List.mem_append_left _ ho)
  refine ⟨h.reachable, h.known, h.held, h.isApp, fun o ho => ?_, fun k v hv => ?_, h.stored,
    fun t ht hid => ?_⟩
  · rcases ho with ho | ho
    · exact h.typed o (.inl ho)
    · rcases List.mem_append.mp ho with ho | ho
      · exact h.typed o (.inr ho)
      · exact List.mem_singleton.mp ho ▸ hd
  · obtain ⟨hcore, hshows⟩ := h.registered k v hv
    exact ⟨hcore, hmono hshows⟩
  · obtain ⟨hview, htypes, hshows⟩ := h.waiting t ht hid
    exact ⟨hview, htypes, fun x hx => hmono (hshows x hx)⟩

/-- A registration accounts for the objects it is given: afterwards their plurals are those of core
types, or are registered. -/
theorem registers (config : Config) (background : Background)
    (h : s.Accounts root owner core drafts record) (howner : owner ≠ root) {app : App}
    (happ : app.IsViewOf root owner)
    (htypes : ∀ k, app.types.contains k → record.datatypes.contains k) {os : List Object}
    (hos : ∀ x ∈ os, s.Shows owner drafts x.plural x.type) :
    ∃ record', ((Service.inMemory config background).registerTypes (some app) os s).2.Accounts root
        owner core drafts record' ∧
      ((Service.inMemory config background).registerTypes (some app) os s).2.pending = s.pending ∧
      ∀ x ∈ os, TypeName.isValid x.type →
        core.contains x.plural ∨ record'.datatypes.contains x.plural := by
  obtain ⟨hsound, rfl, rfl⟩ := happ
  have hlatest := App.ofObject_of_isApp h.isApp
  have hconsistent := h.reachable.store.consistent
  obtain ⟨hgains, hknown, hpending⟩ :=
    Service.registerTypes_gains config background hconsistent h.held hlatest os
  have hrecords := (Service.registerTypes_effect config background app os s).1
  generalize ((Service.inMemory config background).registerTypes (some app) os s).2 = after at *
  obtain ⟨record', hrecord', hadded⟩ := hgains.record
  rw [h.known] at hadded
  have hgrows {k : String} (hk : record.datatypes.contains k) : record'.datatypes.contains k :=
    (hadded.contains_iff k).mpr (.inl hk)
  have hshows {k v : String} (hv : s.Shows app.identifier drafts k v) :
      after.Shows app.identifier drafts k v :=
    hv.mono (fun id => hrecords.keeps hconsistent app.identifier id) (fun _ ho => ho)
  refine ⟨record', ⟨⟨Memory.reachable_recordsTypes hsound h.reachable.store hrecords, ?_⟩,
    hknown.trans h.known, hrecord', hadded.isApp h.isApp, fun o ho => ?_, fun k v hv => ?_,
    fun id o ho => ?_, fun t ht hid => ?_⟩, hpending, fun x hx hvalid => ?_⟩
  · rw [hpending]
    exact h.reachable.pending
  · rcases ho with ⟨id, ho⟩ | ho
    · rw [hgains.others app.identifier id (.inl howner)] at ho
      exact h.typed o (.inl ⟨id, ho⟩)
    · exact h.typed o (.inr ho)
  · rw [hadded.types, Option.or_eq_some_iff] at hv
    rcases hv with hv | ⟨-, hv⟩
    · obtain ⟨hcore, hv⟩ := h.registered k v hv
      exact ⟨hcore, hshows hv⟩
    · have hnew := Registry.contains_unknownTypes_iff.mp (Option.isSome_iff_exists.mpr ⟨v, hv⟩)
      obtain ⟨x, hx, rfl, rfl, -⟩ := Registry.mem_of_get?_unknownTypes hv
      exact ⟨hnew.2.1, hshows (hos x hx)⟩
  · rw [hgains.others app.identifier id (.inl howner)] at ho
    rw [hpending]
    exact (h.stored id o ho).mono hgrows (fun t ht => ht)
  · rw [hpending] at ht
    obtain ⟨hview, htypes, hall⟩ := h.waiting t ht hid
    exact ⟨hview, fun k hk => hgrows (htypes k hk), fun y hy => hshows (hall y hy)⟩
  · -- the view may be old, but it has no types that the record lacks by now
    cases hcore : core.contains x.plural with
    | true => exact .inl rfl
    | false =>
      refine .inr ?_
      cases hview : app.types.contains x.plural with
      | true => exact hgrows (htypes _ hview)
      | false =>
        exact (hadded.contains_iff _).mpr (.inr
          (Registry.contains_unknownTypes_iff.mpr ⟨⟨x, hx, rfl, hvalid⟩, hcore, hview⟩))

theorem stores (h : s.Accounts root owner core drafts record) {w : Write} (hw : w.Creates)
    (hobjects : ∀ o ∈ w.objects, o.Sound ∧ o.Typed) (tasks : List Registration)
    (hnew : ∀ id x, s.store.get? owner id = none → (w.run s.store).get? owner id = some x →
      Accounted core record.datatypes owner tasks x.plural)
    (htasks : ∀ t ∈ tasks, t.app.IsViewOf root owner ∧
      (∀ k, t.app.types.contains k → record.datatypes.contains k) ∧
      ∀ x ∈ t.objects, ∃ id, (w.run s.store).get? owner id = some x) :
    ({ s with store := w.run s.store, pending := s.pending ++ tasks } :
      ServiceState Memory).Accounts root owner core drafts record := by
  have hkeeps (id : String) : s.store.Keeps (w.run s.store) owner id :=
    fun o ho => ⟨o, Write.run_of_creates hw ho, .refl o⟩
  refine ⟨⟨.write h.reachable.store (fun o ho => (hobjects o ho).1), fun t ht => ?_⟩, h.known,
    Write.run_of_creates hw h.held, h.isApp, fun o ho => ?_, fun k v hv => ?_, fun id o ho => ?_,
    fun t ht hid => ?_⟩
  · rcases List.mem_append.mp ht with ht | ht
    · exact h.reachable.pending t ht
    · exact (htasks t ht).1.sound
  · rcases ho with ⟨id, ho⟩ | ho
    · rcases Write.old_or_new hw ho with hold | ⟨-, x, hx, rfl⟩
      · exact h.typed o (.inl ⟨id, hold⟩)
      · exact (hobjects x hx).2.of_eq rfl rfl
    · exact h.typed o (.inr ho)
  · obtain ⟨hcore, hshows⟩ := h.registered k v hv
    exact ⟨hcore, hshows.mono hkeeps (fun _ ho => ho)⟩
  · rcases Write.old_or_new hw ho with hold | ⟨hnone, -⟩
    · exact (h.stored id o hold).mono (fun hk => hk) (fun t ht => List.mem_append_left _ ht)
    · exact (hnew id o hnone ho).mono (fun hk => hk) (fun t ht => List.mem_append_right _ ht)
  · rcases List.mem_append.mp ht with ht | ht
    · obtain ⟨hview, htypes, hshows⟩ := h.waiting t ht hid
      exact ⟨hview, htypes, fun x hx => (hshows x hx).mono hkeeps (fun _ ho => ho)⟩
    · obtain ⟨hview, htypes, hstored⟩ := htasks t ht
      exact ⟨hview, htypes, fun x hx => ⟨x, .inl (hstored x hx), rfl, rfl⟩⟩

theorem creates (h : s.Accounts root owner core drafts record) (app : AppId) {d : Object}
    (hobject : d.Sound ∧ d.Typed) (hd : core.contains d.plural ∨ record.datatypes.contains d.plural) :
    ({ s with store := (Write.create app d).run s.store } : ServiceState Memory).Accounts root owner
      core drafts record := by
  have hnew (id : String) (x : Object) (hnone : s.store.get? owner id = none)
      (hx : ((Write.create app d).run s.store).get? owner id = some x) :
      core.contains x.plural ∨ record.datatypes.contains x.plural := by
    obtain ⟨-, -, o, ho, rfl⟩ := Write.new_of_missing hnone hx
    obtain rfl := List.mem_singleton.mp ho
    exact hd
  have hstores := h.stores (w := .create app d) trivial
    (fun o ho => List.mem_singleton.mp ho ▸ hobject) []
    (fun id x hnone hx => (hnew id x hnone hx).imp_right .inl) (by rintro t ⟨⟩)
  rw [List.append_nil] at hstores
  exact hstores

/-- A registration need not wait any longer once its objects are accounted for. -/
theorem settles (h : s.Accounts root owner core drafts record) {t : Registration}
    {rest : List Registration} (hperm : s.pending.Perm (t :: rest))
    (ht : ∀ x ∈ t.objects, TypeName.isValid x.type →
      core.contains x.plural ∨ record.datatypes.contains x.plural) :
    ({ s with pending := rest } : ServiceState Memory).Accounts root owner core drafts record := by
  have hrest {t' : Registration} (ht' : t' ∈ rest) : t' ∈ s.pending :=
    hperm.mem_iff.mpr (List.mem_cons_of_mem _ ht')
  refine ⟨⟨h.reachable.store, fun t' ht' => h.reachable.pending t' (hrest ht')⟩, h.known, h.held,
    h.isApp, h.typed, h.registered, fun id o ho => ?_, fun t' ht' => h.waiting t' (hrest ht')⟩
  rcases h.stored id o ho with hcore | htypes | ⟨t', ht', hid, hhas⟩
  · exact .inl hcore
  · exact .inr (.inl htypes)
  · rcases List.mem_cons.mp (hperm.mem_iff.mp ht') with rfl | ht'
    · obtain ⟨x, hx, hplural, hvalid⟩ := hhas
      rw [← hplural]
      rcases ht x hx hvalid with hcore | htypes
      · exact .inl hcore
      · exact .inr (.inl htypes)
    · exact .inr (.inr ⟨t', ht', hid, hhas⟩)

theorem found (h : s.Accounts root owner core drafts record)
    (hend : ∀ t ∈ s.pending, t.app.identifier ≠ owner) {id : String} {o : Object}
    (ho : s.store.get? owner id = some o) :
    ∃ singular, (core.extend record.datatypes).get? o.plural = some singular ∧
      (core.get? o.plural = some singular ∨
        core.get? o.plural = none ∧ s.Shows owner drafts o.plural singular) := by
  rw [KeyMap.get?_extend]
  cases htypes : record.datatypes.get? o.plural with
  | some singular =>
    obtain ⟨hcore, hshows⟩ := h.registered _ _ htypes
    exact ⟨singular, rfl, .inr ⟨by simpa [KeyMap.contains] using hcore, hshows⟩⟩
  | none =>
    rcases h.stored id o ho with hcore | hhas | ⟨t, ht, hid, -⟩
    · obtain ⟨singular, hsingular⟩ := Option.isSome_iff_exists.mp hcore
      exact ⟨singular, hsingular, .inl hsingular⟩
    · rw [KeyMap.contains, htypes] at hhas
      cases hhas
    · exact absurd hid (hend t ht)

theorem isDerived (h : s.Accounts root owner core drafts record) (hcore : core.IsDerived) :
    (core.extend record.datatypes).IsDerived := by
  intro k v hv
  rw [KeyMap.get?_extend, Option.or_eq_some_iff] at hv
  rcases hv with hv | ⟨-, hv⟩
  · obtain ⟨-, o, ho, rfl, rfl⟩ := h.registered k v hv
    exact (h.typed o ho).plural.symm
  · exact hcore k v hv

end ServiceState.Accounts

namespace ServiceState

/-- Before objects are created for an app: its record has no types, its partition is empty and nothing
waits for it. -/
structure StartsFor (s : ServiceState Memory) (config : Config) (owner : AppId) : Prop where
  reachable : s.Reachable
  known : s.registry.known = Registry.findCore config.extraCoreTypes
  record : ∃ o, s.store.get? config.root owner.objectId = some o ∧ o.IsApp ∧ o.datatypes = .empty
  empty : ∀ id, s.store.get? owner id = none
  waiting : ∀ t ∈ s.pending, t.app.identifier ≠ owner

/-- How the objects that are stored for an app are found among all its types, given the core types
and what requests decoded. -/
structure FindsTypes (s : ServiceState Memory) (owner : AppId) (drafts : List Object)
    (core types : TypeMap) : Prop where
  /-- Each by its plural: under the core type with that plural, if there is one, and else under the
  type of some object with that plural. -/
  found : ∀ id o, s.store.get? owner id = some o → ∃ singular,
    types.get? o.plural = some singular ∧
      (core.get? o.plural = some singular ∨
        core.get? o.plural = none ∧ s.Shows owner drafts o.plural singular)
  /-- Under its own type, unless another type has the plural. -/
  own : ∀ id o, s.store.get? owner id = some o →
    (∀ v, core.get? o.plural = some v ∨ s.Shows owner drafts o.plural v → v = o.type) →
    types.get? o.plural = some o.type
  /-- Types with different plurals are not found under one type. -/
  apart : ∀ id o id' o', s.store.get? owner id = some o → s.store.get? owner id' = some o' →
    types.get? o.plural = types.get? o'.plural →
    TypeName.pluralize o.type = TypeName.pluralize o'.type

theorem StartsFor.accounts {config : Config} {s : ServiceState Memory} {owner : AppId}
    (h : s.StartsFor config owner) : ∃ record,
      s.Accounts config.root owner (Registry.findCore config.extraCoreTypes) [] record := by
  obtain ⟨record, hget, hrecord, htypes⟩ := h.record
  refine ⟨record, h.reachable, h.known, hget, hrecord, fun o ho => ?_, fun k v hv => ?_,
    fun id o ho => ?_, fun t ht hid => absurd hid (h.waiting t ht)⟩
  · rcases ho with ⟨id, ho⟩ | ho
    · cases (h.empty id).symm.trans ho
    · cases ho
  · rw [htypes] at hv
    cases hv
  · cases (h.empty id).symm.trans ho

theorem Accounts.findsTypes {s : ServiceState Memory} {root owner : AppId} {core : TypeMap}
    {drafts : List Object} {record : Object} (h : s.Accounts root owner core drafts record)
    (hcore : core.IsDerived) (hend : ∀ t ∈ s.pending, t.app.identifier ≠ owner) :
    s.FindsTypes owner drafts core (core.extend record.datatypes) := by
  refine ⟨fun id o ho => h.found hend ho, fun id o ho honly => ?_,
    fun id o id' o' ho ho' hsame => ?_⟩
  · obtain ⟨singular, hsingular, hfrom⟩ := h.found hend ho
    rw [hsingular, honly singular (hfrom.imp_right And.right)]
  · obtain ⟨singular, hsingular, -⟩ := h.found hend ho
    have hplural := h.isDerived hcore _ _ hsingular
    have hplural' := h.isDerived hcore _ _ (hsame.symm.trans hsingular)
    rw [← (h.typed o (.inl ⟨id, ho⟩)).plural, ← (h.typed o' (.inl ⟨id', ho'⟩)).plural,
      ← hplural, ← hplural']

end ServiceState

/-- Something that is done while objects are created for an app: a request that creates some, under
the app as its record has it at the time, or one of the registrations that wait for it. -/
def Act.CreatesFor (svc : Service Memory) (owner : AppId) (s : ServiceState Memory) : Act → Prop
  | .request app call => call.Creates ∧ ((svc.loadApp owner).on s).1 = .ok (some app)
  | .registration app _ => app = owner

namespace Service

def AllCreateFor (svc : Service Memory) (owner : AppId) :
    List (Supply × Act) → ServiceState Memory → Prop
  | [], _ => True
  | (supply, a) :: acts, s =>
    a.CreatesFor svc owner s ∧ svc.AllCreateFor owner acts (svc.act supply s a)

def draft? (svc : Service Memory) : Act → Option Object
  | .request app (.create hint body) => (svc.draft app hint body).toOption
  | _ => none

def drafts (svc : Service Memory) (acts : List (Supply × Act)) : List Object :=
  acts.filterMap (fun r => svc.draft? r.2)

theorem Made.isValid_type {σ : Type} {svc : Service σ} {app : App} {o : Object}
    (h : svc.Made app o) : TypeName.isValid o.type := by
  obtain ⟨fields, x, hx, rfl⟩ := h
  obtain ⟨type, -, hvalid, hlay⟩ := Object.ofFields_eq_ok_iff.mp hx
  have htype : x.type = type := Object.type_overlay (Object.sound_ofType type) hlay
  exact htype ▸ hvalid

theorem registerTypes_withPending (svc : Service Memory) (app : App) (os : List Object)
    (s : ServiceState Memory) (pending : List Registration) :
    (svc.registerTypes (some app) os { s with pending := pending }).2 =
      { (svc.registerTypes (some app) os s).2 with pending := pending } := by
  rw [registerTypes_eq, registerTypes_eq]
  split
  · rfl
  · rcases Registry.newTypes app os s.registry with ⟨types, registry⟩
    dsimp only
    split <;> rfl

variable (config : Config) {s : ServiceState Memory} {owner : AppId} {core : TypeMap}
  {drafts : List Object} {record : Object}

theorem isViewOf_of_loadApp (background : Background)
    (h : s.Accounts config.root owner core drafts record) {app : App}
    (happ : (((inMemory config background).loadApp owner).on s).1 = .ok (some app)) :
    app.IsViewOf config.root owner ∧ app.types = record.datatypes := by
  have hstored := h.reachable.store.consistent.partitions config.root owner.objectId record h.held
  have hread := App.ofObject_of_isApp h.isApp
  rw [loadApp_on, h.held] at happ
  dsimp only at happ
  rw [hread] at happ
  obtain rfl := Option.some.inj (Except.ok.inj happ)
  have howner : record.envelope.appid = some config.root.text := hstored.owner
  exact ⟨⟨hstored.sound.envelope, App.identifier_of_id hstored.key, by rw [App.partition, howner]⟩,
    App.types_ofObject hread⟩

theorem create_accounts (background : Background)
    (h : s.Accounts config.root owner core drafts record) (howner : owner ≠ config.root)
    {app : App} (happ : app.IsViewOf config.root owner) (htypes : app.types = record.datatypes)
    (hint : Option String) (body : RequestBody) :
    let svc := inMemory config background
    ∃ record', ((svc.create app hint body).on s).2.Accounts config.root owner core
      (drafts ++ (svc.draft app hint body).toOption.toList) record' := by
  intro svc
  rw [create_on]
  cases hdraft : svc.draft app hint body with
  | error f => exact ⟨record, by simpa [Except.toOption] using h⟩
  | ok d =>
    have hd := made_of_draft hdraft
    obtain ⟨record', haccounts, -, hregistered⟩ := (h.withDraft hd.typed).registers config background
      howner happ (fun k hk => htypes ▸ hk)
      (fun x hx => ⟨d, .inr (List.mem_append_right _ List.mem_cons_self), by
        rw [List.mem_singleton.mp hx], by rw [List.mem_singleton.mp hx]⟩)
    refine ⟨record', ?_⟩
    dsimp only
    split
    · exact haccounts.creates app.identifier ⟨hd.sound, hd.typed⟩
        (hregistered d List.mem_cons_self hd.isValid_type)
    · exact haccounts

/-- What a batch create comes to: nothing that shows, or objects that are made and stored, with a
registration of theirs. -/
theorem batchCreate_cases (app : App) (body : RequestBody) (s : ServiceState Memory) :
    let svc := inMemory config .queued
    let after := ((svc.batchCreate app body).on s).2
    ∃ os, (∀ o ∈ os, svc.Made app o) ∧
      (after = s ∨
        after = { s with store := (Memory.createAll app.identifier os s.store).2 } ∧
          (∃ e left, (Memory.createAll app.identifier os s.store).1 = ⟨.error e, left⟩) ∨
        ∃ ids left, (Memory.createAll app.identifier os s.store).1 = ⟨.ok ids, left⟩ ∧
          after = { s with
            store := (Memory.createAll app.identifier os s.store).2
            pending := s.pending ++ [⟨app, left⟩] }) := by
  intro svc after
  have hafter : after = ((svc.batchCreate app body).on s).2 := rfl
  rw [batchCreate_on] at hafter
  cases hread : RequestBody.readList svc.config.maxEntitySize body with
  | error f =>
    rw [hread] at hafter
    exact ⟨[], by rintro o ⟨⟩, .inl hafter⟩
  | ok items =>
    obtain ⟨os, hkept, hmem⟩ :=
      keepNew_spec config .queued app (items.filterMap (svc.newObject? app)) s
    have hmade : ∀ o ∈ os, svc.Made app o := by
      intro o ho
      obtain ⟨item, -, hitem⟩ := List.mem_filterMap.mp (hmem o ho)
      exact made_of_newObject? hitem
    refine ⟨os, hmade, ?_⟩
    rw [hread] at hafter
    dsimp only at hafter
    rw [hkept] at hafter
    dsimp only at hafter
    split at hafter
    · exact .inl hafter
    · have hcreate : svc.storage.createAll app.identifier os s.store =
          Memory.createAll app.identifier os s.store := rfl
      rw [hcreate] at hafter
      rcases hwritten : Memory.createAll app.identifier os s.store with ⟨⟨answer, left⟩, store⟩
      rw [hwritten] at hafter
      cases answer with
      | error e => exact .inr (.inl ⟨hafter, e, left, rfl⟩)
      | ok ids => exact .inr (.inr ⟨ids, left, rfl, hafter⟩)

theorem batchCreate_accounts (h : s.Accounts config.root owner core drafts record) {app : App}
    (happ : app.IsViewOf config.root owner) (htypes : app.types = record.datatypes)
    (body : RequestBody) :
    (((inMemory config .queued).batchCreate app body).on s).2.Accounts config.root owner core drafts
      record := by
  obtain rfl := happ.identifier
  have hobjects {os : List Object} (hmade : ∀ o ∈ os, (inMemory config .queued).Made app o) :
      ∀ o ∈ os, o.Sound ∧ o.Typed := fun o ho => ⟨(hmade o ho).sound, (hmade o ho).typed⟩
  obtain ⟨os, hmade, hafter | ⟨hafter, e, left, hfailed⟩ | ⟨ids, left, hcreated, hafter⟩⟩ :=
    batchCreate_cases config app body s
  · rw [hafter]
    exact h
  · have hstores := h.stores (w := .createAll app.identifier os) trivial (hobjects hmade) []
      (fun id x hnone hx => ?_) (by rintro t ⟨⟩)
    · rw [List.append_nil] at hstores
      rw [hafter]
      exact hstores
    · rw [Write.run, Memory.get?_createAll_of_error hfailed, hnone] at hx
      cases hx
  · obtain ⟨hstored, hleft⟩ := Memory.mem_left_createAll hcreated
    rw [hafter]
    refine h.stores (w := .createAll app.identifier os) trivial (hobjects hmade) [⟨app, left⟩]
      (fun id x hnone hx => ?_) (fun t ht => ?_)
    · have hmem := hleft id x hnone hx
      obtain ⟨-, -, o, ho, rfl⟩ := Write.new_of_missing hnone hx
      exact .inr (.inr ⟨_, List.mem_cons_self, rfl, _, hmem, rfl, (hmade o ho).isValid_type⟩)
    · obtain rfl := List.mem_singleton.mp ht
      exact ⟨happ, fun k hk => htypes ▸ hk, hstored⟩

theorem runWaiting_accounts (background : Background)
    (h : s.Accounts config.root owner core drafts record) (howner : owner ≠ config.root)
    (index : Nat) :
    ∃ record', ((inMemory config background).runWaiting owner index s).Accounts config.root owner
      core drafts record' := by
  cases htake : takeWaiting owner index s.pending with
  | none =>
    rw [runWaiting_of_none htake]
    exact ⟨record, h⟩
  | some taken =>
    obtain ⟨t, rest⟩ := taken
    obtain ⟨hmem, hid, -, -⟩ := takeWaiting_spec htake
    obtain ⟨hview, htypes, hshows⟩ := h.waiting t hmem hid
    obtain ⟨record', haccounts, hpending, hregistered⟩ :=
      h.registers config background howner hview htypes hshows
    refine ⟨record', ?_⟩
    rw [runWaiting, htake]
    dsimp only
    have hrun : ((inMemory config background).runRegistration t { s with pending := rest }).2 =
        ((inMemory config background).registerTypes (some t.app) t.objects
          { s with pending := rest }).2 := rfl
    rw [hrun, registerTypes_withPending]
    exact haccounts.settles (hpending ▸ takeWaiting_perm htake) hregistered

theorem act_accounts (h : s.Accounts config.root owner core drafts record)
    (howner : owner ≠ config.root) {supply : Supply} (hsupply : supply.Sound) {a : Act}
    (ha : a.CreatesFor (inMemory config .queued) owner s) :
    ∃ record', ((inMemory config .queued).act supply s a).Accounts config.root owner core
      (drafts ++ ((inMemory config .queued).draft? a).toList) record' := by
  have hwait := h.withSupply hsupply
  cases a with
  | registration app index =>
    obtain rfl : app = owner := ha
    have hnone : (inMemory config .queued).draft? (.registration app index) = none := rfl
    rw [hnone, Option.toList_none, List.append_nil]
    exact runWaiting_accounts config .queued hwait howner index
  | request app call =>
    obtain ⟨hcreates, hload⟩ := ha
    obtain ⟨hview, htypes⟩ := isViewOf_of_loadApp config .queued h hload
    cases call with
    | create hint body => exact create_accounts config .queued hwait howner hview htypes hint body
    | batchCreate body =>
      have hnone : (inMemory config .queued).draft? (.request app (.batchCreate body)) = none := rfl
      rw [hnone, Option.toList_none, List.append_nil]
      exact ⟨record, batchCreate_accounts config hwait hview htypes body⟩
    | _ => exact hcreates.elim

theorem actAll_accounts {acts : List (Supply × Act)} (hacts : ∀ r ∈ acts, r.1.Sound)
    (h : s.Accounts config.root owner core drafts record) (howner : owner ≠ config.root)
    (hcreate : (inMemory config .queued).AllCreateFor owner acts s) :
    ∃ record', ((inMemory config .queued).actAll acts s).Accounts config.root owner core
      (drafts ++ (inMemory config .queued).drafts acts) record' := by
  -- The drafts grow along the run: what fails to be stored may yet have been registered.
  induction acts generalizing s drafts record with
  | nil => exact ⟨record, by rwa [Service.drafts, List.filterMap_nil, List.append_nil]⟩
  | cons r acts ih =>
    obtain ⟨hfirst, hrest⟩ := hcreate
    obtain ⟨record', hstep⟩ := act_accounts config h howner (hacts r List.mem_cons_self) hfirst
    have hh := ih (fun x hx => hacts x (List.mem_cons_of_mem _ hx)) hstep hrest
    rw [List.append_assoc] at hh
    obtain ⟨record'', hall⟩ := hh
    refine ⟨record'', ?_⟩
    have hdrafts : (inMemory config .queued).drafts (r :: acts) =
        ((inMemory config .queued).draft? r.2).toList ++ (inMemory config .queued).drafts acts := by
      rw [Service.drafts, List.filterMap_cons]
      cases (inMemory config .queued).draft? r.2 <;> rfl
    rw [hdrafts]
    exact hall

/-- Objects are created for an app from the start, until no registration waits for it. Then each that
is stored is found by its plural, under its own type unless another type has that plural. -/
theorem stored_types_discoverable (hs : s.StartsFor config owner) (howner : owner ≠ config.root)
    {acts : List (Supply × Act)} (hacts : ∀ r ∈ acts, r.1.Sound)
    (hcreate : (inMemory config .queued).AllCreateFor owner acts s)
    (hend : ∀ t ∈ ((inMemory config .queued).actAll acts s).pending, t.app.identifier ≠ owner) :
    let svc := inMemory config .queued
    let after := svc.actAll acts s
    ∃ app, ((svc.loadApp owner).on after).1 = .ok (some app) ∧ app.identifier = owner ∧
      after.FindsTypes owner (svc.drafts acts) (Registry.findCore config.extraCoreTypes)
        (Registry.allTypes app after.registry).1 := by
  intro svc after
  obtain ⟨record, hbefore⟩ := hs.accounts
  obtain ⟨record', h⟩ := actAll_accounts config hacts hbefore howner hcreate
  rw [List.nil_append] at h
  have hload : ((svc.loadApp owner).on after).1 =
      ((App.ofObject record').mapError .ofStorage).map some := by
    rw [loadApp_on, h.held]
  rw [App.ofObject_of_isApp h.isApp] at hload
  obtain ⟨hview, hviewTypes⟩ := isViewOf_of_loadApp config .queued h hload
  refine ⟨_, hload, hview.identifier, ?_⟩
  have hfinds := h.findsTypes (Registry.isDerived_findCore config.extraCoreTypes) hend
  rw [← hviewTypes, ← h.known, ← (Registry.coreTypes_known after.registry).1] at hfinds
  rw [← h.known, ← (Registry.coreTypes_known after.registry).1]
  exact hfinds

/-- A service where the root app has created `shop`. -/
def newShop : ServiceState Memory :=
  rootState [.ofText "\x7b\"id\":\"app:shop\",\"type\":\"app\",\"name\":\"shop\"\x7d"]

def shopView (s : ServiceState Memory) : App :=
  (((inMemory {} .queued).loadApp ⟨"shop"⟩).on s).1.toOption.join.getD .shop

theorem loadApp_shopView {s : ServiceState Memory}
    (h : (((inMemory {} .queued).loadApp ⟨"shop"⟩).on s).1.toOption.join.isSome) :
    (((inMemory {} .queued).loadApp ⟨"shop"⟩).on s).1 = .ok (some (shopView s)) := by
  unfold shopView
  rcases hload : (((inMemory {} .queued).loadApp ⟨"shop"⟩).on s).1 with e | app
  · rw [hload] at h
    cases h
  · cases app with
    | none =>
      rw [hload] at h
      cases h
    | some app => rfl

def addresseAct : Act :=
  .request (shopView newShop) (.create none (.ofText "\x7b\"id\":\"a\",\"type\":\"addresse\"\x7d"))

def addresseShop : ServiceState Memory := (inMemory {} .queued).act .still newShop addresseAct

def boxesAct : Act :=
  .request (shopView addresseShop) (.batchCreate (.ofText
    "[\x7b\"id\":\"b\",\"type\":\"box\"\x7d,\x7b\"id\":\"e\",\"type\":\"boxe\"\x7d]"))

def boxesActs : List (Supply × Act) :=
  [(.still, addresseAct), (.still, boxesAct), (.still, .registration ⟨"shop"⟩ 0)]

def boxesShop : ServiceState Memory := (inMemory {} .queued).actAll boxesActs newShop

theorem allCreateFor_boxesActs :
    (inMemory {} .queued).AllCreateFor ⟨"shop"⟩ boxesActs newShop :=
  ⟨⟨trivial, loadApp_shopView (by decide +kernel)⟩,
    ⟨trivial, loadApp_shopView (show (((inMemory {} .queued).loadApp ⟨"shop"⟩).on
      addresseShop).1.toOption.join.isSome by decide +kernel)⟩, rfl, trivial⟩

theorem pending_boxesShop : boxesShop.pending = [] :=
  List.length_eq_zero_iff.mp (by decide +kernel)

theorem newShop_startsFor : newShop.StartsFor {} ⟨"shop"⟩ := by
  have hreachable : newShop.Reachable := rootState_reachable _
  have hsome : ((newShop.store.get? ⟨"root"⟩ "app:shop").filter
      (fun o => o.shape = some .app ∧ o.datatypes = .empty)).isSome := by decide +kernel
  obtain ⟨record, hrecord⟩ := Option.isSome_iff_exists.mp hsome
  obtain ⟨hget, hnew⟩ := Option.filter_eq_some_iff.mp hrecord
  obtain ⟨hshape, htypes⟩ : record.shape = some .app ∧ record.datatypes = .empty := by
    simpa using hnew
  have hname : AppId.isBlank ⟨"shop"⟩ = false := by decide +kernel
  have happ : record.IsApp := hreachable.store.consistent.isApp hname hget hshape
  have hentries : (newShop.store.objects ⟨"shop"⟩).entries = [] :=
    List.length_eq_zero_iff.mp (by decide +kernel)
  have hstart : newShop.pending = [] := List.length_eq_zero_iff.mp (by decide +kernel)
  refine ⟨hreachable, by decide +kernel, ⟨record, hget, happ, htypes⟩, fun id => ?_, ?_⟩
  · rw [Memory.get?, KeyMap.get?, hentries]
    rfl
  · rw [hstart]
    rintro t ⟨⟩

theorem stored_types_discoverable_boxes :
    newShop.StartsFor {} ⟨"shop"⟩ ∧ (∀ r ∈ boxesActs, r.1.Sound) ∧
      (inMemory {} .queued).AllCreateFor ⟨"shop"⟩ boxesActs newShop ∧ boxesShop.pending = [] ∧
      ∃ app, (((inMemory {} .queued).loadApp ⟨"shop"⟩).on boxesShop).1 = .ok (some app) ∧
        app.identifier = ⟨"shop"⟩ ∧
        boxesShop.FindsTypes ⟨"shop"⟩ ((inMemory {} .queued).drafts boxesActs)
          (Registry.findCore []) (Registry.allTypes app boxesShop.registry).1 := by
  have hacts : ∀ r ∈ boxesActs, r.1.Sound := by
    intro r hr
    simp only [boxesActs, List.mem_cons, List.not_mem_nil, or_false] at hr
    rcases hr with rfl | rfl | rfl <;> exact Supply.sound_still
  have hend : ∀ t ∈ boxesShop.pending, t.app.identifier ≠ ⟨"shop"⟩ := by
    rw [pending_boxesShop]
    rintro t ⟨⟩
  exact ⟨newShop_startsFor, hacts, allCreateFor_boxesActs, pending_boxesShop,
    stored_types_discoverable {} newShop_startsFor (by decide) hacts allCreateFor_boxesActs hend⟩

/-- An `addresse` is found as an `address`, and a `box` as the `boxe` that came with it. -/
theorem types_not_discoverable :
    let app := shopView boxesShop
    let types := (Registry.allTypes app boxesShop.registry).1
    let stored (id : String) := (boxesShop.store.get? ⟨"shop"⟩ id).map (fun o => (o.plural, o.type))
    newShop.StartsFor {} ⟨"shop"⟩ ∧
      (inMemory {} .queued).AllCreateFor ⟨"shop"⟩ boxesActs newShop ∧ boxesShop.pending = [] ∧
      (((inMemory {} .queued).loadApp ⟨"shop"⟩).on boxesShop).1 = .ok (some app) ∧
      stored "a" = some ("addresses", "addresse") ∧ types.get? "addresses" = some "address" ∧
      stored "b" = some ("boxes", "box") ∧ stored "e" = some ("boxes", "boxe") ∧
      types.get? "boxes" = some "boxe" := by
  intro app types stored
  exact ⟨newShop_startsFor, allCreateFor_boxesActs, pending_boxesShop,
    loadApp_shopView (by decide +kernel), by decide +kernel⟩

end Service
end ObjectDepot
