import ObjectDepot.Proofs.BatchUpdates
import ObjectDepot.Proofs.Registration

/-! How a request changes a state: it may record types of the objects it decodes, then it makes at
most one write to the partition of its app, and it may leave one registration for later. So the
storage of a service is always one that can be reached. -/

namespace ObjectDepot

/-- Types that the objects bring are recorded, or none are. -/
def RecordsTypes (app : App) (os : List Object) (m m' : Memory) : Prop :=
  m' = m ∨ ∃ pending, Registry.BroughtBy pending os ∧
    m' = (Registry.recordTypes Memory.storage app pending m).2

/-- Recording types is at most one write, of the record of an app: that of the app itself, or the one
that is stored. -/
theorem RecordsTypes.writes {app : App} {os : List Object} {m m' : Memory}
    (h : RecordsTypes app os m m') :
    m' = m ∨ ∃ (w : Write) (a : App), w.objects = [a.toObject] ∧ m' = w.run m ∧
      (a.envelope = app.envelope ∨ ∃ record,
        m.get? app.partition app.identifier.objectId = some record ∧ record.shape = some .app ∧
          a.envelope = record.envelope) := by
  rcases h with rfl | ⟨pending, -, rfl⟩
  · exact .inl rfl
  · rcases Registry.recordTypes_cases app pending m with
      h | ⟨record, latest, hget, hlatest, h⟩ | ⟨-, h⟩
    · exact .inl h
    · obtain ⟨hshape, heq⟩ := App.ofObject_eq_ok hlatest
      refine .inr ⟨.update app.partition _, (Registry.addTypes latest pending).1, rfl, h,
        .inr ⟨record, hget, hshape, ?_⟩⟩
      exact (Registry.envelope_addTypes latest pending).trans (congrArg App.envelope heq)
    · exact .inr ⟨.create app.partition _, (Registry.addTypes app pending).1, rfl, h,
        .inl (Registry.envelope_addTypes app pending)⟩

/-- Recording types concerns the partition with the record of the app. -/
theorem RecordsTypes.objects {app : App} {os : List Object} {m m' : Memory}
    (h : RecordsTypes app os m m') {other : AppId} (hother : other ≠ app.partition) :
    m'.objects other = m.objects other := by
  rcases h with rfl | ⟨pending, -, rfl⟩
  · rfl
  · rcases Registry.recordTypes_cases app pending m with h | ⟨_, _, -, -, h⟩ | ⟨-, h⟩
    · rw [h]
    · rw [h]
      exact Write.objects_run (w := .update app.partition _) hother
    · rw [h]
      exact Write.objects_run (w := .create app.partition _) hother

theorem RecordsTypes.supply {app : App} {os : List Object} {m m' : Memory}
    (h : RecordsTypes app os m m') :
    m'.supply.ids = m.supply.ids ∧ m'.supply.now = m.supply.now := by
  rcases h.writes with rfl | ⟨w, -, -, rfl, -⟩
  · exact ⟨rfl, rfl⟩
  · exact w.supply_run m

/-- At most one write is made, to the partition of an app. On a condition it is one of sound
objects. -/
def WritesOnce (app : AppId) (condition : Prop) (m m' : Memory) : Prop :=
  m' = m ∨ ∃ w : Write, w.app = app ∧ (condition → ∀ o ∈ w.objects, o.Sound) ∧ m' = w.run m

namespace App

theorem sound_adopt (app : App) {o : Object} (h : o.Sound) : (app.adopt o).Sound :=
  (h.withAppid _).withShardKey _

end App

def Call.targets : Call (Option Object) → List Object
  | .update target _ | .delete target => target.toList
  | _ => []

def Call.Creates {τ : Type} : Call τ → Prop
  | .create _ _ | .batchCreate _ => True
  | _ => False

namespace Service

/-- The objects that a request decodes and whose types it may register. -/
def decoded {σ τ : Type} (svc : Service σ) (app : App) : Call τ → List Object
  | .create hint body => (svc.draft app hint body).toOption.toList
  | .batchCreate body =>
    match RequestBody.readList svc.config.maxEntitySize body with
    | .error _ => []
    | .ok items => items.filterMap (svc.newObject? app)
  | _ => []

theorem registerTypes_effect (config : Config) (background : Background) (app : App)
    (os : List Object) (s : ServiceState Memory) :
    RecordsTypes app os s.store
        ((inMemory config background).registerTypes (some app) os s).2.store ∧
      ((inMemory config background).registerTypes (some app) os s).2.pending = s.pending := by
  rw [registerTypes_eq]
  split
  · exact ⟨.inl rfl, rfl⟩
  · have hbrought := Registry.newTypes_broughtBy app os s.registry
    rcases hnew : Registry.newTypes app os s.registry with ⟨pending, registry⟩
    rw [hnew] at hbrought
    dsimp only
    split
    · exact ⟨.inl rfl, rfl⟩
    · exact ⟨.inr ⟨pending, hbrought, rfl⟩, rfl⟩

/-- An object that is made of fields as clients write them. -/
def Made {σ : Type} (svc : Service σ) (app : App) (o : Object) : Prop :=
  ∃ fields x, svc.names.toObject fields = .ok x ∧ app.adopt x = o

theorem Made.sound {σ : Type} {svc : Service σ} {app : App} {o : Object} (h : svc.Made app o) :
    o.Sound := by
  obtain ⟨fields, x, hx, rfl⟩ := h
  exact app.sound_adopt (Object.sound_ofFields hx)

theorem made_of_draft {σ : Type} {svc : Service σ} {app : App} {hint : Option String}
    {body : RequestBody} {o : Object} (h : svc.draft app hint body = .ok o) : svc.Made app o := by
  unfold draft at h
  cases hread : RequestBody.readObject svc.config.maxEntitySize body with
  | error f =>
    rw [hread] at h
    cases h
  | ok fields =>
    rw [hread] at h
    obtain ⟨x, hx, heq⟩ := map_eq_ok_iff.mp h
    exact ⟨_, x, mapError_eq_ok_iff.mp hx, heq⟩

theorem made_of_newObject? {σ : Type} {svc : Service σ} {app : App} {item : Json} {o : Object}
    (h : svc.newObject? app item = some o) : svc.Made app o := by
  unfold newObject? at h
  simp only [bind, Option.bind_eq_some_iff] at h
  obtain ⟨fields, -, x, hx, h⟩ := h
  split at h
  · cases hread : svc.names.toObject fields with
    | error e => simp [hread, Except.toOption] at hx
    | ok y =>
      obtain rfl : y = x := by simpa [hread, Except.toOption] using hx
      exact ⟨fields, y, hread, Option.some.inj h⟩
  · cases h

theorem revision_eq_ok_iff {σ : Type} {svc : Service σ} {app : App} {target : Option Object}
    {body : RequestBody} {o : Object} :
    svc.revision app target body = .ok o ↔
      ∃ fields t, RequestBody.readObject svc.config.maxEntitySize body = .ok fields ∧
        target = some t ∧ t.id.isSome ∧ t.appid = some app.identifier.text ∧
        svc.names.change (app.stamp t) fields .skipLocked = .ok o ∧ o.isValid := by
  unfold revision
  cases RequestBody.readObject svc.config.maxEntitySize body with
  | error f => simp [Except.bind]
  | ok fields =>
    cases ht : target.filter (fun o => o.id.isSome && o.appid = some app.identifier.text) with
    | none =>
      simp only [Except.bind, reduceCtorEq, Except.ok.injEq, false_iff]
      rintro ⟨_, t, rfl, rfl, hid, happid, -⟩
      simp [Option.filter, hid, happid] at ht
    | some t =>
      obtain ⟨rfl, hlinked⟩ := Option.filter_eq_some_iff.mp ht
      obtain ⟨hid, happid⟩ : t.id.isSome ∧ t.appid = some app.identifier.text := by
        simpa using hlinked
      cases hchange : svc.names.change (app.stamp t) fields .skipLocked with
      | error e => simp [Except.bind, mapError_error, hchange]
      | ok x =>
        simp only [Except.bind, mapError_ok, hchange]
        constructor
        · intro h
          split at h
          · rename_i hv
            cases h
            exact ⟨fields, t, rfl, rfl, hid, happid, hchange, hv⟩
          · cases h
        · rintro ⟨_, _, hfields, htarget, -, -, ho, hv⟩
          cases hfields
          cases htarget
          cases hchange.symm.trans ho
          rw [if_pos hv]

theorem sound_revision {σ : Type} {svc : Service σ} {app : App} {target : Option Object}
    {body : RequestBody} {o : Object} (h : svc.revision app target body = .ok o) : o.Sound := by
  obtain ⟨_, _, -, -, -, -, hchange, -⟩ := revision_eq_ok_iff.mp h
  exact FieldNames.sound_apply hchange

theorem mem_of_mem_keepUntaken {taken : List String} {os : List Object} {o : Object}
    (h : o ∈ keepUntaken taken os) : o ∈ os := by
  induction os generalizing taken with
  | nil => exact h
  | cons x os ih =>
    unfold keepUntaken at h
    split at h
    · rcases List.mem_cons.mp h with rfl | h
      · exact List.mem_cons_self
      · exact List.mem_cons_of_mem _ (ih h)
    · split at h
      · exact List.mem_cons_of_mem _ (ih h)
      · rcases List.mem_cons.mp h with rfl | h
        · exact List.mem_cons_self
        · exact List.mem_cons_of_mem _ (ih h)

theorem keepNew_spec (config : Config) (background : Background) (app : App) (os : List Object)
    (s : ServiceState Memory) :
    ∃ kept, ((inMemory config background).keepNew app os).on s = (.ok kept, s) ∧
      ∀ o ∈ kept, o ∈ os := by
  rw [keepNew_on]
  split
  · exact ⟨os, rfl, fun o ho => ho⟩
  · exact ⟨_, rfl, fun o ho => mem_of_mem_keepUntaken ho⟩

end Service

/-- Objects of the plurals and types of others. -/
def TypedLike (os ds : List Object) : Prop :=
  ∀ o ∈ os, ∃ d ∈ ds, o.plural = d.plural ∧ o.type = d.type

namespace Memory

theorem left_makeReady (app : AppId) (p : Partition) (s : Supply) (o : Object) :
    (makeReady app p s o).1.left.plural = o.plural ∧
      (makeReady app p s o).1.left.type = o.type := by
  unfold makeReady
  split
  · exact ⟨rfl, rfl⟩
  · dsimp only
    split <;> exact ⟨rfl, rfl⟩

theorem left_makeAllReady (app : AppId) (p : Partition) (os : List Object) (staged : Partition)
    (s : Supply) : TypedLike (makeAllReady app p staged s os).1.left os := by
  have hself : TypedLike os os := fun o ho => ⟨o, ho, rfl, rfl⟩
  induction os generalizing staged s with
  | nil => exact hself
  | cons o os ih =>
    have htail : TypedLike os os := fun o ho => ⟨o, ho, rfl, rfl⟩
    have hcons {left : Object} {more : List Object}
        (hleft : left.plural = o.plural ∧ left.type = o.type) (hmore : TypedLike more os) :
        TypedLike (left :: more) (o :: os) := by
      intro x hx
      rcases List.mem_cons.mp hx with rfl | hx
      · exact ⟨o, List.mem_cons_self, hleft⟩
      · obtain ⟨d, hd, htyped⟩ := hmore x hx
        exact ⟨d, List.mem_cons_of_mem _ hd, htyped⟩
    have hready := left_makeReady app p s o
    unfold makeAllReady
    rcases hr : makeReady app p s o with ⟨⟨answer, left⟩, s'⟩
    rw [hr] at hready
    cases answer with
    | error e => exact hcons hready htail
    | ok id =>
      dsimp only
      split
      · exact hcons hready htail
      · exact hcons hready (ih _ _ htail)

theorem left_createAll (app : AppId) (os : List Object) (m : Memory) :
    TypedLike (createAll app os m).1.left os := by
  have hready := left_makeAllReady app (m.objects app) os .empty m.supply
  unfold createAll
  dsimp only
  split <;> exact hready

end Memory

namespace Service

/-- What a request does to a state, when it decodes certain objects. -/
structure Effect (app : App) (os : List Object) (condition : Prop) (s s' : ServiceState Memory) :
    Prop where
  store : ∃ m, RecordsTypes app os s.store m ∧ WritesOnce app.identifier condition m s'.store
  pending : ∃ tasks : List Registration, s'.pending = s.pending ++ tasks ∧
    ∀ t ∈ tasks, t.app = app ∧ TypedLike t.objects os

/-- What a request does to the storage, and the registrations it leaves. Those that fail, those that
only read and those for which nothing is left to write do nothing. -/
inductive Does (svc : Service Memory) (app : App) (m : Memory) :
    Call (Option Object) → Memory → List Registration → Prop
  | nothing (call : Call (Option Object)) : Does svc app m call m []
  | records {hint : Option String} {body : RequestBody} {o : Object} {m' : Memory}
      (ho : svc.draft app hint body = .ok o) (h : RecordsTypes app [o] m m') :
      Does svc app m (.create hint body) m' []
  | creates {hint : Option String} {body : RequestBody} {o : Object} {m' : Memory}
      (ho : svc.draft app hint body = .ok o) (h : RecordsTypes app [o] m m') :
      Does svc app m (.create hint body) ((Write.create app.identifier o).run m') []
  | updates {target : Option Object} {body : RequestBody} {o : Object}
      (ho : svc.revision app target body = .ok o) :
      Does svc app m (.update target body) ((Write.update app.identifier o).run m) []
  | deletes (target : Object) :
      Does svc app m (.delete (some target))
        ((Write.delete app.identifier (app.adopt target)).run m) []
  | createsAll {body : RequestBody} {items : List Json} {os : List Object}
      {tasks : List Registration}
      (hread : RequestBody.readList svc.config.maxEntitySize body = .ok items)
      (hos : ∀ o ∈ os, o ∈ items.filterMap (svc.newObject? app))
      (htasks : ∀ t ∈ tasks, t = ⟨app, (Memory.createAll app.identifier os m).1.left⟩) :
      Does svc app m (.batchCreate body) ((Write.createAll app.identifier os).run m) tasks
  | updatesAll {body : RequestBody} {items : List Json}
      (hread : RequestBody.readList svc.config.maxEntitySize body = .ok items) :
      Does svc app m (.batchUpdate body)
        ((Write.updateAll app.identifier (items.filterMap (svc.changes? app))).run m) []
  | deletesAll (ids : List String) :
      Does svc app m (.batchDelete ids)
        ((Write.deleteAll app.identifier
          (deletable app (ids.filterMap (m.get? app.identifier)))).run m) []

section

variable (config : Config) (background : Background) (app : App) (s : ServiceState Memory)

theorem create_does (hint : Option String) (body : RequestBody) :
    let after := (((inMemory config background).create app hint body).on s).2
    Does (inMemory config background) app s.store (.create hint body) after.store [] ∧
      after.pending = s.pending := by
  rw [create_on]
  cases hdraft : (inMemory config background).draft app hint body with
  | error f => exact ⟨.nothing _, rfl⟩
  | ok o =>
    obtain ⟨hrecords, hpending⟩ := registerTypes_effect config background app [o] s
    dsimp only
    split
    · exact ⟨.creates hdraft hrecords, hpending⟩
    · exact ⟨.records hdraft hrecords, hpending⟩

theorem read_does (id : String) :
    let after := (((inMemory config background).read app id).on s).2
    Does (inMemory config background) app s.store (.read id) after.store [] ∧
      after.pending = s.pending := by
  rw [read_on]
  exact ⟨.nothing _, rfl⟩

theorem update_does (target : Option Object) (body : RequestBody) :
    let after := (((inMemory config background).update app target body).on s).2
    Does (inMemory config background) app s.store (.update target body) after.store [] ∧
      after.pending = s.pending := by
  rw [update_on]
  cases hrevision : (inMemory config background).revision app target body with
  | error f => exact ⟨.nothing _, rfl⟩
  | ok o => exact ⟨.updates hrevision, rfl⟩

theorem delete_does (target : Option Object) :
    let after := (((inMemory config background).delete app target).on s).2
    Does (inMemory config background) app s.store (.delete target) after.store [] ∧
      after.pending = s.pending := by
  rw [delete_on]
  split
  · exact ⟨.nothing _, rfl⟩
  · rename_i o ho
    obtain ⟨rfl, -⟩ := Option.filter_eq_some_iff.mp ho
    exact ⟨.deletes o, rfl⟩

theorem batchRead_does (ids : List String) :
    let after := (((inMemory config background).batchRead app ids).on s).2
    Does (inMemory config background) app s.store (.batchRead ids) after.store [] ∧
      after.pending = s.pending := by
  rw [batchRead_on]
  split <;> exact ⟨.nothing _, rfl⟩

theorem batchCreate_does (body : RequestBody) :
    let after := (((inMemory config background).batchCreate app body).on s).2
    ∃ tasks, Does (inMemory config background) app s.store (.batchCreate body) after.store tasks ∧
      after.pending = s.pending ++ tasks := by
  have hnil : s.pending = s.pending ++ [] := (List.append_nil _).symm
  rw [batchCreate_on]
  cases hread : RequestBody.readList (inMemory config background).config.maxEntitySize body with
  | error f => exact ⟨[], .nothing _, hnil⟩
  | ok items =>
    obtain ⟨kept, hkept, hmem⟩ := keepNew_spec config background app
      (items.filterMap ((inMemory config background).newObject? app)) s
    dsimp only
    rw [hkept]
    dsimp only
    split
    · exact ⟨[], .nothing _, hnil⟩
    · have hdoes {tasks : List Registration} (htasks : ∀ t ∈ tasks,
          t = ⟨app, (Memory.createAll app.identifier kept s.store).1.left⟩) :
          Does (inMemory config background) app s.store (.batchCreate body)
            ((Write.createAll app.identifier kept).run s.store) tasks :=
        .createsAll hread hmem htasks
      rw [Write.run] at hdoes
      rw [inMemory_createAll]
      rcases hwritten : Memory.createAll app.identifier kept s.store with ⟨⟨answer, left⟩, store⟩
      rw [hwritten] at hdoes
      cases answer with
      | error e => exact ⟨[], hdoes (by simp), hnil⟩
      | ok ids =>
        cases background with
        | queued => exact ⟨[⟨app, left⟩], hdoes (by simp), rfl⟩
        | dropped => exact ⟨[], hdoes (by simp), hnil⟩

theorem batchUpdate_does (body : RequestBody) :
    let after := (((inMemory config background).batchUpdate app body).on s).2
    Does (inMemory config background) app s.store (.batchUpdate body) after.store [] ∧
      after.pending = s.pending := by
  rw [batchUpdate_on]
  split
  · exact ⟨.nothing _, rfl⟩
  · rename_i items hread
    dsimp only
    split
    · exact ⟨.nothing _, rfl⟩
    · exact ⟨.updatesAll hread, rfl⟩

theorem batchDelete_does (ids : List String) :
    let after := (((inMemory config background).batchDelete app ids).on s).2
    Does (inMemory config background) app s.store (.batchDelete ids) after.store [] ∧
      after.pending = s.pending := by
  rw [batchDelete_on]
  split
  · exact ⟨.nothing _, rfl⟩
  · split
    · exact ⟨.nothing _, rfl⟩
    · rw [inMemory_readAll]
      dsimp only
      split
      · exact ⟨.nothing _, rfl⟩
      · exact ⟨.deletesAll ids, rfl⟩

/-- What any request does. -/
theorem answer_does (call : Call (Option Object)) :
    let after := (((inMemory config background).answer app call).on s).2
    ∃ tasks, Does (inMemory config background) app s.store call after.store tasks ∧
      after.pending = s.pending ++ tasks := by
  have hnil {call : Call (Option Object)} {after : ServiceState Memory}
      (h : Does (inMemory config background) app s.store call after.store [] ∧
        after.pending = s.pending) :
      ∃ tasks, Does (inMemory config background) app s.store call after.store tasks ∧
        after.pending = s.pending ++ tasks := ⟨[], h.1, by rw [h.2, List.append_nil]⟩
  cases call with
  | create hint body => exact hnil (create_does config background app s hint body)
  | read id => exact hnil (read_does config background app s id)
  | update target body => exact hnil (update_does config background app s target body)
  | delete target => exact hnil (delete_does config background app s target)
  | batchRead ids => exact hnil (batchRead_does config background app s ids)
  | batchCreate body => exact batchCreate_does config background app s body
  | batchUpdate body => exact hnil (batchUpdate_does config background app s body)
  | batchDelete ids => exact hnil (batchDelete_does config background app s ids)

end

/-- What a request writes is sound, provided what it is given and what it finds are. -/
theorem Does.effect {svc : Service Memory} {app : App} {m m' : Memory}
    {call : Call (Option Object)} {tasks : List Registration} (h : Does svc app m call m' tasks) :
    (∃ m₁, RecordsTypes app (svc.decoded app call) m m₁ ∧
        WritesOnce app.identifier (m.Consistent ∧ ∀ o ∈ call.targets, o.Sound) m₁ m') ∧
      ∀ t ∈ tasks, t.app = app ∧ TypedLike t.objects (svc.decoded app call) := by
  have hno : ∀ t ∈ ([] : List Registration),
      t.app = app ∧ TypedLike t.objects (svc.decoded app call) := fun t ht => by cases ht
  cases h with
  | nothing call => exact ⟨⟨m, .inl rfl, .inl rfl⟩, hno⟩
  | records ho h =>
    rw [decoded, ho] at hno ⊢
    exact ⟨⟨m', h, .inl rfl⟩, hno⟩
  | @creates hint body o m₁ ho h =>
    rw [decoded, ho] at hno ⊢
    refine ⟨⟨m₁, h, .inr ⟨_, rfl, fun _ x hx => ?_, rfl⟩⟩, hno⟩
    obtain rfl := List.mem_singleton.mp hx
    exact (made_of_draft ho).sound
  | updates ho =>
    refine ⟨⟨m, .inl rfl, .inr ⟨_, rfl, fun _ x hx => ?_, rfl⟩⟩, hno⟩
    obtain rfl := List.mem_singleton.mp hx
    exact sound_revision ho
  | deletes target =>
    refine ⟨⟨m, .inl rfl, .inr ⟨_, rfl, fun hc x hx => ?_, rfl⟩⟩, hno⟩
    obtain rfl := List.mem_singleton.mp hx
    exact app.sound_adopt (hc.2 target (by simp [Call.targets]))
  | @createsAll body items os _ hread hos htasks =>
    rw [decoded, hread]
    refine ⟨⟨m, .inl rfl, .inr ⟨_, rfl, fun _ o ho => ?_, rfl⟩⟩, fun t ht => ?_⟩
    · obtain ⟨item, -, hitem⟩ := List.mem_filterMap.mp (hos o ho)
      exact (made_of_newObject? hitem).sound
    · obtain rfl := htasks t ht
      refine ⟨rfl, fun o ho => ?_⟩
      obtain ⟨d, hd, htyped⟩ := Memory.left_createAll app.identifier os m o ho
      exact ⟨d, hos d hd, htyped⟩
  | updatesAll hread =>
    exact ⟨⟨m, .inl rfl, .inr ⟨_, rfl, fun _ o ho => (changeFor_of_mem ho).sound, rfl⟩⟩, hno⟩
  | deletesAll ids =>
    refine ⟨⟨m, .inl rfl, .inr ⟨_, rfl, fun hc o ho => ?_, rfl⟩⟩, hno⟩
    obtain ⟨x, hx, rfl⟩ := List.mem_map.mp ho
    obtain ⟨id, -, hid⟩ := List.mem_filterMap.mp (List.mem_filter.mp hx).1
    exact (hc.1.partitions app.identifier id x hid).sound.withShardKey _

theorem answer_effect (config : Config) (background : Background) (app : App)
    (s : ServiceState Memory) (call : Call (Option Object)) :
    Effect app ((inMemory config background).decoded app call)
      (s.store.Consistent ∧ ∀ o ∈ call.targets, o.Sound) s
      (((inMemory config background).answer app call).on s).2 := by
  obtain ⟨tasks, hdoes, hpending⟩ := answer_does config background app s call
  exact ⟨hdoes.effect.1, tasks, hpending, hdoes.effect.2⟩

end Service
end ObjectDepot
