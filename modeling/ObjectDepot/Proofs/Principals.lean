import ObjectDepot.Proofs.Runs
import ObjectDepot.Service.Principal

/-! The app a principal gets. It is the one whose identifier the principal gives, as its record has
it, or else the root app, and never a third one: the identifier that is read out of a record is the
one it was looked up by. -/

namespace ObjectDepot

namespace AppId

/-- The one marker that is put before an identifier is the one that is taken off, so that an
identifier may begin with a marker itself. -/
theorem ofObjectId_objectId (a : AppId) : ofObjectId a.objectId = a := by
  have hprefix : marker.toList.isPrefixOf a.objectId.toList = true := by
    rw [objectId, String.toList_append, List.isPrefixOf_iff_prefix]
    exact List.prefix_append _ _
  have hdrop : a.objectId.toList.drop marker.length = a.text.toList := by
    rw [objectId, String.toList_append, ← String.length_toList, List.drop_left]
  rw [ofObjectId, if_pos hprefix, hdrop, String.ofList_toList]

end AppId

/-- An object that is an app: it has the shape of one, and an identifier that is not blank. -/
def Object.IsApp (o : Object) : Prop :=
  o.shape = some .app ∧ ∃ id, o.id = some id ∧ (AppId.ofObjectId id).isBlank = false

theorem Object.isApp_of_shape {o : Object} {root owner : AppId}
    (h : o.StoredUnder root owner.objectId) (hblank : owner.isBlank = false)
    (hshape : o.shape = some .app) : o.IsApp :=
  ⟨hshape, owner.objectId, h.key, by rw [AppId.ofObjectId_objectId, hblank]⟩

theorem Memory.Consistent.isApp {m : Memory} (hm : m.Consistent) {root owner : AppId}
    (hblank : owner.isBlank = false) {o : Object} (hget : m.get? root owner.objectId = some o)
    (hshape : o.shape = some .app) : o.IsApp :=
  Object.isApp_of_shape (hm.partitions root owner.objectId o hget).toStoredUnder hblank hshape

structure App.Describes (a : App) (record : Object) : Prop where
  envelope : a.envelope = record.envelope
  types : a.types = record.datatypes
  fields : ∀ k, k ≠ "datatypes" → a.toObject.toFields.get? k = record.toFields.get? k

namespace App

theorem identifier_root (root : AppId) : (App.root root).identifier = root :=
  AppId.ofObjectId_objectId root

theorem identifier_of_id {a : App} {owner : AppId} (h : a.envelope.id = some owner.objectId) :
    a.identifier = owner := by
  rw [identifier, h, Option.getD_some, AppId.ofObjectId_objectId]

theorem ofObject_of_isApp {o : Object} (h : o.IsApp) :
    ofObject o = .ok ⟨o.envelope, .ofFields o.body.fields⟩ := by
  obtain ⟨hshape, id, hid, hblank⟩ := h
  simp [ofObject, hshape, hid, hblank]

theorem ofObject_of_not_isApp {o : Object} (h : ¬ o.IsApp) :
    ofObject o = .error (.invalidTenant (o.id.getD "")) := by
  unfold ofObject
  split
  · rename_i id hshape hid
    by_cases hblank : (AppId.ofObjectId id).isBlank
    · rw [if_pos hblank, hid, Option.getD_some]
    · exact absurd ⟨hshape, id, hid, by simpa using hblank⟩ h
  · rfl

theorem isApp_of_ofObject {o : Object} {a : App} (h : ofObject o = .ok a) : o.IsApp := by
  unfold ofObject at h
  split at h
  · rename_i id hshape hid
    split at h
    · cases h
    · rename_i hblank
      exact ⟨hshape, id, hid, by simpa using hblank⟩
  · cases h

theorem describes_of_ofObject {o : Object} {a : App} (ho : o.Sound) (h : ofObject o = .ok a) :
    a.Describes o :=
  ⟨congrArg App.envelope (ofObject_eq_ok h).2, types_ofObject h,
    fun _ hk => get?_toObject_ofObject ho h hk⟩

end App

/-- What comes of looking an app up by its identifier, with something else to fall back on. -/
structure LookedUp (m : Memory) (root owner : AppId) (fallback outcome : Except Failure App) :
    Prop where
  app : ∀ o, m.get? root owner.objectId = some o → o.IsApp →
    ∃ a, outcome = .ok a ∧ a.Describes o ∧ a.identifier = owner
  other : ∀ o, m.get? root owner.objectId = some o → ¬ o.IsApp →
    outcome = .error (.badRequest ["Invalid app."])
  missing : m.get? root owner.objectId = none → outcome = fallback

namespace LookedUp

variable {m : Memory} {root owner : AppId} {fallback outcome : Except Failure App} {o : Object}

theorem of_missing (hget : m.get? root owner.objectId = none) :
    LookedUp m root owner fallback fallback :=
  ⟨fun o ho => by simp [hget] at ho, fun o ho => by simp [hget] at ho, fun _ => rfl⟩

theorem of_app (hget : m.get? root owner.objectId = some o) (ho : o.IsApp) {a : App}
    (ha : a.Describes o) (hid : a.identifier = owner) : LookedUp m root owner fallback (.ok a) := by
  refine ⟨fun x hx _ => ?_, fun x hx hnot => ?_, fun hnone => by simp [hget] at hnone⟩
  · obtain rfl : o = x := Option.some.inj (hget.symm.trans hx)
    exact ⟨a, rfl, ha, hid⟩
  · obtain rfl : o = x := Option.some.inj (hget.symm.trans hx)
    exact absurd ho hnot

theorem of_other (hget : m.get? root owner.objectId = some o) (ho : ¬ o.IsApp) :
    LookedUp m root owner fallback (.error (.badRequest ["Invalid app."])) := by
  refine ⟨fun x hx happ => ?_, fun _ _ _ => rfl, fun hnone => by simp [hget] at hnone⟩
  obtain rfl : o = x := Option.some.inj (hget.symm.trans hx)
  exact absurd happ ho

/-- What holds of the apps that are described by records, and of the one to fall back on, holds of
the outcome. -/
theorem of_ok {P : App → Prop} (h : LookedUp m root owner fallback outcome)
    (hfallback : ∀ a, fallback = .ok a → P a)
    (hrecord : ∀ o a, m.get? root owner.objectId = some o → o.IsApp → a.Describes o →
      a.identifier = owner → P a) {a : App} (ha : outcome = .ok a) : P a := by
  cases hget : m.get? root owner.objectId with
  | none => exact hfallback a ((h.missing hget).symm.trans ha)
  | some o =>
    by_cases ho : o.IsApp
    · obtain ⟨b, hb, hdescribes, hid⟩ := h.app o hget ho
      obtain rfl : b = a := Except.ok.inj (hb.symm.trans ha)
      exact hrecord o b hget ho hdescribes hid
    · cases (h.other o hget ho).symm.trans ha

theorem exists_ok_iff (h : LookedUp m root owner fallback outcome) :
    (∃ a, outcome = .ok a) ↔
      (∀ o, m.get? root owner.objectId = some o → o.IsApp) ∧
        (m.get? root owner.objectId = none → ∃ a, fallback = .ok a) := by
  cases hget : m.get? root owner.objectId with
  | none =>
    rw [h.missing hget]
    simp
  | some o =>
    by_cases ho : o.IsApp
    · obtain ⟨a, ha, -⟩ := h.app o hget ho
      simp [ha, ho]
    · simp [h.other o hget ho, ho]

end LookedUp

namespace Service

variable (config : Config) (background : Background)

theorem loadApp_on (owner : AppId) (s : ServiceState Memory) :
    ((inMemory config background).loadApp owner).on s =
      (match s.store.get? config.root owner.objectId with
        | none => .ok none
        | some o => ((App.ofObject o).mapError .ofStorage).map some, s) := by
  have hread : (inMemory config background).storage.read
      (inMemory config background).config.root owner.objectId s.store =
        (.ok (s.store.get? config.root owner.objectId), s.store) := rfl
  unfold loadApp
  rw [Request.on_bind, Request.on_call, hread]
  cases s.store.get? config.root owner.objectId with
  | none => rfl
  | some o =>
    simp only [mapError_ok, Request.on_bind, Request.on_decoded]
    cases (App.ofObject o).mapError Failure.ofStorage <;> rfl

theorem lookedUp_loadApp {s : ServiceState Memory} (hs : s.store.Consistent) (owner : AppId)
    {next : Option App → Request Memory App} (hfound : ∀ a, next (some a) = pure a)
    (hmissing : ((next none).on s).2 = s) :
    let result := ((inMemory config background).loadApp owner >>= next).on s
    result.2 = s ∧ LookedUp s.store config.root owner ((next none).on s).1 result.1 := by
  intro result
  have hresult : result = _ := Request.on_bind _ _ s
  rw [loadApp_on] at hresult
  cases hget : s.store.get? config.root owner.objectId with
  | none =>
    rw [hget] at hresult
    rw [hresult]
    exact ⟨hmissing, .of_missing hget⟩
  | some o =>
    have hstored := hs.partitions config.root owner.objectId o hget
    rw [hget] at hresult
    by_cases ho : o.IsApp
    · have hread := App.ofObject_of_isApp ho
      simp only [hread, mapError_ok, Except.map, hfound, Request.on_pure] at hresult
      rw [hresult]
      exact ⟨rfl, .of_app hget ho (App.describes_of_ofObject hstored.sound hread)
        (App.identifier_of_id hstored.key)⟩
    · have hread := App.ofObject_of_not_isApp ho
      simp only [hread, mapError_error, Except.map] at hresult
      rw [hresult]
      exact ⟨rfl, .of_other hget ho⟩

theorem lookedUp_rootApp {s : ServiceState Memory} (hs : s.store.Consistent) :
    let result := (inMemory config background).rootApp.on s
    result.2 = s ∧
      LookedUp s.store config.root config.root (.ok (.root config.root)) result.1 :=
  lookedUp_loadApp config background hs config.root (fun _ => rfl) rfl

theorem lookedUp_resolve (principal : Principal) {s : ServiceState Memory}
    (hs : s.store.Consistent) :
    let svc := inMemory config background
    ((svc.resolve principal).on s).2 = s ∧
      LookedUp s.store config.root (principal.appid?.getD config.root)
        ((svc.resolve .anonymous).on s).1 ((svc.resolve principal).on s).1 := by
  intro svc
  obtain ⟨hstate, hanonymous⟩ := lookedUp_rootApp config background hs
  cases hp : principal.appid? with
  | none =>
    have hresolve : svc.resolve principal = svc.rootApp := by rw [resolve, hp]
    simp only [hresolve, Option.getD_none]
    exact ⟨hstate, hanonymous.app, hanonymous.other, fun _ => rfl⟩
  | some appid =>
    simp only [resolve, hp, Option.getD_some]
    exact lookedUp_loadApp config background hs appid (fun _ => rfl) hstate

/-- What holds of the apps that are described by records, and of a new root app, holds of the app that
a principal gets. -/
theorem of_resolve {P : App → Prop} {s : ServiceState Memory} (hs : s.store.Consistent)
    (hroot : P (.root config.root))
    (hrecord : ∀ owner o a, s.store.get? config.root (AppId.objectId owner) = some o → o.IsApp →
      a.Describes o → P a)
    {principal : Principal} {a : App}
    (ha : (((inMemory config background).resolve principal).on s).1 = .ok a) : P a := by
  have hnamed := (lookedUp_resolve config background principal hs).2
  have hanonymous := (lookedUp_rootApp config background hs).2
  refine hnamed.of_ok (fun b hb => ?_) (fun o b ho happ hb _ => hrecord _ o b ho happ hb) ha
  refine hanonymous.of_ok (fun c hc => ?_) (fun o c ho happ hc _ => hrecord _ o c ho happ hc) hb
  exact Except.ok.inj hc ▸ hroot

/-- A principal gets the app it names, as the record of the app has it. Without a record it gets what
one without credentials gets: the root app, by its record or a new one. What stands in the place of a
record and is none makes the request fail. So no principal gets a third app. -/
theorem resolve_named_or_root (principal : Principal) {s : ServiceState Memory}
    (hs : s.store.Reachable) :
    let svc := inMemory config background
    let named := principal.appid?.getD config.root
    let anonymous := ((svc.resolve .anonymous).on s).1
    let outcome := ((svc.resolve principal).on s).1
    ((svc.resolve principal).on s).2 = s ∧
      LookedUp s.store config.root named anonymous outcome ∧
      LookedUp s.store config.root config.root (.ok (.root config.root)) anonymous ∧
      ∀ a, outcome = .ok a → a.identifier = named ∨ a.identifier = config.root := by
  intro svc named anonymous outcome
  have hanonymous : LookedUp s.store config.root config.root (.ok (.root config.root)) anonymous :=
    (lookedUp_rootApp config background hs.consistent).2
  obtain ⟨hstate, hnamed⟩ := lookedUp_resolve config background principal hs.consistent
  have hroot (a : App) (ha : anonymous = .ok a) : a.identifier = config.root :=
    hanonymous.of_ok (fun b hb => by rw [← Except.ok.inj hb, App.identifier_root])
      (fun _ _ _ _ _ hid => hid) ha
  refine ⟨hstate, hnamed, hanonymous, fun a ha => ?_⟩
  exact hnamed.of_ok (P := fun a => a.identifier = named ∨ a.identifier = config.root)
    (fun b hb => .inr (hroot b hb)) (fun _ _ _ _ _ hid => .inl hid) ha

/-- Beside an app whose identifier begins with a marker there is a dog with the identifier of a
record. -/
def markedState : ServiceState Memory :=
  let app := (App.named "app:shop" ⟨"root"⟩).toObject
  let dog := ((Object.ofType "dog").withAppid (some "root")).withId (some "app:shop")
  (inMemory {} .queued).initial
    ((Write.createAll ⟨"root"⟩ [app, dog]).run (.ofSupply .still))

theorem resolve_named_or_root_marked :
    markedState.store.Reachable ∧
      (markedState.store.objects ⟨"root"⟩).keys = ["app:app:shop", "app:shop"] ∧
      let svc := inMemory {} .queued
      let anonymous := ((svc.resolve .anonymous).on markedState).1
      let outcome := ((svc.resolve (.user "u" ⟨"app:shop"⟩)).on markedState).1
      ((svc.resolve (.user "u" ⟨"app:shop"⟩)).on markedState).2 = markedState ∧
        LookedUp markedState.store ⟨"root"⟩ ⟨"app:shop"⟩ anonymous outcome ∧
        LookedUp markedState.store ⟨"root"⟩ ⟨"root"⟩ (.ok (.root ⟨"root"⟩)) anonymous ∧
        ∀ a, outcome = .ok a → a.identifier = ⟨"app:shop"⟩ ∨ a.identifier = ⟨"root"⟩ := by
  have hreachable : markedState.store.Reachable := by
    change (Write.run _ (.createAll ⟨"root"⟩ _)).Reachable
    refine .write (.empty Supply.sound_still) (fun o ho => ?_)
    simp only [Write.objects, List.mem_cons, List.not_mem_nil, or_false] at ho
    rcases ho with rfl | rfl
    · exact App.sound_toObject ⟨by rintro t ⟨⟩, by rintro t ⟨⟩⟩
    · exact ((Object.sound_ofType "dog").withAppid _).withId _
  exact ⟨hreachable, by decide +kernel,
    resolve_named_or_root {} .queued (.user "u" ⟨"app:shop"⟩) hreachable⟩

end Service
end ObjectDepot
