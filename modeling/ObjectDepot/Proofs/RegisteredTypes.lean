import Mathlib.Control.Monad.Basic
import ObjectDepot.Json.Equality
import ObjectDepot.Proofs.Identity
import ObjectDepot.Proofs.TypedBodies

/-! Types that are registered stay registered. The record of an app is written anew whenever types
are added, from views of the app that may be old, and clients of the root app may update it like any
other object. None of that takes an entry out of the record or replaces one. -/

namespace ObjectDepot

/-- What an app's record has become: still one of an app, with all the types it had. -/
structure Object.KeepsTypes (o o' : Object) : Prop where
  shape : o'.shape = some .app
  types : ∀ plural singular, o.datatypes.get? plural = some singular →
    o'.datatypes.get? plural = some singular

namespace Object

theorem KeepsTypes.refl {o : Object} (h : o.shape = some .app) : o.KeepsTypes o :=
  ⟨h, fun _ _ ht => ht⟩

theorem KeepsTypes.trans {o o' o'' : Object} (h : o.KeepsTypes o') (h' : o'.KeepsTypes o'') :
    o.KeepsTypes o'' :=
  ⟨h'.shape, fun plural singular ht => h'.types plural singular (h.types plural singular ht)⟩

theorem keepsTypes_of_body {o o' : Object} (hshape : o'.shape = some .app)
    (h : o'.body.fields.get? "datatypes" = o.body.fields.get? "datatypes") : o.KeepsTypes o' := by
  have htypes : o'.datatypes = o.datatypes := by
    simp only [datatypes, AppSettings.textMapOf, h]
  exact ⟨hshape, fun _ _ ht => by rw [htypes, ht]⟩

theorem isLocked_datatypes {o : Object} (h : o.shape = some .app) : o.isLocked "datatypes" := by
  have hspec : Envelope.spec? "datatypes" = none := rfl
  simp only [isLocked, hspec, h]
  rfl

theorem keepsTypes_of_overlay {o o' : Object} {fields : FieldMap} (ho : o.Sound)
    (hshape : o.shape = some .app) (hfields : fields.get? "datatypes" = none)
    (h : o.overlay fields = .ok o') : o.KeepsTypes o' := by
  refine keepsTypes_of_body ((shape_overlay h).trans hshape) ?_
  have hhas : Envelope.has "datatypes" = false := rfl
  rw [get?_overlay_body ho h, hhas, hfields]
  rfl

theorem keepsTypes_of_revision {σ : Type} {svc : Service σ} {app : App} {target o : Object}
    {body : RequestBody} (ht : target.Sound) (hshape : target.shape = some .app)
    (h : svc.revision app (some target) body = .ok o) : target.KeepsTypes o := by
  obtain ⟨fields, t, -, heq, -, -, hchange, -⟩ := Service.revision_eq_ok_iff.mp h
  obtain rfl := Option.some.inj heq
  have hlay := FieldNames.apply_eq_ok_iff.mp hchange
  have hstamped : (app.stamp target).shape = some .app := hshape
  have hnone : (((svc.names.normalize fields).erase "type").filter
      (fun name _ => !(app.stamp target).isLocked name)).get? "datatypes" = none := by
    rw [FieldNames.get?_filter_unlocked, if_pos (isLocked_datatypes hstamped)]
  have hkeeps := keepsTypes_of_overlay (ht.withShardKey _) hstamped hnone hlay
  exact ⟨hkeeps.shape, hkeeps.types⟩

theorem keepsTypes_of_merges {os : List Object} {app : AppId} {id : String} {now : Int}
    {stored next : Object} (hnow : IsInt64 now) (hos : ∀ o ∈ os, o.ChangeFor app)
    (happs : ∀ o ∈ os, o.id = some id → o.shape = some .app) (hstored : stored.Sound)
    (hshape : stored.shape = some .app)
    (h : Relation.ReflTransGen (MergedWith os id now) stored next) :
    next.Sound ∧ stored.KeepsTypes next := by
  induction h with
  | refl => exact ⟨hstored, .refl hshape⟩
  | tail _ hstep ih =>
    obtain ⟨o, ho, hid, merged, hmerge, rfl⟩ := hstep
    -- A change that is an app itself has the types locked.
    have hlocked := isLocked_datatypes (happs o ho hid)
    have hnone := (hos o ho).locked "datatypes" hlocked (by decide) (by decide) (by decide)
    have hmerged := keepsTypes_of_overlay ih.1 ih.2.shape hnone (mergeFrom_eq_ok_iff.mp hmerge)
    exact ⟨sound_merged hmerge hnow, ih.2.trans ⟨hmerged.shape, hmerged.types⟩⟩

end Object

def Memory.KeepsTypes (m m' : Memory) (app : AppId) (id : String) : Prop :=
  ∀ o, m.get? app id = some o → o.shape = some .app →
    ∃ o', m'.get? app id = some o' ∧ o.KeepsTypes o'

namespace Memory

theorem KeepsTypes.refl (m : Memory) (app : AppId) (id : String) : m.KeepsTypes m app id :=
  fun o ho hshape => ⟨o, ho, .refl hshape⟩

theorem KeepsTypes.trans {m m' m'' : Memory} {app : AppId} {id : String}
    (h : m.KeepsTypes m' app id) (h' : m'.KeepsTypes m'' app id) : m.KeepsTypes m'' app id := by
  intro o ho hshape
  obtain ⟨o', ho', hkeeps⟩ := h o ho hshape
  obtain ⟨o'', ho'', hkeeps'⟩ := h' o' ho' hkeeps.shape
  exact ⟨o'', ho'', hkeeps.trans hkeeps'⟩

end Memory

namespace Write

/-- A write that puts in the place of an app's record one with the same types and more, and merges
into it only what is an app too. -/
def KeepsTypes (m : Memory) : Write → Prop
  | update app o => ∀ stored, m.get? app (o.id.getD "") = some stored →
      stored.shape = some .app → stored.KeepsTypes o
  | updateAll app os => ∀ o ∈ os, o.ChangeFor app ∧ ∀ id stored, o.id = some id →
      m.get? app id = some stored → stored.shape = some .app → o.shape = some .app
  | _ => True

theorem keepsTypes_or_deletes {w : Write} {m : Memory} (hm : m.Consistent) (hw : w.KeepsTypes m)
    (app : AppId) (id : String) :
    m.KeepsTypes (w.run m) app id ∨ app = w.app ∧ w.Deletes id := by
  cases hget : m.get? app id with
  | none => exact .inl (fun o ho => by simp [hget] at ho)
  | some stored =>
    by_cases hshape : stored.shape = some .app
    · have hkeeps {o : Object} (hrun : (w.run m).get? app id = some o) (h : stored.KeepsTypes o) :
          m.KeepsTypes (w.run m) app id := by
        intro x hx _
        obtain rfl := Option.some.inj (hget.symm.trans hx)
        exact ⟨o, hrun, h⟩
      rcases w.run_of_stored m hget with
        hrun | ⟨o, rfl, rfl, hrun⟩ | ⟨os, next, rfl, hsteps, hrun⟩ | ⟨happ, hdeletes, -⟩
      · exact .inl (hkeeps hrun (.refl hshape))
      · have ho := hw stored hget hshape
        exact .inl (hkeeps hrun ⟨ho.shape, ho.types⟩)
      · have hsound := (hm.partitions app id stored hget).sound
        have hmerged := Object.keepsTypes_of_merges hm.supply.now (fun o ho => (hw o ho).1)
          (fun o ho hid => (hw o ho).2 id stored hid hget hshape) hsound hshape hsteps
        exact .inl (hkeeps hrun hmerged.2)
      · exact .inr ⟨happ, hdeletes⟩
    · refine .inl (fun o ho h => ?_)
      obtain rfl := Option.some.inj (hget.symm.trans ho)
      exact absurd h hshape

theorem keepsTypes_of_not_deletes {w : Write} {m : Memory} (hm : m.Consistent)
    (hw : w.KeepsTypes m) (hdeletes : ∀ id, ¬ w.Deletes id) (app : AppId) (id : String) :
    m.KeepsTypes (w.run m) app id := by
  rcases keepsTypes_or_deletes hm hw app id with hkeeps | ⟨-, h⟩
  · exact hkeeps
  · exact absurd h (hdeletes id)

end Write

theorem RecordsTypes.keepsTypes {app : App} {os : List Object} {m m' : Memory} (hm : m.Consistent)
    (h : RecordsTypes app os m m') (owner : AppId) (id : String) : m.KeepsTypes m' owner id := by
  rcases h with rfl | ⟨pending, -, rfl⟩
  · exact .refl m' owner id
  · rcases Registry.recordTypes_cases app pending m with
      h | ⟨record, latest, hget, hlatest, h⟩ | ⟨-, h⟩
    · rw [h]
      exact .refl m owner id
    · -- What is written is the record as it is stored with types added to it, however old the view
      -- of the app is from which they were found to be new.
      obtain ⟨-, htypes⟩ := Registry.addTypes_spec latest pending
      have hid : (Registry.addTypes latest pending).1.toObject.id = some app.identifier.objectId := by
        rw [Object.id, Registry.envelope_addTypes, (App.ofObject_eq_ok hlatest).2]
        exact (hm.partitions app.partition _ record hget).key
      have hkeeps : record.KeepsTypes (Registry.addTypes latest pending).1.toObject := by
        refine ⟨rfl, fun plural singular ht => ?_⟩
        rw [App.datatypes_toObject, htypes, App.types_ofObject hlatest, ht, Option.some_or]
      have hwrite : (Write.update app.partition
          (Registry.addTypes latest pending).1.toObject).KeepsTypes m := by
        intro stored hstored _
        rw [hid, Option.getD_some] at hstored
        obtain rfl := Option.some.inj (hget.symm.trans hstored)
        exact hkeeps
      rw [h]
      exact Write.keepsTypes_of_not_deletes hm hwrite (fun _ h => h) owner id
    · rw [h]
      exact Write.keepsTypes_of_not_deletes (w := .create app.partition _) hm trivial
        (fun _ h => h) owner id

def Call.TargetsStored (m : Memory) (call : Call (Option Object)) : Prop :=
  ∀ o ∈ call.targets, ∃ owner id, m.get? owner id = some o

namespace Service

/-- Whether the items of a batch update name the types that the objects have which are stored under
their identifiers. -/
def NamesTypes (svc : Service Memory) (app : App) (m : Memory) : Call (Option Object) → Prop
  | .batchUpdate body => ∀ items, RequestBody.readList svc.config.maxEntitySize body = .ok items →
      ∀ o ∈ items.filterMap (svc.changes? app), ∀ id stored, o.id = some id →
        m.get? app.identifier id = some stored → o.type = stored.type
  | _ => True

theorem Does.keepsTypes {svc : Service Memory} {app : App} (happ : app.WellFormed) {m m' : Memory}
    (hm : m.TypedReachable) {call : Call (Option Object)} {tasks : List Registration}
    (htargets : call.TargetsStored m) (htypes : svc.NamesTypes app m call)
    (h : Does svc app m call m' tasks) (owner : AppId) (id : String) :
    m.KeepsTypes m' owner id ∨ owner = app.identifier ∧ call.Deletes id := by
  have hconsistent := hm.reachable.consistent
  cases h with
  | nothing => exact .inl (.refl m owner id)
  | records _ hrecords => exact .inl (hrecords.keepsTypes hconsistent owner id)
  | @creates _ _ o m₁ _ hrecords =>
    have hm₁ := (hm.recordsTypes happ hrecords).reachable.consistent
    have hcreate := Write.keepsTypes_of_not_deletes (w := .create app.identifier o) hm₁ trivial
      (fun _ h => h) owner id
    exact .inl ((hrecords.keepsTypes hconsistent owner id).trans hcreate)
  | @updates target body o ho =>
    obtain ⟨_, target, -, rfl, -⟩ := revision_eq_ok_iff.mp ho
    obtain ⟨partition, key, hkey⟩ := htargets target (by simp [Call.targets])
    rw [← hkey] at ho
    obtain ⟨x, hx, ho⟩ := stored_of_revision hconsistent ho
    have hsound := (hconsistent.partitions app.identifier _ x hx).sound
    have hwrite : (Write.update app.identifier o).KeepsTypes m := by
      intro stored hstored hshape
      obtain rfl := Option.some.inj (hx.symm.trans hstored)
      exact Object.keepsTypes_of_revision hsound hshape ho
    exact .inl (Write.keepsTypes_of_not_deletes hconsistent hwrite (fun _ h => h) owner id)
  | deletes target =>
    rcases Write.keepsTypes_or_deletes (w := .delete app.identifier (app.adopt target)) hconsistent
      trivial owner id with hkeeps | ⟨howner, hdeletes⟩
    · exact .inl hkeeps
    · exact .inr ⟨howner, target, rfl, hdeletes⟩
  | @createsAll body items os =>
    exact .inl (Write.keepsTypes_of_not_deletes (w := .createAll app.identifier os) hconsistent
      trivial (fun _ h => h) owner id)
  | @updatesAll body items hread =>
    have hwrite : (Write.updateAll app.identifier
        (items.filterMap (svc.changes? app))).KeepsTypes m := by
      intro o ho
      refine ⟨changeFor_of_mem ho, fun k stored hid hstored hshape => ?_⟩
      obtain ⟨item, -, hitem⟩ := List.mem_filterMap.mp ho
      -- The item names the type of an app, and so it has the shape of one.
      have htyped : o.shape = Shape.ofSingular? o.type := typed_changes? hitem
      rw [htyped, htypes items hread o ho k stored hid hstored, ← hshape]
      exact (hm.typed app.identifier k stored hstored).symm
    exact .inl (Write.keepsTypes_of_not_deletes hconsistent hwrite (fun _ h => h) owner id)
  | deletesAll ids =>
    rcases Write.keepsTypes_or_deletes (w := .deleteAll app.identifier _) hconsistent trivial owner
      id with hkeeps | ⟨howner, o, ho, hid⟩
    · exact .inl hkeeps
    · exact .inr ⟨howner, mem_of_mem_deletable hconsistent ho hid⟩

end Service

/-- Something that is done with a service, or types that are registered at once. -/
inductive Deed where
  | act (a : Act)
  | register (app : Option App) (objects : List Object)

namespace Deed

/-- Under an app that there can be, however old the view of it. -/
def WellFormed : Deed → Prop
  | act (.request app _) => app.WellFormed
  | act (.registration _ _) => True
  | register app _ => ∀ a ∈ app, a.WellFormed

/-- To targets as they are stored, and to items that name the types of what is stored. -/
def Fair (svc : Service Memory) (m : Memory) : Deed → Prop
  | act (.request app call) => call.TargetsStored m ∧ svc.NamesTypes app m call
  | _ => True

def Deletes (app : AppId) (id : String) : Deed → Prop
  | act a => a.Deletes app id
  | register _ _ => False

end Deed

namespace Service

def perform (svc : Service Memory) (supply : Supply) (s : ServiceState Memory) :
    Deed → ServiceState Memory
  | .act a => svc.act supply s a
  | .register app objects => (svc.registerTypes app objects (s.withSupply supply)).2

def performAll (svc : Service Memory) :
    List (Supply × Deed) → ServiceState Memory → ServiceState Memory
  | [], s => s
  | (supply, d) :: deeds, s => svc.performAll deeds (svc.perform supply s d)

def AllFair (svc : Service Memory) : List (Supply × Deed) → ServiceState Memory → Prop
  | [], _ => True
  | (supply, d) :: deeds, s => d.Fair svc s.store ∧ svc.AllFair deeds (svc.perform supply s d)

variable (config : Config) (background : Background) {supply : Supply} {d : Deed}
  {s : ServiceState Memory}

theorem typedReachable_perform (hsupply : supply.Sound) (hd : d.WellFormed)
    (hs : s.TypedReachable) (hfair : d.Fair (inMemory config background) s.store) :
    ((inMemory config background).perform supply s d).TypedReachable := by
  have hwait : (s.withSupply supply).TypedReachable := ⟨.wait hs.store hsupply, hs.pending⟩
  cases d with
  | act a =>
    cases a with
    | request app call =>
      refine typedReachable_answer config background hd hwait (fun o ho => ?_)
      obtain ⟨owner, id, hget⟩ := hfair.1 o ho
      exact ⟨(hs.store.reachable.consistent.partitions owner id o hget).sound,
        hs.store.typed owner id o hget⟩
    | registration app index => exact typedReachable_runWaiting config background app index hwait
  | register app objects =>
    cases app with
    | none => exact hwait
    | some app =>
      obtain ⟨hrecords, hpending⟩ :=
        registerTypes_effect config background app objects (s.withSupply supply)
      refine ⟨hwait.store.recordsTypes (hd app rfl) hrecords, ?_⟩
      rw [perform, hpending]
      exact hwait.pending

theorem perform_keepsTypes (hsupply : supply.Sound) (hd : d.WellFormed) (hs : s.TypedReachable)
    (hfair : d.Fair (inMemory config background) s.store) (app : AppId) (id : String) :
    s.store.KeepsTypes ((inMemory config background).perform supply s d).store app id ∨
      d.Deletes app id := by
  have hwait : (s.withSupply supply).store.TypedReachable := .wait hs.store hsupply
  have hconsistent := hwait.reachable.consistent
  cases d with
  | act a =>
    cases a with
    | request caller call =>
      obtain ⟨tasks, hdoes, -⟩ := answer_does config background caller (s.withSupply supply) call
      exact hdoes.keepsTypes hd hwait hfair.1 hfair.2 app id
    | registration owner index =>
      refine .inl ?_
      refine store_runWaiting (P := (s.store.KeepsTypes · app id)) (s := s.withSupply supply) config
        background (.refl s.store app id) (fun t _ m hrecords => ?_) owner index
      exact hrecords.keepsTypes hconsistent app id
  | register owner objects =>
    refine .inl ?_
    cases owner with
    | none => exact .refl s.store app id
    | some owner =>
      have hrecords := (registerTypes_effect config background owner objects
        (s.withSupply supply)).1
      exact hrecords.keepsTypes hconsistent app id

theorem performAll_append (svc : Service Memory) (deeds more : List (Supply × Deed))
    (s : ServiceState Memory) :
    svc.performAll (deeds ++ more) s = svc.performAll more (svc.performAll deeds s) := by
  induction deeds generalizing s with
  | nil => rfl
  | cons r deeds ih => exact ih _

theorem allFair_append {svc : Service Memory} {deeds more : List (Supply × Deed)}
    {s : ServiceState Memory} (h : svc.AllFair (deeds ++ more) s) :
    svc.AllFair deeds s ∧ svc.AllFair more (svc.performAll deeds s) := by
  induction deeds generalizing s with
  | nil => exact ⟨trivial, h⟩
  | cons r deeds ih =>
    obtain ⟨hdeeds, hmore⟩ := ih h.2
    exact ⟨⟨h.1, hdeeds⟩, hmore⟩

section

variable {deeds : List (Supply × Deed)}

theorem typedReachable_performAll (hdeeds : ∀ r ∈ deeds, r.1.Sound ∧ r.2.WellFormed)
    (hs : s.TypedReachable) (hfair : (inMemory config background).AllFair deeds s) :
    ((inMemory config background).performAll deeds s).TypedReachable := by
  induction deeds generalizing s with
  | nil => exact hs
  | cons r deeds ih =>
    obtain ⟨hsupply, hd⟩ := hdeeds r List.mem_cons_self
    exact ih (fun x hx => hdeeds x (List.mem_cons_of_mem _ hx))
      (typedReachable_perform config background hsupply hd hs hfair.1) hfair.2

theorem performAll_keepsTypes (hdeeds : ∀ r ∈ deeds, r.1.Sound ∧ r.2.WellFormed)
    (hs : s.TypedReachable) (hfair : (inMemory config background).AllFair deeds s) {app : AppId}
    {id : String} (hdeletes : ∀ r ∈ deeds, ¬ r.2.Deletes app id) :
    s.store.KeepsTypes ((inMemory config background).performAll deeds s).store app id := by
  induction deeds generalizing s with
  | nil => exact .refl s.store app id
  | cons r deeds ih =>
    obtain ⟨hsupply, hd⟩ := hdeeds r List.mem_cons_self
    have hfirst := (perform_keepsTypes config background hsupply hd hs hfair.1 app id).resolve_right
      (hdeletes r List.mem_cons_self)
    have hnext := typedReachable_perform config background hsupply hd hs hfair.1
    exact hfirst.trans (ih (fun x hx => hdeeds x (List.mem_cons_of_mem _ hx)) hnext hfair.2
      (fun x hx => hdeletes x (List.mem_cons_of_mem _ hx)))

end

/-- A type that an app's record has at one point of a run it has at every later one, the same
singular for the plural, whatever is done between and by whatever views of the app, as long as
nothing is to delete the record. -/
theorem registered_types_stay {earlier later : List (Supply × Deed)}
    (hdeeds : ∀ r ∈ earlier ++ later, r.1.Sound ∧ r.2.WellFormed) (hs : s.TypedReachable)
    (hfair : (inMemory config background).AllFair (earlier ++ later) s) {app : AppId} {id : String}
    (hdeletes : ∀ r ∈ later, ¬ r.2.Deletes app id) {o : Object}
    (ho : ((inMemory config background).performAll earlier s).store.get? app id = some o)
    (hshape : o.shape = some .app) :
    ∃ o', ((inMemory config background).performAll (earlier ++ later) s).store.get? app id =
        some o' ∧ o'.shape = some .app ∧
      ∀ plural singular, o.datatypes.get? plural = some singular →
        o'.datatypes.get? plural = some singular := by
  obtain ⟨hfair₁, hfair₂⟩ := allFair_append hfair
  have hmiddle := typedReachable_performAll config background
    (fun r hr => hdeeds r (List.mem_append_left _ hr)) hs hfair₁
  have hkeeps := performAll_keepsTypes config background
    (fun r hr => hdeeds r (List.mem_append_right _ hr)) hmiddle hfair₂ hdeletes
  obtain ⟨o', ho', hkept⟩ := hkeeps o ho hshape
  rw [performAll_append]
  exact ⟨o', ho', hkept.shape, hkept.types⟩

def dogRecordState : ServiceState Memory :=
  shopState [.ofText "\x7b\"id\":\"d\",\"type\":\"dog\"\x7d"]

/-- The root app is to rename the types of `shop`. -/
def renamedTypes : List (Supply × Deed) :=
  [(.still, .act (.request (.root ⟨"root"⟩) (.update (dogRecordState.store.get? ⟨"root"⟩ "app:shop")
    (.ofText "\x7b\"datatypes\":\x7b\"dogs\":\"hound\"\x7d,\"active\":true\x7d"))))]

def emptiedBody : RequestBody :=
  .ofText "[\x7b\"id\":\"app:shop\",\"type\":\"app\",\"datatypes\":\x7b\x7d\x7d]"

def emptiedItem : Json :=
  .obj [("datatypes", .obj []), ("id", .str "app:shop"), ("type", .str "app")]

/-- It is to take them away in a batch, and a view of `shop` that has no types registers cats. -/
def oldView : List (Supply × Deed) :=
  [(.still, .act (.request (.root ⟨"root"⟩) (.batchUpdate emptiedBody))),
    (.still, .register (some .shop) [.ofType "cat"]),
    (.still, .act (.registration App.shop.identifier 0))]

theorem registered_types_stay_shop :
    (∀ r ∈ renamedTypes ++ oldView, r.1.Sound ∧ r.2.WellFormed) ∧ dogRecordState.TypedReachable ∧
      (inMemory {} .queued).AllFair (renamedTypes ++ oldView) dogRecordState ∧
      (∀ r ∈ oldView, ¬ r.2.Deletes ⟨"root"⟩ "app:shop") ∧
      ∃ o, ((inMemory {} .queued).performAll renamedTypes dogRecordState).store.get? ⟨"root"⟩
          "app:shop" = some o ∧ o.shape = some .app ∧
        ∃ o', ((inMemory {} .queued).performAll (renamedTypes ++ oldView) dogRecordState).store.get?
            ⟨"root"⟩ "app:shop" = some o' ∧ o'.shape = some .app ∧
          ∀ plural singular, o.datatypes.get? plural = some singular →
            o'.datatypes.get? plural = some singular := by
  have hreachable : dogRecordState.TypedReachable := shopState_typedReachable _
  have hroot : (App.root ⟨"root"⟩).WellFormed := ⟨⟨by rintro t ⟨⟩, by rintro t ⟨⟩⟩, rfl⟩
  have hdeeds : ∀ r ∈ renamedTypes ++ oldView, r.1.Sound ∧ r.2.WellFormed := by
    intro r hr
    simp only [renamedTypes, oldView, List.cons_append, List.nil_append, List.mem_cons,
      List.not_mem_nil, or_false] at hr
    rcases hr with rfl | rfl | rfl | rfl
    · exact ⟨Supply.sound_still, hroot⟩
    · exact ⟨Supply.sound_still, hroot⟩
    · refine ⟨Supply.sound_still, fun a ha => ?_⟩
      obtain rfl := Option.some.inj ha
      exact ⟨App.sound_shop, rfl⟩
    · exact ⟨Supply.sound_still, trivial⟩
  have hfair : (inMemory {} .queued).AllFair (renamedTypes ++ oldView) dogRecordState := by
    refine ⟨⟨fun o ho => ⟨⟨"root"⟩, "app:shop", Option.mem_toList.mp ho⟩, trivial⟩,
      ⟨(fun o ho => by cases ho), ?_⟩, trivial, trivial, trivial⟩
    intro items hitems o ho id stored hid hstored
    have hread : RequestBody.readList ({} : Config).maxEntitySize emptiedBody =
        .ok [emptiedItem] := by decide +kernel
    obtain rfl := Except.ok.inj (hread.symm.trans hitems)
    obtain ⟨item, hitem, hchanges⟩ := List.mem_filterMap.mp ho
    obtain rfl := List.mem_singleton.mp hitem
    have hsent : ((inMemory {} .queued).changes? (.root ⟨"root"⟩) emptiedItem).map
        (fun o => (o.id, o.type)) = some (some "app:shop", "app") := by decide +kernel
    have hrecord : (((inMemory {} .queued).performAll renamedTypes dogRecordState).store.get?
        ⟨"root"⟩ "app:shop").map Object.type = some "app" := by decide +kernel
    rw [hchanges, Option.map_some, Option.some.injEq, Prod.mk.injEq] at hsent
    obtain rfl : id = "app:shop" := Option.some.inj (hid.symm.trans hsent.1)
    obtain ⟨x, hx, htype⟩ := Option.map_eq_some_iff.mp hrecord
    obtain rfl : x = stored := Option.some.inj (hx.symm.trans hstored)
    rw [hsent.2, htype]
  have hdeletes : ∀ r ∈ oldView, ¬ r.2.Deletes ⟨"root"⟩ "app:shop" := by
    intro r hr
    simp only [oldView, List.mem_cons, List.not_mem_nil, or_false] at hr
    rcases hr with rfl | rfl | rfl
    · exact fun h => h.2
    · exact fun h => h
    · exact fun h => h
  have hsome : ((((inMemory {} .queued).performAll renamedTypes dogRecordState).store.get? ⟨"root"⟩
      "app:shop").filter (fun o => o.shape = some .app)).isSome := by decide +kernel
  obtain ⟨o, ho⟩ := Option.isSome_iff_exists.mp hsome
  obtain ⟨hget, hshape⟩ := Option.filter_eq_some_iff.mp ho
  have hshape' : o.shape = some .app := by simpa using hshape
  exact ⟨hdeeds, hreachable, hfair, hdeletes, o, hget, hshape',
    registered_types_stay {} .queued hdeeds hreachable hfair hdeletes hget hshape'⟩

end Service
end ObjectDepot
