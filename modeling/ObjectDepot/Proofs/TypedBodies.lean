import ObjectDepot.Proofs.Runs

/-! Types and shapes. Every object that a service makes has a body of the shape that belongs to its
type, and nothing that happens to it changes that. So it is with all objects that are stored, unless
others were put there past the service. -/

namespace ObjectDepot

/-- The body has the shape that belongs to the type. -/
def Object.Typed (o : Object) : Prop := o.shape = Shape.ofSingular? o.type

namespace Object

theorem Typed.of_eq {o o' : Object} (h : o.Typed) (htype : o'.type = o.type)
    (hshape : o'.shape = o.shape) : o'.Typed := by
  rw [Typed, htype, hshape]
  exact h

theorem Typed.overlay {o o' : Object} {fields : FieldMap} (h : o.Typed) (ho : o.Sound)
    (hlay : o.overlay fields = .ok o') : o'.Typed :=
  h.of_eq (type_overlay ho hlay) (shape_overlay hlay)

theorem Typed.singular {o : Object} (h : o.Typed) {s : Shape} (hs : o.shape = some s) :
    s.singular = o.type := by
  have hfound : Shape.ofSingular? o.type = some s := h.symm.trans hs
  have hname := List.find?_some hfound
  exact of_decide_eq_true hname

theorem Typed.plural {o : Object} (h : o.Typed) : o.plural = TypeName.pluralize o.type := by
  rw [Object.plural]
  cases hs : o.shape with
  | none => rfl
  | some s => rw [← h.singular hs, ← s.plural_eq_pluralize]

theorem typed_ofFields {fields : FieldMap} {o : Object} (h : ofFields fields = .ok o) : o.Typed :=
  shape_ofFields h

end Object

theorem App.typed_toObject {a : App} (h : a.envelope.type = "app") : a.toObject.Typed := by
  rw [Object.Typed, Object.type, App.toObject, h]
  rfl

/-- What a write puts under an identifier is typed, if its objects are and what stood there is. -/
theorem Write.Changes.typed {s : Supply} {id : String} {w : Write} {old new : Option Object}
    (h : w.Changes s id old new) (hs : IsInt64 s.now) (hw : ∀ o ∈ w.objects, o.Typed)
    (hold : ∀ o, old = some o → o.Sound ∧ o.Typed) : ∀ o, new = some o → o.Typed := by
  cases h with
  | same => exact fun o ho => (hold o ho).2
  | created ho _ _ =>
    rintro x ⟨⟩
    exact (hw _ ho).of_eq rfl rfl
  | replaced _ _ =>
    rintro x ⟨⟩
    exact (hw _ List.mem_cons_self).of_eq rfl rfl
  | @merged app os stored next _ hsteps =>
    rintro x ⟨⟩
    have hstored : next.Sound ∧ next.Typed := by
      induction hsteps with
      | refl => exact hold stored rfl
      | tail _ hstep ih =>
        obtain ⟨o, -, -, merged, hmerge, rfl⟩ := hstep
        have hmerged := ih.2.overlay ih.1 (Object.mergeFrom_eq_ok_iff.mp hmerge)
        exact ⟨Object.sound_merged hmerge hs, hmerged.of_eq rfl rfl⟩
    exact hstored.2
  | deleted => rintro x ⟨⟩

namespace Memory

/-- What becomes of an empty storage by writes of typed objects, while time passes. -/
inductive TypedReachable : Memory → Prop
  | empty {s : Supply} (hs : s.Sound) : TypedReachable (ofSupply s)
  | wait {m : Memory} {s : Supply} (hm : TypedReachable m) (hs : s.Sound) :
    TypedReachable { m with supply := s }
  | write {m : Memory} {w : Write} (hm : TypedReachable m)
      (hw : ∀ o ∈ w.objects, o.Sound ∧ o.Typed) : TypedReachable (w.run m)

theorem TypedReachable.reachable {m : Memory} (h : TypedReachable m) : m.Reachable := by
  induction h with
  | empty hs => exact .empty hs
  | wait _ hs ih => exact .wait ih hs
  | write _ hw ih => exact .write ih (fun o ho => (hw o ho).1)

theorem TypedReachable.typed {m : Memory} (h : TypedReachable m) :
    ∀ app id o, m.get? app id = some o → o.Typed := by
  induction h with
  | empty hs =>
    intro app id o ho
    cases ho
  | wait _ _ ih => exact ih
  | @write m w hm hw ih =>
    intro app id o ho
    by_cases happ : app = w.app
    · subst happ
      have hm' := hm.reachable.consistent
      exact (w.changes_run m id).typed hm'.supply.now (fun x hx => (hw x hx).2)
        (fun x hx => ⟨(hm'.partitions w.app id x hx).sound, ih w.app id x hx⟩) o ho
    · rw [get?, Write.objects_run happ] at ho
      exact ih app id o ho

end Memory

/-- An app as it is made or read out of its record. -/
structure App.WellFormed (a : App) : Prop where
  sound : a.envelope.Sound
  type : a.envelope.type = "app"

namespace Memory

theorem TypedReachable.recordsTypes {m m' : Memory} (hm : m.TypedReachable) {app : App}
    (happ : app.WellFormed) {os : List Object} (h : RecordsTypes app os m m') :
    m'.TypedReachable := by
  rcases h.writes with rfl | ⟨w, a, hobjects, rfl, henvelope⟩
  · exact hm
  · have ha : a.toObject.Sound ∧ a.toObject.Typed := by
      rcases henvelope with henvelope | ⟨record, hget, hshape, henvelope⟩
      · exact ⟨App.sound_toObject (henvelope ▸ happ.sound),
          App.typed_toObject (henvelope ▸ happ.type)⟩
      · have hrecord := hm.reachable.consistent.partitions app.partition _ _ hget
        refine ⟨App.sound_toObject (henvelope ▸ hrecord.sound.envelope), ?_⟩
        exact (hm.typed _ _ _ hget).of_eq (congrArg Envelope.type henvelope) hshape.symm
    refine .write hm (fun o ho => ?_)
    rw [hobjects, List.mem_singleton] at ho
    exact ho ▸ ha

end Memory

namespace Service

section

variable {σ : Type} {svc : Service σ} {app : App}

theorem Made.typed {o : Object} (h : svc.Made app o) : o.Typed := by
  obtain ⟨fields, x, hx, rfl⟩ := h
  exact (Object.typed_ofFields hx).of_eq rfl rfl

theorem typed_revision {target o : Object} {body : RequestBody} (ht : target.Sound)
    (htyped : target.Typed) (h : svc.revision app (some target) body = .ok o) : o.Typed := by
  obtain ⟨fields, t, -, heq, -, -, hchange, -⟩ := revision_eq_ok_iff.mp h
  obtain rfl := Option.some.inj heq
  rw [FieldNames.change] at hchange
  have hstamped : (app.stamp target).Typed := htyped.of_eq rfl rfl
  exact hstamped.overlay (ht.withShardKey _) (FieldNames.apply_eq_ok_iff.mp hchange)

theorem typed_changes? {item : Json} {o : Object} (h : svc.changes? app item = some o) :
    o.Typed := by
  obtain ⟨fields, x, -, -, -, hx, rfl⟩ := changes?_eq_some_iff.mp h
  have hshape : x.Typed := (FieldNames.onlyUnlocked_toObjectThrough hx).shape
  exact hshape.of_eq rfl rfl

end

/-- A request keeps a storage typed, if its target is. -/
theorem Does.typedReachable {svc : Service Memory} {app : App} (happ : app.WellFormed)
    {m m' : Memory} (hm : m.TypedReachable) {call : Call (Option Object)}
    {tasks : List Registration} (htargets : ∀ o ∈ call.targets, o.Sound ∧ o.Typed)
    (h : Does svc app m call m' tasks) : m'.TypedReachable := by
  cases h with
  | nothing => exact hm
  | records _ hrecords => exact hm.recordsTypes happ hrecords
  | creates ho hrecords =>
    refine .write (hm.recordsTypes happ hrecords) (fun x hx => ?_)
    obtain rfl := List.mem_singleton.mp hx
    exact ⟨(made_of_draft ho).sound, (made_of_draft ho).typed⟩
  | updates ho =>
    refine .write hm (fun x hx => ?_)
    obtain rfl := List.mem_singleton.mp hx
    obtain ⟨_, target, -, rfl, -⟩ := revision_eq_ok_iff.mp ho
    obtain ⟨hsound, htyped⟩ := htargets target (by simp [Call.targets])
    exact ⟨sound_revision ho, typed_revision hsound htyped ho⟩
  | deletes target =>
    refine .write hm (fun x hx => ?_)
    obtain rfl := List.mem_singleton.mp hx
    obtain ⟨hsound, htyped⟩ := htargets target (by simp [Call.targets])
    exact ⟨app.sound_adopt hsound, htyped.of_eq rfl rfl⟩
  | createsAll _ hos _ =>
    refine .write hm (fun x hx => ?_)
    obtain ⟨item, -, hitem⟩ := List.mem_filterMap.mp (hos x hx)
    exact ⟨(made_of_newObject? hitem).sound, (made_of_newObject? hitem).typed⟩
  | updatesAll _ =>
    refine .write hm (fun x hx => ?_)
    obtain ⟨item, -, hitem⟩ := List.mem_filterMap.mp hx
    exact ⟨(changeFor_of_changes? hitem).sound, typed_changes? hitem⟩
  | deletesAll ids =>
    refine .write hm (fun x hx => ?_)
    obtain ⟨o, ho, rfl⟩ := List.mem_map.mp hx
    obtain ⟨id, -, hget⟩ := List.mem_filterMap.mp (List.mem_filter.mp ho).1
    have hstored := hm.reachable.consistent.partitions app.identifier id o hget
    exact ⟨hstored.sound.withShardKey _, (hm.typed _ _ _ hget).of_eq rfl rfl⟩

end Service

/-- A state whose storage is typed and in which well formed apps alone wait for registrations. -/
structure ServiceState.TypedReachable (s : ServiceState Memory) : Prop where
  store : s.store.TypedReachable
  pending : ∀ t ∈ s.pending, t.app.WellFormed

structure Event.WellFormed (e : Event) : Prop where
  supply : e.supply.Sound
  app : ∀ app call, e.action = .request app call → app.WellFormed

namespace Service

variable (config : Config) (background : Background)

theorem typedReachable_answer {app : App} (happ : app.WellFormed) {s : ServiceState Memory}
    (hs : s.TypedReachable) {call : Call (Option Object)}
    (htargets : ∀ o ∈ call.targets, o.Sound ∧ o.Typed) :
    (((inMemory config background).answer app call).on s).2.TypedReachable := by
  obtain ⟨tasks, hdoes, -⟩ := answer_does config background app s call
  exact ⟨hdoes.typedReachable happ hs.store htargets,
    pending_answer (P := App.WellFormed) config background happ hs.pending call⟩

theorem typedReachable_runWaiting (app : AppId) (index : Nat) {s : ServiceState Memory}
    (hs : s.TypedReachable) :
    ((inMemory config background).runWaiting app index s).TypedReachable := by
  refine ⟨?_, pending_runWaiting (P := App.WellFormed) config background app index hs.pending⟩
  refine store_runWaiting config background hs.store (fun t ht m hrecords => ?_) app index
  exact hs.store.recordsTypes (hs.pending t ht) hrecords

theorem typedReachable_step {e : Event} (he : e.WellFormed) {s : ServiceState Memory}
    (hs : s.TypedReachable) : ((inMemory config background).step e s).2.TypedReachable := by
  obtain ⟨supply, action⟩ := e
  have hwait : (s.withSupply supply).TypedReachable := ⟨.wait hs.store he.supply, hs.pending⟩
  cases action with
  | request app call =>
    rw [step_request]
    refine typedReachable_answer config background (he.app app call rfl) hwait (fun o ho => ?_)
    obtain ⟨id, hid⟩ := stored_of_mem_targets ho
    exact ⟨(hs.store.reachable.consistent.partitions app.identifier id o hid).sound,
      hs.store.typed app.identifier id o hid⟩
  | registration app index =>
    rw [step_registration]
    exact typedReachable_runWaiting config background app index hwait

/-- Whatever happens to a service, its storage stays typed. -/
theorem typedReachable_run {events : List Event} (hevents : ∀ e ∈ events, e.WellFormed)
    {s : ServiceState Memory} (hs : s.TypedReachable) :
    ((inMemory config background).run events s).2.TypedReachable :=
  run_keeps (fun _ _ he hs => typedReachable_step config background he hs) hevents hs

theorem shopState_typedReachable (bodies : List RequestBody) :
    (shopState bodies).TypedReachable := by
  refine typedReachable_run {} .queued ?_ ⟨.empty Supply.sound_still, by intro t ht; cases ht⟩
  intro e he
  obtain ⟨b, -, rfl⟩ := List.mem_map.mp he
  refine ⟨Supply.sound_still, fun app call h => ?_⟩
  cases h
  exact ⟨App.sound_shop, rfl⟩

end Service
end ObjectDepot
