import ObjectDepot.Proofs.Principals
import ObjectDepot.Proofs.TypeGains

/-! Apps and the identifiers of their records. The identifier of an app is that of its record without
the marker, and what is read or written for the app is looked up behind a marker. The two come back
to the same record only if its own identifier has a marker, which clients of the root app need not
give it. -/

namespace ObjectDepot

namespace AppId

def isMarked (id : String) : Bool := marker.toList.isPrefixOf id.toList

theorem isMarked_append (id : String) : isMarked (marker ++ id) = true := by
  rw [isMarked, String.toList_append, List.isPrefixOf_iff_prefix]
  exact List.prefix_append _ _

theorem ofObjectId_of_not_marked {id : String} (h : isMarked id = false) : ofObjectId id = ⟨id⟩ := by
  rw [isMarked] at h
  rw [ofObjectId, h, if_neg Bool.false_ne_true]

theorem objectId_ofObjectId_of_marked {id : String} (h : isMarked id) :
    (ofObjectId id).objectId = id := by
  obtain ⟨rest, hrest⟩ := List.isPrefixOf_iff_prefix.mp h
  have hid : id = objectId ⟨String.ofList rest⟩ := by
    rw [objectId, ← String.toList_inj, String.toList_append, String.toList_ofList, hrest]
  rw [hid, ofObjectId_objectId]

theorem objectId_ofObjectId_iff (id : String) : (ofObjectId id).objectId = id ↔ isMarked id := by
  refine ⟨fun h => ?_, objectId_ofObjectId_of_marked⟩
  rw [← h]
  exact isMarked_append _

theorem ofObjectId_eq_of_not_marked {id id' : String} (h : isMarked id = false) :
    ofObjectId id' = ofObjectId id ↔ id' = id ∨ id' = marker ++ id := by
  rw [ofObjectId_of_not_marked h]
  cases h' : isMarked id' with
  | true =>
    have hne : id' ≠ id := by
      rintro rfl
      exact Bool.false_ne_true (h.symm.trans h')
    rw [or_iff_right hne]
    constructor
    · intro heq
      rw [← objectId_ofObjectId_of_marked h', heq]
      rfl
    · rintro rfl
      exact ofObjectId_objectId ⟨id⟩
  | false =>
    have hne : id' ≠ marker ++ id := by
      rintro rfl
      exact Bool.false_ne_true (h'.symm.trans (isMarked_append id))
    rw [or_iff_left hne, ofObjectId_of_not_marked h', mk.injEq]

/-- Two identifiers of records stand for one app only if they differ by one marker, in front of the
one that had none. -/
theorem ofObjectId_eq_iff {id id' : String} :
    ofObjectId id' = ofObjectId id ↔ id' = id ∨
      isMarked id = false ∧ id' = marker ++ id ∨ isMarked id' = false ∧ id = marker ++ id' := by
  cases h : isMarked id with
  | false =>
    rw [ofObjectId_eq_of_not_marked h]
    have hno : ¬ (isMarked id' = false ∧ id = marker ++ id') := by
      rintro ⟨-, rfl⟩
      exact Bool.false_ne_true (h.symm.trans (isMarked_append id'))
    simp [hno]
  | true =>
    cases h' : isMarked id' with
    | false =>
      rw [eq_comm, ofObjectId_eq_of_not_marked h']
      simp [eq_comm]
    | true =>
      constructor
      · intro heq
        rw [← objectId_ofObjectId_of_marked h, ← heq, objectId_ofObjectId_of_marked h']
        exact .inl rfl
      · rintro (rfl | ⟨h, -⟩ | ⟨h, -⟩)
        · rfl
        · cases h
        · cases h

end AppId

/-- Recording types leaves all that is stored as it is, except the record under the identifier of the
app. -/
theorem RecordsTypes.get?_of_ne {app : App} {os : List Object} {m m' : Memory} (hm : m.Consistent)
    (h : RecordsTypes app os m m') {other : AppId} {id : String} {o : Object}
    (hget : m.get? other id = some o) (hid : id ≠ app.identifier.objectId) :
    m'.get? other id = some o := by
  rcases h with rfl | ⟨pending, -, rfl⟩
  · exact hget
  · rcases Registry.recordTypes_cases app pending m with
      h | ⟨record, latest, hrecord, hlatest, h⟩ | ⟨-, h⟩
    · rw [h]
      exact hget
    · have hstored := hm.partitions app.partition _ record hrecord
      have henvelope := Registry.envelope_addTypes_ofObject hlatest pending
      rw [h, Memory.update_of_stored ((congrArg Envelope.appid henvelope).trans hstored.owner)
        ((congrArg Envelope.id henvelope).trans hstored.key) hrecord,
        Memory.get?_put_of_ne _ _ (.inr hid)]
      exact hget
    · rw [h]
      exact Write.run_of_creates (w := .create app.partition _) trivial hget

namespace Service

/-- How far the app that is read from a record leads back to that record. -/
structure LeadsBack (svc : Service Memory) (s : ServiceState Memory) (id : String) (o : Object)
    (a : App) : Prop where
  key : a.identifier.objectId = id ↔ AppId.isMarked id
  resolved : ∀ principal : Principal, principal.appid? = some a.identifier →
    (((svc.resolve principal).on s).1 = .ok a ↔ AppId.isMarked id)
  shared : ∀ id' o' a', s.store.get? svc.config.root id' = some o' → App.ofObject o' = .ok a' →
    id' ≠ id → (a'.identifier = a.identifier ↔
      AppId.isMarked id = false ∧ id' = AppId.marker ++ id ∨
        AppId.isMarked id' = false ∧ id = AppId.marker ++ id')
  registered : AppId.isMarked id → ∀ os,
    s.store.RecordGains (svc.registerTypes (some a) os s).2.store svc.config.root id o
      (Registry.unknownTypes s.registry.known a os)
  passedOver : AppId.isMarked id = false → ∀ os,
    (svc.registerTypes (some a) os s).2.store.get? svc.config.root id = some o

variable (config : Config) (background : Background)

theorem resolve_of_record {s : ServiceState Memory} {o : Object} {a : App}
    (hget : s.store.get? config.root a.identifier.objectId = some o) (ha : App.ofObject o = .ok a)
    {principal : Principal} (hp : principal.appid? = some a.identifier) :
    ((inMemory config background).resolve principal).on s = (.ok a, s) := by
  rw [resolve, hp]
  dsimp only
  rw [Request.on_bind, loadApp_on, hget]
  dsimp only
  rw [ha]
  rfl

theorem isMarked_of_resolve {s : ServiceState Memory} (hs : s.store.Consistent)
    {principal : Principal} {a : App}
    (ha : (((inMemory config background).resolve principal).on s).1 = .ok a) :
    ∃ id, a.envelope.id = some id ∧ AppId.isMarked id := by
  refine of_resolve (P := fun a => ∃ id, a.envelope.id = some id ∧ AppId.isMarked id) config
    background hs ⟨_, rfl, AppId.isMarked_append _⟩ (fun owner o b ho _ hdescribes => ?_) ha
  have hkey := (hs.partitions config.root owner.objectId o ho).key
  exact ⟨owner.objectId, (congrArg Envelope.id hdescribes.envelope).trans hkey,
    AppId.isMarked_append _⟩

/-- An app leads back to the record it is read from just in case the identifier of the record has a
marker in front. Then the app is found by its own identifier and its types are recorded there;
otherwise it is never found, its types are recorded elsewhere if at all, and the record behind the
marker, if there is one, is that of an app of the same identifier. -/
theorem record_leadsBack {s : ServiceState Memory} (hs : s.store.Reachable) {id : String}
    {o : Object} {a : App} (hget : s.store.get? config.root id = some o)
    (ha : App.ofObject o = .ok a) : (inMemory config background).LeadsBack s id o a := by
  have hidentifier {id : String} {o : Object} {a : App} (hget : s.store.get? config.root id = some o)
      (ha : App.ofObject o = .ok a) :
      a.envelope.id = some id ∧ a.identifier = .ofObjectId id ∧ a.partition = config.root := by
    have hstored := hs.consistent.partitions config.root id o hget
    obtain ⟨-, rfl⟩ := App.ofObject_eq_ok ha
    have hkey : o.envelope.id = some id := hstored.key
    have howner : o.envelope.appid = some config.root.text := hstored.owner
    exact ⟨hkey, by rw [App.identifier, hkey]; rfl, by rw [App.partition, howner]⟩
  obtain ⟨hid, hname, hpartition⟩ := hidentifier hget ha
  have hkey : a.identifier.objectId = id ↔ AppId.isMarked id := by
    rw [hname]
    exact AppId.objectId_ofObjectId_iff id
  refine ⟨hkey, fun principal hp => ⟨fun hok => ?_, fun hmarked => ?_⟩,
    fun id' o' a' hget' ha' hne => ?_, fun hmarked os => ?_, fun hmarked os => ?_⟩
  · obtain ⟨key, hkey, hmarked⟩ := isMarked_of_resolve config background hs.consistent hok
    obtain rfl : id = key := Option.some.inj (hid.symm.trans hkey)
    exact hmarked
  · rw [← hkey.mpr hmarked] at hget
    rw [resolve_of_record config background hget ha hp]
  · rw [(hidentifier hget' ha').2.1, hname, AppId.ofObjectId_eq_iff, or_iff_right hne]
  · have hstored : s.store.get? a.partition a.identifier.objectId = some o := by
      rw [hpartition, hkey.mpr hmarked, hget]
    have hgains := (registerTypes_gains config background hs.consistent hstored ha os).1
    rw [hpartition, hkey.mpr hmarked] at hgains
    exact hgains
  · have hne : id ≠ a.identifier.objectId := by
      intro heq
      exact Bool.false_ne_true (hmarked.symm.trans (hkey.mp heq.symm))
    exact (registerTypes_effect config background a os s).1.get?_of_ne hs.consistent hget hne

/-- What a new service comes to by creating objects for the root app. -/
def rootState (bodies : List RequestBody) : ServiceState Memory :=
  ((inMemory {} .queued).run
    (bodies.map (fun b => ⟨.still, .request (.root ⟨"root"⟩) (.create none b)⟩))
    ((inMemory {} .queued).initial (.ofSupply .still))).2

theorem rootState_reachable (bodies : List RequestBody) : (rootState bodies).Reachable := by
  refine reachable_run {} .queued ?_ (reachable_initial {} .queued (.empty Supply.sound_still))
  intro e he
  obtain ⟨b, -, rfl⟩ := List.mem_map.mp he
  refine ⟨Supply.sound_still, fun app call h => ?_⟩
  cases h
  exact ⟨by rintro t ⟨⟩, by rintro t ⟨⟩⟩

def acmeBody : RequestBody :=
  .ofText "\x7b\"id\":\"acme\",\"type\":\"app\",\"name\":\"A\"\x7d"

def markedAcmeBody : RequestBody :=
  .ofText "\x7b\"id\":\"app:acme\",\"type\":\"app\",\"name\":\"B\"\x7d"

theorem exists_app_of_isSome {m : Memory} {root : AppId} {id : String}
    (h : ((m.get? root id).bind (fun o => (App.ofObject o).toOption)).isSome) :
    ∃ o a, m.get? root id = some o ∧ App.ofObject o = .ok a := by
  obtain ⟨a, ha⟩ := Option.isSome_iff_exists.mp h
  obtain ⟨o, ho, ha⟩ := Option.bind_eq_some_iff.mp ha
  cases hread : App.ofObject o with
  | error e => simp [hread, Except.toOption] at ha
  | ok b => exact ⟨o, b, ho, hread⟩

theorem record_leadsBack_acme :
    (rootState [acmeBody, markedAcmeBody]).store.Reachable ∧
      (∃ o a, (rootState [acmeBody, markedAcmeBody]).store.get? ⟨"root"⟩ "acme" = some o ∧
        App.ofObject o = .ok a ∧
        (inMemory {} .queued).LeadsBack (rootState [acmeBody, markedAcmeBody]) "acme" o a) ∧
      ∃ o a, (rootState [acmeBody, markedAcmeBody]).store.get? ⟨"root"⟩ "app:acme" = some o ∧
        App.ofObject o = .ok a ∧
        (inMemory {} .queued).LeadsBack (rootState [acmeBody, markedAcmeBody]) "app:acme" o a := by
  have hreachable := (rootState_reachable [acmeBody, markedAcmeBody]).store
  obtain ⟨o, a, ho, ha⟩ := exists_app_of_isSome
    (show (((rootState [acmeBody, markedAcmeBody]).store.get? ⟨"root"⟩ "acme").bind
      (fun o => (App.ofObject o).toOption)).isSome by decide +kernel)
  obtain ⟨o', a', ho', ha'⟩ := exists_app_of_isSome
    (show (((rootState [acmeBody, markedAcmeBody]).store.get? ⟨"root"⟩ "app:acme").bind
      (fun o => (App.ofObject o).toOption)).isSome by decide +kernel)
  exact ⟨hreachable, ⟨o, a, ho, ha, record_leadsBack {} .queued hreachable ho ha⟩,
    o', a', ho', ha', record_leadsBack {} .queued hreachable ho' ha'⟩

/-- A client of the root app creates an app under `acme`. Its identifier is `acme`, but who asks for
that gets the root app. -/
theorem record_not_found :
    let s := rootState [acmeBody]
    let record := s.store.get? ⟨"root"⟩ "acme"
    let app := record.bind (fun o => (App.ofObject o).toOption)
    s.store.Reachable ∧ record.map Object.type = some "app" ∧
      app.map App.identifier = some ⟨"acme"⟩ ∧ AppId.objectId ⟨"acme"⟩ ≠ "acme" ∧
      (((inMemory {} .queued).resolve (.app ⟨"acme"⟩)).on s).1.toOption =
        some (.root ⟨"root"⟩) ∧
      app ≠ some (.root ⟨"root"⟩) := by
  intro s record app
  exact ⟨(rootState_reachable [acmeBody]).store, by decide +kernel⟩

end Service
end ObjectDepot
