import ObjectDepot.Proofs.Runs

/-! Locked fields under batch updates. The lock of an item is that of the type it claims, so an item
that claims a type without a shape may carry a field that is locked where it is merged. Nothing else
touches a locked field. -/

namespace ObjectDepot

namespace Shape

theorem isLocked_iff {s : Shape} {name : String} :
    s.isLocked name ↔ ∃ f, specOf? s.fields name = some f ∧ f.locked := by
  unfold isLocked
  cases specOf? s.fields name <;> simp

/-- A field that is locked in one shape is locked in every shape that declares it. -/
theorem isLocked_of_declares {s s' : Shape} {name : String} (h : s.isLocked name)
    (hs' : s'.declares name) : s'.isLocked name := by
  have htable : ∀ s ∈ all, ∀ f ∈ s.fields, f.locked → ∀ s' ∈ all,
      s'.declares f.name → s'.isLocked f.name := by decide
  obtain ⟨f, hf, hl⟩ := isLocked_iff.mp h
  have hname : f.name = name := by simpa using List.find?_some hf
  have hlocked := htable s s.mem_all f (List.mem_of_find?_eq_some hf) hl s' s'.mem_all
  rw [hname] at hlocked
  exact hlocked hs'

end Shape

namespace Object

/-- The value of a field in an open body. -/
def openValue? (o : Object) (name : String) : Option Json :=
  if o.body.isOpen then o.body.fields.get? name else none

theorem isLocked_of_has {o o' : Object} {name : String} (h : Envelope.has name)
    (hname : o.isLocked name) : o'.isLocked name := by
  obtain ⟨f, hf⟩ := Option.isSome_iff_exists.mp h
  simp only [isLocked, hf] at hname ⊢
  exact hname

theorem get?_envelope_mergeFrom_locked {app : AppId} {id : String} {stored o merged : Object}
    (hstored : stored.StoredAs app id) (ho : o.ChangeFor app) (hid : o.id = some id)
    (hmerge : stored.mergeFrom o = .ok merged) {name : String} (hhas : Envelope.has name)
    (hname : stored.isLocked name) :
    merged.envelope.get? name = stored.envelope.get? name := by
  -- A change may hold the identifier and the owner, but only those that the stored object has.
  by_cases hnid : name = "id"
  · subst hnid
    rw [id_eq_some_iff.mp hstored.key]
    exact id_eq_some_iff.mp (id_mergeFrom hmerge hid)
  · by_cases happid : name = "appid"
    · subst happid
      rw [appid_eq_some_iff.mp hstored.owner]
      exact appid_eq_some_iff.mp (appid_mergeFrom hmerge ho.owner)
    · rw [get?_overlay_envelope hstored.sound (mergeFrom_eq_ok_iff.mp hmerge)]
      by_cases htype : name = "type"
      · simp [htype]
      · have hnone := ho.locked name (isLocked_of_has hhas hname) hnid htype happid
        simp [hnone, changed]

theorem openValue?_of_locked {app : AppId} {stored o : Object} (ho : o.ChangeFor app)
    {name : String} (hhas : Envelope.has name = false) (hname : stored.isLocked name) :
    o.openValue? name = o.toFields.get? name := by
  have hspec : Envelope.spec? name = none := by simpa [Envelope.has] using hhas
  rw [get?_toFields, Envelope.get?_of_not_has hhas, Option.none_or, openValue?]
  cases hs' : o.body.shape with
  | none => simp [Body.isOpen, hs']
  | some s' =>
    simp only [Body.isOpen, hs', Option.isNone_some, Bool.false_eq_true, if_false]
    cases hv : o.body.fields.get? name with
    | none => rfl
    | some v =>
      have hkept := ho.sound.body name v hv
      simp only [Body.kept?, hs'] at hkept
      obtain ⟨-, f, hf, -⟩ := kept?_eq_some_iff.mp hkept
      obtain ⟨s, hs⟩ : ∃ s, stored.shape = some s := by
        cases hs : stored.shape with
        | none => simp [isLocked, hspec, hs] at hname
        | some s => exact ⟨s, rfl⟩
      have hlocked : o.isLocked name = true := by
        simp only [isLocked, hspec, hs] at hname
        simp only [isLocked, hspec, shape, hs']
        exact Shape.isLocked_of_declares hname (by simp [Shape.declares, hf])
      have hne {k : String} (hk : Envelope.has k) : name ≠ k := by
        rintro rfl
        simp [hk] at hhas
      have hnone := ho.locked name hlocked (hne rfl) (hne rfl) (hne rfl)
      simp [get?_toFields, hv] at hnone

/-- The locked fields of a stored object under a merge: an open body alone can change them. -/
theorem get?_mergeFrom_locked {app : AppId} {id : String} {stored o merged : Object}
    (hstored : stored.StoredAs app id) (ho : o.ChangeFor app) (hid : o.id = some id)
    (hmerge : stored.mergeFrom o = .ok merged) {name : String} (hname : stored.isLocked name) :
    merged.toFields.get? name =
      changed (stored.body.kept? name) (o.openValue? name) (stored.toFields.get? name) := by
  have hlay := mergeFrom_eq_ok_iff.mp hmerge
  rw [get?_toFields, get?_toFields, get?_overlay_body hstored.sound hlay]
  cases hhas : Envelope.has name with
  | true =>
    have hopen : o.openValue? name = none := by simp [openValue?, ho.body name hhas]
    rw [get?_envelope_mergeFrom_locked hstored ho hid hmerge hhas hname, hopen]
    rfl
  | false =>
    rw [openValue?_of_locked ho hhas hname, Envelope.get?_of_not_has hhas,
      Envelope.get?_of_not_has hhas]
    rfl

theorem get?_toFields_withUpdated {o o' : Object} {name : String} (h : o'.isLocked name)
    (time : Option Int) : (o.withUpdated time).toFields.get? name = o.toFields.get? name := by
  have hne : name ≠ "updated" := by
    rintro rfl
    cases h
  rw [get?_toFields, get?_toFields, get?_withUpdated, if_neg hne]
  rfl

end Object

/-- The values that objects with open bodies bring for a field of the object under an identifier. -/
def openValues (id name : String) (os : List Object) : List Json :=
  (os.filter (fun o => o.id = some id)).filterMap (fun o => o.openValue? name)

theorem changed_getLast?_append {keep : Json → Option Json} (first : Option Json)
    (rest : List Json) (old : Option Json) :
    changed keep (first.toList ++ rest).getLast? old =
      changed keep rest.getLast? (changed keep first old) := by
  cases first with
  | none => rfl
  | some v =>
    cases hr : rest.getLast? with
    | none => simp [List.getLast?_eq_none_iff.mp hr, changed]
    | some w => simp [List.getLast?_cons, hr, changed]

/-- Objects are merged into a stored one, each into what the one before it left. -/
def Object.MergedInTurn (now : Int) : List Object → Object → Object → Prop
  | [], stored, after => after = stored
  | o :: rest, stored, after =>
    ∃ merged, stored.mergeFrom o = .ok merged ∧
      MergedInTurn now rest (merged.withUpdated (some now)) after

/-- Of the values that open bodies bring for a locked field the last one decides. Each merge meets an
object of the shape of the stored one, and so of the same locks. -/
theorem Object.MergedInTurn.locked {app : AppId} {now : Int} (hnow : IsInt64 now) {id : String}
    {os : List Object} (hos : ∀ o ∈ os, o.ChangeFor app ∧ o.id = some id) {stored after : Object}
    (hstored : stored.StoredAs app id) (h : MergedInTurn now os stored after) {name : String}
    (hname : stored.isLocked name) :
    after.toFields.get? name =
      changed (stored.body.kept? name) (os.filterMap (·.openValue? name)).getLast?
        (stored.toFields.get? name) := by
  induction os generalizing stored with
  | nil =>
    obtain rfl : after = stored := h
    rfl
  | cons o os ih =>
    obtain ⟨merged, hmerge, hrest⟩ := h
    obtain ⟨ho, hid⟩ := hos o List.mem_cons_self
    have hnext := Memory.storedAs_of_mergeFrom hnow hstored hid ho.owner hmerge
    have hmerged := shape_mergeFrom hmerge
    have hshape : (merged.withUpdated (some now)).shape = stored.shape := hmerged
    have hname' := (isLocked_of_shape_eq hshape name).trans hname
    have hstep := get?_mergeFrom_locked hstored ho hid hmerge hname
    have hvalues : (o :: os).filterMap (·.openValue? name) =
        (o.openValue? name).toList ++ os.filterMap (·.openValue? name) := by
      rw [List.filterMap_cons]
      cases o.openValue? name <;> rfl
    rw [ih (fun x hx => hos x (List.mem_cons_of_mem _ hx)) hnext hrest hname',
      kept?_of_shape_eq hshape, hvalues, changed_getLast?_append, ← hstep,
      get?_toFields_withUpdated hname]

namespace Memory

/-- Those objects of a batch that are merged into stored ones. A merge that fails is the last. -/
def mergedFrom (now : Int) (p : Partition) : List Object → List Object
  | [] => []
  | o :: rest =>
    match o.id.bind p.get? with
    | none => mergedFrom now p rest
    | some stored =>
      match stored.mergeFrom o with
      | .error _ => []
      | .ok merged =>
        o :: mergedFrom now (p.insert (o.id.getD "") (merged.withUpdated (some now))) rest

variable {app : AppId} {now : Int} {p : Partition} {o : Object} {os : List Object} {id : String}

theorem mergedFrom_cons_of_absent (h : o.id.bind p.get? = none) :
    mergedFrom now p (o :: os) = mergedFrom now p os := by
  rw [mergedFrom, h]

theorem mergedFrom_cons_of_error {stored : Object} {e : ValidationError} (hid : o.id = some id)
    (hget : p.get? id = some stored) (he : stored.mergeFrom o = .error e) :
    mergedFrom now p (o :: os) = [] := by
  simp [mergedFrom, hid, hget, he]

theorem mergedFrom_cons_of_ok {stored merged : Object} (hid : o.id = some id)
    (hget : p.get? id = some stored) (hm : stored.mergeFrom o = .ok merged) :
    mergedFrom now p (o :: os) =
      o :: mergedFrom now (p.insert id (merged.withUpdated (some now))) os := by
  simp [mergedFrom, hid, hget, hm]

theorem mem_of_mem_mergedFrom {x : Object} (h : x ∈ mergedFrom now p os) : x ∈ os := by
  induction os generalizing p with
  | nil => exact h
  | cons o os ih =>
    cases htarget : o.id.bind p.get? with
    | none =>
      rw [mergedFrom_cons_of_absent htarget] at h
      exact List.mem_cons_of_mem _ (ih h)
    | some target =>
      obtain ⟨key, hkey, hfound⟩ := Option.bind_eq_some_iff.mp htarget
      cases hmerge : target.mergeFrom o with
      | error e =>
        rw [mergedFrom_cons_of_error hkey hfound hmerge] at h
        cases h
      | ok merged =>
        rw [mergedFrom_cons_of_ok hkey hfound hmerge] at h
        rcases List.mem_cons.mp h with rfl | h
        · exact List.mem_cons_self
        · exact List.mem_cons_of_mem _ (ih h)

/-- What a batch makes of a stored object: those of its identifier that are merged at all are merged
into it in turn. -/
theorem get?_mergeAll_inTurn (now : Int) (os : List Object) {stored : Object}
    (hget : p.get? id = some stored) :
    ∃ after, (mergeAll now p os).2.get? id = some after ∧
      Object.MergedInTurn now ((mergedFrom now p os).filter (fun o => o.id = some id)) stored
        after := by
  induction os generalizing p stored with
  | nil => exact ⟨stored, hget, rfl⟩
  | cons o os ih =>
    cases htarget : o.id.bind p.get? with
    | none =>
      rw [mergeAll_cons_of_absent htarget, mergedFrom_cons_of_absent htarget]
      exact ih hget
    | some target =>
      obtain ⟨key, hkey, hfound⟩ := Option.bind_eq_some_iff.mp htarget
      cases hmerge : target.mergeFrom o with
      | error e =>
        rw [mergeAll_cons_of_error hkey hfound hmerge, mergedFrom_cons_of_error hkey hfound hmerge]
        exact ⟨stored, hget, rfl⟩
      | ok merged =>
        rw [mergeAll_cons_of_ok hkey hfound hmerge, mergedFrom_cons_of_ok hkey hfound hmerge]
        by_cases hid : key = id
        · subst hid
          obtain rfl : target = stored := Option.some.inj (hfound.symm.trans hget)
          obtain ⟨after, hafter, hrest⟩ := ih (KeyMap.get?_insert_self p key _)
          rw [List.filter_cons_of_pos (by simpa using hkey)]
          exact ⟨after, hafter, merged, hmerge, hrest⟩
        · rw [List.filter_cons_of_neg (by simpa [hkey] using hid)]
          exact ih ((KeyMap.get?_insert_of_ne p _ (Ne.symm hid)).trans hget)

theorem get?_mergeAll_locked (hnow : IsInt64 now) (hos : ∀ o ∈ os, o.ChangeFor app)
    (hp : p.Consistent app) {stored : Object} (hget : p.get? id = some stored) :
    ∃ after, (mergeAll now p os).2.get? id = some after ∧
      ∀ name, stored.isLocked name → after.toFields.get? name =
        changed (stored.body.kept? name) (openValues id name (mergedFrom now p os)).getLast?
          (stored.toFields.get? name) := by
  obtain ⟨after, hafter, hturn⟩ := get?_mergeAll_inTurn now os hget
  refine ⟨after, hafter, fun name hname => hturn.locked hnow (fun o ho => ?_) (hp id stored hget) hname⟩
  obtain ⟨hmerged, hid⟩ := List.mem_filter.mp ho
  exact ⟨hos o (mem_of_mem_mergedFrom hmerged), of_decide_eq_true hid⟩

end Memory

namespace Service

/-- The objects that a batch update merges into stored ones; none if its body cannot be read. -/
def mergedBy {σ : Type} (svc : Service σ) (app : App) (body : RequestBody) (m : Memory) :
    List Object :=
  match RequestBody.readList svc.config.maxEntitySize body with
  | .error _ => []
  | .ok items =>
    Memory.mergedFrom m.supply.now (m.objects app.identifier) (items.filterMap (svc.changes? app))

/-- After a batch update a stored object is still there, and a locked field of it is as it was just
in case the last value that open bodies bring for it, if any, leaves it so. -/
theorem batchUpdate_locked_iff (config : Config) (background : Background)
    {s : ServiceState Memory} (hs : s.store.Reachable) (app : App) (body : RequestBody)
    {id : String} {o : Object} (ho : s.store.get? app.identifier id = some o) :
    ∃ after, (((inMemory config background).batchUpdate app body).on s).2.store.get?
        app.identifier id = some after ∧
      ∀ name, o.isLocked name →
        (after.toFields.get? name = o.toFields.get? name ↔
          ∀ v, (openValues id name
              ((inMemory config background).mergedBy app body s.store)).getLast? = some v →
            (if v.isNull then none else o.body.kept? name v) = o.toFields.get? name) := by
  obtain ⟨after, hafter, hlocked⟩ : ∃ after,
      (((inMemory config background).batchUpdate app body).on s).2.store.get?
        app.identifier id = some after ∧
      ∀ name, o.isLocked name → after.toFields.get? name =
        changed (o.body.kept? name) (openValues id name
          ((inMemory config background).mergedBy app body s.store)).getLast?
            (o.toFields.get? name) := by
    cases hread : RequestBody.readList (inMemory config background).config.maxEntitySize body with
    | error f =>
      rw [batchUpdate_on, mergedBy, hread]
      exact ⟨o, ho, fun _ _ => rfl⟩
    | ok items =>
      have hm := hs.consistent
      obtain ⟨-, hobjects, -, -⟩ := batchUpdate_spec config background app s hread
      rw [Memory.get?, hobjects, mergedBy, hread]
      exact Memory.get?_mergeAll_locked hm.supply.now (fun x hx => changeFor_of_mem hx)
        (hm.partitions app.identifier) ho
  refine ⟨after, hafter, fun name hname => ?_⟩
  rw [hlocked name hname]
  cases (openValues id name ((inMemory config background).mergedBy app body s.store)).getLast? with
  | none => simp [changed]
  | some v => simp [changed]

def userState : ServiceState Memory :=
  shopState [.ofText
    "\x7b\"id\":\"u\",\"type\":\"user\",\"identifier\":\"fb:1\",\"email\":\"a@b.co\"\x7d"]

def openItem : RequestBody :=
  .ofText "[\x7b\"id\":\"u\",\"type\":\"dog\",\"identifier\":\"fb:2\"\x7d]"

/-- A locked field is lost to an item that claims a type without a shape. -/
theorem batchUpdate_changes_locked :
    ∃ o after, userState.store.get? App.shop.identifier "u" = some o ∧
      (((inMemory {} .queued).batchUpdate .shop openItem).on userState).2.store.get?
        App.shop.identifier "u" = some after ∧
      o.isLocked "identifier" ∧ o.toFields.get? "identifier" = some (.str "fb:1") ∧
      after.toFields.get? "identifier" = some (.str "fb:2") := by
  have hbefore : ((userState.store.get? App.shop.identifier "u").filter
      (fun o => o.isLocked "identifier")).bind
        (fun o => (o.toFields.get? "identifier").bind Json.str?) = some "fb:1" := by
    decide +kernel
  have hafter : ((((inMemory {} .queued).batchUpdate .shop openItem).on userState).2.store.get?
      App.shop.identifier "u").bind
        (fun o => (o.toFields.get? "identifier").bind Json.str?) = some "fb:2" := by
    decide +kernel
  simp only [Option.bind_eq_some_iff, Option.filter_eq_some_iff,
    Json.str?_eq_some_iff] at hbefore hafter
  obtain ⟨o, ⟨ho, hlocked⟩, v, hv, rfl⟩ := hbefore
  obtain ⟨after, hget, w, hw, rfl⟩ := hafter
  exact ⟨o, after, ho, hget, hlocked, hv, hw⟩

theorem batchUpdate_locked_iff_user :
    userState.store.Reachable ∧ ∃ o, userState.store.get? App.shop.identifier "u" = some o ∧
      ∃ after, (((inMemory {} .queued).batchUpdate .shop openItem).on userState).2.store.get?
          App.shop.identifier "u" = some after ∧
        ∀ name, o.isLocked name →
          (after.toFields.get? name = o.toFields.get? name ↔
            ∀ v, (openValues "u" name ((inMemory {} .queued).mergedBy .shop
                openItem userState.store)).getLast? = some v →
              (if v.isNull then none else o.body.kept? name v) = o.toFields.get? name) := by
  have hstored : (userState.store.get? App.shop.identifier "u").isSome := by decide +kernel
  obtain ⟨o, ho⟩ := Option.isSome_iff_exists.mp hstored
  have hreachable : userState.store.Reachable := (shopState_reachable _).store
  exact ⟨hreachable, o, ho, batchUpdate_locked_iff {} .queued hreachable .shop openItem ho⟩

end Service
end ObjectDepot
