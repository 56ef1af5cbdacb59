import ObjectDepot.Proofs.BatchCreates
import ObjectDepot.Proofs.SameRequests

/-! What becomes of the fields that a client cannot set. A shard key is dropped, the app and the time
of creation are written over, and so an object that is created does not depend on them. The time of
change is kept as the client gives it. -/

namespace ObjectDepot

theorem Registry.newTypes_of_timeless {o o' : Object} (h : o.timeless = o'.timeless) (app : App)
    (r : Registry) : newTypes app [o'] r = newTypes app [o] r := by
  have htype : o'.type = o.type := by
    have hh := congrArg Object.type h
    exact hh.symm
  have hplural : o'.plural = o.plural := by
    have hh := congrArg Object.plural h
    exact hh.symm
  unfold newTypes
  simp only [List.filter_cons, List.filter_nil, htype]
  cases TypeName.isValid o.type with
  | false => rfl
  | true =>
    have hnew (core : TypeMap) :
        (if (!(core.contains o.plural || app.types.contains o.plural)) = true then [o'] else []).map
            (fun o => (o.plural, o.type)) =
          (if (!(core.contains o.plural || app.types.contains o.plural)) = true then [o] else []).map
            (fun o => (o.plural, o.type)) := by
      split <;> simp [htype, hplural]
    simp only [if_true, List.isEmpty_cons, List.filter_cons, List.filter_nil, hplural, hnew]

/-- An object in two requests that tell the same: the fields that the server assigns aside it is the
same, and its time of change is what the request says. -/
structure Object.ToldBy (fields fields' : FieldMap) (o o' : Object) : Prop where
  timeless : o.timeless = o'.timeless
  updated : o.envelope.updated = Envelope.integerOf? fields "updated"
  updated' : o'.envelope.updated = Envelope.integerOf? fields' "updated"
  body : o.body.fields.get? "updated" = none

/-- An answer without the times of change. -/
def Response.withoutUpdated (r : Response) : Response where
  status := r.status
  payload :=
    match r.payload with
    | .object fields => .object (fields.erase "updated")
    | .objects list => .objects (list.map (·.erase "updated"))
    | .empty => .empty
  location := r.location

/-- Two results that differ in times of change at most, and do so unless the request failed or a
condition holds. -/
structure DifferInUpdated (r r' : Outcome × ServiceState Memory) (condition : Prop) : Prop where
  responses : r.1.map Response.withoutUpdated = r'.1.map Response.withoutUpdated
  stores : r.2.store.Alike r'.2.store
  same_iff : r'.1 = r.1 ∧ r'.2.store = r.2.store ↔ (∃ f, r.1 = .error f) ∨ condition

theorem DifferInUpdated.of_eq {r r' : Outcome × ServiceState Memory} {condition : Prop} (h : r' = r)
    (hr : (∃ f, r.1 = .error f) ∨ condition) : DifferInUpdated r r' condition := by
  subst h
  exact ⟨rfl, .refl _, fun _ => hr, fun _ => ⟨rfl, rfl⟩⟩

theorem DifferInUpdated.of_iff {r r' : Outcome × ServiceState Memory} {condition other : Prop}
    (h : DifferInUpdated r r' condition) (hiff : condition ↔ other) : DifferInUpdated r r' other :=
  ⟨h.responses, h.stores, by rw [← hiff]; exact h.same_iff⟩

namespace Object

theorem erase_updated_toFields {o o' : Object} (h : o.Alike o') :
    o.toFields.erase "updated" = o'.toFields.erase "updated" := by
  refine KeyMap.ext (fun k => ?_)
  rw [KeyMap.get?_erase, KeyMap.get?_erase]
  by_cases hk : k = "updated"
  · rw [if_pos hk, if_pos hk]
  · rw [if_neg hk, if_neg hk, get?_toFields, get?_toFields, h.body, h.get?_envelope hk]

theorem Alike.eq {o o' : Object} (h : o.Alike o')
    (hupdated : o.envelope.updated = o'.envelope.updated) : o = o' := by
  have hh := congrArg (fun x : Object => x.withUpdated o.envelope.updated) h
  have hback : (o'.withUpdated none).withUpdated o.envelope.updated = o' := by
    rw [hupdated]
    rfl
  exact hh.trans hback

/-- The time of change can be told from the fields, unless the body has a field of that name. -/
theorem updated_of_toFields_eq {o o' : Object} (h : o.toFields = o'.toFields) (halike : o.Alike o')
    (hbody : o.body.fields.get? "updated" = none) : o.envelope.updated = o'.envelope.updated := by
  have hget := congrArg (fun m => m.get? "updated") h
  simp only [get?_toFields, halike.body, hbody, Option.or_none] at hget
  have hmap : o.envelope.updated.map Json.int = o'.envelope.updated.map Json.int := hget
  exact Option.map_injective (fun _ _ h => Json.int.inj h) hmap

variable {xs xs' : List Object}

theorem map_erase_updated_toFields (h : List.Forall₂ Alike xs xs') :
    (xs.map toFields).map (·.erase "updated") = (xs'.map toFields).map (·.erase "updated") := by
  induction h with
  | nil => rfl
  | cons hx _ ih => simp only [List.map_cons, erase_updated_toFields hx, ih]

theorem map_updated_of_map_toFields (h : List.Forall₂ Alike xs xs')
    (hbody : ∀ x ∈ xs, x.body.fields.get? "updated" = none)
    (heq : xs.map toFields = xs'.map toFields) :
    xs.map (·.envelope.updated) = xs'.map (·.envelope.updated) := by
  induction h with
  | nil => rfl
  | cons hx _ ih =>
    rw [List.map_cons, List.map_cons, List.cons.injEq] at heq
    rw [List.map_cons, List.map_cons, updated_of_toFields_eq heq.1 hx (hbody _ List.mem_cons_self),
      ih (fun y hy => hbody y (List.mem_cons_of_mem _ hy)) heq.2]

theorem eq_of_map_updated (h : List.Forall₂ Alike xs xs')
    (heq : xs.map (·.envelope.updated) = xs'.map (·.envelope.updated)) : xs = xs' := by
  induction h with
  | nil => rfl
  | cons hx _ ih =>
    rw [List.map_cons, List.map_cons, List.cons.injEq] at heq
    rw [hx.eq heq.1, ih heq.2]

end Object

theorem differInUpdated_created {x x' : Object} (h : x.Alike x')
    (hbody : x.body.fields.get? "updated" = none) (m : Memory) (app : AppId) (id : String)
    (s : ServiceState Memory) :
    DifferInUpdated (.ok (.created x.toFields x.uri?), { s with store := m.put app id x })
      (.ok (.created x'.toFields x'.uri?), { s with store := m.put app id x' })
      (x.envelope.updated = x'.envelope.updated) := by
  have huri : x.uri? = x'.uri? := by
    have hh := congrArg Object.uri? h
    exact hh
  refine ⟨?_, Memory.alike_withPartition m app ((Partition.Alike.refl _).insert h id), ?_, ?_⟩
  · have hfields := Object.erase_updated_toFields h
    simp only [Except.map, Response.withoutUpdated, Response.created, hfields, huri]
  · rintro ⟨hresponse, -⟩
    simp only [Except.ok.injEq, Response.created, Response.mk.injEq, Payload.object.injEq] at hresponse
    exact .inr (Object.updated_of_toFields_eq hresponse.2.1.symm h hbody)
  · rintro (⟨f, hf⟩ | hupdated)
    · cases hf
    · obtain rfl := h.eq hupdated
      exact ⟨rfl, rfl⟩

theorem differInUpdated_createdAll {xs xs' : List Object} (h : List.Forall₂ Object.Alike xs xs')
    (hbody : ∀ x ∈ xs, x.body.fields.get? "updated" = none)
    {r r' : Outcome × ServiceState Memory} {m : Memory} {app : AppId} {old : Partition}
    (hr : r.1 = .ok (.okList (xs.map Object.toFields)))
    (hr' : r'.1 = .ok (.okList (xs'.map Object.toFields)))
    (hstore : r.2.store = m.withPartition app (old.extend (Partition.putAll .empty xs)))
    (hstore' : r'.2.store = m.withPartition app (old.extend (Partition.putAll .empty xs'))) :
    DifferInUpdated r r' (xs.map (·.envelope.updated) = xs'.map (·.envelope.updated)) := by
  have herase := Object.map_erase_updated_toFields h
  refine ⟨?_, ?_, ?_, ?_⟩
  · rw [hr, hr']
    simp only [Except.map, Response.withoutUpdated, Response.okList, herase]
  · rw [hstore, hstore']
    exact Memory.alike_withPartition m app (((Partition.Alike.refl _).putAll h).extend old)
  · rintro ⟨hresponse, -⟩
    rw [hr, hr'] at hresponse
    simp only [Except.ok.injEq, Response.okList, Response.mk.injEq, Payload.objects.injEq] at hresponse
    exact .inr (Object.map_updated_of_map_toFields h hbody hresponse.2.1.symm)
  · rintro (⟨f, hf⟩ | hupdated)
    · rw [hr] at hf
      cases hf
    · obtain rfl := Object.eq_of_map_updated h hupdated
      exact ⟨hr'.trans hr.symm, hstore'.trans hstore.symm⟩

/-- Two items of a batch that tell the same. -/
inductive SameItem : Json → Json → Prop
  | same (item : Json) : SameItem item item
  | told {members members' : List (String × Json)}
      (h : SameRequest (KeyMap.ofList members) (KeyMap.ofList members')) :
      SameItem (.obj members) (.obj members')

namespace Service

variable {config : Config} (background : Background)

theorem toldBy_adopt {fields fields' : FieldMap} (h : SameRequest fields fields') (app : App) :
    SameOutcome (fun x x' => Object.ToldBy fields fields' (app.adopt x) (app.adopt x'))
      (({} : FieldNames).toObject fields) (({} : FieldNames).toObject fields') := by
  rcases FieldNames.toObject_sameBut h with hfailed | ⟨x, x', hx, hx', hsame⟩
  · exact .inl hfailed
  · have hupdated := FieldNames.updated_toObject hx h.fits
    have hupdated' := FieldNames.updated_toObject hx' h.fits'
    have hwell : x.WellFormed := Object.wellFormed_ofFields hx
    have hbody := hwell.get?_body_of_has (k := "updated") rfl
    exact .inr ⟨x, x', hx, hx', Object.timeless_adopt hsame app, hupdated, hupdated', hbody⟩

theorem draft_toldBy (hnames : config.fieldNames = {}) (app : App) (hint : Option String)
    {body body' : RequestBody} {fields fields' : FieldMap}
    (hread : RequestBody.readObject config.maxEntitySize body = .ok fields)
    (hread' : RequestBody.readObject config.maxEntitySize body' = .ok fields')
    (h : SameRequest fields fields') :
    SameOutcome (Object.ToldBy fields fields')
      ((inMemory config background).draft app hint body)
      ((inMemory config background).draft app hint body') := by
  have hnames' : (inMemory config background).names = {} := hnames
  have hmax : (inMemory config background).config.maxEntitySize = config.maxEntitySize := rfl
  have hadopt {m m' : FieldMap} (hm : SameRequest m m')
      (hsame : ∀ o o', Object.ToldBy m m' o o' → Object.ToldBy fields fields' o o') :
      SameOutcome (Object.ToldBy fields fields')
        (((({} : FieldNames).toObject m).mapError Failure.ofValidation).map app.adopt)
        (((({} : FieldNames).toObject m').mapError Failure.ofValidation).map app.adopt) :=
    ((toldBy_adopt hm app).mapError _).map (fun _ _ htold => hsame _ _ htold)
  unfold draft
  rw [hmax, hread, hread', hnames']
  simp only [Except.bind]
  cases hint.filter (fun t => !Text.isBlank t) with
  | none => exact hadopt h (fun _ _ htold => htold)
  | some type =>
    have htype (m : FieldMap) : Envelope.integerOf? (m.insert "type" (.str type)) "updated" =
        Envelope.integerOf? m "updated" := by
      rw [Envelope.integerOf?, Envelope.integerOf?, KeyMap.get?_insert_of_ne _ _ (by decide)]
    exact hadopt (h.withType type) (fun o o' htold =>
      ⟨htold.timeless, htold.updated.trans (htype _), htold.updated'.trans (htype _), htold.body⟩)

theorem neverBlank_registerTypes (app : App) (os : List Object) {s : ServiceState Memory}
    (hs : s.store.supply.NeverBlank) :
    ((inMemory config background).registerTypes (some app) os s).2.store.supply.NeverBlank := by
  rw [Supply.NeverBlank, (registerTypes_effect config background app os s).1.supply.1]
  exact hs

theorem registerTypes_of_timeless {o o' : Object} (h : o.timeless = o'.timeless) (app : App)
    (s : ServiceState Memory) :
    (inMemory config background).registerTypes (some app) [o'] s =
      (inMemory config background).registerTypes (some app) [o] s := by
  rw [registerTypes_eq, registerTypes_eq, Registry.newTypes_of_timeless h]
  rfl

/-- Two bodies that tell the same come to the same when an object is created, but for the time of
change, which is the one that they say. -/
theorem create_differInUpdated (hnames : config.fieldNames = {}) (app : App)
    (hint : Option String) {body body' : RequestBody} {fields fields' : FieldMap}
    (hread : RequestBody.readObject config.maxEntitySize body = .ok fields)
    (hread' : RequestBody.readObject config.maxEntitySize body' = .ok fields')
    (h : SameRequest fields fields') {s : ServiceState Memory} (hs : s.store.supply.NeverBlank) :
    DifferInUpdated (((inMemory config background).create app hint body).on s)
      (((inMemory config background).create app hint body').on s)
      (Envelope.integerOf? fields "updated" = Envelope.integerOf? fields' "updated") := by
  have hnames' : (inMemory config background).names = {} := hnames
  rw [create_on, create_on]
  rcases draft_toldBy background hnames app hint hread hread' h with
    ⟨f, hdraft, hdraft'⟩ | ⟨o, o', hdraft, hdraft', htold⟩
  · rw [hdraft, hdraft']
    exact .of_eq rfl (.inl ⟨f, rfl⟩)
  · rw [hdraft, hdraft']
    have htimeless := htold.timeless
    have hviolations : o'.violations = o.violations := by
      rw [← o.violations_timeless, htimeless, Object.violations_timeless]
    have hvalid : o'.isValid = o.isValid := by rw [Object.isValid, Object.isValid, hviolations]
    have hids : Supply.NeverBlank
        ((inMemory config background).registerTypes (some app) [o] s).2.store.supply :=
      neverBlank_registerTypes background app [o] hs
    dsimp only
    rw [registerTypes_of_timeless background htimeless, hvalid, hviolations, hnames']
    generalize ((inMemory config background).registerTypes (some app) [o] s).2 = t at hids ⊢
    split
    · rw [inMemory_create, inMemory_create]
      rcases Memory.create_of_sameKeys (Memory.sameKeys_of_timeless htimeless) app.identifier
        t.store with ⟨e, m, hfailed, hfailed'⟩ | ⟨id, m, hid, hnew, hnew'⟩
      · rw [hfailed, hfailed']
        exact .of_eq rfl (.inl ⟨_, rfl⟩)
      · have hblank := Object.not_isBlank_of_mayGet hids hid
        rw [hnew, hnew']
        simp only [hblank, Bool.false_eq_true, if_false, FieldNames.toFields_default]
        refine (differInUpdated_created (Object.alike_asNew htimeless id t.store.supply.now)
          htold.body m app.identifier id t).of_iff ?_
        rw [← htold.updated, ← htold.updated']
        rfl
    · exact .of_eq rfl (.inl ⟨_, rfl⟩)

theorem newObject?_of_sameItem (hnames : config.fieldNames = {}) (app : App) {item item' : Json}
    (h : SameItem item item') :
    ((inMemory config background).newObject? app item).map Object.timeless =
      ((inMemory config background).newObject? app item').map Object.timeless := by
  have hnames' : (inMemory config background).names = {} := hnames
  cases h with
  | same => rfl
  | @told members members' h =>
    simp only [newObject?, Json.fields?, bind, Option.bind_some, hnames']
    rcases toldBy_adopt h app with ⟨e, hx, hx'⟩ | ⟨x, x', hx, hx', htold⟩
    · rw [hx, hx']
    · have hvalid : x'.isValid = x.isValid := by
        rw [← (x.restamped_adopt app).isValid, ← (x'.restamped_adopt app).isValid, Object.isValid,
          Object.isValid, ← Object.violations_timeless, ← htold.timeless, Object.violations_timeless]
      rw [hx, hx']
      simp only [Except.toOption, Option.bind_some, hvalid]
      split
      · exact congrArg some htold.timeless
      · rfl

theorem newObjects_of_sameItems (hnames : config.fieldNames = {}) (app : App)
    {items items' : List Json} (h : List.Forall₂ SameItem items items') :
    AllTimeless (items.filterMap ((inMemory config background).newObject? app))
      (items'.filterMap ((inMemory config background).newObject? app)) := by
  induction h with
  | nil => exact .nil
  | @cons item item' items items' hitem _ ih =>
    have hnew := newObject?_of_sameItem background hnames app hitem
    rw [List.filterMap_cons, List.filterMap_cons]
    cases hx : (inMemory config background).newObject? app item with
    | none =>
      rw [hx] at hnew
      rw [Option.map_eq_none_iff.mp hnew.symm]
      exact ih
    | some x =>
      rw [hx] at hnew
      obtain ⟨x', hx', heq⟩ := Option.map_eq_some_iff.mp hnew.symm
      rw [hx']
      exact .cons heq.symm ih

theorem allTimeless_keepNew {os os' kept kept' : List Object} (h : AllTimeless os os') {app : App}
    {s : ServiceState Memory}
    (hkeep : ((inMemory config background).keepNew app os).on s = (.ok kept, s))
    (hkeep' : ((inMemory config background).keepNew app os').on s = (.ok kept', s)) :
    AllTimeless kept kept' := by
  have hread (ids : List String) : (inMemory config background).storage.readAll app.identifier ids
      false s.store = (.ok (ids.filterMap (s.store.get? app.identifier)), s.store) := rfl
  rw [keepNew_on] at hkeep hkeep'
  rw [h.givenIds] at hkeep'
  split at hkeep
  · rename_i hnone
    rw [if_pos hnone] at hkeep'
    cases hkeep
    cases hkeep'
    exact h
  · rename_i hsome
    rw [if_neg hsome, hread] at hkeep'
    rw [hread] at hkeep
    cases hkeep
    cases hkeep'
    exact h.keepUntaken _

theorem batchCreate_differInUpdated (hnames : config.fieldNames = {}) (app : App)
    {body body' : RequestBody} {items items' : List Json}
    (hread : RequestBody.readList config.maxEntitySize body = .ok items)
    (hread' : RequestBody.readList config.maxEntitySize body' = .ok items')
    (h : List.Forall₂ SameItem items items') {s : ServiceState Memory} (hs : s.store.Consistent) :
    ∃ drafts drafts',
      Survivors config.fieldNames (s.store.objects app.identifier) items drafts ∧
      Survivors config.fieldNames (s.store.objects app.identifier) items' drafts' ∧
      DifferInUpdated (((inMemory config background).batchCreate app body).on s)
        (((inMemory config background).batchCreate app body').on s)
        (drafts.map (·.envelope.updated) = drafts'.map (·.envelope.updated)) := by
  have hmax : (inMemory config background).config.maxEntitySize = config.maxEntitySize := rfl
  have hnames' : (inMemory config background).names = {} := hnames
  obtain ⟨drafts, hsurvivors, hkeep⟩ := keepNew_survivors config background app items hs
  obtain ⟨drafts', hsurvivors', hkeep'⟩ := keepNew_survivors config background app items' hs
  have hall : AllTimeless (drafts.map app.adopt) (drafts'.map app.adopt) :=
    allTimeless_keepNew background (newObjects_of_sameItems background hnames app h) hkeep hkeep'
  refine ⟨drafts, drafts', hsurvivors, hsurvivors', ?_⟩
  rw [batchCreate_on, batchCreate_on, hmax, hread, hread']
  dsimp only
  rw [hkeep, hkeep', hnames']
  by_cases hnone : drafts = []
  · subst hnone
    obtain rfl : drafts' = [] := List.map_eq_nil_iff.mp (List.forall₂_nil_left_iff.mp hall)
    exact .of_eq rfl (.inr rfl)
  · have hnone' : drafts' ≠ [] := by
      rintro rfl
      exact hnone (List.map_eq_nil_iff.mp (List.forall₂_nil_right_iff.mp hall))
    have hstore (t : Registration) (u : ServiceState Memory) :
        ((inMemory config background).registerLater t u).2.store = u.store := by
      cases background <;> rfl
    have hupdated (os : List Object) : (os.map app.adopt).map (·.envelope.updated) =
        os.map (·.envelope.updated) := List.map_map
    have hfields : ({} : FieldNames).toFields = Object.toFields := funext FieldNames.toFields_default
    simp only [List.isEmpty_iff, List.map_eq_nil_iff, hnone, hnone', if_false,
      inMemory_createAll, hfields]
    rcases Memory.createAll_of_sameKeys hall.sameKeys app.identifier s.store with
      ⟨e, left, left', m, hfailed, hfailed'⟩ | ⟨ids, answer, answer', m, hlength, hall, hall'⟩
    · rw [hfailed, hfailed']
      exact .of_eq rfl (.inl ⟨_, rfl⟩)
    · rename_i htimeless
      rw [hall, hall']
      dsimp only
      have hbody : ∀ x ∈ Memory.allNew (drafts.map app.adopt) ids s.store.supply.now,
          x.body.fields.get? "updated" = none := by
        intro x hx
        obtain ⟨o, ho, id, rfl⟩ := Memory.mem_allNew hx
        obtain ⟨d, hd, rfl⟩ := List.mem_map.mp ho
        obtain ⟨item, -, members, -, hmake, -⟩ := hsurvivors.makes hd
        rw [hnames, FieldNames.toObject_default] at hmake
        exact (Object.wellFormed_ofFields hmake).get?_body_of_has rfl
      refine (differInUpdated_createdAll (htimeless.alike_allNew ids _) hbody rfl rfl
        (hstore _ _) (hstore _ _)).of_iff ?_
      have hlength' : ids.length = (drafts'.map app.adopt).length :=
        hlength.trans htimeless.length_eq
      rw [Memory.updated_allNew hlength, Memory.updated_allNew hlength', hupdated, hupdated]

/-- What is created does not depend on the app, the shard key and the time of creation that a client
gives. The time of change is taken from the client: two requests that tell the same otherwise come
to the same just in case they give the same one, or fail. -/
theorem creates_same_iff_updated (hnames : config.fieldNames = {}) (app : App)
    {s : ServiceState Memory} (hs : s.store.Reachable) :
    let svc := inMemory config background
    (∀ hint body body' fields fields',
      RequestBody.readObject config.maxEntitySize body = .ok fields →
      RequestBody.readObject config.maxEntitySize body' = .ok fields' →
      SameRequest fields fields' →
      DifferInUpdated ((svc.create app hint body).on s) ((svc.create app hint body').on s)
        (Envelope.integerOf? fields "updated" = Envelope.integerOf? fields' "updated")) ∧
    ∀ body body' items items',
      RequestBody.readList config.maxEntitySize body = .ok items →
      RequestBody.readList config.maxEntitySize body' = .ok items' →
      List.Forall₂ SameItem items items' →
      ∃ drafts drafts',
        Survivors config.fieldNames (s.store.objects app.identifier) items drafts ∧
        Survivors config.fieldNames (s.store.objects app.identifier) items' drafts' ∧
        DifferInUpdated ((svc.batchCreate app body).on s) ((svc.batchCreate app body').on s)
          (drafts.map (·.envelope.updated) = drafts'.map (·.envelope.updated)) := by
  intro svc
  refine ⟨fun hint body body' fields fields' hread hread' h => ?_,
    fun body body' items items' hread hread' h => ?_⟩
  · exact create_differInUpdated background hnames app hint hread hread' h
      hs.consistent.supply.ids
  · exact batchCreate_differInUpdated background hnames app hread hread' h hs.consistent

def claimingDog : RequestBody := .ofText
  "\x7b\"type\":\"dog\",\"id\":\"d\",\"appid\":\"x\",\"shardkey\":\"k\",\"timestamp\":1,\"updated\":5\x7d"

def claimingDogs : RequestBody := .ofText
  "[\x7b\"type\":\"dog\",\"id\":\"d\",\"appid\":\"x\",\"shardkey\":\"k\",\"timestamp\":1,\"updated\":5\x7d]"

def plainDog : RequestBody := .ofText "\x7b\"type\":\"dog\",\"id\":\"d\",\"appid\":null\x7d"

def plainDogs : RequestBody := .ofText "[\x7b\"type\":\"dog\",\"id\":\"d\",\"appid\":null\x7d]"

def claimingMembers : List (String × Json) :=
  [("appid", .str "x"), ("id", .str "d"), ("shardkey", .str "k"), ("timestamp", .int 1),
    ("type", .str "dog"), ("updated", .int 5)]

def plainMembers : List (String × Json) :=
  [("appid", .null), ("id", .str "d"), ("type", .str "dog")]

theorem sameRequest_dogs : SameRequest (.ofList claimingMembers) (.ofList plainMembers) := by
  have hothers : SameOff Envelope.serverSide (.ofList claimingMembers) (.ofList plainMembers) := by
    decide +kernel
  have hfits : FitsOn Envelope.serverSide (.ofList claimingMembers) := by decide +kernel
  have hfits' : FitsOn Envelope.serverSide (.ofList plainMembers) := by decide +kernel
  exact ⟨hothers, hfits, hfits'⟩

theorem readObject_dogs :
    RequestBody.readObject ({} : Config).maxEntitySize claimingDog =
        .ok (.ofList claimingMembers) ∧
      RequestBody.readObject ({} : Config).maxEntitySize plainDog = .ok (.ofList plainMembers) := by
  decide +kernel

theorem readList_dogs :
    RequestBody.readList ({} : Config).maxEntitySize claimingDogs = .ok [.obj claimingMembers] ∧
      RequestBody.readList ({} : Config).maxEntitySize plainDogs = .ok [.obj plainMembers] := by
  decide +kernel

theorem creates_same_iff_updated_dog :
    let svc := inMemory {} .queued
    (shopState []).store.Reachable ∧
      DifferInUpdated ((svc.create .shop none claimingDog).on (shopState []))
        ((svc.create .shop none plainDog).on (shopState [])) (some (5 : Int) = none) ∧
      ∃ drafts drafts',
        Survivors {} ((shopState []).store.objects App.shop.identifier) [.obj claimingMembers] drafts ∧
        Survivors {} ((shopState []).store.objects App.shop.identifier) [.obj plainMembers] drafts' ∧
        DifferInUpdated ((svc.batchCreate .shop claimingDogs).on (shopState []))
          ((svc.batchCreate .shop plainDogs).on (shopState []))
          (drafts.map (·.envelope.updated) = drafts'.map (·.envelope.updated)) := by
  intro svc
  have hreachable : (shopState []).store.Reachable := (shopState_reachable []).store
  have hclaims : Envelope.integerOf? (.ofList claimingMembers) "updated" = some 5 := by
    decide +kernel
  have hplain : Envelope.integerOf? (.ofList plainMembers) "updated" = none := by decide +kernel
  have hnames : ({} : Config).fieldNames = {} := rfl
  obtain ⟨hone, hmany⟩ := creates_same_iff_updated .queued hnames .shop hreachable
  have hcreate := hone none _ _ _ _ readObject_dogs.1 readObject_dogs.2 sameRequest_dogs
  rw [hclaims, hplain] at hcreate
  exact ⟨hreachable, hcreate, hmany _ _ _ _ readList_dogs.1 readList_dogs.2
    (.cons (.told sameRequest_dogs) .nil)⟩

def timesOfDog (s : ServiceState Memory) : Option (Option Int × Option Int) :=
  (s.store.get? App.shop.identifier "d").map
    (fun o => (o.envelope.timestamp, o.envelope.updated))

def answeredBody (outcome : Outcome) : Option Json := outcome.toOption.bind Response.body?

/-- A dog that has never been changed keeps the time of change that its client claims, while the app,
the shard key and the time of creation that the client claims are lost. -/
theorem creates_keep_claimed_updated :
    let svc := inMemory {} .queued
    let claiming := (svc.create .shop none claimingDog).on (shopState [])
    let plain := (svc.create .shop none plainDog).on (shopState [])
    let claimingBatch := (svc.batchCreate .shop claimingDogs).on (shopState [])
    let plainBatch := (svc.batchCreate .shop plainDogs).on (shopState [])
    RequestBody.readObject ({} : Config).maxEntitySize claimingDog =
        .ok (.ofList claimingMembers) ∧
      RequestBody.readObject ({} : Config).maxEntitySize plainDog = .ok (.ofList plainMembers) ∧
      SameRequest (.ofList claimingMembers) (.ofList plainMembers) ∧
      answeredBody claiming.1 ≠ answeredBody plain.1 ∧
      answeredBody claimingBatch.1 ≠ answeredBody plainBatch.1 ∧
      timesOfDog claiming.2 = some (some 0, some 5) ∧ timesOfDog plain.2 = some (some 0, none) ∧
      timesOfDog claimingBatch.2 = some (some 0, some 5) ∧
      timesOfDog plainBatch.2 = some (some 0, none) := by
  refine ⟨readObject_dogs.1, readObject_dogs.2, sameRequest_dogs, ?_, ?_, ?_⟩
  · decide +kernel
  · decide +kernel
  · decide +kernel

end Service
end ObjectDepot
