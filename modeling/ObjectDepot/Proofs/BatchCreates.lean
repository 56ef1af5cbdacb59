import Mathlib.Data.List.Induction
import ObjectDepot.Json.Equality
import ObjectDepot.Proofs.NewObjects
import ObjectDepot.Proofs.Runs

/-! The outcome of a batch create. Items are judged in order: one survives if it makes an object
that is valid, and whose identifier, if it has one, is neither stored nor that of an item that
survived before it. All survivors are stored, and nothing else happens to the storage. -/

namespace ObjectDepot

/-- An item stands for an object: it can be read as one, and no constraint is violated. -/
def Makes (names : FieldNames) (item : Json) (o : Object) : Prop :=
  ∃ members, item = .obj members ∧ names.toObject (KeyMap.ofList members) = .ok o ∧
    o.violations = []

/-- The objects of those items that survive, in order. -/
inductive Survivors (names : FieldNames) (p : Partition) : List Json → List Object → Prop
  | nil : Survivors names p [] []
  | kept {items : List Json} {os : List Object} {item : Json} {o : Object}
      (h : Survivors names p items os) (hmakes : Makes names item o)
      (hid : ∀ id, o.givenId? = some id → p.get? id = none ∧ ∀ x ∈ os, x.givenId? ≠ some id) :
      Survivors names p (items ++ [item]) (os ++ [o])
  | dropped {items : List Json} {os : List Object} {item : Json} (h : Survivors names p items os)
      (hno : ∀ o, Makes names item o → ∃ id, o.givenId? = some id ∧
        (p.get? id ≠ none ∨ ∃ x ∈ os, x.givenId? = some id)) :
      Survivors names p (items ++ [item]) os

theorem Makes.unique {names : FieldNames} {item : Json} {o o' : Object} (h : Makes names item o)
    (h' : Makes names item o') : o = o' := by
  obtain ⟨members, rfl, hread, -⟩ := h
  obtain ⟨_, heq, hread', -⟩ := h'
  cases heq
  exact Except.ok.inj (hread.symm.trans hread')

namespace Survivors

variable {names : FieldNames} {p : Partition} {items : List Json} {os : List Object}

theorem makes (h : Survivors names p items os) {o : Object} (ho : o ∈ os) :
    ∃ item ∈ items, Makes names item o := by
  induction h with
  | nil => cases ho
  | kept h hmakes hid ih =>
    rcases List.mem_append.mp ho with ho | ho
    · obtain ⟨item, hitem, hitem'⟩ := ih ho
      exact ⟨item, List.mem_append_left _ hitem, hitem'⟩
    · obtain rfl := List.mem_singleton.mp ho
      exact ⟨_, List.mem_append_right _ List.mem_cons_self, hmakes⟩
  | dropped h hno ih =>
    obtain ⟨item, hitem, hitem'⟩ := ih ho
    exact ⟨item, List.mem_append_left _ hitem, hitem'⟩

theorem unclaimed (h : Survivors names p items os) : p.Unclaimed os := by
  induction h with
  | nil => exact ⟨by simp, .nil⟩
  | @kept items os item o h hmakes hid ih =>
    refine ⟨fun x hx id hx' => ?_, List.pairwise_append.mpr ⟨ih.apart, by simp, ?_⟩⟩
    · rcases List.mem_append.mp hx with hx | hx
      · exact ih.free x hx id hx'
      · obtain rfl := List.mem_singleton.mp hx
        exact (hid id hx').1
    · intro x hx y hy id hx' hy'
      obtain rfl := List.mem_singleton.mp hy
      exact (hid id hy').2 x hx hx'
  | dropped h hno ih => exact ih

end Survivors

namespace Service

theorem newObject?_eq_some_iff {σ : Type} {svc : Service σ} {app : App} {item : Json} {x : Object} :
    svc.newObject? app item = some x ↔ ∃ o, Makes svc.names item o ∧ app.adopt o = x := by
  unfold newObject? Makes
  cases item with
  | obj members =>
    simp only [Json.fields?, bind, Option.bind_some, Json.obj.injEq, exists_eq_left']
    cases hread : svc.names.toObject (KeyMap.ofList members) with
    | error e => simp [Except.toOption]
    | ok o =>
      simp only [Except.toOption, Option.bind_some, Except.ok.injEq, Object.isValid,
        List.isEmpty_iff]
      constructor
      · intro h
        split at h
        · rename_i hv
          exact ⟨o, ⟨rfl, hv⟩, Option.some.inj h⟩
        · cases h
      · rintro ⟨_, ⟨rfl, hv⟩, rfl⟩
        rw [if_pos hv]
  | _ => simp [Json.fields?, bind]

/-- What is taken grows by the identifiers of the objects that are kept. -/
theorem keepUntaken_append (taken : List String) (os rest : List Object) :
    keepUntaken taken (os ++ rest) = keepUntaken taken os ++
      keepUntaken (((keepUntaken taken os).filterMap Object.givenId?).reverse ++ taken) rest := by
  induction os generalizing taken with
  | nil => rfl
  | cons o os ih =>
    rw [List.cons_append, keepUntaken, keepUntaken]
    cases hid : o.givenId? with
    | none => simp [ih, hid]
    | some id =>
      dsimp only
      split
      · exact ih taken
      · simp [ih, hid]

theorem keepUntaken_singleton (taken : List String) (o : Object) :
    (keepUntaken taken [o] = [] ∧ ∃ id ∈ taken, o.givenId? = some id) ∨
      keepUntaken taken [o] = [o] ∧ ∀ id, o.givenId? = some id → id ∉ taken := by
  rw [keepUntaken]
  cases hid : o.givenId? with
  | none => exact .inr ⟨rfl, by simp⟩
  | some id =>
    dsimp only
    split
    · rename_i htaken
      exact .inl ⟨rfl, id, List.contains_iff_mem.mp htaken, rfl⟩
    · rename_i htaken
      refine .inr ⟨rfl, ?_⟩
      rintro _ ⟨⟩
      simpa using htaken

/-- Dropping taken objects is judging the items one by one, if what is taken at the start is what is
stored. -/
theorem survivors_keepUntaken {σ : Type} (svc : Service σ) (app : App) (p : Partition)
    (taken : List String) (items : List Json)
    (htaken : ∀ id, IsGiven (items.filterMap (svc.newObject? app)) id →
      (id ∈ taken ↔ p.get? id ≠ none)) :
    ∃ drafts, Survivors svc.names p items drafts ∧
      keepUntaken taken (items.filterMap (svc.newObject? app)) = drafts.map app.adopt := by
  induction items using List.reverseRecOn with
  | nil => exact ⟨[], .nil, rfl⟩
  | append_singleton items item ih =>
    rw [List.filterMap_append] at htaken ⊢
    obtain ⟨drafts, hsurvivors, hkept⟩ := ih (fun id hid => htaken id (by
      obtain ⟨o, ho, hid⟩ := hid
      exact ⟨o, List.mem_append_left _ ho, hid⟩))
    cases hitem : svc.newObject? app item with
    | none =>
      have hno (o : Object) : ¬ Makes svc.names item o := fun hmakes => by
        rw [newObject?_eq_some_iff.mpr ⟨o, hmakes, rfl⟩] at hitem
        cases hitem
      refine ⟨drafts, hsurvivors.dropped (fun o hmakes => absurd hmakes (hno o)), ?_⟩
      rw [List.filterMap_cons_none hitem, List.filterMap_nil, List.append_nil, hkept]
    | some x =>
      obtain ⟨o, hmakes, rfl⟩ := newObject?_eq_some_iff.mp hitem
      have hstored (id : String) (hid : o.givenId? = some id) : id ∈ taken ↔ p.get? id ≠ none := by
        refine htaken id ⟨app.adopt o, List.mem_append_right _ ?_, hid⟩
        simp [hitem]
      have htaken' (id : String) :
          id ∈ ((drafts.map app.adopt).filterMap Object.givenId?).reverse ++ taken ↔
            (∃ x ∈ drafts, x.givenId? = some id) ∨ id ∈ taken := by
        rw [List.filterMap_map, List.mem_append, List.mem_reverse, List.mem_filterMap]
        rfl
      rw [List.filterMap_cons_some hitem, List.filterMap_nil, keepUntaken_append, hkept]
      rcases keepUntaken_singleton
          (((drafts.map app.adopt).filterMap Object.givenId?).reverse ++ taken) (app.adopt o) with
        ⟨hdrop, id, hin, hid⟩ | ⟨hkeep, hout⟩
      · refine ⟨drafts, hsurvivors.dropped (fun o' hmakes' => ?_), by rw [hdrop, List.append_nil]⟩
        obtain rfl := hmakes.unique hmakes'
        rcases (htaken' id).mp hin with hused | hin
        · exact ⟨id, hid, .inr hused⟩
        · exact ⟨id, hid, .inl ((hstored id hid).mp hin)⟩
      · refine ⟨drafts ++ [o], hsurvivors.kept hmakes (fun id hid => ?_), ?_⟩
        · have hnot := (htaken' id).not.mp (hout id hid)
          simp only [not_or, not_exists, not_and] at hnot
          exact ⟨by simpa using (hstored id hid).not.mp hnot.2, hnot.1⟩
        · rw [hkeep, List.map_append, List.map_singleton]

theorem keepUntaken_of_unnamed {taken : List String} {os : List Object}
    (h : os.filterMap Object.givenId? = []) : keepUntaken taken os = os := by
  induction os with
  | nil => rfl
  | cons o os ih =>
    cases hid : o.givenId? with
    | some id => simp [hid] at h
    | none =>
      rw [List.filterMap_cons_none hid] at h
      rw [keepUntaken, hid]
      dsimp only
      rw [ih h]

variable (config : Config) (background : Background) (app : App)

theorem keepNew_survivors (items : List Json) {s : ServiceState Memory}
    (hs : s.store.Consistent) :
    let svc := inMemory config background
    ∃ drafts, Survivors config.fieldNames (s.store.objects app.identifier) items drafts ∧
      (svc.keepNew app (items.filterMap (svc.newObject? app))).on s =
        (.ok (drafts.map app.adopt), s) := by
  intro svc
  have hgiven (id : String) : IsGiven (items.filterMap (svc.newObject? app)) id ↔
      id ∈ (items.filterMap (svc.newObject? app)).filterMap Object.givenId? := by
    rw [List.mem_filterMap]
    rfl
  rw [keepNew_on]
  split
  · rename_i hnone
    have hnil := List.isEmpty_iff.mp hnone
    obtain ⟨drafts, hsurvivors, hkept⟩ := survivors_keepUntaken svc app
      (s.store.objects app.identifier) [] items (fun id hid => by
        rw [hgiven, hnil] at hid
        cases hid)
    rw [keepUntaken_of_unnamed hnil] at hkept
    exact ⟨drafts, hsurvivors, by rw [hkept]⟩
  · have hread (ids : List String) : svc.storage.readAll app.identifier ids false s.store =
        (.ok (ids.filterMap (s.store.get? app.identifier)), s.store) := rfl
    rw [hread]
    dsimp only
    obtain ⟨drafts, hsurvivors, hkept⟩ := survivors_keepUntaken svc app
      (s.store.objects app.identifier)
      ((((items.filterMap (svc.newObject? app)).filterMap Object.givenId?).filterMap
        (s.store.get? app.identifier)).filterMap Object.id) items (fun id hid => by
        rw [List.mem_filterMap]
        constructor
        · rintro ⟨o, ho, hoid⟩
          obtain ⟨key, -, hget⟩ := List.mem_filterMap.mp ho
          have hkey := (hs.partitions app.identifier key o hget).key
          obtain rfl : id = key := Option.some.inj (hoid.symm.trans hkey)
          rw [← Memory.get?, hget]
          simp
        · intro hget
          obtain ⟨o, ho⟩ := Option.ne_none_iff_exists'.mp hget
          exact ⟨o, List.mem_filterMap.mpr ⟨id, (hgiven id).mp hid, ho⟩,
            (hs.partitions app.identifier id o ho).key⟩)
    exact ⟨drafts, hsurvivors, by rw [hkept]⟩

theorem batchCreate_nothing {body : RequestBody} {items : List Json} {s : ServiceState Memory}
    (hread : RequestBody.readList config.maxEntitySize body = .ok items)
    (hkeep : ((inMemory config background).keepNew app
      (items.filterMap ((inMemory config background).newObject? app))).on s = (.ok [], s)) :
    ((inMemory config background).batchCreate app body).on s = (.ok (.okList []), s) := by
  have hread' : RequestBody.readList (inMemory config background).config.maxEntitySize body =
      .ok items := hread
  rw [batchCreate_on, hread']
  dsimp only
  rw [hkeep]
  rfl

theorem batchCreate_something {body : RequestBody} {items : List Json} {s : ServiceState Memory}
    {o : Object} {os : List Object}
    (hread : RequestBody.readList config.maxEntitySize body = .ok items)
    (hkeep : ((inMemory config background).keepNew app
      (items.filterMap ((inMemory config background).newObject? app))).on s = (.ok (o :: os), s))
    {ids : List String} {created : List Object}
    (hwritten : (Memory.createAll app.identifier (o :: os) s.store).1 = ⟨.ok ids, created⟩) :
    ((inMemory config background).batchCreate app body).on s =
      (.ok (.okList (created.map (inMemory config background).names.toFields)),
        { s with
          store := (Memory.createAll app.identifier (o :: os) s.store).2
          pending := s.pending ++ if background = .queued then [⟨app, created⟩] else [] }) := by
  have hread' : RequestBody.readList (inMemory config background).config.maxEntitySize body =
      .ok items := hread
  rw [batchCreate_on, hread']
  dsimp only
  rw [hkeep]
  dsimp only [List.isEmpty_cons]
  rw [if_neg Bool.false_ne_true, inMemory_createAll]
  rcases hcreate : Memory.createAll app.identifier (o :: os) s.store with ⟨w, store⟩
  rw [hcreate] at hwritten
  obtain rfl : w = _ := hwritten
  cases background with
  | queued => rfl
  | dropped =>
    rw [if_neg (by decide), List.append_nil]
    rfl

/-- The outcome of a batch create whose body can be read. It is answered with 200 and gives just
the objects that survive, which are all that the partition gains. One registration of theirs is left
for the background, if there are any. -/
theorem batchCreate_outcome {body : RequestBody} {items : List Json}
    (hread : RequestBody.readList config.maxEntitySize body = .ok items)
    {s : ServiceState Memory} (hs : s.store.Reachable)
    (hfresh : s.store.supply.Fresh (s.store.objects app.identifier)
      (fun id => ∃ item ∈ items, ∃ o, Makes config.fieldNames item o ∧ o.givenId? = some id)) :
    let svc := inMemory config background
    let after := (svc.batchCreate app body).on s
    ∃ drafts created, Survivors config.fieldNames (s.store.objects app.identifier) items drafts ∧
      List.Forall₂ (fun o x => Memory.StoredAsNew s.store.supply (app.adopt o) x) drafts created ∧
      after.1 = .ok (.okList (created.map svc.names.toFields)) ∧
      (s.store.objects app.identifier).Gains created (after.2.store.objects app.identifier) ∧
      (∀ other, other ≠ app.identifier → after.2.store.objects other = s.store.objects other) ∧
      after.2.pending = s.pending ++
        (if background = .queued ∧ created ≠ [] then [⟨app, created⟩] else []) ∧
      ∀ s' : ServiceState Memory,
        RecordsTypes app created s'.store (svc.runRegistration ⟨app, created⟩ s').2.store := by
  intro svc after
  obtain ⟨drafts, hsurvivors, hkeep⟩ := keepNew_survivors config background app items hs.consistent
  have hregisters (created : List Object) (s' : ServiceState Memory) :=
    (registerTypes_effect config background app created s').1
  cases drafts with
  | nil =>
    have hafter : after = _ := batchCreate_nothing config background app hread hkeep
    rw [hafter]
    refine ⟨[], [], hsurvivors, .nil, rfl, Partition.gains_nil _, fun _ _ => rfl, ?_, hregisters []⟩
    simp
  | cons o os =>
    have hfree := hsurvivors.unclaimed
    have howners : ∀ x ∈ (o :: os).map app.adopt, x.appid = some app.identifier.text := by
      intro x hx
      obtain ⟨d, -, rfl⟩ := List.mem_map.mp hx
      rfl
    have hfresh' : s.store.supply.Fresh (s.store.objects app.identifier)
        (IsGiven ((o :: os).map app.adopt)) := by
      refine ⟨hfresh.apart, hfresh.unstored, fun n hn hused => ?_⟩
      obtain ⟨x, hx, hid⟩ := hused
      obtain ⟨d, hd, rfl⟩ := List.mem_map.mp hx
      obtain ⟨item, hitem, hmakes⟩ := hsurvivors.makes hd
      exact hfresh.unused n hn ⟨item, hitem, d, hmakes, hid⟩
    have hunclaimed : (s.store.objects app.identifier).Unclaimed ((o :: os).map app.adopt) := by
      refine ⟨fun x hx => ?_, List.pairwise_map.mpr hfree.apart⟩
      obtain ⟨d, hd, rfl⟩ := List.mem_map.mp hx
      exact hfree.free d hd
    obtain ⟨created, hwritten, hcreated, hgains⟩ :=
      Memory.createAll_of_unclaimed howners hfresh' hunclaimed
    have hafter : after = _ := batchCreate_something config background app hread hkeep hwritten
    have hcreated' := List.forall₂_map_left_iff.mp hcreated
    have hsome : created ≠ [] := by
      rintro rfl
      cases hcreated
    rw [hafter]
    refine ⟨o :: os, created, hsurvivors, hcreated', rfl, hgains, fun other hother => ?_, ?_,
      hregisters created⟩
    · exact Write.objects_run (w := .createAll app.identifier _) hother
    · simp [hsome]

/-- Identifiers of growing length. -/
def growing : Supply := { now := 0, ids := fun n => String.ofList (List.replicate (n + 1) 'x') }

theorem sound_growing : growing.Sound := by
  refine ⟨⟨by decide, by decide⟩, fun n => ?_⟩
  have hx : Text.isSpace 'x' = false := by decide
  simp [growing, Text.isBlank, List.replicate_succ, hx]

def newPets : RequestBody := .ofText ("[\x7b\"id\":\"d\",\"type\":\"dog\"\x7d," ++
  "\x7b\"id\":\"c\",\"type\":\"cat\"\x7d,7,\x7b\"id\":\"c\",\"type\":\"cow\"\x7d," ++
  "\x7b\"type\":\"dog\"\x7d]")

def newPetItems : List Json :=
  [.obj [("id", .str "d"), ("type", .str "dog")], .obj [("id", .str "c"), ("type", .str "cat")],
    .int 7, .obj [("id", .str "c"), ("type", .str "cow")], .obj [("type", .str "dog")]]

/-- A dog is stored under `d`. -/
def dogState : ServiceState Memory :=
  (shopState [.ofText "\x7b\"id\":\"d\",\"type\":\"dog\"\x7d"]).withSupply growing

theorem readList_newPets :
    RequestBody.readList ({} : Config).maxEntitySize newPets = .ok newPetItems := by
  decide +kernel

theorem growing_ne {n : Nat} {id : String} (h : id.toList.head? ≠ some 'x') : growing.ids n ≠ id := by
  rintro rfl
  simp [growing, List.replicate_succ] at h

theorem fresh_growing {p : Partition} {used : String → Prop}
    (hp : ∀ k ∈ p.keys, k.toList.head? ≠ some 'x')
    (hused : ∀ id, used id → id.toList.head? ≠ some 'x') : growing.Fresh p used := by
  refine ⟨fun i j _ hij heq => ?_, fun n _ => ?_, fun n _ h => growing_ne (hused _ h) rfl⟩
  · have hlength := congrArg (fun id => id.toList.length) heq
    have hids (n : Nat) : (growing.ids n).toList.length = n + 1 := by simp [growing]
    exact absurd ((hids i).symm.trans (hlength.trans (hids j))) (by omega)
  · cases hget : p.get? (growing.ids n) with
    | none => rfl
    | some o =>
      have hkey : p.contains (growing.ids n) := by
        rw [KeyMap.contains, hget]
        rfl
      exact absurd rfl (growing_ne (hp _ (KeyMap.mem_keys_iff.mpr hkey)))

theorem fresh_newPets : dogState.store.supply.Fresh (dogState.store.objects App.shop.identifier)
    (fun id => ∃ item ∈ newPetItems, ∃ o, Makes {} item o ∧ o.givenId? = some id) := by
  have hkeys : (dogState.store.objects App.shop.identifier).keys = ["d"] := by decide +kernel
  have hids : newPetItems.filterMap (fun item =>
      ((inMemory {} .queued).newObject? .shop item).bind Object.givenId?) = ["d", "c", "c"] := by
    decide +kernel
  refine fresh_growing (by rw [hkeys]; decide +kernel) ?_
  rintro id ⟨item, hitem, o, hmakes, hid⟩
  have hnew : (inMemory {} .queued).newObject? .shop item = some (App.shop.adopt o) :=
    newObject?_eq_some_iff.mpr ⟨o, hmakes, rfl⟩
  have hmem : id ∈ ["d", "c", "c"] := by
    rw [← hids]
    refine List.mem_filterMap.mpr ⟨item, hitem, ?_⟩
    rw [hnew]
    exact hid
  have hheads : ∀ id ∈ ["d", "c", "c"], id.toList.head? ≠ some 'x' := by decide +kernel
  exact hheads id hmem

theorem batchCreate_outcome_pets :
    RequestBody.readList ({} : Config).maxEntitySize newPets = .ok newPetItems ∧
      dogState.store.Reachable ∧
      dogState.store.supply.Fresh (dogState.store.objects App.shop.identifier)
        (fun id => ∃ item ∈ newPetItems, ∃ o, Makes {} item o ∧ o.givenId? = some id) ∧
      let svc := inMemory {} .queued
      let after := (svc.batchCreate .shop newPets).on dogState
      (after.2.store.objects App.shop.identifier).keys = ["c", "d", "x"] ∧
      ∃ drafts created,
        Survivors {} (dogState.store.objects App.shop.identifier) newPetItems drafts ∧
        List.Forall₂ (fun o x => Memory.StoredAsNew dogState.store.supply (App.shop.adopt o) x)
          drafts created ∧
        after.1 = .ok (.okList (created.map svc.names.toFields)) ∧
        (dogState.store.objects App.shop.identifier).Gains created
          (after.2.store.objects App.shop.identifier) ∧
        (∀ other, other ≠ App.shop.identifier →
          after.2.store.objects other = dogState.store.objects other) ∧
        after.2.pending = dogState.pending ++
          (if Background.queued = .queued ∧ created ≠ [] then [⟨.shop, created⟩] else []) ∧
        ∀ s' : ServiceState Memory,
          RecordsTypes .shop created s'.store (svc.runRegistration ⟨.shop, created⟩ s').2.store := by
  have hreachable : dogState.store.Reachable := .wait (shopState_reachable _).store sound_growing
  exact ⟨readList_newPets, hreachable, fresh_newPets, by decide +kernel,
    batchCreate_outcome {} .queued .shop readList_newPets hreachable fresh_newPets⟩

end Service
end ObjectDepot
