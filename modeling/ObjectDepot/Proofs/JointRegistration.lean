import Mathlib.Data.List.Induction
import ObjectDepot.Proofs.RecordedTypes

/-! Objects that are registered together, and the same objects registered in two calls. Both ways
the record gains the same plurals, and the answers add up. Where two objects have one plural the
ways differ: of those that are registered together the last one decides, but a later call does not
replace what an earlier one brought. -/

namespace ObjectDepot

namespace Registry

/-- The objects that bring a plural to a view of an app, in their order. -/
def bringers (core : TypeMap) (app : App) (os : List Object) (k : String) : List Object :=
  os.filter (fun o => isUnknown core app o && o.plural = k)

/-- No two objects have one plural and different types. -/
def Unambiguous (os : List Object) : Prop :=
  ∀ x ∈ os, ∀ y ∈ os, x.plural = y.plural → x.type = y.type

variable {core : TypeMap} {app : App} {os xs ys : List Object} {k : String}

theorem bringers_append (core : TypeMap) (app : App) (xs ys : List Object) (k : String) :
    bringers core app (xs ++ ys) k = bringers core app xs k ++ bringers core app ys k :=
  List.filter_append _ _

theorem get?_unknownTypes (core : TypeMap) (app : App) (os : List Object) (k : String) :
    (unknownTypes core app os).get? k = (bringers core app os k).getLast?.map Object.type := by
  induction os using List.reverseRecOn with
  | nil => rfl
  | append_singleton os o ih =>
    rw [bringers_append, List.getLast?_append]
    cases hunknown : isUnknown core app o with
    | false =>
      have hlast : bringers core app [o] k = [] := by simp [bringers, hunknown]
      have hsame : unknownTypes core app (os ++ [o]) = unknownTypes core app os := by
        simp [unknownTypes, hunknown]
      rw [hsame, hlast, ih]
      rfl
    | true =>
      have hinsert : unknownTypes core app (os ++ [o]) =
          (unknownTypes core app os).insert o.plural o.type := by
        simp [unknownTypes, hunknown, KeyMap.ofList]
      rw [hinsert, KeyMap.get?_insert, ih]
      by_cases hk : k = o.plural
      · simp [bringers, hunknown, hk]
      · simp [bringers, hunknown, hk, Ne.symm hk]

theorem get?_unknownTypes_append (core : TypeMap) (app : App) (xs ys : List Object) (k : String) :
    (unknownTypes core app (xs ++ ys)).get? k =
      ((unknownTypes core app ys).get? k).or ((unknownTypes core app xs).get? k) := by
  rw [get?_unknownTypes, bringers_append, List.getLast?_append, Option.map_or,
    ← get?_unknownTypes, ← get?_unknownTypes]

theorem mem_missing_iff {types pending : TypeMap} {k : String} :
    k ∈ missing types pending ↔ pending.contains k ∧ types.contains k = false := by
  simp [missing, KeyMap.mem_keys_iff]

theorem nodup_missing (types pending : TypeMap) : (missing types pending).Nodup := by
  refine List.Pairwise.filter _ (List.Pairwise.map _ (fun a b hab => ?_) pending.sorted)
  exact fun h => String.lt_irrefl _ (h ▸ hab)

/-- What is missing of the types of two lists is what is missing of the first, and then of the
second. -/
theorem missing_append_perm (core : TypeMap) (app : App) (xs ys : List Object) (types : TypeMap) :
    (missing types (unknownTypes core app (xs ++ ys))).Perm
      (missing types (unknownTypes core app xs) ++
        missing (KeyMap.extend (unknownTypes core app xs) types) (unknownTypes core app ys)) := by
  refine (List.perm_ext_iff_of_nodup (nodup_missing _ _) ?_).mpr (fun k => ?_)
  · refine List.nodup_append.mpr ⟨nodup_missing _ _, nodup_missing _ _, fun k hk k' hk' => ?_⟩
    rintro rfl
    have hfirst := (mem_missing_iff.mp hk).1
    have hsecond := (mem_missing_iff.mp hk').2
    rw [KeyMap.contains] at hfirst hsecond
    rw [KeyMap.get?_extend, Option.isSome_or, hfirst, Bool.or_true] at hsecond
    cases hsecond
  · simp only [List.mem_append, mem_missing_iff, KeyMap.contains, KeyMap.get?_extend,
      get?_unknownTypes_append, Option.isSome_or]
    cases ((unknownTypes core app xs).get? k).isSome <;> simp

/-- Types with those of two lists added, which are taken together. -/
def addedTogether (core : TypeMap) (app : App) (xs ys : List Object) (types : TypeMap) : TypeMap :=
  KeyMap.extend (unknownTypes core app (xs ++ ys)) types

/-- Types with those of two lists added, of one after the other. -/
def addedInTurn (core : TypeMap) (app : App) (xs ys : List Object) (types : TypeMap) : TypeMap :=
  KeyMap.extend (unknownTypes core app ys) (KeyMap.extend (unknownTypes core app xs) types)

theorem get?_addedTogether (core : TypeMap) (app : App) (xs ys : List Object) (types : TypeMap)
    (k : String) : (addedTogether core app xs ys types).get? k =
      (types.get? k).or ((bringers core app (xs ++ ys) k).getLast?.map Object.type) := by
  rw [addedTogether, KeyMap.get?_extend, get?_unknownTypes]

theorem get?_addedInTurn (core : TypeMap) (app : App) (xs ys : List Object) (types : TypeMap)
    (k : String) : (addedInTurn core app xs ys types).get? k =
      (types.get? k).or (((bringers core app xs k).getLast?.or
        (bringers core app ys k).getLast?).map Object.type) := by
  rw [addedInTurn, KeyMap.get?_extend, KeyMap.get?_extend, get?_unknownTypes, get?_unknownTypes,
    Option.or_assoc, Option.map_or]

theorem contains_addedInTurn (core : TypeMap) (app : App) (xs ys : List Object) (types : TypeMap)
    (k : String) : (addedTogether core app xs ys types).contains k =
      (addedInTurn core app xs ys types).contains k := by
  rw [KeyMap.contains, KeyMap.contains, get?_addedTogether, get?_addedInTurn, bringers_append,
    List.getLast?_append]
  simp only [Option.isSome_or, Option.isSome_map, Bool.or_comm]

/-- A plural that comes in both lists is what makes the difference. -/
theorem addedTogether_eq_iff {types : TypeMap} :
    addedTogether core app xs ys types = addedInTurn core app xs ys types ↔
      ∀ k, types.get? k = none → ∀ x y, (bringers core app xs k).getLast? = some x →
        (bringers core app ys k).getLast? = some y → x.type = y.type := by
  constructor
  · intro heq k hnew x y hx hy
    have hk := congrArg (KeyMap.get? · k) heq
    simp only [get?_addedTogether, get?_addedInTurn, bringers_append, List.getLast?_append, hnew,
      hx, hy] at hk
    exact (Option.some.inj hk).symm
  · intro h
    refine KeyMap.ext (fun k => ?_)
    rw [get?_addedTogether, get?_addedInTurn, bringers_append, List.getLast?_append]
    cases hold : types.get? k with
    | some v => rfl
    | none =>
      cases hx : (bringers core app xs k).getLast? with
      | none => simp
      | some x =>
        cases hy : (bringers core app ys k).getLast? with
        | none => rfl
        | some y => simp [h k hold x y hx hy]

theorem Unambiguous.getLast?_eq_head? (h : Unambiguous os) (core : TypeMap) (app : App)
    (k : String) : (bringers core app os k).getLast?.map Object.type =
      (bringers core app os k).head?.map Object.type := by
  have hbrings {o : Object} (ho : o ∈ bringers core app os k) : o ∈ os ∧ o.plural = k := by
    obtain ⟨hmem, hb⟩ := List.mem_filter.mp ho
    exact ⟨hmem, by simpa using (Bool.and_eq_true_iff.mp hb).2⟩
  cases hl : bringers core app os k with
  | nil => rfl
  | cons o rest =>
    rw [hl] at hbrings
    have hfirst := hbrings List.mem_cons_self
    have hlast := hbrings (List.getLast_mem (List.cons_ne_nil o rest))
    rw [List.getLast?_eq_some_getLast (List.cons_ne_nil o rest), List.head?_cons, Option.map_some,
      Option.map_some, h _ hlast.1 o hfirst.1 (hlast.2.trans hfirst.2.symm)]

theorem Unambiguous.get?_added (h : Unambiguous (xs ++ ys)) (core : TypeMap) (app : App)
    (types : TypeMap) (k : String) :
    (addedTogether core app xs ys types).get? k =
        (types.get? k).or ((bringers core app (xs ++ ys) k).head?.map Object.type) ∧
      (addedInTurn core app xs ys types).get? k =
        (types.get? k).or ((bringers core app (xs ++ ys) k).head?.map Object.type) := by
  have hxs : Unambiguous xs := fun x hx y hy =>
    h x (List.mem_append_left _ hx) y (List.mem_append_left _ hy)
  have hys : Unambiguous ys := fun x hx y hy =>
    h x (List.mem_append_right _ hx) y (List.mem_append_right _ hy)
  refine ⟨?_, ?_⟩
  · rw [get?_addedTogether, h.getLast?_eq_head?]
  · rw [get?_addedInTurn, Option.map_or, hxs.getLast?_eq_head?, hys.getLast?_eq_head?,
      bringers_append, List.head?_append, Option.map_or]

end Registry

namespace Service

variable (config : Config) (background : Background) {s : ServiceState Memory} {app : App}

/-- A registration that has something to write and does not fail can write it. -/
theorem recordable_of_registered (happ : app.Keyed) {os : List Object} {n : Nat}
    (hmissing : Registry.missing (app.recordIn s.store).datatypes
      (Registry.unknownTypes s.registry.known app os) ≠ [])
    (h : ((inMemory config background).registerTypes (some app) os s).1 = .ok n) :
    app.Recordable s.store := by
  refine ⟨happ, fun hget => ?_⟩
  have hempty := Registry.isEmpty_of_missing hmissing
  have hrecord : app.recordIn s.store = app.toObject := by
    rw [App.recordIn, hget, Option.getD_none]
  rw [hrecord, App.datatypes_toObject] at hmissing
  rw [registerTypes_of_some _ hempty] at h
  exact Registry.owner_of_recordTypes hget hmissing h

/-- What a registration comes to that does not fail. -/
theorem registerTypes_ok (hs : s.store.Consistent) (happ : app.Keyed) {os : List Object}
    {after : ServiceState Memory} {n : Nat}
    (h : (inMemory config background).registerTypes (some app) os s = (.ok n, after)) :
    let pending := Registry.unknownTypes s.registry.known app os
    n = (Registry.missing (app.recordIn s.store).datatypes pending).length ∧
      (app.recordIn after.store).datatypes =
        KeyMap.extend pending (app.recordIn s.store).datatypes ∧
      ((after.store.get? app.partition app.identifier.objectId).isSome ↔
        (s.store.get? app.partition app.identifier.objectId).isSome ∨ n ≠ 0) ∧
      after.registry.known = s.registry.known := by
  intro pending
  have hknown : after.registry.known = s.registry.known := by
    have hregistry : after.registry = s.registry.searched app os :=
      (congrArg (fun r => r.2.registry) h).symm.trans (registry_registerTypes _)
    rw [hregistry, Registry.known_searched]
  cases hempty : KeyMap.isEmpty pending with
  | true =>
    have hmissing := Registry.missing_of_isEmpty hempty (app.recordIn s.store).datatypes
    rw [registerTypes_of_none _ hempty] at h
    cases h
    rw [Registry.extend_of_none_missing hmissing, hmissing]
    exact ⟨rfl, rfl, by simp, hknown⟩
  | false =>
    obtain ⟨latest, hlatest⟩ := readable_of_registered config background happ hempty
      (congrArg Prod.fst h)
    by_cases hmissing : Registry.missing (app.recordIn s.store).datatypes pending = []
    · rw [registerTypes_of_none_missing config background happ hlatest hmissing] at h
      cases h
      rw [Registry.extend_of_none_missing hmissing, hmissing]
      exact ⟨rfl, rfl, by simp, hknown⟩
    · have hrecordable := recordable_of_registered config background happ hmissing
        (congrArg Prod.fst h)
      obtain ⟨hanswer, -, hsome⟩ :=
        registerTypes_records config background hs hrecordable hlatest os
      have htypes := (recordIn_registerTypes config background hs hrecordable hlatest os).2
      obtain ⟨o, hput, -⟩ := hsome hmissing
      rw [h] at hanswer hput htypes
      have hn : n = (Registry.missing (app.recordIn s.store).datatypes pending).length :=
        Except.ok.inj hanswer
      have hstore : after.store = s.store.put app.partition app.identifier.objectId o := hput
      refine ⟨hn, htypes, ?_, hknown⟩
      rw [hstore, Memory.get?_put, if_pos rfl, hn]
      exact iff_of_true rfl (.inr (mt List.length_eq_zero_iff.mp hmissing))

/-- Objects that are registered together, and in two calls from the same view of the app. The
answers add up, and the record has the same plurals, each new one with the type of the last object
that brings it, or of the last one in the first call that does. So the types are the same just in
case no new plural comes in both calls with different types; and the first object decides everywhere
if no two objects have one plural and different types. -/
theorem registerTypes_append {later : Supply} {xs ys : List Object}
    {joint first apart : ServiceState Memory} {n n₁ n₂ : Nat} (hs : s.store.Reachable)
    (hlater : later.Sound) (hsound : app.envelope.Sound) (happ : app.Keyed)
    (h : (inMemory config background).registerTypes (some app) (xs ++ ys) s = (.ok n, joint))
    (h₁ : (inMemory config background).registerTypes (some app) xs s = (.ok n₁, first))
    (h₂ : (inMemory config background).registerTypes (some app) ys (first.withSupply later) =
      (.ok n₂, apart)) :
    let key := app.identifier.objectId
    let bringers := Registry.bringers s.registry.known app
    let old := (app.recordIn s.store).datatypes
    let together := (app.recordIn joint.store).datatypes
    let inTurn := (app.recordIn apart.store).datatypes
    n = n₁ + n₂ ∧
    (joint.store.get? app.partition key).isSome = (apart.store.get? app.partition key).isSome ∧
    (∀ k, together.contains k = inTurn.contains k) ∧
    (∀ k, together.get? k = (old.get? k).or ((bringers (xs ++ ys) k).getLast?.map Object.type)) ∧
    (∀ k, inTurn.get? k = (old.get? k).or
      (((bringers xs k).getLast?.or (bringers ys k).getLast?).map Object.type)) ∧
    (together = inTurn ↔ ∀ k, old.get? k = none → ∀ x y, (bringers xs k).getLast? = some x →
      (bringers ys k).getLast? = some y → x.type = y.type) ∧
    (Registry.Unambiguous (xs ++ ys) → ∀ k,
      together.get? k = (old.get? k).or ((bringers (xs ++ ys) k).head?.map Object.type) ∧
      inTurn.get? k = (old.get? k).or ((bringers (xs ++ ys) k).head?.map Object.type)) := by
  intro key bringers old together inTurn
  obtain ⟨hn, htogether, hjoint, -⟩ := registerTypes_ok config background hs.consistent happ h
  obtain ⟨hn₁, hfirst, hfirstStored, hknown⟩ :=
    registerTypes_ok config background hs.consistent happ h₁
  have hreachable : first.store.Reachable := by
    have heffect := (registerTypes_effect config background app xs s).1
    rw [h₁] at heffect
    exact Memory.reachable_recordsTypes hsound hs heffect
  obtain ⟨hn₂, hinTurn, hapart, -⟩ := registerTypes_ok config background
    (Memory.Reachable.wait hreachable hlater).consistent happ h₂
  have hknown' : (first.withSupply later).registry.known = s.registry.known := hknown
  have hfirst' : (app.recordIn (first.withSupply later).store).datatypes = _ := hfirst
  rw [hknown', hfirst'] at hn₂ hinTurn
  have htogether' : together = Registry.addedTogether s.registry.known app xs ys old := htogether
  have hinTurn' : inTurn = Registry.addedInTurn s.registry.known app xs ys old := hinTurn
  have hsum : n = n₁ + n₂ := by
    rw [hn, hn₁, hn₂, ← List.length_append]
    exact (Registry.missing_append_perm _ app xs ys _).length_eq
  rw [htogether', hinTurn']
  refine ⟨hsum, ?_, Registry.contains_addedInTurn _ app xs ys old,
    Registry.get?_addedTogether _ app xs ys old, Registry.get?_addedInTurn _ app xs ys old,
    Registry.addedTogether_eq_iff, fun h => h.get?_added _ app old⟩
  have hstored : ((first.withSupply later).store.get? app.partition key).isSome ↔ _ := hfirstStored
  have hnone : n₁ + n₂ ≠ 0 ↔ n₁ ≠ 0 ∨ n₂ ≠ 0 := by omega
  rw [Bool.eq_iff_iff, hjoint, hapart, hstored, or_assoc, hsum, hnone]

theorem registerTypes_append_shop :
    (shopState []).store.Reachable ∧ Supply.still.Sound ∧ App.shop.envelope.Sound ∧
      App.shop.Keyed ∧
      let svc := inMemory {} .queued
      let xs : List Object := [.ofType "box", .ofType "cat"]
      let ys : List Object := [.ofType "cat", .ofType "boxe", .ofType "owl"]
      ∃ joint first apart,
        svc.registerTypes (some .shop) (xs ++ ys) (shopState []) = (.ok 3, joint) ∧
        svc.registerTypes (some .shop) xs (shopState []) = (.ok 2, first) ∧
        svc.registerTypes (some .shop) ys (first.withSupply .still) = (.ok 1, apart) ∧
        ∀ k, (App.shop.recordIn joint.store).datatypes.contains k =
          (App.shop.recordIn apart.store).datatypes.contains k := by
  have hreachable : (shopState []).store.Reachable := (shopState_reachable []).store
  refine ⟨hreachable, Supply.sound_still, App.sound_shop, App.located_shop.keyed, ?_⟩
  intro svc xs ys
  obtain ⟨joint, h⟩ : ∃ t, svc.registerTypes (some .shop) (xs ++ ys) (shopState []) = (.ok 3, t) :=
    ⟨_, Prod.ext (by decide +kernel) rfl⟩
  have hfirst : (svc.registerTypes (some .shop) xs (shopState [])).1 = .ok 2 := by decide +kernel
  have h₁ : svc.registerTypes (some .shop) xs (shopState []) =
      (.ok 2, (svc.registerTypes (some .shop) xs (shopState [])).2) := Prod.ext hfirst rfl
  obtain ⟨apart, h₂⟩ : ∃ t, svc.registerTypes (some .shop) ys
      ((svc.registerTypes (some .shop) xs (shopState [])).2.withSupply .still) = (.ok 1, t) :=
    ⟨_, Prod.ext (by decide +kernel) rfl⟩
  exact ⟨joint, _, apart, h, h₁, h₂, (registerTypes_append {} .queued hreachable
    Supply.sound_still App.sound_shop App.located_shop.keyed h h₁ h₂).2.2.1⟩

/-- A box and a boxe have one plural. Registered together they leave the boxe, which came last, and
one after the other the box. -/
theorem registerTypes_boxes :
    let svc := inMemory {} .queued
    let joint := svc.registerTypes (some .shop) [.ofType "box", .ofType "boxe"] (shopState [])
    let first := svc.registerTypes (some .shop) [.ofType "box"] (shopState [])
    let apart := svc.registerTypes (some .shop) [.ofType "boxe"] (first.2.withSupply .still)
    joint.1 = .ok 1 ∧ first.1 = .ok 1 ∧ apart.1 = .ok 0 ∧
      (joint.2.store.get? ⟨"root"⟩ "app:shop").map Object.datatypes =
        some (.ofList [("boxes", "boxe")]) ∧
      (apart.2.store.get? ⟨"root"⟩ "app:shop").map Object.datatypes =
        some (.ofList [("boxes", "box")]) := by
  decide +kernel

end Service

end ObjectDepot
