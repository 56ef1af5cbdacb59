import ObjectDepot.Proofs.AllOrNothing
import ObjectDepot.Proofs.FailedMerges
import ObjectDepot.Proofs.UpdateLoops

/-! The batch operations of the storage in memory against the ones that every storage with single
operations has: loops over these. A batch of new objects is staged beside the partition while the
loop puts each into it, so that the two find the same identifiers taken; they differ in what a batch
leaves that fails. -/

namespace ObjectDepot

namespace SingleStorage

variable {σ : Type} {s : SingleStorage σ} {app : AppId} {o x : Object} {os : List Object} {st st' : σ}

theorem createEach_cons_of_ok {id : String} (h : s.create app o st = (⟨.ok id, x⟩, st')) :
    s.createEach app (o :: os) st =
      (⟨(s.createEach app os st').1.answer.map (id :: ·), x :: (s.createEach app os st').1.left⟩,
        (s.createEach app os st').2) := bind_at h

theorem createEach_cons_of_error {e : StorageError} (h : s.create app o st = (⟨.error e, x⟩, st')) :
    s.createEach app (o :: os) st = (⟨.error e, x :: os⟩, st') := bind_at h

theorem readEach_cons {id : String} {found : Option Object} {ids : List String}
    (h : s.read app id st = (.ok found, st')) :
    s.readEach app (id :: ids) st =
      ((s.readEach app ids st').1.map (found.toList ++ ·), (s.readEach app ids st').2) := bind_at h

theorem deleteEach_cons (h : s.delete app o st = (.ok (), st')) :
    s.deleteEach app (o :: os) st = s.deleteEach app os st' := bind_at h

end SingleStorage

namespace Memory

variable {app : AppId} {o : Object} {os : List Object} {m : Memory}

theorem readEach_eq (app : AppId) (ids : List String) (m : Memory) :
    singles.readEach app ids m = (.ok (ids.filterMap (m.get? app)), m) := by
  induction ids with
  | nil => rfl
  | cons id ids ih =>
    have hread : singles.read app id m = (.ok (m.get? app id), m) := rfl
    rw [SingleStorage.readEach_cons hread, ih, List.filterMap_cons]
    cases m.get? app id <;> rfl

theorem deleteEach_eq (app : AppId) (os : List Object) (m : Memory) :
    singles.deleteEach app os m = (.ok (), m.remove app (os.filterMap Object.id)) := by
  induction os generalizing m with
  | nil => exact congrArg (Prod.mk _) (remove_nil m app).symm
  | cons o os ih =>
    have hdelete : singles.delete app o m = (.ok (), m.remove app o.id.toList) := rfl
    rw [SingleStorage.deleteEach_cons hdelete, ih, remove_remove, List.filterMap_cons]
    cases o.id <;> rfl

theorem create_eq_error_of_taken (howner : o.appid = some app.text)
    (htaken : m.get? app (assignedId m.supply o).1 ≠ none) :
    create app o m = (⟨.error (.alreadyExists app.text (assignedId m.supply o).1), o⟩,
      { m with supply := (assignedId m.supply o).2 }) := by
  have hcontains : (m.objects app).contains (assignedId m.supply o).1 = true :=
    Option.isSome_iff_ne_none.mpr htaken
  rw [create, makeReady, checkOwner_eq_ok_iff.mpr howner]
  simp only [hcontains, if_true]

/-- What a storage is with one new object more. -/
def withNew (m : Memory) (app : AppId) (o : Object) : Memory :=
  ({ m with supply := (assignedId m.supply o).2 } : Memory).put app (assignedId m.supply o).1
    (o.asNew (assignedId m.supply o).1 m.supply.now)

theorem create_eq_withNew (howner : o.appid = some app.text)
    (hfree : m.get? app (assignedId m.supply o).1 = none) :
    singles.create app o m =
      (⟨.ok (assignedId m.supply o).1, o.asNew (assignedId m.supply o).1 m.supply.now⟩,
        m.withNew app o) := create_of_free howner hfree

theorem objects_withNew (m : Memory) (app : AppId) (o : Object) :
    (m.withNew app o).objects app = (m.objects app).insert (assignedId m.supply o).1
      (o.asNew (assignedId m.supply o).1 m.supply.now) := by
  rw [withNew, put, objects_withPartition, if_pos rfl]
  rfl

theorem withPartition_withNew (m : Memory) (app : AppId) (o : Object) (supply : Supply)
    (p : Partition) :
    ({ m.withNew app o with supply := supply } : Memory).withPartition app p =
      ({ m with supply := supply } : Memory).withPartition app p := by
  simp only [withNew, put, withPartition, KeyMap.insert_insert]

/-- The loop goes on as long as the batch is made ready, with what is staged put into the partition,
and it fails where the batch does. -/
theorem createEach_of_staged (os : List Object) {p staged : Partition} (hm : m.objects app = p.extend staged) :
    let made := makeAllReady app p staged m.supply os
    let loop := singles.createEach app os m
    loop.1.answer = made.1.answer.map (fun _ => made.1.left.filterMap Object.id) ∧
      ∀ result, made.1.answer = .ok result →
        loop.1.left = made.1.left ∧
          loop.2 = if os = [] then m
            else ({ m with supply := made.2 } : Memory).withPartition app (p.extend result) := by
  induction os generalizing m staged with
  | nil => exact ⟨rfl, fun result _ => ⟨rfl, rfl⟩⟩
  | cons o os ih =>
    have hgets (id : String) : m.get? app id = (p.extend staged).get? id := by rw [get?, hm]
    dsimp only
    cases hcheck : checkOwner app o with
    | error e =>
      have hcreate : singles.create app o m = (⟨.error e, o⟩, m) := create_of_foreign hcheck
      rw [SingleStorage.createEach_cons_of_error hcreate, makeAllReady, makeReady, hcheck]
      exact ⟨rfl, by rintro result ⟨⟩⟩
    | ok _ =>
      have howner := checkOwner_eq_ok_iff.mp hcheck
      by_cases hfree : (p.extend staged).get? (assignedId m.supply o).1 = none
      · have hcreate := create_eq_withNew howner ((hgets _).trans hfree)
        have hnew := objects_withNew m app o
        rw [hm, ← Partition.extend_insert] at hnew
        obtain ⟨hanswer, hrest⟩ := ih hnew
        have hsupply : (m.withNew app o).supply = (assignedId m.supply o).2 := rfl
        rw [hsupply] at hanswer hrest
        rw [makeAllReady_cons_of_free howner hfree, SingleStorage.createEach_cons_of_ok hcreate]
        refine ⟨?_, fun result hresult => ?_⟩
        · dsimp only
          rw [hanswer]
          cases (makeAllReady app p _ _ os).1.answer <;> rfl
        · obtain ⟨hleft, hmemory⟩ := hrest result hresult
          rw [hleft, hmemory, withPartition_withNew, if_neg (List.cons_ne_nil o os)]
          refine ⟨rfl, ?_⟩
          split
          · rename_i hnil
            subst hnil
            obtain rfl := Except.ok.inj hresult
            rw [Partition.extend_insert, ← hm]
            rfl
          · rfl
      · have hmade : (makeAllReady app p staged m.supply (o :: os)).1.answer = _ :=
          answer_makeAllReady_of_taken howner hfree
        have hcreate : singles.create app o m = _ :=
          create_eq_error_of_taken howner (fun h => hfree ((hgets _).symm.trans h))
        rw [SingleStorage.createEach_cons_of_error hcreate, hmade]
        exact ⟨rfl, by rintro result ⟨⟩⟩

theorem createAll_of_ok {result : Partition}
    (h : (makeAllReady app (m.objects app) .empty m.supply os).1.answer = .ok result) :
    let made := makeAllReady app (m.objects app) .empty m.supply os
    createAll app os m = (⟨.ok (made.1.left.filterMap Object.id), made.1.left⟩,
      ({ m with supply := made.2 } : Memory).withPartition app ((m.objects app).extend result)) := by
  simp only [createAll, h]
  rfl

/-- A batch of new objects is answered like the loop. If it succeeds it leaves the same, but that the
batch makes the partition even if it is to hold nothing. -/
theorem createAll_agrees (app : AppId) (os : List Object) (m : Memory) :
    let batch := createAll app os m
    let loop := singles.createEach app os m
    batch.1.answer = loop.1.answer ∧
      ∀ ids, batch.1.answer = .ok ids → batch.1 = loop.1 ∧
        batch.2 = if os = [] then m.withPartition app (m.objects app) else loop.2 := by
  have hempty : m.objects app = (m.objects app).extend .empty := rfl
  obtain ⟨hanswer, hrest⟩ := createEach_of_staged os hempty
  dsimp only at hanswer hrest ⊢
  cases hmade : (makeAllReady app (m.objects app) .empty m.supply os).1.answer with
  | error e =>
    have hbatch := (createAll_of_error hmade).1
    rw [hmade] at hanswer
    rw [hbatch, hanswer]
    exact ⟨rfl, by rintro ids ⟨⟩⟩
  | ok result =>
    obtain ⟨hleft, hmemory⟩ := hrest result hmade
    rw [hmade] at hanswer
    rw [createAll_of_ok hmade]
    refine ⟨hanswer.symm, fun ids _ => ⟨?_, ?_⟩⟩
    · rcases hloop : (singles.createEach app os m).1 with ⟨answer, left⟩
      rw [hloop] at hanswer hleft
      obtain rfl : answer = _ := hanswer
      obtain rfl : left = _ := hleft
      rfl
    · rw [hmemory]
      split
      · rename_i hnil
        subst hnil
        obtain rfl := Except.ok.inj hmade
        rfl
      · rfl

/-- The four batch operations against the loops, on any storage whose objects can be. Reading and
deleting are the same. Creating has the same answer, and leaves the same if it succeeds. Updating,
with objects that are linked to the app and carry no time of creation, is the same while the clock
stands still; if the clock goes on from one operation of the loop to the next, then the answers are
the same, also when they are errors, and all objects are but for the times of change. -/
theorem batches_as_loops {m : Memory} (hm : m.Holds Object.Sound) (hnow : IsInt64 m.supply.now)
    (app : AppId) :
    let loops := singles.toStorage
    (∀ ids inOrder, storage.readAll app ids inOrder m = loops.readAll app ids inOrder m) ∧
    (∀ os, storage.deleteAll app os m = loops.deleteAll app os m) ∧
    (∀ os, let batch := storage.createAll app os m
      let loop := loops.createAll app os m
      batch.1.answer = loop.1.answer ∧ ∀ ids, batch.1.answer = .ok ids →
        batch.1 = loop.1 ∧ (os ≠ [] → batch.2 = loop.2) ∧
          ∀ owner, batch.2.objects owner = loop.2.objects owner) ∧
    ∀ os, (∀ o ∈ os, o.TimelessFor app) →
      storage.updateAll app os m = loops.updateAll app os m ∧
      ∀ clock n, (∀ n, IsInt64 (clock n)) →
        let batch := storage.updateAll app os m
        let loop := (ticking clock).toStorage.updateAll app os (m, n)
        loop.1.answer = batch.1.answer ∧ List.Forall₂ Object.Alike batch.1.left loop.1.left ∧
          batch.2.Alike loop.2.1 := by
  refine ⟨fun ids _ => (readEach_eq app ids m).symm, fun os => (deleteEach_eq app os m).symm,
    fun os => ?_, fun os hos => ⟨(updateEach_eq hm hnow hos).symm, fun clock n hclock =>
      updateAll_alike_ticking hm hnow hclock hos n⟩⟩
  obtain ⟨hanswer, hrest⟩ := createAll_agrees app os m
  refine ⟨hanswer, fun ids hids => ?_⟩
  obtain ⟨hwritten, hmemory⟩ := hrest ids hids
  refine ⟨hwritten, fun hne => hmemory.trans (if_neg hne), fun owner => ?_⟩
  have hstore : (storage.createAll app os m).2 = _ := hmemory
  rw [hstore]
  split
  · rename_i hnil
    rw [hnil, objects_withPartition]
    split
    · rename_i howner
      rw [howner]
      rfl
    · rfl
  · rfl

/-- A batch of two, of which the second cannot be merged, and the loop while a minute goes round. -/
theorem batches_as_loops_pets :
    let m := Service.petState.store
    let shop := App.shop.identifier
    let os := [dogName, voteText]
    let clock (n : Nat) : Int := (n % 60 : Nat)
    let loop := (ticking clock).toStorage.updateAll shop os (m, 0)
    m.Holds Object.Sound ∧ IsInt64 m.supply.now ∧ (∀ o ∈ os, o.TimelessFor shop) ∧
      (∀ n, IsInt64 (clock n)) ∧
      (storage.createAll shop [shopDog none] m).1.answer = .ok ["new"] ∧
      (storage.createAll shop [shopDog none] m).2 =
        (singles.toStorage.createAll shop [shopDog none] m).2 ∧
      storage.updateAll shop os m = singles.toStorage.updateAll shop os m ∧
      loop.1.answer =
        .error (.invalid (.invalidField "value" "invalid type: string \"x\", expected i64")) ∧
      (storage.updateAll shop os m).2.Alike loop.2.1 := by
  intro m shop os clock loop
  have hm : m.Consistent := (Service.shopState_reachable _).store.consistent
  have hsound : m.Holds Object.Sound := fun owner id o ho => (hm.partitions owner id o ho).sound
  have hos : ∀ o ∈ os, o.TimelessFor shop := by
    simp only [os, List.forall_mem_cons, List.not_mem_nil, false_imp_iff, implies_true, and_true]
    exact ⟨wellFormed_dogName.timelessFor rfl rfl, wellFormed_voteText.timelessFor rfl rfl⟩
  have hclock (n : Nat) : IsInt64 (clock n) := by
    have htime : clock n = ((n % 60 : Nat) : Int) := rfl
    have hpow : Nat.pow 2 63 = 9223372036854775808 := rfl
    rw [IsInt64, htime, hpow]
    omega
  obtain ⟨-, -, hcreates, hupdates⟩ := batches_as_loops hsound hm.supply.now shop
  have hcreated : (storage.createAll shop [shopDog none] m).1.answer = .ok ["new"] := by
    decide +kernel
  obtain ⟨hexact, hlate⟩ := hupdates os hos
  obtain ⟨hanswer, -, halike⟩ := hlate clock 0 hclock
  exact ⟨hsound, hm.supply.now, hos, hclock, hcreated,
    ((hcreates [shopDog none]).2 _ hcreated).2.1 (List.cons_ne_nil _ _), hexact,
    hanswer.trans answer_updateAll_pets, halike⟩

end Memory

end ObjectDepot
