import Mathlib.Data.List.Nodup
import ObjectDepot.Proofs.BatchCreates

/-! A batch of new objects is stored as a whole or not at all. The objects are judged in order: one
is refused if it does not belong to the app or if its identifier is taken, by what is stored or by
one before it. The first that is refused decides, and nothing of those before it is left. -/

namespace ObjectDepot

theorem Partition.Unclaimed.cons {p : Partition} {o x : Object} {os : List Object} {id : String}
    (hfree : p.get? id = none) (hid : ∀ given, o.givenId? = some given → given = id)
    (h : Partition.Unclaimed (p.insert id x) os) : p.Unclaimed (o :: os) := by
  have hother {o' : Object} (ho' : o' ∈ os) {given : String} (hgiven : o'.givenId? = some given) :
      given ≠ id ∧ p.get? given = none := by
    have hnone := h.free o' ho' given hgiven
    rw [KeyMap.get?_insert] at hnone
    split at hnone
    · cases hnone
    · exact ⟨‹_›, hnone⟩
  refine ⟨fun o' ho' given hgiven => ?_, List.pairwise_cons.mpr ⟨fun o' ho' given hgiven => ?_,
    h.apart⟩⟩
  · rcases List.mem_cons.mp ho' with rfl | ho'
    · rw [hid given hgiven]
      exact hfree
    · exact (hother ho' hgiven).2
  · intro hgiven'
    exact (hother ho' hgiven').1 (hid given hgiven)

namespace Memory

/-- Objects that a partition can take in: they belong to the app, and no identifier is taken. -/
structure Admitted (app : AppId) (p : Partition) (os : List Object) : Prop where
  owned : ∀ o ∈ os, o.appid = some app.text
  unclaimed : p.Unclaimed os

/-- Why an object is refused that comes after some that are not. -/
inductive Refused (app : AppId) (p : Partition) (before : List Object) (o : Object) :
    StorageError → Prop
  | foreign {e : StorageError} (h : checkOwner app o = .error e) : Refused app p before o e
  | taken {id : String} (howner : o.appid = some app.text) (hid : o.givenId? = some id)
      (h : p.get? id ≠ none ∨ IsGiven before id) :
      Refused app p before o (.alreadyExists app.text id)

variable {app : AppId} {p staged : Partition} {s : Supply} {o x : Object} {os : List Object}

theorem Admitted.cons {id : String} (howner : o.appid = some app.text) (hfree : p.get? id = none)
    (hid : ∀ given, o.givenId? = some given → given = id)
    (h : Admitted app (p.insert id x) os) : Admitted app p (o :: os) :=
  ⟨List.forall_mem_cons.mpr ⟨howner, h.owned⟩, h.unclaimed.cons hfree hid⟩

/-- What is refused because of what was put into the partition is refused because of the object
that put it there. -/
theorem Refused.cons {id : String} {o' : Object} {e : StorageError}
    (hid : o'.givenId? = some id → o.givenId? = some id) (h : Refused app (p.insert id x) os o' e) :
    Refused app p (o :: os) o' e := by
  cases h with
  | foreign h => exact .foreign h
  | @taken given howner hgiven htaken =>
    refine .taken howner hgiven ?_
    by_cases hsame : given = id
    · subst hsame
      exact .inr ⟨o, List.mem_cons_self, hid hgiven⟩
    · rw [KeyMap.get?_insert_of_ne _ _ hsame] at htaken
      refine htaken.imp_right ?_
      rintro ⟨x, hx, hxid⟩
      exact ⟨x, List.mem_cons_of_mem _ hx, hxid⟩

theorem answer_makeAllReady_of_taken (howner : o.appid = some app.text)
    (htaken : (p.extend staged).get? (assignedId s o).1 ≠ none) :
    (makeAllReady app p staged s (o :: os)).1.answer =
      .error (.alreadyExists app.text (assignedId s o).1) := by
  rw [makeAllReady, makeReady, checkOwner_eq_ok_iff.mpr howner]
  dsimp only
  split
  · rename_i hready
    split at hready
    · cases hready
      rfl
    · cases hready
  · rename_i hready
    split at hready
    · cases hready
    · rename_i hp
      cases hready
      rw [if_pos]
      rw [KeyMap.get?_extend] at htaken
      simp_all [KeyMap.contains, Option.ne_none_iff_isSome]

/-- A batch is made ready if all its objects are admitted. Otherwise the error is that of the first
one that is refused. -/
theorem makeAllReady_outcome (app : AppId) (hs : s.Fresh (p.extend staged) (IsGiven os)) :
    (Admitted app (p.extend staged) os ∧
      ∃ result, (makeAllReady app p staged s os).1.answer = .ok result) ∨
    ∃ e before o after, (makeAllReady app p staged s os).1.answer = .error e ∧
      os = before ++ o :: after ∧ Admitted app (p.extend staged) before ∧
      Refused app (p.extend staged) before o e := by
  have hnone {p : Partition} : Admitted app p [] := ⟨by simp, by simp, .nil⟩
  induction os generalizing s staged with
  | nil => exact .inl ⟨hnone, staged, rfl⟩
  | cons o os ih =>
    cases hcheck : checkOwner app o with
    | error e =>
      refine .inr ⟨e, [], o, os, ?_, rfl, hnone, .foreign hcheck⟩
      rw [makeAllReady, makeReady, hcheck]
    | ok _ =>
      have howner := checkOwner_eq_ok_iff.mp hcheck
      obtain ⟨-, -, hnew⟩ := assignedId_new hs
      by_cases hfree : (p.extend staged).get? (assignedId s o).1 = none
      · have hs' := fresh_insert (x := o.asNew (assignedId s o).1 s.now) hs
        have hgiven (given : String) (h : o.givenId? = some given) :
            given = (assignedId s o).1 := by
          rw [assignedId_given h]
        rw [makeAllReady_cons_of_free howner hfree]
        rw [← Partition.extend_insert] at hs'
        rcases ih hs' with ⟨hadmitted, hresult⟩ |
          ⟨e, before, o', after, he, rfl, hadmitted, hrefused⟩
        · rw [Partition.extend_insert] at hadmitted
          exact .inl ⟨hadmitted.cons howner hfree hgiven, hresult⟩
        · rw [Partition.extend_insert] at hadmitted hrefused
          refine .inr ⟨e, o :: before, o', after, he, rfl, hadmitted.cons howner hfree hgiven,
            hrefused.cons (fun ho' => ?_)⟩
          -- An identifier from the supply is not one that another object has.
          cases hid : o.givenId? with
          | some given => rw [hgiven given hid]
          | none => exact absurd ⟨o', by simp, ho'⟩ (hnew hid).2
      · cases hid : o.givenId? with
        | none => exact absurd (hnew hid).1 hfree
        | some id =>
          refine .inr ⟨_, [], o, os, answer_makeAllReady_of_taken howner hfree, rfl, hnone, ?_⟩
          rw [assignedId_given hid] at hfree ⊢
          exact .taken howner hid (.inl hfree)

theorem createAll_of_error {m : Memory} {e : StorageError}
    (h : (makeAllReady app (m.objects app) .empty m.supply os).1.answer = .error e) :
    (createAll app os m).1.answer = .error e ∧
      (createAll app os m).2.partitions = m.partitions := by
  unfold createAll
  simp only [h, and_self]

theorem map_id_of_storedAsNew {created : List Object}
    (h : List.Forall₂ (StoredAsNew s) os created) :
    created.map Object.id = (created.filterMap Object.id).map some := by
  induction h with
  | nil => rfl
  | @cons o x os xs hx _ ih =>
    obtain ⟨id, -, rfl⟩ := hx
    have hid : (o.asNew id s.now).id = some id := rfl
    rw [List.map_cons, List.filterMap_cons_some hid, List.map_cons, hid, ih]

/-- A batch of new objects is taken just in case all of them belong to the app and no identifier is
taken. Then the identifiers are given back in the order of the objects, and the partition gains what
has been written into the batch. Otherwise nothing is stored, and the error is that of the first
object that is refused. -/
theorem createAll_all_or_nothing {m : Memory} (app : AppId) (os : List Object)
    (hfresh : m.supply.Fresh (m.objects app) (IsGiven os)) :
    let after := createAll app os m
    ((∃ ids, after.1.answer = .ok ids) ↔ Admitted app (m.objects app) os) ∧
    (∀ ids, after.1.answer = .ok ids →
      after.1.left.map Object.id = ids.map some ∧ ids.Nodup ∧
      List.Forall₂ (StoredAsNew m.supply) os after.1.left ∧
      (m.objects app).Gains after.1.left (after.2.objects app) ∧
      ∀ other, other ≠ app → after.2.objects other = m.objects other) ∧
    ∀ e, after.1.answer = .error e →
      after.2.partitions = m.partitions ∧
      ∃ before o rest, os = before ++ o :: rest ∧ Admitted app (m.objects app) before ∧
        Refused app (m.objects app) before o e := by
  intro after
  have hadmits (h : Admitted app (m.objects app) os) :
      ∃ created, after.1 = ⟨.ok (created.filterMap Object.id), created⟩ ∧
        List.Forall₂ (StoredAsNew m.supply) os created ∧
        (m.objects app).Gains created (after.2.objects app) :=
    createAll_of_unclaimed h.owned hfresh h.unclaimed
  have hempty : (m.objects app).extend .empty = m.objects app := rfl
  rw [← hempty] at hfresh
  have houtcome := makeAllReady_outcome app hfresh
  rw [hempty] at houtcome
  rcases houtcome with ⟨hadmitted, -⟩ | ⟨e, before, o, rest, he, hos, hbefore, hrefused⟩
  · obtain ⟨created, hafter, hcreated, hgains⟩ := hadmits hadmitted
    rw [hafter]
    refine ⟨iff_of_true ⟨_, rfl⟩ hadmitted, fun ids hids => ?_, fun e he => by cases he⟩
    obtain rfl := Except.ok.inj hids
    have hids := map_id_of_storedAsNew hcreated
    refine ⟨hids, ?_, hcreated, hgains, fun other hother => ?_⟩
    · have hnodup := hgains.nodup
      rw [hids] at hnodup
      exact List.Nodup.of_map some hnodup
    · exact Write.objects_run (w := .createAll app os) hother
  · obtain ⟨hanswer, hkept⟩ := createAll_of_error he
    have hanswer' : after.1.answer = .error e := hanswer
    refine ⟨iff_of_false ?_ (fun h => ?_), fun ids hids => ?_, fun e' he' => ?_⟩
    · rintro ⟨ids, hids⟩
      rw [hanswer'] at hids
      cases hids
    · obtain ⟨created, hafter, -⟩ := hadmits h
      rw [hafter] at hanswer'
      cases hanswer'
    · rw [hanswer'] at hids
      cases hids
    · obtain rfl := Except.error.inj (hanswer'.symm.trans he')
      exact ⟨hkept, before, o, rest, hos, hbefore, hrefused⟩

def shopDog (id : Option String) : Object := App.shop.adopt ((Object.ofType "dog").withId id)

/-- Two dogs of which one has an identifier, and one more under the identifier of a stored dog. -/
def litter : List Object := [shopDog (some "c"), shopDog none, shopDog (some "d")]

theorem fresh_litter (n : Nat) :
    Service.dogState.store.supply.Fresh (Service.dogState.store.objects App.shop.identifier)
      (IsGiven (litter.take n)) := by
  have hkeys : (Service.dogState.store.objects App.shop.identifier).keys = ["d"] := by
    decide +kernel
  have hheads : ∀ id ∈ litter.filterMap Object.givenId?, id.toList.head? ≠ some 'x' := by
    decide +kernel
  refine Service.fresh_growing (by rw [hkeys]; decide +kernel) ?_
  rintro id ⟨o, ho, hid⟩
  exact hheads id (List.mem_filterMap.mpr ⟨o, List.mem_of_mem_take ho, hid⟩)

theorem createAll_all_or_nothing_litter :
    let m := Service.dogState.store
    let shop := App.shop.identifier
    let made := createAll shop (litter.take 2) m
    let failed := createAll shop litter m
    m.supply.Fresh (m.objects shop) (IsGiven (litter.take 2)) ∧ made.1.answer = .ok ["c", "x"] ∧
      (m.objects shop).Gains made.1.left (made.2.objects shop) ∧
      m.supply.Fresh (m.objects shop) (IsGiven litter) ∧
      failed.1.answer = .error (.alreadyExists "shop" "d") ∧
      failed.2.partitions = m.partitions := by
  intro m shop made failed
  have hmade : made.1.answer = .ok ["c", "x"] := by decide +kernel
  have hfailed : failed.1.answer = .error (.alreadyExists "shop" "d") := by decide +kernel
  obtain ⟨-, hgains, -⟩ := createAll_all_or_nothing shop _ (fresh_litter 2)
  obtain ⟨-, -, hkept⟩ := createAll_all_or_nothing shop litter (fresh_litter 3)
  exact ⟨fresh_litter 2, hmade, (hgains _ hmade).2.2.2.1, fresh_litter 3, hfailed,
    (hkept _ hfailed).1⟩

end Memory
end ObjectDepot
