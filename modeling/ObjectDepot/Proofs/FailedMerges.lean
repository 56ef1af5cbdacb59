import ObjectDepot.Proofs.FlatForm
import ObjectDepot.Proofs.ItemIsolation
import ObjectDepot.Proofs.LockedFields

/-! What a batch of merges leaves behind when it fails. If an object does not belong to the app
nothing has been done. If a merge fails the objects before it have been merged, and they stay so:
then nothing has changed just in case merging them changed nothing. -/

namespace ObjectDepot

namespace Object

variable {now : Int} {os : List Object} {stored after after' : Object}

theorem MergedInTurn.unique (h : MergedInTurn now os stored after)
    (h' : MergedInTurn now os stored after') : after = after' := by
  induction os generalizing stored with
  | nil => exact h.trans h'.symm
  | cons o os ih =>
    obtain ⟨merged, hmerge, hrest⟩ := h
    obtain ⟨merged', hmerge', hrest'⟩ := h'
    obtain rfl := Except.ok.inj (hmerge.symm.trans hmerge')
    exact ih hrest hrest'

theorem MergedInTurn.updated (hos : os ≠ []) (h : MergedInTurn now os stored after) :
    after.envelope.updated = some now := by
  induction os generalizing stored with
  | nil => exact absurd rfl hos
  | cons o os ih =>
    obtain ⟨merged, -, hrest⟩ := h
    cases os with
    | nil =>
      obtain rfl : after = merged.withUpdated (some now) := hrest
      rfl
    | cons x os => exact ih (List.cons_ne_nil x os) hrest

end Object

namespace Memory

variable {app : AppId} {now : Int} {p : Partition} {o : Object} {os : List Object}

theorem checkOwners_eq_error {e : StorageError} (h : checkOwners app os = .error e) :
    ∃ before o rest, os = before ++ o :: rest ∧ (∀ x ∈ before, x.appid = some app.text) ∧
      checkOwner app o = .error e := by
  induction os with
  | nil => cases h
  | cons o os ih =>
    rw [checkOwners] at h
    cases hcheck : checkOwner app o with
    | error e' =>
      rw [hcheck] at h
      obtain rfl := Except.error.inj h
      exact ⟨[], o, os, rfl, by simp, hcheck⟩
    | ok _ =>
      rw [hcheck] at h
      obtain ⟨before, x, rest, rfl, hbefore, hx⟩ := ih h
      exact ⟨o :: before, x, rest, rfl,
        List.forall_mem_cons.mpr ⟨checkOwner_eq_ok_iff.mp hcheck, hbefore⟩, hx⟩

/-- The objects of a batch that fails are those that were merged, the one that could not be, and
those behind it. -/
theorem mergeAll_eq_error {e : StorageError} (h : (mergeAll now p os).1.answer = .error e) :
    ∃ done o rest id stored cause, os = done ++ o :: rest ∧
      (mergeAll now p done).1.answer = .ok () ∧ o.id = some id ∧
      (mergeAll now p done).2.get? id = some stored ∧ stored.mergeFrom o = .error cause ∧
      e = .invalid cause ∧ (mergeAll now p os).2 = (mergeAll now p done).2 := by
  induction os generalizing p with
  | nil => cases h
  | cons o os ih =>
    cases htarget : o.id.bind p.get? with
    | none =>
      rw [mergeAll_cons_of_absent htarget] at h
      obtain ⟨done, x, rest, id, stored, cause, rfl, hdone, hid, hget, hmerge, he, hsame⟩ := ih h
      refine ⟨o :: done, x, rest, id, stored, cause, rfl, ?_, hid, ?_, hmerge, he, ?_⟩
      · rw [mergeAll_cons_of_absent htarget, hdone]
      · rw [mergeAll_cons_of_absent htarget, hget]
      · rw [mergeAll_cons_of_absent htarget, mergeAll_cons_of_absent htarget, hsame]
    | some target =>
      obtain ⟨key, hkey, hfound⟩ := Option.bind_eq_some_iff.mp htarget
      cases hm : target.mergeFrom o with
      | error cause =>
        rw [mergeAll_cons_of_error hkey hfound hm] at h
        obtain rfl := Except.error.inj h
        refine ⟨[], o, os, key, target, cause, rfl, rfl, hkey, hfound, hm, rfl, ?_⟩
        rw [mergeAll_cons_of_error hkey hfound hm, mergeAll]
      | ok merged =>
        rw [mergeAll_cons_of_ok hkey hfound hm] at h
        obtain ⟨done, x, rest, id, stored, cause, rfl, hdone, hid, hget, hmerge, he, hsame⟩ := ih h
        refine ⟨o :: done, x, rest, id, stored, cause, rfl, ?_, hid, ?_, hmerge, he, ?_⟩
        · rw [mergeAll_cons_of_ok hkey hfound hm, hdone]
        · rw [mergeAll_cons_of_ok hkey hfound hm, hget]
        · rw [mergeAll_cons_of_ok hkey hfound hm, mergeAll_cons_of_ok hkey hfound hm, hsame]

/-- If no merge fails, all objects that are stored are merged. -/
theorem mergedFrom_of_ok (h : (mergeAll now p os).1.answer = .ok ()) :
    mergedFrom now p os = os.filter (fun o => (o.id.bind p.get?).isSome) := by
  induction os generalizing p with
  | nil => rfl
  | cons o os ih =>
    cases htarget : o.id.bind p.get? with
    | none =>
      rw [mergeAll_cons_of_absent htarget] at h
      rw [mergedFrom_cons_of_absent htarget, ih h, List.filter_cons_of_neg (by simp [htarget])]
    | some target =>
      obtain ⟨key, hkey, hfound⟩ := Option.bind_eq_some_iff.mp htarget
      cases hm : target.mergeFrom o with
      | error cause =>
        rw [mergeAll_cons_of_error hkey hfound hm] at h
        cases h
      | ok merged =>
        rw [mergeAll_cons_of_ok hkey hfound hm] at h
        -- A merge puts an object where one stands, so the same identifiers are stored after it.
        have hstored (x : Object) :
            (x.id.bind (p.insert key (merged.withUpdated (some now))).get?).isSome =
              (x.id.bind p.get?).isSome := by
          cases x.id with
          | none => rfl
          | some id =>
            simp only [Option.bind_some, KeyMap.get?_insert]
            split
            · rename_i hid
              rw [hid, hfound]
              rfl
            · rfl
        rw [mergedFrom_cons_of_ok hkey hfound hm, ih h, List.filter_cons_of_pos (by simp [htarget])]
        simp only [hstored]

theorem get?_mergeAll_of_ok (h : (mergeAll now p os).1.answer = .ok ()) {id : String}
    {stored : Object} (hget : p.get? id = some stored) :
    ∃ after, (mergeAll now p os).2.get? id = some after ∧
      Object.MergedInTurn now (os.filter (fun o => o.id = some id)) stored after := by
  obtain ⟨after, hafter, hturn⟩ := get?_mergeAll_inTurn now os hget
  refine ⟨after, hafter, ?_⟩
  have hsame : (mergedFrom now p os).filter (fun o => o.id = some id) =
      os.filter (fun o => o.id = some id) := by
    rw [mergedFrom_of_ok h, List.filter_filter]
    refine List.filter_congr (fun o _ => ?_)
    by_cases hid : o.id = some id <;> simp [hid, hget]
  rwa [hsame] at hturn

/-- Merges change nothing just in case every stored object comes out of those into it as it was. -/
theorem mergeAll_unchanged_iff (h : (mergeAll now p os).1.answer = .ok ()) :
    (∀ id, (mergeAll now p os).2.get? id = p.get? id) ↔
      ∀ id stored, p.get? id = some stored →
        stored.MergedInTurn now (os.filter (fun o => o.id = some id)) stored := by
  constructor
  · intro hsame id stored hget
    obtain ⟨after, hafter, hturn⟩ := get?_mergeAll_of_ok h hget
    rw [hsame, hget] at hafter
    rwa [← Option.some.inj hafter] at hturn
  · intro hturns id
    cases hget : p.get? id with
    | none => exact (get?_mergeAll now p os id).1 hget
    | some stored =>
      obtain ⟨after, hafter, hturn⟩ := get?_mergeAll_of_ok h hget
      rw [hafter, hturn.unique (hturns id stored hget)]

/-- At a time at which no stored object was changed, merges change nothing just in case there is
nothing to merge into. -/
theorem mergedInTurn_unchanged_iff (hnow : ∀ id stored, p.get? id = some stored →
      stored.envelope.updated ≠ some now) :
    (∀ id stored, p.get? id = some stored →
        stored.MergedInTurn now (os.filter (fun o => o.id = some id)) stored) ↔
      ∀ o ∈ os, ∀ id, o.id = some id → p.get? id = none := by
  constructor
  · intro hturns o ho id hid
    cases hget : p.get? id with
    | none => rfl
    | some stored =>
      have hmem : o ∈ os.filter (fun o => o.id = some id) := List.mem_filter.mpr ⟨ho, by simp [hid]⟩
      exact absurd ((hturns id stored hget).updated (List.ne_nil_of_mem hmem)) (hnow id stored hget)
  · intro hnone id stored hget
    have hnil : os.filter (fun o => o.id = some id) = [] := by
      refine List.filter_eq_nil_iff.mpr (fun o ho hid => ?_)
      rw [hnone o ho id (of_decide_eq_true hid)] at hget
      cases hget
    rw [hnil]
    exact rfl

/-- Why a batch of merges fails, and which of its objects have been merged by then. -/
inductive FailsAfter (app : AppId) (m : Memory) : List Object → List Object → StorageError → Prop
  | foreign {before rest : List Object} {o : Object} {e : StorageError}
      (hbefore : ∀ x ∈ before, x.appid = some app.text) (h : checkOwner app o = .error e) :
      FailsAfter app m (before ++ o :: rest) [] e
  | unmergeable {done rest : List Object} {o : Object} {id : String} {stored : Object}
      {cause : ValidationError} (howners : ∀ x ∈ done ++ o :: rest, x.appid = some app.text)
      (hdone : (updateAll app done m).1.answer = .ok ()) (hid : o.id = some id)
      (hget : (updateAll app done m).2.get? app id = some stored)
      (h : stored.mergeFrom o = .error cause) :
      FailsAfter app m (done ++ o :: rest) done (.invalid cause)

/-- The same objects are stored. -/
def SameObjects (m m' : Memory) : Prop := ∀ app id, m'.get? app id = m.get? app id

theorem sameObjects_of_objects {m m' : Memory} (h : ∀ app, m'.objects app = m.objects app) :
    m.SameObjects m' := fun app id => by rw [get?, h, get?]

theorem objects_updateAll {done : List Object} (hdone : ∀ x ∈ done, x.appid = some app.text)
    (m : Memory) (other : AppId) :
    (updateAll app done m).2.objects other =
      if other = app then (mergeAll m.supply.now (m.objects app) done).2 else m.objects other := by
  obtain ⟨-, hobjects, -, hothers⟩ := updateAll_spec hdone m
  split
  · rename_i hother
    rw [hother, hobjects]
  · exact hothers other ‹_›

theorem updateAll_failsAfter {m : Memory} {e : StorageError}
    (h : (updateAll app os m).1.answer = .error e) :
    ∃ done, FailsAfter app m os done e ∧ (∀ x ∈ done, x.appid = some app.text) ∧
      (mergeAll m.supply.now (m.objects app) done).1.answer = .ok () ∧
      ∀ other, (updateAll app os m).2.objects other = (updateAll app done m).2.objects other := by
  cases howners : checkOwners app os with
  | error e' =>
    have hrun : updateAll app os m = (⟨.error e', os⟩, m) := by rw [updateAll, howners]
    have hnone : ∀ x ∈ ([] : List Object), x.appid = some app.text := by simp
    rw [hrun] at h ⊢
    obtain rfl := Except.error.inj h
    obtain ⟨before, o, rest, rfl, hbefore, ho⟩ := checkOwners_eq_error howners
    refine ⟨[], .foreign hbefore ho, hnone, rfl, fun other => ?_⟩
    rw [objects_updateAll hnone, mergeAll]
    split
    · rename_i hother
      rw [hother]
    · rfl
  | ok _ =>
    have hos := checkOwners_eq_ok_iff.mp howners
    rw [(updateAll_spec hos m).1] at h
    obtain ⟨done, o, rest, id, stored, cause, rfl, hanswer, hid, hget, hmerge, rfl, hsame⟩ :=
      mergeAll_eq_error h
    have hdone : ∀ x ∈ done, x.appid = some app.text := fun x hx => hos x (by simp [hx])
    refine ⟨done, .unmergeable hos ((updateAll_spec hdone m).1.trans hanswer) hid ?_ hmerge, hdone,
      hanswer, fun other => ?_⟩
    · rw [get?, objects_updateAll hdone, if_pos rfl, hget]
    · rw [objects_updateAll hos, objects_updateAll hdone, hsame]

/-- A batch of merges that fails leaves what those of its objects leave that were merged before. The
store is as it was just in case each stored object comes out of them as it was. Unless an object was
changed at the very time of the batch, this is so just in case none of them is stored. -/
theorem updateAll_failure {m : Memory} {e : StorageError}
    (h : (updateAll app os m).1.answer = .error e) :
    let after := (updateAll app os m).2
    ∃ done, FailsAfter app m os done e ∧ (updateAll app done m).2.SameObjects after ∧
      (m.SameObjects after ↔ ∀ id stored, m.get? app id = some stored →
        stored.MergedInTurn m.supply.now (done.filter (fun o => o.id = some id)) stored) ∧
      ((∀ id stored, m.get? app id = some stored → stored.envelope.updated ≠ some m.supply.now) →
        (m.SameObjects after ↔ ∀ o ∈ done, ∀ id, o.id = some id → m.get? app id = none)) := by
  intro after
  obtain ⟨done, hfails, hdone, hanswer, hobjects⟩ := updateAll_failsAfter h
  have hsame : m.SameObjects after ↔
      ∀ id, (mergeAll m.supply.now (m.objects app) done).2.get? id = (m.objects app).get? id := by
    constructor
    · intro hsame id
      have hget := hsame app id
      rwa [get?, hobjects, objects_updateAll hdone, if_pos rfl] at hget
    · intro hmerges other id
      rw [get?, hobjects, objects_updateAll hdone]
      split
      · rename_i hother
        rw [hmerges, hother]
        rfl
      · rfl
  have hturns := hsame.trans (mergeAll_unchanged_iff hanswer)
  exact ⟨done, hfails, sameObjects_of_objects hobjects, hturns, fun hnow =>
    hturns.trans (mergedInTurn_unchanged_iff hnow)⟩

/-- A name for the stored dog. -/
def dogName : Object :=
  ⟨{ id := some "d", type := "dog", appid := some "shop", name := some "R" }, ⟨none, .empty⟩⟩

/-- A value that the stored vote cannot hold. -/
def voteText : Object :=
  ⟨{ id := some "v", type := "dog", appid := some "shop" }, ⟨none, .ofList [("value", .str "x")]⟩⟩

theorem wellFormed_dogName : dogName.WellFormed := by
  have hmade : Object.ofFields (.ofList [("id", .str "d"), ("type", .str "dog"),
      ("appid", .str "shop"), ("name", .str "R")]) = .ok dogName := by rfl
  exact Object.wellFormed_ofFields hmade

theorem wellFormed_voteText : voteText.WellFormed := by
  have hmade : Object.ofFields (.ofList [("id", .str "v"), ("type", .str "dog"),
      ("appid", .str "shop"), ("value", .str "x")]) = .ok voteText := by rfl
  exact Object.wellFormed_ofFields hmade

theorem answer_updateAll_pets :
    (updateAll App.shop.identifier [dogName, voteText] Service.petState.store).1.answer =
      .error (.invalid (.invalidField "value" "invalid type: string \"x\", expected i64")) := by
  decide +kernel

theorem updateAll_failure_pets :
    let m := Service.petState.store
    let after := updateAll App.shop.identifier [dogName, voteText] m
    ∃ e, after.1.answer = .error e ∧
      (∀ id stored, m.get? App.shop.identifier id = some stored →
        stored.envelope.updated ≠ some m.supply.now) ∧
      ∃ done, FailsAfter App.shop.identifier m [dogName, voteText] done e ∧
        (updateAll App.shop.identifier done m).2.SameObjects after.2 ∧
        (m.SameObjects after.2 ↔
          ∀ o ∈ done, ∀ id, o.id = some id → m.get? App.shop.identifier id = none) := by
  intro m after
  have hnow : ∀ x ∈ (m.objects App.shop.identifier).values,
      x.envelope.updated ≠ some m.supply.now := by
    decide +kernel
  have hnow' (id : String) (stored : Object) (hget : m.get? App.shop.identifier id = some stored) :
      stored.envelope.updated ≠ some m.supply.now :=
    hnow stored (List.mem_map_of_mem (f := Prod.snd) (KeyMap.get?_eq_some_iff.mp hget))
  obtain ⟨done, hdone, hsame, -, hunchanged⟩ := updateAll_failure answer_updateAll_pets
  exact ⟨_, answer_updateAll_pets, hnow', done, hdone, hsame, hunchanged hnow'⟩

/-- The dog has got its name although the batch has failed. -/
theorem updateAll_failure_not_undone :
    let m := Service.petState.store
    let after := updateAll App.shop.identifier [dogName, voteText] m
    m.Reachable ∧ (∀ o ∈ [dogName, voteText], o.WellFormed) ∧
      after.1.answer =
        .error (.invalid (.invalidField "value" "invalid type: string \"x\", expected i64")) ∧
      (m.get? App.shop.identifier "d").bind (·.envelope.name) = none ∧
      (after.2.get? App.shop.identifier "d").bind (·.envelope.name) = some "R" := by
  refine ⟨(Service.shopState_reachable _).store, ?_, answer_updateAll_pets, by decide +kernel,
    by decide +kernel⟩
  simp only [List.forall_mem_cons, List.not_mem_nil, false_imp_iff, implies_true, and_true]
  exact ⟨wellFormed_dogName, wellFormed_voteText⟩

end Memory
end ObjectDepot
