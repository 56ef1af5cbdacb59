import ObjectDepot.Proofs.Effects

/-! Where objects stand. Whatever is done to a storage and with whatever objects, each one stands
under its own identifier, which is not blank, and in the partition of the app it names. So no object
is created under a blank identifier, and the failure that reports one is never given. -/

namespace ObjectDepot

/-- An operation of the storage, with what it is given. -/
inductive Operation where
  | write (w : Write)
  | read (app : AppId) (id : String)
  | readAll (app : AppId) (ids : List String) (inOrder : Bool)

def Operation.run (m : Memory) : Operation → Memory
  | write w => w.run m
  | read app id => (Memory.read app id m).2
  | readAll app ids inOrder => (Memory.readAll app ids inOrder m).2

namespace Memory

/-- Operations one after the other, each with a supply of its own. -/
def runAll : List (Supply × Operation) → Memory → Memory
  | [], m => m
  | (supply, operation) :: rest, m => runAll rest (operation.run { m with supply := supply })

structure WellNamed (m : Memory) : Prop where
  supply : m.supply.NeverBlank
  objects : ∀ app id o, m.get? app id = some o → o.StoredUnder app id

theorem wellNamed_ofSupply {supply : Supply} (h : supply.NeverBlank) : (ofSupply supply).WellNamed :=
  ⟨h, fun app id o ho => by cases ho⟩

theorem WellNamed.write {m : Memory} (hm : m.WellNamed) (w : Write) : (w.run m).WellNamed := by
  refine ⟨?_, fun app id o ho => ?_⟩
  · rw [Supply.NeverBlank, (w.supply_run m).1]
    exact hm.supply
  · by_cases happ : app = w.app
    · subst happ
      exact (w.changes_run m id).storedUnder hm.supply (hm.objects w.app id) o ho
    · rw [get?, Write.objects_run happ] at ho
      exact hm.objects app id o ho

theorem WellNamed.run {m : Memory} (hm : m.WellNamed) (operation : Operation) :
    (operation.run m).WellNamed := by
  cases operation with
  | write w => exact hm.write w
  | read app id => exact hm
  | readAll app ids inOrder => exact hm

theorem WellNamed.runAll {m : Memory} (hm : m.WellNamed) {steps : List (Supply × Operation)}
    (hsteps : ∀ r ∈ steps, r.1.NeverBlank) : (runAll steps m).WellNamed := by
  induction steps generalizing m with
  | nil => exact hm
  | cons r steps ih =>
    have hwait : ({ m with supply := r.1 } : Memory).WellNamed :=
      ⟨hsteps r List.mem_cons_self, hm.objects⟩
    exact ih (hwait.run r.2) (fun x hx => hsteps x (List.mem_cons_of_mem _ hx))

theorem WellNamed.recordsTypes {m m' : Memory} (hm : m.WellNamed) {app : App} {os : List Object}
    (h : RecordsTypes app os m m') : m'.WellNamed := by
  rcases h.writes with rfl | ⟨w, -, -, rfl, -⟩
  · exact hm
  · exact hm.write w

theorem not_isBlank_of_create {m : Memory} (hm : m.supply.NeverBlank) {app : AppId} {o : Object}
    {id : String} (h : (create app o m).1.answer = .ok id) : Text.isBlank id = false := by
  unfold create at h
  rcases hr : makeReady app (m.objects app) m.supply o with ⟨⟨answer, left⟩, s⟩
  rw [hr] at h
  cases answer with
  | error e => cases h
  | ok key =>
    cases h
    exact Object.not_isBlank_of_mayGet hm (mayGet_of_makeReady hr)

theorem not_invalid_of_checkOwner {app : AppId} {o : Object} {e : StorageError}
    (h : checkOwner app o = .error e) (cause : ValidationError) : e ≠ .invalid cause := by
  rintro rfl
  unfold checkOwner at h
  split at h
  · split at h
    · cases h
    · split at h <;> cases h
  · cases h

theorem not_invalid_of_create {m : Memory} {app : AppId} {o : Object} {e : StorageError}
    (h : (create app o m).1.answer = .error e) (cause : ValidationError) : e ≠ .invalid cause := by
  unfold create at h
  rcases hr : makeReady app (m.objects app) m.supply o with ⟨⟨answer, left⟩, s⟩
  rw [hr] at h
  cases answer with
  | ok key => cases h
  | error e' =>
    cases h
    unfold makeReady at hr
    cases ho : checkOwner app o with
    | error e' =>
      rw [ho] at hr
      cases hr
      exact not_invalid_of_checkOwner ho cause
    | ok _ =>
      rw [ho] at hr
      dsimp only at hr
      split at hr
      · cases hr
        simp
      · cases hr

end Memory

/-! ### The failure of a create that gets no identifier -/

/-- Texts that begin like no report of a failed create. -/
def BeginsOtherwise (text : String) : Prop := ∃ c, c ≠ 'F' ∧ text.toList.head? = some c

theorem BeginsOtherwise.append {a : String} (h : BeginsOtherwise a) (b : String) :
    BeginsOtherwise (a ++ b) := by
  obtain ⟨c, hc, ha⟩ := h
  exact ⟨c, hc, by rw [String.toList_append, List.head?_append, ha, Option.some_or]⟩

namespace Failure

def notCreated : Failure := badRequest ["Failed to create object."]

/-- A failure with other causes than that nothing was created. -/
def Otherwise (f : Failure) : Prop :=
  ∀ messages, f = badRequest messages → ∀ text ∈ messages, BeginsOtherwise text

theorem Otherwise.ne_notCreated {f : Failure} (h : f.Otherwise) : f ≠ notCreated := by
  rintro rfl
  obtain ⟨c, hc, hhead⟩ := h _ rfl _ List.mem_cons_self
  have hf : "Failed to create object.".toList.head? = some 'F' := rfl
  exact hc (Option.some.inj (hhead.symm.trans hf))

theorem otherwise_badRequest {text : String} (h : BeginsOtherwise text) :
    (badRequest [text]).Otherwise := by
  rintro messages ⟨⟩ x hx
  exact List.mem_singleton.mp hx ▸ h

theorem otherwise_ofValidation {e : ValidationError} (h : ∀ messages, e ≠ .invalidObject messages) :
    (ofValidation e).Otherwise := by
  cases e with
  | missingType field =>
    exact otherwise_badRequest (.append (.append ⟨_, by decide, rfl⟩ _) _)
  | unknownType text => exact otherwise_badRequest ⟨_, by decide, rfl⟩
  | invalidField field message =>
    exact otherwise_badRequest (.append (.append ⟨_, by decide, rfl⟩ _) _)
  | invalidObject messages => exact absurd rfl (h messages)

theorem otherwise_ofStorage {e : StorageError} (h : ∀ cause, e ≠ .invalid cause) :
    (ofStorage e).Otherwise := by
  cases e with
  | alreadyExists app id => exact otherwise_badRequest (.append (.append ⟨_, by decide, rfl⟩ _) _)
  | missingTenant id => exact otherwise_badRequest ⟨_, by decide, rfl⟩
  | invalidTenant app => exact otherwise_badRequest ⟨_, by decide, rfl⟩
  | invalid cause => exact absurd rfl (h cause)
  | _ => rintro messages ⟨⟩

end Failure

theorem Json.Fault.beginsOtherwise (fault : Json.Fault) : BeginsOtherwise fault.message := by
  cases fault with
  | wrongKind value wanted =>
    exact .append (.append (.append ⟨_, by decide, rfl⟩ _) _) _
  | _ => exact ⟨_, by decide, rfl⟩

theorem RequestBody.otherwise_readObject {max : Nat} {body : RequestBody} {f : Failure}
    (h : RequestBody.readObject max body = .error f) : f.Otherwise := by
  unfold readObject read at h
  split at h
  · cases h
    rintro messages ⟨⟩
  · split at h
    · cases h
      exact Failure.otherwise_badRequest ⟨_, by decide, rfl⟩
    · split at h
      · cases h
        exact Failure.otherwise_badRequest (.append (.append ⟨_, by decide, rfl⟩ _) _)
      · rename_i bytes _ _ _
        cases hread : Json.readObject bytes with
        | ok fields => simp [hread, mapError_ok] at h
        | error e =>
          rw [hread] at h
          cases h
          exact Failure.otherwise_badRequest
            (.append (.append (.append (.append e.fault.beginsOtherwise _) _) _) _)

theorem Object.not_invalidObject_of_ofFields {fields : FieldMap} {e : ValidationError}
    (h : Object.ofFields fields = .error e) (messages : List String) :
    e ≠ .invalidObject messages := by
  rintro rfl
  unfold ofFields at h
  cases ht : typeOf fields with
  | error e =>
    rw [ht] at h
    cases h
    unfold typeOf at ht
    split at ht
    · cases ht
    · cases ht
    · split at ht
      · cases ht
      · split at ht <;> cases ht
    · cases ht
  | ok type =>
    rw [ht] at h
    simp only [bind, Except.bind] at h
    cases hlay : (ofType type).overlay (fields.erase "type") with
    | error fault =>
      rw [hlay] at h
      cases h
    | ok o =>
      rw [hlay] at h
      cases h

theorem Constraint.beginsOtherwise {field : String} {value : Json} {c : Constraint} {text : String}
    (h : c.violation? field value = some text) : BeginsOtherwise text := by
  unfold Constraint.violation? at h
  dsimp only at h
  split at h <;> first | cases h | skip
  all_goals
    split at h
    · cases h
    · obtain rfl := Option.some.inj h
      exact .append (.append (.append ⟨_, by decide, rfl⟩ _) _) _

theorem FieldSpec.beginsOtherwise_violations {f : FieldSpec} {fields : FieldMap} {text : String}
    (h : text ∈ f.violations fields) : BeginsOtherwise text := by
  unfold violations at h
  split at h
  · obtain ⟨c, -, hc⟩ := List.mem_filterMap.mp h
    exact Constraint.beginsOtherwise hc
  · split at h
    · obtain rfl := List.mem_singleton.mp h
      exact .append (.append ⟨_, by decide, rfl⟩ _) _
    · cases h

theorem Object.beginsOtherwise_violations {o : Object} {text : String} (h : text ∈ o.violations) :
    BeginsOtherwise text := by
  rcases List.mem_append.mp h with h | h
  · unfold typeViolations at h
    split at h
    · obtain rfl := List.mem_singleton.mp h
      exact ⟨_, by decide, rfl⟩
    · split at h
      · cases h
      · obtain rfl := List.mem_singleton.mp h
        exact ⟨_, by decide, rfl⟩
  · obtain ⟨f, -, hf⟩ := List.mem_flatMap.mp h
    exact FieldSpec.beginsOtherwise_violations hf

namespace Service

variable (config : Config) (background : Background)

theorem otherwise_draft {σ : Type} {svc : Service σ} {app : App} {hint : Option String}
    {body : RequestBody} {f : Failure} (h : svc.draft app hint body = .error f) : f.Otherwise := by
  unfold draft at h
  cases hread : RequestBody.readObject svc.config.maxEntitySize body with
  | error f =>
    rw [hread] at h
    cases h
    exact RequestBody.otherwise_readObject hread
  | ok fields =>
    rw [hread] at h
    simp only [Except.bind] at h
    have hread {fields : FieldMap} (h : ((svc.names.toObject fields).mapError
        Failure.ofValidation).map app.adopt = .error f) : f.Otherwise := by
      cases ho : svc.names.toObject fields with
      | ok o =>
        rw [ho] at h
        cases h
      | error e =>
        rw [ho] at h
        cases h
        exact Failure.otherwise_ofValidation (Object.not_invalidObject_of_ofFields ho)
    exact hread h

theorem create_ne_notCreated (app : App) (hint : Option String) (body : RequestBody)
    {s : ServiceState Memory} (hs : s.store.WellNamed) :
    (((inMemory config background).create app hint body).on s).1 ≠ .error .notCreated := by
  rw [create_on]
  cases hdraft : (inMemory config background).draft app hint body with
  | error f =>
    intro h
    exact (otherwise_draft hdraft).ne_notCreated (Except.error.inj h)
  | ok o =>
    have hrecords := (registerTypes_effect config background app [o] s).1
    have hnamed := (hs.recordsTypes hrecords).supply
    dsimp only
    split
    · rw [inMemory_create]
      rcases hw : Memory.create app.identifier o _ with ⟨⟨answer, left⟩, store⟩
      cases answer with
      | error e =>
        intro h
        refine Failure.Otherwise.ne_notCreated ?_ (Except.error.inj h)
        exact Failure.otherwise_ofStorage (Memory.not_invalid_of_create (by rw [hw]))
      | ok id =>
        have hb : Text.isBlank id = false := Memory.not_isBlank_of_create hnamed (by rw [hw])
        simp [hb]
    · intro h
      refine Failure.Otherwise.ne_notCreated ?_ (Except.error.inj h)
      rintro messages ⟨⟩ text htext
      exact Object.beginsOtherwise_violations htext

end Service

/-- Whatever operations an empty storage has seen, whether they went through or not: each object
stands under its own identifier, which is not blank, in the partition of the app it names. A create
gives no blank identifier, so that no request ends with the failure for one. -/
theorem Memory.stored_under_own_identifier {supply : Supply} (hsupply : supply.NeverBlank)
    {steps : List (Supply × Operation)} (hsteps : ∀ r ∈ steps, r.1.NeverBlank) :
    let m := runAll steps (ofSupply supply)
    (∀ app id o, m.get? app id = some o → o.StoredUnder app id) ∧
      (∀ app o id, (create app o m).1.answer = .ok id → Text.isBlank id = false) ∧
      ∀ (config : Config) (background : Background) (app : App) (hint : Option String)
        (body : RequestBody) (s : ServiceState Memory), s.store = m →
          (((Service.inMemory config background).create app hint body).on s).1 ≠
            .error .notCreated := by
  intro m
  have hm : m.WellNamed := (wellNamed_ofSupply hsupply).runAll hsteps
  refine ⟨hm.objects, fun app o id h => not_isBlank_of_create hm.supply h, ?_⟩
  intro config background app hint body s hs
  rw [← hs] at hm
  exact Service.create_ne_notCreated config background app hint body hm

/-- A dog without an identifier is stored. Then one of another app, and one with a blank identifier,
are to replace it, and a batch is to rename it. -/
def dogSteps : List (Supply × Operation) :=
  let dog := (Object.ofType "dog").withAppid (some "shop")
  [(.still, .write (.create ⟨"shop"⟩ dog)),
    (.still, .write (.update ⟨"shop"⟩ ((dog.withAppid (some "farm")).withId (some "new")))),
    (.still, .write (.update ⟨"shop"⟩ (dog.withId (some " ")))),
    (.still, .read ⟨"shop"⟩ "new"),
    (.still, .write (.updateAll ⟨"shop"⟩ [dog.withId (some "new"), dog.withId (some "old")]))]

theorem Memory.stored_under_own_identifier_dogs :
    Supply.still.NeverBlank ∧ (∀ r ∈ dogSteps, r.1.NeverBlank) ∧
      let m := runAll dogSteps (ofSupply .still)
      (m.objects ⟨"shop"⟩).keys = ["new"] ∧
        (∀ app id o, m.get? app id = some o → o.StoredUnder app id) ∧
        (∀ app o id, (create app o m).1.answer = .ok id → Text.isBlank id = false) ∧
        ∀ (config : Config) (background : Background) (app : App) (hint : Option String)
          (body : RequestBody) (s : ServiceState Memory), s.store = m →
            (((Service.inMemory config background).create app hint body).on s).1 ≠
              .error .notCreated := by
  have hstill : Supply.still.NeverBlank := Supply.sound_still.ids
  have hsteps : ∀ r ∈ dogSteps, r.1.NeverBlank := by
    intro r hr
    simp only [dogSteps, List.mem_cons, List.not_mem_nil, or_false] at hr
    rcases hr with rfl | rfl | rfl | rfl | rfl <;> exact hstill
  exact ⟨hstill, hsteps, by decide +kernel, stored_under_own_identifier hstill hsteps⟩

end ObjectDepot
