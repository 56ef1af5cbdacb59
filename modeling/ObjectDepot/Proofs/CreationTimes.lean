import ObjectDepot.Proofs.FlatForm
import ObjectDepot.Proofs.LockedFields
import ObjectDepot.Proofs.StoredNames

/-! The time at which an object was created. All operations of the storage keep it but one: a batch of
merges takes over the time that an object sets. The others put a new object where none stood, or keep
the time of the old one, or delete it. -/

namespace ObjectDepot

def Operation.objects : Operation → List Object
  | .write w => w.objects
  | .read _ _ | .readAll _ _ _ => []

namespace Object

/-- A merge takes over the time of creation if the other object has one. -/
theorem timestamp_mergeFrom {stored o merged : Object} (hstored : stored.Sound) (ho : o.WellFormed)
    (h : stored.mergeFrom o = .ok merged) :
    merged.envelope.timestamp = o.envelope.timestamp.or stored.envelope.timestamp := by
  have hget := get?_overlay_envelope hstored (mergeFrom_eq_ok_iff.mp h) "timestamp"
  rw [ho.get?_toFields_of_has rfl] at hget
  have hmerged : merged.envelope.timestamp.map Json.int =
      changed (kept? Envelope.fieldSpecs "timestamp") (o.envelope.timestamp.map Json.int)
        (stored.envelope.timestamp.map Json.int) := hget
  have times {a b : Option Int} (hab : a.map Json.int = b.map Json.int) : a = b :=
    Option.map_injective (fun _ _ h => Json.int.inj h) hab
  apply times
  rw [hmerged]
  cases htime : o.envelope.timestamp with
  | none => rfl
  | some t =>
    have hown : o.envelope.get? "timestamp" = some (.int t) := congrArg (Option.map Json.int) htime
    have hkept := ho.sound.kept?_envelope hown
    simp [changed, Json.isNull, hkept]

/-- Of the times that the merged objects set the last one stays. -/
theorem MergedInTurn.timestamp {now : Int} (hnow : IsInt64 now) {os : List Object}
    (hos : ∀ o ∈ os, o.WellFormed) {stored after : Object} (hstored : stored.Sound)
    (h : MergedInTurn now os stored after) :
    after.envelope.timestamp =
      (os.filterMap (·.envelope.timestamp)).getLast?.or stored.envelope.timestamp := by
  induction os generalizing stored with
  | nil =>
    obtain rfl : after = stored := h
    rfl
  | cons o os ih =>
    obtain ⟨merged, hmerge, hrest⟩ := h
    have hfirst := timestamp_mergeFrom hstored (hos o List.mem_cons_self) hmerge
    have hstep : (merged.withUpdated (some now)).envelope.timestamp =
        o.envelope.timestamp.or stored.envelope.timestamp := hfirst
    rw [ih (fun x hx => hos x (List.mem_cons_of_mem _ hx)) (sound_merged hmerge hnow) hrest, hstep,
      List.filterMap_cons]
    cases o.envelope.timestamp with
    | none => rfl
    | some t =>
      dsimp only
      rw [List.getLast?_cons]
      cases (os.filterMap (·.envelope.timestamp)).getLast? <;> rfl

end Object

/-- The time that an operation brings for what stands under an identifier: the last one that is set
by the objects it merges there. -/
def Operation.bringsTime? (m : Memory) (app : AppId) (id : String) : Operation → Option Int
  | .write (.updateAll owner os) =>
    if owner = app ∧ ∀ o ∈ os, o.appid = some app.text then
      (((Memory.mergedFrom m.supply.now (m.objects app) os).filter (fun o => o.id = some id)).filterMap
        (·.envelope.timestamp)).getLast?
    else none
  | _ => none

namespace Memory

variable {m : Memory} {app : AppId} {id : String} {o : Object}

theorem updateAll_time (hm : m.Consistent) (ho : m.get? app id = some o) {owner : AppId}
    {os : List Object} (hos : ∀ x ∈ os, x.WellFormed) :
    ∃ after, ((Write.updateAll owner os).run m).get? app id = some after ∧
      after.envelope.timestamp =
        ((Operation.write (.updateAll owner os)).bringsTime? m app id).or o.envelope.timestamp := by
  dsimp only [Operation.bringsTime?]
  by_cases hmerges : owner = app ∧ ∀ x ∈ os, x.appid = some app.text
  · obtain ⟨rfl, howners⟩ := hmerges
    rw [if_pos ⟨rfl, howners⟩]
    obtain ⟨after, hafter, hturn⟩ :=
      get?_mergeAll_inTurn m.supply.now os (p := m.objects owner) ho
    have hrun : ((Write.updateAll owner os).run m).get? owner id = some after := by
      rw [get?, Write.run, (updateAll_spec howners m).2.1]
      exact hafter
    refine ⟨after, hrun, hturn.timestamp hm.supply.now (fun x hx => ?_)
      (hm.partitions owner id o ho).sound⟩
    exact hos x (mem_of_mem_mergedFrom (List.mem_filter.mp hx).1)
  · rw [if_neg hmerges]
    refine ⟨o, ?_, rfl⟩
    by_cases happ : app = owner
    · subst happ
      have hrefused : ¬ ∀ x ∈ os, x.appid = some app.text := fun h => hmerges ⟨rfl, h⟩
      cases howners : checkOwners app os with
      | ok _ => exact absurd (checkOwners_eq_ok_iff.mp howners) hrefused
      | error e =>
        rw [Write.run, updateAll, howners]
        exact ho
    · rw [get?, Write.objects_run happ]
      exact ho

/-- What one operation makes of the time of creation: unless it takes the object away, the time stays
or is the one that the operation brings. -/
theorem run_time (hm : m.Consistent) (ho : m.get? app id = some o) {operation : Operation}
    (hos : ∀ x ∈ operation.objects, x.WellFormed) :
    ((operation.run m).get? app id = none ∧ operation.bringsTime? m app id = none) ∨
      ∃ after, (operation.run m).get? app id = some after ∧
        after.envelope.timestamp = (operation.bringsTime? m app id).or o.envelope.timestamp := by
  cases operation with
  | read _ _ => exact .inr ⟨o, ho, rfl⟩
  | readAll _ _ _ => exact .inr ⟨o, ho, rfl⟩
  | write w =>
    cases w with
    | updateAll owner os => exact .inr (updateAll_time hm ho hos)
    | create owner x => exact .inr ⟨o, Write.run_of_creates (w := .create owner x) trivial ho, rfl⟩
    | createAll owner xs =>
      exact .inr ⟨o, Write.run_of_creates (w := .createAll owner xs) trivial ho, rfl⟩
    | _ =>
      rcases Write.run_of_stored _ m ho with hrun | ⟨x, -, -, hrun⟩ | ⟨_, _, heq, -⟩ | ⟨-, -, hgone⟩
      · exact .inr ⟨o, hrun, rfl⟩
      · exact .inr ⟨_, hrun, rfl⟩
      · cases heq
      · exact .inl ⟨hgone, rfl⟩

theorem consistent_operation (hm : m.Consistent) {operation : Operation}
    (hos : ∀ x ∈ operation.objects, x.Sound) : (operation.run m).Consistent := by
  cases operation with
  | write w => exact hm.run hos
  | read _ _ => exact hm
  | readAll _ _ _ => exact hm

/-- Until it is deleted, what stands under an identifier shows one time of creation. -/
def KeepsTime (app : AppId) (id : String) (time : Option Int) :
    List (Supply × Operation) → Memory → Prop
  | [], _ => True
  | (supply, operation) :: rest, m =>
    let next := operation.run { m with supply := supply }
    ∀ o, next.get? app id = some o → o.envelope.timestamp = time ∧ KeepsTime app id time rest next

/-- Until it is deleted, no operation brings another time for what stands under an identifier. -/
def NoOtherTime (app : AppId) (id : String) (time : Option Int) :
    List (Supply × Operation) → Memory → Prop
  | [], _ => True
  | (supply, operation) :: rest, m =>
    let next := operation.run { m with supply := supply }
    (∀ t, operation.bringsTime? { m with supply := supply } app id = some t → some t = time) ∧
      ∀ o, next.get? app id = some o → NoOtherTime app id time rest next

theorem keepsTime_iff_noOtherTime (hm : m.Consistent) (ho : m.get? app id = some o)
    {time : Option Int} (htime : o.envelope.timestamp = time) {steps : List (Supply × Operation)}
    (hsteps : ∀ r ∈ steps, r.1.Sound ∧ ∀ x ∈ r.2.objects, x.WellFormed) :
    KeepsTime app id time steps m ↔ NoOtherTime app id time steps m := by
  induction steps generalizing m o with
  | nil => exact Iff.rfl
  | cons r steps ih =>
    obtain ⟨supply, operation⟩ := r
    obtain ⟨hsupply, hos⟩ := hsteps _ List.mem_cons_self
    have hwait : ({ m with supply := supply } : Memory).Consistent := hm.withSupply hsupply
    have hnext := consistent_operation hwait (fun x hx => (hos x hx).sound)
    have hrest {after : Object} (hafter : after.envelope.timestamp = time)
        (hget : (operation.run { m with supply := supply }).get? app id = some after) :=
      ih hnext hget hafter (fun x hx => hsteps x (List.mem_cons_of_mem _ hx))
    rw [KeepsTime, NoOtherTime]
    rcases run_time hwait ho hos with ⟨hgone, hnone⟩ | ⟨after, hafter, hbrought⟩
    · rw [hgone, hnone]
      exact ⟨fun _ => ⟨by rintro t ⟨⟩, by rintro x ⟨⟩⟩, fun _ => by rintro x ⟨⟩⟩
    · rw [htime] at hbrought
      constructor
      · intro hkeeps
        obtain ⟨hsame, hkept⟩ := hkeeps after hafter
        refine ⟨fun t ht => ?_, fun _ _ => (hrest hsame hafter).mp hkept⟩
        rw [ht] at hbrought
        exact hbrought.symm.trans hsame
      · rintro ⟨hbrings, hothers⟩ x hx
        have hsame : after.envelope.timestamp = time := by
          cases hb : operation.bringsTime? { m with supply := supply } app id with
          | none =>
            rw [hb] at hbrought
            exact hbrought
          | some t =>
            rw [hb] at hbrought
            exact hbrought.trans (hbrings t hb)
        obtain rfl : after = x := Option.some.inj (hafter.symm.trans hx)
        exact ⟨hsame, (hrest hsame hafter).mpr (hothers after hafter)⟩

/-- Whatever operations follow, with whatever well formed objects, a stored object keeps the time of
its creation until it is deleted just in case no batch of merges brings another time for it. -/
theorem timestamp_stays_iff {m : Memory} (hm : m.Reachable) {app : AppId} {id : String} {o : Object}
    (ho : m.get? app id = some o) {steps : List (Supply × Operation)}
    (hsteps : ∀ r ∈ steps, r.1.Sound ∧ ∀ x ∈ r.2.objects, x.WellFormed) :
    KeepsTime app id o.envelope.timestamp steps m ↔
      NoOtherTime app id o.envelope.timestamp steps m :=
  keepsTime_iff_noOtherTime hm.consistent ho rfl hsteps

end Memory

/-- A dog of `shop` that comes with a time of creation. -/
def dogOf (time : Option Int) : Object :=
  ⟨{ id := some "d", type := "dog", appid := some "shop", timestamp := time }, .forType "dog"⟩

theorem wellFormed_dogOf {time : Option Int} (h : ∀ t, time = some t → IsInt64 t) :
    (dogOf time).WellFormed :=
  ⟨⟨⟨h, by rintro t ⟨⟩⟩, Body.sound_forType "dog"⟩, (by decide : TypeName.isValid "dog" = true), rfl,
    fun _ k v hv => by cases hv⟩

namespace Memory

def dogStored : Memory := (Write.create ⟨"shop"⟩ (dogOf none)).run (ofSupply .still)

theorem dogStored_reachable : dogStored.Reachable := by
  refine .write (.empty Supply.sound_still) (fun o ho => ?_)
  obtain rfl := List.mem_singleton.mp ho
  exact (wellFormed_dogOf (by rintro t ⟨⟩)).sound

def agingSteps : List (Supply × Operation) :=
  [(.still, .write (.update ⟨"shop"⟩ (dogOf (some 7)))),
    (.still, .write (.updateAll ⟨"shop"⟩ [dogOf none])), (.still, .read ⟨"shop"⟩ "d"),
    (.still, .write (.updateAll ⟨"shop"⟩ [dogOf (some 7)]))]

theorem wellFormed_agingSteps :
    ∀ r ∈ agingSteps, r.1.Sound ∧ ∀ x ∈ r.2.objects, x.WellFormed := by
  have hnew : (dogOf none).WellFormed := wellFormed_dogOf (by rintro t ⟨⟩)
  have hold : (dogOf (some 7)).WellFormed := wellFormed_dogOf (by
    rintro t ⟨⟩
    exact ⟨by decide, by decide⟩)
  intro r hr
  simp only [agingSteps, List.mem_cons, List.not_mem_nil, or_false] at hr
  rcases hr with rfl | rfl | rfl | rfl <;>
    refine ⟨Supply.sound_still, fun x hx => ?_⟩ <;>
    simp only [Operation.objects, Write.objects, List.mem_singleton, List.not_mem_nil] at hx
  · exact hx ▸ hold
  · exact hx ▸ hnew
  · exact hx ▸ hold

theorem timestamp_stays_iff_dog :
    dogStored.Reachable ∧ (∀ r ∈ agingSteps, r.1.Sound ∧ ∀ x ∈ r.2.objects, x.WellFormed) ∧
      ∃ o, dogStored.get? ⟨"shop"⟩ "d" = some o ∧
        (KeepsTime ⟨"shop"⟩ "d" o.envelope.timestamp agingSteps dogStored ↔
          NoOtherTime ⟨"shop"⟩ "d" o.envelope.timestamp agingSteps dogStored) := by
  have hsome : (dogStored.get? ⟨"shop"⟩ "d").isSome := by decide +kernel
  obtain ⟨o, ho⟩ := Option.isSome_iff_exists.mp hsome
  exact ⟨dogStored_reachable, wellFormed_agingSteps, o, ho,
    timestamp_stays_iff dogStored_reachable ho wellFormed_agingSteps⟩

/-- A batch of merges moves the time of creation; replacing the object did not. -/
theorem updateAll_changes_timestamp :
    (∀ r ∈ agingSteps, r.1.Sound ∧ ∀ x ∈ r.2.objects, x.WellFormed) ∧
      ∃ o before after, dogStored.get? ⟨"shop"⟩ "d" = some o ∧
        (runAll (agingSteps.take 3) dogStored).get? ⟨"shop"⟩ "d" = some before ∧
        (runAll agingSteps dogStored).get? ⟨"shop"⟩ "d" = some after ∧
        o.envelope.timestamp = some 0 ∧ before.envelope.timestamp = some 0 ∧
        after.envelope.timestamp = some 7 := by
  have hfirst : (dogStored.get? ⟨"shop"⟩ "d").bind (·.envelope.timestamp) = some 0 := by
    decide +kernel
  have hbefore : ((runAll (agingSteps.take 3) dogStored).get? ⟨"shop"⟩ "d").bind
      (·.envelope.timestamp) = some 0 := by
    decide +kernel
  have hafter : ((runAll agingSteps dogStored).get? ⟨"shop"⟩ "d").bind
      (·.envelope.timestamp) = some 7 := by
    decide +kernel
  obtain ⟨o, ho, htime⟩ := Option.bind_eq_some_iff.mp hfirst
  obtain ⟨before, hget, hbefore⟩ := Option.bind_eq_some_iff.mp hbefore
  obtain ⟨after, hget', hafter⟩ := Option.bind_eq_some_iff.mp hafter
  exact ⟨wellFormed_agingSteps, o, before, after, ho, hget, hget', htime, hbefore, hafter⟩

end Memory
end ObjectDepot
