import Mathlib.Control.Monad.Basic
import ObjectDepot.Json.Equality
import ObjectDepot.Proofs.Runs

/-! A batch update against its items sent one by one. Until an item fails the two do the same to the
storage, up to the times of change. The first item that fails ends the batch, and those behind it
are lost, while sent one by one they would have been merged. -/

namespace ObjectDepot

namespace Object

/-- Two objects that differ at most in the time of change. -/
def Alike (o o' : Object) : Prop := o.withUpdated none = o'.withUpdated none

theorem Alike.body {o o' : Object} (h : o.Alike o') : o'.body = o.body := by
  have hbody := congrArg Object.body h
  exact hbody.symm

theorem Alike.get?_envelope {o o' : Object} (h : o.Alike o') {name : String}
    (hname : name ≠ "updated") : o'.envelope.get? name = o.envelope.get? name := by
  have henv := congrArg (fun x => x.envelope.get? name) h
  simp only [get?_withUpdated, if_neg hname] at henv
  exact henv.symm

theorem alike_of_get? {o o' : Object} (hbody : o'.body = o.body)
    (henv : ∀ name, name ≠ "updated" → o'.envelope.get? name = o.envelope.get? name) :
    o.Alike o' := by
  have hall : ∀ name, (o.withUpdated none).envelope.get? name =
      (o'.withUpdated none).envelope.get? name := by
    intro name
    rw [get?_withUpdated, get?_withUpdated]
    split
    · rfl
    · rename_i hname
      exact (henv name hname).symm
  have henvelope := Envelope.ext_get? hall
  cases o
  cases o'
  simp only [Alike, withUpdated, Object.mk.injEq] at henvelope ⊢
  exact ⟨henvelope, hbody.symm⟩

theorem Alike.mergeFrom {stored stored' o merged : Object} (h : stored.Alike stored')
    (hs : stored.Sound) (hs' : stored'.Sound) (hm : stored.mergeFrom o = .ok merged) :
    ∃ merged', stored'.mergeFrom o = .ok merged' ∧ merged.Alike merged' := by
  have hlay := mergeFrom_eq_ok_iff.mp hm
  have hadmits := (exists_overlay_iff hs).mp ⟨merged, hlay⟩
  have hshape : stored'.shape = stored.shape := congrArg Body.shape h.body
  obtain ⟨merged', hlay'⟩ := (exists_overlay_iff hs').mpr (hadmits.of_shape_eq hshape)
  refine ⟨merged', mergeFrom_eq_ok_iff.mpr hlay', alike_of_get? ?_ fun name hname => ?_⟩
  · have hb := (overlay_eq_ok_iff.mp hlay).2
    have hb' := (overlay_eq_ok_iff.mp hlay').2
    have hchanges : stored'.bodyChanges o.toFields = stored.bodyChanges o.toFields := by
      simp only [bodyChanges, accepts, hshape]
    rw [h.body, hchanges, hb] at hb'
    exact (Except.ok.inj hb').symm
  · rw [get?_overlay_envelope hs hlay, get?_overlay_envelope hs' hlay', h.get?_envelope hname]

theorem Alike.mergeFrom_error {stored stored' o : Object} {e : ValidationError}
    (h : stored.Alike stored') (hs : stored.Sound) (hs' : stored'.Sound)
    (he : stored.mergeFrom o = .error e) : ∃ e', stored'.mergeFrom o = .error e' := by
  cases hm : stored'.mergeFrom o with
  | error e' => exact ⟨e', rfl⟩
  | ok merged' =>
    obtain ⟨merged, hok, -⟩ := Alike.mergeFrom h.symm hs' hs hm
    rw [he] at hok
    cases hok

end Object

namespace Partition

def Alike (p q : Partition) : Prop :=
  ∀ id, (p.get? id).map (·.withUpdated none) = (q.get? id).map (·.withUpdated none)

theorem Alike.refl (p : Partition) : Alike p p := fun _ => rfl

theorem Alike.get?_eq_none {p q : Partition} (h : p.Alike q) {id : String}
    (hp : p.get? id = none) : q.get? id = none := by
  have hid := h id
  rw [hp] at hid
  exact Option.map_eq_none_iff.mp hid.symm

theorem Alike.get?_eq_some {p q : Partition} (h : p.Alike q) {id : String} {o : Object}
    (hp : p.get? id = some o) : ∃ o', q.get? id = some o' ∧ o.Alike o' := by
  have hid := h id
  rw [hp] at hid
  obtain ⟨o', ho', heq⟩ := Option.map_eq_some_iff.mp hid.symm
  exact ⟨o', ho', heq.symm⟩

theorem Alike.insert {p q : Partition} (h : p.Alike q) {o o' : Object} (ho : o.Alike o')
    (id : String) : Alike (p.insert id o) (q.insert id o') := by
  intro k
  rw [KeyMap.get?_insert, KeyMap.get?_insert]
  split
  · exact congrArg some ho
  · exact h k

end Partition

namespace Memory

def Alike (m m' : Memory) : Prop := ∀ app, Partition.Alike (m.objects app) (m'.objects app)

/-- One object at the head of a batch, against the same object on its own: either both go through,
and the batch goes on with what the object leaves, or both fail and the batch is over. -/
theorem mergeAll_head_alike {app : AppId} {now now' : Int} (hnow : IsInt64 now) {o : Object}
    (ho : o.ChangeFor app) {p q : Partition} (hp : p.Consistent app) (hq : q.Consistent app)
    (h : p.Alike q) :
    ((mergeAll now' q [o]).1.answer = .ok () ∧ ∃ p', Partition.Consistent app p' ∧
        p'.Alike (mergeAll now' q [o]).2 ∧ ∀ rest,
          (mergeAll now p (o :: rest)).1.answer = (mergeAll now p' rest).1.answer ∧
          (mergeAll now p (o :: rest)).2 = (mergeAll now p' rest).2) ∨
      ((mergeAll now' q [o]).1.answer ≠ .ok () ∧ ∀ rest,
        (mergeAll now p (o :: rest)).1.answer ≠ .ok () ∧ (mergeAll now p (o :: rest)).2 = p) := by
  cases htarget : o.id.bind p.get? with
  | none =>
    have hq' : o.id.bind q.get? = none := by
      cases hid : o.id with
      | none => rfl
      | some id =>
        rw [hid] at htarget
        exact h.get?_eq_none htarget
    refine .inl ⟨by rw [mergeAll_cons_of_absent hq', mergeAll], p, hp, ?_, fun rest => ?_⟩
    · rw [mergeAll_cons_of_absent hq', mergeAll]
      exact h
    · rw [mergeAll_cons_of_absent htarget]
      exact ⟨rfl, rfl⟩
  | some stored =>
    obtain ⟨id, hid, hget⟩ := Option.bind_eq_some_iff.mp htarget
    obtain ⟨stored', hget', hstored⟩ := h.get?_eq_some hget
    have hsound := (hp id stored hget).sound
    have hsound' := (hq id stored' hget').sound
    cases hm : stored.mergeFrom o with
    | error e =>
      obtain ⟨e', he'⟩ := hstored.mergeFrom_error hsound hsound' hm
      refine .inr ⟨by simp [mergeAll_cons_of_error hid hget' he'], fun rest => ?_⟩
      simp [mergeAll_cons_of_error hid hget hm]
    | ok merged =>
      obtain ⟨merged', hm', halike⟩ := hstored.mergeFrom hsound hsound' hm
      have hnew : (merged.withUpdated (some now)).Alike (merged'.withUpdated (some now')) := halike
      refine .inl ⟨by rw [mergeAll_cons_of_ok hid hget' hm']; rfl,
        p.insert id (merged.withUpdated (some now)), ?_, ?_, fun rest => ?_⟩
      · exact hp.insert
          (storedAs_of_mergeFrom hnow (hp id stored hget) hid ho.owner hm)
      · rw [mergeAll_cons_of_ok hid hget' hm']
        exact h.insert hnew id
      · rw [mergeAll_cons_of_ok hid hget hm]
        exact ⟨rfl, rfl⟩

end Memory

def Outcome.status : Outcome → Nat
  | .ok r => r.status
  | .error f => f.status

theorem Failure.le_status (f : Failure) : 400 ≤ f.status := by
  cases f <;> simp [status]

theorem Failure.status_ne_ok (f : Failure) : f.status ≠ 200 := by
  have hstatus := f.le_status
  omega

namespace Service

/-- Batch updates sent one after the other, each at a time of its own. -/
def oneByOne (app : App) (bodies : List (Supply × RequestBody)) : List Event :=
  bodies.map (fun r => ⟨r.1, .request app (.batchUpdate r.2)⟩)

/-- The state after those of the requests that come before the first one not answered with 200. -/
def afterLeading (svc : Service Memory) (app : App) (bodies : List (Supply × RequestBody))
    (s : ServiceState Memory) : ServiceState Memory :=
  let outcomes := (svc.run (oneByOne app bodies) s).1
  let leading := (outcomes.takeWhile (fun r => r.2.status = 200)).length
  (svc.run (oneByOne app (bodies.take leading)) s).2

theorem run_oneByOne_cons (svc : Service Memory) (app : App) (r : Supply × RequestBody)
    (bodies : List (Supply × RequestBody)) (s : ServiceState Memory) :
    svc.run (oneByOne app (r :: bodies)) s =
      let first := (svc.batchUpdate app r.2).on (s.withSupply r.1)
      let more := svc.run (oneByOne app bodies) first.2
      ((app.identifier, first.1) :: more.1, more.2) := rfl

theorem afterLeading_cons_of_ok {svc : Service Memory} {app : App} {r : Supply × RequestBody}
    {bodies : List (Supply × RequestBody)} {s : ServiceState Memory}
    (h : Outcome.status ((svc.batchUpdate app r.2).on (s.withSupply r.1)).1 = 200) :
    svc.afterLeading app (r :: bodies) s =
      svc.afterLeading app bodies ((svc.batchUpdate app r.2).on (s.withSupply r.1)).2 := by
  simp only [afterLeading, run_oneByOne_cons]
  rw [List.takeWhile_cons_of_pos (by simpa using h), List.length_cons, List.take_succ_cons,
    run_oneByOne_cons]

theorem afterLeading_cons_of_error {svc : Service Memory} {app : App} {r : Supply × RequestBody}
    {bodies : List (Supply × RequestBody)} {s : ServiceState Memory}
    (h : Outcome.status ((svc.batchUpdate app r.2).on (s.withSupply r.1)).1 ≠ 200) :
    svc.afterLeading app (r :: bodies) s = s := by
  simp only [afterLeading, run_oneByOne_cons]
  rw [List.takeWhile_cons_of_neg (by simpa using h)]
  rfl

theorem status_batchUpdate_iff (config : Config) (background : Background) (app : App)
    {body : RequestBody} {items : List Json} (s : ServiceState Memory)
    (h : RequestBody.readList config.maxEntitySize body = .ok items) :
    Outcome.status (((inMemory config background).batchUpdate app body).on s).1 = 200 ↔
      (Memory.mergeAll s.store.supply.now (s.store.objects app.identifier)
        (items.filterMap ((inMemory config background).changes? app))).1.answer = .ok () := by
  obtain ⟨hanswer, -⟩ := batchUpdate_spec config background app s h
  rw [hanswer]
  cases hr : (Memory.mergeAll s.store.supply.now (s.store.objects app.identifier)
      (items.filterMap ((inMemory config background).changes? app))).1.answer with
  | error e => simp [Outcome.status, Failure.status_ne_ok]
  | ok _ => simp [Outcome.status, Response.okList]

theorem batchUpdate_item (config : Config) (background : Background) (app : App)
    {body : RequestBody} {item : Json} (s : ServiceState Memory)
    (h : RequestBody.readList config.maxEntitySize body = .ok [item]) :
    let svc := inMemory config background
    let result := Memory.mergeAll s.store.supply.now (s.store.objects app.identifier)
      (svc.changes? app item).toList
    (Outcome.status ((svc.batchUpdate app body).on s).1 = 200 ↔ result.1.answer = .ok ()) ∧
      ((svc.batchUpdate app body).on s).2.store.objects app.identifier = result.2 := by
  intro svc result
  have hstatus := status_batchUpdate_iff config background app s h
  obtain ⟨-, hobjects, -, -⟩ := batchUpdate_spec config background app s h
  have hsent : [item].filterMap (svc.changes? app) = (svc.changes? app item).toList := by
    cases hc : svc.changes? app item <;> simp [hc]
  rw [hsent] at hstatus hobjects
  exact ⟨hstatus, hobjects⟩

def Singles (config : Config) (items : List Json) (bodies : List (Supply × RequestBody)) : Prop :=
  bodies.map (fun r => RequestBody.readList config.maxEntitySize r.2) =
    items.map (fun item => .ok [item])

/-- What becomes of a partition by a batch is what becomes of a state by requests, up to the first
of them that fails. -/
structure Follows (svc : Service Memory) (app : App) (bodies : List (Supply × RequestBody))
    (s : ServiceState Memory) (result : Written Unit (List Object) × Partition) : Prop where
  answer : result.1.answer = .ok () ↔
    ∀ r ∈ (svc.run (oneByOne app bodies) s).1, Outcome.status r.2 = 200
  objects : result.2.Alike ((svc.afterLeading app bodies s).store.objects app.identifier)
  others : ∀ other, other ≠ app.identifier →
    (svc.afterLeading app bodies s).store.objects other = s.store.objects other

theorem Follows.cons_of_ok {svc : Service Memory} {app : App} {r : Supply × RequestBody}
    {bodies : List (Supply × RequestBody)} {s : ServiceState Memory}
    {result result' : Written Unit (List Object) × Partition}
    (hok : Outcome.status ((svc.batchUpdate app r.2).on (s.withSupply r.1)).1 = 200)
    (hothers : ∀ other, other ≠ app.identifier →
      ((svc.batchUpdate app r.2).on (s.withSupply r.1)).2.store.objects other =
        s.store.objects other)
    (h : svc.Follows app bodies ((svc.batchUpdate app r.2).on (s.withSupply r.1)).2 result')
    (hresult : result.1.answer = result'.1.answer ∧ result.2 = result'.2) :
    svc.Follows app (r :: bodies) s result := by
  refine ⟨?_, ?_, fun other hother => ?_⟩
  · rw [hresult.1, h.answer, run_oneByOne_cons]
    simp [hok]
  · rw [hresult.2, afterLeading_cons_of_ok hok]
    exact h.objects
  · rw [afterLeading_cons_of_ok hok, h.others other hother]
    exact hothers other hother

theorem Follows.cons_of_error {svc : Service Memory} {app : App} {r : Supply × RequestBody}
    {bodies : List (Supply × RequestBody)} {s : ServiceState Memory}
    {result : Written Unit (List Object) × Partition}
    (hbad : Outcome.status ((svc.batchUpdate app r.2).on (s.withSupply r.1)).1 ≠ 200)
    (hanswer : result.1.answer ≠ .ok ())
    (halike : result.2.Alike (s.store.objects app.identifier)) :
    svc.Follows app (r :: bodies) s result := by
  refine ⟨?_, ?_, fun other _ => ?_⟩
  · rw [run_oneByOne_cons]
    exact ⟨fun h => absurd h hanswer, fun h => absurd (h _ List.mem_cons_self) hbad⟩
  · rw [afterLeading_cons_of_error hbad]
    exact halike
  · rw [afterLeading_cons_of_error hbad]

theorem follows_oneByOne (config : Config) (background : Background) (app : App) {now : Int}
    (hnow : IsInt64 now) {items : List Json} {bodies : List (Supply × RequestBody)}
    (hbodies : Singles config items bodies) (hsupplies : ∀ r ∈ bodies, r.1.Sound)
    {s : ServiceState Memory} (hs : s.store.Consistent) {p : Partition}
    (hp : p.Consistent app.identifier) (halike : p.Alike (s.store.objects app.identifier)) :
    Follows (inMemory config background) app bodies s
      (Memory.mergeAll now p (items.filterMap ((inMemory config background).changes? app))) := by
  -- The batch goes on from its own partition and the requests from theirs. The two are alike and no
  -- more, for the requests happen at other times.
  induction bodies generalizing items s p with
  | nil =>
    obtain rfl : items = [] := List.map_eq_nil_iff.mp hbodies.symm
    exact ⟨by simp [Memory.mergeAll, oneByOne, run], halike, fun _ _ => rfl⟩
  | cons r bodies ih =>
    cases items with
    | nil => simp [Singles] at hbodies
    | cons item items =>
      simp only [Singles, List.map_cons, List.cons.injEq] at hbodies
      obtain ⟨hread, hbodies⟩ := hbodies
      have hs' : (s.withSupply r.1).store.Consistent := hs.withSupply (hsupplies r (by simp))
      obtain ⟨hstatus, hobjects⟩ := batchUpdate_item config background app (s.withSupply r.1) hread
      obtain ⟨-, -, -, hothers⟩ := batchUpdate_spec config background app (s.withSupply r.1) hread
      have hafter := consistent_batchUpdate config background app r.2 hs'
      have hrest {p' : Partition} :=
        ih (p := p') hbodies (fun x hx => hsupplies x (by simp [hx])) hafter
      cases hchanges : (inMemory config background).changes? app item with
      | none =>
        rw [hchanges] at hstatus hobjects
        rw [List.filterMap_cons_none hchanges]
        refine .cons_of_ok (hstatus.mpr rfl) hothers (hrest hp ?_) ⟨rfl, rfl⟩
        rw [hobjects]
        exact halike
      | some o =>
        rw [hchanges] at hstatus hobjects
        rw [List.filterMap_cons_some hchanges]
        rcases Memory.mergeAll_head_alike hnow (changeFor_of_changes? hchanges) hp
          (hs.partitions app.identifier) halike with ⟨hok, p', hp', halike', hmore⟩ | ⟨hfail, hmore⟩
        · refine .cons_of_ok (hstatus.mpr hok) hothers (hrest hp' ?_) (hmore _)
          rw [hobjects]
          exact halike'
        · refine .cons_of_error (mt hstatus.mp hfail) (hmore _).1 ?_
          rw [(hmore _).2]
          exact halike

theorem afterLeading_of_all {svc : Service Memory} {app : App}
    {bodies : List (Supply × RequestBody)} {s : ServiceState Memory}
    (h : ∀ r ∈ (svc.run (oneByOne app bodies) s).1, Outcome.status r.2 = 200) :
    svc.afterLeading app bodies s = (svc.run (oneByOne app bodies) s).2 := by
  induction bodies generalizing s with
  | nil => rfl
  | cons r bodies ih =>
    rw [run_oneByOne_cons] at h ⊢
    rw [afterLeading_cons_of_ok (h _ List.mem_cons_self)]
    exact ih (fun x hx => h x (List.mem_cons_of_mem _ hx))

/-- A batch update leaves what its items leave one by one, up to the first item that fails. It is
answered with 200 and leaves what all of them leave just in case no item fails on its own. -/
theorem batchUpdate_isolates_iff (config : Config) (background : Background)
    {s : ServiceState Memory} (hs : s.store.Reachable) (app : App) {body : RequestBody}
    {items : List Json} (hread : RequestBody.readList config.maxEntitySize body = .ok items)
    {bodies : List (Supply × RequestBody)} (hbodies : Singles config items bodies)
    (hsupplies : ∀ r ∈ bodies, r.1.Sound) :
    let svc := inMemory config background
    let batch := (svc.batchUpdate app body).on s
    let sequence := svc.run (oneByOne app bodies) s
    batch.2.store.Alike (svc.afterLeading app bodies s).store ∧
      (Outcome.status batch.1 = 200 ∧ batch.2.store.Alike sequence.2.store ↔
        ∀ r ∈ sequence.1, Outcome.status r.2 = 200) := by
  intro svc batch sequence
  have hm := hs.consistent
  have hfollows := follows_oneByOne config background app hm.supply.now hbodies hsupplies hm
    (hm.partitions app.identifier) (Partition.Alike.refl _)
  have hstatus := status_batchUpdate_iff config background app s hread
  obtain ⟨-, hobjects, -, hothers⟩ := batchUpdate_spec config background app s hread
  have halike : batch.2.store.Alike (svc.afterLeading app bodies s).store := by
    intro other
    by_cases hother : other = app.identifier
    · rw [hother, hobjects]
      exact hfollows.objects
    · rw [hothers other hother, hfollows.others other hother]
      exact Partition.Alike.refl _
  refine ⟨halike, fun h => hfollows.answer.mp (hstatus.mp h.1), fun h => ?_⟩
  refine ⟨hstatus.mpr (hfollows.answer.mpr h), ?_⟩
  rw [← afterLeading_of_all h]
  exact halike

def voteItem : String := "\x7b\"id\":\"v\",\"type\":\"dog\",\"value\":\"x\"\x7d"

def dogItem : String := "\x7b\"id\":\"d\",\"type\":\"dog\",\"name\":\"R\"\x7d"

def voteFields : Json := .obj [("id", .str "v"), ("type", .str "dog"), ("value", .str "x")]

def dogFields : Json := .obj [("id", .str "d"), ("name", .str "R"), ("type", .str "dog")]

def dogBody : RequestBody := .ofText ("[" ++ dogItem ++ "]")

def voteBody : RequestBody := .ofText ("[" ++ voteItem ++ "]")

def petBody : RequestBody := .ofText ("[" ++ voteItem ++ "," ++ dogItem ++ "]")

def petState : ServiceState Memory :=
  shopState [.ofText "\x7b\"id\":\"v\",\"type\":\"vote\",\"value\":1\x7d",
    .ofText "\x7b\"id\":\"d\",\"type\":\"dog\"\x7d"]

theorem readList_petBody :
    RequestBody.readList ({} : Config).maxEntitySize petBody = .ok [voteFields, dogFields] := by
  decide +kernel

theorem singles_petBody :
    Singles {} [voteFields, dogFields] [(.still, voteBody), (.still, dogBody)] := by
  have hvote : RequestBody.readList ({} : Config).maxEntitySize voteBody = .ok [voteFields] := by
    decide +kernel
  have hdog : RequestBody.readList ({} : Config).maxEntitySize dogBody = .ok [dogFields] := by
    decide +kernel
  rw [Singles, List.map_cons, List.map_cons, hvote, hdog]
  rfl

theorem batchUpdate_isolates_iff_pets :
    petState.store.Reachable ∧
      RequestBody.readList ({} : Config).maxEntitySize petBody = .ok [voteFields, dogFields] ∧
      Singles {} [voteFields, dogFields] [(.still, voteBody), (.still, dogBody)] ∧
      let svc := inMemory {} .queued
      let bodies := [(Supply.still, voteBody), (Supply.still, dogBody)]
      let batch := (svc.batchUpdate .shop petBody).on petState
      let sequence := svc.run (oneByOne .shop bodies) petState
      batch.2.store.Alike (svc.afterLeading .shop bodies petState).store ∧
        (Outcome.status batch.1 = 200 ∧ batch.2.store.Alike sequence.2.store ↔
          ∀ r ∈ sequence.1, Outcome.status r.2 = 200) := by
  have hsupplies : ∀ r ∈ [(Supply.still, voteBody), (Supply.still, dogBody)], r.1.Sound := by
    intro r hr
    simp only [List.mem_cons, List.not_mem_nil, or_false] at hr
    rcases hr with rfl | rfl <;> exact Supply.sound_still
  have hreachable : petState.store.Reachable := (shopState_reachable _).store
  exact ⟨hreachable, readList_petBody, singles_petBody, batchUpdate_isolates_iff {} .queued
    hreachable .shop readList_petBody singles_petBody hsupplies⟩

def nameOfDog (s : ServiceState Memory) : Option String :=
  (s.store.get? App.shop.identifier "d").bind (·.envelope.name)

/-- An item that fails keeps the one behind it from being merged, which alone would be. -/
theorem batchUpdate_not_isolated :
    let svc := inMemory {} .queued
    let batch := (svc.batchUpdate .shop petBody).on petState
    let alone := (svc.batchUpdate .shop dogBody).on petState
    Outcome.status batch.1 = 400 ∧ nameOfDog batch.2 = none ∧
      Outcome.status alone.1 = 200 ∧ nameOfDog alone.2 = some "R" := by
  decide +kernel

end Service
end ObjectDepot
