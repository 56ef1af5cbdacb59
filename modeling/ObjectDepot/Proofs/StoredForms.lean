import ObjectDepot.Proofs.BatchCreates
import ObjectDepot.Proofs.Identity
import ObjectDepot.Proofs.Validity

/-! What holds of all objects that are stored. A property that goes with the type, the name and the
body of an object, and that new objects and revised ones have, holds of whatever is stored, as long
as it survives the merges that are made. Well formed objects are such, and so are valid ones where
nothing is merged. -/

namespace ObjectDepot

/-- A property of objects that stamping keeps, that a record takes over when it is written anew, and
that a service gives to what it creates and updates. -/
structure Object.Lasting (P : Object → Prop) : Prop where
  sound : ∀ {o}, P o → o.Sound
  restamped : ∀ {o o'}, P o → o.Restamped o' → o'.envelope.Sound → P o'
  record : ∀ {o} {a : App}, P o → o.shape = some .app → a.envelope = o.envelope → P a.toObject
  made : ∀ {svc : Service Memory} {app o}, svc.Made app o → o.isValid → P o
  revised : ∀ {svc : Service Memory} {app target body o}, P target →
    svc.revision app (some target) body = .ok o → P o

/-- Whatever its types are, the record of an app has a property. -/
def App.RecordsAre (P : Object → Prop) (app : App) : Prop :=
  ∀ a : App, a.envelope = app.envelope → P a.toObject

def Memory.Holds (m : Memory) (P : Object → Prop) : Prop :=
  ∀ app id o, m.get? app id = some o → P o

def Object.MergesKeep (P : Object → Prop) : Prop :=
  ∀ stored other merged, P stored → stored.mergeFrom other = .ok merged → P merged

namespace Write

/-- Whether the objects of a write have a property once they are stored. -/
def Brings (P : Object → Prop) : Write → Prop
  | create _ o | update _ o => P o
  | createAll _ os => ∀ o ∈ os, P o
  | updateAll _ _ => Object.MergesKeep P
  | delete _ _ | deleteAll _ _ => True

theorem Brings.of_creates {P : Object → Prop} {w : Write} (hw : w.Brings P) (hcreates : w.Creates) :
    ∀ o ∈ w.objects, P o := by
  intro o ho
  cases w with
  | create app x =>
    obtain rfl := List.mem_singleton.mp ho
    exact hw
  | createAll app os => exact hw o ho
  | _ => cases hcreates

end Write

namespace Memory

variable {P : Object → Prop}

theorem Holds.run (hP : Object.Lasting P) {m : Memory} (hm : m.Holds P)
    (hnow : IsInt64 m.supply.now) {w : Write} (hw : w.Brings P) : (w.run m).Holds P := by
  have htime : ∀ t, some m.supply.now = some t → IsInt64 t := by
    rintro t ⟨⟩
    exact hnow
  intro app id x hx
  cases hget : m.get? app id with
  | none =>
    obtain ⟨-, hcreates, o, ho, rfl⟩ := Write.new_of_missing hget hx
    have hPo := hw.of_creates hcreates o ho
    exact hP.restamped hPo (o.restamped_asNew id _)
      (((hP.sound hPo).withId _).withTimestamp htime).envelope
  | some o =>
    have hPo := hm app id o hget
    rcases w.run_of_stored m hget with h | ⟨y, rfl, -, h⟩ | ⟨os, next, rfl, hsteps, h⟩ | ⟨-, -, h⟩
    · obtain rfl := Option.some.inj (hx.symm.trans h)
      exact hPo
    · obtain rfl := Option.some.inj (hx.symm.trans h)
      have hPy : P y := hw
      exact hP.restamped hPy (y.restamped_inPlaceOf o _) (((hP.sound hPy).withTimestamp
        (hP.sound hPo).envelope.timestamp).withUpdated htime).envelope
    · obtain rfl := Option.some.inj (hx.symm.trans h)
      have hmerges : Object.MergesKeep P := hw
      clear hx h
      induction hsteps with
      | refl => exact hPo
      | tail _ hstep ih =>
        obtain ⟨other, -, -, merged, hmerge, rfl⟩ := hstep
        exact hP.restamped (hmerges _ _ _ ih hmerge) (merged.restamped_withUpdated _)
          (Object.sound_merged hmerge hnow).envelope
    · rw [h] at hx
      cases hx

/-- Types are recorded in a record that is stored, or in a first one. -/
theorem Holds.recordsTypes (hP : Object.Lasting P) {m m' : Memory} (hm : m.Holds P)
    (hnow : IsInt64 m.supply.now) {app : App} (happ : app.RecordsAre P)
    {os : List Object} (h : RecordsTypes app os m m') :
    m'.Holds P ∧ m'.supply.now = m.supply.now := by
  rcases h with rfl | ⟨pending, -, rfl⟩
  · exact ⟨hm, rfl⟩
  · have hrun {w : Write} (hw : w.Brings P) :
        (w.run m).Holds P ∧ (w.run m).supply.now = m.supply.now :=
      ⟨hm.run hP hnow hw, (w.supply_run m).2⟩
    rcases Registry.recordTypes_cases app pending m with
      h | ⟨record, latest, hget, hlatest, h⟩ | ⟨-, h⟩
    · rw [h]
      exact ⟨hm, rfl⟩
    · have hrecord : P (Registry.addTypes latest pending).1.toObject :=
        hP.record (hm _ _ _ hget) (App.ofObject_eq_ok hlatest).1
          (Registry.envelope_addTypes_ofObject hlatest pending)
      rw [h]
      exact hrun (w := .update app.partition _) hrecord
    · have hrecord : P (Registry.addTypes app pending).1.toObject :=
        happ _ (Registry.envelope_addTypes app pending)
      rw [h]
      exact hrun (w := .create app.partition _) hrecord

end Memory

namespace Call

/-- Whether a request is to merge objects into stored ones. -/
def Merges {τ : Type} : Call τ → Prop
  | .batchUpdate _ => True
  | _ => False

def revised : Call (Option Object) → List Object
  | .update target _ => target.toList
  | _ => []

end Call

namespace Service

variable (config : Config) (background : Background) {P : Object → Prop}

theorem holds_answer (hP : Object.Lasting P) {s : ServiceState Memory} (hs : s.store.Holds P)
    (hnow : IsInt64 s.store.supply.now) {app : App}
    (happ : app.RecordsAre P) {call : Call (Option Object)}
    (htargets : ∀ o ∈ call.revised, P o) (hmerges : call.Merges → Object.MergesKeep P) :
    (((inMemory config background).answer app call).on s).2.store.Holds P := by
  by_cases hcreate : ∃ hint body, call = .create hint body
  · obtain ⟨hint, body, rfl⟩ := hcreate
    rw [answer, create_on]
    cases hdraft : (inMemory config background).draft app hint body with
    | error f => exact hs
    | ok o =>
      obtain ⟨hrecords, hnow'⟩ := Memory.Holds.recordsTypes hP hs hnow happ
        (registerTypes_effect config background app [o] s).1
      dsimp only
      split
      · rename_i hvalid
        have hbrings : (Write.create app.identifier o).Brings P :=
          hP.made (made_of_draft hdraft) hvalid
        exact hrecords.run hP (hnow'.symm ▸ hnow) hbrings
      · exact hrecords
  · obtain ⟨tasks, hdoes, -⟩ := answer_does config background app s call
    generalize (((inMemory config background).answer app call).on s).2.store = after at hdoes ⊢
    cases hdoes with
    | nothing => exact hs
    | records _ _ => exact absurd ⟨_, _, rfl⟩ hcreate
    | creates _ _ => exact absurd ⟨_, _, rfl⟩ hcreate
    | @updates target body o ho =>
      obtain ⟨_, target, -, rfl, -⟩ := revision_eq_ok_iff.mp ho
      have hbrings : (Write.update app.identifier o).Brings P :=
        hP.revised (htargets target (by simp [Call.revised])) ho
      exact hs.run hP hnow hbrings
    | deletes target => exact hs.run (w := .delete app.identifier _) hP hnow trivial
    | @createsAll body items os _ _ hos _ =>
      have hbrings : (Write.createAll app.identifier os).Brings P := by
        intro x hx
        obtain ⟨item, -, hitem⟩ := List.mem_filterMap.mp (hos x hx)
        obtain ⟨o, ⟨-, -, -, hvalid⟩, rfl⟩ := newObject?_eq_some_iff.mp hitem
        refine hP.made (made_of_newObject? hitem) ?_
        rw [(o.restamped_adopt app).isValid]
        exact Object.isValid_iff.mpr hvalid
      exact hs.run hP hnow hbrings
    | updatesAll _ => exact hs.run (w := .updateAll app.identifier _) hP hnow (hmerges trivial)
    | deletesAll ids => exact hs.run (w := .deleteAll app.identifier _) hP hnow trivial

/-- What a service can come to from the empty storage, by requests that are permitted under certain
apps, registrations out of the background, and writes of the records of these apps. -/
inductive Reached (apps : App → Prop) (permits : Memory → Call (Option Object) → Prop) :
    ServiceState Memory → Prop
  | start {supply : Supply} (hsupply : supply.Sound) :
    Reached apps permits ((inMemory config background).initial (.ofSupply supply))
  | act {s : ServiceState Memory} {supply : Supply} {a : Act} (hs : Reached apps permits s)
      (hsupply : supply.Sound)
      (ha : ∀ app call, a = .request app call → apps app ∧ permits s.store call) :
    Reached apps permits ((inMemory config background).act supply s a)
  | record {s : ServiceState Memory} {supply : Supply} {app : App} {owner : AppId} {w : Write}
      (hs : Reached apps permits s) (hsupply : supply.Sound) (happ : apps app)
      (hw : w = .create owner app.toObject ∨ w = .update owner app.toObject) :
    Reached apps permits { s with store := w.run (s.withSupply supply).store }

variable {config background} {apps : App → Prop} {permits : Memory → Call (Option Object) → Prop}

theorem Reached.pending {s : ServiceState Memory} (h : Reached config background apps permits s) :
    ∀ t ∈ s.pending, apps t.app := by
  induction h with
  | start _ =>
    intro t ht
    cases ht
  | @act s supply a hs _ ha ih =>
    have hwait : ∀ t ∈ (s.withSupply supply).pending, apps t.app := ih
    cases a with
    | request app call => exact pending_answer config background (ha app call rfl).1 hwait call
    | registration app index => exact pending_runWaiting config background app index hwait
  | record _ _ _ _ ih => exact ih

theorem Reached.holds (hP : Object.Lasting P)
    (happs : ∀ app, apps app → app.RecordsAre P)
    (hpermits : ∀ m call, m.Holds P → permits m call →
      (∀ o ∈ call.revised, P o) ∧ (call.Merges → Object.MergesKeep P))
    {s : ServiceState Memory} (h : Reached config background apps permits s) : s.store.Holds P := by
  induction h with
  | start _ =>
    intro app id o ho
    cases ho
  | @act s supply a hs hsupply ha ih =>
    have hwait : (s.withSupply supply).store.Holds P := ih
    cases a with
    | request app call =>
      obtain ⟨happ, hcall⟩ := ha app call rfl
      obtain ⟨htargets, hmerges⟩ := hpermits s.store call ih hcall
      exact holds_answer config background hP hwait hsupply.now (happs app happ) htargets hmerges
    | registration app index =>
      refine store_runWaiting (P := (·.Holds P)) config background hwait (fun t ht m hrecords => ?_)
        app index
      exact (hwait.recordsTypes hP hsupply.now (happs t.app (hs.pending t ht)) hrecords).1
  | @record s supply app owner w hs hsupply happ hw ih =>
    have hwait : (s.withSupply supply).store.Holds P := ih
    have hrecord : P app.toObject := happs app happ app rfl
    refine hwait.run hP hsupply.now ?_
    rcases hw with rfl | rfl <;> exact hrecord

end Service

/-- An object of which nothing is told but what a delete looks at. -/
def Object.bare (o : Object) : Object := ((ofType o.type).withId o.id).withAppid o.appid

theorem Object.sound_bare (o : Object) : o.bare.Sound :=
  ((sound_ofType o.type).withId o.id).withAppid o.appid

namespace Service

variable {config : Config} {background : Background}

/-- A delete looks at the identifier and the app of its target and at nothing else. -/
theorem delete_bare (app : App) (target : Option Object) (s : ServiceState Memory) :
    ((inMemory config background).delete app (target.map Object.bare)).on s =
      ((inMemory config background).delete app target).on s := by
  rw [delete_on, delete_on]
  cases target with
  | none => rfl
  | some o =>
    have hlinked : (o.bare.id.isSome && o.bare.appid.isSome) = (o.id.isSome && o.appid.isSome) := rfl
    rw [Option.map_some, Option.filter_some, Option.filter_some, hlinked]
    cases o.id.isSome && o.appid.isSome <;> rfl

/-- What a service comes to under sound apps, where what is updated is sound, can be reached by
writes of sound objects. -/
theorem Reached.reachable {apps : App → Prop} {permits : Memory → Call (Option Object) → Prop}
    (happs : ∀ app, apps app → app.envelope.Sound)
    (hpermits : ∀ m call, m.Consistent → permits m call → ∀ o ∈ call.revised, o.Sound)
    {s : ServiceState Memory} (h : Reached config background apps permits s) : s.Reachable := by
  induction h with
  | start hsupply => exact reachable_initial config background (.empty hsupply)
  | @act s supply a hs hsupply ha ih =>
    have hwait : (s.withSupply supply).Reachable := ⟨.wait ih.store hsupply, ih.pending⟩
    cases a with
    | registration app index => exact reachable_runWaiting config background app index hwait
    | request app call =>
      obtain ⟨happ, hcall⟩ := ha app call rfl
      have hrevised := hpermits s.store call ih.store.consistent hcall
      rw [Service.act]
      cases call with
      | delete target =>
        rw [answer, ← delete_bare]
        have htarget : ∀ o ∈ Call.targets (.delete (target.map Object.bare)), o.Sound := by
          intro o ho
          obtain ⟨x, -, rfl⟩ := Option.map_eq_some_iff.mp (Option.mem_toList.mp ho)
          exact x.sound_bare
        exact reachable_answer config background (happs app happ) hwait htarget
      | update target body => exact reachable_answer config background (happs app happ) hwait hrevised
      | _ => exact reachable_answer config background (happs app happ) hwait (by rintro o ⟨⟩)
  | @record s supply app owner w hs hsupply happ hw ih =>
    have hwait : (s.withSupply supply).store.Reachable := .wait ih.store hsupply
    refine ⟨.write hwait (fun o ho => ?_), ih.pending⟩
    have hobjects : w.objects = [app.toObject] := by rcases hw with rfl | rfl <;> rfl
    rw [hobjects, List.mem_singleton] at ho
    rw [ho]
    exact App.sound_toObject (happs app happ)

end Service

namespace Object

theorem wellFormed_made {σ : Type} {svc : Service σ} {app : App} {o : Object}
    (h : svc.Made app o) : o.WellFormed := by
  obtain ⟨fields, x, hx, rfl⟩ := h
  exact (x.restamped_adopt app).wellFormed (wellFormed_ofFields hx)
    (app.sound_adopt (sound_ofFields hx)).envelope

theorem WellFormed.revision {σ : Type} {svc : Service σ} {app : App} {target o : Object}
    {body : RequestBody} (ht : target.WellFormed)
    (h : svc.revision app (some target) body = .ok o) : o.WellFormed := by
  obtain ⟨fields, t, -, heq, -, -, hchange, -⟩ := Service.revision_eq_ok_iff.mp h
  obtain rfl := Option.some.inj heq
  have hstamped := (target.restamped_stamp app).wellFormed ht (ht.sound.withShardKey _).envelope
  exact hstamped.apply hchange

theorem WellFormed.record {o : Object} {a : App} (ho : o.WellFormed) (hshape : o.shape = some .app)
    (henvelope : a.envelope = o.envelope) : a.toObject.WellFormed := by
  refine App.wellFormed_toObject ⟨henvelope ▸ ho.sound.envelope, ?_⟩
  rw [henvelope]
  exact (ho.typed.singular hshape).symm

theorem lasting_wellFormed : Lasting WellFormed where
  sound := WellFormed.sound
  restamped ho h hsound := h.wellFormed ho hsound
  record := WellFormed.record
  made h _ := wellFormed_made h
  revised := WellFormed.revision

theorem lasting_valid : Lasting (fun o => o.WellFormed ∧ o.isValid) where
  sound ho := ho.1.sound
  restamped ho h hsound := ⟨h.wellFormed ho.1 hsound, h.isValid ▸ ho.2⟩
  record := by
    rintro o a ⟨ho, hvalid⟩ hshape henvelope
    have ha := ho.record hshape henvelope
    rw [isValid_iff, App.violations_toObject_of_eq ho hshape henvelope ha] at hvalid
    exact ⟨ha, isValid_iff.mpr hvalid⟩
  made h hvalid := ⟨wellFormed_made h, hvalid⟩
  revised := by
    rintro svc app target body o ⟨ht, -⟩ h
    obtain ⟨_, _, -, -, -, -, -, hvalid⟩ := Service.revision_eq_ok_iff.mp h
    exact ⟨ht.revision h, hvalid⟩

end Object

namespace Service

/-- What is updated is an object that is stored, or one that is read from fields. Whatever can be
obtained is of the second kind. -/
def TargetsKnown (m : Memory) (call : Call (Option Object)) : Prop :=
  ∀ o ∈ call.revised, (∃ owner id, m.get? owner id = some o) ∨
    ∃ fields, Object.ofFields fields = .ok o

theorem Reached.wellFormed {config : Config} {background : Background} {s : ServiceState Memory}
    (hs : Reached config background App.WellFormed TargetsKnown s) : s.store.Holds Object.WellFormed := by
  refine hs.holds Object.lasting_wellFormed (fun app happ a henvelope => ?_)
    (fun m call hm hcall => ⟨fun x hx => ?_, fun _ _ _ _ => Object.WellFormed.mergeFrom⟩)
  · exact App.wellFormed_toObject ⟨henvelope ▸ happ.sound, henvelope ▸ happ.type⟩
  · rcases hcall x hx with ⟨owner, id, hget⟩ | ⟨fields, hread⟩
    · exact hm owner id x hget
    · exact Object.wellFormed_ofFields hread

theorem Reached.consistent {config : Config} {background : Background} {s : ServiceState Memory}
    (hs : Reached config background App.WellFormed TargetsKnown s) : s.store.Consistent := by
  refine (hs.reachable (fun app happ => happ.sound) (fun m call hm hcall x hx => ?_)).store.consistent
  rcases hcall x hx with ⟨owner, id, hget⟩ | ⟨fields, hread⟩
  · exact (hm.partitions owner id x hget).sound
  · exact Object.sound_ofFields hread

/-- An object that is stored, or is made of fields, or of such an object by a change or a merge. -/
inductive Obtained (config : Config) (background : Background) : Object → Prop
  | stored {s : ServiceState Memory} {owner : AppId} {id : String} {o : Object}
      (hs : Reached config background App.WellFormed TargetsKnown s)
      (ho : s.store.get? owner id = some o) : Obtained config background o
  | read {fields : FieldMap} {o : Object} (h : Object.ofFields fields = .ok o) :
    Obtained config background o
  | decoded {names : FieldNames} {fields : FieldMap} {o : Object}
      (h : names.toObject fields = .ok o) : Obtained config background o
  | decodedThrough {names : FieldNames} {fields : FieldMap} {filter : FieldFilter} {o : Object}
      (h : names.toObjectThrough fields filter = .ok o) : Obtained config background o
  | changed {names : FieldNames} {fields : FieldMap} {filter : FieldFilter} {o o' : Object}
      (ho : Obtained config background o) (h : names.change o fields filter = .ok o') :
    Obtained config background o'
  | merged {o other o' : Object} (ho : Obtained config background o)
      (h : o.mergeFrom other = .ok o') : Obtained config background o'

/-- A dog and a vote of `shop`, each updated once; the record of `shop` is stored on the way. -/
def dogAndVote : ServiceState Memory :=
  let svc := inMemory {} .queued
  let create (s : ServiceState Memory) (text : String) :=
    svc.act .still s (.request .shop (.create none (.ofText text)))
  let update (s : ServiceState Memory) (id text : String) :=
    svc.act .still s
      (.request .shop (.update (s.store.get? App.shop.identifier id) (.ofText text)))
  let s := create (svc.initial (.ofSupply .still))
    "\x7b\"type\":\"dog\",\"id\":\"d\",\"name\":\"Rex\",\"toys\":[null,\x7b\"k\":null\x7d]\x7d"
  let s := create s "\x7b\"type\":\"vote\",\"id\":\"v\",\"value\":-1\x7d"
  update (update s "d" "\x7b\"name\":null,\"age\":7\x7d") "v" "\x7b\"value\":1,\"updated\":3\x7d"

theorem reached_dogAndVote {apps : App → Prop}
    {permits : Memory → Call (Option Object) → Prop} (happ : apps .shop)
    (hcreate : ∀ m hint body, permits m (.create hint body))
    (hupdate : ∀ m owner id body, permits m (.update (m.get? owner id) body)) :
    Reached {} .queued apps permits dogAndVote := by
  have create {s : ServiceState Memory} (hs : Reached {} .queued apps permits s)
      (body : RequestBody) : Reached {} .queued apps permits
        ((inMemory {} .queued).act .still s (.request .shop (.create none body))) := by
    refine .act hs Supply.sound_still ?_
    rintro app call ⟨⟩
    exact ⟨happ, hcreate _ _ _⟩
  have update {s : ServiceState Memory} (hs : Reached {} .queued apps permits s) (id : String)
      (body : RequestBody) : Reached {} .queued apps permits
        ((inMemory {} .queued).act .still s
          (.request .shop (.update (s.store.get? App.shop.identifier id) body))) := by
    refine .act hs Supply.sound_still ?_
    rintro app call ⟨⟩
    exact ⟨happ, hupdate _ _ _ _⟩
  exact update (update (create (create (.start Supply.sound_still) _) _) "d" _) "v" _

theorem wellFormed_shop : App.shop.WellFormed := ⟨App.sound_shop, rfl⟩

/-- Every object that is stored or can be made is well formed, and its fields say all about it: read
back they give the object. -/
theorem obtained_readsBack {config : Config} {background : Background} {o : Object}
    (h : Obtained config background o) : o.WellFormed ∧ o.ReadsBack := by
  have hwell : o.WellFormed := by
    induction h with
    | @stored s owner id o hs ho =>
      refine hs.holds Object.lasting_wellFormed (fun app happ a henvelope => ?_)
        (fun m call hm hcall => ⟨fun x hx => ?_, fun _ _ _ _ => Object.WellFormed.mergeFrom⟩) owner id o ho
      · exact App.wellFormed_toObject ⟨henvelope ▸ happ.sound, henvelope ▸ happ.type⟩
      · rcases hcall x hx with ⟨owner, id, hget⟩ | ⟨fields, hread⟩
        · exact hm owner id x hget
        · exact Object.wellFormed_ofFields hread
    | read h => exact Object.wellFormed_ofFields h
    | decoded h => exact Object.wellFormed_ofFields h
    | decodedThrough h => exact Object.wellFormed_toObjectThrough h
    | changed _ h ih => exact ih.apply h
    | merged _ h ih => exact ih.mergeFrom h
  exact ⟨hwell, hwell.readsBack⟩

theorem obtained_readsBack_dog :
    ∃ o, dogAndVote.store.get? App.shop.identifier "d" = some o ∧ Obtained {} .queued o ∧
      o.WellFormed ∧ o.ReadsBack := by
  have hsome : (dogAndVote.store.get? App.shop.identifier "d").isSome := by decide +kernel
  obtain ⟨o, ho⟩ := Option.isSome_iff_exists.mp hsome
  have hreached : Reached {} .queued App.WellFormed TargetsKnown dogAndVote := by
    refine reached_dogAndVote wellFormed_shop (by rintro m hint body o ⟨⟩) (fun m owner id body => ?_)
    exact fun o ho => .inl ⟨owner, id, Option.mem_toList.mp ho⟩
  exact ⟨o, ho, .stored hreached ho, obtained_readsBack (.stored hreached ho)⟩

/-- Requests that merge nothing and update objects as they are stored. -/
def Unmerged (m : Memory) (call : Call (Option Object)) : Prop :=
  ¬ call.Merges ∧ call.UpdatesStored m

def ShortNamed (app : App) : Prop :=
  app.WellFormed ∧ ∀ n, app.envelope.name = some n → n.length ≤ 255

/-- Without merges all objects that are stored are valid, and no stamp makes an object invalid or
valid. -/
theorem stored_violations_nil {config : Config} {background : Background} {s : ServiceState Memory}
    (h : Reached config background ShortNamed Unmerged s) :
    (∀ owner id o, s.store.get? owner id = some o → o.violations = []) ∧
      ∀ (o stored : Object) (app : App) (id : String) (time : Int),
        (app.adopt o).violations = o.violations ∧ (app.stamp o).violations = o.violations ∧
          (o.asNew id time).violations = o.violations ∧
          (o.inPlaceOf stored time).violations = o.violations := by
  refine ⟨fun owner id o ho => ?_, fun o stored app id time => ?_⟩
  · have hvalid := h.holds Object.lasting_valid (fun app happ a henvelope => ?_)
      (fun m call hm hcall => ⟨fun x hx => ?_, fun hmerges => absurd hmerges hcall.1⟩) owner id o ho
    · exact Object.isValid_iff.mp hvalid.2
    · obtain ⟨hwell, hname⟩ := happ
      have ha : a.WellFormed := ⟨henvelope ▸ hwell.sound, henvelope ▸ hwell.type⟩
      rw [← henvelope] at hname
      exact ⟨App.wellFormed_toObject ha,
        Object.isValid_iff.mpr (App.violations_toObject ha hname)⟩
    · cases call with
      | update target body =>
        obtain ⟨owner, id, rfl⟩ := hcall.2
        exact hm owner id x (Option.mem_toList.mp hx)
      | _ => cases hx
  · exact ⟨(o.restamped_adopt app).violations, (o.restamped_stamp app).violations,
      (o.restamped_asNew id time).violations, (o.restamped_inPlaceOf stored time).violations⟩

theorem stored_violations_nil_vote :
    Reached {} .queued ShortNamed Unmerged dogAndVote ∧
      ∃ o, dogAndVote.store.get? App.shop.identifier "v" = some o ∧ o.violations = [] := by
  have hshort : ShortNamed .shop := by
    refine ⟨wellFormed_shop, ?_⟩
    rintro n ⟨⟩
    decide
  have hreached : Reached {} .queued ShortNamed Unmerged dogAndVote :=
    reached_dogAndVote hshort (fun _ _ _ => ⟨fun h => h, trivial⟩)
      (fun m owner id body => ⟨fun h => h, owner, id, rfl⟩)
  have hsome : (dogAndVote.store.get? App.shop.identifier "v").isSome := by decide +kernel
  obtain ⟨o, ho⟩ := Option.isSome_iff_exists.mp hsome
  exact ⟨hreached, o, ho, (stored_violations_nil hreached).1 _ _ o ho⟩

end Service
end ObjectDepot
