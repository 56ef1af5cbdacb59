import ObjectDepot.Proofs.Effects

/-! Runs of a service. One of the registrations that wait for an app is taken without the other apps
being concerned, and whatever happens to a service, its storage stays one that can be reached. -/

namespace ObjectDepot

theorem takeWaiting_filter (app : AppId) (index : Nat) (tasks : List Registration) :
    (takeWaiting app index tasks).map
        (fun r => (r.1, r.2.filter (fun t => t.app.identifier = app))) =
      takeWaiting app index (tasks.filter (fun t => t.app.identifier = app)) := by
  induction tasks generalizing index with
  | nil => rfl
  | cons t tasks ih =>
    by_cases ht : t.app.identifier = app
    · rw [List.filter_cons_of_pos (by simpa using ht)]
      cases index with
      | zero => simp [takeWaiting, ht]
      | succ index =>
        simp only [takeWaiting, ht, if_true, ← ih, Option.map_map]
        congr 1
        funext r
        simp [ht]
    · rw [List.filter_cons_of_neg (by simpa using ht), ← ih]
      simp only [takeWaiting, ht, if_false, Option.map_map]
      congr 1
      funext r
      simp [ht]

theorem takeWaiting_spec {app : AppId} {index : Nat} {tasks rest : List Registration}
    {t : Registration} (h : takeWaiting app index tasks = some (t, rest)) :
    t ∈ tasks ∧ t.app.identifier = app ∧ (∀ x ∈ rest, x ∈ tasks) ∧
      ∀ other, other ≠ app →
        rest.filter (fun t => t.app.identifier = other) =
          tasks.filter (fun t => t.app.identifier = other) := by
  induction tasks generalizing index rest with
  | nil => cases h
  | cons x tasks ih =>
    have hskip {index : Nat}
        (h : (takeWaiting app index tasks).map (fun r => (r.1, x :: r.2)) = some (t, rest)) :
        t ∈ x :: tasks ∧ t.app.identifier = app ∧ (∀ y ∈ rest, y ∈ x :: tasks) ∧
          ∀ other, other ≠ app →
            rest.filter (fun t => t.app.identifier = other) =
              (x :: tasks).filter (fun t => t.app.identifier = other) := by
      obtain ⟨⟨t', rest'⟩, htake, heq⟩ := Option.map_eq_some_iff.mp h
      cases heq
      obtain ⟨hmem, howner, hrest, hothers⟩ := ih htake
      refine ⟨List.mem_cons_of_mem _ hmem, howner, fun y hy => ?_, fun other hother => ?_⟩
      · rcases List.mem_cons.mp hy with rfl | hy
        · exact List.mem_cons_self
        · exact List.mem_cons_of_mem _ (hrest y hy)
      · rw [List.filter_cons, List.filter_cons, hothers other hother]
    unfold takeWaiting at h
    split at h
    · rename_i hx
      cases index with
      | zero =>
        cases h
        refine ⟨List.mem_cons_self, hx, fun y hy => List.mem_cons_of_mem _ hy,
          fun other hother => ?_⟩
        rw [List.filter_cons_of_neg (by simpa [hx] using hother.symm)]
      | succ index => exact hskip h
    · exact hskip h

namespace Memory

theorem reachable_recordsTypes {app : App} (happ : app.envelope.Sound) {os : List Object}
    {m m' : Memory} (hm : m.Reachable) (h : RecordsTypes app os m m') : m'.Reachable := by
  rcases h.writes with rfl | ⟨w, a, hobjects, rfl, henvelope⟩
  · exact hm
  · have ha : a.envelope.Sound := by
      rcases henvelope with henvelope | ⟨record, hget, -, henvelope⟩
      · rw [henvelope]
        exact happ
      · rw [henvelope]
        exact (hm.consistent.partitions app.partition _ _ hget).sound.envelope
    refine .write hm (fun o ho => ?_)
    rw [hobjects, List.mem_singleton] at ho
    rw [ho]
    exact App.sound_toObject ha

theorem reachable_writesOnce {app : AppId} {condition : Prop} (hcondition : condition)
    {m m' : Memory} (hm : m.Reachable) (h : WritesOnce app condition m m') : m'.Reachable := by
  rcases h with rfl | ⟨w, -, hw, rfl⟩
  · exact hm
  · exact .write hm (hw hcondition)

end Memory

/-- A state whose storage can be reached, and in which sound apps alone wait for registrations. -/
structure ServiceState.Reachable (s : ServiceState Memory) : Prop where
  store : s.store.Reachable
  pending : ∀ t ∈ s.pending, t.app.envelope.Sound

/-- Something that can happen: at a time that there is, and under an app that there can be. -/
structure Event.Sound (e : Event) : Prop where
  supply : e.supply.Sound
  app : ∀ app call, e.action = .request app call → app.envelope.Sound

namespace Service

variable (config : Config) (background : Background)

theorem step_request (svc : Service Memory) (supply : Supply) (app : App) (call : Call String)
    (s : ServiceState Memory) :
    svc.step ⟨supply, .request app call⟩ s =
      let result := (svc.answer app (call.map (s.store.get? app.identifier))).on
        (s.withSupply supply)
      (some result.1, result.2) := rfl

theorem step_registration (svc : Service Memory) (supply : Supply) (app : AppId) (index : Nat)
    (s : ServiceState Memory) :
    svc.step ⟨supply, .registration app index⟩ s =
      (none, svc.runWaiting app index (s.withSupply supply)) := rfl

theorem runWaiting_of_none {svc : Service Memory} {app : AppId} {index : Nat}
    {s : ServiceState Memory} (h : takeWaiting app index s.pending = none) :
    svc.runWaiting app index s = s := by
  rw [runWaiting, h]

theorem runWaiting_of_some {app : AppId} {index : Nat} {s : ServiceState Memory}
    {t : Registration} {rest : List Registration}
    (h : takeWaiting app index s.pending = some (t, rest)) :
    RecordsTypes t.app t.objects s.store
        ((inMemory config background).runWaiting app index s).store ∧
      ((inMemory config background).runWaiting app index s).pending = rest := by
  rw [runWaiting, h]
  exact registerTypes_effect config background t.app t.objects { s with pending := rest }

/-- To run a registration that waits, if there is one, is to record the types of its objects. -/
theorem runWaiting_records (app : AppId) (index : Nat) (s : ServiceState Memory) :
    ((inMemory config background).runWaiting app index s).store = s.store ∨
      ∃ t ∈ s.pending, RecordsTypes t.app t.objects s.store
        ((inMemory config background).runWaiting app index s).store := by
  cases htake : takeWaiting app index s.pending with
  | none =>
    rw [runWaiting_of_none htake]
    exact .inl rfl
  | some taken =>
    have hmem := (takeWaiting_spec htake).1
    exact .inr ⟨taken.1, hmem, (runWaiting_of_some config background htake).1⟩

/-- What holds of a storage, and of what recording types makes of it, holds after a registration. -/
theorem store_runWaiting {P : Memory → Prop} {s : ServiceState Memory} (hs : P s.store)
    (hrecords : ∀ t ∈ s.pending, ∀ m, RecordsTypes t.app t.objects s.store m → P m) (app : AppId)
    (index : Nat) : P ((inMemory config background).runWaiting app index s).store := by
  rcases runWaiting_records config background app index s with h | ⟨t, ht, h⟩
  · rw [h]
    exact hs
  · exact hrecords t ht _ h

theorem run_cons (svc : Service Memory) (e : Event) (events : List Event)
    (s : ServiceState Memory) :
    svc.run (e :: events) s =
      (((svc.step e s).1.map (e.app, ·)).toList ++ (svc.run events (svc.step e s).2).1,
        (svc.run events (svc.step e s).2).2) := rfl

/-- What every step keeps, a run keeps. -/
theorem run_keeps {svc : Service Memory} {P : ServiceState Memory → Prop} {Q : Event → Prop}
    (hstep : ∀ e s, Q e → P s → P (svc.step e s).2) {events : List Event}
    (hevents : ∀ e ∈ events, Q e) {s : ServiceState Memory} (hs : P s) :
    P (svc.run events s).2 := by
  induction events generalizing s with
  | nil => exact hs
  | cons e events ih =>
    obtain ⟨he, hrest⟩ := List.forall_mem_cons.mp hevents
    rw [run_cons]
    exact ih hrest (hstep e s he hs)

section Pending

variable {P : App → Prop} {s : ServiceState Memory}

theorem pending_answer {app : App} (happ : P app) (hs : ∀ t ∈ s.pending, P t.app)
    (call : Call (Option Object)) :
    ∀ t ∈ (((inMemory config background).answer app call).on s).2.pending, P t.app := by
  intro t ht
  obtain ⟨-, tasks, hpending, htasks⟩ := answer_effect config background app s call
  rw [hpending] at ht
  rcases List.mem_append.mp ht with ht | ht
  · exact hs t ht
  · rw [(htasks t ht).1]
    exact happ

theorem pending_runWaiting (app : AppId) (index : Nat) (hs : ∀ t ∈ s.pending, P t.app) :
    ∀ t ∈ ((inMemory config background).runWaiting app index s).pending, P t.app := by
  cases htake : takeWaiting app index s.pending with
  | none =>
    rw [runWaiting_of_none htake]
    exact hs
  | some taken =>
    obtain ⟨-, -, hrest, -⟩ := takeWaiting_spec htake
    intro t ht
    rw [(runWaiting_of_some config background htake).2] at ht
    exact hs t (hrest t ht)

/-- What holds of the apps that ask holds of the apps that wait. -/
theorem pending_step {e : Event} (he : ∀ app call, e.action = .request app call → P app)
    (hs : ∀ t ∈ s.pending, P t.app) :
    ∀ t ∈ ((inMemory config background).step e s).2.pending, P t.app := by
  obtain ⟨supply, action⟩ := e
  have hwait : ∀ t ∈ (s.withSupply supply).pending, P t.app := hs
  cases action with
  | request app call =>
    rw [step_request]
    exact pending_answer config background (he app call rfl) hwait _
  | registration app index =>
    rw [step_registration]
    exact pending_runWaiting config background app index hwait

end Pending

theorem reachable_initial {m : Memory} (hm : m.Reachable) :
    ((inMemory config background).initial m).Reachable :=
  ⟨hm, by intro t ht; cases ht⟩

theorem stored_of_mem_targets {m : Memory} {app : AppId} {call : Call String} {o : Object}
    (h : o ∈ (call.map (m.get? app)).targets) : ∃ id, m.get? app id = some o := by
  cases call with
  | update target body => exact ⟨target, Option.mem_toList.mp h⟩
  | delete target => exact ⟨target, Option.mem_toList.mp h⟩
  | _ => cases h

theorem reachable_answer {app : App} (happ : app.envelope.Sound) {s : ServiceState Memory}
    (hs : s.Reachable) {call : Call (Option Object)} (htargets : ∀ o ∈ call.targets, o.Sound) :
    (((inMemory config background).answer app call).on s).2.Reachable := by
  obtain ⟨⟨m, hrecords, hwrites⟩, -⟩ := answer_effect config background app s call
  refine ⟨?_, pending_answer (P := (·.envelope.Sound)) config background happ hs.pending call⟩
  exact Memory.reachable_writesOnce ⟨hs.store.consistent, htargets⟩
    (Memory.reachable_recordsTypes happ hs.store hrecords) hwrites

theorem reachable_runWaiting (app : AppId) (index : Nat) {s : ServiceState Memory}
    (hs : s.Reachable) : ((inMemory config background).runWaiting app index s).Reachable := by
  refine ⟨?_, pending_runWaiting (P := (·.envelope.Sound)) config background app index hs.pending⟩
  refine store_runWaiting config background hs.store (fun t ht m hrecords => ?_) app index
  exact Memory.reachable_recordsTypes (hs.pending t ht) hs.store hrecords

theorem reachable_step {e : Event} (he : e.Sound) {s : ServiceState Memory} (hs : s.Reachable) :
    ((inMemory config background).step e s).2.Reachable := by
  obtain ⟨supply, action⟩ := e
  have hwait : (s.withSupply supply).Reachable := ⟨.wait hs.store he.supply, hs.pending⟩
  cases action with
  | request app call =>
    rw [step_request]
    refine reachable_answer config background (he.app app call rfl) hwait (fun o ho => ?_)
    obtain ⟨id, hid⟩ := stored_of_mem_targets ho
    exact (hs.store.consistent.partitions app.identifier id o hid).sound
  | registration app index =>
    rw [step_registration]
    exact reachable_runWaiting config background app index hwait

/-- Whatever happens to a service, its storage can be reached by writes of sound objects. -/
theorem reachable_run {events : List Event} (hevents : ∀ e ∈ events, e.Sound)
    {s : ServiceState Memory} (hs : s.Reachable) :
    ((inMemory config background).run events s).2.Reachable :=
  run_keeps (fun _ _ he hs => reachable_step config background he hs) hevents hs

end Service

def RequestBody.ofText (text : String) : RequestBody := [.bytes text.toUTF8.toList]

/-- An app whose record lives in the partition of `root`. -/
def App.shop : App := .named "shop" ⟨"root"⟩

theorem App.sound_shop : App.shop.envelope.Sound := ⟨by rintro t ⟨⟩, by rintro t ⟨⟩⟩

namespace Service

/-- What a new service comes to by creating objects for `shop`. -/
def shopState (bodies : List RequestBody) : ServiceState Memory :=
  ((inMemory {} .queued).run (bodies.map (fun b => ⟨.still, .request .shop (.create none b)⟩))
    ((inMemory {} .queued).initial (.ofSupply .still))).2

theorem shopState_reachable (bodies : List RequestBody) : (shopState bodies).Reachable := by
  refine reachable_run {} .queued ?_ (reachable_initial {} .queued (.empty Supply.sound_still))
  intro e he
  obtain ⟨b, -, rfl⟩ := List.mem_map.mp he
  refine ⟨Supply.sound_still, fun app call h => ?_⟩
  cases h
  exact App.sound_shop

end Service
end ObjectDepot
