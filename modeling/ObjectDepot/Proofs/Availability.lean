import ObjectDepot.Proofs.Identity
import ObjectDepot.Proofs.RecordNames
import ObjectDepot.Proofs.TypedBodies

/-! When an app is found for whoever asks. What stands under the identifier of a record and is no app
makes the resolution fail, for the root app's record that of all principals without a record of their
own. Only a request under the root app that creates such an object brings that about. -/

namespace ObjectDepot

theorem Config.root_not_blank {c : Config} (h : c.faults = []) : c.root.isBlank = false := by
  cases hblank : c.root.isBlank with
  | false => rfl
  | true => simp [faults, hblank] at h

namespace Object

theorem Typed.shape_eq_app_iff {o : Object} (h : o.Typed) :
    o.shape = some .app ↔ o.type = "app" := by
  refine ⟨fun hshape => (h.singular hshape).symm, fun htype => ?_⟩
  rw [h, htype]
  rfl

theorem isApp_iff_type {o : Object} {root owner : AppId} (h : o.StoredUnder root owner.objectId)
    (htyped : o.Typed) (hblank : owner.isBlank = false) : o.IsApp ↔ o.type = "app" := by
  rw [← htyped.shape_eq_app_iff]
  exact ⟨fun ho => ho.1, isApp_of_shape h hblank⟩

end Object

theorem RecordsTypes.type_of_new {app : App} (happ : app.WellFormed) {os : List Object}
    {m m' : Memory} (hm : m.TypedReachable) (h : RecordsTypes app os m m') {owner : AppId}
    {id : String} {x : Object} (hnone : m.get? owner id = none) (hx : m'.get? owner id = some x) :
    x.type = "app" := by
  rcases h.writes with rfl | ⟨w, a, hobjects, rfl, henvelope⟩
  · rw [hnone] at hx
    cases hx
  · obtain ⟨-, -, o, ho, htype⟩ := Write.new_of_missing hnone hx
    rw [hobjects, List.mem_singleton] at ho
    subst ho
    rw [htype]
    rcases henvelope with henvelope | ⟨record, hget, hshape, henvelope⟩
    · exact (congrArg Envelope.type henvelope).trans happ.type
    · have hrecord := (hm.typed _ _ record hget).shape_eq_app_iff.mp hshape
      exact (congrArg Envelope.type henvelope).trans hrecord

namespace Service

/-- What is new to a storage after a request is a record of an app, or was created in the partition
of the app. -/
theorem Does.new_of_missing {svc : Service Memory} {app : App} (happ : app.WellFormed)
    {m m' : Memory} (hm : m.TypedReachable) {call : Call (Option Object)}
    {tasks : List Registration} (h : Does svc app m call m' tasks) {owner : AppId} {id : String}
    {x : Object} (hnone : m.get? owner id = none) (hx : m'.get? owner id = some x) :
    x.type = "app" ∨ owner = app.identifier ∧ call.Creates := by
  cases h with
  | nothing =>
    rw [hnone] at hx
    cases hx
  | records _ hrecords => exact .inl (hrecords.type_of_new happ hm hnone hx)
  | @creates _ _ o m₁ _ hrecords =>
    rcases Write.old_or_new (w := .create app.identifier o) trivial hx with hold | ⟨hfree, -⟩
    · exact .inl (hrecords.type_of_new happ hm hnone hold)
    · exact .inr ⟨(Write.new_of_missing hfree hx).1, trivial⟩
  | createsAll => exact .inr ⟨(Write.new_of_missing hnone hx).1, trivial⟩
  | updates => exact (Write.new_of_missing hnone hx).2.1.elim
  | deletes => exact (Write.new_of_missing hnone hx).2.1.elim
  | updatesAll => exact (Write.new_of_missing hnone hx).2.1.elim
  | deletesAll => exact (Write.new_of_missing hnone hx).2.1.elim

end Service

/-- Whether nothing but an app stands in the place of a record. -/
def Memory.OnlyApp (m : Memory) (root owner : AppId) : Prop :=
  ∀ o, m.get? root owner.objectId = some o → o.type = "app"

/-- Something that is done under one of the apps that were found, with targets that there can be. -/
def Act.Under (apps : List App) : Act → Prop
  | .request app call => app ∈ apps ∧ ∀ o ∈ call.targets, o.Sound ∧ o.Typed
  | .registration _ _ => True

namespace Service

/-- What becomes of a new service, with the apps that were found for principals on the way. -/
inductive Served (svc : Service Memory) : List App → ServiceState Memory → Prop
  | start {supply : Supply} (hsupply : supply.Sound) :
    Served svc [] (svc.initial (.ofSupply supply))
  | resolve {apps : List App} {s : ServiceState Memory} {app : App} (h : Served svc apps s)
      (principal : Principal) (happ : ((svc.resolve principal).on s).1 = .ok app) :
    Served svc (app :: apps) s
  | act {apps : List App} {s : ServiceState Memory} {supply : Supply} {a : Act}
      (h : Served svc apps s) (hsupply : supply.Sound) (ha : a.Under apps) :
    Served svc apps (svc.act supply s a)

def Finds (svc : Service Memory) (s : ServiceState Memory) (principal : Principal) : Prop :=
  ∃ app, ((svc.resolve principal).on s).1 = .ok app

/-- Whether every principal gets one, unless it names an app by a blank identifier. -/
def Available (svc : Service Memory) (s : ServiceState Memory) : Prop :=
  ∀ principal : Principal, (∀ owner, principal.appid? = some owner → owner.isBlank = false) →
    svc.Finds s principal

variable (config : Config) (background : Background) {s : ServiceState Memory}

theorem wellFormed_root (root : AppId) : (App.root root).WellFormed :=
  ⟨⟨by rintro t ⟨⟩, by rintro t ⟨⟩⟩, rfl⟩

theorem wellFormed_of_resolve (hs : s.store.TypedReachable) {principal : Principal} {app : App}
    (h : (((inMemory config background).resolve principal).on s).1 = .ok app) :
    app.WellFormed := by
  have hconsistent := hs.reachable.consistent
  refine of_resolve config background hconsistent (wellFormed_root config.root)
    (fun owner o a ho happ hdescribes => ⟨?_, ?_⟩) h
  · rw [hdescribes.envelope]
    exact (hconsistent.partitions config.root owner.objectId o ho).sound.envelope
  · rw [hdescribes.envelope]
    exact (hs.typed _ _ o ho).shape_eq_app_iff.mp happ.1

theorem typedReachable_act {supply : Supply} {a : Act} (hsupply : supply.Sound) {apps : List App}
    (happs : ∀ app ∈ apps, app.WellFormed) (ha : a.Under apps) (hs : s.TypedReachable) :
    ((inMemory config background).act supply s a).TypedReachable := by
  have hwait : (s.withSupply supply).TypedReachable := ⟨.wait hs.store hsupply, hs.pending⟩
  cases a with
  | request app call => exact typedReachable_answer config background (happs app ha.1) hwait ha.2
  | registration app index => exact typedReachable_runWaiting config background app index hwait

theorem Served.typedReachable {apps : List App}
    (h : (inMemory config background).Served apps s) :
    s.TypedReachable ∧ ∀ app ∈ apps, app.WellFormed := by
  induction h with
  | start hsupply => exact ⟨⟨.empty hsupply, by rintro t ⟨⟩⟩, by rintro app ⟨⟩⟩
  | resolve _ principal happ ih =>
    refine ⟨ih.1, fun app hmem => ?_⟩
    rcases List.mem_cons.mp hmem with rfl | hmem
    · exact wellFormed_of_resolve config background ih.1.store happ
    · exact ih.2 app hmem
  | act _ hsupply ha ih => exact ⟨typedReachable_act config background hsupply ih.2 ha ih.1, ih.2⟩

theorem finds_iff (hs : s.store.TypedReachable) (hroot : config.root.isBlank = false)
    {principal : Principal} (hnamed : (principal.appid?.getD config.root).isBlank = false) :
    (inMemory config background).Finds s principal ↔
      s.store.OnlyApp config.root (principal.appid?.getD config.root) ∧
        (s.store.get? config.root (principal.appid?.getD config.root).objectId = none →
          s.store.OnlyApp config.root config.root) := by
  have hconsistent := hs.reachable.consistent
  have hlooked := (lookedUp_resolve config background principal hconsistent).2
  have hanonymous : LookedUp s.store config.root config.root (.ok (.root config.root))
      (((inMemory config background).resolve .anonymous).on s).1 :=
    (lookedUp_rootApp config background hconsistent).2
  have honly {owner : AppId} (hblank : owner.isBlank = false) :
      (∀ o, s.store.get? config.root owner.objectId = some o → o.IsApp) ↔
        s.store.OnlyApp config.root owner :=
    forall₂_congr (fun o ho => Object.isApp_iff_type
      (hconsistent.partitions config.root owner.objectId o ho).toStoredUnder (hs.typed _ _ o ho)
      hblank)
  rw [Finds, hlooked.exists_ok_iff, hanonymous.exists_ok_iff, honly hnamed, honly hroot]
  simp

theorem available_iff (hs : s.store.TypedReachable) (hroot : config.root.isBlank = false) :
    (inMemory config background).Available s ↔
      ∀ owner : AppId, owner.isBlank = false → s.store.OnlyApp config.root owner := by
  constructor
  · intro h owner hblank
    have hnamed : ((Principal.app owner).appid?.getD config.root).isBlank = false := hblank
    have hfound := h (.app owner) (fun other hother => Option.some.inj hother ▸ hblank)
    exact ((finds_iff config background hs hroot hnamed).mp hfound).1
  · intro h principal hp
    have hnamed : (principal.appid?.getD config.root).isBlank = false := by
      cases happid : principal.appid? with
      | none => exact hroot
      | some owner => exact hp owner happid
    exact (finds_iff config background hs hroot hnamed).mpr ⟨h _ hnamed, fun _ => h _ hroot⟩

variable {supply : Supply} {a : Act} {apps : List App}

theorem type_of_new (hs : s.TypedReachable) (happs : ∀ app ∈ apps, app.WellFormed)
    (hsupply : supply.Sound) (ha : a.Under apps) {owner : AppId} {id : String} {x : Object}
    (hnone : s.store.get? owner id = none)
    (hx : ((inMemory config background).act supply s a).store.get? owner id = some x) :
    x.type = "app" ∨
      ∃ app ∈ apps, ∃ call, a = .request app call ∧ owner = app.identifier ∧ call.Creates := by
  have hwait : (s.withSupply supply).store.TypedReachable := .wait hs.store hsupply
  cases a with
  | request app call =>
    obtain ⟨tasks, hdoes, -⟩ := answer_does config background app (s.withSupply supply) call
    rcases hdoes.new_of_missing (happs app ha.1) hwait hnone hx with htype | ⟨howner, hcreates⟩
    · exact .inl htype
    · exact .inr ⟨app, ha.1, call, rfl, howner, hcreates⟩
  | registration app index =>
    rw [act] at hx
    rcases runWaiting_records config background app index (s.withSupply supply) with
      h | ⟨t, ht, hrecords⟩
    · rw [h] at hx
      cases hnone.symm.trans hx
    · exact .inl (hrecords.type_of_new (hs.pending t ht) hwait hnone hx)

/-- What stands in the place of a record and is an app stays one, unless it is deleted. -/
theorem type_of_kept (hs : s.TypedReachable) (happs : ∀ app ∈ apps, app.WellFormed)
    (hsupply : supply.Sound) (ha : a.Under apps) (hupdate : a.UpdatesStored s.store)
    {owner : AppId} {id : String} {o x : Object} (ho : s.store.get? owner id = some o)
    (hx : ((inMemory config background).act supply s a).store.get? owner id = some x) :
    x.type = o.type := by
  have hreachable : s.Reachable := ⟨hs.store.reachable, fun t ht => (hs.pending t ht).sound⟩
  have hsound : a.Sound := by
    cases a with
    | request app call => exact ⟨(happs app ha.1).sound, fun o ho => (ha.2 o ho).1⟩
    | registration app index => exact trivial
  rcases act_keeps config background hsupply hsound hreachable hupdate owner id with
    hkeeps | ⟨-, hnone⟩
  · obtain ⟨o', ho', hsame⟩ := hkeeps o ho
    obtain rfl := Option.some.inj (hx.symm.trans ho')
    exact hsame.type
  · cases hnone.symm.trans hx

/-- Who names an app, or none, gets one just in case nothing but an app stands in the place of its
record and, if nothing stands there, of the root app's record; without a record it is the root app. So
all principals get an app as long as nothing but apps stands in these places, and the one thing that
may end this is a request under the root app that creates something else there. -/
theorem resolve_available_iff (hconfig : config.faults = [])
    (hs : (inMemory config background).Served apps s) :
    let svc := inMemory config background
    (∀ principal : Principal, (principal.appid?.getD config.root).isBlank = false →
      let named := principal.appid?.getD config.root
      let record := s.store.get? config.root named.objectId
      (svc.Finds s principal ↔ s.store.OnlyApp config.root named ∧
        (record = none → s.store.OnlyApp config.root config.root)) ∧
      ∀ app, record = none → ((svc.resolve principal).on s).1 = .ok app →
        app.identifier = config.root) ∧
    (svc.Available s ↔
      ∀ owner : AppId, owner.isBlank = false → s.store.OnlyApp config.root owner) ∧
    ∀ supply a, supply.Sound → a.Under apps → a.UpdatesStored s.store → svc.Available s →
      ¬ svc.Available (svc.act supply s a) →
      ∃ app ∈ apps, ∃ call, a = .request app call ∧ app.identifier = config.root ∧ call.Creates ∧
        ∃ owner x, owner.isBlank = false ∧
          s.store.get? config.root (AppId.objectId owner) = none ∧
          (svc.act supply s a).store.get? config.root (AppId.objectId owner) = some x ∧
          x.type ≠ "app" := by
  intro svc
  have hroot := Config.root_not_blank hconfig
  obtain ⟨htyped, happs⟩ := hs.typedReachable
  have havailable := available_iff config background htyped.store hroot
  refine ⟨fun principal hnamed => ⟨?_, fun app hnone happ => ?_⟩, havailable, ?_⟩
  · exact finds_iff config background htyped.store hroot hnamed
  · have hconsistent := htyped.store.reachable.consistent
    have hlooked := (lookedUp_resolve config background principal hconsistent).2
    have hanonymous := (lookedUp_rootApp config background hconsistent).2
    rw [hlooked.missing hnone] at happ
    exact hanonymous.of_ok (fun b hb => by rw [← Except.ok.inj hb, App.identifier_root])
      (fun _ _ _ _ _ hid => hid) happ
  · intro supply a hsupply ha hupdate hbefore hafter
    have htyped' := typedReachable_act config background hsupply happs ha htyped
    rw [available_iff config background htyped'.store hroot] at hafter
    simp only [Memory.OnlyApp, Classical.not_forall] at hafter
    obtain ⟨owner, hblank, x, hx, htype⟩ := hafter
    cases hget : s.store.get? config.root owner.objectId with
    | some o =>
      have hkept := type_of_kept config background htyped happs hsupply ha hupdate hget hx
      exact absurd (hkept.trans (havailable.mp hbefore owner hblank o hget)) htype
    | none =>
      rcases type_of_new config background htyped happs hsupply ha hget hx with
        happ | ⟨app, hmem, call, rfl, howner, hcreates⟩
      · exact absurd happ htype
      · exact ⟨app, hmem, call, rfl, howner.symm, hcreates, owner, x, hblank, hget, hx, htype⟩

def newState : ServiceState Memory := (inMemory {} .queued).initial (.ofSupply .still)

/-- A client of the root app creates a vote where the record of the root app would stand. -/
def rootVote : Act :=
  .request (.root ⟨"root"⟩) (.create none
    (.ofText "\x7b\"id\":\"app:root\",\"type\":\"vote\",\"value\":1\x7d"))

def rootVoteState : ServiceState Memory := (inMemory {} .queued).act .still newState rootVote

theorem served_newState : (inMemory {} .queued).Served [.root ⟨"root"⟩] newState :=
  .resolve (.start Supply.sound_still) .anonymous rfl

theorem rootVote_under : rootVote.Under [.root ⟨"root"⟩] :=
  ⟨List.mem_cons_self, by rintro o ⟨⟩⟩

theorem served_rootVoteState : (inMemory {} .queued).Served [.root ⟨"root"⟩] rootVoteState :=
  .act served_newState Supply.sound_still rootVote_under

theorem resolve_rootVoteState :
    ((inMemory {} .queued).rootApp.on rootVoteState).1 = .error (.badRequest ["Invalid app."]) := by
  have htyped := (served_rootVoteState.typedReachable {} .queued).1.store
  have hvote : (rootVoteState.store.get? ⟨"root"⟩ "app:root").map Object.type = some "vote" := by
    decide +kernel
  obtain ⟨o, ho, htype⟩ := Option.map_eq_some_iff.mp hvote
  have hnot : ¬ o.IsApp := by
    intro happ
    have htype' := (htyped.typed _ _ o ho).shape_eq_app_iff.mp happ.1
    rw [htype] at htype'
    exact absurd htype' (by decide)
  exact (lookedUp_rootApp {} .queued htyped.reachable.consistent).2.other o ho hnot

theorem resolve_available_iff_vote :
    ({} : Config).faults = [] ∧ (inMemory {} .queued).Served [.root ⟨"root"⟩] newState ∧
      let svc := inMemory {} .queued
      (∀ principal : Principal, (principal.appid?.getD ⟨"root"⟩).isBlank = false →
        let named := principal.appid?.getD ⟨"root"⟩
        let record := newState.store.get? ⟨"root"⟩ named.objectId
        (svc.Finds newState principal ↔ newState.store.OnlyApp ⟨"root"⟩ named ∧
          (record = none → newState.store.OnlyApp ⟨"root"⟩ ⟨"root"⟩)) ∧
        ∀ app, record = none → ((svc.resolve principal).on newState).1 = .ok app →
          app.identifier = ⟨"root"⟩) ∧
      (svc.Available newState ↔
        ∀ owner : AppId, owner.isBlank = false → newState.store.OnlyApp ⟨"root"⟩ owner) ∧
      svc.Available newState ∧ ¬ svc.Available rootVoteState ∧
      ∃ app ∈ [App.root ⟨"root"⟩], ∃ call, rootVote = .request app call ∧
        app.identifier = ⟨"root"⟩ ∧ call.Creates ∧
        ∃ owner x, owner.isBlank = false ∧
          newState.store.get? ⟨"root"⟩ (AppId.objectId owner) = none ∧
          rootVoteState.store.get? ⟨"root"⟩ (AppId.objectId owner) = some x ∧ x.type ≠ "app" := by
  have hconfig : ({} : Config).faults = [] := by decide +kernel
  obtain ⟨hfinds, havailable, hbreaks⟩ :=
    resolve_available_iff {} .queued hconfig served_newState
  have hbefore : (inMemory {} .queued).Available newState :=
    havailable.mpr (fun owner _ o ho => by cases ho)
  have hafter : ¬ (inMemory {} .queued).Available rootVoteState := by
    intro h
    obtain ⟨app, happ⟩ := h .anonymous (by rintro owner ⟨⟩)
    have hfails : ((inMemory {} .queued).resolve .anonymous).on rootVoteState =
        (inMemory {} .queued).rootApp.on rootVoteState := rfl
    rw [hfails, resolve_rootVoteState] at happ
    cases happ
  exact ⟨hconfig, served_newState, hfinds, havailable, hbefore, hafter,
    hbreaks .still rootVote Supply.sound_still rootVote_under trivial hbefore hafter⟩

/-- After the vote who names no app, or one without a record, gets none. -/
theorem rootVote_breaks_resolve :
    let svc := inMemory {} .queued
    ({} : Config).faults = [] ∧ svc.Served [.root ⟨"root"⟩] rootVoteState ∧
      ((svc.resolve .anonymous).on rootVoteState).1 = .error (.badRequest ["Invalid app."]) ∧
      ((svc.resolve (.app ⟨"shop"⟩)).on rootVoteState).1 =
        .error (.badRequest ["Invalid app."]) := by
  have hconsistent := (served_rootVoteState.typedReachable {} .queued).1.store.reachable.consistent
  have hmissing : rootVoteState.store.get? ⟨"root"⟩ (AppId.objectId ⟨"shop"⟩) = none :=
    Option.isNone_iff_eq_none.mp (by decide +kernel)
  have hshop := (lookedUp_resolve {} .queued (.app ⟨"shop"⟩) hconsistent).2.missing hmissing
  exact ⟨by decide +kernel, served_rootVoteState, resolve_rootVoteState,
    hshop.trans resolve_rootVoteState⟩

end Service
end ObjectDepot
