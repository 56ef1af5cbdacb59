import ObjectDepot.Proofs.Locality
import ObjectDepot.Proofs.Runs

/-! Tenants do not interfere. When the records of all apps live in the root partition, what the
other apps do in a run changes neither the outcomes of an app nor its partition. -/

namespace ObjectDepot

/-- An app whose record is kept in the partition of another one, under the app's own identifier. -/
structure App.KeptIn (app : App) (root : AppId) : Prop where
  id : app.envelope.id = some app.identifier.objectId
  partition : app.partition = root

def Action.KeptIn (root : AppId) : Action → Prop
  | .request app _ => app.KeptIn root
  | .registration _ _ => True

/-- All registrations that wait are for apps whose records are kept in one partition. -/
def ServiceState.Linked (root : AppId) (s : ServiceState Memory) : Prop :=
  ∀ t ∈ s.pending, t.app.KeptIn root

structure ServiceState.Agree (app : AppId) (s s' : ServiceState Memory) : Prop where
  partition : s.store.partitions.get? app.text = s'.store.partitions.get? app.text
  waiting : s.waiting app = s'.waiting app

namespace ServiceState

theorem Agree.refl (app : AppId) (s : ServiceState Memory) : s.Agree app s := ⟨rfl, rfl⟩

theorem Agree.trans {app : AppId} {s s' s'' : ServiceState Memory} (h : s.Agree app s')
    (h' : s'.Agree app s'') : s.Agree app s'' :=
  ⟨h.partition.trans h'.partition, h.waiting.trans h'.waiting⟩

theorem Agree.withSupply {app : AppId} {s s' : ServiceState Memory} (h : s.Agree app s')
    (supply : Supply) : (s.withSupply supply).SameFor app (s'.withSupply supply) :=
  ⟨⟨h.partition, rfl⟩, h.waiting⟩

theorem SameFor.agree {app : AppId} {s s' : ServiceState Memory} (h : s.SameFor app s') :
    s.Agree app s' := ⟨h.store.partition, h.waiting⟩

end ServiceState

namespace Service

variable (config : Config) (background : Background) {root : AppId}

theorem linked_step {e : Event} (he : e.action.KeptIn root) {s : ServiceState Memory}
    (hs : s.Linked root) : ((inMemory config background).step e s).2.Linked root := by
  refine pending_step (P := (·.KeptIn root)) config background (fun app call h => ?_) hs
  rw [h] at he
  exact he

theorem answer_foreign {a : AppId} (ha : a ≠ root) {app : App} (hkept : app.KeptIn root)
    (hne : app.identifier ≠ a) (s : ServiceState Memory) (call : Call (Option Object)) :
    (((inMemory config background).answer app call).on s).2.Agree a s := by
  obtain ⟨⟨m, hrecords, hwrites⟩, tasks, hpending, htasks⟩ :=
    answer_effect config background app s call
  refine ⟨?_, ?_⟩
  · have hroot : a ≠ app.partition := by rw [hkept.partition]; exact ha
    have hm := (recordsTypes_confined hkept.id hrecords).2 a hroot
    rcases hwrites with hw | ⟨w, hw, -, hrun⟩
    · rw [hw]
      exact hm
    · rw [hrun, w.partitions_run (by rw [hw]; exact hne.symm)]
      exact hm
  · have hnone : tasks.filter (fun t => t.app.identifier = a) = [] := by
      refine List.filter_eq_nil_iff.mpr (fun t ht => ?_)
      rw [(htasks t ht).1]
      simpa using hne
    rw [ServiceState.waiting, hpending, List.filter_append, hnone, List.append_nil]
    rfl

theorem partition_runWaiting {a : AppId} (ha : a ≠ root) (app : AppId) (index : Nat)
    {s : ServiceState Memory} (hs : s.Linked root) :
    ((inMemory config background).runWaiting app index s).store.partitions.get? a.text =
      s.store.partitions.get? a.text := by
  cases htake : takeWaiting app index s.pending with
  | none => rw [runWaiting_of_none htake]
  | some taken =>
    have hkept := hs taken.1 (takeWaiting_spec htake).1
    have hrecords := (runWaiting_of_some config background htake).1
    exact (recordsTypes_confined hkept.id hrecords).2 a (by rw [hkept.partition]; exact ha)

theorem waiting_runWaiting_of_ne {a app : AppId} (hne : app ≠ a) (index : Nat)
    (s : ServiceState Memory) :
    ((inMemory config background).runWaiting app index s).waiting a = s.waiting a := by
  cases htake : takeWaiting app index s.pending with
  | none => rw [runWaiting_of_none htake]
  | some taken =>
    obtain ⟨-, -, -, hothers⟩ := takeWaiting_spec htake
    rw [ServiceState.waiting, (runWaiting_of_some config background htake).2]
    exact hothers a hne.symm

theorem waiting_runWaiting {app : AppId} {s s' : ServiceState Memory}
    (h : s.waiting app = s'.waiting app) (index : Nat) :
    ((inMemory config background).runWaiting app index s).waiting app =
      ((inMemory config background).runWaiting app index s').waiting app := by
  have htakes := congrArg (takeWaiting app index) h
  rw [ServiceState.waiting, ServiceState.waiting, ← takeWaiting_filter, ← takeWaiting_filter]
    at htakes
  cases htake : takeWaiting app index s.pending with
  | none =>
    rw [htake, Option.map_none] at htakes
    have htake' := Option.map_eq_none_iff.mp htakes.symm
    rw [runWaiting_of_none htake, runWaiting_of_none htake']
    exact h
  | some taken =>
    rw [htake, Option.map_some] at htakes
    obtain ⟨taken', htake', heq⟩ := Option.map_eq_some_iff.mp htakes.symm
    rw [ServiceState.waiting, ServiceState.waiting,
      (runWaiting_of_some config background htake).2,
      (runWaiting_of_some config background htake').2]
    exact (congrArg Prod.snd heq).symm

theorem step_foreign {a : AppId} (ha : a ≠ root) {e : Event} (he : e.action.KeptIn root)
    (hne : e.app ≠ a) {s : ServiceState Memory} (hs : s.Linked root) :
    ((inMemory config background).step e s).2.Agree a s := by
  obtain ⟨supply, action⟩ := e
  have hwait : (s.withSupply supply).Linked root := hs
  cases action with
  | request app call =>
    rw [step_request]
    obtain ⟨hpartition, hwaiting⟩ := answer_foreign config background ha he hne
      (s.withSupply supply) (call.map (s.store.get? app.identifier))
    exact ⟨hpartition, hwaiting⟩
  | registration app index =>
    rw [step_registration]
    exact ⟨partition_runWaiting config background ha app index hwait,
      waiting_runWaiting_of_ne config background hne index (s.withSupply supply)⟩

theorem step_own {a : AppId} (ha : a ≠ root) {e : Event} (he : e.action.KeptIn root)
    (heq : e.app = a) {s s' : ServiceState Memory} (hs : s.Linked root) (hs' : s'.Linked root)
    (h : s.Agree a s') :
    ((inMemory config background).step e s).1 = ((inMemory config background).step e s').1 ∧
      ((inMemory config background).step e s).2.Agree a
        ((inMemory config background).step e s').2 := by
  obtain ⟨supply, action⟩ := e
  subst heq
  cases action with
  | request app call =>
    have hkept : app.KeptIn root := he
    have hroot : app.identifier ≠ root := ha
    have hsame : (s.withSupply supply).SameFor app.identifier (s'.withSupply supply) :=
      h.withSupply supply
    have hget : s.store.get? app.identifier = s'.store.get? app.identifier :=
      funext hsame.store.get?
    obtain ⟨houtcome, hafter⟩ := local_answer config background hkept.id
      (by rw [hkept.partition]; exact hroot.symm)
      (call.map (s.store.get? app.identifier)) _ _ hsame
    rw [step_request, step_request, ← hget]
    exact ⟨congrArg some houtcome, hafter.agree⟩
  | registration app index =>
    have hwait : (s.withSupply supply).Linked root := hs
    have hwait' : (s'.withSupply supply).Linked root := hs'
    have hpartition := partition_runWaiting config background ha app index hwait
    have hpartition' := partition_runWaiting config background ha app index hwait'
    rw [step_registration, step_registration]
    refine ⟨rfl, hpartition.trans (h.partition.trans hpartition'.symm), ?_⟩
    exact waiting_runWaiting config background (h.withSupply supply).waiting index

theorem filter_outcome (app a : AppId) (outcome : Option Outcome) :
    (outcome.map (app, ·)).toList.filter (fun r => r.1 = a) =
      if app = a then (outcome.map (app, ·)).toList else [] := by
  cases outcome <;> by_cases h : app = a <;> simp [h]

theorem run_agree {a : AppId} (ha : a ≠ root) {events : List Event}
    (hevents : ∀ e ∈ events, e.action.KeptIn root) {s s' : ServiceState Memory}
    (hs : s.Linked root) (hs' : s'.Linked root) (h : s.Agree a s') :
    ((inMemory config background).run events s).1.filter (fun r => r.1 = a) =
        ((inMemory config background).run (events.filter (fun e => e.app = a)) s').1 ∧
      ((inMemory config background).run events s).2.Agree a
        ((inMemory config background).run (events.filter (fun e => e.app = a)) s').2 := by
  -- Only the longer run takes the steps of the others; the states agree for the app all the way.
  induction events generalizing s s' with
  | nil => exact ⟨rfl, h⟩
  | cons e events ih =>
    have he := hevents e List.mem_cons_self
    have hevents' : ∀ x ∈ events, x.action.KeptIn root :=
      fun x hx => hevents x (List.mem_cons_of_mem _ hx)
    have hnext := linked_step config background he hs
    by_cases heq : e.app = a
    · obtain ⟨houtcome, hafter⟩ := step_own config background ha he heq hs hs' h
      have hnext' := linked_step config background he hs'
      obtain ⟨ihoutcomes, ihafter⟩ := ih hevents' hnext hnext' hafter
      rw [List.filter_cons_of_pos (by simpa using heq), run_cons, run_cons]
      refine ⟨?_, ihafter⟩
      rw [List.filter_append, filter_outcome, if_pos heq, ihoutcomes, houtcome]
    · have hforeign := step_foreign config background ha he heq hs
      obtain ⟨ihoutcomes, ihafter⟩ := ih hevents' hnext hs' (hforeign.trans h)
      rw [List.filter_cons_of_neg (by simpa using heq), run_cons]
      refine ⟨?_, ihafter⟩
      rw [List.filter_append, filter_outcome, if_neg heq, List.nil_append, ihoutcomes]

/-- In a run of any requests and registrations under apps whose records live in the root partition,
the outcomes of an app and its partition in the end are those of the run without the others. -/
theorem run_noninterference (store : Memory) {events : List Event}
    (hevents : ∀ e ∈ events, e.action.KeptIn root) {a : AppId} (ha : a ≠ root) :
    let svc := inMemory config background
    let together := svc.run events (svc.initial store)
    let alone := svc.run (events.filter (fun e => e.app = a)) (svc.initial store)
    together.1.filter (fun r => r.1 = a) = alone.1 ∧
      together.2.store.objects a = alone.2.store.objects a := by
  intro svc together alone
  have hlinked : (svc.initial store).Linked root := by
    intro t ht
    cases ht
  obtain ⟨houtcomes, hafter⟩ := run_agree config background ha hevents hlinked hlinked (.refl a _)
  refine ⟨houtcomes, ?_⟩
  rw [Memory.objects, Memory.objects, hafter.partition]

/-- Two apps, and a registration that runs in between. -/
def twoApps : List Event := [
  ⟨.still, .request .shop (.batchCreate (.ofText "[\x7b\"type\":\"dog\"\x7d]"))⟩,
  ⟨.still, .request (.named "zoo" ⟨"root"⟩) (.create (some "cat") (.ofText "\x7b\x7d"))⟩,
  ⟨.still, .registration ⟨"shop"⟩ 0⟩,
  ⟨.still, .request .shop (.read "new")⟩]

theorem run_noninterference_twoApps :
    (∀ e ∈ twoApps, e.action.KeptIn ⟨"root"⟩) ∧ AppId.mk "shop" ≠ ⟨"root"⟩ ∧
      let svc := inMemory {} .queued
      let together := svc.run twoApps (svc.initial (.ofSupply .still))
      let alone := svc.run (twoApps.filter (fun e => e.app = ⟨"shop"⟩))
        (svc.initial (.ofSupply .still))
      together.1.filter (fun r => r.1 = ⟨"shop"⟩) = alone.1 ∧
        together.2.store.objects ⟨"shop"⟩ = alone.2.store.objects ⟨"shop"⟩ := by
  have hshop : App.shop.KeptIn ⟨"root"⟩ := ⟨by decide +kernel, rfl⟩
  have hzoo : (App.named "zoo" ⟨"root"⟩).KeptIn ⟨"root"⟩ := ⟨by decide +kernel, rfl⟩
  have hevents : ∀ e ∈ twoApps, e.action.KeptIn ⟨"root"⟩ := by
    intro e he
    simp only [twoApps, List.mem_cons, List.not_mem_nil, or_false] at he
    rcases he with rfl | rfl | rfl | rfl
    · exact hshop
    · exact hzoo
    · trivial
    · exact hshop
  have hne : AppId.mk "shop" ≠ ⟨"root"⟩ := by decide
  exact ⟨hevents, hne, run_noninterference {} .queued (.ofSupply .still) hevents hne⟩

end Service
end ObjectDepot
