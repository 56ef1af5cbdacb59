import ObjectDepot.Proofs.BatchUpdates
import ObjectDepot.Proofs.BlamedFields
import ObjectDepot.Proofs.CreationTimes
import ObjectDepot.Proofs.ItemIsolation
import ObjectDepot.Proofs.StoredForms

/-! A batch of merges against the loop that reads, merges and updates one object after the other. An
update keeps the time of creation and a merge takes over the one it is given, so they do the same to
objects that give none. While the loop runs the clock goes on, and then the two differ in the times
of change and in nothing else. -/

namespace ObjectDepot

namespace Object

/-- An object as a batch update sends it: it belongs to the app, and it has no time of creation. -/
structure TimelessFor (o : Object) (app : AppId) : Prop where
  owner : o.appid = some app.text
  timestamp : o.toFields.get? "timestamp" = none

theorem WellFormed.timelessFor {o : Object} {app : AppId} (ho : o.WellFormed)
    (howner : o.appid = some app.text) (htime : o.envelope.timestamp = none) :
    o.TimelessFor app := by
  refine ⟨howner, ?_⟩
  rw [ho.get?_toFields_of_has rfl, Envelope.get?, htime]
  rfl

/-- What a batch of updates hands to the storage carries no time. -/
theorem ChangeFor.timelessFor {o : Object} {app : AppId} (h : o.ChangeFor app) :
    o.TimelessFor app :=
  ⟨h.owner, h.locked "timestamp" rfl (by decide) (by decide) (by decide)⟩

theorem timestamp_mergeFrom_of_timeless {stored o merged : Object} (hstored : stored.Sound)
    (htime : o.toFields.get? "timestamp" = none) (h : stored.mergeFrom o = .ok merged) :
    merged.envelope.timestamp = stored.envelope.timestamp := by
  have hget := get?_overlay_envelope hstored (mergeFrom_eq_ok_iff.mp h) "timestamp"
  rw [htime] at hget
  have htimes : merged.envelope.timestamp.map Json.int = stored.envelope.timestamp.map Json.int :=
    hget
  exact Option.map_injective (fun _ _ h => Json.int.inj h) htimes

theorem inPlaceOf_merged {stored o merged : Object} (hstored : stored.Sound)
    (htime : o.toFields.get? "timestamp" = none) (h : stored.mergeFrom o = .ok merged) (time : Int) :
    merged.inPlaceOf stored time = merged.withUpdated (some time) := by
  rw [inPlaceOf, ← timestamp_mergeFrom_of_timeless hstored htime h, withTimestamp_self]

/-- What cannot be merged into an object is refused for the same reason by one that differs only in
the time of change. -/
theorem Alike.mergeFrom_eq_error {stored stored' o : Object} {e : ValidationError}
    (h : stored.Alike stored') (hs : stored.Sound) (hs' : stored'.Sound)
    (he : stored.mergeFrom o = .error e) : stored'.mergeFrom o = .error e := by
  have hblamed {x : Object} (hx : x.Sound) {e : ValidationError} (he : x.mergeFrom o = .error e) :
      ∃ k message, e = .invalidField k message ∧ x.Blamed (x.heeded o.toFields) k message := by
    rw [Object.mergeFrom] at he
    cases hlay : x.overlay o.toFields with
    | ok merged =>
      rw [hlay] at he
      cases he
    | error fault =>
      rw [hlay] at he
      exact ⟨fault.field, fault.message, (Except.error.inj he).symm, blamed_of_overlay hx hlay⟩
  obtain ⟨e', he'⟩ := h.mergeFrom_error hs hs' he
  obtain ⟨k, message, rfl, hk⟩ := hblamed hs he
  obtain ⟨k', message', rfl, hk'⟩ := hblamed hs' he'
  have hshape : stored'.shape = stored.shape := congrArg Body.shape h.body
  obtain ⟨rfl, rfl⟩ := (hk.of_shape_eq hshape).unique hk'
  exact he'

end Object

def Partition.Sound (p : Partition) : Prop := ∀ id o, p.get? id = some o → o.Sound

theorem Partition.Sound.insert {p : Partition} (hp : p.Sound) (id : String) {o : Object}
    (ho : o.Sound) : Partition.Sound (p.insert id o) := by
  intro k x hx
  rw [KeyMap.get?_insert] at hx
  split at hx
  · exact Option.some.inj hx ▸ ho
  · exact hp k x hx

namespace SingleStorage

/-! ### One turn of the loop -/

variable {σ : Type} {s : SingleStorage σ} {app : AppId} {o x : Object} {os : List Object}
  {st st' st'' : σ}

theorem bind_at {α β : Type} {call : StateM σ α} {rest : α → StateM σ β} {a : α}
    (h : call st = (a, st')) : (call >>= rest) st = rest a st' :=
  congrArg (fun r : α × σ => rest r.1 r.2) h

theorem updateMerged_of_no_id (hid : o.id = none) :
    s.updateMerged app o st = (⟨.ok (), o⟩, st) := by
  unfold updateMerged
  rw [hid]
  rfl

theorem updateMerged_of_missing {id : String} (hid : o.id = some id)
    (hread : s.read app id st = (.ok none, st')) :
    s.updateMerged app o st = (⟨.ok (), o⟩, st') := by
  unfold updateMerged
  rw [hid]
  exact bind_at hread

theorem updateMerged_of_error {id : String} {stored : Object} {e : ValidationError}
    (hid : o.id = some id) (hread : s.read app id st = (.ok (some stored), st'))
    (he : stored.mergeFrom o = .error e) :
    s.updateMerged app o st = (⟨.error (.invalid e), o⟩, st') := by
  unfold updateMerged
  rw [hid]
  refine (bind_at hread).trans ?_
  dsimp only
  rw [he]
  rfl

theorem updateMerged_of_ok {id : String} {stored merged : Object} (hid : o.id = some id)
    (hread : s.read app id st = (.ok (some stored), st')) (hm : stored.mergeFrom o = .ok merged)
    (hupdate : s.update app merged st' = (⟨.ok (), x⟩, st'')) :
    s.updateMerged app o st = (⟨.ok (), x⟩, st'') := by
  unfold updateMerged
  rw [hid]
  refine (bind_at hread).trans ?_
  dsimp only
  rw [hm]
  exact bind_at hupdate

theorem updateEach_cons_of_ok (h : s.updateMerged app o st = (⟨.ok (), x⟩, st')) :
    s.updateEach app (o :: os) st =
      (⟨(s.updateEach app os st').1.answer, x :: (s.updateEach app os st').1.left⟩,
        (s.updateEach app os st').2) := bind_at h

theorem updateEach_cons_of_error {e : StorageError}
    (h : s.updateMerged app o st = (⟨.error e, x⟩, st')) :
    s.updateEach app (o :: os) st = (⟨.error e, x :: os⟩, st') := bind_at h

end SingleStorage

namespace Memory

variable {app : AppId} {o : Object} {os : List Object} {m : Memory}

theorem updateMerged_of_absent (h : o.id.bind (m.get? app) = none) :
    singles.updateMerged app o m = (⟨.ok (), o⟩, m) := by
  cases hid : o.id with
  | none => exact SingleStorage.updateMerged_of_no_id hid
  | some id =>
    have hnone : m.get? app id = none := by rwa [hid] at h
    exact SingleStorage.updateMerged_of_missing hid (by rw [← hnone]; rfl)

theorem updateMerged_of_stored {id : String} {stored merged : Object} (ho : o.TimelessFor app)
    (hid : o.id = some id) (hget : m.get? app id = some stored) (hstored : stored.Sound)
    (hmerge : stored.mergeFrom o = .ok merged) :
    singles.updateMerged app o m =
      (⟨.ok (), merged.withUpdated (some m.supply.now)⟩,
        m.put app id (merged.withUpdated (some m.supply.now))) := by
  have hupdate : singles.update app merged m = _ := update_eq_of_stored
    (Object.appid_mergeFrom hmerge ho.owner) (Object.id_mergeFrom hmerge hid) hget
  rw [Object.inPlaceOf_merged hstored ho.timestamp hmerge] at hupdate
  exact SingleStorage.updateMerged_of_ok hid (by rw [← hget]; rfl) hmerge hupdate

theorem updateEach_of_no_partition (hp : m.partitions.get? app.text = none) :
    singles.updateEach app os m = (⟨.ok (), os⟩, m) := by
  induction os with
  | nil => rfl
  | cons o os ih =>
    have habsent : o.id.bind (m.get? app) = none := by
      cases o.id <;> simp [get?, objects, hp]
    rw [SingleStorage.updateEach_cons_of_ok (updateMerged_of_absent habsent), ih]

/-- In a partition that is there the loop does what the batch does. -/
theorem updateEach_of_partition {p : Partition} (hp : m.partitions.get? app.text = some p)
    (hsound : p.Sound) (hnow : IsInt64 m.supply.now)
    (hos : ∀ o ∈ os, o.TimelessFor app) :
    singles.updateEach app os m =
      ((mergeAll m.supply.now p os).1, m.withPartition app (mergeAll m.supply.now p os).2) := by
  induction os generalizing m p with
  | nil =>
    rw [mergeAll, withPartition_of_partition hp]
    rfl
  | cons o os ih =>
    have hos' : ∀ o ∈ os, o.TimelessFor app := fun x hx => hos x (List.mem_cons_of_mem _ hx)
    have hgets (id : String) : m.get? app id = p.get? id := by rw [get?, objects_of_partition hp]
    have hsame : o.id.bind (m.get? app) = o.id.bind p.get? := by
      cases o.id with
      | none => rfl
      | some id => exact hgets id
    cases htarget : o.id.bind p.get? with
    | none =>
      rw [SingleStorage.updateEach_cons_of_ok (updateMerged_of_absent (hsame.trans htarget)),
        mergeAll_cons_of_absent htarget, ih hp hsound hnow hos']
    | some stored =>
      obtain ⟨id, hid, hget⟩ := Option.bind_eq_some_iff.mp htarget
      have hget' := (hgets id).trans hget
      cases hmerge : stored.mergeFrom o with
      | error e =>
        have hread : singles.read app id m = (.ok (some stored), m) := by
          rw [← hget']
          rfl
        rw [SingleStorage.updateEach_cons_of_error
            (SingleStorage.updateMerged_of_error hid hread hmerge),
          mergeAll_cons_of_error hid hget hmerge, withPartition_of_partition hp]
      | ok merged =>
        have hstored := hsound id stored hget
        have hput : m.put app id (merged.withUpdated (some m.supply.now)) =
            m.withPartition app (p.insert id (merged.withUpdated (some m.supply.now))) := by
          rw [put, objects_of_partition hp]
        have hsound' := hsound.insert id (Object.sound_merged hmerge hnow)
        have hh := ih (m := m.withPartition app (p.insert id (merged.withUpdated (some m.supply.now))))
          (KeyMap.get?_insert_self ..) hsound' hnow hos'
        rw [SingleStorage.updateEach_cons_of_ok
            (updateMerged_of_stored (hos o List.mem_cons_self) hid hget' hstored hmerge), hput, hh,
          mergeAll_cons_of_ok hid hget hmerge, withPartition_withPartition]
        rfl

/-- While the clock stands still the loop is the batch. -/
theorem updateEach_eq (hm : m.Holds Object.Sound) (hnow : IsInt64 m.supply.now)
    (hos : ∀ o ∈ os, o.TimelessFor app) : singles.updateEach app os m = updateAll app os m := by
  unfold updateAll
  rw [checkOwners_eq_ok_iff.mpr (fun o ho => (hos o ho).owner)]
  cases hp : m.partitions.get? app.text with
  | none => exact updateEach_of_no_partition hp
  | some p =>
    have hsound : (m.objects app).Sound := hm app
    rw [objects_of_partition hp] at hsound
    exact updateEach_of_partition hp hsound hnow hos

/-! ### While the clock goes on -/

def atTime (m : Memory) (now : Int) : Memory := { m with supply := { m.supply with now := now } }

/-- An operation at the next of the times of a clock. -/
def onTime {α : Type} (clock : Nat → Int) (call : StateM Memory α) : StateM (Memory × Nat) α :=
  fun s => ((call (s.1.atTime (clock s.2))).1, (call (s.1.atTime (clock s.2))).2, s.2 + 1)

/-- The storage whose clock goes on from one operation to the next. -/
def ticking (clock : Nat → Int) : SingleStorage (Memory × Nat) where
  name := singles.name
  create app o := onTime clock (create app o)
  read app id := onTime clock (read app id)
  update app o := onTime clock (update app o)
  delete app o := onTime clock (delete app o)

variable (clock : Nat → Int) (n : Nat)

theorem read_ticking (id : String) : (ticking clock).read app id (m, n) =
    (.ok (m.get? app id), (m.atTime (clock n), n + 1)) := rfl

theorem updateMerged_ticking_of_absent (h : o.id.bind (m.get? app) = none) :
    ∃ m' n', (ticking clock).updateMerged app o (m, n) = (⟨.ok (), o⟩, (m', n')) ∧
      ∀ owner, m'.objects owner = m.objects owner := by
  cases hid : o.id with
  | none => exact ⟨m, n, SingleStorage.updateMerged_of_no_id hid, fun _ => rfl⟩
  | some id =>
    have hnone : m.get? app id = none := by rwa [hid] at h
    exact ⟨m.atTime (clock n), n + 1,
      SingleStorage.updateMerged_of_missing hid (by rw [read_ticking, hnone]), fun _ => rfl⟩

theorem updateMerged_ticking_of_error {id : String} {stored : Object} {e : ValidationError}
    (hid : o.id = some id) (hget : m.get? app id = some stored) (he : stored.mergeFrom o = .error e) :
    ∃ m' n', (ticking clock).updateMerged app o (m, n) = (⟨.error (.invalid e), o⟩, (m', n')) ∧
      ∀ owner, m'.objects owner = m.objects owner :=
  ⟨m.atTime (clock n), n + 1,
    SingleStorage.updateMerged_of_error hid (by rw [read_ticking, hget]) he, fun _ => rfl⟩

theorem updateMerged_ticking_of_stored {id : String} {stored merged : Object}
    (ho : o.TimelessFor app) (hid : o.id = some id) (hget : m.get? app id = some stored)
    (hstored : stored.Sound) (hmerge : stored.mergeFrom o = .ok merged) :
    ∃ m' n', (ticking clock).updateMerged app o (m, n) =
        (⟨.ok (), merged.withUpdated (some (clock (n + 1)))⟩, (m', n')) ∧
      ∀ owner, m'.objects owner = if owner = app
        then (m.objects app).insert id (merged.withUpdated (some (clock (n + 1))))
        else m.objects owner := by
  have hwrite := update_eq_of_stored (m := m.atTime (clock (n + 1)))
    (Object.appid_mergeFrom hmerge ho.owner) (Object.id_mergeFrom hmerge hid) hget
  rw [Object.inPlaceOf_merged hstored ho.timestamp hmerge] at hwrite
  have hupdate : (ticking clock).update app merged (m.atTime (clock n), n + 1) =
      (⟨.ok (), merged.withUpdated (some (clock (n + 1)))⟩,
        (m.atTime (clock (n + 1))).put app id (merged.withUpdated (some (clock (n + 1)))), n + 2) :=
    congrArg (fun r : Written Unit Object × Memory => (r.1, r.2, n + 2)) hwrite
  exact ⟨_, _, SingleStorage.updateMerged_of_ok hid (by rw [read_ticking, hget]) hmerge hupdate,
    fun owner => objects_withPartition (m.atTime (clock (n + 1))) app owner _⟩

variable {clock n}

/-- The loop at a clock that goes on, against the batch, where what they start from differs at most
in the times of change. -/
theorem updateEach_ticking {now : Int} (hnow : IsInt64 now) (hclock : ∀ n, IsInt64 (clock n))
    (hos : ∀ o ∈ os, o.TimelessFor app) {p : Partition} (halike : p.Alike (m.objects app))
    (hp : p.Sound) (hm : (m.objects app).Sound) :
    let batch := mergeAll now p os
    let loop := (ticking clock).updateEach app os (m, n)
    loop.1.answer = batch.1.answer ∧ List.Forall₂ Object.Alike batch.1.left loop.1.left ∧
      Partition.Alike batch.2 (loop.2.1.objects app) ∧
      ∀ other, other ≠ app → loop.2.1.objects other = m.objects other := by
  have hrefl (os : List Object) : List.Forall₂ Object.Alike os os :=
    List.forall₂_same.mpr (fun _ _ => rfl)
  induction os generalizing m n p with
  | nil => exact ⟨rfl, .nil, halike, fun _ _ => rfl⟩
  | cons o os ih =>
    have hos' : ∀ o ∈ os, o.TimelessFor app := fun x hx => hos x (List.mem_cons_of_mem _ hx)
    cases htarget : o.id.bind p.get? with
    | none =>
      have habsent : o.id.bind (m.get? app) = none := by
        cases hid : o.id with
        | none => rfl
        | some id =>
          rw [hid] at htarget
          exact halike.get?_eq_none htarget
      obtain ⟨m', n', hstep, hobjects⟩ := updateMerged_ticking_of_absent clock n habsent
      obtain ⟨hanswer, hleft, hstore, hothers⟩ := ih (m := m') (n := n') hos'
        (by rwa [hobjects]) hp (by rwa [hobjects])
      rw [SingleStorage.updateEach_cons_of_ok hstep, mergeAll_cons_of_absent htarget]
      exact ⟨hanswer, .cons rfl hleft, hstore, fun other hother =>
        (hothers other hother).trans (hobjects other)⟩
    | some stored =>
      obtain ⟨id, hid, hget⟩ := Option.bind_eq_some_iff.mp htarget
      obtain ⟨stored', hget', hstored⟩ := halike.get?_eq_some hget
      have hs := hp id stored hget
      have hs' := hm id stored' hget'
      cases hmerge : stored.mergeFrom o with
      | error e =>
        obtain ⟨m', n', hstep, hobjects⟩ := updateMerged_ticking_of_error clock n hid hget'
          (hstored.mergeFrom_eq_error hs hs' hmerge)
        rw [SingleStorage.updateEach_cons_of_error hstep, mergeAll_cons_of_error hid hget hmerge]
        exact ⟨rfl, hrefl _, by rwa [hobjects], fun other _ => hobjects other⟩
      | ok merged =>
        obtain ⟨merged', hmerge', hmerged⟩ := hstored.mergeFrom hs hs' hmerge
        obtain ⟨m', n', hstep, hobjects⟩ := updateMerged_ticking_of_stored clock n
          (hos o List.mem_cons_self) hid hget' hs' hmerge'
        have hnew : (merged.withUpdated (some now)).Alike
            (merged'.withUpdated (some (clock (n + 1)))) := hmerged
        have happ : m'.objects app =
            (m.objects app).insert id (merged'.withUpdated (some (clock (n + 1)))) := by
          rw [hobjects, if_pos rfl]
        obtain ⟨hanswer, hleft, hstore, hothers⟩ := ih (m := m') (n := n') hos'
          (by rw [happ]; exact halike.insert hnew id)
          (hp.insert id (Object.sound_merged hmerge hnow))
          (by rw [happ]; exact hm.insert id (Object.sound_merged hmerge' (hclock _)))
        rw [SingleStorage.updateEach_cons_of_ok hstep, mergeAll_cons_of_ok hid hget hmerge]
        exact ⟨hanswer, .cons hnew hleft, hstore, fun other hother =>
          (hothers other hother).trans ((hobjects other).trans (if_neg hother))⟩

theorem updateAll_alike_ticking (hm : m.Holds Object.Sound) (hnow : IsInt64 m.supply.now)
    (hclock : ∀ n, IsInt64 (clock n)) (hos : ∀ o ∈ os, o.TimelessFor app) (n : Nat) :
    let batch := updateAll app os m
    let loop := (ticking clock).updateEach app os (m, n)
    loop.1.answer = batch.1.answer ∧ List.Forall₂ Object.Alike batch.1.left loop.1.left ∧
      batch.2.Alike loop.2.1 := by
  have hobjects : (m.objects app).Sound := hm app
  obtain ⟨hanswer, hleft, hstore, hothers⟩ :=
    updateEach_ticking (n := n) hnow hclock hos (.refl (m.objects app)) hobjects hobjects
  unfold updateAll
  rw [checkOwners_eq_ok_iff.mpr (fun o ho => (hos o ho).owner)]
  cases hp : m.partitions.get? app.text with
  | none =>
    have hempty : m.objects app = .empty := by simp [objects, hp]
    rw [hempty, mergeAll_empty] at hanswer hleft hstore
    refine ⟨hanswer, hleft, fun other => ?_⟩
    by_cases hother : other = app
    · rw [hother, hempty]
      exact hstore
    · rw [hothers other hother]
      exact .refl _
  | some p =>
    rw [objects_of_partition hp] at hanswer hleft hstore
    refine ⟨hanswer, hleft, fun other => ?_⟩
    rw [objects_withPartition]
    by_cases hother : other = app
    · rw [if_pos hother, hother]
      exact hstore
    · rw [if_neg hother, hothers other hother]
      exact .refl _

end Memory

end ObjectDepot
