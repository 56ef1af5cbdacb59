import ObjectDepot.Proofs.StoredForms
import ObjectDepot.Proofs.UpdatePaths

/-! What a batch delete removes. It goes from identifiers to the objects that are stored under them,
and from these back to identifiers. As every object stands under its own identifier and has a proper
type name, no object is lost on the way and none is met that was not named. -/

namespace ObjectDepot

theorem TypeName.range_of_isAsciiAlphanumeric {c : Char} (h : isAsciiAlphanumeric c) :
    let n := c.val.toNat
    65 ≤ n ∧ n ≤ 90 ∨ 97 ≤ n ∧ n ≤ 122 ∨ 48 ≤ n ∧ n ≤ 57 := by
  have within {low high : UInt32} (hc : (decide (c.val ≥ low) && decide (c.val ≤ high)) = true) :
      low.toNat ≤ c.val.toNat ∧ c.val.toNat ≤ high.toNat := by
    rw [Bool.and_eq_true, decide_eq_true_iff, decide_eq_true_iff] at hc
    exact hc
  rcases Bool.or_eq_true_iff.mp h with hletter | hdigit
  · rcases Bool.or_eq_true_iff.mp hletter with hupper | hlower
    · exact .inl (of_decide_eq_true hupper)
    · exact .inr (.inl (within hlower))
  · exact .inr (.inr (within hdigit))

theorem TypeName.isBlank_of_isValid {name : String} (h : isValid name) :
    Text.isBlank name = false := by
  unfold isValid at h
  cases hname : name.toList with
  | nil => simp [hname] at h
  | cons c rest =>
    have hc : isAsciiAlphanumeric c := by
      rw [hname, Bool.and_eq_true] at h
      exact h.1
    have hrange := range_of_isAsciiAlphanumeric hc
    have hspace : Text.isSpace c = false := by
      simp only [Text.isSpace, Bool.or_eq_false_iff, Bool.and_eq_false_iff, decide_eq_false_iff_not]
      omega
    rw [Text.isBlank, hname, List.all_cons, hspace, Bool.false_and]

/-- An object that can be, with a proper type name. -/
structure Object.ProperlyNamed (o : Object) : Prop where
  sound : o.Sound
  name : TypeName.isValid o.type

namespace Object

theorem ProperlyNamed.mergeFrom {o other merged : Object} (ho : o.ProperlyNamed)
    (h : o.mergeFrom other = .ok merged) : merged.ProperlyNamed := by
  refine ⟨sound_mergeFrom h, ?_⟩
  rw [type_overlay ho.sound (mergeFrom_eq_ok_iff.mp h)]
  exact ho.name

theorem lasting_properlyNamed : Lasting ProperlyNamed where
  sound := ProperlyNamed.sound
  restamped ho h hsound := ⟨⟨hsound, h.body ▸ ho.sound.body⟩, h.type ▸ ho.name⟩
  record ho hshape henvelope := by
    refine ⟨App.sound_toObject (henvelope ▸ ho.sound.envelope), ?_⟩
    rw [type, App.toObject, henvelope]
    exact ho.name
  made h hvalid := ⟨(wellFormed_made h).sound, isValid_type hvalid⟩
  revised _ h := by
    obtain ⟨_, _, -, -, -, -, hchange, hvalid⟩ := Service.revision_eq_ok_iff.mp h
    exact ⟨FieldNames.sound_apply hchange, isValid_type hvalid⟩

end Object

namespace Service

/-- What is updated is an object that is stored, or any that can be. -/
def TargetsSound (m : Memory) (call : Call (Option Object)) : Prop :=
  ∀ o ∈ call.revised, o.Sound ∨ ∃ owner id, m.get? owner id = some o

def TargetsNamed (_ : Memory) (call : Call (Option Object)) : Prop :=
  ∀ o ∈ call.revised, o.ProperlyNamed

variable {config : Config} {background : Background}

/-- An update of an object without a proper type name fails, and is to the service as a read. -/
theorem act_of_unnamed {app : App} {target : Object} (hsound : target.Sound)
    (hname : ¬TypeName.isValid target.type) (body : RequestBody) (supply : Supply)
    (s : ServiceState Memory) :
    (inMemory config background).act supply s (.request app (.update (some target) body)) =
      (inMemory config background).act supply s (.request app (.read "")) := by
  have hread : (inMemory config background).act supply s (.request app (.read "")) =
      s.withSupply supply := by
    rw [act, answer, read_on]
    rfl
  rw [hread, act, answer, update_on]
  cases hrevision : (inMemory config background).revision app (some target) body with
  | error f => rfl
  | ok o =>
    obtain ⟨_, _, -, -, -, -, -, hvalid⟩ := revision_eq_ok_iff.mp hrevision
    have htype := (Object.sameIdentity_of_revision hsound hrevision).type
    exact absurd (htype ▸ Object.isValid_type hvalid) hname

theorem Reached.holds_of_named {s : ServiceState Memory}
    (h : Reached config background App.WellFormed TargetsNamed s) :
    s.store.Holds Object.ProperlyNamed := by
  refine h.holds Object.lasting_properlyNamed (fun _ happ a henvelope => ?_)
    (fun _ _ _ hcall => ⟨hcall, fun _ _ _ _ => Object.ProperlyNamed.mergeFrom⟩)
  have hrecord := App.wellFormed_toObject ⟨henvelope ▸ happ.sound, henvelope ▸ happ.type⟩
  exact ⟨hrecord.sound, hrecord.name⟩

/-- Updates of objects without a proper type name can be left out. -/
theorem Reached.named {s : ServiceState Memory}
    (h : Reached config background App.WellFormed TargetsSound s) :
    Reached config background App.WellFormed TargetsNamed s := by
  induction h with
  | start hsupply => exact .start hsupply
  | record _ hsupply happ hw ih => exact .record ih hsupply happ hw
  | @act s supply a _ hsupply ha ih =>
    by_cases hnamed : ∀ app call, a = .request app call → TargetsNamed s.store call
    · exact .act ih hsupply (fun app call hcall => ⟨(ha app call hcall).1, hnamed app call hcall⟩)
    · push Not at hnamed
      obtain ⟨app, call, rfl, hnot⟩ := hnamed
      obtain ⟨happ, hsound⟩ := ha app call rfl
      unfold TargetsNamed at hnot
      push Not at hnot
      obtain ⟨target, htarget, hunnamed⟩ := hnot
      have htargetSound : target.Sound := by
        obtain h | ⟨owner, id, hget⟩ := hsound target htarget
        · exact h
        · exact (ih.holds_of_named owner id target hget).sound
      cases call with
      | update given body =>
        obtain rfl : given = some target := Option.mem_toList.mp htarget
        rw [act_of_unnamed htargetSound (fun hname => hunnamed ⟨htargetSound, hname⟩)]
        refine .act ih hsupply ?_
        rintro app call ⟨⟩
        exact ⟨happ, by rintro o ⟨⟩⟩
      | _ => cases htarget

theorem Reached.properlyNamed {s : ServiceState Memory}
    (h : Reached config background App.WellFormed TargetsSound s) :
    s.store.Holds Object.ProperlyNamed := h.named.holds_of_named

theorem Reached.inPlace {s : ServiceState Memory}
    (h : Reached config background App.WellFormed TargetsSound s) : s.store.Consistent := by
  refine (h.reachable (fun _ happ => happ.sound) (fun m call hm hcall o ho => ?_)).store.consistent
  obtain h | ⟨owner, id, hget⟩ := hcall o ho
  · exact h
  · exact (hm.partitions owner id o hget).sound

/-- The objects that a batch delete finds are stored under the identifiers it was given, and no one
of them is dropped. -/
theorem mem_ids_deletable_iff {m : Memory} (hm : m.Consistent) (hnamed : m.Holds Object.ProperlyNamed)
    (app : App) {ids : List String} {id : String} {o : Object}
    (ho : m.get? app.identifier id = some o) :
    id ∈ (deletable app (ids.filterMap (m.get? app.identifier))).filterMap Object.id ↔ id ∈ ids := by
  constructor
  · intro hid
    obtain ⟨x, hx, hxid⟩ := List.mem_filterMap.mp hid
    exact mem_of_mem_deletable hm hx hxid
  · intro hid
    have hkey := (hm.partitions app.identifier id o ho).key
    have hblank := TypeName.isBlank_of_isValid (hnamed app.identifier id o ho).name
    have hfound : o ∈ ids.filterMap (m.get? app.identifier) := List.mem_filterMap.mpr ⟨id, hid, ho⟩
    have hkept : o ∈ (ids.filterMap (m.get? app.identifier)).filter
        (fun o => o.id.isSome && !Text.isBlank o.type) := by
      rw [List.mem_filter]
      exact ⟨hfound, by simp [hkey, hblank]⟩
    exact List.mem_filterMap.mpr ⟨app.stamp o, List.mem_map_of_mem hkept, hkey⟩

/-- A batch delete comes to the removal of the identifiers it was given. -/
theorem batchDelete_removes {s : ServiceState Memory} (hs : s.store.Consistent)
    (hnamed : s.store.Holds Object.ProperlyNamed) (config : Config) (background : Background)
    (app : App) {ids : List String} (hids : ids ≠ []) (hmax : ids.length ≤ config.maxBatchDelete) :
    ((inMemory config background).batchDelete app ids).on s =
      (.ok .okEmpty, { s with store := s.store.remove app.identifier ids }) := by
  have hsome : ids.isEmpty = false := List.isEmpty_eq_false_iff.mpr hids
  have hlimit : ¬(inMemory config background).config.maxBatchDelete < ids.length :=
    Nat.not_lt.mpr hmax
  rw [batchDelete_on, hsome, if_neg Bool.false_ne_true, if_neg hlimit, inMemory_readAll]
  have hremove : s.store.remove app.identifier
      ((deletable app (ids.filterMap (s.store.get? app.identifier))).filterMap Object.id) =
        s.store.remove app.identifier ids :=
    Memory.remove_congr (fun id o ho => mem_ids_deletable_iff hs hnamed app ho)
  dsimp only
  split
  · rename_i hnone
    rw [List.isEmpty_iff.mp hnone, List.filterMap_nil, Memory.remove_nil] at hremove
    rw [← hremove]
  · rw [← hremove]
    rfl

theorem filterMap_get?_remove (m : Memory) (app : AppId) (ids : List String) :
    ids.filterMap ((m.remove app ids).get? app) = [] := by
  rw [List.filterMap_eq_nil_iff]
  intro id hid
  rw [Memory.get?_remove, if_pos hid]

theorem batchRead_of_absent {s : ServiceState Memory} {app : App} {ids : List String}
    (hids : ids ≠ []) (h : ids.filterMap (s.store.get? app.identifier) = []) :
    ((inMemory config background).batchRead app ids).on s = (.ok (.okList []), s) := by
  rw [batchRead_on, List.isEmpty_eq_false_iff.mpr hids, if_neg Bool.false_ne_true,
    inMemory_readAll, h]
  rfl

theorem batchDelete_of_absent {s : ServiceState Memory} {app : App} {ids : List String}
    (hids : ids ≠ []) (hmax : ids.length ≤ config.maxBatchDelete)
    (h : ids.filterMap (s.store.get? app.identifier) = []) :
    ((inMemory config background).batchDelete app ids).on s = (.ok .okEmpty, s) := by
  have hlimit : ¬(inMemory config background).config.maxBatchDelete < ids.length :=
    Nat.not_lt.mpr hmax
  rw [batchDelete_on, List.isEmpty_eq_false_iff.mpr hids, if_neg Bool.false_ne_true, if_neg hlimit,
    inMemory_readAll, h]
  rfl

theorem batchDelete_refuses (config : Config) (background : Background) (app : App)
    {ids : List String} (s : ServiceState Memory) (h : ids = [] ∨ config.maxBatchDelete < ids.length) :
    ((inMemory config background).batchDelete app ids).on s =
      (.error (.badRequest [if ids = [] then "Missing ids."
        else "Limit reached. Maximum number of items to delete is " ++
          toString config.maxBatchDelete]), s) := by
  rw [batchDelete_on]
  cases ids with
  | nil => rfl
  | cons id ids =>
    have hmax : (inMemory config background).config.maxBatchDelete < (id :: ids).length :=
      h.resolve_left (List.cons_ne_nil id ids)
    rw [List.isEmpty_cons, if_neg Bool.false_ne_true, if_pos hmax, if_neg (List.cons_ne_nil id ids)]
    rfl

/-- A batch delete under any app, by any service, on what the requests of a service have come to. It
is refused and changes nothing if it names no identifier, or too many. Otherwise what it names is
gone from the partition of the app and all else is as it was; a batch read of the same finds nothing
any more, and another batch delete of the same changes nothing. -/
theorem batchDelete_exact {config : Config} {background : Background} {s : ServiceState Memory}
    (hs : Reached config background App.WellFormed TargetsSound s) (config' : Config)
    (background' : Background) (app : App) (ids : List String) :
    let svc := inMemory config' background'
    let r := (svc.batchDelete app ids).on s
    (ids = [] ∨ config'.maxBatchDelete < ids.length →
      r = (.error (.badRequest [if ids = [] then "Missing ids."
        else "Limit reached. Maximum number of items to delete is " ++
          toString config'.maxBatchDelete]), s)) ∧
    (ids ≠ [] → ids.length ≤ config'.maxBatchDelete →
      r = (.ok .okEmpty, { s with store := r.2.store }) ∧
      r.2.store.objects app.identifier =
        (s.store.objects app.identifier).filter (fun id _ => !ids.contains id) ∧
      (∀ other, other ≠ app.identifier →
        r.2.store.partitions.get? other.text = s.store.partitions.get? other.text) ∧
      (svc.batchRead app ids).on r.2 = (.ok (.okList []), r.2) ∧
      (svc.batchDelete app ids).on r.2 = (.ok .okEmpty, r.2)) := by
  intro svc r
  refine ⟨batchDelete_refuses config' background' app s, fun hids hmax => ?_⟩
  have hr : r = (.ok .okEmpty, { s with store := s.store.remove app.identifier ids }) :=
    batchDelete_removes hs.inPlace hs.properlyNamed config' background' app hids hmax
  have habsent : ids.filterMap (r.2.store.get? app.identifier) = [] := by
    rw [hr]
    exact filterMap_get?_remove s.store app.identifier ids
  refine ⟨by rw [hr], ?_, fun other hother => ?_, batchRead_of_absent hids habsent,
    batchDelete_of_absent hids hmax habsent⟩
  · rw [hr]
    exact s.store.objects_remove app.identifier ids
  · rw [hr]
    exact s.store.partitions_remove hother ids

/-- A dog is deleted that is named twice, together with one that was never there. -/
theorem batchDelete_dog :
    let ids := ["d", "x", "d"]
    let r := ((inMemory {} .queued).batchDelete .shop ids).on dogAndVote
    Reached {} .queued App.WellFormed TargetsSound dogAndVote ∧ r.1 = .ok .okEmpty ∧
      (dogAndVote.store.get? App.shop.identifier "d").isSome ∧
      r.2.store.get? App.shop.identifier "d" = none ∧
      (r.2.store.get? App.shop.identifier "v").isSome ∧
      ((inMemory {} .queued).batchRead .shop ids).on r.2 = (.ok (.okList []), r.2) ∧
      (((inMemory {} .queued).batchDelete .shop []).on dogAndVote).2 = dogAndVote := by
  intro ids r
  have hreached : Reached {} .queued App.WellFormed TargetsSound dogAndVote := by
    refine reached_dogAndVote wellFormed_shop (by rintro m hint body o ⟨⟩) (fun m owner id body => ?_)
    exact fun o ho => .inr ⟨owner, id, Option.mem_toList.mp ho⟩
  obtain ⟨-, hdeletes⟩ := batchDelete_exact hreached {} .queued .shop ids
  obtain ⟨hanswer, hobjects, -, hread, -⟩ := hdeletes (by decide) (by decide)
  obtain ⟨hrefuses, -⟩ := batchDelete_exact hreached {} .queued .shop []
  have hdog : r.2.store.get? App.shop.identifier "d" = none := by
    rw [Memory.get?, hobjects, KeyMap.get?_filter_keys]
    rfl
  have hvote : r.2.store.get? App.shop.identifier "v" =
      dogAndVote.store.get? App.shop.identifier "v" := by
    rw [Memory.get?, hobjects, KeyMap.get?_filter_keys]
    rfl
  have hkept : (((inMemory {} .queued).batchDelete .shop []).on dogAndVote).2 = dogAndVote := by
    rw [hrefuses (.inl rfl)]
  refine ⟨hreached, congrArg Prod.fst hanswer, by decide +kernel, hdog, ?_, hread, hkept⟩
  rw [hvote]
  decide +kernel

end Service

end ObjectDepot
