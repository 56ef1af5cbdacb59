import Mathlib.Data.List.Forall2
import ObjectDepot.Proofs.ItemIsolation
import ObjectDepot.Proofs.Validity

/-! Requests that differ only in fields that the server assigns. They give objects that differ only in
these fields, and a storage takes such objects for the same. -/

namespace ObjectDepot

/-- What the server assigns beside the identifier. -/
def Envelope.serverSide : List String := ["appid", "shardkey", "timestamp", "updated"]

/-- Whether the values that are there, if they are not null, are of the kinds of their fields. -/
def FitsOn (names : List String) (fields : FieldMap) : Prop :=
  ∀ k ∈ names, ∀ v, fields.get? k = some v → misfit? Envelope.fieldSpecs k v = none

def SameOff (names : List String) (fields fields' : FieldMap) : Prop :=
  ∀ k, k ∉ names → fields'.get? k = fields.get? k

theorem sameOff_iff_filter {names : List String} {fields fields' : FieldMap} :
    SameOff names fields fields' ↔
      fields'.filter (fun k _ => !names.contains k) = fields.filter (fun k _ => !names.contains k) := by
  constructor
  · intro h
    refine KeyMap.ext (fun k => ?_)
    rw [KeyMap.get?_filter_keys, KeyMap.get?_filter_keys]
    by_cases hk : k ∈ names
    · simp [hk]
    · simp [hk, h k hk]
  · intro h k hk
    have hget := congrArg (fun m => m.get? k) h
    simpa [KeyMap.get?_filter_keys, hk] using hget

instance (names : List String) (fields fields' : FieldMap) :
    Decidable (SameOff names fields fields') :=
  decidable_of_iff _ sameOff_iff_filter.symm

instance (names : List String) (fields : FieldMap) : Decidable (FitsOn names fields) :=
  inferInstanceAs (Decidable (∀ k ∈ names, ∀ v ∈ fields.get? k, _))

/-- The two requests tell the same, the fields that the server assigns aside. -/
structure SameRequest (fields fields' : FieldMap) : Prop where
  others : SameOff Envelope.serverSide fields fields'
  fits : FitsOn Envelope.serverSide fields
  fits' : FitsOn Envelope.serverSide fields'

/-- Both fail in the same way, or both succeed and what they give is related. -/
def SameOutcome {ε α : Type} (R : α → α → Prop) (x x' : Except ε α) : Prop :=
  (∃ e, x = .error e ∧ x' = .error e) ∨ ∃ a a', x = .ok a ∧ x' = .ok a' ∧ R a a'

namespace SameOutcome

variable {ε ε' α β : Type} {R : α → α → Prop} {S : β → β → Prop} {x x' : Except ε α}

theorem map (h : SameOutcome R x x') {f : α → β} (hf : ∀ a a', R a a' → S (f a) (f a')) :
    SameOutcome S (x.map f) (x'.map f) := by
  rcases h with ⟨e, rfl, rfl⟩ | ⟨a, a', rfl, rfl, hR⟩
  · exact .inl ⟨e, rfl, rfl⟩
  · exact .inr ⟨f a, f a', rfl, rfl, hf a a' hR⟩

theorem mapError (h : SameOutcome R x x') (f : ε → ε') :
    SameOutcome R (x.mapError f) (x'.mapError f) := by
  rcases h with ⟨e, rfl, rfl⟩ | ⟨a, a', rfl, rfl, hR⟩
  · exact .inl ⟨f e, rfl, rfl⟩
  · exact .inr ⟨a, a', rfl, rfl, hR⟩

end SameOutcome

theorem findSome?_filter {α β : Type} {p : α → Bool} {g : α → Option β} {l : List α}
    (h : ∀ a ∈ l, p a = false → g a = none) : (l.filter p).findSome? g = l.findSome? g := by
  induction l with
  | nil => rfl
  | cons a l ih =>
    have hh := ih (fun b hb => h b (List.mem_cons_of_mem _ hb))
    cases hp : p a with
    | true => rw [List.filter_cons_of_pos hp, List.findSome?_cons, List.findSome?_cons, hh]
    | false =>
      rw [List.filter_cons_of_neg (by simp [hp]), List.findSome?_cons,
        h a List.mem_cons_self hp, hh]

section Reading

variable {names : List String} {fields fields' : FieldMap}

/-- Values that fit have no part in what is wrong with other fields. -/
theorem firstMisfit_eq (h : SameOff names fields fields') (hfits : FitsOn names fields)
    (hfits' : FitsOn names fields') :
    fields'.entries.findSome? (fun e => misfit? Envelope.fieldSpecs e.1 e.2) =
      fields.entries.findSome? (fun e => misfit? Envelope.fieldSpecs e.1 e.2) := by
  have hskip {m : FieldMap} (hm : FitsOn names m) :
      (m.filter (fun k _ => !names.contains k)).entries.findSome?
          (fun e => misfit? Envelope.fieldSpecs e.1 e.2) =
        m.entries.findSome? (fun e => misfit? Envelope.fieldSpecs e.1 e.2) := by
    refine findSome?_filter (fun e he hin => ?_)
    exact hm e.1 (by simpa using hin) e.2 (KeyMap.get?_eq_some_iff.mpr he)
  rw [← hskip hfits, ← hskip hfits', sameOff_iff_filter.mp h]

theorem readFields_sameOutcome (h : SameOff names fields fields') (hfits : FitsOn names fields)
    (hfits' : FitsOn names fields') :
    SameOutcome (fun _ _ => True) (readFields Envelope.fieldSpecs fields)
      (readFields Envelope.fieldSpecs fields') := by
  unfold readFields
  rw [firstMisfit_eq h hfits hfits']
  split
  · rename_i fault _
    exact .inl ⟨fault, rfl, rfl⟩
  · exact .inr ⟨_, _, rfl, rfl, trivial⟩

end Reading

theorem typeOf_congr {fields fields' : FieldMap} (h : fields'.get? "type" = fields.get? "type") :
    Object.typeOf fields' = Object.typeOf fields := by
  rw [Object.typeOf, Object.typeOf, h]

namespace Object

theorem overlay_eq (o : Object) (fields : FieldMap) :
    o.overlay fields =
      match readFields Envelope.fieldSpecs (patch o.envelope.toFields (envelopeChanges fields)) with
      | .error fault => .error fault
      | .ok read =>
        (o.body.withFields (patch o.body.fields (o.bodyChanges fields))).map
          (fun b => ⟨.ofReadFields read, b⟩) := by
  unfold overlay Envelope.ofFields
  simp only [bind, Except.bind, pure, Except.pure, envelopeChanges, bodyChanges]
  cases readFields Envelope.fieldSpecs _ with
  | error fault => rfl
  | ok read => cases o.body.withFields _ <;> rfl

section Overlaying

variable {names : List String} {o : Object} {fields fields' : FieldMap}

theorem bodyChanges_of_sameOff (hnames : ∀ k ∈ names, Envelope.has k)
    (h : SameOff names fields fields') : o.bodyChanges fields' = o.bodyChanges fields := by
  refine KeyMap.ext (fun k => ?_)
  rw [get?_bodyChanges, get?_bodyChanges]
  by_cases hk : k ∈ names
  · simp [hnames k hk]
  · rw [h k hk]

/-- Where an envelope has nothing yet, what is laid over it fits if it comes from what fits. -/
theorem fitsOn_patch (hempty : ∀ k ∈ names, o.envelope.get? k = none) (h : FitsOn names fields) :
    FitsOn names (patch o.envelope.toFields (envelopeChanges fields)) := by
  intro k hk v hv
  rw [get?_patch, Envelope.get?_toFields, hempty k hk] at hv
  have hchange : (envelopeChanges fields).get? k = some v := by
    cases hc : (envelopeChanges fields).get? k with
    | none => simp [hc, changed] at hv
    | some x => cases hnull : x.isNull <;> simp_all [changed]
  rw [get?_envelopeChanges] at hchange
  split at hchange
  · exact h k hk v hchange
  · cases hchange

/-- Laying over the same but for fields of the envelope that fit fails in the same way, or gives the
same but for these fields. -/
theorem overlay_sameBut (ho : o.Sound) (hnames : ∀ k ∈ names, Envelope.has k)
    (hempty : ∀ k ∈ names, o.envelope.get? k = none) (h : SameOff names fields fields')
    (hfits : FitsOn names fields) (hfits' : FitsOn names fields') :
    SameOutcome (SameBut names) (o.overlay fields) (o.overlay fields') := by
  have hchanges : SameOff names (patch o.envelope.toFields (envelopeChanges fields))
      (patch o.envelope.toFields (envelopeChanges fields')) := by
    intro k hk
    rw [get?_patch, get?_patch, get?_envelopeChanges, get?_envelopeChanges, h k hk]
  have hlay := overlay_eq o fields
  have hlay' := overlay_eq o fields'
  rw [bodyChanges_of_sameOff hnames h] at hlay'
  rcases readFields_sameOutcome hchanges (fitsOn_patch hempty hfits) (fitsOn_patch hempty hfits') with
    ⟨fault, hread, hread'⟩ | ⟨read, read', hread, hread', -⟩
  · rw [hread] at hlay
    rw [hread'] at hlay'
    exact .inl ⟨fault, hlay, hlay'⟩
  · rw [hread] at hlay
    rw [hread'] at hlay'
    cases hb : o.body.withFields (patch o.body.fields (o.bodyChanges fields)) with
    | error fault =>
      rw [hb] at hlay hlay'
      exact .inl ⟨fault, hlay, hlay'⟩
    | ok b =>
      rw [hb] at hlay hlay'
      refine .inr ⟨_, _, hlay, hlay', rfl, fun k hk => ?_⟩
      rw [get?_overlay_envelope ho hlay, get?_overlay_envelope ho hlay', h k hk]

end Overlaying

theorem ofFields_sameBut {names : List String} {fields fields' : FieldMap}
    (hnames : ∀ k ∈ names, Envelope.has k ∧ k ≠ "type") (h : SameOff names fields fields')
    (hfits : FitsOn names fields) (hfits' : FitsOn names fields') :
    SameOutcome (SameBut names) (ofFields fields) (ofFields fields') := by
  have htype : typeOf fields' = typeOf fields :=
    typeOf_congr (h "type" (fun hmem => (hnames _ hmem).2 rfl))
  unfold ofFields
  rw [htype]
  cases typeOf fields with
  | error e => exact .inl ⟨e, rfl, rfl⟩
  | ok type =>
    have herase {m : FieldMap} (hm : FitsOn names m) : FitsOn names (m.erase "type") := by
      intro k hk v hv
      rw [KeyMap.get?_erase, if_neg (hnames k hk).2] at hv
      exact hm k hk v hv
    have hoff : SameOff names (fields.erase "type") (fields'.erase "type") := by
      intro k hk
      rw [KeyMap.get?_erase, KeyMap.get?_erase, h k hk]
    have hnew (k : String) (hk : k ∈ names) : (ofType type).envelope.get? k = none :=
      get?_ofType_envelope (hnames k hk).2
    exact (overlay_sameBut (sound_ofType type) (fun k hk => (hnames k hk).1) hnew hoff (herase hfits)
      (herase hfits')).mapError _

/-- The time of change is what the fields say. -/
theorem updated_ofFields {fields : FieldMap} {o : Object} (h : ofFields fields = .ok o)
    (hfits : FitsOn Envelope.serverSide fields) :
    o.envelope.updated = Envelope.integerOf? fields "updated" := by
  obtain ⟨type, -, -, hlay⟩ := ofFields_eq_ok_iff.mp h
  have hget := get?_overlay_envelope (sound_ofType type) hlay "updated"
  rw [if_pos (by decide), KeyMap.get?_erase, if_neg (by decide)] at hget
  have hupdated : o.envelope.updated.map .int =
      changed (kept? Envelope.fieldSpecs "updated") (fields.get? "updated") none := hget
  rw [Envelope.integerOf?]
  cases hv : fields.get? "updated" with
  | none => simpa [hv, changed] using hupdated
  | some v =>
    cases hnull : v.isNull with
    | true =>
      cases v with
      | null => simpa [hv, changed, hnull] using hupdated
      | _ => cases hnull
    | false =>
      have hfit := hfits "updated" (by decide) v hv
      have hkept : kept? Envelope.fieldSpecs "updated" v = some v :=
        kept?_of_fits rfl hfit hnull (by rintro ⟨⟩) (by rintro ⟨⟩)
      rw [hv] at hupdated
      simp only [changed, hnull, Bool.false_eq_true, if_false, hkept] at hupdated
      obtain ⟨n, hn, rfl⟩ := Option.map_eq_some_iff.mp hupdated
      exact hn

/-- An object apart from when it was created and changed. -/
def timeless (o : Object) : Object := (o.withTimestamp none).withUpdated none

theorem timeless_adopt {o o' : Object} (h : SameBut Envelope.serverSide o o') (app : App) :
    (app.adopt o).timeless = (app.adopt o').timeless := by
  refine ext_get? (congrArg Body.shape h.body).symm (fun k => ?_) (fun k => ?_)
  · by_cases hk : k ∈ Envelope.serverSide
    · simp only [Envelope.serverSide, List.mem_cons, List.not_mem_nil, or_false] at hk
      rcases hk with rfl | rfl | rfl | rfl <;> rfl
    · have hget (x : Object) : (app.adopt x).timeless.envelope.get? k = x.envelope.get? k := by
        unfold Envelope.get?
        split <;> first | rfl | exact absurd (by decide) hk
      rw [hget, hget, h.envelope k hk]
  · exact congrArg (fun b => b.fields.get? k) h.body.symm

theorem violations_timeless (o : Object) : o.timeless.violations = o.violations :=
  Restamped.violations (o.restamped o.id o.appid o.shardKey none none)

theorem givenId?_of_timeless {o o' : Object} (h : o.timeless = o'.timeless) :
    o'.givenId? = o.givenId? := by
  have hid := congrArg Object.givenId? h.symm
  exact hid

theorem alike_asNew {o o' : Object} (h : o.timeless = o'.timeless) (id : String) (time : Int) :
    (o.asNew id time).Alike (o'.asNew id time) :=
  congrArg (fun x : Object => x.asNew id time) h

end Object

theorem SameRequest.withType {fields fields' : FieldMap} (h : SameRequest fields fields')
    (type : String) :
    SameRequest (fields.insert "type" (.str type)) (fields'.insert "type" (.str type)) := by
  have hfits {m : FieldMap} (hm : FitsOn Envelope.serverSide m) :
      FitsOn Envelope.serverSide (m.insert "type" (.str type)) := by
    intro k hk v hv
    have htype : k ≠ "type" := by
      rintro rfl
      exact absurd hk (by decide)
    rw [KeyMap.get?_insert_of_ne _ _ htype] at hv
    exact hm k hk v hv
  refine ⟨fun k hk => ?_, hfits h.fits, hfits h.fits'⟩
  rw [KeyMap.get?_insert, KeyMap.get?_insert, h.others k hk]

namespace FieldNames

theorem fitsOn_erase {names : List String} {fields : FieldMap} (h : FitsOn names fields)
    (key : String) : FitsOn names (fields.erase key) := by
  intro k hk v hv
  rw [KeyMap.get?_erase] at hv
  split at hv
  · cases hv
  · exact h k hk v hv

theorem toObject_sameBut {fields fields' : FieldMap} (h : SameRequest fields fields') :
    SameOutcome (Object.SameBut Envelope.serverSide) (({} : FieldNames).toObject fields)
      (({} : FieldNames).toObject fields') := by
  rw [toObject_default, toObject_default]
  refine Object.ofFields_sameBut (by decide) (fun k hk => ?_) (fitsOn_erase h.fits _)
    (fitsOn_erase h.fits' _)
  rw [KeyMap.get?_erase, KeyMap.get?_erase, h.others k hk]

theorem updated_toObject {fields : FieldMap} {o : Object}
    (h : ({} : FieldNames).toObject fields = .ok o) (hfits : FitsOn Envelope.serverSide fields) :
    o.envelope.updated = Envelope.integerOf? fields "updated" := by
  rw [toObject_default] at h
  rw [Object.updated_ofFields h (fitsOn_erase hfits _), Envelope.integerOf?, Envelope.integerOf?,
    KeyMap.get?_erase, if_neg (by decide)]

end FieldNames

namespace Partition

/-- Puts objects under their own identifiers. -/
def putAll (p : Partition) (xs : List Object) : Partition :=
  xs.foldl (fun q x => q.insert (x.id.getD "") x) p

theorem Alike.putAll {p q : Partition} (h : p.Alike q) {xs ys : List Object}
    (hxs : List.Forall₂ Object.Alike xs ys) : (p.putAll xs).Alike (q.putAll ys) := by
  induction hxs generalizing p q with
  | nil => exact h
  | @cons x y xs ys hxy _ ih =>
    have hid : x.id = y.id := by
      have hh := congrArg Object.id hxy
      exact hh
    have hinsert : Alike (p.insert (x.id.getD "") x) (q.insert (y.id.getD "") y) := by
      rw [hid]
      exact h.insert hxy _
    exact ih hinsert

theorem Alike.extend {p q : Partition} (h : p.Alike q) (old : Partition) :
    Alike (old.extend p) (old.extend q) := by
  intro id
  rw [KeyMap.get?_extend, KeyMap.get?_extend, Option.map_or, Option.map_or, h id]

end Partition

namespace Memory

theorem Alike.refl (m : Memory) : m.Alike m := fun _ => .refl _

theorem alike_withPartition (m : Memory) (app : AppId) {p q : Partition} (h : p.Alike q) :
    (m.withPartition app p).Alike (m.withPartition app q) := by
  intro other
  rw [objects_withPartition, objects_withPartition]
  split
  · exact h
  · exact .refl _

/-- Objects that a storage judges alike when it is to create them. -/
def SameKeys (o o' : Object) : Prop := o'.appid = o.appid ∧ o'.id = o.id

theorem sameKeys_of_timeless {o o' : Object} (h : o.timeless = o'.timeless) : SameKeys o o' := by
  have happid := congrArg Object.appid h.symm
  have hid := congrArg Object.id h.symm
  exact ⟨happid, hid⟩

theorem makeReady_of_sameKeys {o o' : Object} (h : SameKeys o o') (app : AppId) (p : Partition)
    (s : Supply) :
    (makeReady app p s o').2 = (makeReady app p s o).2 ∧
      ((∃ e, (makeReady app p s o).1 = ⟨.error e, o⟩ ∧
          (makeReady app p s o').1 = ⟨.error e, o'⟩) ∨
        ∃ id, (makeReady app p s o).1 = ⟨.ok id, o.asNew id s.now⟩ ∧
          (makeReady app p s o').1 = ⟨.ok id, o'.asNew id s.now⟩) := by
  have howner : checkOwner app o' = checkOwner app o := by
    rw [checkOwner, checkOwner, h.1, h.2]
  have hid : assignedId s o' = assignedId s o := by
    rw [assignedId, assignedId, Object.givenId?, Object.givenId?, h.2]
  have hnow := (assignedId_spec s o).2.2
  unfold makeReady
  rw [howner, hid]
  cases checkOwner app o with
  | error e => exact ⟨rfl, .inl ⟨e, rfl, rfl⟩⟩
  | ok _ =>
    dsimp only
    split
    · exact ⟨rfl, .inl ⟨_, rfl, rfl⟩⟩
    · refine ⟨rfl, .inr ⟨(assignedId s o).1, ?_, ?_⟩⟩
      · rw [hnow]
        rfl
      · rw [hnow]
        rfl

/-- New objects as they are stored under identifiers. -/
def allNew (os : List Object) (ids : List String) (now : Int) : List Object :=
  List.zipWith (fun o id => o.asNew id now) os ids

theorem mem_allNew {os : List Object} {ids : List String} {now : Int} {x : Object}
    (h : x ∈ allNew os ids now) : ∃ o ∈ os, ∃ id, x = o.asNew id now := by
  induction os generalizing ids with
  | nil => cases h
  | cons o os ih =>
    cases ids with
    | nil => cases h
    | cons id ids =>
      rcases List.mem_cons.mp h with rfl | h
      · exact ⟨o, List.mem_cons_self, id, rfl⟩
      · obtain ⟨o', ho', hx⟩ := ih h
        exact ⟨o', List.mem_cons_of_mem _ ho', hx⟩

theorem updated_allNew {os : List Object} {ids : List String} (h : ids.length = os.length)
    (now : Int) : (allNew os ids now).map (·.envelope.updated) = os.map (·.envelope.updated) := by
  induction os generalizing ids with
  | nil => rfl
  | cons o os ih =>
    cases ids with
    | nil => cases h
    | cons id ids =>
      have hh := ih (Nat.succ.inj h)
      rw [List.map_cons, ← hh]
      rfl

theorem makeAllReady_of_sameKeys {os os' : List Object} (h : List.Forall₂ SameKeys os os')
    (app : AppId) (p : Partition) {staged staged' : Partition}
    (hstaged : ∀ id, staged'.contains id = staged.contains id) (s : Supply) :
    (makeAllReady app p staged' s os').2 = (makeAllReady app p staged s os).2 ∧
      ((∃ e, (makeAllReady app p staged s os).1.answer = .error e ∧
          (makeAllReady app p staged' s os').1.answer = .error e) ∨
        ∃ ids, ids.length = os.length ∧
          (makeAllReady app p staged s os).1 =
            ⟨.ok (staged.putAll (allNew os ids s.now)), allNew os ids s.now⟩ ∧
          (makeAllReady app p staged' s os').1 =
            ⟨.ok (staged'.putAll (allNew os' ids s.now)), allNew os' ids s.now⟩) := by
  induction h generalizing staged staged' s with
  | nil => exact ⟨rfl, .inr ⟨[], rfl, rfl, rfl⟩⟩
  | @cons o o' os os' ho _ ih =>
    obtain ⟨hsupply, hready⟩ := makeReady_of_sameKeys ho app p s
    have hnow := (makeReady_supply app p s o).2
    unfold makeAllReady
    rcases hr : makeReady app p s o with ⟨w, t⟩
    rcases hr' : makeReady app p s o' with ⟨w', t'⟩
    rw [hr, hr'] at hsupply hready
    rw [hr] at hnow
    dsimp only at hsupply hready hnow
    subst hsupply
    rcases hready with ⟨e, rfl, rfl⟩ | ⟨id, rfl, rfl⟩
    · exact ⟨rfl, .inl ⟨e, rfl, rfl⟩⟩
    · dsimp only
      rw [hstaged id]
      split
      · exact ⟨rfl, .inl ⟨_, rfl, rfl⟩⟩
      · have hinsert : ∀ k, KeyMap.contains (staged'.insert id (o'.asNew id s.now)) k =
            KeyMap.contains (staged.insert id (o.asNew id s.now)) k := by
          intro k
          have hk := hstaged k
          simp only [KeyMap.contains, KeyMap.get?_insert] at hk ⊢
          split
          · rfl
          · exact hk
        obtain ⟨hrest, hmore⟩ := ih hinsert t'
        refine ⟨hrest, ?_⟩
        rcases hmore with ⟨e, he, he'⟩ | ⟨ids, hlength, hall, hall'⟩
        · exact .inl ⟨e, he, he'⟩
        · refine .inr ⟨id :: ids, congrArg (· + 1) hlength, ?_, ?_⟩
          · rw [hall, hnow]
            rfl
          · rw [hall', hnow]
            rfl

theorem create_of_sameKeys {o o' : Object} (h : SameKeys o o') (app : AppId) (m : Memory) :
    (∃ e, ∃ m' : Memory, create app o m = (⟨.error e, o⟩, m') ∧
        create app o' m = (⟨.error e, o'⟩, m')) ∨
      ∃ id, ∃ m' : Memory, o.MayGet m.supply id ∧
        create app o m =
          (⟨.ok id, o.asNew id m.supply.now⟩, m'.put app id (o.asNew id m.supply.now)) ∧
        create app o' m =
          (⟨.ok id, o'.asNew id m.supply.now⟩, m'.put app id (o'.asNew id m.supply.now)) := by
  obtain ⟨hsupply, hready⟩ := makeReady_of_sameKeys h app (m.objects app) m.supply
  unfold create
  rcases hr : makeReady app (m.objects app) m.supply o with ⟨w, t⟩
  rcases hr' : makeReady app (m.objects app) m.supply o' with ⟨w', t'⟩
  rw [hr, hr'] at hsupply hready
  dsimp only at hsupply hready
  subst hsupply
  rcases hready with ⟨e, rfl, rfl⟩ | ⟨id, rfl, rfl⟩
  · exact .inl ⟨e, _, rfl, rfl⟩
  · exact .inr ⟨id, _, mayGet_of_makeReady hr, rfl, rfl⟩

theorem createAll_of_sameKeys {os os' : List Object} (h : List.Forall₂ SameKeys os os')
    (app : AppId) (m : Memory) :
    (∃ e left left', ∃ m' : Memory, createAll app os m = (⟨.error e, left⟩, m') ∧
        createAll app os' m = (⟨.error e, left'⟩, m')) ∨
      ∃ ids answer answer', ∃ m' : Memory, ids.length = os.length ∧
        createAll app os m = (⟨.ok answer, allNew os ids m.supply.now⟩, m'.withPartition app
          ((m'.objects app).extend (Partition.putAll .empty (allNew os ids m.supply.now)))) ∧
        createAll app os' m = (⟨.ok answer', allNew os' ids m.supply.now⟩, m'.withPartition app
          ((m'.objects app).extend (Partition.putAll .empty (allNew os' ids m.supply.now)))) := by
  have hstaged (id : String) : (KeyMap.empty : Partition).contains id = KeyMap.empty.contains id :=
    rfl
  obtain ⟨hsupply, hready⟩ :=
    makeAllReady_of_sameKeys h app (m.objects app) hstaged m.supply
  unfold createAll
  rcases hr : makeAllReady app (m.objects app) .empty m.supply os with ⟨⟨answer, left⟩, t⟩
  rcases hr' : makeAllReady app (m.objects app) .empty m.supply os' with ⟨⟨answer', left'⟩, t'⟩
  rw [hr, hr'] at hsupply hready
  dsimp only at hsupply hready
  subst hsupply
  rcases hready with ⟨e, rfl, rfl⟩ | ⟨ids, hlength, hall, hall'⟩
  · exact .inl ⟨e, left, left', _, rfl, rfl⟩
  · cases hall
    cases hall'
    exact .inr ⟨ids, _, _, { m with supply := t' }, hlength, rfl, rfl⟩

end Memory

/-- Lists of objects that are the same but for their times. -/
def AllTimeless (os os' : List Object) : Prop :=
  List.Forall₂ (fun o o' => o.timeless = o'.timeless) os os'

namespace AllTimeless

variable {os os' : List Object}

theorem sameKeys (h : AllTimeless os os') : List.Forall₂ Memory.SameKeys os os' :=
  h.imp (fun _ _ => Memory.sameKeys_of_timeless)

theorem givenIds (h : AllTimeless os os') :
    os'.filterMap Object.givenId? = os.filterMap Object.givenId? := by
  induction h with
  | nil => rfl
  | cons ho _ ih => rw [List.filterMap_cons, List.filterMap_cons, Object.givenId?_of_timeless ho, ih]

theorem keepUntaken (h : AllTimeless os os') (taken : List String) :
    AllTimeless (Service.keepUntaken taken os) (Service.keepUntaken taken os') := by
  induction h generalizing taken with
  | nil => exact .nil
  | @cons o o' os os' ho hos ih =>
    unfold Service.keepUntaken
    rw [Object.givenId?_of_timeless ho]
    cases o.givenId? with
    | none => exact .cons ho (ih taken)
    | some id =>
      dsimp only
      split
      · exact ih taken
      · exact .cons ho (ih (id :: taken))

theorem alike_allNew (h : AllTimeless os os') (ids : List String) (now : Int) :
    List.Forall₂ Object.Alike (Memory.allNew os ids now) (Memory.allNew os' ids now) := by
  induction h generalizing ids with
  | nil => exact .nil
  | cons ho _ ih =>
    cases ids with
    | nil => exact .nil
    | cons id ids => exact .cons (Object.alike_asNew ho id now) (ih ids)

end AllTimeless

end ObjectDepot
