import ObjectDepot.Proofs.Projection
import ObjectDepot.Storage.Memory

/-! Merging an object into a stored one, and a batch of objects into a partition: what one merge
keeps, the whole batch keeps, whether or not it comes to its end. -/

namespace ObjectDepot

namespace Object

theorem mergeFrom_eq_ok_iff {o other merged : Object} :
    o.mergeFrom other = .ok merged ↔ o.overlay other.toFields = .ok merged := by
  rw [mergeFrom, mapError_eq_ok_iff]

/-- A text that another object sets is taken over. -/
theorem text_mergeFrom {o other merged : Object} (h : o.mergeFrom other = .ok merged) {k : String}
    {f : FieldSpec} (hf : Envelope.spec? k = some f) (hkind : f.kind = .text) (hk : k ≠ "type")
    {t : String} (ht : other.envelope.get? k = some (.str t)) :
    merged.envelope.get? k = some (.str t) := by
  have hhas : Envelope.has k = true := by simp [Envelope.has, hf]
  have hkept : kept? Envelope.fieldSpecs k (.str t) = some (.str t) :=
    kept?_eq_some_iff.mpr ⟨rfl, f, hf, hkind ▸ FieldKind.read_text_self_iff.mpr ⟨t, rfl⟩⟩
  rw [get?_overlay_envelope_read (mergeFrom_eq_ok_iff.mp h), get?_envelopeChanges, get?_toFields,
    ht]
  simp [hhas, hk, changed, Json.isNull, hkept]

theorem id_mergeFrom {o other merged : Object} (h : o.mergeFrom other = .ok merged) {id : String}
    (hid : other.id = some id) : merged.id = some id :=
  id_eq_some_iff.mpr (text_mergeFrom h rfl rfl (by decide) (id_eq_some_iff.mp hid))

theorem appid_mergeFrom {o other merged : Object} (h : o.mergeFrom other = .ok merged)
    {appid : String} (happid : other.appid = some appid) : merged.appid = some appid :=
  appid_eq_some_iff.mpr (text_mergeFrom h rfl rfl (by decide) (appid_eq_some_iff.mp happid))

theorem sound_mergeFrom {o other merged : Object} (h : o.mergeFrom other = .ok merged) :
    merged.Sound :=
  sound_overlay (mergeFrom_eq_ok_iff.mp h)

/-- A merged object is sound also at the time it is stored. -/
theorem sound_merged {o other merged : Object} (h : o.mergeFrom other = .ok merged) {now : Int}
    (hnow : IsInt64 now) : (merged.withUpdated (some now)).Sound := by
  refine (sound_mergeFrom h).withUpdated (fun t ht => ?_)
  obtain rfl := Option.some.inj ht
  exact hnow

theorem shape_mergeFrom {o other merged : Object} (h : o.mergeFrom other = .ok merged) :
    merged.shape = o.shape :=
  shape_overlay (mergeFrom_eq_ok_iff.mp h)

end Object

namespace Memory

variable {now : Int} {p : Partition} {o : Object} {os : List Object}

theorem mergeAll_cons_of_absent (h : o.id.bind p.get? = none) :
    mergeAll now p (o :: os) =
      (⟨(mergeAll now p os).1.answer, o :: (mergeAll now p os).1.left⟩, (mergeAll now p os).2) := by
  rw [mergeAll, h]

theorem mergeAll_cons_of_error {id : String} {stored : Object} {e : ValidationError}
    (hid : o.id = some id) (hget : p.get? id = some stored) (he : stored.mergeFrom o = .error e) :
    mergeAll now p (o :: os) = (⟨.error (.invalid e), o :: os⟩, p) := by
  simp [mergeAll, hid, hget, he]

theorem mergeAll_cons_of_ok {id : String} {stored merged : Object}
    (hid : o.id = some id) (hget : p.get? id = some stored) (hm : stored.mergeFrom o = .ok merged) :
    mergeAll now p (o :: os) =
      let rest := mergeAll now (p.insert id (merged.withUpdated (some now))) os
      (⟨rest.1.answer, merged.withUpdated (some now) :: rest.1.left⟩, rest.2) := by
  simp [mergeAll, hid, hget, hm]

theorem mergeAll_keeps {P : Partition → Prop}
    (hstep : ∀ p o id stored merged, P p → o ∈ os → o.id = some id → p.get? id = some stored →
      stored.mergeFrom o = .ok merged → P (p.insert id (merged.withUpdated (some now))))
    (hp : P p) : P (mergeAll now p os).2 := by
  induction os generalizing p with
  | nil => exact hp
  | cons o os ih =>
    have ih' {p : Partition} (hp : P p) : P (mergeAll now p os).2 :=
      ih (fun p o id stored merged hp ho => hstep p o id stored merged hp (by simp [ho])) hp
    cases htarget : o.id.bind p.get? with
    | none =>
      rw [mergeAll_cons_of_absent htarget]
      exact ih' hp
    | some stored =>
      obtain ⟨id, hid, hget⟩ := Option.bind_eq_some_iff.mp htarget
      cases hm : stored.mergeFrom o with
      | error e =>
        rw [mergeAll_cons_of_error hid hget hm]
        exact hp
      | ok merged =>
        rw [mergeAll_cons_of_ok hid hget hm]
        exact ih' (hstep p o id stored merged hp (by simp) hid hget hm)

end Memory

end ObjectDepot
