import ObjectDepot.Object
import ObjectDepot.Proofs.EnvelopeFields

/-! The fields of an object: those of the envelope before those of the body. Which values an object
can hold, and what becomes of its fields when the envelope is stamped. -/

namespace ObjectDepot

namespace Body

def kept? (b : Body) (name : String) (v : Json) : Option Json :=
  match b.shape with
  | some s => ObjectDepot.kept? s.fields name v
  | none => some v

def misfit? (b : Body) (name : String) (v : Json) : Option FieldFault :=
  match b.shape with
  | some s => ObjectDepot.misfit? s.fields name v
  | none => none

/-- The fields of a shape are as they are read; an open body holds anything. -/
def Sound (b : Body) : Prop := ∀ name v, b.fields.get? name = some v → b.kept? name v = some v

theorem sound_forType (type : String) : (forType type).Sound := by
  intro name v h
  simp [forType] at h

end Body

namespace Object

/-- An object that can be: its times are 64-bit integers and its body is as its shape reads it. -/
structure Sound (o : Object) : Prop where
  envelope : o.envelope.Sound
  body : o.body.Sound

theorem sound_ofType (type : String) : (ofType type).Sound :=
  ⟨⟨by simp [ofType], by simp [ofType]⟩, Body.sound_forType type⟩

theorem get?_toFields (o : Object) (k : String) :
    o.toFields.get? k = (o.envelope.get? k).or (o.body.fields.get? k) := by
  rw [toFields, KeyMap.get?_extend, Envelope.get?_toFields]

theorem id_eq_some_iff {o : Object} {id : String} :
    o.id = some id ↔ o.envelope.get? "id" = some (.str id) := by
  simp [Envelope.get?, Object.id]

theorem appid_eq_some_iff {o : Object} {appid : String} :
    o.appid = some appid ↔ o.envelope.get? "appid" = some (.str appid) := by
  simp [Envelope.get?, Object.appid]

theorem get?_withAppid (o : Object) (appid : Option String) (k : String) :
    (o.withAppid appid).envelope.get? k =
      if k = "appid" then appid.map .str else o.envelope.get? k := by
  unfold Envelope.get?
  split <;> simp_all [withAppid]

theorem get?_withShardKey (o : Object) (key : Option String) (k : String) :
    (o.withShardKey key).envelope.get? k =
      if k = "shardkey" then key.map .str else o.envelope.get? k := by
  unfold Envelope.get?
  split <;> simp_all [withShardKey]

theorem get?_withUpdated (o : Object) (time : Option Int) (k : String) :
    (o.withUpdated time).envelope.get? k =
      if k = "updated" then time.map .int else o.envelope.get? k := by
  unfold Envelope.get?
  split <;> simp_all [withUpdated]

theorem get?_withTimestamp (o : Object) (time : Option Int) (k : String) :
    (o.withTimestamp time).envelope.get? k =
      if k = "timestamp" then time.map .int else o.envelope.get? k := by
  unfold Envelope.get?
  split <;> simp_all [withTimestamp]

theorem withTimestamp_self (o : Object) : o.withTimestamp o.envelope.timestamp = o := rfl

theorem Sound.withId {o : Object} (ho : o.Sound) (id : Option String) : (o.withId id).Sound :=
  ⟨⟨ho.envelope.timestamp, ho.envelope.updated⟩, ho.body⟩

theorem Sound.withAppid {o : Object} (ho : o.Sound) (appid : Option String) :
    (o.withAppid appid).Sound :=
  ⟨⟨ho.envelope.timestamp, ho.envelope.updated⟩, ho.body⟩

theorem Sound.withShardKey {o : Object} (ho : o.Sound) (key : Option String) :
    (o.withShardKey key).Sound :=
  ⟨⟨ho.envelope.timestamp, ho.envelope.updated⟩, ho.body⟩

theorem Sound.withTimestamp {o : Object} (ho : o.Sound) {time : Option Int}
    (ht : ∀ t, time = some t → IsInt64 t) : (o.withTimestamp time).Sound :=
  ⟨⟨ht, ho.envelope.updated⟩, ho.body⟩

theorem Sound.withUpdated {o : Object} (ho : o.Sound) {time : Option Int}
    (ht : ∀ t, time = some t → IsInt64 t) : (o.withUpdated time).Sound :=
  ⟨⟨ho.envelope.timestamp, ht⟩, ho.body⟩

end Object

end ObjectDepot
