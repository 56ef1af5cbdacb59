import Mathlib.Data.List.Forall2
import ObjectDepot.Proofs.Writes

/-! Storing a batch of new objects. If nothing stands under the identifiers that the objects have or
get, and no two of them share one, then all are stored, and the partition is the old one with these
objects in addition. -/

namespace ObjectDepot

namespace Partition

/-- A partition and what it is once new objects, each under its own identifier, are put into it. -/
structure Gains (p : Partition) (created : List Object) (q : Partition) : Prop where
  entries : ∀ id x, q.get? id = some x ↔ p.get? id = some x ∨ x ∈ created ∧ x.id = some id
  fresh : ∀ x ∈ created, ∀ id, x.id = some id → p.get? id = none
  nodup : (created.map Object.id).Nodup
  size : q.size = p.size + created.length

theorem gains_nil (p : Partition) : p.Gains [] p :=
  ⟨by simp, by simp, List.nodup_nil, rfl⟩

theorem Gains.cons {p q : Partition} {x : Object} {xs : List Object} {id : String}
    (hfree : p.get? id = none) (hid : x.id = some id) (h : Gains (p.insert id x) xs q) :
    p.Gains (x :: xs) q := by
  have hne {y : Object} (hy : y ∈ xs) : y.id ≠ some id := by
    intro hyid
    have hnone := h.fresh y hy id hyid
    rw [KeyMap.get?_insert_self] at hnone
    cases hnone
  refine ⟨fun k y => ?_, fun y hy k hk => ?_, ?_, ?_⟩
  · rw [h.entries, KeyMap.get?_insert, List.mem_cons, or_and_right]
    by_cases hk : k = id
    · subst hk
      rw [if_pos rfl, hfree, Option.some.injEq]
      constructor
      · rintro (rfl | hy)
        · exact .inr (.inl ⟨rfl, hid⟩)
        · exact .inr (.inr hy)
      · rintro (hy | ⟨rfl, -⟩ | hy)
        · cases hy
        · exact .inl rfl
        · exact .inr hy
    · have hx : ¬ (y = x ∧ y.id = some k) := by
        rintro ⟨rfl, hy⟩
        exact hk (Option.some.inj (hy.symm.trans hid))
      simp [hk, hx]
  · rcases List.mem_cons.mp hy with rfl | hy
    · obtain rfl : id = k := Option.some.inj (hid.symm.trans hk)
      exact hfree
    · have hki : k ≠ id := by
        rintro rfl
        exact hne hy hk
      rw [← KeyMap.get?_insert_of_ne p x hki]
      exact h.fresh y hy k hk
  · rw [List.map_cons, List.nodup_cons]
    refine ⟨fun hmem => ?_, h.nodup⟩
    obtain ⟨y, hy, hyid⟩ := List.mem_map.mp hmem
    exact hne hy (hyid.trans hid)
  · rw [h.size, KeyMap.size_insert hfree, List.length_cons]
    omega

theorem extend_insert (p q : Partition) (id : String) (x : Object) :
    p.extend (q.insert id x) = (p.extend q).insert id x := by
  refine KeyMap.ext (fun k => ?_)
  rw [KeyMap.get?_extend, KeyMap.get?_insert, KeyMap.get?_insert, KeyMap.get?_extend]
  split <;> rfl

end Partition

/-- The identifiers that a supply has left are new: nothing stands under them, nothing else uses
them, and no two of them are the same. -/
structure Supply.Fresh (s : Supply) (p : Partition) (used : String → Prop) : Prop where
  apart : ∀ i j, s.drawn ≤ i → i < j → s.ids i ≠ s.ids j
  unstored : ∀ n, s.drawn ≤ n → p.get? (s.ids n) = none
  unused : ∀ n, s.drawn ≤ n → ¬ used (s.ids n)

/-- Objects whose identifiers are taken neither in a partition nor among themselves. -/
structure Partition.Unclaimed (p : Partition) (os : List Object) : Prop where
  free : ∀ o ∈ os, ∀ id, o.givenId? = some id → p.get? id = none
  apart : os.Pairwise (fun o o' => ∀ id, o.givenId? = some id → o'.givenId? ≠ some id)

/-- Whether an identifier is that of one of the objects. -/
def IsGiven (os : List Object) (id : String) : Prop := ∃ o ∈ os, o.givenId? = some id

namespace Memory

theorem assignedId_given {s : Supply} {o : Object} {id : String} (h : o.givenId? = some id) :
    assignedId s o = (id, s) := by
  rw [assignedId, h]

/-- What a supply gives out later is not the identifier that an object gets, and one that it gives
to the object is new. -/
theorem assignedId_new {p : Partition} {s : Supply} {o : Object} {os : List Object}
    (hs : s.Fresh p (IsGiven (o :: os))) :
    s.drawn ≤ (assignedId s o).2.drawn ∧
      (∀ n, (assignedId s o).2.drawn ≤ n → s.ids n ≠ (assignedId s o).1) ∧
      (o.givenId? = none → p.get? (assignedId s o).1 = none ∧ ¬ IsGiven os (assignedId s o).1) := by
  cases hid : o.givenId? with
  | some id =>
    rw [assignedId_given hid]
    refine ⟨Nat.le_refl _, fun n hn heq => ?_, fun h => by cases h⟩
    exact hs.unused n hn ⟨o, List.mem_cons_self, hid.trans (congrArg some heq.symm)⟩
  | none =>
    rw [assignedId, hid]
    refine ⟨Nat.le_succ _, fun n hn => (hs.apart s.drawn n (Nat.le_refl _) hn).symm, fun _ =>
      ⟨hs.unstored _ (Nat.le_refl _), ?_⟩⟩
    rintro ⟨o', ho', hid'⟩
    exact hs.unused _ (Nat.le_refl _) ⟨o', List.mem_cons_of_mem _ ho', hid'⟩

theorem fresh_insert {p : Partition} {s : Supply} {o x : Object} {os : List Object}
    (hs : s.Fresh p (IsGiven (o :: os))) :
    (assignedId s o).2.Fresh (p.insert (assignedId s o).1 x) (IsGiven os) := by
  obtain ⟨hdrawn, hnew, -⟩ := assignedId_new hs
  have hids : (assignedId s o).2.ids = s.ids := (assignedId_spec s o).2.1
  refine ⟨fun i j hi hij => ?_, fun n hn => ?_, fun n hn hused => ?_⟩
  · rw [hids]
    exact hs.apart i j (Nat.le_trans hdrawn hi) hij
  · rw [hids, KeyMap.get?_insert_of_ne _ _ (hnew n hn)]
    exact hs.unstored n (Nat.le_trans hdrawn hn)
  · rw [hids] at hused
    obtain ⟨o', ho', hid⟩ := hused
    exact hs.unused n (Nat.le_trans hdrawn hn) ⟨o', List.mem_cons_of_mem _ ho', hid⟩

/-- The identifier that an object gets is new to the partition and to the objects after it. -/
theorem assignedId_fresh {p : Partition} {s : Supply} {o : Object} {os : List Object}
    (hs : s.Fresh p (IsGiven (o :: os))) (hos : p.Unclaimed (o :: os)) :
    p.get? (assignedId s o).1 = none ∧ ¬ IsGiven os (assignedId s o).1 := by
  cases hid : o.givenId? with
  | none => exact (assignedId_new hs).2.2 hid
  | some id =>
    rw [assignedId_given hid]
    refine ⟨hos.free o List.mem_cons_self id hid, ?_⟩
    rintro ⟨o', ho', hid'⟩
    exact (List.pairwise_cons.mp hos.apart).1 o' ho' id hid hid'

theorem unclaimed_insert {p : Partition} {s : Supply} {o x : Object} {os : List Object}
    (hs : s.Fresh p (IsGiven (o :: os))) (hos : p.Unclaimed (o :: os)) :
    Partition.Unclaimed (p.insert (assignedId s o).1 x) os := by
  refine ⟨fun o' ho' id hid => ?_, (List.pairwise_cons.mp hos.apart).2⟩
  have hne : id ≠ (assignedId s o).1 := by
    rintro rfl
    exact (assignedId_fresh hs hos).2 ⟨o', ho', hid⟩
  rw [KeyMap.get?_insert_of_ne _ _ hne]
  exact hos.free o' (List.mem_cons_of_mem _ ho') id hid

theorem makeReady_of_free {app : AppId} {p : Partition} {s : Supply} {o : Object}
    (howner : o.appid = some app.text) (hfree : p.get? (assignedId s o).1 = none) :
    makeReady app p s o =
      (⟨.ok (assignedId s o).1, o.asNew (assignedId s o).1 s.now⟩, (assignedId s o).2) := by
  unfold makeReady
  rw [checkOwner_eq_ok_iff.mpr howner]
  simp [KeyMap.contains, hfree, Object.asNew, (assignedId_spec s o).2.2]

theorem create_of_free {m : Memory} {app : AppId} {o : Object} (howner : o.appid = some app.text)
    (hfree : m.get? app (assignedId m.supply o).1 = none) :
    let (id, supply) := assignedId m.supply o
    create app o m = (⟨.ok id, o.asNew id m.supply.now⟩,
      ({ m with supply := supply } : Memory).put app id (o.asNew id m.supply.now)) := by
  simp only [create, makeReady_of_free howner hfree]

/-- How a new object is stored: under its own identifier, or else under one of the supply. -/
def StoredAsNew (s : Supply) (o x : Object) : Prop := ∃ id, o.MayGet s id ∧ x = o.asNew id s.now

theorem makeAllReady_cons_of_free {app : AppId} {p staged : Partition} {s : Supply} {o : Object}
    (howner : o.appid = some app.text) (hfree : (p.extend staged).get? (assignedId s o).1 = none)
    (os : List Object) :
    makeAllReady app p staged s (o :: os) =
      let x := o.asNew (assignedId s o).1 s.now
      let rest := makeAllReady app p (staged.insert (assignedId s o).1 x) (assignedId s o).2 os
      (⟨rest.1.answer, x :: rest.1.left⟩, rest.2) := by
  -- What is new to the partition and to what is staged is new to each of the two.
  rw [KeyMap.get?_extend, Option.or_eq_none_iff] at hfree
  rw [makeAllReady, makeReady_of_free howner hfree.2]
  simp [KeyMap.contains, hfree.1]

theorem makeAllReady_of_unclaimed {app : AppId} {p : Partition} {os : List Object}
    (howners : ∀ o ∈ os, o.appid = some app.text) {s : Supply} {staged : Partition}
    (hs : s.Fresh (p.extend staged) (IsGiven os)) (hos : Partition.Unclaimed (p.extend staged) os) :
    ∃ result created, (makeAllReady app p staged s os).1 = ⟨.ok result, created⟩ ∧
      List.Forall₂ (StoredAsNew s) os created ∧
      Partition.Gains (p.extend staged) created (p.extend result) := by
  induction os generalizing s staged with
  | nil => exact ⟨staged, [], rfl, .nil, Partition.gains_nil _⟩
  | cons o os ih =>
    obtain ⟨hget, hids, hnow⟩ := assignedId_spec s o
    have hfree := (assignedId_fresh hs hos).1
    have hs' := fresh_insert (x := o.asNew (assignedId s o).1 s.now) hs
    have hos' := unclaimed_insert (x := o.asNew (assignedId s o).1 s.now) hs hos
    rw [← Partition.extend_insert] at hs' hos'
    obtain ⟨result, created, hready, hcreated, hgains⟩ :=
      ih (fun x hx => howners x (List.mem_cons_of_mem _ hx)) hs' hos'
    refine ⟨result, o.asNew (assignedId s o).1 s.now :: created, ?_, .cons ⟨_, hget, rfl⟩ ?_, ?_⟩
    · rw [makeAllReady_cons_of_free (howners o List.mem_cons_self) hfree]
      simp only [hready]
    · refine hcreated.imp ?_
      rintro o' x ⟨id, hid, rfl⟩
      rw [Object.MayGet, hids] at hid
      exact ⟨id, hid, by rw [hnow]⟩
    · rw [Partition.extend_insert] at hgains
      exact hgains.cons hfree rfl

theorem createAll_of_unclaimed {app : AppId} {os : List Object}
    (howners : ∀ o ∈ os, o.appid = some app.text) {m : Memory}
    (hm : m.supply.Fresh (m.objects app) (IsGiven os)) (hos : (m.objects app).Unclaimed os) :
    ∃ created, (createAll app os m).1 = ⟨.ok (created.filterMap Object.id), created⟩ ∧
      List.Forall₂ (StoredAsNew m.supply) os created ∧
      (m.objects app).Gains created ((createAll app os m).2.objects app) := by
  have hempty : (m.objects app).extend .empty = m.objects app := rfl
  rw [← hempty] at hm hos
  obtain ⟨result, created, hready, hcreated, hgains⟩ := makeAllReady_of_unclaimed howners hm hos
  refine ⟨created, ?_, hcreated, ?_⟩
  · unfold createAll
    simp [hready]
  · unfold createAll
    simp only [hready, objects_withPartition, if_true]
    exact hgains

end Memory
end ObjectDepot
