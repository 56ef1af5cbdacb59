import ObjectDepot.KeyMap

/-!
Each operation on a key map, said through its look-ups, and extensionality: two maps with the same
look-ups are the same map.
-/

namespace ObjectDepot.KeyMap

variable {α β : Type}

theorem lookup_insertEntry (key k : String) (value : α) :
    ∀ entries : List (String × α),
      lookupEntry k (insertEntry key value entries) =
        if k = key then some value else lookupEntry k entries
  | [] => rfl
  | x :: rest => by
    unfold insertEntry
    split
    · rfl
    · split
      · rename_i heq
        subst heq
        simp only [lookupEntry]
        split <;> rfl
      · rename_i hne
        simp only [lookupEntry, lookup_insertEntry key k value rest]
        by_cases hx : k = x.1
        · simp [hx, Ne.symm hne]
        · simp [hx]

@[simp] theorem get?_empty (k : String) : (empty : KeyMap α).get? k = none := rfl

theorem get?_insert (m : KeyMap α) (key k : String) (value : α) :
    (m.insert key value).get? k = if k = key then some value else m.get? k :=
  lookup_insertEntry key k value m.entries

@[simp] theorem get?_insert_self (m : KeyMap α) (key : String) (value : α) :
    (m.insert key value).get? key = some value := by simp [get?_insert]

theorem get?_insert_of_ne (m : KeyMap α) {key k : String} (value : α) (h : k ≠ key) :
    (m.insert key value).get? k = m.get? k := by simp [get?_insert, h]

theorem lookup_eq_some_of_mem {entries : List (String × α)} (hs : SortedByKey entries)
    {e : String × α} (he : e ∈ entries) : lookupEntry e.1 entries = some e.2 := by
  induction entries with
  | nil => cases he
  | cons x rest ih =>
    have hx := List.pairwise_cons.mp hs
    rcases List.mem_cons.mp he with rfl | he
    · simp [lookupEntry]
    · have hne : e.1 ≠ x.1 := fun h => String.lt_irrefl _ (h ▸ hx.1 e he)
      simp [lookupEntry, hne, ih hx.2 he]

theorem mem_of_lookup_eq_some {entries : List (String × α)} {k : String} {v : α}
    (h : lookupEntry k entries = some v) : (k, v) ∈ entries := by
  induction entries with
  | nil => cases h
  | cons x rest ih =>
    by_cases hk : k = x.1
    · simp only [lookupEntry, hk, if_true, Option.some.injEq] at h
      simp [← h, hk]
    · simp only [lookupEntry, hk, if_false] at h
      exact List.mem_cons_of_mem _ (ih h)

theorem get?_eq_some_iff {m : KeyMap α} {k : String} {v : α} :
    m.get? k = some v ↔ (k, v) ∈ m.entries :=
  ⟨mem_of_lookup_eq_some, fun h => lookup_eq_some_of_mem m.sorted h⟩

theorem ext_entries {m n : KeyMap α} (h : m.entries = n.entries) : m = n := by
  cases m; cases n; cases h; rfl

theorem eq_of_sorted_of_mem_iff : ∀ {a b : List (String × α)}, SortedByKey a → SortedByKey b →
    (∀ e, e ∈ a ↔ e ∈ b) → a = b
  | [], [], _, _, _ => rfl
  | [], y :: _, _, _, h => absurd ((h y).mpr List.mem_cons_self) (by simp)
  | x :: _, [], _, _, h => absurd ((h x).mp List.mem_cons_self) (by simp)
  | x :: a, y :: b, ha, hb, h => by
    have hxa := List.pairwise_cons.mp ha
    have hyb := List.pairwise_cons.mp hb
    have hxy : x = y := by
      rcases List.mem_cons.mp ((h x).mp List.mem_cons_self) with e | hx
      · exact e
      · rcases List.mem_cons.mp ((h y).mpr List.mem_cons_self) with e | hy
        · exact e.symm
        · exact absurd (hyb.1 x hx) (String.lt_asymm (hxa.1 y hy))
    subst hxy
    congr 1
    refine eq_of_sorted_of_mem_iff hxa.2 hyb.2 (fun e => ⟨fun he => ?_, fun he => ?_⟩)
    · rcases List.mem_cons.mp ((h e).mp (List.mem_cons_of_mem _ he)) with rfl | he'
      · exact absurd (hxa.1 e he) (String.lt_irrefl _)
      · exact he'
    · rcases List.mem_cons.mp ((h e).mpr (List.mem_cons_of_mem _ he)) with rfl | he'
      · exact absurd (hyb.1 e he) (String.lt_irrefl _)
      · exact he'

@[ext] theorem ext {m n : KeyMap α} (h : ∀ k, m.get? k = n.get? k) : m = n :=
  ext_entries (eq_of_sorted_of_mem_iff m.sorted n.sorted (fun e => by
    rw [← get?_eq_some_iff, ← get?_eq_some_iff, h]))

theorem insert_insert (m : KeyMap α) (key : String) (value value' : α) :
    (m.insert key value).insert key value' = m.insert key value' := by
  refine ext (fun k => ?_)
  rw [get?_insert, get?_insert, get?_insert]
  by_cases h : k = key <;> simp [h]

theorem insert_of_get? {m : KeyMap α} {key : String} {value : α} (h : m.get? key = some value) :
    m.insert key value = m := by
  refine ext (fun k => ?_)
  rw [get?_insert]
  split
  · rename_i hk
    rw [hk, h]
  · rfl

theorem get?_filter (m : KeyMap α) (keep : String → α → Bool) (k : String) :
    (m.filter keep).get? k = (m.get? k).filter (keep k) := by
  refine Option.ext (fun v => ?_)
  rw [Option.filter_eq_some_iff, get?_eq_some_iff, get?_eq_some_iff]
  simp [filter]

theorem get?_filter_eq_some_iff {m : KeyMap α} {keep : String → α → Bool} {k : String} {v : α} :
    (m.filter keep).get? k = some v ↔ m.get? k = some v ∧ keep k v = true := by
  rw [get?_filter, Option.filter_eq_some_iff]

theorem get?_of_get?_filter {m : KeyMap α} {keep : String → α → Bool} {k : String} {v : α}
    (h : (m.filter keep).get? k = some v) : m.get? k = some v :=
  (get?_filter_eq_some_iff.mp h).1

theorem get?_filter_keys (m : KeyMap α) (keep : String → Bool) (k : String) :
    (m.filter (fun key _ => keep key)).get? k = if keep k then m.get? k else none := by
  rw [get?_filter]
  cases m.get? k <;> cases keep k <;> rfl

theorem get?_erase (m : KeyMap α) (key k : String) :
    (m.erase key).get? k = if k = key then none else m.get? k := by
  rw [erase, get?_filter_keys]
  by_cases h : k = key <;> simp [h]

theorem get?_filterMap (m : KeyMap α) (f : String → α → Option β) (k : String) :
    (m.filterMap f).get? k = (m.get? k).bind (f k) := by
  refine Option.ext (fun v => ?_)
  rw [Option.bind_eq_some_iff, get?_eq_some_iff]
  constructor
  · intro h
    obtain ⟨e, he, hf⟩ := List.mem_filterMap.mp h
    obtain ⟨u, hu, huv⟩ := Option.map_eq_some_iff.mp hf
    cases huv
    exact ⟨e.2, get?_eq_some_iff.mpr he, hu⟩
  · rintro ⟨u, hu, hf⟩
    exact List.mem_filterMap.mpr ⟨(k, u), get?_eq_some_iff.mp hu, by simp [hf]⟩

theorem get?_map (m : KeyMap α) (f : α → β) (k : String) :
    (m.map f).get? k = (m.get? k).map f := by
  rw [map, get?_filterMap]
  cases m.get? k <;> rfl

theorem get?_foldl_insert (k : String) : ∀ (entries : List (String × α)) (m : KeyMap α),
    SortedByKey entries →
      (entries.foldl (fun acc e => acc.insert e.1 e.2) m).get? k =
        (lookupEntry k entries).or (m.get? k)
  | [], m, _ => by simp [lookupEntry]
  | x :: rest, m, h => by
    have hx := List.pairwise_cons.mp h
    rw [List.foldl_cons, get?_foldl_insert k rest _ hx.2, get?_insert]
    by_cases hk : k = x.1
    · have hr : lookupEntry k rest = none := by
        cases hl : lookupEntry k rest with
        | none => rfl
        | some v => exact absurd (hk ▸ hx.1 _ (mem_of_lookup_eq_some hl)) (String.lt_irrefl _)
      simp [lookupEntry, hk, hk ▸ hr]
    · simp [lookupEntry, hk]

theorem get?_extend (m n : KeyMap α) (k : String) :
    (m.extend n).get? k = (n.get? k).or (m.get? k) :=
  get?_foldl_insert k n.entries m n.sorted

theorem ofList_entries (m : KeyMap α) : ofList m.entries = m :=
  ext (fun k => by
    rw [ofList, get?_foldl_insert k m.entries empty m.sorted]
    simp [get?, empty, lookupEntry])

theorem get?_foldr_insert (k : String) (m : KeyMap α) : ∀ entries : List (String × α),
    (entries.foldr (fun e acc => acc.insert e.1 e.2) m).get? k =
      (lookupEntry k entries).or (m.get? k)
  | [] => by simp [lookupEntry]
  | x :: rest => by
    rw [List.foldr_cons, get?_insert, get?_foldr_insert k m rest]
    by_cases hk : k = x.1 <;> simp [lookupEntry, hk]

theorem get?_ofList (entries : List (String × α)) (k : String) :
    (ofList entries).get? k = lookupEntry k entries.reverse := by
  rw [ofList, List.foldl_eq_foldr_reverse, get?_foldr_insert, get?_empty, Option.or_none]

theorem mem_of_get?_ofList {entries : List (String × α)} {k : String} {v : α}
    (h : (ofList entries).get? k = some v) : (k, v) ∈ entries := by
  rw [get?_ofList] at h
  exact List.mem_reverse.mp (mem_of_lookup_eq_some h)

theorem isSome_lookupEntry_iff {k : String} {entries : List (String × α)} :
    (lookupEntry k entries).isSome ↔ ∃ v, (k, v) ∈ entries := by
  induction entries with
  | nil => simp [lookupEntry]
  | cons e entries ih =>
    rw [lookupEntry]
    by_cases hk : k = e.1
    · rw [if_pos hk]
      exact iff_of_true rfl ⟨e.2, hk ▸ List.mem_cons_self⟩
    · rw [if_neg hk, ih]
      have hne (v : α) : (k, v) ≠ e := fun h => hk (congrArg Prod.fst h)
      simp [hne]

theorem mem_keys_iff {m : KeyMap α} {k : String} : k ∈ m.keys ↔ m.contains k := by
  simp [keys, contains, get?, isSome_lookupEntry_iff]

theorem contains_ofList_iff {k : String} {entries : List (String × α)} :
    (ofList entries).contains k ↔ ∃ v, (k, v) ∈ entries := by
  rw [contains, get?_ofList, isSome_lookupEntry_iff]
  simp

theorem eq_nil_of_ofList {entries : List (String × α)} (h : (ofList entries).isEmpty) :
    entries = [] := by
  cases entries with
  | nil => rfl
  | cons e entries =>
    have hnone : (ofList (e :: entries)).get? e.1 = none := by
      rw [ext_entries (n := empty) (List.isEmpty_iff.mp h), get?_empty]
    have hsome : (ofList (e :: entries)).contains e.1 :=
      contains_ofList_iff.mpr ⟨e.2, List.mem_cons_self⟩
    rw [contains, hnone] at hsome
    cases hsome

theorem length_insertEntry {key : String} {entries : List (String × α)}
    (h : lookupEntry key entries = none) (value : α) :
    (insertEntry key value entries).length = entries.length + 1 := by
  induction entries with
  | nil => rfl
  | cons x rest ih =>
    unfold insertEntry
    split
    · rfl
    · split
      · rename_i hk
        simp [lookupEntry, hk] at h
      · rename_i hk
        simp only [lookupEntry, hk, if_false] at h
        simp [ih h]

theorem size_insert {m : KeyMap α} {key : String} (h : m.get? key = none) (value : α) :
    (m.insert key value).size = m.size + 1 :=
  length_insertEntry h value

theorem get?_rename (m : KeyMap α) (source target k : String) :
    (m.rename source target).get? k =
      if source = target ∨ m.get? source = none then m.get? k
      else if k = target then m.get? source
      else if k = source then none
      else m.get? k := by
  unfold rename
  by_cases hst : source = target
  · simp [hst]
  · cases hv : m.get? source with
    | none => simp [hst]
    | some v => simp [hst, get?_insert, get?_erase]

theorem rename_self (m : KeyMap α) (key : String) : m.rename key key = m := by
  simp [rename]

theorem rename_of_missing {m : KeyMap α} {source : String} (h : m.get? source = none)
    (target : String) : m.rename source target = m := by
  simp [rename, h]

theorem get?_rename_source {m : KeyMap α} {source target : String} (h : source ≠ target) :
    (m.rename source target).get? source = none := by
  rw [get?_rename]
  by_cases hv : m.get? source = none <;> simp [h, hv]

theorem get?_rename_of_ne {m : KeyMap α} {source target k : String} (hsource : k ≠ source)
    (htarget : k ≠ target) : (m.rename source target).get? k = m.get? k := by
  rw [get?_rename]
  simp [hsource, htarget]

/-- A value that is moved to a free key comes back. -/
theorem rename_back {m : KeyMap α} {source target : String} (h : m.get? target = none) :
    (m.rename source target).rename target source = m := by
  refine ext (fun k => ?_)
  simp only [get?_rename]
  by_cases hst : source = target
  · simp [hst]
  · by_cases hks : k = source <;> by_cases hkt : k = target <;>
      by_cases hs : m.get? source = none <;> simp_all

theorem rename_comm (m : KeyMap α) {a b c d : String} (hac : a ≠ c) (had : a ≠ d) (hbc : b ≠ c)
    (hbd : b ≠ d) : (m.rename a b).rename c d = (m.rename c d).rename a b := by
  have hc : (m.rename a b).get? c = m.get? c := get?_rename_of_ne hac.symm hbc.symm
  have ha : (m.rename c d).get? a = m.get? a := get?_rename_of_ne hac had
  refine ext (fun k => ?_)
  rw [get?_rename, get?_rename (m.rename c d), hc, ha]
  by_cases hk : k = a ∨ k = b
  · have hkc : k ≠ c := by rcases hk with rfl | rfl <;> assumption
    have hkd : k ≠ d := by rcases hk with rfl | rfl <;> assumption
    simp [hkc, hkd, get?_rename]
  · simp only [not_or] at hk
    simp [hk, get?_rename]

theorem erase_rename (m : KeyMap α) {a b key : String} (ha : key ≠ a) (hb : key ≠ b) :
    (m.rename a b).erase key = (m.erase key).rename a b := by
  refine ext (fun k => ?_)
  simp only [get?_rename, get?_erase, ha.symm, if_false]
  by_cases hk : k = key
  · simp [hk, ha, hb]
  · simp [hk]

end ObjectDepot.KeyMap
