/-!
A map from strings to values, kept as a list in strictly increasing key order. Strings compare by
code point, which is also the order of their UTF-8 bytes. A map is determined by its look-ups.
-/

namespace ObjectDepot

/-- Entries in strictly increasing key order. -/
def SortedByKey {α : Type} (entries : List (String × α)) : Prop :=
  entries.Pairwise (fun a b => a.1 < b.1)

structure KeyMap (α : Type) where
  entries : List (String × α)
  sorted : SortedByKey entries

/-- Puts an entry at its place, in the stead of an entry of the same key. -/
def insertEntry {α : Type} (key : String) (value : α) :
    List (String × α) → List (String × α)
  | [] => [(key, value)]
  | e :: rest =>
    if key < e.1 then (key, value) :: e :: rest
    else if key = e.1 then (key, value) :: rest
    else e :: insertEntry key value rest

def lookupEntry {α : Type} (key : String) : List (String × α) → Option α
  | [] => none
  | e :: rest => if key = e.1 then some e.2 else lookupEntry key rest

theorem eq_of_not_lt {a b : String} (hab : ¬ a < b) (hba : ¬ b < a) : a = b :=
  String.le_antisymm (String.not_lt.mp hba) (String.not_lt.mp hab)

theorem mem_insertEntry {α : Type} {key : String} {value : α} {e : String × α} :
    ∀ {entries : List (String × α)}, e ∈ insertEntry key value entries →
      e = (key, value) ∨ e ∈ entries
  | [], h => by simpa [insertEntry] using h
  | x :: rest, h => by
    unfold insertEntry at h
    split at h
    · simpa using h
    · split at h
      · rcases List.mem_cons.mp h with h | h
        · exact .inl h
        · exact .inr (List.mem_cons_of_mem _ h)
      · rcases List.mem_cons.mp h with h | h
        · exact .inr (h ▸ List.mem_cons_self)
        · rcases mem_insertEntry h with h | h
          · exact .inl h
          · exact .inr (List.mem_cons_of_mem _ h)

theorem SortedByKey.insertEntry {α : Type} (key : String) (value : α) :
    ∀ {entries : List (String × α)}, SortedByKey entries →
      SortedByKey (insertEntry key value entries)
  | [], _ => by simp [SortedByKey, ObjectDepot.insertEntry]
  | x :: rest, h => by
    have hx := List.pairwise_cons.mp h
    unfold ObjectDepot.insertEntry
    split
    · rename_i hlt
      refine List.pairwise_cons.mpr ⟨fun e he => ?_, h⟩
      rcases List.mem_cons.mp he with rfl | he
      · exact hlt
      · exact String.lt_trans hlt (hx.1 e he)
    · split
      · rename_i heq
        exact List.pairwise_cons.mpr ⟨fun e he => heq ▸ hx.1 e he, hx.2⟩
      · rename_i hlt hne
        refine List.pairwise_cons.mpr ⟨fun e he => ?_, SortedByKey.insertEntry key value hx.2⟩
        rcases mem_insertEntry he with rfl | he
        · rcases Decidable.em (x.1 < key) with h' | h'
          · exact h'
          · exact absurd (eq_of_not_lt hlt h') hne
        · exact hx.1 e he

namespace KeyMap

variable {α β : Type}

def empty : KeyMap α := ⟨[], List.Pairwise.nil⟩

instance : EmptyCollection (KeyMap α) := ⟨empty⟩

instance : Inhabited (KeyMap α) := ⟨empty⟩

instance [DecidableEq α] : DecidableEq (KeyMap α) := fun a b =>
  if h : a.entries = b.entries then
    .isTrue (by cases a; cases b; cases h; rfl)
  else .isFalse (fun hab => h (by rw [hab]))

def get? (m : KeyMap α) (key : String) : Option α := lookupEntry key m.entries

def contains (m : KeyMap α) (key : String) : Bool := (m.get? key).isSome

def size (m : KeyMap α) : Nat := m.entries.length

def isEmpty (m : KeyMap α) : Bool := m.entries.isEmpty

def keys (m : KeyMap α) : List String := m.entries.map (·.1)

def values (m : KeyMap α) : List α := m.entries.map (·.2)

def insert (m : KeyMap α) (key : String) (value : α) : KeyMap α :=
  ⟨insertEntry key value m.entries, m.sorted.insertEntry key value⟩

def filter (m : KeyMap α) (keep : String → α → Bool) : KeyMap α :=
  ⟨m.entries.filter (fun e => keep e.1 e.2), List.Pairwise.filter _ m.sorted⟩

def erase (m : KeyMap α) (key : String) : KeyMap α := m.filter (fun k _ => k != key)

/-- Changes each value, or drops its entry. -/
def filterMap (m : KeyMap α) (f : String → α → Option β) : KeyMap β :=
  ⟨m.entries.filterMap (fun e => (f e.1 e.2).map (e.1, ·)),
    m.sorted.filterMap _ (by
      intro a b hab x hx y hy
      obtain ⟨u, -, rfl⟩ := Option.map_eq_some_iff.mp hx
      obtain ⟨v, -, rfl⟩ := Option.map_eq_some_iff.mp hy
      exact hab)⟩

def map (m : KeyMap α) (f : α → β) : KeyMap β := m.filterMap (fun _ v => some (f v))

/-- All entries of both maps; where both have a key, the second map's. -/
def extend (m n : KeyMap α) : KeyMap α :=
  n.entries.foldl (fun acc e => acc.insert e.1 e.2) m

/-- Of repeated keys the last one counts. -/
def ofList (entries : List (String × α)) : KeyMap α :=
  entries.foldl (fun acc e => acc.insert e.1 e.2) empty

/-- Moves the value of one key to another, over a value that stands there. -/
def rename (m : KeyMap α) (source target : String) : KeyMap α :=
  if source = target then m
  else
    match m.get? source with
    | some value => (m.erase source).insert target value
    | none => m

end KeyMap

end ObjectDepot
