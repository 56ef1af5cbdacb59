import ObjectDepot.Proofs.Discovery
import ObjectDepot.Proofs.RecordedTypes

/-! The core types, plural by plural. A shape keeps its plural whatever else is named; any other
plural goes to the first proper name that has it. They are found once, at the first call that needs
them, and no later call changes them. -/

namespace ObjectDepot

namespace Registry

theorem get?_addCore (types : TypeMap) (plural singular p : String) :
    (addCore types plural singular).get? p =
      (types.get? p).or (if plural = p then some singular else none) := by
  unfold addCore
  by_cases hp : plural = p
  · subst hp
    cases h : types.get? plural <;> simp [KeyMap.contains, h]
  · rw [if_neg hp, Option.or_none]
    split
    · rfl
    · exact KeyMap.get?_insert_of_ne _ _ (Ne.symm hp)

theorem get?_foldl_addCore {α : Type} (plural singular : α → String) (items : List α)
    (types : TypeMap) (p : String) :
    (items.foldl (fun types a => addCore types (plural a) (singular a)) types).get? p =
      (types.get? p).or ((items.find? (fun a => plural a = p)).map singular) := by
  induction items generalizing types with
  | nil => simp
  | cons a items ih =>
    have hh := ih (addCore types (plural a) (singular a))
    rw [List.foldl_cons, hh, get?_addCore, Option.or_assoc, List.find?_cons]
    by_cases hp : plural a = p <;> simp [hp]

theorem get?_shapeTypes_plural (s : Shape) : shapeTypes.get? s.plural = some s.singular := by
  rw [shapeTypes, get?_foldl_addCore]
  cases s <;> rfl

theorem get?_shapeTypes_eq_some_iff {p singular : String} :
    shapeTypes.get? p = some singular ↔ ∃ s : Shape, s.plural = p ∧ s.singular = singular := by
  constructor
  · intro h
    rw [shapeTypes, get?_foldl_addCore, KeyMap.get?_empty, Option.none_or,
      Option.map_eq_some_iff] at h
    obtain ⟨s, hfound, hsingular⟩ := h
    exact ⟨s, by simpa using List.find?_some hfound, hsingular⟩
  · rintro ⟨s, rfl, rfl⟩
    exact get?_shapeTypes_plural s

theorem get?_shapeTypes_eq_none_iff {p : String} :
    shapeTypes.get? p = none ↔ ∀ s : Shape, s.plural ≠ p := by
  constructor
  · rintro h s rfl
    rw [get?_shapeTypes_plural s] at h
    cases h
  · intro h
    rw [Option.eq_none_iff_forall_ne_some]
    intro singular hget
    obtain ⟨s, hs, -⟩ := get?_shapeTypes_eq_some_iff.mp hget
    exact h s hs

/-- The first proper name that has a plural, blanks around it aside. -/
def firstWithPlural (extra : List String) (p : String) : Option String :=
  (extra.map Text.trim).find? (fun s => TypeName.isValid s && TypeName.pluralize s = p)

theorem get?_findCore (extra : List String) (p : String) :
    (findCore extra).get? p = (shapeTypes.get? p).or (firstWithPlural extra p) := by
  have hfold := get?_foldl_addCore TypeName.pluralize id
    ((extra.map Text.trim).filter TypeName.isValid) shapeTypes p
  rw [Option.map_id, id, List.find?_filter] at hfold
  exact hfold.trans (by simp only [firstWithPlural, Bool.decide_and, Bool.decide_eq_true])

theorem get?_findCore_eq_some_iff {extra : List String} {p singular : String} :
    (findCore extra).get? p = some singular ↔
      (∃ s : Shape, s.plural = p ∧ s.singular = singular) ∨
        (∀ s : Shape, s.plural ≠ p) ∧ firstWithPlural extra p = some singular := by
  rw [get?_findCore, Option.or_eq_some_iff, get?_shapeTypes_eq_some_iff,
    get?_shapeTypes_eq_none_iff]

theorem contains_findCore_of_mem {extra : List String} {name : String} (hname : name ∈ extra)
    (hvalid : TypeName.isValid (Text.trim name)) :
    (findCore extra).contains (TypeName.pluralize (Text.trim name)) := by
  rw [KeyMap.contains, get?_findCore, Option.isSome_or, Bool.or_eq_true]
  refine .inr (List.find?_isSome.mpr ⟨_, List.mem_map_of_mem hname, ?_⟩)
  simp [hvalid]

/-- A registry that has found the core types. -/
def found (extra : List String) : Registry :=
  { extra := extra, core := some (findCore extra), discoveries := 1 }

/-- A registry has yet to find the core types, or it has found them once. -/
def Settled (extra : List String) (r : Registry) : Prop := r = ofExtra extra ∨ r = found extra

theorem Settled.coreTypes_eq {extra : List String} {r : Registry} (h : r.Settled extra) :
    r.coreTypes = (findCore extra, found extra) := by
  obtain rfl | rfl := h <;> rfl

theorem Settled.discoveries_le {extra : List String} {r : Registry} (h : r.Settled extra) :
    r.discoveries ≤ 1 := by
  obtain rfl | rfl := h
  · exact Nat.zero_le 1
  · exact Nat.le_refl 1

theorem Settled.allTypes_eq {extra : List String} {r : Registry} (h : r.Settled extra) (app : App) :
    (allTypes app r).1 = (findCore extra).extend app.types := by
  have hcore : (allTypes app r).1 = r.coreTypes.1.extend app.types := rfl
  rw [hcore, h.coreTypes_eq]

end Registry

/-- A call of the registry. A registration may come from any service, at any state of its store. -/
inductive RegistryCall (σ : Type) where
  | coreTypes
  | allTypes (app : App)
  | isKnown (app : App) (o : Object)
  | newTypes (app : App) (os : List Object)
  | register (svc : Service σ) (s : ServiceState σ) (app : Option App) (os : List Object)

namespace RegistryCall

variable {σ : Type}

/-- The registry that a call leaves. -/
def leave (r : Registry) : RegistryCall σ → Registry
  | coreTypes => r.coreTypes.2
  | allTypes app => (Registry.allTypes app r).2
  | isKnown app o => (Registry.isKnown app o r).2
  | newTypes app os => (Registry.newTypes app os r).2
  | register svc s app os => (svc.registerTypes app os { s with registry := r }).2.registry

/-- A call finds the core types or leaves the registry alone. -/
theorem leave_eq (r : Registry) (c : RegistryCall σ) :
    c.leave r = r ∨ c.leave r = r.coreTypes.2 := by
  have hnew (app : App) (os : List Object) :
      (Registry.newTypes app os r).2 = r ∨ (Registry.newTypes app os r).2 = r.coreTypes.2 := by
    rw [Registry.newTypes_eq]
    dsimp only
    split
    · exact .inl rfl
    · exact .inr rfl
  cases c with
  | coreTypes => exact .inr rfl
  | allTypes app => exact .inr rfl
  | isKnown app o => exact .inr rfl
  | newTypes app os => exact hnew app os
  | register svc s app os =>
    cases app with
    | none => exact .inl rfl
    | some app =>
      rw [leave, Service.registry_registerTypes, Registry.searched]
      split
      · exact .inl rfl
      · exact hnew app os

theorem settled_leave {extra : List String} {r : Registry} (h : r.Settled extra)
    (c : RegistryCall σ) : (c.leave r).Settled extra := by
  obtain hsame | hfound := leave_eq r c
  · rwa [hsame]
  · rw [hfound, h.coreTypes_eq]
    exact .inr rfl

theorem settled_foldl {extra : List String} {r : Registry} (h : r.Settled extra)
    (calls : List (RegistryCall σ)) : (calls.foldl leave r).Settled extra := by
  induction calls generalizing r with
  | nil => exact h
  | cons c calls ih => exact ih (settled_leave h c)

end RegistryCall

theorem Config.isValid_of_faults_nil {config : Config} (h : config.faults = []) {name : String}
    (hname : name ∈ config.extraCoreTypes) : TypeName.isValid (Text.trim name) := by
  have hnames := (List.append_eq_nil_iff.mp h).2
  rw [List.flatMap_eq_nil_iff] at hnames
  have hfault := hnames name hname
  cases hvalid : TypeName.isValid (Text.trim name) with
  | true => rfl
  | false => simp [hvalid] at hfault

namespace Registry

/-- The core types for any list of extra names, after any calls of the registry: what stands at each
plural, that they stay as they are and are searched for once at most, and what an app sees of them.
Of a list that a configuration without faults names, no name is left out. -/
theorem coreTypes_by_plural {σ : Type} (extra : List String) (calls : List (RegistryCall σ)) :
    let core := findCore extra
    let r := calls.foldl RegistryCall.leave (ofExtra extra)
    r.coreTypes.1 = core ∧ r.discoveries ≤ 1 ∧ r.coreTypes.2.discoveries = 1 ∧
      (∀ s : Shape, core.get? s.plural = some s.singular) ∧
      (∀ p singular, core.get? p = some singular ↔
        (∃ s : Shape, s.plural = p ∧ s.singular = singular) ∨
          (∀ s : Shape, s.plural ≠ p) ∧ firstWithPlural extra p = some singular) ∧
      (∀ p singular, core.get? p = some singular → p = TypeName.pluralize singular) ∧
      (∀ (app : App) p, core.contains p → ((allTypes app r).1).contains p) ∧
      (∀ (app : App) p singular, app.types.get? p = some singular →
        ((allTypes app r).1).get? p = some singular) ∧
      (∀ config : Config, config.faults = [] → config.extraCoreTypes = extra → ∀ name ∈ extra,
        TypeName.isValid (Text.trim name) ∧
          core.contains (TypeName.pluralize (Text.trim name))) := by
  intro core r
  have hr : r.Settled extra := RegistryCall.settled_foldl (.inl rfl) calls
  refine ⟨by rw [hr.coreTypes_eq], hr.discoveries_le, by rw [hr.coreTypes_eq]; rfl, fun s => ?_,
    fun p singular => get?_findCore_eq_some_iff,
    fun p singular h => (isDerived_findCore extra p singular h).symm, fun app p h => ?_,
    fun app p singular h => ?_, ?_⟩
  · exact get?_findCore_eq_some_iff.mpr (.inl ⟨s, rfl, rfl⟩)
  · rw [hr.allTypes_eq, KeyMap.contains, KeyMap.get?_extend, Option.isSome_or, Bool.or_eq_true]
    exact .inr h
  · rw [hr.allTypes_eq, KeyMap.get?_extend, h, Option.some_or]
  · rintro config hconfig rfl name hname
    have hvalid := Config.isValid_of_faults_nil hconfig hname
    exact ⟨hvalid, contains_findCore_of_mem hname hvalid⟩

/-- Of two names with one plural the first stands, and a shape stands before both. An app that has a
type of its own by a plural of the core sees its own. -/
theorem coreTypes_boxes :
    let extra := [" box ", "boxe", "user"]
    let config : Config := { extraCoreTypes := extra }
    let app : App :=
      { App.root ⟨"root"⟩ with settings := { datatypes := KeyMap.ofList [("users", "member")] } }
    let r := [RegistryCall.isKnown app (.ofType "box")].foldl
      (RegistryCall.leave (σ := Memory)) (ofExtra extra)
    config.faults = [] ∧ (findCore extra).get? "boxes" = some "box" ∧
      (findCore extra).contains (TypeName.pluralize (Text.trim "boxe")) ∧
      (allTypes app r).1.contains "tags" ∧ (allTypes app r).1.get? "users" = some "member" := by
  intro extra config app r
  obtain ⟨-, -, -, hshape, hget, -, hcontains, happ, hnames⟩ :=
    coreTypes_by_plural extra [RegistryCall.isKnown (σ := Memory) app (.ofType "box")]
  have hconfig : config.faults = [] := by decide +kernel
  have htag : (findCore extra).get? "tags" = some "tag" := hshape .tag
  have htags : (findCore extra).contains "tags" := by
    rw [KeyMap.contains, htag]
    rfl
  have hboxes : (∀ s : Shape, s.plural ≠ "boxes") ∧ firstWithPlural extra "boxes" = some "box" := by
    refine ⟨fun s => ?_, by decide +kernel⟩
    cases s <;> decide
  exact ⟨hconfig, (hget "boxes" "box").mpr (.inr hboxes),
    (hnames config hconfig rfl "boxe" (by decide)).2, hcontains app "tags" htags,
    happ app "users" "member" (by decide +kernel)⟩

end Registry

end ObjectDepot
