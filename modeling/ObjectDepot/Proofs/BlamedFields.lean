import ObjectDepot.Proofs.SameRequests

/-! Which fields can be laid over an object, and which one is blamed if they cannot. Fields of the
envelope are read before the others, and both in the order of their keys. The first one whose value
is not of its kind gives the message, and it is also the one that is blamed, although the blame is
found by reading each field once more by itself. Whoever is blamed, the object stays as it is. -/

namespace ObjectDepot

/-- What a field of a kind can hold, null aside. -/
def FieldKind.Holds : FieldKind → Json → Prop
  | .text, v | .properText, v => ∃ text, v = .str text
  | .flag, v => ∃ b, v = .bool b
  | .integer, v => ∃ n, IsInt64 n ∧ v = .int n
  | .texts, v => ∃ texts, v = .ofStrings texts
  | .textMap, v => ∃ members, v = .obj members ∧ ∀ m ∈ members, ∃ text, m.2 = .str text

theorem exists_mapM_iff {ε α β : Type} {f : α → Except ε β} {l : List α} :
    (∃ r, l.mapM f = .ok r) ↔ ∀ a ∈ l, ∃ b, f a = .ok b := by
  induction l with
  | nil => simp [pure, Except.pure]
  | cons a l ih =>
    rw [List.mapM_cons, List.forall_mem_cons, ← ih]
    cases f a with
    | error e => simp [bind, Except.bind]
    | ok b => cases l.mapM f <;> simp [bind, Except.bind, pure, Except.pure]

theorem FieldKind.exists_read_iff {kind : FieldKind} {v : Json} (hnull : v.isNull = false) :
    (∃ kept, kind.read v = .ok kept) ↔ kind.Holds v := by
  cases kind with
  | text => cases v <;> simp_all [read, Holds, Json.asText, Except.map, Json.isNull]
  | properText => cases v <;> simp_all [read, Holds, Json.asText, Except.map, Json.isNull]
  | flag => cases v <;> simp_all [read, Holds, Json.asFlag, Except.map, Json.isNull]
  | integer =>
    cases v with
    | null => cases hnull
    | int n =>
      simp only [read, Holds, Json.asInteger, Json.asIntegerIn, IsInt64, Json.int.injEq]
      split <;> simp_all [Except.map]
    | _ => simp [read, Holds, Json.asInteger, Json.asIntegerIn, Except.map]
  | texts =>
    rw [read, exists_map_iff]
    cases v with
    | arr items => simp [Holds, Json.asTexts, mapM_asText_eq_ok_iff, Json.ofStrings]
    | _ => simp [Holds, Json.asTexts, Json.ofStrings]
  | textMap =>
    rw [read, exists_map_iff]
    cases v with
    | obj members =>
      have hmember (m : String × Json) :
          (∃ e, (Json.asText m.2).map (m.1, ·) = .ok e) ↔ ∃ text, m.2 = .str text := by
        rw [exists_map_iff]
        cases m.2 <;> simp [Json.asText]
      have hread : (∃ texts, (Json.obj members).asTextMap = .ok texts) ↔
          ∃ entries, members.mapM (fun m => (Json.asText m.2).map (m.1, ·)) = .ok entries := by
        rw [Json.asTextMap]
        cases members.mapM (fun m => (Json.asText m.2).map (m.1, ·)) <;>
          simp [bind, Except.bind, pure, Except.pure]
      simp [hread, exists_mapM_iff, hmember, Holds]
    | _ => simp [Holds, Json.asTextMap]

/-! ### Reading fields in turn -/

/-- Reads one more field into what has been read. -/
def readEntry (specs : List FieldSpec) (read : FieldMap) (e : String × Json) :
    Except String FieldMap :=
  match specOf? specs e.1 with
  | none => .ok read
  | some f => (f.kind.read e.2).map (fun kept => kept.elim read (read.insert e.1))

/-- Reads fields one after the other and stops at the first one that does not fit. -/
def readInTurn (specs : List FieldSpec) (fields : FieldMap) : Except String FieldMap :=
  fields.entries.foldlM (readEntry specs) .empty

/-- Reads fields in turn. If one does not fit, a field is blamed that cannot be read by itself. -/
def readBlaming (specs : List FieldSpec) (fields : FieldMap) : Except FieldFault FieldMap :=
  match readInTurn specs fields with
  | .ok read => .ok read
  | .error message =>
    let blamed := fields.entries.find? (fun e => !(readInTurn specs (.ofList [e])).isOk)
    .error ⟨(blamed.map Prod.fst).getD "body", message⟩

section Reading

variable {specs : List FieldSpec} {fields : FieldMap}

theorem readEntry_eq (specs : List FieldSpec) (read : FieldMap) (e : String × Json) :
    readEntry specs read e =
      match misfit? specs e.1 e.2 with
      | some fault => .error fault.message
      | none => .ok ((kept? specs e.1 e.2).elim read (read.insert e.1)) := by
  unfold readEntry misfit? kept?
  cases specOf? specs e.1 with
  | none => rfl
  | some f =>
    dsimp only
    cases f.kind.read e.2 <;> rfl

theorem foldlM_readEntry (specs : List FieldSpec) (entries : List (String × Json))
    (read : FieldMap) :
    entries.foldlM (readEntry specs) read =
      match entries.findSome? (fun e => misfit? specs e.1 e.2) with
      | some fault => .error fault.message
      | none => .ok (entries.foldl
          (fun read e => (kept? specs e.1 e.2).elim read (read.insert e.1)) read) := by
  induction entries generalizing read with
  | nil => rfl
  | cons e entries ih =>
    rw [List.foldlM_cons, readEntry_eq, List.findSome?_cons, List.foldl_cons]
    cases misfit? specs e.1 e.2 with
    | some fault => rfl
    | none => exact ih _

theorem foldl_kept (specs : List FieldSpec) (fields : FieldMap) :
    fields.entries.foldl (fun read e => (kept? specs e.1 e.2).elim read (read.insert e.1)) .empty =
      fields.filterMap (kept? specs) := by
  rw [← KeyMap.ofList_entries (fields.filterMap (kept? specs)), KeyMap.ofList, KeyMap.filterMap,
    List.foldl_filterMap]
  congr 1
  funext read e
  cases kept? specs e.1 e.2 <;> rfl

theorem readInTurn_eq (specs : List FieldSpec) (fields : FieldMap) :
    readInTurn specs fields = (readFields specs fields).mapError FieldFault.message := by
  rw [readInTurn, foldlM_readEntry, foldl_kept, readFields]
  cases fields.entries.findSome? (fun e => misfit? specs e.1 e.2) <;> rfl

theorem isOk_readInTurn_single (specs : List FieldSpec) (e : String × Json) :
    (readInTurn specs (.ofList [e])).isOk = (misfit? specs e.1 e.2).isNone := by
  have hentries : (KeyMap.ofList [e]).entries = [e] := rfl
  rw [readInTurn, hentries, foldlM_readEntry, List.findSome?_singleton]
  cases misfit? specs e.1 e.2 <;> rfl

theorem field_of_misfit? {k : String} {v : Json} {fault : FieldFault}
    (h : misfit? specs k v = some fault) : fault.field = k := by
  unfold misfit? at h
  split at h
  · cases h
  · split at h <;> cases h
    rfl

theorem readFields_eq_error {fault : FieldFault} (h : readFields specs fields = .error fault) :
    ∃ before e after, fields.entries = before ++ e :: after ∧
      misfit? specs e.1 e.2 = some fault ∧ ∀ x ∈ before, misfit? specs x.1 x.2 = none := by
  unfold readFields at h
  split at h
  · rename_i fault' hfound
    obtain rfl := Except.error.inj h
    exact List.findSome?_eq_some_iff.mp hfound
  · cases h

/-- The field that cannot be read by itself is the one that gave the message. -/
theorem readBlaming_eq (specs : List FieldSpec) (fields : FieldMap) :
    readBlaming specs fields = readFields specs fields := by
  unfold readBlaming
  rw [readInTurn_eq]
  cases hread : readFields specs fields with
  | ok read => rfl
  | error fault =>
    obtain ⟨before, e, after, hentries, he, hbefore⟩ := readFields_eq_error hread
    have hblamed : fields.entries.find? (fun e => !(readInTurn specs (.ofList [e])).isOk) =
        some e := by
      simp only [isOk_readInTurn_single]
      refine List.find?_eq_some_iff_append.mpr ⟨by simp [he], before, after, hentries, ?_⟩
      intro x hx
      simp [hbefore x hx]
    simp only [mapError_error, hblamed, Option.map_some, Option.getD_some, ← field_of_misfit? he]

end Reading

/-! ### The first misfit -/

/-- What is wrong with the first field, in the order of the keys, with which anything is. -/
structure FirstMisfit (misfit? : String → Json → Option FieldFault) (fields : FieldMap)
    (fault : FieldFault) : Prop where
  value : ∃ v, fields.get? fault.field = some v ∧ misfit? fault.field v = some fault
  first : ∀ k v, fields.get? k = some v → k < fault.field → misfit? k v = none

/-- The values that are not null. -/
def FieldMap.present (fields : FieldMap) : FieldMap := fields.filter (fun _ v => !v.isNull)

theorem FieldMap.get?_present {fields : FieldMap} {k : String} {v : Json} :
    (present fields).get? k = some v ↔ fields.get? k = some v ∧ v.isNull = false := by
  rw [present, KeyMap.get?_filter_eq_some_iff, Bool.not_eq_true']

theorem firstMisfit_of_readFields {specs : List FieldSpec} {fields : FieldMap} {fault : FieldFault}
    (h : readFields specs fields = .error fault) : FirstMisfit (misfit? specs) fields fault := by
  obtain ⟨before, e, after, hentries, he, hbefore⟩ := readFields_eq_error h
  have hfield := field_of_misfit? he
  refine ⟨⟨e.2, ?_, by rw [hfield, he]⟩, fun k v hv hlt => ?_⟩
  · rw [hfield, KeyMap.get?_eq_some_iff, hentries]
    simp
  · have hmem := KeyMap.get?_eq_some_iff.mp hv
    have hsorted : SortedByKey (before ++ e :: after) := hentries ▸ fields.sorted
    rw [hentries, List.mem_append] at hmem
    rcases hmem with hmem | hmem
    · exact hbefore (k, v) hmem
    · -- What stands behind the fault has no smaller key.
      have hrest := List.pairwise_cons.mp (List.pairwise_append.mp hsorted).2.1
      rw [hfield] at hlt
      rcases List.mem_cons.mp hmem with rfl | hmem
      · exact absurd hlt (String.lt_irrefl _)
      · exact absurd hlt (String.lt_asymm (hrest.1 _ hmem))

theorem firstMisfit_of_withFields {b : Body} {fields : FieldMap} {fault : FieldFault}
    (h : b.withFields fields = .error fault) : FirstMisfit b.misfit? fields fault := by
  unfold Body.withFields at h
  split at h
  · rename_i s hs
    have hmisfit : b.misfit? = misfit? s.fields := by
      funext name v
      rw [Body.misfit?, hs]
    rw [hmisfit]
    exact firstMisfit_of_readFields (map_eq_error_iff.mp h)
  · cases h

theorem FirstMisfit.congr {misfit? misfit?' : String → Json → Option FieldFault} {fields : FieldMap}
    {fault : FieldFault} (h : FirstMisfit misfit? fields fault)
    (hsame : ∀ k v, fields.get? k = some v → misfit?' k v = misfit? k v) :
    FirstMisfit misfit?' fields fault := by
  obtain ⟨v, hv, hmisfit⟩ := h.value
  exact ⟨⟨v, hv, (hsame _ v hv).trans hmisfit⟩,
    fun k v hv hlt => (hsame k v hv).trans (h.first k v hv hlt)⟩

/-- If nothing was wrong before, what is wrong is in the changes. -/
theorem FirstMisfit.of_patch {misfit? : String → Json → Option FieldFault}
    {old changes : FieldMap} {fault : FieldFault}
    (hold : ∀ k v, old.get? k = some v → misfit? k v = none)
    (h : FirstMisfit misfit? (Object.patch old changes) fault) :
    FirstMisfit misfit? (FieldMap.present changes) fault := by
  have hchanged {k : String} {v : Json} (hv : (FieldMap.present changes).get? k = some v) :
      (Object.patch old changes).get? k = some v := by
    obtain ⟨hv, hnull⟩ := FieldMap.get?_present.mp hv
    rw [Object.get?_patch, hv]
    simp [changed, hnull]
  obtain ⟨v, hv, hmisfit⟩ := h.value
  refine ⟨⟨v, ?_, hmisfit⟩, fun k v hv hlt => h.first k v (hchanged hv) hlt⟩
  rw [FieldMap.get?_present]
  rw [Object.get?_patch] at hv
  cases hchange : changes.get? fault.field with
  | none =>
    rw [hchange] at hv
    rw [hold _ v hv] at hmisfit
    cases hmisfit
  | some w =>
    rw [hchange] at hv
    cases hnull : w.isNull <;> simp_all [changed]

namespace Object

/-- The declaration of a field, by the envelope or by the shape. -/
def declared? (o : Object) (k : String) : Option FieldSpec :=
  (Envelope.spec? k).or (o.shape.bind (fun s => specOf? s.fields k))

/-- The value is of the kind of the field; a field that is not declared has none. -/
def Suits (o : Object) (k : String) (v : Json) : Prop :=
  ∀ f, o.declared? k = some f → f.kind.Holds v

/-- Fields of the envelope are read before the others. -/
def ReadBefore (k k' : String) : Prop :=
  (Envelope.has k = true ∧ Envelope.has k' = false) ∨ (Envelope.has k = Envelope.has k' ∧ k < k')

/-- The value of a field is not of its kind, this is what the message says, and all fields that are
read before it are well. -/
structure Blamed (o : Object) (fields : FieldMap) (k message : String) : Prop where
  value : ∃ f v, o.declared? k = some f ∧ fields.get? k = some v ∧ ¬ f.kind.Holds v ∧
    f.kind.read v = .error message
  first : ∀ k' v, fields.get? k' = some v → ReadBefore k' k → o.Suits k' v

/-- The fields that count when they are laid over an object. -/
def heeded (o : Object) (fields : FieldMap) : FieldMap :=
  fields.filter (fun k v => k != "type" && o.accepts k && !v.isNull)

variable {o : Object} {fields : FieldMap}

theorem get?_heeded {k : String} {v : Json} :
    (o.heeded fields).get? k = some v ↔
      fields.get? k = some v ∧ k ≠ "type" ∧ o.accepts k = true ∧ v.isNull = false := by
  rw [heeded, KeyMap.get?_filter_eq_some_iff]
  simp [and_assoc]

theorem misfit?_eq {k : String} (hk : k ≠ "type") (v : Json) :
    o.misfit? k v = (o.declared? k).bind (fun f =>
      match f.kind.read v with
      | .ok _ => none
      | .error message => some ⟨k, message⟩) := by
  have hmisfit (specs : List FieldSpec) :
      ObjectDepot.misfit? specs k v = (specOf? specs k).bind (fun f =>
        match f.kind.read v with
        | .ok _ => none
        | .error message => some ⟨k, message⟩) := by
    unfold ObjectDepot.misfit?
    cases specOf? specs k <;> rfl
  have hspec : specOf? Envelope.fieldSpecs k = Envelope.spec? k := rfl
  have hshape : o.body.shape = o.shape := rfl
  unfold misfit? Body.misfit? declared?
  simp only [hmisfit, hspec, hshape, Envelope.has]
  cases Envelope.spec? k with
  | some f => simp [hk]
  | none => cases o.shape <;> simp

theorem misfit?_eq_none_iff {k : String} {v : Json} (hk : k ≠ "type") (hnull : v.isNull = false) :
    o.misfit? k v = none ↔ o.Suits k v := by
  rw [misfit?_eq hk, Option.bind_eq_none_iff]
  refine forall_congr' (fun f => imp_congr_right (fun _ => ?_))
  rw [← FieldKind.exists_read_iff hnull]
  cases f.kind.read v <;> simp

theorem misfit?_eq_some_iff {k : String} {v : Json} (hk : k ≠ "type") {fault : FieldFault} :
    o.misfit? k v = some fault ↔
      fault.field = k ∧ ∃ f, o.declared? k = some f ∧ f.kind.read v = .error fault.message := by
  rw [misfit?_eq hk, Option.bind_eq_some_iff]
  constructor
  · rintro ⟨f, hf, hread⟩
    split at hread
    · cases hread
    · rename_i message hmessage
      obtain rfl := Option.some.inj hread
      exact ⟨rfl, f, hf, hmessage⟩
  · rintro ⟨rfl, f, hf, hread⟩
    exact ⟨f, hf, by rw [hread]⟩

theorem admits_iff_suits :
    o.Admits fields ↔ ∀ k v, (o.heeded fields).get? k = some v → o.Suits k v := by
  constructor
  · intro h k v hv
    obtain ⟨hget, htype, -, hnull⟩ := get?_heeded.mp hv
    exact (misfit?_eq_none_iff htype hnull).mp (h k v hget hnull)
  · intro h k v hget hnull
    by_cases htype : k = "type"
    · rw [htype]
      rfl
    · cases haccepts : o.accepts k with
      | true =>
        exact (misfit?_eq_none_iff htype hnull).mpr
          (h k v (get?_heeded.mpr ⟨hget, htype, haccepts, hnull⟩))
      | false =>
        have hhas : Envelope.has k = false := (Bool.or_eq_false_iff.mp haccepts).1
        simp [misfit?, hhas, misfit?_of_not_accepts haccepts v]

theorem present_envelopeChanges (o : Object) (fields : FieldMap) :
    FieldMap.present (envelopeChanges fields) =
      (o.heeded fields).filter (fun k _ => Envelope.has k) := by
  refine KeyMap.ext (fun k => Option.ext (fun v => ?_))
  rw [FieldMap.get?_present, get?_envelopeChanges, KeyMap.get?_filter_keys]
  cases hk : Envelope.has k with
  | false => simp
  | true =>
    have haccepts : o.accepts k = true := by simp [accepts, hk]
    by_cases htype : k = "type" <;> simp [get?_heeded, htype, haccepts]

theorem present_bodyChanges (o : Object) (fields : FieldMap) :
    FieldMap.present (o.bodyChanges fields) =
      (o.heeded fields).filter (fun k _ => !Envelope.has k) := by
  refine KeyMap.ext (fun k => Option.ext (fun v => ?_))
  rw [FieldMap.get?_present, get?_bodyChanges, KeyMap.get?_filter_keys]
  cases hk : Envelope.has k with
  | true => simp
  | false =>
    have htype : k ≠ "type" := by
      rintro rfl
      cases hk
    cases ha : o.accepts k <;> simp [get?_heeded, htype, ha]

theorem ReadBefore.lt {k k' : String} (h : ReadBefore k k')
    (hsame : Envelope.has k = Envelope.has k') : k < k' := by
  rcases h with ⟨hk, hk'⟩ | ⟨-, hlt⟩
  · rw [hk, hk'] at hsame
    cases hsame
  · exact hlt

/-- Of the fields that are in the envelope, or of those that are not, the first one that does not
fit is to blame, if the fields of the other part that are read before it are well. -/
theorem blamed_of_firstMisfit (part : String → Bool) {fault : FieldFault}
    (hpart : ∀ k k', part k = part k' → Envelope.has k = Envelope.has k')
    (hother : ∀ k v, (o.heeded fields).get? k = some v → part k = false →
      part fault.field = true → ReadBefore k fault.field → o.Suits k v)
    (h : FirstMisfit o.misfit? ((o.heeded fields).filter (fun k _ => part k)) fault) :
    o.Blamed (o.heeded fields) fault.field fault.message := by
  obtain ⟨v, hv, hmisfit⟩ := h.value
  obtain ⟨hheeded, hfield⟩ := KeyMap.get?_filter_eq_some_iff.mp hv
  obtain ⟨-, htype, -, hnull⟩ := get?_heeded.mp hheeded
  obtain ⟨-, f, hf, hread⟩ := (misfit?_eq_some_iff htype).mp hmisfit
  refine ⟨⟨f, v, hf, hheeded, ?_, hread⟩, fun k v hv hbefore => ?_⟩
  · rw [← FieldKind.exists_read_iff hnull, hread]
    simp
  · cases hk : part k with
    | false => exact hother k v hv hk hfield hbefore
    | true =>
      obtain ⟨-, htype, -, hnull⟩ := get?_heeded.mp hv
      have hlt := hbefore.lt (hpart k _ (hk.trans hfield.symm))
      have hsame : ((o.heeded fields).filter (fun k _ => part k)).get? k = some v :=
        KeyMap.get?_filter_eq_some_iff.mpr ⟨hv, hk⟩
      exact (misfit?_eq_none_iff htype hnull).mp (h.first k v hsame hlt)

/-- If fields cannot be laid over an object, the first one in the order of reading that does not fit
is to blame. -/
theorem blamed_of_overlay (ho : o.Sound) {fault : FieldFault}
    (h : o.overlay fields = .error fault) :
    o.Blamed (o.heeded fields) fault.field fault.message := by
  have hfits := ho.envelope.kept_toFields.fits
  have hmisfit {k : String} (hk : Envelope.has k = true) (htype : k ≠ "type") (v : Json) :
      o.misfit? k v = ObjectDepot.misfit? Envelope.fieldSpecs k v := by
    rw [misfit?, if_pos hk, if_neg htype]
  rw [overlay_eq] at h
  split at h
  · rename_i fault' hread
    obtain rfl := Except.error.inj h
    have hfirst := (firstMisfit_of_readFields hread).of_patch hfits
    rw [present_envelopeChanges o] at hfirst
    refine blamed_of_firstMisfit Envelope.has (fun _ _ h => h) ?_ (hfirst.congr ?_)
    · rintro k v - hk hfield (⟨hk', -⟩ | ⟨hsame, -⟩)
      · rw [hk] at hk'
        cases hk'
      · rw [hk, hfield] at hsame
        cases hsame
    · intro k v hv
      obtain ⟨hheeded, hk⟩ := KeyMap.get?_filter_eq_some_iff.mp hv
      exact hmisfit hk (get?_heeded.mp hheeded).2.1 v
  · rename_i read hread
    have hbody := map_eq_error_iff.mp h
    have hfirst := (firstMisfit_of_withFields hbody).of_patch (fun k v => ho.misfit?_body)
    rw [present_bodyChanges] at hfirst
    refine blamed_of_firstMisfit (fun k => !Envelope.has k) ?_ ?_ (hfirst.congr ?_)
    · intro k k' hsame
      simpa using hsame
    · -- The envelope has been read, so nothing is wrong with its fields.
      intro k v hv hk _ _
      obtain ⟨hget, htype, -, hnull⟩ := get?_heeded.mp hv
      have hhas : Envelope.has k = true := by simpa using hk
      have hchange : (envelopeChanges fields).get? k = some v := by
        rw [get?_envelopeChanges, hget]
        simp [hhas, htype]
      have hchanges := (patch_fits_iff hfits).mp (readFields_eq_ok_iff.mp hread).1
      rw [← misfit?_eq_none_iff htype hnull, hmisfit hhas htype]
      exact hchanges k v hchange hnull
    · intro k v hv
      obtain ⟨-, hk⟩ := KeyMap.get?_filter_eq_some_iff.mp hv
      rw [misfit?, if_neg (by simpa using hk)]

/-- The blame never falls on a name that stands for the whole body. -/
theorem Blamed.ne_body {k message : String} (h : o.Blamed fields k message) : k ≠ "body" := by
  obtain ⟨f, -, hf, -⟩ := h.value
  rintro rfl
  have hbody (s : Shape) : specOf? s.fields "body" = none := by cases s <;> rfl
  obtain ⟨s, -, hs⟩ := Option.bind_eq_some_iff.mp hf
  rw [hbody] at hs
  cases hs

/-- To objects of one shape the same fields are amiss. -/
theorem Blamed.of_shape_eq {o' : Object} {k message : String} (hshape : o'.shape = o.shape)
    (h : o.Blamed (o.heeded fields) k message) : o'.Blamed (o'.heeded fields) k message := by
  have hdeclared (k : String) : o'.declared? k = o.declared? k := by
    rw [declared?, hshape, declared?]
  have hheeded : o'.heeded fields = o.heeded fields := by
    simp only [heeded, accepts, hshape]
  obtain ⟨f, v, hf, hv, hholds, hread⟩ := h.value
  rw [hheeded]
  refine ⟨⟨f, v, by rw [hdeclared, hf], hv, hholds, hread⟩, fun k' v hv hbefore f hf => ?_⟩
  rw [hdeclared] at hf
  exact h.first k' v hv hbefore f hf

/-- There is one field to blame, and one thing to say of it. -/
theorem Blamed.unique {k k' message message' : String} (h : o.Blamed fields k message)
    (h' : o.Blamed fields k' message') : k = k' ∧ message = message' := by
  obtain ⟨f, v, hf, hv, hholds, hread⟩ := h.value
  obtain ⟨f', v', hf', hv', hholds', hread'⟩ := h'.value
  have hnot : ¬ReadBefore k k' := fun hbefore => hholds (h'.first k v hv hbefore f hf)
  have hnot' : ¬ReadBefore k' k := fun hbefore => hholds' (h.first k' v' hv' hbefore f' hf')
  have hsame : Envelope.has k = Envelope.has k' := by
    unfold ReadBefore at hnot hnot'
    cases hk : Envelope.has k <;> cases hk' : Envelope.has k' <;> simp_all
  have hkeys : k = k' :=
    eq_of_not_lt (fun hlt => hnot (.inr ⟨hsame, hlt⟩)) (fun hlt => hnot' (.inr ⟨hsame.symm, hlt⟩))
  subst hkeys
  obtain rfl := Option.some.inj (hf.symm.trans hf')
  obtain rfl := Option.some.inj (hv.symm.trans hv')
  exact ⟨rfl, Except.error.inj (hread.symm.trans hread')⟩

/-! ### Laying fields over an object in place -/

/-- Reads the fields of a body in turn, as its shape declares them. -/
def bodyOf (o : Object) (fields : FieldMap) : Except FieldFault Body :=
  match o.shape with
  | some s => (readBlaming s.fields fields).map (⟨some s, ·⟩)
  | none => .ok ⟨none, fields⟩

/-- Writes both parts of an object, if both could be read. -/
def writeParts (envelope : Except FieldFault Envelope) (body : Except FieldFault Body) :
    ExceptT FieldFault (StateM Object) Unit := do
  let envelope ← ofExcept envelope
  let body ← ofExcept body
  modify ({ · with envelope := envelope })
  modify ({ · with body := body })

/-- Lays fields over an object in place. -/
def overlayInPlace (fields : FieldMap) : ExceptT FieldFault (StateM Object) Unit := do
  let o ← get
  writeParts
    ((readBlaming Envelope.fieldSpecs
      (patch o.envelope.toFields (envelopeChanges fields))).map .ofReadFields)
    (o.bodyOf (patch o.body.fields (o.bodyChanges fields)))

theorem bodyOf_eq (o : Object) (fields : FieldMap) :
    o.bodyOf fields = o.body.withFields fields := by
  obtain ⟨envelope, shape, old⟩ := o
  cases shape with
  | none => rfl
  | some s => exact congrArg (Except.map (Body.mk (some s))) (readBlaming_eq s.fields fields)

/-- In place the outcome is the same, and an object over which fields cannot be laid stays as it
is. -/
theorem run_overlayInPlace (o : Object) (fields : FieldMap) :
    (overlayInPlace fields).run.run o =
      match o.overlay fields with
      | .ok o' => (.ok (), o')
      | .error fault => (.error fault, o) := by
  have hrun : (overlayInPlace fields).run.run o = (writeParts
      ((readBlaming Envelope.fieldSpecs
        (patch o.envelope.toFields (envelopeChanges fields))).map .ofReadFields)
      (o.bodyOf (patch o.body.fields (o.bodyChanges fields)))).run.run o := rfl
  rw [hrun, readBlaming_eq, bodyOf_eq, overlay_eq]
  cases readFields Envelope.fieldSpecs (patch o.envelope.toFields (envelopeChanges fields)) with
  | error fault => rfl
  | ok read => cases o.body.withFields (patch o.body.fields (o.bodyChanges fields)) <;> rfl

end Object

namespace FieldNames

variable {names : FieldNames} {fields : FieldMap} {filter : FieldFilter} {o : Object}

/-- The fields of a client that count when they change an object. -/
def heeded (o : Object) (fields : FieldMap) (filter : FieldFilter) : FieldMap :=
  fields.filter (fun k v => k != "shardkey" && k != "type" && !v.isNull && o.accepts k &&
    (filter = .all || !o.isLocked k))

/-- What of the fields of a client is laid over an object that they change. -/
def passed (names : FieldNames) (o : Object) (fields : FieldMap) (filter : FieldFilter) :
    FieldMap :=
  ((names.normalize fields).erase "type").filter (fun k _ => filter = .all || !o.isLocked k)

/-- Changes an object in place. -/
def changeInPlace (names : FieldNames) (fields : FieldMap) (filter : FieldFilter) :
    ExceptT ValidationError (StateM Object) Unit := do
  let o ← get
  (Object.overlayInPlace (names.passed o fields filter)).adapt Object.FieldFault.error

theorem change_eq (names : FieldNames) (o : Object) (fields : FieldMap) (filter : FieldFilter) :
    names.change o fields filter =
      (o.overlay (names.passed o fields filter)).mapError Object.FieldFault.error := by
  cases filter with
  | all =>
    have hall : names.passed o fields .all = (names.normalize fields).erase "type" :=
      KeyMap.ext (fun k => by rw [passed, KeyMap.get?_filter_keys]; rfl)
    rw [hall]
    rfl
  | skipLocked => simp [change, apply, passed]

theorem run_changeInPlace (names : FieldNames) (o : Object) (fields : FieldMap)
    (filter : FieldFilter) :
    (names.changeInPlace fields filter).run.run o =
      match names.change o fields filter with
      | .ok o' => (.ok (), o')
      | .error e => (.error e, o) := by
  have hadapt : (names.changeInPlace fields filter).run.run o =
      let (r, o') := (Object.overlayInPlace (names.passed o fields filter)).run.run o
      (r.mapError Object.FieldFault.error, o') := rfl
  rw [hadapt, Object.run_overlayInPlace, change_eq]
  cases o.overlay (names.passed o fields filter) <;> rfl

theorem heeded_passed (o : Object) (fields : FieldMap) (filter : FieldFilter) :
    o.heeded (({} : FieldNames).passed o fields filter) = heeded o fields filter := by
  refine KeyMap.ext (fun k => Option.ext (fun v => ?_))
  rw [Object.get?_heeded, passed, KeyMap.get?_filter_keys, KeyMap.get?_erase, normalize_default,
    KeyMap.get?_erase, heeded, KeyMap.get?_filter_eq_some_iff]
  by_cases htype : k = "type"
  · simp [htype]
  · by_cases hkey : k = "shardkey"
    · simp [hkey]
    · cases filter = .all || !o.isLocked k <;> simp [htype, hkey, and_comm, and_left_comm]

theorem exists_change_iff (ho : o.Sound) :
    (∃ o', ({} : FieldNames).change o fields filter = .ok o') ↔
      ∀ k v, (heeded o fields filter).get? k = some v → o.Suits k v := by
  simp only [change_eq, mapError_eq_ok_iff]
  rw [Object.exists_overlay_iff ho, Object.admits_iff_suits, heeded_passed]

theorem blamed_of_change (ho : o.Sound) {e : ValidationError}
    (h : ({} : FieldNames).change o fields filter = .error e) :
    ∃ k message, e = .invalidField k message ∧ o.Blamed (heeded o fields filter) k message := by
  rw [change_eq] at h
  cases hlay : o.overlay (({} : FieldNames).passed o fields filter) with
  | ok o' =>
    rw [hlay] at h
    cases h
  | error fault =>
    rw [hlay] at h
    obtain rfl := Except.error.inj h
    have hblamed := Object.blamed_of_overlay ho hlay
    rw [heeded_passed] at hblamed
    exact ⟨fault.field, fault.message, rfl, hblamed⟩

theorem toObject_eq_change {type : String} (htype : fields.get? "type" = some (.str type))
    (hvalid : TypeName.isValid type) :
    ({} : FieldNames).toObject fields = ({} : FieldNames).change (.ofType type) fields .all := by
  have hget : (({} : FieldNames).normalize fields).get? "type" = some (.str type) := by
    rw [normalize_default, KeyMap.get?_erase, if_neg (by decide), htype]
  have htypeOf := Object.typeOf_eq_ok_iff.mpr ⟨hget, hvalid⟩
  rw [toObject, Object.ofFields, htypeOf]
  rfl

/-- Fields make an object just in case the type they tell is a type's name and all others that count
are of their kinds. If the type is good and they make none, the first one in the order of reading
that is not of its kind is blamed for it, with what is wrong with its value. Fields that cannot
change an object are blamed in the same way, and leave it as it is. -/
theorem toObject_blames (fields : FieldMap) :
    ((∃ o, ({} : FieldNames).toObject fields = .ok o) ↔
      ∃ type, fields.get? "type" = some (.str type) ∧ TypeName.isValid type ∧
        ∀ k v, (heeded (.ofType type) fields .all).get? k = some v →
          (Object.ofType type).Suits k v) ∧
    (∀ type e, fields.get? "type" = some (.str type) → TypeName.isValid type →
      ({} : FieldNames).toObject fields = .error e →
        ∃ k message, e = .invalidField k message ∧ k ≠ "body" ∧
          (Object.ofType type).Blamed (heeded (.ofType type) fields .all) k message) ∧
    ∀ o filter e, o.Sound → ({} : FieldNames).change o fields filter = .error e →
      (({} : FieldNames).changeInPlace fields filter).run.run o = (.error e, o) ∧
        ∃ k message, e = .invalidField k message ∧ k ≠ "body" ∧ fields.contains k ∧
          o.Blamed (heeded o fields filter) k message := by
  refine ⟨⟨?_, ?_⟩, ?_, ?_⟩
  · rintro ⟨o, ho⟩
    obtain ⟨type, hget, hvalid, -⟩ := Object.ofFields_eq_ok_iff.mp ho
    rw [normalize_default, KeyMap.get?_erase, if_neg (by decide)] at hget
    rw [toObject_eq_change hget hvalid] at ho
    exact ⟨type, hget, hvalid, (exists_change_iff (Object.sound_ofType type)).mp ⟨o, ho⟩⟩
  · rintro ⟨type, hget, hvalid, hsuits⟩
    rw [toObject_eq_change hget hvalid]
    exact (exists_change_iff (Object.sound_ofType type)).mpr hsuits
  · intro type e hget hvalid h
    rw [toObject_eq_change hget hvalid] at h
    obtain ⟨k, message, he, hblamed⟩ := blamed_of_change (Object.sound_ofType type) h
    exact ⟨k, message, he, hblamed.ne_body, hblamed⟩
  · intro o filter e ho h
    obtain ⟨k, message, he, hblamed⟩ := blamed_of_change ho h
    refine ⟨by rw [run_changeInPlace, h], k, message, he, hblamed.ne_body, ?_, hblamed⟩
    obtain ⟨-, v, -, hv, -⟩ := hblamed.value
    rw [KeyMap.contains, KeyMap.get?_of_get?_filter hv]
    rfl

/-- A tag whose count is no number and whose name is no text. -/
def misnamedTag : FieldMap :=
  .ofList [("type", .str "tag"), ("tag", .str "red"), ("count", .str "many"), ("name", .int 5)]

/-- The name is in the envelope and is blamed before the count. -/
theorem toObject_blames_misnamedTag :
    ∃ e, ({} : FieldNames).toObject misnamedTag = .error e ∧
      e = .invalidField "name" "invalid type: integer `5`, expected a string" ∧
      (∃ k message, e = .invalidField k message ∧ k ≠ "body" ∧
        (Object.ofType "tag").Blamed (heeded (.ofType "tag") misnamedTag .all) k message) ∧
      ({} : FieldNames).change (.ofType "tag") misnamedTag .skipLocked = .error e ∧
      (({} : FieldNames).changeInPlace misnamedTag .skipLocked).run.run (.ofType "tag") =
        (.error e, .ofType "tag") := by
  have hmade : ({} : FieldNames).toObject misnamedTag =
      .error (.invalidField "name" "invalid type: integer `5`, expected a string") := by rfl
  have hchange : ({} : FieldNames).change (.ofType "tag") misnamedTag .skipLocked =
      .error (.invalidField "name" "invalid type: integer `5`, expected a string") := by rfl
  obtain ⟨-, hblames, hstays⟩ := toObject_blames misnamedTag
  exact ⟨_, hmade, rfl, hblames "tag" _ rfl (by decide) hmade, hchange,
    (hstays _ _ _ (Object.sound_ofType "tag") hchange).1⟩

end FieldNames
end ObjectDepot
