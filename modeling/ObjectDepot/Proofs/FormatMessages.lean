import ObjectDepot.Proofs.FlatForm
import ObjectDepot.Proofs.FormatGrammars

/-! What is said of a field that is checked. Each message starts with the name of its field, so it
can only come from the check of that field. In particular the messages about the format of an email
address and of a locale say exactly that the text is none. -/

namespace ObjectDepot

/-- A message that starts with the name of a field in quotes. -/
def IsAbout (field text : String) : Prop := ∃ rest, text = "'" ++ field ++ "' " ++ rest

/-- A name of letters only, so none that has a quote in it. -/
def isWord (name : String) : Bool := name.toList.all Char.isAlpha

theorem IsAbout.takeWhile_eq {field text : String} (h : IsAbout field text)
    (hword : isWord field) : text.toList.tail.takeWhile Char.isAlpha = field.toList := by
  obtain ⟨rest, rfl⟩ := h
  have hletters : ∀ c ∈ field.toList, c.isAlpha := List.all_eq_true.mp hword
  have htail : ("'" ++ field ++ "' " ++ rest).toList.tail =
      field.toList ++ ("' " ++ rest).toList := by
    simp [String.toList_append]
  have hquote : ("' " ++ rest).toList.takeWhile Char.isAlpha = [] := by
    simp [String.toList_append]
  rw [htail, List.takeWhile_append_of_pos hletters, hquote, List.append_nil]

theorem IsAbout.unique {field field' text : String} (h : IsAbout field text)
    (h' : IsAbout field' text) (hword : isWord field) (hword' : isWord field') : field = field' :=
  String.toList_injective ((h.takeWhile_eq hword).symm.trans (h'.takeWhile_eq hword'))

theorem Constraint.isAbout {field text : String} {value : Json} {c : Constraint}
    (h : c.violation? field value = some text) : IsAbout field text := by
  have hmessage {holds : Bool} {rest : String}
      (h : (if holds then none else some ("'" ++ field ++ "' " ++ rest)) = some text) :
      IsAbout field text := by
    cases holds with
    | true => cases h
    | false => exact ⟨rest, (Option.some.inj h).symm⟩
  unfold violation? at h
  split at h <;> first | exact hmessage h | cases h

theorem FieldSpec.isAbout {f : FieldSpec} {fields : FieldMap} {text : String}
    (h : text ∈ f.violations fields) : IsAbout f.name text := by
  unfold violations at h
  split at h
  · obtain ⟨c, -, hc⟩ := List.mem_filterMap.mp h
    exact Constraint.isAbout hc
  · split at h
    · refine ⟨"is required", ?_⟩
      rw [List.mem_singleton.mp h, String.append_assoc, String.append_assoc, String.append_assoc]
      rfl
    · cases h

theorem isAbout_type {type text : String} (h : text ∈ typeViolations type) :
    IsAbout "type" text := by
  unfold typeViolations at h
  split at h
  · exact ⟨"is missing", List.mem_singleton.mp h⟩
  · split at h
    · cases h
    · exact ⟨"has an invalid format", List.mem_singleton.mp h⟩

theorem FieldSpec.violations_of_text {f : FieldSpec} {fields : FieldMap} {s : String}
    (hget : fields.get? f.name = some (.str s)) (hs : Text.isBlank s = false) :
    f.violations fields = f.constraints.filterMap (Constraint.violation? f.name (.str s)) := by
  simp [violations, hget, Option.filter, Json.isVoid, hs]

namespace Object

/-- The fields that are checked have names of their own, made of letters; the type is none of
them. -/
theorem validatedSpecs_names (o : Object) :
    (o.validatedSpecs.map (·.name)).Nodup ∧
      ∀ f ∈ o.validatedSpecs, f.name ≠ "type" ∧ isWord f.name := by
  unfold validatedSpecs
  cases o.shape with
  | none => decide
  | some s => cases s <;> decide

/-- A message about a field comes from the check of this field. -/
theorem mem_violations_iff {o : Object} {f : FieldSpec} {text : String} (hf : f ∈ o.validatedSpecs)
    (htext : IsAbout f.name text) : text ∈ o.violations ↔ text ∈ f.violations o.toFields := by
  obtain ⟨hnodup, hnames⟩ := o.validatedSpecs_names
  obtain ⟨hne, hword⟩ := hnames f hf
  rw [violations, List.mem_append, List.mem_flatMap]
  constructor
  · rintro (h | ⟨g, hg, h⟩)
    · exact absurd (htext.unique (isAbout_type h) hword (by decide)) hne
    · have hname := (FieldSpec.isAbout h).unique htext (hnames g hg).2 hword
      rwa [List.inj_on_of_nodup_map hnodup hg hf hname] at h
  · intro h
    exact .inr ⟨f, hf, h⟩

/-- A required field with a text has the message of its other constraint just in case the text fails
this constraint. -/
theorem mem_violations_text {o : Object} {f : FieldSpec} {c : Constraint} {s rest : String}
    {holds : Bool} (hf : f ∈ o.validatedSpecs) (hconstraints : f.constraints = [.required, c])
    (hget : o.toFields.get? f.name = some (.str s)) (hs : Text.isBlank s = false)
    (hc : c.violation? f.name (.str s) =
      if holds then none else some ("'" ++ f.name ++ "' " ++ rest)) :
    "'" ++ f.name ++ "' " ++ rest ∈ o.violations ↔ ¬ holds := by
  rw [mem_violations_iff hf ⟨rest, rfl⟩, FieldSpec.violations_of_text hget hs, hconstraints]
  have hrequired : Constraint.required.violation? f.name (.str s) = none := rfl
  cases holds <;> simp [hrequired, hc]

theorem mem_violations_email {o : Object} {s : String} (hshape : o.shape = some .user)
    (hget : o.toFields.get? "email" = some (.str s)) (hs : Text.isBlank s = false) :
    "'email' must be a valid email address" ∈ o.violations ↔ ¬ Format.isEmail s := by
  have hf : openField "email" .text [.required, .email] ∈ o.validatedSpecs := by
    rw [validatedSpecs, hshape]
    decide
  exact mem_violations_text hf rfl hget hs rfl

theorem mem_violations_locale {o : Object} {s : String} (hshape : o.shape = some .translation)
    (hget : o.toFields.get? "locale" = some (.str s)) (hs : Text.isBlank s = false) :
    "'locale' has an invalid format" ∈ o.violations ↔ ¬ Format.isLocale s := by
  have hf : lockedField "locale" .text [.required, .locale] ∈ o.validatedSpecs := by
    rw [validatedSpecs, hshape]
    decide
  exact mem_violations_text hf rfl hget hs rfl

/-- The message about an email says that it is no address, and the one about a locale that it is no
tag. -/
theorem format_message_iff {s : String} (hs : Text.isBlank s = false) :
    (∀ o : Object, o.shape = some .user → o.toFields.get? "email" = some (.str s) →
      ("'email' must be a valid email address" ∈ o.violations ↔ ¬ Format.IsAddress s)) ∧
    (∀ o : Object, o.shape = some .translation → o.toFields.get? "locale" = some (.str s) →
      ("'locale' has an invalid format" ∈ o.violations ↔ ¬ Format.IsTag s)) ∧
    (s.toList ∈ Format.emailPattern.matches' ↔ Format.IsAddress s) ∧
    (s.toList ∈ Format.localePattern.matches' ↔ Format.IsTag s) ∧
    (Format.IsAddress s ∨ Format.IsTag s → ∀ c ∈ s.toList, Format.IsVisible c) := by
  refine ⟨fun o hshape hget => ?_, fun o hshape hget => ?_, Format.matches_emailPattern,
    Format.matches_localePattern, ?_⟩
  · rw [mem_violations_email hshape hget hs, Format.isEmail_iff]
  · rw [mem_violations_locale hshape hget hs, Format.isLocale_iff]
  · rintro (h | h) c hc
    · exact h.isVisible hc
    · exact h.isVisible hc

def userWith (email : String) : Object :=
  ⟨{ type := "user" }, ⟨some .user, .ofList [("email", .str email)]⟩⟩

def translationFor (locale : String) : Object :=
  ⟨{ type := "translation" }, ⟨some .translation, .ofList [("locale", .str locale)]⟩⟩

theorem format_message_iff_mail :
    let s := "x_1@mail.a-b.co"
    Text.isBlank s = false ∧ (userWith s).shape = some .user ∧
      (userWith s).toFields.get? "email" = some (.str s) ∧
      (translationFor s).shape = some .translation ∧
      (translationFor s).toFields.get? "locale" = some (.str s) ∧
      Format.IsAddress s ∧ s.toList ∈ Format.emailPattern.matches' ∧ ¬ Format.IsTag s ∧
      ∀ c ∈ s.toList, Format.IsVisible c := by
  intro s
  have hs : Text.isBlank s = false := by decide +kernel
  have huser := get?_toFields_of_not_has (userWith s) (k := "email") rfl
  have htranslation := get?_toFields_of_not_has (translationFor s) (k := "locale") rfl
  obtain ⟨hemail, hlocale, hpattern, -, hvisible⟩ := format_message_iff hs
  have hfine : "'email' must be a valid email address" ∉ (userWith s).violations := by
    decide +kernel
  have hwrong : "'locale' has an invalid format" ∈ (translationFor s).violations := by
    decide +kernel
  have haddress : Format.IsAddress s := not_not.mp (fun h => hfine ((hemail _ rfl huser).mpr h))
  exact ⟨hs, rfl, huser, rfl, htranslation, haddress, hpattern.mpr haddress,
    (hlocale _ rfl htranslation).mp hwrong, hvisible (.inl haddress)⟩

end Object
end ObjectDepot
