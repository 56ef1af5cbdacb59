import Mathlib.Computability.RegularExpressions
import ObjectDepot.Format.Email
import ObjectDepot.Format.Locale
import ObjectDepot.Text.Blank

/-! The forms of email addresses and of locale tags, each said twice: by a regular expression that
the whole text has to match, and by the parts the text is made of. The two agree, they are what the
checks look for, and a text of either form has visible ASCII characters only. -/

namespace ObjectDepot

namespace Text

theorem pieces_eq_splitOn (separator : Char) (cs : List Char) :
    pieces separator cs = cs.splitOn separator := by
  induction cs with
  | nil => rfl
  | cons c cs ih =>
    rw [pieces, List.splitOn_cons_eq_if_modifyHead, ih]
    by_cases hc : c = separator
    · simp [hc]
    · cases hs : cs.splitOn separator with
      | nil => exact absurd hs (List.splitOn_ne_nil separator cs)
      | cons p ps => simp [hc]

theorem pieces_intercalate {separator : Char} {ps : List (List Char)}
    (h : ∀ p ∈ ps, separator ∉ p) (hne : ps ≠ []) :
    pieces separator ([separator].intercalate ps) = ps := by
  rw [pieces_eq_splitOn, List.splitOn_intercalate separator h hne]

theorem intercalate_cons (separator : Char) (p : List Char) (ps : List (List Char)) :
    [separator].intercalate (p :: ps) = p ++ ps.flatMap (separator :: ·) := by
  induction ps generalizing p with
  | nil => simp
  | cons q ps ih => simp [ih q]

theorem mem_intercalate {separator c : Char} {ps : List (List Char)}
    (h : c ∈ [separator].intercalate ps) : c = separator ∨ ∃ p ∈ ps, c ∈ p := by
  cases ps with
  | nil => simp at h
  | cons p ps =>
    rw [intercalate_cons, List.mem_append, List.mem_flatMap] at h
    rcases h with h | ⟨q, hq, h⟩
    · exact .inr ⟨p, by simp, h⟩
    · rcases List.mem_cons.mp h with h | h
      · exact .inl h
      · exact .inr ⟨q, by simp [hq], h⟩

end Text

namespace Format

open RegularExpression

/-! ### Classes of characters -/

def between (first last : Char) : List Char :=
  (List.range' first.toNat (last.toNat + 1 - first.toNat)).map Char.ofNat

def lowerLetters : List Char := between 'a' 'z'

def letters : List Char := between 'A' 'Z' ++ lowerLetters

def alphanumerics : List Char := letters ++ between '0' '9'

def localChars : List Char := alphanumerics ++ ['.', '_', '%', '+', '-']

def labelChars : List Char := alphanumerics ++ ['-']

/-- The bound keeps clear of the numbers that no character has. -/
theorem mem_between {first last c : Char} (h : last.toNat < 0xD800) :
    c ∈ between first last ↔ first.toNat ≤ c.toNat ∧ c.toNat ≤ last.toNat := by
  rw [between, List.mem_map]
  constructor
  · rintro ⟨n, hn, rfl⟩
    rw [List.mem_range'_1] at hn
    have hvalid : n.isValidChar := .inl (by omega)
    have hn' : (Char.ofNat n).toNat = n := by
      rw [Char.ofNat, dif_pos hvalid]
      rfl
    omega
  · intro hc
    exact ⟨c.toNat, List.mem_range'_1.mpr (by omega), Char.ofNat_toNat c⟩

theorem mem_lowerLetters {c : Char} : c ∈ lowerLetters ↔ c.isLower := by
  have hlower : c.isLower = (decide ('a'.toNat ≤ c.toNat) && decide (c.toNat ≤ 'z'.toNat)) := rfl
  rw [lowerLetters, mem_between (by decide), hlower, Bool.and_eq_true, decide_eq_true_iff,
    decide_eq_true_iff]

theorem mem_letters {c : Char} : c ∈ letters ↔ c.isAlpha := by
  have hupper : c.isUpper = decide ('A'.toNat ≤ c.toNat ∧ c.toNat ≤ 'Z'.toNat) := rfl
  have halpha : c.isAlpha = (c.isUpper || c.isLower) := rfl
  rw [letters, List.mem_append, mem_lowerLetters, mem_between (by decide), halpha, Bool.or_eq_true,
    hupper, decide_eq_true_iff]

theorem mem_alphanumerics {c : Char} : c ∈ alphanumerics ↔ isAlphanumeric c := by
  rw [alphanumerics, List.mem_append, mem_letters, mem_between (by decide), isAlphanumeric,
    Bool.or_eq_true, Char.isDigit, Bool.and_eq_true, decide_eq_true_iff, decide_eq_true_iff]
  rfl

theorem mem_localChars {c : Char} : c ∈ localChars ↔ isLocalChar c := by
  simp [localChars, isLocalChar, mem_alphanumerics, or_assoc]

theorem mem_labelChars {c : Char} : c ∈ labelChars ↔ c ∈ alphanumerics ∨ c = '-' := by
  simp [labelChars]

/-! ### Regular expressions -/

/-- Any one of some characters. -/
def oneOf (cs : List Char) : RegularExpression Char := (cs.map char).sum

/-- As many in a row as the bounds allow. -/
def counted (P : RegularExpression Char) (low high : Nat) : RegularExpression Char :=
  ((List.range' low (high + 1 - low)).map (P ^ ·)).sum

theorem matches_char {c : Char} {w : List Char} : w ∈ (char c).matches' ↔ w = [c] := Iff.rfl

theorem matches_sum {Ps : List (RegularExpression Char)} {w : List Char} :
    w ∈ Ps.sum.matches' ↔ ∃ P ∈ Ps, w ∈ P.matches' := by
  induction Ps with
  | nil => simp
  | cons P Ps ih => rw [List.sum_cons, matches'_add, Language.mem_add, ih, List.exists_mem_cons_iff]

theorem matches_optional {P : RegularExpression Char} {w : List Char} :
    w ∈ (1 + P).matches' ↔ w = [] ∨ w ∈ P.matches' := by
  rw [matches'_add, Language.mem_add, matches'_epsilon, Language.mem_one]

theorem matches_oneOf {cs w : List Char} : w ∈ (oneOf cs).matches' ↔ ∃ c ∈ cs, w = [c] := by
  rw [oneOf, matches_sum]
  simp only [List.mem_map, exists_exists_and_eq_and, matches_char]

/-- Matches of one character each, put together. -/
theorem flatten_oneOf {cs : List Char} {ws : List (List Char)}
    (h : ∀ w ∈ ws, w ∈ (oneOf cs).matches') :
    ws.flatten.length = ws.length ∧ ∀ c ∈ ws.flatten, c ∈ cs := by
  induction ws with
  | nil => simp
  | cons w ws ih =>
    obtain ⟨c, hc, rfl⟩ := matches_oneOf.mp (h w (by simp))
    have hh := ih (fun w hw => h w (by simp [hw]))
    exact ⟨by simp [hh.1], by simpa [hc] using hh.2⟩

theorem matches_pow_oneOf {cs w : List Char} {n : Nat} :
    w ∈ (oneOf cs ^ n).matches' ↔ w.length = n ∧ ∀ c ∈ w, c ∈ cs := by
  rw [matches'_pow, Language.mem_pow]
  constructor
  · rintro ⟨ws, rfl, rfl, hws⟩
    exact flatten_oneOf hws
  · rintro ⟨rfl, hw⟩
    refine ⟨w.map (fun c => [c]), ?_, List.length_map _, fun y hy => ?_⟩
    · rw [← List.flatMap_def, List.flatMap_singleton']
    · obtain ⟨c, hc, rfl⟩ := List.mem_map.mp hy
      exact matches_oneOf.mpr ⟨c, hw c hc, rfl⟩

theorem matches_star_oneOf {cs w : List Char} :
    w ∈ (star (oneOf cs)).matches' ↔ ∀ c ∈ w, c ∈ cs := by
  rw [matches'_star, Language.kstar_eq_iSup_pow, Language.mem_iSup]
  simp only [← matches'_pow, matches_pow_oneOf, exists_and_right, exists_eq', true_and]

theorem matches_counted_oneOf {cs w : List Char} {low high : Nat} :
    w ∈ (counted (oneOf cs) low high).matches' ↔
      (low ≤ w.length ∧ w.length ≤ high) ∧ ∀ c ∈ w, c ∈ cs := by
  simp only [counted, matches_sum, List.mem_map, exists_exists_and_eq_and, matches_pow_oneOf,
    List.mem_range'_1]
  constructor
  · rintro ⟨n, hn, rfl, hw⟩
    exact ⟨by omega, hw⟩
  · rintro ⟨hn, hw⟩
    exact ⟨w.length, by omega, rfl, hw⟩

theorem matches_repeated_oneOf {cs w : List Char} :
    w ∈ (oneOf cs * star (oneOf cs)).matches' ↔ w ≠ [] ∧ ∀ c ∈ w, c ∈ cs := by
  rw [matches'_mul, Language.mem_mul]
  simp only [matches_oneOf, matches_star_oneOf]
  constructor
  · rintro ⟨_, ⟨c, hc, rfl⟩, rest, hrest, rfl⟩
    exact ⟨by simp, by simpa [hc] using hrest⟩
  · rintro ⟨hne, hw⟩
    obtain ⟨c, rest, rfl⟩ := List.exists_cons_of_ne_nil hne
    exact ⟨[c], ⟨c, hw c (by simp), rfl⟩, rest, fun x hx => hw x (by simp [hx]), rfl⟩

/-! ### Email addresses -/

structure Label (w : List Char) : Prop where
  ne_nil : w ≠ []
  chars : ∀ c ∈ w, c ∈ labelChars
  head : w.head? ≠ some '-'
  last : w.getLast? ≠ some '-'

/-- A text that is a local part and two or more labels, with one `@` between. -/
structure AddressOf (w localPart : List Char) (labels : List (List Char)) : Prop where
  text : w = localPart ++ '@' :: ['.'].intercalate labels
  single : w.count '@' = 1
  ne_nil : localPart ≠ []
  chars : ∀ c ∈ localPart, c ∈ localChars
  two : 2 ≤ labels.length
  labels : ∀ l ∈ labels, Label l

def IsAddress (s : String) : Prop := ∃ localPart labels, AddressOf s.toList localPart labels

def labelPattern : RegularExpression Char :=
  oneOf alphanumerics * (1 + star (oneOf labelChars) * oneOf alphanumerics)

def domainPattern : RegularExpression Char :=
  labelPattern * (char '.' * labelPattern * star (char '.' * labelPattern))

def emailPattern : RegularExpression Char :=
  oneOf localChars * star (oneOf localChars) * char '@' * domainPattern

theorem ne_hyphen {c : Char} (h : c ∈ alphanumerics) : c ≠ '-' := by
  have hhyphen : '-' ∉ alphanumerics := by decide
  exact fun heq => hhyphen (heq ▸ h)

theorem Label.head_alphanumeric {c : Char} {w : List Char} (h : Label w) (hc : w.head? = some c) :
    c ∈ alphanumerics :=
  (mem_labelChars.mp (h.chars c (List.mem_of_head? hc))).resolve_right
    (fun heq => h.head (heq ▸ hc))

theorem Label.last_alphanumeric {c : Char} {w : List Char} (h : Label w)
    (hc : w.getLast? = some c) : c ∈ alphanumerics :=
  (mem_labelChars.mp (h.chars c (List.mem_of_getLast? hc))).resolve_right
    (fun heq => h.last (heq ▸ hc))

theorem isLabel_iff {w : List Char} : isLabel w ↔ Label w := by
  constructor
  · intro h
    unfold isLabel at h
    split at h
    · rename_i first last hfirst hlast
      simp only [Bool.and_eq_true, List.all_eq_true, Bool.or_eq_true, decide_eq_true_eq,
        ← mem_alphanumerics, ← mem_labelChars] at h
      obtain ⟨⟨hf, hl⟩, hall⟩ := h
      refine ⟨?_, hall, ?_, ?_⟩
      · rintro rfl
        cases hfirst
      · simpa [hfirst] using ne_hyphen hf
      · simpa [hlast] using ne_hyphen hl
    · cases h
  · intro h
    have hfirst := List.head?_eq_some_head h.ne_nil
    have hlast := List.getLast?_eq_some_getLast h.ne_nil
    simp only [isLabel, hfirst, hlast, Bool.and_eq_true, List.all_eq_true, Bool.or_eq_true,
      decide_eq_true_eq, ← mem_alphanumerics, ← mem_labelChars]
    exact ⟨⟨h.head_alphanumeric hfirst, h.last_alphanumeric hlast⟩, h.chars⟩

theorem matches_labelPattern {w : List Char} : w ∈ labelPattern.matches' ↔ Label w := by
  rw [labelPattern, matches'_mul, Language.mem_mul]
  simp only [matches_oneOf, matches_optional, matches'_mul, Language.mem_mul, matches_star_oneOf]
  have hmem {c : Char} (hc : c ∈ alphanumerics) : c ∈ labelChars := List.mem_append_left _ hc
  constructor
  · rintro ⟨_, ⟨c, hc, rfl⟩, _, rfl | ⟨middle, hmiddle, _, ⟨d, hd, rfl⟩, rfl⟩, rfl⟩
    · have hne := ne_hyphen hc
      exact ⟨by simp, by simpa using hmem hc, by simpa using hne, by simpa using hne⟩
    · refine ⟨by simp, fun x hx => ?_, by simpa using ne_hyphen hc, ?_⟩
      · simp only [List.cons_append, List.nil_append, List.mem_cons, List.mem_append,
          List.not_mem_nil, or_false] at hx
        rcases hx with rfl | hx | rfl
        · exact hmem hc
        · exact hmiddle x hx
        · exact hmem hd
      · rw [← List.append_assoc, List.getLast?_concat]
        simpa using ne_hyphen hd
  · -- Of the ways to match a label, the one in which all but its ends is the middle.
    intro h
    obtain ⟨c, rest, rfl⟩ := List.exists_cons_of_ne_nil h.ne_nil
    refine ⟨[c], ⟨c, h.head_alphanumeric rfl, rfl⟩, rest, ?_, rfl⟩
    cases rest using List.reverseRecOn with
    | nil => exact .inl rfl
    | append_singleton middle d =>
      have hlast : (c :: (middle ++ [d])).getLast? = some d := by
        rw [← List.cons_append, List.getLast?_concat]
      exact .inr ⟨middle, fun x hx => h.chars x (by simp [hx]), [d],
        ⟨d, h.last_alphanumeric hlast, rfl⟩, rfl⟩

theorem matches_dotLabel {w : List Char} :
    w ∈ (char '.' * labelPattern).matches' ↔ ∃ l, Label l ∧ w = '.' :: l := by
  rw [matches'_mul, Language.mem_mul]
  simp only [matches_char, matches_labelPattern]
  constructor
  · rintro ⟨_, rfl, l, hl, rfl⟩
    exact ⟨l, hl, rfl⟩
  · rintro ⟨l, hl, rfl⟩
    exact ⟨['.'], rfl, l, hl, rfl⟩

theorem matches_star_dotLabel {w : List Char} :
    w ∈ (star (char '.' * labelPattern)).matches' ↔
      ∃ ls : List (List Char), (∀ l ∈ ls, Label l) ∧ w = ls.flatMap ('.' :: ·) := by
  rw [matches'_star, Language.mem_kstar]
  constructor
  · rintro ⟨ws, rfl, hws⟩
    induction ws with
    | nil => exact ⟨[], by simp, rfl⟩
    | cons w ws ih =>
      obtain ⟨l, hl, rfl⟩ := matches_dotLabel.mp (hws w (by simp))
      obtain ⟨ls, hls, hrest⟩ := ih (fun w hw => hws w (by simp [hw]))
      exact ⟨l :: ls, by simpa [hl] using hls, by simp [hrest]⟩
  · rintro ⟨ls, hls, rfl⟩
    refine ⟨ls.map ('.' :: ·), List.flatMap_def .., fun y hy => ?_⟩
    obtain ⟨l, hl, rfl⟩ := List.mem_map.mp hy
    exact matches_dotLabel.mpr ⟨l, hls l hl, rfl⟩

theorem matches_domainPattern {w : List Char} :
    w ∈ domainPattern.matches' ↔
      ∃ labels : List (List Char), w = ['.'].intercalate labels ∧ 2 ≤ labels.length ∧
        ∀ l ∈ labels, Label l := by
  rw [domainPattern, matches'_mul, matches'_mul, Language.mem_mul]
  simp only [Language.mem_mul, matches_labelPattern, matches_dotLabel, matches_star_dotLabel]
  constructor
  · rintro ⟨l, hl, _, ⟨_, ⟨l', hl', rfl⟩, _, ⟨ls, hls, rfl⟩, rfl⟩, rfl⟩
    refine ⟨l :: l' :: ls, by simp [Text.intercalate_cons], by simp, ?_⟩
    simpa [hl, hl'] using hls
  · rintro ⟨labels, rfl, htwo, hlabels⟩
    match labels, htwo with
    | l :: l' :: ls, _ =>
      simp only [List.mem_cons, forall_eq_or_imp] at hlabels
      obtain ⟨hl, hl', hls⟩ := hlabels
      refine ⟨l, hl, _, ⟨_, ⟨l', hl', rfl⟩, _, ⟨ls, hls, rfl⟩, rfl⟩, ?_⟩
      simp [Text.intercalate_cons]

theorem at_not_mem_local {localPart : List Char} (h : ∀ c ∈ localPart, c ∈ localChars) :
    '@' ∉ localPart :=
  fun hm => absurd (h '@' hm) (by decide)

theorem at_not_mem_domain {labels : List (List Char)} (h : ∀ l ∈ labels, Label l) :
    '@' ∉ ['.'].intercalate labels := by
  intro hm
  rcases Text.mem_intercalate hm with heq | ⟨l, hl, hm⟩
  · cases heq
  · exact absurd ((h l hl).chars '@' hm) (by decide)

/-- Neither part of an address can hold another `@`. -/
theorem addressOf_parts {localPart : List Char} {labels : List (List Char)} (hne : localPart ≠ [])
    (hchars : ∀ c ∈ localPart, c ∈ localChars) (htwo : 2 ≤ labels.length)
    (hlabels : ∀ l ∈ labels, Label l) :
    AddressOf (localPart ++ '@' :: ['.'].intercalate labels) localPart labels := by
  refine ⟨rfl, ?_, hne, hchars, htwo, hlabels⟩
  rw [List.count_append, List.count_cons_self, List.count_eq_zero.mpr (at_not_mem_local hchars),
    List.count_eq_zero.mpr (at_not_mem_domain hlabels)]

theorem isEmail_iff {s : String} : isEmail s ↔ IsAddress s := by
  constructor
  · intro h
    unfold isEmail at h
    split at h
    · rename_i localPart domain hpieces
      simp only [isDomain, Bool.and_eq_true, Bool.not_eq_true', List.isEmpty_eq_false_iff,
        List.all_eq_true, decide_eq_true_eq, ← mem_localChars, isLabel_iff] at h
      obtain ⟨⟨hne, hchars⟩, htwo, hlabels⟩ := h
      have htext : localPart ++ '@' :: domain = s.toList := by
        simpa [hpieces] using Text.intercalate_pieces '@' s.toList
      have haddress := addressOf_parts hne hchars htwo hlabels
      rw [Text.intercalate_pieces, htext] at haddress
      exact ⟨localPart, Text.pieces '.' domain, haddress⟩
    · cases h
  · rintro ⟨localPart, labels, h⟩
    have hdot (l : List Char) (hl : l ∈ labels) : '.' ∉ l :=
      fun hm => absurd ((h.labels l hl).chars '.' hm) (by decide)
    have hne : labels ≠ [] := by
      rintro rfl
      simpa using h.two
    have hat : ∀ p ∈ [localPart, ['.'].intercalate labels], '@' ∉ p := by
      simpa using ⟨at_not_mem_local h.chars, at_not_mem_domain h.labels⟩
    have hpieces : Text.pieces '@' s.toList = [localPart, ['.'].intercalate labels] := by
      rw [h.text, ← Text.pieces_intercalate hat (by simp)]
      simp
    simp only [isEmail, hpieces, isDomain, Text.pieces_intercalate hdot hne, Bool.and_eq_true,
      Bool.not_eq_true', List.isEmpty_eq_false_iff, List.all_eq_true, decide_eq_true_eq,
      ← mem_localChars, isLabel_iff]
    exact ⟨⟨h.ne_nil, h.chars⟩, h.two, h.labels⟩

/-- A line break at the end is not passed over. -/
example : isEmail "a@b.co" = true ∧ isEmail "a@b.co\n" = false := by decide +kernel

theorem matches_emailPattern {s : String} : s.toList ∈ emailPattern.matches' ↔ IsAddress s := by
  rw [emailPattern, matches'_mul, matches'_mul, Language.mem_mul]
  simp only [Language.mem_mul, matches_repeated_oneOf, matches_char, matches_domainPattern]
  constructor
  · rintro ⟨_, ⟨localPart, ⟨hne, hchars⟩, _, rfl, rfl⟩, _, ⟨labels, rfl, htwo, hlabels⟩, htext⟩
    refine ⟨localPart, labels, ?_⟩
    rw [← htext, List.append_assoc]
    exact addressOf_parts hne hchars htwo hlabels
  · rintro ⟨localPart, labels, h⟩
    refine ⟨localPart ++ ['@'], ⟨localPart, ⟨h.ne_nil, h.chars⟩, ['@'], rfl, rfl⟩,
      ['.'].intercalate labels, ⟨labels, rfl, h.two, h.labels⟩, ?_⟩
    rw [h.text, List.append_assoc]
    rfl

/-! ### Locale tags -/

/-- What may follow the language of a tag. -/
inductive Region : List Char → Prop
  | none : Region []
  | letters {separator : Char} {cs : List Char} (hseparator : separator ∈ ['_', '-'])
      (htwo : 2 ≤ cs.length) (hfour : cs.length ≤ 4) (hletters : ∀ c ∈ cs, c ∈ letters) :
      Region (separator :: cs)

structure TagOf (w language region : List Char) : Prop where
  text : w = language ++ region
  two : 2 ≤ language.length
  three : language.length ≤ 3
  chars : ∀ c ∈ language, c ∈ lowerLetters
  region : Region region

def IsTag (s : String) : Prop := ∃ language region, TagOf s.toList language region

def localePattern : RegularExpression Char :=
  counted (oneOf lowerLetters) 2 3 * (1 + oneOf ['_', '-'] * counted (oneOf letters) 2 4)

theorem isRegion_iff {cs : List Char} : isRegion cs ↔ Region cs := by
  cases cs with
  | nil => exact ⟨fun _ => .none, fun _ => rfl⟩
  | cons c cs =>
    simp only [isRegion, Bool.and_eq_true, Bool.or_eq_true, decide_eq_true_eq, List.all_eq_true,
      ← mem_letters]
    constructor
    · rintro ⟨⟨⟨hc, htwo⟩, hfour⟩, hletters⟩
      exact .letters (by simpa using hc) htwo hfour hletters
    · rintro ⟨⟩
      rename_i hseparator htwo hfour hletters
      exact ⟨⟨⟨by simpa using hseparator, htwo⟩, hfour⟩, hletters⟩

/-- The language goes as far as the lower-case letters do. -/
theorem TagOf.takeWhile_eq {w language region : List Char} (h : TagOf w language region) :
    w.takeWhile Char.isLower = language := by
  have hlower : ∀ c ∈ language, c.isLower := fun c hc => mem_lowerLetters.mp (h.chars c hc)
  have hregion : region.takeWhile Char.isLower = [] := by
    cases h.region with
    | none => rfl
    | letters hseparator =>
      have hsigns : ['_', '-'].all (fun c => !c.isLower) := by decide
      have hsign := List.all_eq_true.mp hsigns _ hseparator
      exact List.takeWhile_cons_of_neg (by simpa using hsign)
  rw [h.text, List.takeWhile_append_of_pos hlower, hregion, List.append_nil]

theorem isLocale_iff {s : String} : isLocale s ↔ IsTag s := by
  simp only [isLocale, Bool.and_eq_true, decide_eq_true_eq, isRegion_iff]
  constructor
  · rintro ⟨⟨htwo, hthree⟩, hregion⟩
    refine ⟨_, _, ?_, htwo, hthree, fun c hc => ?_, hregion⟩
    · have hstart : s.toList.takeWhile Char.isLower <+: s.toList := List.takeWhile_prefix _
      exact (List.prefix_iff_eq_append.mp hstart).symm
    · exact mem_lowerLetters.mpr (List.all_eq_true.mp List.all_takeWhile c hc)
  · rintro ⟨language, region, h⟩
    rw [h.takeWhile_eq, h.text, List.drop_left]
    exact ⟨⟨h.two, h.three⟩, h.region⟩

theorem matches_region {w : List Char} :
    w ∈ (1 + oneOf ['_', '-'] * counted (oneOf letters) 2 4).matches' ↔ Region w := by
  rw [matches_optional, matches'_mul, Language.mem_mul]
  simp only [matches_oneOf, matches_counted_oneOf]
  constructor
  · rintro (rfl | ⟨_, ⟨separator, hs, rfl⟩, cs, ⟨⟨htwo, hfour⟩, hletters⟩, rfl⟩)
    · exact .none
    · exact .letters hs htwo hfour hletters
  · rintro (_ | ⟨hs, htwo, hfour, hletters⟩)
    · exact .inl rfl
    · exact .inr ⟨[_], ⟨_, hs, rfl⟩, _, ⟨⟨htwo, hfour⟩, hletters⟩, rfl⟩

theorem matches_localePattern {s : String} : s.toList ∈ localePattern.matches' ↔ IsTag s := by
  rw [localePattern, matches'_mul, Language.mem_mul]
  simp only [matches_counted_oneOf, matches_region]
  constructor
  · rintro ⟨language, ⟨⟨htwo, hthree⟩, hchars⟩, region, hregion, htext⟩
    exact ⟨language, region, htext.symm, htwo, hthree, hchars, hregion⟩
  · rintro ⟨language, region, h⟩
    exact ⟨language, ⟨⟨h.two, h.three⟩, h.chars⟩, region, h.region, h.text.symm⟩

/-! ### Visible characters -/

/-- A character of ASCII that is no white space, so no line break either. -/
def IsVisible (c : Char) : Prop := c.toNat < 128 ∧ Text.isSpace c = false

theorem isVisible_of_mem {c : Char} (h : c ∈ '@' :: localChars) : IsVisible c := by
  have htable : ('@' :: localChars).all (fun c => c.toNat < 128 && !Text.isSpace c) := by decide
  simpa [IsVisible] using List.all_eq_true.mp htable c h

theorem mem_localChars_of_label {c : Char} (h : c ∈ labelChars) : c ∈ localChars := by
  rcases mem_labelChars.mp h with h | rfl
  · exact List.mem_append_left _ h
  · decide

theorem IsAddress.isVisible {s : String} (h : IsAddress s) {c : Char} (hc : c ∈ s.toList) :
    IsVisible c := by
  obtain ⟨localPart, labels, h⟩ := h
  refine isVisible_of_mem ?_
  rw [h.text] at hc
  rcases List.mem_append.mp hc with hc | hc
  · exact List.mem_cons_of_mem _ (h.chars c hc)
  · rcases List.mem_cons.mp hc with rfl | hc
    · exact List.mem_cons_self
    · rcases Text.mem_intercalate hc with rfl | ⟨l, hl, hc⟩
      · decide
      · exact List.mem_cons_of_mem _ (mem_localChars_of_label ((h.labels l hl).chars c hc))

theorem IsTag.isVisible {s : String} (h : IsTag s) {c : Char} (hc : c ∈ s.toList) :
    IsVisible c := by
  obtain ⟨language, region, h⟩ := h
  have hletter {c : Char} (hc : c ∈ letters) : IsVisible c :=
    isVisible_of_mem (List.mem_cons_of_mem _ (List.mem_append_left _ (List.mem_append_left _ hc)))
  rw [h.text] at hc
  rcases List.mem_append.mp hc with hc | hc
  · exact hletter (List.mem_append_right _ (h.chars c hc))
  · cases h.region with
    | none => cases hc
    | letters hseparator _ _ hregion =>
      rcases List.mem_cons.mp hc with rfl | hc
      · have hsigns : ['_', '-'] ⊆ '@' :: localChars := by simp [localChars]
        exact isVisible_of_mem (hsigns hseparator)
      · exact hletter (hregion c hc)

end Format
end ObjectDepot
