/-!
White space in the sense of Unicode's White_Space property, trimming, and blank strings. A blank
string is one that trimming leaves empty.
-/

namespace ObjectDepot.Text

/-- The 25 characters with the property White_Space. -/
def isSpace (c : Char) : Bool :=
  let n := c.val.toNat
  (9 ≤ n && n ≤ 13) || n = 0x20 || n = 0x85 || n = 0xA0 || n = 0x1680 ||
    (0x2000 ≤ n && n ≤ 0x200A) || n = 0x2028 || n = 0x2029 || n = 0x202F || n = 0x205F || n = 0x3000

def trimLeft (cs : List Char) : List Char := cs.dropWhile isSpace

def trimRight (cs : List Char) : List Char := (trimLeft cs.reverse).reverse

def trim (s : String) : String := String.ofList (trimRight (trimLeft s.toList))

def isBlank (s : String) : Bool := s.toList.all isSpace

theorem trimLeft_eq_nil_iff {cs : List Char} : trimLeft cs = [] ↔ cs.all isSpace = true := by
  induction cs with
  | nil => simp [trimLeft]
  | cons c cs ih =>
    cases h : isSpace c
    · simp [trimLeft, h]
    · rw [trimLeft, List.dropWhile_cons_of_pos h, List.all_cons, h, Bool.true_and]
      exact ih

theorem trimRight_eq_nil_iff {cs : List Char} : trimRight cs = [] ↔ cs.all isSpace = true := by
  simp [trimRight, trimLeft_eq_nil_iff]

theorem all_trimLeft (cs : List Char) : (trimLeft cs).all isSpace = cs.all isSpace := by
  induction cs with
  | nil => rfl
  | cons c cs ih =>
    cases h : isSpace c <;> simp_all [trimLeft]

/-- A text is blank just in case nothing is left of it once it is trimmed. -/
theorem trim_eq_empty_iff {s : String} : trim s = "" ↔ isBlank s = true := by
  rw [isBlank, ← all_trimLeft, ← trimRight_eq_nil_iff, trim]
  constructor
  · intro h
    simpa using congrArg String.toList h
  · intro h
    rw [h]

end ObjectDepot.Text
