/-!
Locale tags such as `en`, `en_GB` and `sr-Latn`.
-/

namespace ObjectDepot.Format

def isRegion : List Char → Bool
  | [] => true
  | c :: cs =>
    (c = '_' || c = '-') && 2 ≤ cs.length && cs.length ≤ 4 && cs.all Char.isAlpha

/-- Two or three lower-case letters, then nothing, or a separator and two to four letters. -/
def isLocale (s : String) : Bool :=
  let language := s.toList.takeWhile Char.isLower
  2 ≤ language.length && language.length ≤ 3 && isRegion (s.toList.drop language.length)

end ObjectDepot.Format
