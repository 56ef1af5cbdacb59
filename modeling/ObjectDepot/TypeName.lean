/-!
Names of object types. A type is named in the singular; its plural names the collection and is
derived by the regular English rules. The singular cannot be told from the plural: `box` and `boxe`
share `boxes`.
-/

namespace ObjectDepot.TypeName

def isAsciiAlphanumeric (c : Char) : Bool := c.isAlpha || c.isDigit

/-- Letters, digits, underscores and hyphens, all ASCII, starting with a letter or digit. -/
def isValid (name : String) : Bool :=
  match name.toList with
  | [] => false
  | c :: rest =>
    isAsciiAlphanumeric c && rest.all (fun c => isAsciiAlphanumeric c || c = '_' || c = '-')

def isVowel (c : Char) : Bool := ['a', 'e', 'i', 'o', 'u'].contains c.toLower

/-- Whether a word, given from its end, takes `es`. -/
def endsInSibilant : List Char → Bool
  | c :: rest =>
    let c := c.toLower
    c = 's' || c = 'x' || c = 'z' ||
      (c = 'h' && match rest with
        | d :: _ => d.toLower = 'c' || d.toLower = 's'
        | [] => false)
  | [] => false

/-- A final `y` behind anything but a vowel becomes `ies`, a sibilant takes `es` and any other end
takes `s`. -/
def pluralize (singular : String) : String :=
  match singular.toList.reverse with
  | [] => ""
  | c :: stem =>
    let endsInY := c = 'y' || c = 'Y'
    match stem with
    | d :: _ =>
      if endsInY && !isVowel d then String.ofList (stem.reverse ++ ['i', 'e', 's'])
      else if endsInSibilant (c :: stem) then singular ++ "es"
      else singular ++ "s"
    | [] => if endsInSibilant [c] then singular ++ "es" else singular ++ "s"

end ObjectDepot.TypeName
