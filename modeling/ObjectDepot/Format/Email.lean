import ObjectDepot.Text.Pieces

/-!
Email addresses: a local part and a domain around one `@`. The local part is made of letters,
digits and a few signs; the domain has two or more labels joined by dots.
-/

namespace ObjectDepot.Format

def isAlphanumeric (c : Char) : Bool := c.isAlpha || c.isDigit

def isLocalChar (c : Char) : Bool :=
  isAlphanumeric c || c = '.' || c = '_' || c = '%' || c = '+' || c = '-'

/-- Letters, digits and hyphens; hyphens only inside. -/
def isLabel (cs : List Char) : Bool :=
  match cs.head?, cs.getLast? with
  | some first, some last =>
    isAlphanumeric first && isAlphanumeric last && cs.all (fun c => isAlphanumeric c || c = '-')
  | _, _ => false

def isDomain (cs : List Char) : Bool :=
  let labels := Text.pieces '.' cs
  2 ≤ labels.length && labels.all isLabel

def isEmail (s : String) : Bool :=
  match Text.pieces '@' s.toList with
  | [localPart, domain] => !localPart.isEmpty && localPart.all isLocalChar && isDomain domain
  | _ => false

end ObjectDepot.Format
