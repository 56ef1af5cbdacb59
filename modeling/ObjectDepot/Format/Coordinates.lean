import ObjectDepot.Number.Binary64
import ObjectDepot.Text.Blank
import ObjectDepot.Text.Pieces

/-!
Coordinates such as `40.7128,-74.0060`: a latitude and a longitude in degrees, each rounded to a
double before it is compared with its bound.
-/

namespace ObjectDepot.Format

/-- A decimal number without its sign: `digits * 10 ^ exponent`. -/
structure Numeral where
  digits : Nat
  exponent : Int
  deriving DecidableEq, Repr

def digitsValue (cs : List Char) : Nat :=
  cs.foldl (fun n c => n * 10 + (c.val.toNat - 48)) 0

/-- How many digits of a numeral are taken in. A double, or the point midway between two of them,
has at most 767 significant digits, so of those behind the first 800 it matters only whether they
are all zero. -/
def significantDigits : Nat := 800

/-- The numeral of a row of digits and the exponent of its last one. Behind the significant digits
zeros go into the exponent, and anything else becomes a single digit one. -/
def Numeral.ofDigits (cs : List Char) (exponent : Int) : Numeral :=
  let cs := cs.dropWhile (· = '0')
  let first := digitsValue (cs.take significantDigits)
  let others := cs.drop significantDigits
  if others.all (· = '0') then ⟨first, exponent + others.length⟩
  else ⟨first * 10 + 1, exponent + others.length - 1⟩

/-- The value of an exponent's digits. No digit is taken in from 65536 on, where it no longer
matters. -/
def exponentValue (cs : List Char) : Nat :=
  cs.foldl (fun n c => if n < 65536 then n * 10 + (c.val.toNat - 48) else n) 0

/-- Takes off a sign; true is minus. -/
def takeSign : List Char → Bool × List Char
  | '-' :: cs => (true, cs)
  | '+' :: cs => (false, cs)
  | cs => (false, cs)

/-- Reads what follows the mantissa: nothing, or an exponent. -/
def exponent? : List Char → Option Int
  | [] => some 0
  | c :: cs =>
    if c = 'e' || c = 'E' then
      let (down, digits) := takeSign cs
      if digits.isEmpty || !digits.all Char.isDigit then none
      else
        let e : Int := exponentValue digits
        some (if down then -e else e)
    else none

/-- Digits with at most one point among or around them, and perhaps an exponent. -/
def numeral? (cs : List Char) : Option Numeral :=
  let whole := cs.takeWhile Char.isDigit
  let rest := cs.dropWhile Char.isDigit
  let (fraction, rest) := match rest with
    | '.' :: rest => (rest.takeWhile Char.isDigit, rest.dropWhile Char.isDigit)
    | _ => ([], rest)
  if whole.isEmpty && fraction.isEmpty then none
  else (exponent? rest).map (fun e => Numeral.ofDigits (whole ++ fraction) (e - fraction.length))

/-- The double nearest to a numeral; none beyond the largest one. Numerals far outside the range of
doubles are decided by their length. -/
def Numeral.magnitude? (n : Numeral) : Option Magnitude :=
  if n.digits = 0 then some .zero
  else
    let position := digitCount n.digits + n.exponent
    if 310 < position then none
    else if position < -330 then some .zero
    else
      match n.exponent with
      | .ofNat k => Magnitude.ofRatio? (n.digits * Nat.pow 10 k) 1
      | .negSucc k => Magnitude.ofRatio? n.digits (Nat.pow 10 (k + 1))

/-- Whether text, blanks around it aside, is a number of at most the given size. -/
def isWithin (bound : Nat) (cs : List Char) : Bool :=
  let (_, cs) := takeSign (Text.trimRight (Text.trimLeft cs))
  match (numeral? cs).bind Numeral.magnitude? with
  | some m => m.atMost bound
  | none => false

/-- A latitude up to 90 and, behind the first comma, a longitude up to 180. -/
def isCoordinates (s : String) : Bool :=
  match Text.splitAtFirst? ',' s.toList with
  | some (latitude, longitude) => isWithin 90 latitude && isWithin 180 longitude
  | none => false

end ObjectDepot.Format
