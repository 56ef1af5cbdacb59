import ObjectDepot.Number.Binary64

/-!
The shortest decimal text of a double that reads back as the same double. Grids of one to seventeen
digits are tried in turn; on the first grid with a point that rounds to the number, the nearer of
the number's two neighbours is taken, and of two equally near ones the even one.

The text is positional from `1e-5` up to `1e16`, where a whole number keeps `.0`, and otherwise has
one digit before the point and an exponent.
-/

namespace ObjectDepot

/-- `digits * 10 ^ exponent`. -/
structure Decimal where
  digits : Nat
  exponent : Int
  deriving DecidableEq, Repr

namespace Magnitude

/-- Half the distance to the next double below, in quarters of the unit of the significand. The gap
below a power of two is half as wide. -/
def gapBelow (m : Magnitude) : Nat :=
  if m.significand = Nat.pow 2 52 ∧ -1074 < m.exponent then 1 else 2

/-- `10 ^ k` and a quarter of the unit of the significand, as naturals on one scale. -/
def commonScale (m : Magnitude) (k : Int) : Nat × Nat :=
  let unit := ratio ⟨1, m.exponent - 2⟩
  match k with
  | .ofNat k => (Nat.pow 10 k * unit.2, unit.1)
  | .negSucc k => (unit.2, unit.1 * Nat.pow 10 (k + 1))

/-- Whether a point rounds to the number, on a scale with the given quarter of the unit. The ends of
the interval belong to it when the significand is even. -/
def roundsHere (m : Magnitude) (quarter point : Nat) : Bool :=
  let low := (4 * m.significand - m.gapBelow) * quarter
  let high := (4 * m.significand + 2) * quarter
  if m.significand % 2 = 0 then low ≤ point && point ≤ high
  else low < point && point < high

/-- The number of decimal digits before the point, negative for zeros after it. -/
def decimalPosition (m : Magnitude) : Int :=
  let (num, den) := m.ratio
  let low := (digitCount num : Int) - digitCount den
  let reached : Bool := match low with
    | .ofNat k => den * Nat.pow 10 k ≤ num
    | .negSucc k => den ≤ num * Nat.pow 10 (k + 1)
  if reached then low + 1 else low

/-- The point of the grid of `10 ^ k` nearest to the number among those that round to it. -/
def onGrid? (m : Magnitude) (k : Int) : Option Nat :=
  let (step, quarter) := commonScale m k
  let value := 4 * m.significand * quarter
  let below := value / step
  let above := below + 1
  match roundsHere m quarter (below * step), roundsHere m quarter (above * step) with
  | true, true =>
    let twice := 2 * (value % step)
    if twice < step then some below
    else if step < twice then some above
    else if below % 2 = 0 then some below else some above
  | true, false => some below
  | false, true => some above
  | false, false => none

/-- Tries `tries` more grids, the coarsest first. -/
def shortestFrom (m : Magnitude) (k : Int) : Nat → Decimal
  | 0 => ⟨0, 0⟩
  | tries + 1 =>
    match m.onGrid? k with
    | some c => ⟨c, k⟩
    | none => shortestFrom m (k - 1) tries

def shortest (m : Magnitude) : Decimal := m.shortestFrom (m.decimalPosition - 1) 17

end Magnitude

def Decimal.trimmed (d : Decimal) : List Char × Int :=
  let cs := decimalDigits d.digits
  let zeros := (cs.reverse.takeWhile (· = '0')).length
  (cs.take (cs.length - zeros), d.exponent + zeros)

def zeros (n : Nat) : List Char := List.replicate n '0'

/-- The text of `digits * 10 ^ k`, given the digits. -/
def layout (digits : List Char) (k : Int) : List Char :=
  let point := (digits.length : Int) + k
  if 0 ≤ k ∧ point ≤ 16 then digits ++ zeros k.toNat ++ ['.', '0']
  else if 0 < point ∧ point ≤ 16 then
    digits.take point.toNat ++ '.' :: digits.drop point.toNat
  else if -5 < point ∧ point ≤ 0 then
    ['0', '.'] ++ zeros (-point).toNat ++ digits
  else
    let e := (toString (point - 1)).toList
    match digits with
    | [d] => d :: 'e' :: e
    | d :: rest => d :: '.' :: rest ++ 'e' :: e
    | [] => []

def Magnitude.text (m : Magnitude) : List Char :=
  if m.significand = 0 then ['0', '.', '0']
  else
    let (digits, k) := m.shortest.trimmed
    layout digits k

def Binary64.text (d : Binary64) : String :=
  String.ofList (if d.negative then '-' :: d.magnitude.text else d.magnitude.text)

end ObjectDepot
