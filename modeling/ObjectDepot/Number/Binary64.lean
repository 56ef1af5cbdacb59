import ObjectDepot.Number.Rounding

/-!
Finite double-precision numbers as exact values. A magnitude is `significand * 2 ^ exponent`, with
fewer than 54 bits in the significand and an exponent of at least -1074; every result is the double
nearest to the exact one, ties going to the even significand.
-/

namespace ObjectDepot

structure Magnitude where
  significand : Nat
  exponent : Int
  deriving DecidableEq, Repr

structure Binary64 where
  negative : Bool
  magnitude : Magnitude
  deriving DecidableEq, Repr

namespace Magnitude

def zero : Magnitude := ⟨0, -1074⟩

/-- The value as a quotient of naturals. -/
def ratio (m : Magnitude) : Nat × Nat :=
  match m.exponent with
  | .ofNat e => (m.significand * Nat.pow 2 e, 1)
  | .negSucc e => (m.significand, Nat.pow 2 (e + 1))

/-- The quotient of two naturals in units of `2 ^ e`. -/
def inUnits (num den : Nat) : Int → Nat × Nat
  | .ofNat e => (num, den * Nat.pow 2 e)
  | .negSucc e => (num * Nat.pow 2 (e + 1), den)

/-- The exponent at which a positive quotient has 53 bits before the point, but at least -1074. -/
def exponentFor (num den : Nat) : Int :=
  let low := (Nat.log2 num : Int) - Nat.log2 den - 53
  let (n, d) := inUnits num den low
  max (if n / d < Nat.pow 2 53 then low else low + 1) (-1074)

/-- The double nearest to `num / den`; none when that is beyond the largest one. -/
def ofRatio? (num den : Nat) : Option Magnitude :=
  if num = 0 then some zero
  else
    let e := exponentFor num den
    let (n, d) := inUnits num den e
    let s := roundHalfEven n d
    let m : Magnitude := if s = Nat.pow 2 53 then ⟨Nat.pow 2 52, e + 1⟩ else ⟨s, e⟩
    if 971 < m.exponent then none else some m

def mul? (a b : Magnitude) : Option Magnitude :=
  ofRatio? (a.ratio.1 * b.ratio.1) (a.ratio.2 * b.ratio.2)

def div? (a b : Magnitude) : Option Magnitude :=
  ofRatio? (a.ratio.1 * b.ratio.2) (a.ratio.2 * b.ratio.1)

def atMost (m : Magnitude) (bound : Nat) : Bool := m.ratio.1 ≤ bound * m.ratio.2

end Magnitude

end ObjectDepot
