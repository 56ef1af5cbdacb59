/-!
Rounding a quotient of natural numbers to the nearest integer, a half going to the even neighbour,
and decimal text with a fixed number of places.
-/

namespace ObjectDepot

def roundHalfEven (num den : Nat) : Nat :=
  let q := num / den
  let twice := 2 * (num % den)
  if twice < den then q
  else if den < twice then q + 1
  else q + q % 2

def decimalDigits (n : Nat) : List Char := Nat.toDigits 10 n

/-- The least `k` from a given one on with `n < 10 ^ k`. -/
def digitCountFrom (k n : Nat) : Nat :=
  if Nat.pow 10 k ≤ n then digitCountFrom (k + 1) n else k
termination_by n - k
decreasing_by
  have : k < Nat.pow 10 k := Nat.lt_pow_self (by decide)
  omega

/-- How many decimal digits a number has, none for zero. A number of `b + 1` bits is at least
`2 ^ b`, so that it has more than `3 * b / 10` digits. -/
def digitCount (n : Nat) : Nat := digitCountFrom (n.log2 * 3 / 10) n

def twoPlaces (num den : Nat) : String :=
  let n := roundHalfEven (100 * num) den
  let fraction := decimalDigits (n % 100)
  let zeros := List.replicate (2 - fraction.length) '0'
  String.ofList (decimalDigits (n / 100) ++ '.' :: zeros ++ fraction)

end ObjectDepot
