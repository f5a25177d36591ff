/-!
# Doubles

A double holds the first 53 bits of a natural number. `nearest` rounds a number of any size to
those bits, a tie to the even neighbour, and `limit` is the first number that is too large.
-/

namespace Waggle.Double

/-- The least number that is too large. -/
def limit : Nat := Nat.pow 2 1024

/-- What the last of the first 53 bits of a number counts. -/
def unit (number : Nat) : Nat := Nat.pow 2 (number.log2 - 52)

/-- How many units a number is rounded to, a half going to the even neighbour. -/
def units (number : Nat) : Nat :=
  let whole := number / unit number
  let twice := 2 * (number % unit number)
  if unit number < twice ∨ unit number = twice ∧ whole % 2 = 1 then whole + 1 else whole

/-- The nearest number that 53 bits hold. -/
def nearest (number : Nat) : Nat := units number * unit number

/-- A significand times a power of ten, both factors and then the product rounded. -/
def scale (significand exponent : Nat) : Nat :=
  nearest (nearest significand * nearest (Nat.pow 10 exponent))

end Waggle.Double
