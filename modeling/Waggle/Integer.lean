/-!
# Script integers

The integers of a script are the signed words of 64 bits. An operation is computed exactly
over the integers and then brought back: `fit?` refuses a result outside the range, and
`clamp` takes the nearest word.
-/

namespace Waggle.Integer

/-- The least word. -/
def least : Int := -9223372036854775808

/-- The greatest word. -/
def greatest : Int := 9223372036854775807

/-- An integer as a word, if it is in range. -/
def fit? (number : Int) : Option Int64 :=
  if least ≤ number ∧ number ≤ greatest then some (Int64.ofInt number) else none

/-- The word nearest to an integer. -/
def clamp (number : Int) : Int64 :=
  Int64.ofInt (max least (min greatest number))

/-- A word is in range. -/
theorem inRange (word : Int64) : least ≤ word.toInt ∧ word.toInt ≤ greatest := by
  have low := word.le_toInt
  have high := word.toInt_lt
  unfold least greatest
  omega

/-- The word nearest to an integer has the value of the nearest integer in range. -/
theorem toInt_clamp (number : Int) : (clamp number).toInt = max least (min greatest number) := by
  unfold clamp least greatest
  apply Int64.toInt_ofInt_of_le
  · omega
  · omega

/-- An integer fits exactly when it is in range, and then keeps its value. -/
theorem fit?_eq_some_iff {number : Int} {word : Int64} :
    fit? number = some word ↔ word.toInt = number := by
  constructor
  · intro fits
    unfold fit? at fits
    split at fits
    · rename_i range
      cases fits
      unfold least greatest at range
      exact Int64.toInt_ofInt_of_le (by omega) (by omega)
    · cases fits
  · rintro rfl
    unfold fit?
    rw [if_pos (inRange word), Int64.ofInt_toInt]

end Waggle.Integer
