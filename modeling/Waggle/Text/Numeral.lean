/-!
# Numerals

Natural numbers as digits of a base, most significant digit first and without leading zeros,
and integers as decimal text. Reading a run of digits is a fold (`value`), and reading what
was written returns the number: `value_digits`.
-/

namespace Waggle.Numeral

/-- The digit of a value below sixteen, in lower case. -/
def digit (value : Nat) : Char :=
  if value < 10 then Char.ofNat (48 + value) else Char.ofNat (87 + value)

/-- The digits of a number in a base of at least two. -/
def digits (base number : Nat) : List Char :=
  if number < base ∨ base < 2 then [digit number]
  else digits base (number / base) ++ [digit (number % base)]
termination_by number
decreasing_by
  rename_i large
  exact Nat.div_lt_self (by omega) (by omega)

/-- The value of a decimal digit. -/
def digitValue (character : Char) : Nat := character.toNat - 48

/-- The number that a run of decimal digits denotes. -/
def value (text : List Char) : Nat :=
  text.foldl (fun total character => 10 * total + digitValue character) 0

/-- A natural number as decimal text. -/
def ofNat (number : Nat) : String := String.ofList (digits 10 number)

/-- The decimal characters of an integer, with a minus sign in front of a negative one. -/
def signed : Int → List Char
  | .ofNat number => digits 10 number
  | .negSucc number => '-' :: digits 10 (number + 1)

/-- An integer as decimal text. -/
def ofInt (number : Int) : String := String.ofList (signed number)

/-- A decimal digit has the value that it was written for. -/
theorem digitValue_digit {number : Nat} (small : number < 10) :
    digitValue (digit number) = number := by
  have cases : number = 0 ∨ number = 1 ∨ number = 2 ∨ number = 3 ∨ number = 4 ∨ number = 5 ∨
      number = 6 ∨ number = 7 ∨ number = 8 ∨ number = 9 := by omega
  rcases cases with h | h | h | h | h | h | h | h | h | h <;> subst h <;> rfl

/-- Appending one digit multiplies by ten and adds its value. -/
theorem value_append_digit (text : List Char) (character : Char) :
    value (text ++ [character]) = 10 * value text + digitValue character := by
  simp [value, List.foldl_append]

/-- Reading the decimal digits of a number returns it. -/
theorem value_digits (number : Nat) : value (digits 10 number) = number := by
  induction number using Nat.strongRecOn with
  | ind number ih =>
    rw [digits]
    split
    · rename_i small
      simp [value, digitValue_digit (by omega : number < 10)]
    · rename_i large
      rw [value_append_digit, ih _ (Nat.div_lt_self (by omega) (by omega)),
        digitValue_digit (Nat.mod_lt _ (by omega))]
      omega

end Waggle.Numeral
