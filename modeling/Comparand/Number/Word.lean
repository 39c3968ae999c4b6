import Comparand.Number.Decimal

/-!
# Integers of sixty-four bits

Conversions between `Int64`, doubles and texts that lose nothing: where the result would not be
exact, or does not fit, there is none.
-/
namespace Comparand.Word

-- Powers are those of the core library, whatever else is imported.
attribute [local instance (high)] instPowNat

/-- The largest integer below which every integer is a double of its own. -/
def maxSafe : Nat := 2 ^ (53 : Nat) - 1

/-- The word with a given value, if the value fits. -/
def ofInt? (n : Int) : Option Int64 :=
  if -2 ^ (63 : Nat) ≤ n ∧ n < 2 ^ (63 : Nat) then some (Int64.ofInt n) else none

/-- The double equal to a word of magnitude at most `maxSafe`. -/
def toFloat? (n : Int64) : Option Float :=
  if n.toInt.natAbs ≤ maxSafe then some (Binary64.ofInt n.toInt) else none

/-- The word equal to a double. -/
def ofFloat? (x : Float) : Option Int64 := (Binary64.toInt? x).bind ofInt?

/-- The size of a collection as a word; sizes beyond the range of words count as the largest one. -/
def ofSize (n : Nat) : Int64 := Int64.ofNat (min n (2 ^ (63 : Nat) - 1))

/-- Reads a run of digits with an optional sign. -/
def read? (text : List Char) : Option Int64 :=
  let (negative, digits) := Decimal.splitSign text
  if digits ≠ [] ∧ digits.all Char.isDigit then
    ofInt? (if negative then -(Decimal.ofDigits digits : Int) else Decimal.ofDigits digits)
  else none

/-- Reads an unsigned word: digits, with an optional plus in front. -/
def readIndex? (text : List Char) : Option Nat :=
  let digits := match text with
    | '+' :: rest => rest
    | text => text
  if digits ≠ [] ∧ digits.all Char.isDigit ∧ Decimal.ofDigits digits < 2 ^ (64 : Nat) then
    some (Decimal.ofDigits digits)
  else none

end Comparand.Word
