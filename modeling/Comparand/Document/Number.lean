import Comparand.Document

/-!
# Numbers in documents

An integer that fits a signed or an unsigned word is kept exactly, but for negative zero. Any other
number becomes a double by a fast rule, which may miss the nearest one by a unit in the last place:
as many digits as fit an unsigned word are rounded to a double, and that is multiplied or divided by
a power of ten. A number too large for a double is refused, one too small is zero.
-/
namespace Comparand.Document

-- Powers are those of the core library, whatever else is imported.
attribute [local instance (high)] instPowNat

/-- The parts of a number as written. -/
structure Numeral where
  negative : Bool
  whole : List Char
  fraction : List Char
  exponent : Option Int

namespace Numeral

/--
Appends digits to a significand while it fits an unsigned word, and counts those that were appended.
-/
def appendDigits (significand : Nat) : List Char → Nat × Nat
  | [] => (significand, 0)
  | digit :: rest =>
    let next := significand * 10 + (digit.toNat - '0'.toNat)
    if next < 2 ^ (64 : Nat) then
      let (result, count) := appendDigits next rest
      (result, count + 1)
    else (significand, 0)

/-- The largest power of ten that is a double. -/
def maxPower : Nat := 308

def powerOfTen (e : Nat) : Float := Decimal.toFloat false 1 e

/-- Divides by a power of ten, in several steps if it is larger than a double can be. -/
def divideByPower (x : Float) (e : Nat) : Float :=
  if e ≤ maxPower then x / powerOfTen e
  else if x == 0 then x
  else divideByPower (x / powerOfTen maxPower) (e - maxPower)
termination_by e
decreasing_by simp only [maxPower] at *; omega

/-- A significand times a power of ten, unless it is too large. -/
def scale? (significand : Nat) (exponent : Int) : Option Float :=
  let x := Binary64.ofRatio false significand 1
  match exponent with
  | .ofNat e =>
    if significand = 0 then some x
    else if e ≤ maxPower then
      let product := x * powerOfTen e
      if product.isInf then none else some product
    else none
  | .negSucc e => some (divideByPower x (e + 1))

/-- The double that a number is read as. -/
def real? (numeral : Numeral) : Option Float := do
  let (significand, taken) := appendDigits 0 numeral.whole
  let (significand, places) := appendDigits significand numeral.fraction
  let dropped := numeral.whole.length - taken
  let x ← scale? significand (dropped - places + numeral.exponent.getD 0)
  return if numeral.negative then -x else x

/-- The integer that a number is, if it is written like one and kept as one. -/
def integer? (numeral : Numeral) : Option Int :=
  if numeral.fraction = [] ∧ numeral.exponent = none then
    let n := Decimal.ofDigits numeral.whole
    if numeral.negative then if 0 < n ∧ n ≤ 2 ^ (63 : Nat) then some (-n) else none
    else if n < 2 ^ (64 : Nat) then some n else none
  else none

def document? (numeral : Numeral) : Option Document :=
  match numeral.integer? with
  | some n => some (.integer n)
  | none => numeral.real?.map .real

end Numeral

end Comparand.Document
