import Comparand.Number.Binary64

/-!
# Reading decimal numerals as doubles

`Decimal.toFloat` is the double nearest to `mantissa * 10 ^ exponent`; `Decimal.read?` reads a whole
text: an optional sign, then `inf`, `infinity` or `nan` in any letter case, or digits with at most
one point, at least one digit in all, and an optional exponent. Nothing else is a numeral, blanks
included.
-/
namespace Comparand.Decimal

-- Powers are those of the core library, whatever else is imported.
attribute [local instance (high)] instPowNat

/-- The number that a run of digits spells. -/
def ofDigits (digits : List Char) : Nat := Nat.ofDigitChars 10 digits 0

/--
The double nearest to `mantissa * 10 ^ exponent`. Far outside the range of doubles the answer is
known without the power of ten being written out.
-/
def toFloat (negative : Bool) (mantissa : Nat) (exponent : Int) : Float :=
  if mantissa = 0 then Binary64.ofRatio negative 0 1 else
    match exponent with
    | .ofNat e =>
      if 400 < e then Binary64.infinity negative
      else Binary64.ofRatio negative (mantissa * 10 ^ e) 1
    | .negSucc e =>
      if mantissa.log2 + 1100 < 3 * (e + 1) then Binary64.ofRatio negative 0 1
      else Binary64.ofRatio negative mantissa (10 ^ (e + 1))

/-- Takes a leading sign away and says whether it was a minus. -/
def splitSign : List Char → Bool × List Char
  | '-' :: rest => (true, rest)
  | '+' :: rest => (false, rest)
  | text => (false, text)

/-- The exponent part of a numeral: nothing, or a marker, a sign and at least one digit. -/
def exponentPart? : List Char → Option Int
  | [] => some 0
  | marker :: rest =>
    let (negative, digits) := splitSign rest
    if (marker = 'e' ∨ marker = 'E') ∧ digits ≠ [] ∧ digits.all Char.isDigit then
      some (if negative then -(ofDigits digits : Int) else ofDigits digits)
    else none

/-- A numeral without sign, as mantissa and exponent. -/
def unsigned? (text : List Char) : Option (Nat × Int) :=
  let whole := text.takeWhile Char.isDigit
  let rest := text.dropWhile Char.isDigit
  match rest with
  | '.' :: rest =>
    let fraction := rest.takeWhile Char.isDigit
    if whole = [] ∧ fraction = [] then none else
      (exponentPart? (rest.dropWhile Char.isDigit)).map fun e =>
        (ofDigits (whole ++ fraction), e - fraction.length)
  | rest =>
    if whole = [] then none else (exponentPart? rest).map fun e => (ofDigits whole, e)

/-- Reads a whole text as a double. -/
def read? (text : List Char) : Option Float :=
  let (negative, body) := splitSign text
  let word := body.map Char.toLower
  if word = "inf".toList ∨ word = "infinity".toList then some (Binary64.infinity negative)
  else if word = "nan".toList then some Binary64.nan
  else (unsigned? body).map fun (mantissa, e) => toFloat negative mantissa e

end Comparand.Decimal
