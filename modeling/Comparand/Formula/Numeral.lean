/-!
# Numerals at the head of a text

A numeral is a run of digits with an optional fraction, or a point and a run of digits, and either
may carry an exponent. `numeralLength` is the length of the longest numeral that a text begins with:
each optional part is taken when it is there in full, so `1e` and `1e+` begin with the numeral `1`.
-/
namespace Comparand.Formula

/-- Length of the run of digits that a text begins with. -/
def digitRun (text : List Char) : Nat := (text.takeWhile Char.isDigit).length

/-- Length of the fraction: a point and the digits behind it, of which there may be none. -/
def fractionLength : List Char → Nat
  | '.' :: rest => 1 + digitRun rest
  | _ => 0

/-- Length of the exponent, zero if it has no digits. -/
def exponentLength : List Char → Nat
  | marker :: rest =>
    if marker = 'e' ∨ marker = 'E' then
      let signLength := match rest with
        | '+' :: _ => 1
        | '-' :: _ => 1
        | _ => 0
      let digits := digitRun (rest.drop signLength)
      if digits = 0 then 0 else 1 + signLength + digits
    else 0
  | [] => 0

/-- Length of the longest numeral at the head of a text, zero if there is none. -/
def numeralLength (text : List Char) : Nat :=
  let whole := digitRun text
  let fraction := fractionLength (text.drop whole)
  if whole = 0 ∧ fraction ≤ 1 then 0
  else whole + fraction + exponentLength (text.drop (whole + fraction))

end Comparand.Formula
