import Comparand.Number.Decimal

/-!
# The shortest decimal of a double

A finite double that is not zero has a decimal of at most seventeen digits that reads back to it.
`Shortest.digits` takes the least number of digits for which one exists, and of two candidates the
one nearer to the double; which of two equally near ones it takes is left to a `Tie`.

`Shortest.positional` writes a double without an exponent, padding with zeros on either side of the
point. That is how numbers look in texts, in messages and in substituted formulas.
-/
namespace Comparand.Shortest

-- Powers are those of the core library, whatever else is imported.
attribute [local instance (high)] instPowNat

/-- What to do with a double that lies halfway between two decimals of the shortest length. -/
inductive Tie where
  | up
  | even
  deriving DecidableEq, Repr

/-- The exact ratio that the magnitude of a finite double is. -/
def ratio (x : Float) : Nat × Nat :=
  match Binary64.exponent x with
  | .ofNat e => (Binary64.significand x * 2 ^ e, 1)
  | .negSucc e => (Binary64.significand x, 2 ^ (e + 1))

/-- `num / den * 10 ^ shift`, again as a ratio. -/
def shiftDecimal (num den : Nat) : Int → Nat × Nat
  | .ofNat e => (num * 10 ^ e, den)
  | .negSucc e => (num, den * 10 ^ (e + 1))

/-- The decimal order of magnitude of a positive ratio: `10 ^ k ≤ num / den < 10 ^ (k + 1)`. -/
def magnitude (num den : Nat) : Int :=
  let guess : Int := ((num.log2 : Int) - den.log2) * 30103 / 100000
  let atLeast (k : Int) : Bool :=
    let (n, d) := shiftDecimal num den (-k)
    d ≤ n
  if atLeast (guess + 1) then guess + 1 else if atLeast guess then guess else guess - 1

/-- Drops the zeros at the end of a mantissa. -/
def trimZeros (mantissa : Nat) (exponent : Int) : Nat × Int :=
  if h : mantissa ≠ 0 ∧ mantissa % 10 = 0 then trimZeros (mantissa / 10) (exponent + 1)
  else (mantissa, exponent)
termination_by mantissa
decreasing_by omega

/-- Whether `mantissa * 10 ^ exponent` reads back to the magnitude of `x`. -/
def readsBack (x : Float) (mantissa : Nat) (exponent : Int) : Bool :=
  Decimal.toFloat (Binary64.isNegative x) mantissa exponent = x

/-- Whether the upper neighbour on a decimal grid comes first, given the ratio on that grid. -/
def prefersUpper (tie : Tie) (num den : Nat) : Bool :=
  match compare (2 * (num % den)) den with
  | .lt => false
  | .gt => true
  | .eq => tie = .up || num / den % 2 = 1

/-- The two neighbours of a ratio on the grid of integers, the preferred one first. -/
def neighbours (tie : Tie) (num den : Nat) : List Nat :=
  let below := num / den
  let above := if num % den = 0 then below else below + 1
  if prefersUpper tie num den then [above, below] else [below, above]

/-- The decimal with at most `count` digits that reads back to `x`, if there is one. -/
def withDigits? (tie : Tie) (x : Float) (count : Nat) : Option (Nat × Int) :=
  let (num, den) := ratio x
  let exponent := magnitude num den + 1 - count
  let (n, d) := shiftDecimal num den (-exponent)
  let candidates := (neighbours tie n d).map (trimZeros · exponent)
  candidates.find? fun (m, e) => readsBack x m e

/-- All digits of a finite double. -/
def exact (x : Float) : Nat × Int :=
  match Binary64.exponent x with
  | .ofNat e => (Binary64.significand x * 2 ^ e, 0)
  | .negSucc e => (Binary64.significand x * 5 ^ (e + 1), .negSucc e)

/-- Mantissa and exponent of the shortest decimal that reads back to `x`. -/
def digits (tie : Tie) (x : Float) : Nat × Int :=
  ((List.range' 1 17).findSome? (withDigits? tie x)).getD (exact x)

/-- Writes `mantissa * 10 ^ exponent` without an exponent. -/
def layout (mantissa : Nat) (exponent : Int) : List Char :=
  let ds := Nat.toDigits 10 mantissa
  match exponent with
  | .ofNat e => if mantissa = 0 then ds else ds ++ List.replicate e '0'
  | .negSucc e =>
    if e + 1 < ds.length then
      ds.take (ds.length - (e + 1)) ++ '.' :: ds.drop (ds.length - (e + 1))
    else
      '0' :: '.' :: List.replicate (e + 1 - ds.length) '0' ++ ds

/-- The digits of a finite double in positional notation, without its sign. -/
def positionalMagnitude (x : Float) : List Char :=
  if Binary64.significand x = 0 then ['0'] else
    layout (digits .up x).1 (digits .up x).2

/--
A double in positional notation: the fewest digits that read back, no exponent, no point behind an
integer, a sign also before negative zero.
-/
def positional (x : Float) : String :=
  if x.isNaN then "NaN"
  else
    let body := if x.isInf then "inf".toList else positionalMagnitude x
    String.ofList (if Binary64.isNegative x then '-' :: body else body)

end Comparand.Shortest
