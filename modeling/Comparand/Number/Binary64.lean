/-!
# Doubles as exact numbers

The bits of a finite double name a number `significand * 2 ^ exponent`. This module reads that
number off (`significand`, `exponent`, `toInt?`) and goes back from an exact ratio of natural
numbers to the nearest double (`ofRatio`, ties to the even significand). Conversion of integers
and the reading of decimals both end in `ofRatio`, so one rounding rule serves the whole library.

Sums, products, quotients and comparisons are those of `Float`.
-/
namespace Comparand.Binary64

-- Powers are those of the core library, whatever else is imported: hence the exponents with a type.
attribute [local instance (high)] instPowNat

/-- The eleven bits below the sign. -/
def exponentField (x : Float) : Nat := x.toBits.toNat / 2 ^ (52 : Nat) % 2 ^ (11 : Nat)

/-- The fifty-two low bits. -/
def fractionField (x : Float) : Nat := x.toBits.toNat % 2 ^ (52 : Nat)

/-- Whether the sign bit is set, as it is for negative zero. -/
def isNegative (x : Float) : Bool := x.toBits.toNat / 2 ^ (63 : Nat) % 2 == 1

/-- Subnormal doubles lack the leading bit that all others have. -/
def significand (x : Float) : Nat :=
  if exponentField x = 0 then fractionField x else 2 ^ (52 : Nat) + fractionField x

def exponent (x : Float) : Int := (max 1 (exponentField x) : Nat) - 1075

/-- The integer that a finite double is, if it is one. -/
def toInt? (x : Float) : Option Int :=
  if x.isFinite then
    let signed (n : Nat) : Int := if isNegative x then -n else n
    match exponent x with
    | .ofNat e => some (signed (significand x * 2 ^ e))
    | .negSucc e =>
      if significand x % 2 ^ (e + 1) = 0 then some (signed (significand x / 2 ^ (e + 1))) else none
  else none

/-- Finite, and with nothing behind the point. -/
def isIntegral (x : Float) : Bool := (toInt? x).isSome

/-- The natural number nearest to `num / den`; a half goes to the even neighbour. -/
def roundHalfEven (num den : Nat) : Nat :=
  let below := num / den
  let rest := num % den
  if 2 * rest < den ∨ (2 * rest = den ∧ below % 2 = 0) then below else below + 1

/-- `num / den * 2 ^ (-scale)`, again as a ratio. -/
def scaleDown (num den : Nat) : Int → Nat × Nat
  | .ofNat e => (num, den * 2 ^ e)
  | .negSucc e => (num * 2 ^ (e + 1), den)

/-- The binary order of magnitude of a positive ratio: `2 ^ e ≤ num / den < 2 ^ (e + 1)`. -/
def magnitude (num den : Nat) : Int :=
  let guess : Int := num.log2 - den.log2
  let (n, d) := scaleDown num den guess
  if d ≤ n then guess else guess - 1

/-- The bits of infinity. -/
def infinityBits : Nat := 2047 * 2 ^ (52 : Nat)

/--
The bits of the double nearest to `num / den`. A significand that rounds up to `2 ^ 53` carries
into the exponent field, and all that does not fit becomes infinity.
-/
def nearestBits (num den : Nat) : Nat :=
  if num = 0 then 0 else
    let e := max (magnitude num den - 52) (-1074)
    let (n, d) := scaleDown num den e
    min ((e + 1074).toNat * 2 ^ (52 : Nat) + roundHalfEven n d) infinityBits

/-- Puts a sign in front of the bits of a magnitude. -/
def ofMagnitudeBits (negative : Bool) (bits : Nat) : Float :=
  Float.ofBits (UInt64.ofNat (if negative then 2 ^ (63 : Nat) + bits else bits))

/-- The double nearest to `num / den`, negated on demand. -/
def ofRatio (negative : Bool) (num den : Nat) : Float :=
  ofMagnitudeBits negative (nearestBits num den)

/-- The double nearest to an integer. -/
def ofInt (n : Int) : Float := ofRatio (n < 0) n.natAbs 1

def infinity (negative : Bool) : Float := ofMagnitudeBits negative infinityBits

def nan : Float := Float.ofBits 0x7ff8000000000000

end Comparand.Binary64
