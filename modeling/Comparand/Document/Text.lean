import Comparand.Document
import Comparand.Number.Shortest

/-!
# Documents as text

A document is written without blanks. Texts are quoted, with escapes only for the quote, the
backslash and control characters. A double has the fewest digits that read back to it, ties to the
even one: as `digits * 10 ^ k` with a point in front of the first digit, it is written with a point
and no exponent for `-5 < k ≤ 16`, and in scientific notation otherwise.
-/
namespace Comparand.Document

/-- The last `width` hexadecimal digits of a number, in lower case. -/
def hexDigits : (width : Nat) → Nat → List Char
  | 0, _ => []
  | width + 1, n => hexDigits width (n / 16) ++ [Nat.digitChar (n % 16)]

def escape (c : Char) : List Char :=
  match c with
  | '"' => ['\\', '"']
  | '\\' => ['\\', '\\']
  | '\x08' => ['\\', 'b']
  | '\x0c' => ['\\', 'f']
  | '\n' => ['\\', 'n']
  | '\r' => ['\\', 'r']
  | '\t' => ['\\', 't']
  | c => if c.toNat < 32 then '\\' :: 'u' :: hexDigits 4 c.toNat else [c]

def quote (value : String) : String :=
  String.ofList ('"' :: value.toList.flatMap escape ++ ['"'])

/-- Scientific notation with one digit in front of the point. -/
def scientific (digits : List Char) (exponent : Int) : List Char :=
  let body := match digits with
    | [] => ['0']
    | [d] => [d]
    | d :: rest => d :: '.' :: rest
  let sign := if exponent < 0 then '-' else '+'
  body ++ 'e' :: sign :: Nat.toDigits 10 exponent.natAbs

/-- A double that is not negative and not zero, by its digits and the place of its point. -/
def layout (mantissa : Nat) (exponent : Int) : List Char :=
  let digits := Nat.toDigits 10 mantissa
  let k := exponent + digits.length
  if -5 < k ∧ k ≤ 16 then
    let body := Shortest.layout mantissa exponent
    if 0 ≤ exponent then body ++ ['.', '0'] else body
  else scientific digits (k - 1)

/-- A finite double as text. -/
def realText (x : Float) : String :=
  let body :=
    if Binary64.significand x = 0 then "0.0".toList
    else
      let (mantissa, exponent) := Shortest.digits .even x
      layout mantissa exponent
  String.ofList (if Binary64.isNegative x then '-' :: body else body)

mutual

/-- A document as text. -/
def print : Document → String
  | .null => "null"
  | .bool value => if value then "true" else "false"
  | .integer value => toString value
  | .real value => realText value
  | .text value => quote value
  | .array items => "[" ++ ",".intercalate (printItems items) ++ "]"
  | .object members => "\x7b" ++ ",".intercalate (printMembers members) ++ "\x7d"

def printItems : List Document → List String
  | [] => []
  | item :: items => print item :: printItems items

def printMembers : List (String × Document) → List String
  | [] => []
  | (key, value) :: members => (quote key ++ ":" ++ print value) :: printMembers members

end

end Comparand.Document
