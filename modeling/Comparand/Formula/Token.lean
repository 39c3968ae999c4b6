import Comparand.Formula.Fault
import Comparand.Formula.Numeral
import Comparand.Text.Blank
import Comparand.Text.Split

/-!
# Tokens of a formula

A formula has numerals, the operators `+ - * / **` and parentheses, and nothing else: a letter makes
the scan fail, so no name ever reaches the parser. `Token.scan` cuts a text by longest match from
the left and pairs each token with its byte offset. It gives up at the first character that begins
no token, at the first numeral too large for a double, and at the token behind the `maxTokens`-th.
-/
namespace Comparand.Formula

inductive Operator where
  | add
  | sub
  | mul
  | div
  | pow
  deriving DecidableEq, Repr

def Operator.symbol : Operator → String
  | .add => "+"
  | .sub => "-"
  | .mul => "*"
  | .div => "/"
  | .pow => "**"

inductive Token where
  | number (value : Float)
  | doubleStar
  | plus
  | minus
  | star
  | slash
  | opening
  | closing
  /-- A stretch of blanks. No scan yields it, and no expression holds it. -/
  | blank
  deriving DecidableEq

/-- A token and the byte offset where it begins. -/
abbrev Placed := Token × Nat

namespace Token

/-- A number is written by its value, whatever numeral it was read from. -/
def print : Token → String
  | .number value => Shortest.positional value
  | .doubleStar => "**"
  | .plus => "+"
  | .minus => "-"
  | .star => "*"
  | .slash => "/"
  | .opening => "("
  | .closing => ")"
  | .blank => ""

/-- The binary operator that a token writes. -/
def operator? : Token → Option Operator
  | .plus => some .add
  | .minus => some .sub
  | .star => some .mul
  | .slash => some .div
  | .doubleStar => some .pow
  | _ => none

/-- The operator or parenthesis that a text begins with, and its length. -/
def symbol? : List Char → Option (Token × Nat)
  | '*' :: '*' :: _ => some (.doubleStar, 2)
  | '*' :: _ => some (.star, 1)
  | '+' :: _ => some (.plus, 1)
  | '-' :: _ => some (.minus, 1)
  | '/' :: _ => some (.slash, 1)
  | '(' :: _ => some (.opening, 1)
  | ')' :: _ => some (.closing, 1)
  | _ => none

/-- The token that a text of at least one character begins with, and its length. -/
def head (c : Char) (rest : List Char) (position : Nat) : Except Fault (Token × Nat) :=
  let length := numeralLength (c :: rest)
  if length = 0 then
    match symbol? (c :: rest) with
    | some found => .ok found
    | none => .error (.unexpectedCharacter (String.singleton c) position)
  else
    let numeral := (c :: rest).take length
    match Decimal.read? numeral with
    | some value =>
      if value.isFinite then .ok (.number value, length)
      else .error (.literalTooLarge (String.ofList numeral))
    | none => .error (.unexpectedCharacter (String.ofList numeral) position)

end Token

/-- The most tokens that a formula may have. -/
def maxTokens : Nat := 1024

/--
Scans a text from a byte offset on. The first `skip` characters belong to a token that has been
found already, and `found` counts the tokens found so far.
-/
def Token.scanFrom (found position : Nat) : (skip : Nat) → List Char → Except Fault (List Placed)
  | _, [] => .ok []
  | skip + 1, c :: rest => scanFrom found (position + c.utf8Size) skip rest
  | 0, c :: rest =>
    if Text.isBlank c then scanFrom found (position + c.utf8Size) 0 rest
    else do
      let (token, length) ← Token.head c rest position
      if maxTokens ≤ found then throw (.tooManyTokens maxTokens)
      let tokens ← scanFrom (found + 1) (position + c.utf8Size) (length - 1) rest
      return (token, position) :: tokens

/-- All tokens of a text, each with the byte offset where it begins. -/
def Token.scan (text : String) : Except Fault (List Placed) := Token.scanFrom 0 0 0 text.toList

end Comparand.Formula
