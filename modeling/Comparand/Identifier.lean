import Comparand.Number.Decimal
import Comparand.Text.Letter
import Comparand.Text.Split

/-!
# Identifiers

An identifier names a variable, possibly inside scopes: `market:stock:price` is the name `price` in
the scope `stock` of the scope `market`, when the separator is `:`. Any text may serve as separator,
letters and digits included, so a text is scanned for occurrences of the separator first and for
letters, numerals and `_` between them.

Two questions are asked about a token. `isCandidate`: does it have to be resolved as a variable?
`isWellFormed`: can it be? A token that must and cannot is an error where formulas are built.
-/
namespace Comparand.Identifier

def isWordCharacter (c : Char) : Bool := Text.isAlphanumeric c || c = '_'

/--
Byte offset and value of the first character that lies in no occurrence of the separator and is no
word character. The first `skip` characters belong to an occurrence that has been recognised.
-/
def firstStrayFrom (separator : List Char) (offset : Nat) :
    (skip : Nat) → List Char → Option (Nat × Char)
  | _, [] => none
  | skip + 1, c :: rest => firstStrayFrom separator (offset + c.utf8Size) skip rest
  | 0, c :: rest =>
    if !separator.isEmpty && separator.isPrefixOf (c :: rest) then
      firstStrayFrom separator (offset + c.utf8Size) (separator.length - 1) rest
    else if isWordCharacter c then firstStrayFrom separator (offset + c.utf8Size) 0 rest
    else some (offset, c)

def firstStray? (separator token : List Char) : Option (Nat × Char) :=
  firstStrayFrom separator 0 0 token

def hasSeparator (separator token : List Char) : Bool :=
  !separator.isEmpty && Text.occursIn separator token

/-- Whether a token begins the way numerals do. -/
def beginsNumerically : List Char → Bool
  | c :: _ => c.isDigit || c = '.'
  | [] => false

/-- Whether a token holds a letter or the separator. -/
def refers (separator token : List Char) : Bool :=
  token.any Text.isAlphabetic || hasSeparator separator token

def isWellFormed (separator token : List Char) : Bool :=
  !beginsNumerically token && (firstStray? separator token).isNone && refers separator token

/-- Whether a token has to be resolved: it refers to something and is no numeral. -/
def isCandidate (separator token : List Char) : Bool :=
  !(beginsNumerically token && (Decimal.read? token).isSome) && refers separator token

/-- The name that an identifier ends in and the scopes before it, outermost first. -/
def split (separator token : String) : String × List String :=
  let pieces := (Text.pieces separator.toList token.toList).map String.ofList
  (pieces.getLast?.getD "", pieces.dropLast)

end Comparand.Identifier
