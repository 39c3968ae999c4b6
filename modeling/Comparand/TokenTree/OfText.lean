import Comparand.Formula.Token
import Comparand.Identifier
import Comparand.TokenTree

/-!
# Token trees from text

Text over variables has numerals, the operators `+ - * / ^ **`, parentheses, and words. A word is
whatever lies between those and the blanks and does not begin like a numeral; it is accepted only as
a well-formed identifier. Operators and parentheses end a word before the separator is looked for,
so a separator made of such characters never takes effect here.

The first obstacle from the left is reported. A parenthesis that stays open is noticed last.
-/
namespace Comparand.TokenTree
open Formula (Fault)

/-- What a stretch of text is. -/
inductive Lexeme where
  | numeral
  | operator
  | opening
  | closing
  | word
  deriving DecidableEq, Repr

/-- Characters that end a word. -/
def endsWord (c : Char) : Bool :=
  Text.isBlank c || c = '+' || c = '-' || c = '*' || c = '/' || c = '^' || c = '(' || c = ')'

/-- The lexeme that a text begins with, and its length. -/
def lexeme? : List Char → Option (Lexeme × Nat)
  | '*' :: '*' :: _ => some (.operator, 2)
  | '(' :: _ => some (.opening, 1)
  | ')' :: _ => some (.closing, 1)
  | c :: rest =>
    let numeral := Formula.numeralLength (c :: rest)
    if 0 < numeral then some (.numeral, numeral)
    else if c = '+' ∨ c = '-' ∨ c = '*' ∨ c = '/' ∨ c = '^' then some (.operator, 1)
    else if endsWord c || Identifier.beginsNumerically [c] then none
    else some (.word, 1 + (rest.takeWhile (!endsWord ·)).length)
  | [] => none

/-- Accepts a word that is an identifier, and otherwise points at what is wrong with it. -/
def checkWord (separator word : List Char) (position : Nat) : Except Fault Unit :=
  if Identifier.isWellFormed separator word then .ok ()
  else match Identifier.firstStray? separator word with
    | some (offset, c) => .error (.unexpectedCharacter (String.singleton c) (position + offset))
    | none => .error (.unexpectedCharacter (String.ofList word) position)

/-- The open groups behind a lexeme, innermost first, given as the places where they begin. -/
def track (kind : Lexeme) (position : Nat) (opened : List Nat) : Except Fault (List Nat) :=
  match kind, opened with
  | .opening, opened => .ok (position :: opened)
  | .closing, _ :: opened => .ok opened
  | .closing, [] => .error (.unexpectedToken ")" position)
  | _, opened => .ok opened

/--
Scans a text from a byte offset on. The first `skip` characters belong to a lexeme that has been
found already.
-/
def scanFrom (separator : List Char) (position : Nat) (opened : List Nat) :
    (skip : Nat) → List Char → Except Fault (List String)
  | _, [] =>
    match opened with
    | [] => .ok []
    | innermost :: _ => .error (.expectedClosing innermost)
  | skip + 1, c :: rest => scanFrom separator (position + c.utf8Size) opened skip rest
  | 0, c :: rest =>
    if Text.isBlank c then scanFrom separator (position + c.utf8Size) opened 0 rest
    else match lexeme? (c :: rest) with
      | none => .error (.unexpectedCharacter (String.singleton c) position)
      | some (kind, length) => do
        let text := (c :: rest).take length
        if kind = .word then checkWord separator text position
        let opened ← track kind position opened
        let tokens ← scanFrom separator (position + c.utf8Size) opened (length - 1) rest
        return String.ofList text :: tokens

/-- The tokens of a text over variables, grouped by its parentheses. -/
def ofText (source separator : String) : Except Fault (List TokenTree) :=
  (scanFrom separator.toList 0 [] 0 source.toList).map nest

end Comparand.TokenTree
