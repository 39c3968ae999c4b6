import Comparand.Document.Number

/-!
# Documents from text

A text is first cut into marks and scalars, and these are then read one at a time over the stack of
arrays and objects that are still open. A text that is not exactly one document has none: blanks
other than space, tab, line feed and carriage return, raw control characters, surrogates without a
partner, numbers too large for a double, and more than `maxDepth` levels of nesting are refused.
-/
namespace Comparand.Document

/-- The deepest nesting of arrays and objects. -/
def maxDepth : Nat := 127

/-- What a text is cut into. -/
inductive Lexeme where
  /-- One of `{ } [ ] , :`. -/
  | mark (c : Char)
  | scalar (value : Document)

def hexValue? (c : Char) : Option Nat :=
  if c.isDigit then some (c.toNat - '0'.toNat)
  else if 'a' ≤ c ∧ c ≤ 'f' then some (c.toNat - 'a'.toNat + 10)
  else if 'A' ≤ c ∧ c ≤ 'F' then some (c.toNat - 'A'.toNat + 10)
  else none

/-- The number that four hexadecimal digits spell. -/
def unit? (a b c d : Char) : Option Nat := do
  return (((← hexValue? a) * 16 + (← hexValue? b)) * 16 + (← hexValue? c)) * 16 + (← hexValue? d)

/-- The character behind a backslash, other than a code unit. -/
def unescape? : Char → Option Char
  | '"' => some '"'
  | '\\' => some '\\'
  | '/' => some '/'
  | 'b' => some '\x08'
  | 'f' => some '\x0c'
  | 'n' => some '\n'
  | 'r' => some '\r'
  | 't' => some '\t'
  | _ => none

/-- The character that a high and a low surrogate stand for. -/
def pair? (high low : Nat) : Option Char :=
  if 0xD800 ≤ high ∧ high < 0xDC00 ∧ 0xDC00 ≤ low ∧ low < 0xE000 then
    some (Char.ofNat (0x10000 + (high - 0xD800) * 0x400 + (low - 0xDC00)))
  else none

/-- A code unit that is a character on its own. -/
def single? (unit : Nat) : Option Char :=
  if unit < 0xD800 ∨ 0xE000 ≤ unit then some (Char.ofNat unit) else none

/-- The content of a quoted text behind its opening quote, and its length with the closing one. -/
def quotedTail? : List Char → Option (List Char × Nat)
  | '"' :: _ => some ([], 1)
  | '\\' :: 'u' :: a :: b :: c :: d :: '\\' :: 'u' :: e :: f :: g :: h :: rest => do
    let unit ← unit? a b c d
    match single? unit with
    | some character =>
      let (content, length) ← quotedTail? ('\\' :: 'u' :: e :: f :: g :: h :: rest)
      return (character :: content, length + 6)
    | none =>
      let character ← pair? unit (← unit? e f g h)
      let (content, length) ← quotedTail? rest
      return (character :: content, length + 12)
  | '\\' :: 'u' :: a :: b :: c :: d :: rest => do
    let character ← single? (← unit? a b c d)
    let (content, length) ← quotedTail? rest
    return (character :: content, length + 6)
  | '\\' :: c :: rest => do
    let character ← unescape? c
    let (content, length) ← quotedTail? rest
    return (character :: content, length + 2)
  | c :: rest =>
    if c.toNat < 32 ∨ c = '\\' then none else do
      let (content, length) ← quotedTail? rest
      return (c :: content, length + 1)
  | [] => none

/-- Digits at the head of a text. -/
def digitsOf (text : List Char) : List Char := text.takeWhile Char.isDigit

/-- The digits in front of the point: zero, or a run that does not begin with zero. -/
def wholeDigits? (text : List Char) : Option (List Char) :=
  match text with
  | '0' :: _ => some ['0']
  | text => if digitsOf text = [] then none else some (digitsOf text)

/-- The digits behind the point, if there is a point, and the length of point and digits. -/
def fraction? : List Char → Option (List Char × Nat)
  | '.' :: rest =>
    let digits := digitsOf rest
    if digits = [] then none else some (digits, digits.length + 1)
  | _ => some ([], 0)

/-- The exponent, if there is a marker of one, and its length. -/
def exponent? : List Char → Option (Option Int × Nat)
  | marker :: rest =>
    if marker = 'e' ∨ marker = 'E' then
      let (negative, tail) := Decimal.splitSign rest
      let digits := digitsOf tail
      let n : Int := Decimal.ofDigits digits
      let length := 1 + (rest.length - tail.length) + digits.length
      if digits = [] then none else some (some (if negative then -n else n), length)
    else some (none, 0)
  | [] => some (none, 0)

/-- The number at the head of a text, and its length. -/
def number? (text : List Char) : Option (Document × Nat) := do
  let (negative, body) := match text with
    | '-' :: rest => (true, rest)
    | text => (false, text)
  let whole ← wholeDigits? body
  let rest := body.drop whole.length
  let (fraction, fractionLength) ← fraction? rest
  let (exponent, exponentLength) ← exponent? (rest.drop fractionLength)
  let value ← Numeral.document? { negative, whole, fraction, exponent }
  let signLength := if negative then 1 else 0
  return (value, signLength + whole.length + fractionLength + exponentLength)

/-- The lexeme at the head of a text, and its length. -/
def lexeme? : List Char → Option (Lexeme × Nat)
  | 't' :: 'r' :: 'u' :: 'e' :: _ => some (.scalar (.bool true), 4)
  | 'f' :: 'a' :: 'l' :: 's' :: 'e' :: _ => some (.scalar (.bool false), 5)
  | 'n' :: 'u' :: 'l' :: 'l' :: _ => some (.scalar .null, 4)
  | '"' :: rest =>
    (quotedTail? rest).map fun (content, length) =>
      (.scalar (.text (String.ofList content)), length + 1)
  | c :: rest =>
    if c = '\x7b' ∨ c = '\x7d' ∨ c = '[' ∨ c = ']' ∨ c = ',' ∨ c = ':' then some (.mark c, 1)
    else (number? (c :: rest)).map fun (value, length) => (.scalar value, length)
  | [] => none

/-- Cuts a text; the first `skip` characters belong to a lexeme that has been found already. -/
def lexemes? : (skip : Nat) → List Char → Option (List Lexeme)
  | _, [] => some []
  | skip + 1, _ :: rest => lexemes? skip rest
  | 0, c :: rest =>
    if c = ' ' ∨ c = '\t' ∨ c = '\n' ∨ c = '\r' then lexemes? 0 rest
    else do
      let (lexeme, length) ← lexeme? (c :: rest)
      return lexeme :: (← lexemes? (length - 1) rest)

/-- An array or object that is still open. -/
inductive Frame where
  /-- The items so far, in reverse. -/
  | array (items : List Document)
  /-- The members so far and the key whose value is being read. -/
  | object (members : List (String × Document)) (key : String)

/-- What has to come next. -/
inductive State where
  | value (stack : List Frame)
  /-- The first item of an array, or its end. -/
  | firstItem (stack : List Frame)
  /-- The first key of an object, or its end. -/
  | firstKey (stack : List Frame)
  | nextKey (members : List (String × Document)) (stack : List Frame)
  | colon (members : List (String × Document)) (key : String) (stack : List Frame)
  /-- A value is complete. -/
  | complete (value : Document) (stack : List Frame)

/-- Reads the beginning of a value. -/
def begin? (stack : List Frame) : Lexeme → Option State
  | .scalar value => some (.complete value stack)
  | .mark c =>
    if maxDepth ≤ stack.length then none
    else if c = '[' then some (.firstItem stack)
    else if c = '\x7b' then some (.firstKey stack)
    else none

/-- Reads one lexeme. -/
def State.step? : State → Lexeme → Option State
  | .value stack, lexeme => begin? stack lexeme
  | .firstItem stack, .mark ']' => some (.complete (.array []) stack)
  | .firstItem stack, lexeme => begin? (.array [] :: stack) lexeme
  | .firstKey stack, .mark '\x7d' => some (.complete (.object []) stack)
  | .firstKey stack, .scalar (.text key) => some (.colon [] key stack)
  | .nextKey members stack, .scalar (.text key) => some (.colon members key stack)
  | .colon members key stack, .mark ':' => some (.value (.object members key :: stack))
  | .complete item (.array items :: stack), .mark ',' =>
    some (.value (.array (item :: items) :: stack))
  | .complete item (.array items :: stack), .mark ']' =>
    some (.complete (.array (item :: items).reverse) stack)
  | .complete item (.object members key :: stack), .mark ',' =>
    some (.nextKey (setMember key item members) stack)
  | .complete item (.object members key :: stack), .mark '\x7d' =>
    some (.complete (.object (setMember key item members)) stack)
  | _, _ => none

/-- The document that a text is. -/
def ofText? (text : String) : Option Document := do
  match ← (← lexemes? 0 text.toList).foldlM State.step? (.value []) with
  | .complete value [] => some value
  | _ => none

end Comparand.Document
