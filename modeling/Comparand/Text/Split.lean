/-!
# Occurrences of a separator

A text is read from left to right, and an occurrence of the separator is passed over as a whole
before the next one is looked for, so occurrences never overlap. `pieces` are the stretches between
them, of which there is always one. `utf8Length` counts the bytes in front of a position.
-/
namespace Comparand.Text

/-- Number of bytes of a text in UTF-8. -/
def utf8Length (text : List Char) : Nat := text.foldr (fun c length => c.utf8Size + length) 0

@[simp] theorem utf8Length_nil : utf8Length [] = 0 := rfl

@[simp] theorem utf8Length_cons (c : Char) (text : List Char) :
    utf8Length (c :: text) = c.utf8Size + utf8Length text := rfl

@[simp] theorem utf8Length_append (xs ys : List Char) :
    utf8Length (xs ++ ys) = utf8Length xs + utf8Length ys := by
  induction xs with
  | nil => simp
  | cons c xs ih => simp [ih, Nat.add_assoc]

/-- Whether `pattern` stands somewhere in the text. -/
def occursIn (pattern : List Char) : List Char → Bool
  | [] => pattern.isEmpty
  | c :: rest => pattern.isPrefixOf (c :: rest) || occursIn pattern rest

/--
The pieces of a text between the occurrences of a separator, at least one. The first `skip`
characters belong to an occurrence that has been recognised already.
-/
def piecesFrom (separator : List Char) : (skip : Nat) → List Char → List (List Char)
  | _, [] => [[]]
  | skip + 1, _ :: rest => piecesFrom separator skip rest
  | 0, c :: rest =>
    if separator.isPrefixOf (c :: rest) then
      [] :: piecesFrom separator (separator.length - 1) rest
    else match piecesFrom separator 0 rest with
      | [] => [[c]]
      | piece :: pieces => (c :: piece) :: pieces

theorem piecesFrom_ne_nil (separator : List Char) (skip : Nat) (text : List Char) :
    piecesFrom separator skip text ≠ [] := by
  fun_induction piecesFrom separator skip text <;> simp_all

/-- The pieces of a text between the occurrences of a separator. -/
def pieces (separator text : List Char) : List (List Char) := piecesFrom separator 0 text

end Comparand.Text
