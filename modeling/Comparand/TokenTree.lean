/-!
# Token trees

A formula over variables comes as a sequence of texts in nested groups. Groups reflect how the text
was parenthesised and keep their parentheses as first and last token; beyond the order of the tokens
they mean nothing. `flatten` forgets the groups, `nest` rebuilds them from the parentheses, and no
token is lost on the way (`flatten_nest`).
-/
namespace Comparand

inductive TokenTree where
  | token (text : String)
  | group (items : List TokenTree)
  deriving Repr

namespace TokenTree

mutual

/-- The tokens of one tree from left to right. -/
def leaves : TokenTree → List String
  | .token text => [text]
  | .group items => flatten items

/-- The tokens of a sequence of trees from left to right. -/
def flatten : List TokenTree → List String
  | [] => []
  | tree :: trees => leaves tree ++ flatten trees

end

theorem flatten_append (xs ys : List TokenTree) :
    flatten (xs ++ ys) = flatten xs ++ flatten ys := by
  induction xs with
  | nil => rfl
  | cons x xs ih => simp [flatten, ih]

/-- Ends all groups that are open; `current` is the innermost one, in reverse like the others. -/
def closeAll (current : List TokenTree) : (outer : List (List TokenTree)) → List TokenTree
  | [] => current.reverse
  | parent :: outer => closeAll (.group current.reverse :: parent) outer

/--
Reads tokens into the group that is open at the moment, whose trees are kept in reverse, as are
those of the groups around it.
-/
def nestInto (current : List TokenTree) (outer : List (List TokenTree)) :
    List String → List TokenTree
  | [] => closeAll current outer
  | text :: rest =>
    if text = "(" then nestInto [.token text] (current :: outer) rest
    else
      let extended := .token text :: current
      match outer with
      | parent :: outer' =>
        if text = ")" then nestInto (.group extended.reverse :: parent) outer' rest
        else nestInto extended outer rest
      | [] => nestInto extended [] rest

/-- Groups a sequence of tokens by its parentheses. -/
def nest (tokens : List String) : List TokenTree := nestInto [] [] tokens

theorem flatten_closeAll (current : List TokenTree) (outer : List (List TokenTree)) :
    flatten (closeAll current outer) =
      flatten (outer.reverse.flatMap List.reverse) ++ flatten current.reverse := by
  induction outer generalizing current with
  | nil => simp [closeAll, flatten]
  | cons parent outer ih => simp [closeAll, ih, flatten_append, flatten, leaves]

theorem flatten_nestInto (current : List TokenTree) (outer : List (List TokenTree))
    (tokens : List String) :
    flatten (nestInto current outer tokens) = flatten (closeAll current outer) ++ tokens := by
  induction tokens generalizing current outer with
  | nil => simp [nestInto]
  | cons text rest ih =>
    simp only [nestInto]
    split
    · simp [ih, flatten_closeAll, flatten_append, flatten, leaves]
    · cases outer with
      | nil => simp [ih, closeAll, flatten_append, flatten, leaves]
      | cons parent outer =>
        dsimp only
        split <;> simp [ih, flatten_closeAll, flatten_append, flatten, leaves]

theorem flatten_nest (tokens : List String) : flatten (nest tokens) = tokens := by
  simp [nest, flatten_nestInto, closeAll, flatten]

end TokenTree

end Comparand
