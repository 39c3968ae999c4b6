import Comparand.Formula
import Comparand.Identifier
import Comparand.Namespace
import Comparand.TokenTree

/-!
# Arithmetic over variables

An arithmetic expression is built once from a token tree: every identifier in it is resolved to a
variable, and only that assignment is kept. No value is remembered; each evaluation reads all
variables from the context that it is given.
-/
namespace Comparand

structure Arithmetic (V : Type) where
  tokens : List TokenTree
  /-- The variable of each identifier, in the order in which they first occur. -/
  bindings : List (String × V)
  separator : String

namespace Arithmetic
variable {V : Type}

/-- What stands between scopes and names unless something else is asked for. -/
def defaultSeparator : String := ":"

/-- Resolves a token, if it has to be resolved and has not been yet. -/
def resolveToken (ns : Namespace V) (separator text : String) (known : List (String × V)) :
    Except Failure (List (String × V)) :=
  if !Identifier.isCandidate separator.toList text.toList || (known.lookup text).isSome then
    .ok known
  else if !Identifier.isWellFormed separator.toList text.toList then
    .error (.invalidIdentifier text)
  else do
    let (name, scopes) := Identifier.split separator text
    return known ++ [(text, ← ns name scopes)]

mutual

/-- Resolves the tokens of one tree, given the identifiers resolved before. -/
def resolveTree (ns : Namespace V) (separator : String) :
    TokenTree → List (String × V) → Except Failure (List (String × V))
  | .token text, known => resolveToken ns separator text known
  | .group items, known => resolveTrees ns separator items known

def resolveTrees (ns : Namespace V) (separator : String) :
    List TokenTree → List (String × V) → Except Failure (List (String × V))
  | [], known => .ok known
  | tree :: trees, known => do
    resolveTrees ns separator trees (← resolveTree ns separator tree known)

end

/-- Builds an expression. The first token that cannot be resolved is the failure. -/
def ofTokens (tokens : List TokenTree) (ns : Namespace V) (separator : String) :
    Except Failure (Arithmetic V) :=
  if separator.isEmpty then .error .emptySeparator
  else do return { tokens, separator, bindings := ← resolveTrees ns separator tokens [] }

/-- The tokens from left to right, identifiers in place. -/
def flattened (a : Arithmetic V) : List String := TokenTree.flatten a.tokens

/-- The expression as written, with single spaces between tokens. -/
def print (a : Arithmetic V) : String := " ".intercalate a.flattened

/--
Two expressions are equivalent if they have the same tokens, whatever their groups, the same
separator, and the same variable for each identifier.
-/
def isEquivalent [DecidableEq V] (a b : Arithmetic V) : Bool :=
  a.flattened == b.flattened && a.separator == b.separator &&
    a.bindings.length == b.bindings.length &&
    a.bindings.all fun (identifier, v) => b.bindings.lookup identifier = some v

end Arithmetic

end Comparand
