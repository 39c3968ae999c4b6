import Comparand.Proofs.FormulaSlices
import Comparand.Proofs.Injection
import Comparand.Proofs.Resolution

/-!
# Tokens that are not bound

A token that an expression does not bind is a numeral as a whole, or it holds neither a letter nor
the separator. What counts as a numeral is read off it twice, by the reader of whole texts when the
expression is built, and by the scan of the formula later; both have the same grammar, so a scan
of such a token alone gives its number, or finds it too large.
-/
namespace Comparand
open Formula (IsNumeral numeralLength)

theorem Decimal.isSome_read?_iff {text : List Char} (begins : Identifier.beginsNumerically text) :
    (Decimal.read? text).isSome ↔ IsNumeral text := by
  cases text with
  | nil => cases begins
  | cons c rest =>
    have hc : c.isDigit ∨ c = '.' := by simpa [Identifier.beginsNumerically] using begins
    constructor
    · intro h
      rw [Decimal.read?_of_begins hc, Option.isSome_map] at h
      exact Decimal.isNumeral_of_isSome h
    · intro h
      rw [Decimal.read?_of_begins hc, Option.isSome_map]
      exact Decimal.isSome_unsigned? h

namespace Formula
open Text (Longest)

theorem numeralLength_eq_length_iff {text : List Char} (some_text : text ≠ []) :
    numeralLength text = text.length ↔ IsNumeral text := by
  constructor
  · intro h
    have positive : 0 < numeralLength text := h ▸ List.length_pos_iff.mpr some_text
    have numeral := isNumeral_take positive
    rwa [h, List.take_length] at numeral
  · exact numeralLength_eq_length

theorem Token.scan_numeral {text : String} (h : IsNumeral text.toList) :
    (∃ value, Token.scan text = .ok [(.number value, 0)]) ∨
      Token.scan text = .error (.literalTooLarge text) := by
  have hlongest : Longest IsLexeme text.toList [] :=
    solid_isLexeme.longest_of_space (.inl h) (.inl rfl)
  rcases Decimal.read?_cases_of_isNumeral h with ⟨value, hread, finite, -⟩ | infinite
  · have hsliced : Text.Sliced IsLexeme 0 (text.toList ++ []) [(text, 0)]
        (0 + Text.utf8Length text.toList) [] := .slice hlongest .done
    rw [List.append_nil] at hsliced
    have room : 1 ≤ maxTokens := by decide
    exact .inl ⟨value, Token.scan_of_sliced hsliced
      (.cons ⟨.numeral h hread finite, rfl⟩ .nil) room⟩
  · have obstacle : Obstacle ([] : List Placed).length 0 (text.toList ++ [])
        (.literalTooLarge text) := .tooLarge hlongest h infinite
    rw [List.append_nil] at obstacle
    exact .inr (Token.scan_of_obstacle .done .nil (Nat.zero_le _) obstacle)

end Formula

namespace Arithmetic
open Formula (Token)
variable {V : Type} {ns : Namespace V} {separator : String} {trees : List TokenTree}
  {a : Arithmetic V}

/--
No letter and no separator is left in an expression outside the identifiers that it binds, but in
tokens that are numerals as a whole. A text that begins with a digit or a point is read as a double
if and only if it is, as a whole, the numeral that a scan finds in front of it.
-/
theorem unbound_tokens (built : ofTokens trees ns separator = .ok a) :
    (∀ token ∈ a.flattened, token ∉ a.identifiers →
      (∀ c ∈ token.toList, ¬ Text.isAlphabetic c) ∧ ¬ separator.toList <:+: token.toList ∨
      (∃ value, Token.scan token = .ok [(.number value, 0)]) ∨
      Token.scan token = .error (.literalTooLarge token)) ∧
    ∀ text, Identifier.beginsNumerically text →
      ((Decimal.read? text).isSome ↔ IsNumeral text) ∧
      (IsNumeral text ↔ numeralLength text = text.length) := by
  constructor
  · intro token mem free
    have given := (resolved_of_ofTokens built).2.2.1
    have hc : ¬ Identifier.isCandidate separator.toList token.toList :=
      fun hc => free ((mem_identifiers_iff built).mpr ⟨mem, hc⟩)
    simp only [Identifier.isCandidate, Bool.and_eq_true, Bool.not_eq_true', not_and_or,
      Bool.not_eq_false] at hc
    rcases hc with numeric | unreferring
    · right
      exact Token.scan_numeral ((Decimal.isSome_read?_iff numeric.1).mp numeric.2)
    · left
      simp only [Identifier.refers, Identifier.hasSeparator, Bool.or_eq_true, not_or,
        Bool.and_eq_true] at unreferring
      refine ⟨fun c hc letter => unreferring.1 (List.any_eq_true.mpr ⟨c, hc, letter⟩), ?_⟩
      intro occurs
      exact unreferring.2 ⟨by simpa using given, Text.occursIn_iff.mpr occurs⟩
  · intro text begins
    have some_text : text ≠ [] := by
      rintro rfl
      cases begins
    exact ⟨Decimal.isSome_read?_iff begins,
      (Formula.numeralLength_eq_length_iff some_text).symm⟩

/-- `1.e5 + 9e999 / a.b $` with a point as separator. -/
def pointed : Arithmetic PathVariable where
  tokens := [.token "1.e5", .token "+", .group [.token "9e999", .token "/", .token "a.b"],
    .token "$"]
  bindings := [("a.b", { path := ["a", "b"], kind := .number })]
  separator := "."

theorem pointed_unbound :
    ofTokens pointed.tokens (Namespace.paths .number) "." = .ok pointed ∧
      "9e999" ∈ pointed.flattened ∧ "9e999" ∉ pointed.identifiers ∧
      ((∀ c ∈ "9e999".toList, ¬ Text.isAlphabetic c) ∧ ¬ ".".toList <:+: "9e999".toList ∨
        (∃ value, Token.scan "9e999" = .ok [(.number value, 0)]) ∨
        Token.scan "9e999" = .error (.literalTooLarge "9e999")) := by
  have built : ofTokens pointed.tokens (Namespace.paths .number) "." = .ok pointed := rfl
  have mem : "9e999" ∈ pointed.flattened := by decide
  have free : "9e999" ∉ pointed.identifiers := by decide
  exact ⟨built, mem, free, (unbound_tokens built).1 _ mem free⟩

end Arithmetic

end Comparand
