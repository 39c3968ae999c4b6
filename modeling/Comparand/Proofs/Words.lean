import Comparand.Proofs.ClosedExpressions
import Comparand.Proofs.Registries
import Comparand.Proofs.SourceSlices
import Comparand.Proofs.UnboundTokens

/-!
# Words of a source text

What has to be resolved in a source text are its words, and the scan refuses every word that is no
identifier. An operator or a parenthesis has to be resolved only if the separator is written with
its characters, and is an identifier then. So no expression from a source text is refused for the
way a token is written, unless the namespace itself says so.
-/
namespace Comparand
open Formula (IsNumeral)
open Text (Sliced)
open TokenTree (IsLexeme IsWord Lexeme)

theorem Namespace.paths_eq_error_iff {kind : FieldKind} {name : String} {scopes : List String}
    {failure : Failure} :
    Namespace.paths kind name scopes = .error failure ↔
      failure = .unresolvedIdentifier name scopes ∧ (name.isEmpty || scopes.any String.isEmpty) := by
  rw [Namespace.paths]
  split
  · rename_i some_empty
    simp only [Except.error.injEq, some_empty, and_true]
    exact eq_comm
  · rename_i none_empty
    simp [none_empty]

namespace Arithmetic
variable {V : Type} {ns : Namespace V} {source separator : String} {a : Arithmetic V}

/-! ## Numerals and symbols -/

theorem not_isCandidate_of_isNumeral {numeral : List Char} (h : IsNumeral numeral)
    (separator : List Char) : ¬ Identifier.isCandidate separator numeral := by
  have hbegins := beginsNumerically_of_isNumeral h
  have hread := (Decimal.isSome_read?_iff hbegins).mpr h
  simp [Identifier.isCandidate, hbegins, hread]

theorem symbolCharacters_of_mem_symbols {symbol : List Char} (mem : symbol ∈ TokenTree.symbols) :
    ∀ c ∈ symbol, c ∈ symbolCharacters := by
  have hall : ∀ symbol ∈ TokenTree.symbols, ∀ c ∈ symbol, c ∈ symbolCharacters := by
    simp [TokenTree.symbols, symbolCharacters]
  exact hall symbol mem

theorem isWellFormed_of_symbol {separator symbol : List Char} (mem : symbol ∈ TokenTree.symbols)
    (h : Identifier.isCandidate separator symbol) : Identifier.isWellFormed separator symbol := by
  have letterless := letterless_of_symbolCharacters (symbolCharacters_of_mem_symbols mem)
  simp only [Identifier.isCandidate, Identifier.refers, letterless, Bool.false_or,
    Bool.and_eq_true, Identifier.hasSeparator] at h
  obtain ⟨-, some_separator, occurs⟩ := h
  have given : separator ≠ [] := by simpa using some_separator
  have hsublist := (Text.occursIn_iff.mp occurs).sublist
  have shape : ∀ symbol ∈ TokenTree.symbols,
      symbol = List.replicate 2 '*' ∨ ∃ c ∈ symbolCharacters, symbol = [c] := by
    simp [TokenTree.symbols, symbolCharacters]
  rcases shape symbol mem with rfl | ⟨c, hc, rfl⟩
  · obtain ⟨n, hn, rfl⟩ := List.sublist_replicate_iff.mp hsublist
    have positive : n ≠ 0 := by
      rintro rfl
      exact given rfl
    obtain rfl | rfl : n = 1 ∨ n = 2 := by omega
    · decide
    · decide
  · obtain rfl := (List.sublist_singleton.mp hsublist).resolve_left given
    have hbegins : ∀ c ∈ symbolCharacters, ¬ Identifier.beginsNumerically [c] := by
      simp [symbolCharacters, Identifier.beginsNumerically]
    simp [Identifier.isWellFormed, hbegins c hc, Identifier.firstStray?,
      Identifier.firstStrayFrom, Identifier.refers, Identifier.hasSeparator,
      Text.occursIn_iff.mpr List.infix_rfl]

theorem not_isCandidate_of_matches {separator slice : List Char} (given : separator ≠ [])
    (clear : ∀ c ∈ separator, c ∉ symbolCharacters) {kind : Lexeme} (h : kind.Matches slice)
    (other : kind ≠ .word) : ¬ Identifier.isCandidate separator slice := by
  have symbols : ∀ symbol ∈ TokenTree.symbols, ¬ Identifier.isCandidate separator symbol := by
    intro symbol mem
    exact isCandidate_of_symbolCharacters given clear (symbolCharacters_of_mem_symbols mem)
  cases kind with
  | numeral => exact not_isCandidate_of_isNumeral h separator
  | operator =>
    have hall : ∀ operator ∈ TokenTree.operators, operator ∈ TokenTree.symbols := by decide
    exact symbols slice (hall slice h)
  | opening => exact symbols slice (by rw [show slice = ['('] from h]; decide)
  | closing => exact symbols slice (by rw [show slice = [')'] from h]; decide)
  | word => exact absurd rfl other

/-! ## Words -/

theorem isWellFormed_of_ofText {trees : List TokenTree}
    (h : TokenTree.ofText source separator = .ok trees) {token : String}
    (mem : token ∈ TokenTree.flatten trees)
    (hc : Identifier.isCandidate separator.toList token.toList) :
    Identifier.isWellFormed separator.toList token.toList := by
  rcases TokenTree.flatten_of_ofText h token mem with formed | numeral | symbol
  · exact formed
  · exact absurd hc (not_isCandidate_of_isNumeral numeral separator.toList)
  · exact isWellFormed_of_symbol symbol hc

/-- Only the namespace can say of a token of a source text that it is malformed. -/
theorem exists_of_ofText_eq_invalidIdentifier {token : String}
    (h : ofText source ns separator = .error (.invalidIdentifier token)) :
    ∃ name scopes, ns name scopes = .error (.invalidIdentifier token) := by
  rcases bind_eq_error_iff.mp h with hscan | ⟨trees, hscan, htokens⟩
  · cases hfault : TokenTree.ofText source separator with
    | ok trees =>
      rw [hfault] at hscan
      cases hscan
    | error fault =>
      rw [hfault] at hscan
      cases fault <;> cases hscan
  · have htrees := mapError_eq_ok_iff.mp hscan
    by_cases given : separator = ""
    · simp [ofTokens, given] at htokens
    · obtain ⟨front, refused, behind, heq, -, refuses⟩ :=
        (ofTokens_fails_iff given).mp htokens
      have mem : refused ∈ TokenTree.flatten trees := by rw [heq]; simp
      have formed := isWellFormed_of_ofText htrees mem refuses.isCandidate
      rcases (refuses_iff.mp refuses).2 with ⟨malformed, -⟩ | ⟨-, hfailure⟩
      · exact absurd formed malformed
      · exact ⟨_, _, hfailure⟩

theorem mem_identifiers_iff_isWord (built : ofText source ns separator = .ok a)
    (clear : ∀ c ∈ separator.toList, c ∉ symbolCharacters) :
    ∃ slices stop, Sliced IsLexeme 0 source.toList slices stop [] ∧
      a.flattened = slices.map Prod.fst ∧
      ∀ token, token ∈ a.identifiers ↔ token ∈ slices.map Prod.fst ∧ IsWord token.toList := by
  obtain ⟨trees, hscan, htokens⟩ := ofTokens_of_ofText built
  obtain ⟨slices, stop, hsliced, identified, -, rfl⟩ := TokenTree.ofText_eq_ok_iff.mp hscan
  obtain ⟨htrees, -, given, -⟩ := resolved_of_ofTokens htokens
  have hflat : a.flattened = slices.map Prod.fst := by
    rw [flattened, htrees, TokenTree.flatten_nest]
  refine ⟨slices, stop, hsliced, hflat, fun token => ?_⟩
  rw [mem_identifiers_iff htokens, hflat]
  refine and_congr_right fun mem => ?_
  obtain ⟨slice, hslice, rfl⟩ := List.mem_map.mp mem
  constructor
  · intro hc
    obtain ⟨kind, hkind⟩ := hsliced.lexeme slice hslice
    by_cases hword : kind = .word
    · subst hword
      exact hkind
    · exact absurd hc (not_isCandidate_of_matches (by simpa using given) clear hkind hword)
  · intro word
    exact Identifier.isCandidate_of_isWellFormed (identified slice hslice word)

/--
No expression from a source text is refused for the way a token is written, unless the namespace
answers so; neither paths nor registries do. Where the separator has no character of an operator or
a parenthesis, an expression binds exactly the words that its source text is sliced into.
-/
theorem ofText_binds_words (source separator : String) (ns : Namespace V) :
    (∀ token, ofText source ns separator = .error (.invalidIdentifier token) →
      ∃ name scopes, ns name scopes = .error (.invalidIdentifier token)) ∧
    (∀ kind token,
      ofText source (Namespace.paths kind) separator ≠ .error (.invalidIdentifier token)) ∧
    (∀ (r : Registry V) token,
      ofText source r.toNamespace separator ≠ .error (.invalidIdentifier token)) ∧
    ∀ a, ofText source ns separator = .ok a →
      (∀ c ∈ separator.toList, c ∉ symbolCharacters) →
      ∃ slices stop, Sliced IsLexeme 0 source.toList slices stop [] ∧
        a.flattened = slices.map Prod.fst ∧
        (∀ token, token ∈ a.identifiers ↔ token ∈ slices.map Prod.fst ∧ IsWord token.toList) ∧
        ∀ token ∈ a.identifiers, ∀ kind : Lexeme, kind.Matches token.toList → kind = .word := by
  refine ⟨fun token => exists_of_ofText_eq_invalidIdentifier, fun kind token h => ?_,
    fun r token h => ?_, fun a built clear => ?_⟩
  · obtain ⟨name, scopes, hname⟩ := exists_of_ofText_eq_invalidIdentifier h
    cases (Namespace.paths_eq_error_iff.mp hname).1
  · obtain ⟨name, scopes, hname⟩ := exists_of_ofText_eq_invalidIdentifier h
    cases (Registry.toNamespace_eq_error_iff.mp hname).1
  · obtain ⟨slices, stop, hsliced, hflat, hwords⟩ := mem_identifiers_iff_isWord built clear
    refine ⟨slices, stop, hsliced, hflat, hwords, fun token mem kind hkind => ?_⟩
    obtain ⟨trees, -, htokens⟩ := ofTokens_of_ofText built
    have given := (resolved_of_ofTokens htokens).2.2.1
    have hc := ((mem_identifiers_iff htokens).mp mem).2
    by_contra other
    exact not_isCandidate_of_matches (by simpa using given) clear hkind other hc

end Arithmetic

end Comparand
