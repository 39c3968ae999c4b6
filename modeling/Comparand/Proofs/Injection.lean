import Comparand.Proofs.Plain
import Comparand.Proofs.Substitution

/-!
# What a context can put into a formula

The texts of values are scanned together with the rest of a formula. In a formula that has a value
each of these texts stands between spaces or in parentheses of its own, and so a text that is plain,
and that no stage takes for an identifier, has to be a single numeral. A text that is not plain may
bring operators and parentheses of its own along.
-/
namespace Comparand.Arithmetic
open Formula (Token Expr Placed IsLiteral IsPlain IsNumeral plainFrom unsignedPart)
variable {V : Type} [Variable V]

theorem toList_operandText (value : Value) :
    (∃ text, value.print.toList = '-' :: text ∧
      (operandText value).toList = '(' :: '-' :: (text ++ [')'])) ∨
    unsignedPart value.print.toList = value.print.toList ∧ operandText value = value.print := by
  by_cases signed : value.print.startsWith "-"
  · left
    obtain ⟨text, htext⟩ := String.startsWith_string_iff.mp signed
    refine ⟨text, htext.symm, ?_⟩
    rw [operandText, if_pos signed, String.toList_append, String.toList_append, ← htext]
    rfl
  · right
    refine ⟨?_, by rw [operandText, if_neg signed]⟩
    unfold unsignedPart
    split
    · rename_i text htext
      exact (signed (String.startsWith_string_iff.mpr ⟨text, htext.symm⟩)).elim
    · rfl

theorem readable_of_substituted {ns : Namespace V} {separator : String} {trees : List TokenTree}
    {a : Arithmetic V} {context : Context} {formula : String}
    (built : ofTokens trees ns separator = .ok a) (h : a.substituted context = .ok formula) :
    a.Readable context := by
  intro identifier v hv
  obtain ⟨-, -, -, resolved⟩ := resolved_of_ofTokens built
  have mem := (resolved.sound identifier v hv).1
  obtain ⟨ts, hqualified, h⟩ := bind_eq_ok_iff.mp h
  obtain ⟨us, hbare, -⟩ := bind_eq_ok_iff.mp h
  rw [substitute_eq_mapM] at hqualified hbare
  obtain ⟨first, hfirst, hreplace⟩ := exists_of_mapM_eq_ok hqualified mem
  have hread : ∃ text, a.replacement context identifier = .ok text := by
    by_cases applies : Stage.qualified.appliesTo a.separator identifier
    · rw [replaceIn, if_pos applies] at hreplace
      exact ⟨first, hreplace⟩
    · rw [replaceIn, if_neg applies] at hreplace
      cases hreplace
      obtain ⟨second, -, hreplace⟩ := exists_of_mapM_eq_ok hbare hfirst
      rw [replaceIn, if_pos (by simp [Stage.bare_appliesTo, applies])] at hreplace
      exact ⟨second, hreplace⟩
  obtain ⟨text, htext⟩ := hread
  rw [replacement, hv] at htext
  obtain ⟨value, hvalue, -⟩ := bind_eq_ok_iff.mp htext
  exact ⟨value, hvalue⟩

theorem tokens_of_evaluate {a : Arithmetic V} {context : Context} {x : Float}
    {text : String → String} (h : ∀ token, a.replacement context token = .ok (text token))
    (evaluated : a.evaluate context = .ok x) {token : String} (mem : token ∈ a.flattened) :
    ∃ found position ts us vs e,
      Token.scanFrom found position 0 (spelled (a.afterStages text token).toList) = .ok us ∧
        Expr.ofTokens (ts ++ us ++ vs) = .ok e := by
  rw [evaluate, substituted_eq_afterStages h, ok_bind] at evaluated
  set formula := spellPowers (" ".intercalate (a.flattened.map (a.afterStages text)))
  obtain ⟨tokens, hscan, hvalue⟩ := bind_eq_ok_iff.mp (mapError_eq_ok_iff.mp evaluated)
  obtain ⟨e, htree, -⟩ := bind_eq_ok_iff.mp hvalue
  rw [Token.scan, toList_spellPowers_intercalate, Token.scanFrom_intercalate] at hscan
  obtain ⟨before, after, hflat⟩ := List.append_of_mem mem
  rw [hflat] at hscan
  simp only [List.map_append, List.map_cons] at hscan
  obtain ⟨found, position, ts, us, vs, hpiece, rfl⟩ := Token.scanPieces_eq_ok hscan
  exact ⟨found, position, ts, us, vs, e, hpiece, htree⟩

theorem tokens_of_parenthesised {text : List Char} {found position : Nat} {tokens : List Placed}
    (h : Token.scanFrom found position 0 ('(' :: '-' :: (text ++ [')'])) = .ok tokens) :
    ∃ found' position' p q us, Token.scanFrom found' position' 0 text = .ok us ∧
      tokens = (.opening, position) :: (.minus, p) :: (us ++ [(.closing, q)]) := by
  obtain ⟨_, hminus, rfl⟩ := Token.scanFrom_eq_ok_of_head (by decide)
    (Token.head_of_symbol? rfl (by decide) _ _) h
  obtain ⟨_, hinside, rfl⟩ := Token.scanFrom_eq_ok_of_head (by decide)
    (Token.head_of_symbol? rfl (by decide) _ _) hminus
  change Token.scanFrom _ _ 0 (text ++ ')' :: []) = _ at hinside
  rw [Token.scanFrom_append_delimiter (.inr rfl) (Nat.zero_le _)] at hinside
  obtain ⟨us, hus, hinside⟩ := bind_eq_ok_iff.mp hinside
  obtain ⟨vs, hclosing, hpure⟩ := bind_eq_ok_iff.mp hinside
  cases hpure
  obtain ⟨_, hnone, rfl⟩ := Token.scanFrom_eq_ok_of_head (by decide)
    (Token.head_of_symbol? rfl (by decide) _ _) hclosing
  cases hnone
  exact ⟨_, _, _, _, us, hus, rfl⟩

theorem beginsNumerically_of_isNumeral {text : List Char} (h : IsNumeral text) :
    Identifier.beginsNumerically text := by
  obtain ⟨c, rest, rfl, hc⟩ := h.exists_cons
  simpa [Identifier.beginsNumerically] using hc

omit [Variable V] in
theorem not_isBare_of_isLiteral {ns : Namespace V} {separator : String} {trees : List TokenTree}
    {a : Arithmetic V} (built : ofTokens trees ns separator = .ok a) {text : String}
    (literal : IsLiteral text.toList) : ¬ a.IsBare text := by
  intro bare
  have hword := bare.isWordCharacter built
  obtain ⟨-, -, -, resolved⟩ := resolved_of_ofTokens built
  obtain ⟨v, hv⟩ := Option.isSome_iff_exists.mp bare.1
  have hbegins := Identifier.beginsNumerically_of_isWellFormed (resolved.sound text v hv).2.2.1
  unfold IsLiteral unsignedPart at literal
  split at literal
  · rename_i rest htext
    rw [htext] at hword
    exact absurd (hword '-' (by simp)) (by decide)
  · rw [beginsNumerically_of_isNumeral literal] at hbegins
    cases hbegins

omit [Variable V] in
theorem not_isBare_operandText {ns : Namespace V} {separator : String} {trees : List TokenTree}
    {a : Arithmetic V} (built : ofTokens trees ns separator = .ok a) {value : Value}
    (free : ¬ a.IsBare value.print) : ¬ a.IsBare (operandText value) := by
  intro bare
  rcases toList_operandText value with ⟨text, -, hoperand⟩ | ⟨-, hoperand⟩
  · refine bare.not_mem built (c := '(') (by decide) ?_
    rw [hoperand]
    simp
  · exact free (hoperand ▸ bare)

/-- A plain text that is no identifier is a literal, or the formula around it has no value. -/
theorem isLiteral_of_evaluate {ns : Namespace V} {separator : String} {trees : List TokenTree}
    {a : Arithmetic V} (built : ofTokens trees ns separator = .ok a) {context : Context}
    {x : Float} (evaluated : a.evaluate context = .ok x) {identifier : String} {v : V}
    (bound : a.bindings.lookup identifier = some v) {value : Value}
    (hread : Variable.read v context = .ok value) (plain : IsPlain value.print.toList)
    (free : ¬ a.IsBare value.print) : IsLiteral value.print.toList := by
  obtain ⟨-, -, -, resolved⟩ := resolved_of_ofTokens built
  have mem := (resolved.sound identifier v bound).1
  obtain ⟨formula, hformula, -⟩ := bind_eq_ok_iff.mp evaluated
  obtain ⟨text, h⟩ := (readable_of_substituted built hformula).exists_text
  have htext : text identifier = operandText value := by
    have hreplace := h identifier
    rw [replacement, bound] at hreplace
    simp only [hread] at hreplace
    exact (Except.ok.inj hreplace).symm
  obtain ⟨found, position, ts, us, vs, e, hscan, htree⟩ := tokens_of_evaluate h evaluated mem
  have hbare := not_isBare_operandText built free
  rw [← htext] at hbare
  rw [afterStages_eq h (not_captured (h identifier) hbare), htext] at hscan
  rcases toList_operandText value with ⟨rest, hprint, hoperand⟩ | ⟨hunsigned, hoperand⟩
  · rw [hprint] at plain ⊢
    have hcaret : '^' ∉ rest := Formula.caret_not_mem_of_plainFrom plain.2
    rw [hoperand, spelled_eq_self (by simpa using hcaret)] at hscan
    obtain ⟨_, _, p, q, inner, hinner, rfl⟩ := tokens_of_parenthesised hscan
    by_cases some_text : rest = []
    · subst some_text
      cases hinner
      have hnext : Expr.ofTokens (ts ++ [(.opening, position)] ++
          (.minus, p) :: (.closing, q) :: vs) = .ok e := by simpa using htree
      exact (Formula.not_minus_closing_of_ofTokens hnext).elim
    · rcases Formula.numbers_of_plainFrom plain.2 some_text hinner with
        literal | ⟨v, p', w, q', more, rfl⟩
      · exact literal
      · have hnext : Expr.ofTokens (ts ++ [(.opening, position), (.minus, p)] ++
            (.number v, p') :: (.number w, q') :: (more ++ (.closing, q) :: vs)) = .ok e := by
          simpa using htree
        exact (Formula.not_numbers_of_ofTokens hnext).elim
  · have hplain := plain.2
    rw [hunsigned] at hplain
    have hcaret := Formula.caret_not_mem_of_plainFrom hplain
    rw [hoperand, spelled_eq_self hcaret] at hscan
    rw [IsLiteral, hunsigned]
    rcases Formula.numbers_of_plainFrom hplain plain.1 hscan with
      literal | ⟨v, p, w, q, more, rfl⟩
    · exact literal
    · have hnext : Expr.ofTokens (ts ++ (.number v, p) :: (.number w, q) :: (more ++ vs)) =
          .ok e := by simpa using htree
      exact (Formula.not_numbers_of_ofTokens hnext).elim

/--
Where an expression has a value, its variables have texts, and such a text is a literal if and only
if it is plain and spells no bare identifier of the expression.
-/
theorem isLiteral_iff_of_evaluate {ns : Namespace V} {separator : String} {trees : List TokenTree}
    {a : Arithmetic V} (built : ofTokens trees ns separator = .ok a) {context : Context}
    {x : Float} (evaluated : a.evaluate context = .ok x) {identifier : String} {v : V}
    (bound : a.bindings.lookup identifier = some v) :
    ∃ value, Variable.read v context = .ok value ∧
      (IsLiteral value.print.toList ↔ IsPlain value.print.toList ∧ ¬ a.IsBare value.print) := by
  obtain ⟨formula, hformula, -⟩ := bind_eq_ok_iff.mp evaluated
  obtain ⟨value, hread⟩ := readable_of_substituted built hformula identifier v bound
  refine ⟨value, hread, ?_, ?_⟩
  · exact fun literal => ⟨literal.isPlain, not_isBare_of_isLiteral built literal⟩
  · exact fun ⟨plain, free⟩ => isLiteral_of_evaluate built evaluated bound hread plain free

/-- `x * 2` over a field that holds a text. -/
def doubled : Arithmetic PathVariable where
  tokens := [.token "x", .token "*", .token "2"]
  bindings := [("x", { path := ["x"], kind := .text })]
  separator := ":"

/-- A context that gives `x` the text `text`. -/
def textContext (text : String) : Context := .object [("x", .text text)]

theorem doubled_built : ofTokens doubled.tokens (Namespace.paths .text) ":" = .ok doubled := rfl

/-- Only half of a sum is doubled when it is the text of the variable. -/
theorem sum_injected :
    ofTokens doubled.tokens (Namespace.paths .text) ":" = .ok doubled ∧
      doubled.evaluate (textContext "2 + 3") = .ok 8 ∧
      Variable.read (V := PathVariable) { path := ["x"], kind := .text } (textContext "2 + 3") =
        .ok (.text "2 + 3") ∧
      ¬ IsLiteral (Value.text "2 + 3").print.toList := by
  refine ⟨doubled_built, by decide +kernel, rfl, fun literal => ?_⟩
  exact absurd literal.isPlain.2 (by decide)

theorem doubled_isLiteral_iff :
    ofTokens doubled.tokens (Namespace.paths .text) ":" = .ok doubled ∧
      doubled.evaluate (textContext "-1") = .ok (-2) ∧
      doubled.bindings.lookup "x" = some { path := ["x"], kind := .text } ∧
      ∃ value, Variable.read (V := PathVariable) { path := ["x"], kind := .text }
          (textContext "-1") = .ok value ∧
        (IsLiteral value.print.toList ↔
          IsPlain value.print.toList ∧ ¬ doubled.IsBare value.print) := by
  have evaluated : doubled.evaluate (textContext "-1") = .ok (-2) := by decide +kernel
  have bound : doubled.bindings.lookup "x" = some { path := ["x"], kind := .text } := rfl
  exact ⟨doubled_built, evaluated, bound, isLiteral_iff_of_evaluate doubled_built evaluated bound⟩

end Comparand.Arithmetic
