import Comparand.Proofs.Injection
import Comparand.Proofs.Lexemes
import Comparand.Proofs.Limits
import Comparand.Proofs.Positional

/-!
# Substituted text against values in place

An expression over numbers can be evaluated without any text of the numbers: each identifier is one
operand, which is the double that its variable has. The text that substitution makes of the same
expression scans to the same tokens, except that a negative double takes four of them, and so it has
the same value or the same kind of fault.
-/
namespace Comparand.Arithmetic
open Formula (Token Expr Fault Placed Agree Spells IsNumeral IsLiteral IsMantissa maxTokens)

/-! ## Values in place -/

section Direct
variable {V : Type}

/-- The one token that a text is. -/
def single (text : String) : Except Fault Token := do
  match ← Token.scan text with
  | [(token, _)] => return token
  | _ => .error .unexpectedEnd

/-- The operand or operator that stands for a token; identifiers stand for their values. -/
def atom (a : Arithmetic V) (values : String → Float) (token : String) : Except Fault Token :=
  if (a.bindings.lookup token).isSome then .ok (.number (values token))
  else if token = "^" then .ok .doubleStar
  else single token

/-- The value of an expression whose identifiers are operands of their own. -/
def direct (a : Arithmetic V) (values : String → Float) : Except Fault Float := do
  let atoms ← a.flattened.mapM (a.atom values)
  let e ← Expr.ofTokens atoms.zipIdx
  e.value

/-- The text that substitution puts in the place of a token. -/
def placed (a : Arithmetic V) (values : String → Float) (token : String) : String :=
  if (a.bindings.lookup token).isSome then operandText (.real (values token)) else token

end Direct

/-! ## Texts of doubles -/

theorem toList_positional {x : Float} (finite : x.isFinite) :
    (Value.real x).print.toList = if Binary64.isNegative x
      then '-' :: Shortest.positionalMagnitude x else Shortest.positionalMagnitude x := by
  change (Shortest.positional x).toList = _
  simp only [Shortest.positional, Binary64.isNaN_eq_false_of_isFinite finite,
    Binary64.isInf_eq_false_of_isFinite finite, Bool.false_eq_true, if_false, String.toList_ofList]

theorem IsMantissa.isNumeral {text : List Char} (h : IsMantissa text) : IsNumeral text :=
  ⟨text, [], h, .absent, (List.append_nil text).symm⟩

theorem unsignedPart_of_isNumeral {text : List Char} (h : IsNumeral text) :
    Formula.unsignedPart text = text := by
  unfold Formula.unsignedPart
  split
  · have hbegins := beginsNumerically_of_isNumeral h
    cases hbegins
  · rfl

theorem isLiteral_print {x : Float} (finite : x.isFinite) :
    IsLiteral (Value.real x).print.toList := by
  have hnumeral := IsMantissa.isNumeral (Shortest.read?_positionalMagnitude finite).1
  rw [toList_positional finite, IsLiteral]
  split
  · exact hnumeral
  · rw [unsignedPart_of_isNumeral hnumeral]
    exact hnumeral

/-! ## Scans of single tokens -/

theorem not_isBlank_of_beginsNumerically {c : Char} {rest : List Char}
    (h : Identifier.beginsNumerically (c :: rest)) : ¬ Text.isBlank c := by
  simp only [Identifier.beginsNumerically, Bool.or_eq_true, decide_eq_true_eq] at h
  rcases h with h | rfl
  · intro hb
    have hends := Formula.endsWord_of_isDigit h
    simp [TokenTree.endsWord, hb] at hends
  · decide

theorem scanFrom_numeral {text : List Char} {y : Float} (numeral : IsNumeral text)
    (hread : Decimal.read? text = some y) (finite : y.isFinite) {found position : Nat}
    (room : found < maxTokens) :
    Token.scanFrom found position 0 text = .ok [(.number y, position)] := by
  obtain ⟨c, rest, rfl⟩ := List.exists_cons_of_ne_nil numeral.ne_nil
  refine Token.scanFrom_whole
    (not_isBlank_of_beginsNumerically (beginsNumerically_of_isNumeral numeral)) ?_ room
  rw [Token.head_of_isNumeral numeral, hread]
  exact if_pos finite

theorem scanFrom_parenthesised {text : List Char} {y : Float} (numeral : IsNumeral text)
    (hread : Decimal.read? text = some y) (finite : y.isFinite) :
    ∃ p₁ p₂ p₃ p₄, Token.scanFrom 0 0 0 ('(' :: '-' :: (text ++ [')'])) =
      .ok [(.opening, p₁), (.minus, p₂), (.number y, p₃), (.closing, p₄)] := by
  have hclosing : ∀ position, Token.scanFrom 3 position 0 [')'] = .ok [(.closing, position)] :=
    fun position => Token.scanFrom_whole (by decide) (Token.head_of_symbol? rfl (by decide) _ _)
      (by decide)
  rw [Token.scanFrom_of_head (by decide) (Token.head_of_symbol? rfl (by decide) _ _),
    if_neg (by decide), Nat.sub_self,
    Token.scanFrom_of_head (by decide) (Token.head_of_symbol? rfl (by decide) _ _),
    if_neg (by decide), Nat.sub_self, Token.scanFrom_append_delimiter (.inr rfl) (Nat.zero_le _),
    scanFrom_numeral numeral hread finite (by decide), ok_bind, List.length_singleton, hclosing]
  exact ⟨_, _, _, _, rfl⟩

/-! ## Tokens and the texts in their places -/

theorem caret_not_mem_of_isNumeral {text : List Char} (h : IsNumeral text) : '^' ∉ text :=
  h.not_mem (by decide) (by decide)

/-- The text of a double scans to the double, or to its negation in parentheses. -/
theorem spells_operandText {x : Float} (finite : x.isFinite) :
    ∃ us, Token.scanFrom 0 0 0 (spelled (operandText (.real x)).toList) = .ok us ∧
      Spells [.number x] us ∧ us.length = if Binary64.isNegative x then 4 else 1 := by
  obtain ⟨hmantissa, y, hread, hfinite, hx⟩ := Shortest.read?_positionalMagnitude finite
  have hnumeral := IsMantissa.isNumeral hmantissa
  have hcaret := caret_not_mem_of_isNumeral hnumeral
  have hprint := toList_positional finite
  have hoperand := toList_operandText (.real x)
  rw [hprint] at hoperand
  cases hsign : Binary64.isNegative x with
  | false =>
    rw [hsign] at hoperand hprint hx
    rcases hoperand with ⟨text, hminus, -⟩ | ⟨-, hself⟩
    · rw [show Shortest.positionalMagnitude x = '-' :: text from hminus] at hnumeral
      cases beginsNumerically_of_isNumeral hnumeral
    · rw [hself, hprint]
      refine ⟨[(.number y, 0)], ?_, ?_, rfl⟩
      · rw [if_neg (by decide), spelled_eq_self hcaret]
        exact scanFrom_numeral hnumeral hread hfinite (by decide)
      · rw [show x = y from hx]
        exact .same .nil
  | true =>
    rw [hsign] at hoperand hx
    rcases hoperand with ⟨text, hminus, hgroup⟩ | ⟨hself, -⟩
    · obtain rfl : Shortest.positionalMagnitude x = text := (List.cons.inj hminus).2
      have hspelled : spelled ('(' :: '-' :: (Shortest.positionalMagnitude x ++ [')'])) =
          '(' :: '-' :: (Shortest.positionalMagnitude x ++ [')']) :=
        spelled_eq_self (by simpa using hcaret)
      rw [hgroup, hspelled]
      obtain ⟨p₁, p₂, p₃, p₄, hscan⟩ := scanFrom_parenthesised hnumeral hread hfinite
      refine ⟨_, hscan, ?_, rfl⟩
      rw [show x = -y from hx]
      exact .negative .nil
    · have hlength := congrArg List.length hself
      change (Shortest.positionalMagnitude x).length =
        (Shortest.positionalMagnitude x).length + 1 at hlength
      omega

theorem agree_single {token : String}
    (whole : ∀ us, Token.scan token = .ok us → ∃ b position, us = [(b, position)]) :
    Agree (fun b us => Spells [b] us ∧ us.length = 1) (single token)
      (Token.scanFrom 0 0 0 token.toList) := by
  change Agree _ (single token) (Token.scan token)
  rw [single]
  cases hscan : Token.scan token with
  | error fault => exact .error rfl
  | ok us =>
    obtain ⟨b, position, rfl⟩ := whole us hscan
    exact .ok ⟨.same .nil, rfl⟩

theorem scan_of_isNumeral {token : String} (numeral : IsNumeral token.toList)
    {us : List Placed} (h : Token.scan token = .ok us) :
    ∃ value, Decimal.read? token.toList = some value ∧ value.isFinite ∧
      us = [(.number value, 0)] := by
  obtain ⟨c, rest, hcons⟩ := List.exists_cons_of_ne_nil numeral.ne_nil
  rw [Token.scan, hcons] at h
  rw [hcons] at numeral ⊢
  have hblank := not_isBlank_of_beginsNumerically (beginsNumerically_of_isNumeral numeral)
  have hhead := Token.head_of_isNumeral numeral 0
  cases hread : Decimal.read? (c :: rest) with
  | none =>
    rw [hread] at hhead
    rw [Token.scanFrom_of_head_error hblank hhead] at h
    cases h
  | some value =>
    rw [hread] at hhead
    dsimp only at hhead
    split at hhead
    · rename_i finite
      rw [Token.scanFrom_whole hblank hhead (by decide)] at h
      cases h
      exact ⟨value, rfl, finite, rfl⟩
    · rw [Token.scanFrom_of_head_error hblank hhead] at h
      cases h

theorem scan_of_mem_symbols {token : String} (symbol : token.toList ∈ TokenTree.symbols)
    (hpower : token ≠ "^") :
    '^' ∉ token.toList ∧ ∃ b position, Token.scan token = .ok [(b, position)] := by
  have hne : token.toList ≠ ['^'] := fun h => hpower (String.toList_inj.mp h)
  rw [Token.scan]
  generalize token.toList = text at symbol hne
  simp only [TokenTree.symbols, List.mem_cons, List.not_mem_nil, or_false] at symbol
  rcases symbol with rfl | rfl | rfl | rfl | rfl | rfl | rfl | rfl
  · exact ⟨by decide, .plus, 0, rfl⟩
  · exact ⟨by decide, .minus, 0, rfl⟩
  · exact ⟨by decide, .star, 0, rfl⟩
  · exact ⟨by decide, .slash, 0, rfl⟩
  · exact absurd rfl hne
  · exact ⟨by decide, .doubleStar, 0, rfl⟩
  · exact ⟨by decide, .opening, 0, rfl⟩
  · exact ⟨by decide, .closing, 0, rfl⟩

variable {V : Type} {a : Arithmetic V} {values : String → Float}

/-- The number of tokens that stand in the place of one: a negative double takes four. -/
def width (a : Arithmetic V) (values : String → Float) (token : String) : Nat :=
  if (a.bindings.lookup token).isSome ∧ Binary64.isNegative (values token) then 4 else 1

theorem agree_atom {token : String}
    (finite : (a.bindings.lookup token).isSome → (values token).isFinite)
    (known : (a.bindings.lookup token).isSome ∨ IsNumeral token.toList ∨
      token.toList ∈ TokenTree.symbols) :
    Agree (fun b us => Spells [b] us ∧ us.length = a.width values token) (a.atom values token)
      (Token.scanFrom 0 0 0 (spelled (a.placed values token).toList)) := by
  by_cases bound : (a.bindings.lookup token).isSome
  · obtain ⟨us, hscan, hspells, hlength⟩ := spells_operandText (finite bound)
    rw [placed, if_pos bound, atom, if_pos bound, hscan]
    exact .ok ⟨hspells, by simpa only [width, bound, true_and] using hlength⟩
  · have hwidth : a.width values token = 1 := if_neg fun h => bound h.1
    rw [placed, if_neg bound, atom, if_neg bound, hwidth]
    rcases known.resolve_left bound with numeral | symbol
    · have hcaret := caret_not_mem_of_isNumeral numeral
      have hpower : token ≠ "^" := by
        rintro rfl
        exact hcaret (by decide)
      rw [if_neg hpower, spelled_eq_self hcaret]
      refine agree_single fun us hus => ?_
      obtain ⟨value, -, -, rfl⟩ := scan_of_isNumeral numeral hus
      exact ⟨_, _, rfl⟩
    · by_cases hpower : token = "^"
      · subst hpower
        exact .ok ⟨.same .nil, rfl⟩
      · obtain ⟨hcaret, b, position, hscan⟩ := scan_of_mem_symbols symbol hpower
        rw [if_neg hpower, spelled_eq_self hcaret]
        exact agree_single fun us hus => ⟨b, position, Except.ok.inj (hus.symm.trans hscan)⟩

theorem agree_atoms {tokens : List String}
    (finite : ∀ token, (a.bindings.lookup token).isSome → (values token).isFinite)
    (known : ∀ token ∈ tokens, (a.bindings.lookup token).isSome ∨ IsNumeral token.toList ∨
      token.toList ∈ TokenTree.symbols) {found position : Nat}
    (fits : Token.Fits (Token.scanPieces found position
      (tokens.map fun token => spelled (a.placed values token).toList))) :
    Agree Spells (tokens.mapM (a.atom values)) (Token.scanPieces found position
      (tokens.map fun token => spelled (a.placed values token).toList)) := by
  induction tokens generalizing found position with
  | nil => exact .ok .nil
  | cons token tokens ih =>
    rw [List.map_cons, Token.scanPieces] at fits ⊢
    rw [List.mapM_cons]
    have hhead : Agree (fun b us => Spells [b] us) (a.atom values token) _ :=
      (agree_atom (finite token) (known token (by simp))).trans
        (Token.agree_scanFrom fits.of_bind) fun _ _ _ h same => h.1.of_map_fst_eq same
    rcases hhead.ok_or_error with ⟨b, us, hatom, hscan, hspells⟩ |
      ⟨fault, fault', hatom, hscan, same⟩
    · rw [hscan, ok_bind] at fits
      rw [hatom, hscan]
      refine (ih (fun other mem => known other (List.mem_cons_of_mem token mem))
        fits.of_bind).bind fun bs vs hrest => ?_
      exact .ok (hspells.append hrest)
    · rw [hatom, hscan]
      exact .error same

/-! ## Whole expressions -/

section Evaluate
variable {ns : Namespace V} {source separator : String} {context : Context}

/-- The text of an expression scans to what its tokens stand for. -/
theorem agree_scan (built : ofText source ns separator = .ok a)
    (finite : ∀ token, (a.bindings.lookup token).isSome → (values token).isFinite)
    (fits : Token.Fits
      (Token.scan (spellPowers (" ".intercalate (a.flattened.map (a.placed values)))))) :
    Agree Spells (a.flattened.mapM (a.atom values))
      (Token.scan (spellPowers (" ".intercalate (a.flattened.map (a.placed values))))) := by
  rw [Token.scan, toList_spellPowers_intercalate, Token.scanFrom_intercalate, List.map_map]
    at fits ⊢
  exact agree_atoms finite (flattened_of_ofText built) fits

variable [Variable V]

theorem isFinite_of_reads
    (reads : ∀ identifier v, a.bindings.lookup identifier = some v →
      Variable.read v context = .ok (.real (values identifier)) ∧ (values identifier).isFinite)
    (token : String) (bound : (a.bindings.lookup token).isSome) : (values token).isFinite := by
  obtain ⟨v, hv⟩ := Option.isSome_iff_exists.mp bound
  exact (reads token v hv).2

/-- What substitution makes of finite doubles: no text of theirs is taken for an identifier. -/
theorem substituted_eq_placed (built : ofText source ns separator = .ok a)
    (reads : ∀ identifier v, a.bindings.lookup identifier = some v →
      Variable.read v context = .ok (.real (values identifier)) ∧ (values identifier).isFinite) :
    a.substituted context =
      .ok (spellPowers (" ".intercalate (a.flattened.map (a.placed values)))) := by
  obtain ⟨trees, -, htokens⟩ := ofTokens_of_ofText built
  have hreplace : ∀ token, a.replacement context token = .ok (a.placed values token) := by
    intro token
    unfold replacement placed
    cases hv : a.bindings.lookup token with
    | none => rfl
    | some v =>
      simp only [(reads token v hv).1]
      rfl
  have hfree : ∀ token, ¬ a.IsBare (a.placed values token) := by
    intro token
    unfold placed
    split
    · rename_i bound
      obtain ⟨v, hv⟩ := Option.isSome_iff_exists.mp bound
      exact not_isBare_operandText htokens
        (not_isBare_of_isLiteral htokens (isLiteral_print (reads token v hv).2))
    · rename_i free
      exact fun bare => free bare.1
  rw [substituted_eq_afterStages hreplace, List.map_congr_left fun token _ =>
    afterStages_eq hreplace (not_captured (hreplace token) (hfree token))]

/--
An expression over finite doubles has the value that it has with its values in place, or fails for
the same cause, as long as its text keeps within the limit on tokens.
-/
theorem evaluate_agrees_direct (built : ofText source ns separator = .ok a)
    (reads : ∀ identifier v, a.bindings.lookup identifier = some v →
      Variable.read v context = .ok (.real (values identifier)) ∧ (values identifier).isFinite)
    (fits : ∀ formula, a.substituted context = .ok formula →
      Token.scan formula ≠ .error (.tooManyTokens maxTokens)) :
    ∃ formula, a.substituted context = .ok formula ∧
      ((∃ x, a.direct values = .ok x ∧ a.evaluate context = .ok x) ∨
        ∃ fault cause, a.direct values = .error fault ∧
          a.evaluate context = .error (.unsafeExpression formula cause) ∧
          cause.SameCause fault) := by
  have hformula := substituted_eq_placed built reads
  set formula := spellPowers (" ".intercalate (a.flattened.map (a.placed values)))
  have finite := isFinite_of_reads reads
  have hagree : Agree Eq (a.direct values) (Formula.evaluate formula) := by
    refine (agree_scan built finite (fits formula hformula)).bind fun atoms tokens hspells => ?_
    refine hspells.ofTokens.bind fun e e' halike => ?_
    rw [halike.value_eq]
    cases e'.value with
    | error fault => exact .error rfl
    | ok x => exact .ok rfl
  refine ⟨formula, hformula, ?_⟩
  rw [evaluate, hformula, ok_bind]
  rcases hagree.ok_or_error with ⟨x, _, hdirect, hevaluate, rfl⟩ |
    ⟨fault, cause, hdirect, hevaluate, same⟩
  · exact .inl ⟨x, hdirect, by rw [hevaluate]; rfl⟩
  · exact .inr ⟨fault, cause, hdirect, by rw [hevaluate]; rfl, same.symm⟩

end Evaluate

/-- `ns:x ^ 2` over a field that holds a number. -/
def square : Arithmetic PathVariable where
  tokens := [.token "ns:x", .token "^", .token "2"]
  bindings := [("ns:x", { path := ["ns", "x"], kind := .number })]
  separator := ":"

/-- The number is negative zero. -/
def negativeContext : Context := .object [("ns", .object [("x", .text "-0")])]

theorem square_built : ofText "ns:x ^ 2" (Namespace.paths .number) ":" = .ok square := by
  have hscan : TokenTree.scanFrom ":".toList 0 [] 0 "ns:x ^ 2".toList = .ok ["ns:x", "^", "2"] := by
    decide +kernel
  rw [ofText, TokenTree.ofText, hscan]
  rfl

theorem square_reads (identifier : String) (v : PathVariable)
    (h : square.bindings.lookup identifier = some v) :
    Variable.read v negativeContext = .ok (.real (-0)) ∧ (-0 : Float).isFinite := by
  have hzero : Decimal.toFloat true 0 0 = -0 := by decide +kernel
  simp only [square, List.lookup_cons] at h
  split at h
  · cases h
    exact ⟨hzero ▸ rfl, by decide +kernel⟩
  · cases h

theorem square_fits (formula : String) (h : square.substituted negativeContext = .ok formula) :
    Token.scan formula ≠ .error (.tooManyTokens maxTokens) := by
  have hformula : square.substituted negativeContext = .ok "(-0) ** 2" := by decide +kernel
  rw [hformula] at h
  cases h
  decide +kernel

theorem square_agrees_direct :
    ofText "ns:x ^ 2" (Namespace.paths .number) ":" = .ok square ∧
      (∀ identifier v, square.bindings.lookup identifier = some v →
        Variable.read v negativeContext = .ok (.real (-0)) ∧ (-0 : Float).isFinite) ∧
      (∀ formula, square.substituted negativeContext = .ok formula →
        Token.scan formula ≠ .error (.tooManyTokens maxTokens)) ∧
      ∃ formula, square.substituted negativeContext = .ok formula ∧
        ((∃ x, square.direct (fun _ => -0) = .ok x ∧
            square.evaluate negativeContext = .ok x) ∨
          ∃ fault cause, square.direct (fun _ => -0) = .error fault ∧
            square.evaluate negativeContext = .error (.unsafeExpression formula cause) ∧
            cause.SameCause fault) :=
  ⟨square_built, square_reads, square_fits,
    evaluate_agrees_direct square_built square_reads square_fits⟩

end Comparand.Arithmetic
