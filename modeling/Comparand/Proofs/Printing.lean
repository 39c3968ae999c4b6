import Comparand.Proofs.Environment
import Comparand.Proofs.Parsing

/-!
# Expressions as texts

A tree is written with spaces between its tokens and with the parentheses that the grammar needs: an
operand is put in parentheses where its level is too loose for its place. What is written in this
way is read as the tree that it was written from, apart from the places of its nodes, since a double
is written so that it reads back.
-/
namespace Comparand.Formula

namespace Expr

/-- The level that an expression has by itself. -/
def level : Expr → Level
  | .literal .. => .primary
  | .negate .. => .unary
  | .binary _ operator _ _ => operator.level

/-- Puts the tokens of an expression in parentheses if it binds too loosely for its place. -/
def enclose (place own : Level) (tokens : List Token) : List Token :=
  if own.rank < place.rank then .opening :: tokens ++ [.closing] else tokens

/-- The tokens of an expression with the parentheses that it needs. -/
def tokens : Expr → List Token
  | .literal value _ => [.number value]
  | .negate operand _ => .minus :: enclose .unary operand.level operand.tokens
  | .binary left operator right _ =>
    enclose operator.left left.level left.tokens ++
      operator.token :: enclose operator.right right.level right.tokens

/-- The text of an expression, with single spaces between its tokens. -/
def print (e : Expr) : String := " ".intercalate (e.tokens.map Token.print)

/-- Whether all literals are doubles that a numeral can have: finite and without a sign. -/
def HasNumerals : Expr → Prop
  | .literal value _ => value.isFinite ∧ Binary64.isNegative value = false
  | .negate operand _ => operand.HasNumerals
  | .binary left _ right _ => left.HasNumerals ∧ right.HasNumerals

instance decidableHasNumerals : (e : Expr) → Decidable e.HasNumerals
  | .literal value _ =>
    inferInstanceAs (Decidable (value.isFinite ∧ Binary64.isNegative value = false))
  | .negate operand _ => decidableHasNumerals operand
  | .binary left _ right _ =>
    @instDecidableAnd _ _ (decidableHasNumerals left) (decidableHasNumerals right)

/-- An expression with all its nodes in one place. -/
def unplaced : Expr → Expr
  | .literal value _ => .literal value 0
  | .negate operand _ => .negate operand.unplaced 0
  | .binary left operator right _ => .binary left.unplaced operator right.unplaced 0

/-! ## The tokens derive the tree -/

/-- Where its parentheses are put, an expression may stand in the place that they are put for. -/
theorem derives_enclose {e : Expr} {place : Level}
    (derives : ∀ us : List Placed, us.map Prod.fst = e.tokens →
      ∃ e', Derives e.level us e' ∧ e'.unplaced = e.unplaced)
    {us : List Placed} (h : us.map Prod.fst = enclose place e.level e.tokens) :
    ∃ e', Derives place us e' ∧ e'.unplaced = e.unplaced := by
  unfold enclose at h
  split at h
  · rw [List.cons_append] at h
    obtain ⟨⟨_, opened⟩, rest, rfl, rfl, hrest⟩ := List.map_eq_cons_iff.mp h
    obtain ⟨ts, back, rfl, hts, hback⟩ := List.map_eq_append_iff.mp hrest
    obtain ⟨⟨_, closed⟩, _, rfl, rfl, hnil⟩ := List.map_eq_cons_iff.mp hback
    obtain rfl := List.map_eq_nil_iff.mp hnil
    obtain ⟨e', he', same⟩ := derives ts hts
    have hinside : Derives .additive ts e' := he'.weaken (Nat.zero_le _)
    have hgroup : Derives .primary ((.opening, opened) :: ts ++ [(.closing, closed)]) e' :=
      .group hinside
    refine ⟨e', hgroup.weaken ?_, same⟩
    cases place <;> decide
  · rename_i tight
    obtain ⟨e', he', same⟩ := derives us h
    exact ⟨e', he'.weaken (Nat.le_of_not_lt tight), same⟩

theorem exists_derives (e : Expr) {us : List Placed} (h : us.map Prod.fst = e.tokens) :
    ∃ e', Derives e.level us e' ∧ e'.unplaced = e.unplaced := by
  induction e generalizing us with
  | literal value position =>
    obtain ⟨⟨_, p⟩, _, rfl, rfl, hnil⟩ := List.map_eq_cons_iff.mp h
    obtain rfl := List.map_eq_nil_iff.mp hnil
    exact ⟨_, .number, rfl⟩
  | negate operand position ih =>
    obtain ⟨⟨_, p⟩, ts, rfl, rfl, hts⟩ := List.map_eq_cons_iff.mp h
    obtain ⟨e', he', same⟩ := derives_enclose (fun _ => ih) hts
    exact ⟨.negate e' p, .negation he', by rw [unplaced, unplaced, same]⟩
  | binary left operator right position ihl ihr =>
    obtain ⟨ts, rest, rfl, hts, hrest⟩ := List.map_eq_append_iff.mp h
    obtain ⟨⟨_, p⟩, vs, rfl, rfl, hvs⟩ := List.map_eq_cons_iff.mp hrest
    obtain ⟨l, hl, samel⟩ := derives_enclose (fun _ => ihl) hts
    obtain ⟨r, hr, samer⟩ := derives_enclose (fun _ => ihr) hvs
    exact ⟨.binary l operator r p, .binary hl hr, by rw [unplaced, unplaced, samel, samer]⟩

end Expr

/-! ## The text scans to the tokens -/

/-- Whether a token is read from the text that it is written as. -/
def Token.HasText : Token → Prop
  | .number value => value.isFinite ∧ Binary64.isNegative value = false
  | .blank => False
  | _ => True

theorem Token.scanFrom_print {token : Token} (h : token.HasText) :
    scanFrom 0 0 0 token.print.toList = .ok [(token, 0)] := by
  cases token with
  | number value =>
    obtain ⟨finite, sign⟩ := h
    obtain ⟨hmantissa, y, hread, hfinite, hvalue⟩ := Shortest.read?_positionalMagnitude finite
    rw [sign] at hvalue
    obtain rfl : value = y := hvalue
    have htext : (print (.number value)).toList = Shortest.positionalMagnitude value := by
      have hprint := Arithmetic.toList_positional finite
      rw [sign] at hprint
      exact hprint
    rw [htext]
    exact Arithmetic.scanFrom_numeral (Arithmetic.IsMantissa.isNumeral hmantissa) hread hfinite
      (by decide)
  | blank => exact h.elim
  | doubleStar | plus | minus | star | slash | opening | closing => rfl

theorem Token.scan_intercalate {tokens : List Token} (h : ∀ token ∈ tokens, token.HasText)
    (small : tokens.length ≤ maxTokens) :
    ∃ us, scan (" ".intercalate (tokens.map print)) = .ok us ∧ us.map Prod.fst = tokens := by
  have hpieces : List.Forall₂ (fun piece us => scanFrom 0 0 0 piece = .ok us)
      (tokens.map fun token => token.print.toList) (tokens.map fun token => [(token, 0)]) := by
    rw [List.forall₂_map_left_iff, List.forall₂_map_right_iff, List.forall₂_same]
    exact fun token mem => scanFrom_print (h token mem)
  have hflat : (tokens.map fun token => [(token, 0)]).flatten =
      tokens.map fun token => (token, 0) := by
    rw [← List.flatMap_def, ← List.map_eq_flatMap]
  obtain ⟨us, hus, hmap⟩ := (scanPieces_eq hpieces (Nat.zero_le maxTokens) 0).1
    (by simpa [hflat] using small)
  refine ⟨us, ?_, ?_⟩
  · rw [scan, String.toList_intercalate, List.map_map]
    exact (scanFrom_intercalate _ 0 0).trans hus
  · rw [hmap, hflat, List.map_map]
    exact List.map_id tokens

namespace Expr

theorem hasText_of_mem_enclose {place own : Level} {tokens : List Token}
    (h : ∀ token ∈ tokens, token.HasText) : ∀ token ∈ enclose place own tokens, token.HasText := by
  intro token mem
  unfold enclose at mem
  split at mem
  · simp only [List.cons_append, List.mem_cons, List.mem_append, List.not_mem_nil, or_false] at mem
    rcases mem with rfl | mem | rfl
    · trivial
    · exact h token mem
    · trivial
  · exact h token mem

theorem hasText_of_mem {e : Expr} (h : e.HasNumerals) : ∀ token ∈ e.tokens, token.HasText := by
  induction e with
  | literal value position =>
    intro token mem
    rw [List.mem_singleton.mp mem]
    exact h
  | negate operand position ih =>
    intro token mem
    rcases List.mem_cons.mp mem with rfl | mem
    · trivial
    · exact hasText_of_mem_enclose (ih h) token mem
  | binary left operator right position ihl ihr =>
    intro token mem
    rcases List.mem_append.mp mem with mem | mem
    · exact hasText_of_mem_enclose (ihl h.1) token mem
    · rcases List.mem_cons.mp mem with rfl | mem
      · cases operator <;> trivial
      · exact hasText_of_mem_enclose (ihr h.2) token mem

/--
The text of an expression is read as the expression, with its nodes in other places, if the literals
are doubles that numerals have and the tokens are within the limit.
-/
theorem ofTokens_scan_print (e : Expr) (numerals : e.HasNumerals)
    (small : e.tokens.length ≤ maxTokens) :
    ∃ us e', Token.scan e.print = .ok us ∧ us.map Prod.fst = e.tokens ∧
      Expr.ofTokens us = .ok e' ∧ e'.unplaced = e.unplaced := by
  obtain ⟨us, hscan, htokens⟩ := Token.scan_intercalate (hasText_of_mem numerals) small
  obtain ⟨e', he', same⟩ := exists_derives e htokens
  exact ⟨us, e', hscan, htokens, ofTokens_of_derives (he'.weaken (Nat.zero_le _)), same⟩

/-- A power whose base and exponent need parentheses, with a difference inside a difference. -/
def difference : Expr :=
  .binary (.negate (.literal 2 0) 0) .pow
    (.binary (.literal 3 0) .sub (.binary (.literal 4 0) .sub (.literal 0.5 0) 0) 0) 0

theorem difference_ofTokens_scan_print :
    difference.HasNumerals ∧ difference.tokens.length ≤ maxTokens ∧
      difference.print = "( - 2 ) ** ( 3 - ( 4 - 0.5 ) )" ∧
      ∃ us e', Token.scan difference.print = .ok us ∧ us.map Prod.fst = difference.tokens ∧
        Expr.ofTokens us = .ok e' ∧ e'.unplaced = difference.unplaced := by
  have numerals : difference.HasNumerals := by decide +kernel
  have small : difference.tokens.length ≤ maxTokens := by decide
  exact ⟨numerals, small, by decide +kernel, ofTokens_scan_print difference numerals small⟩

end Expr

end Comparand.Formula
