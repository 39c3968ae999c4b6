import Comparand.Proofs.Environment
import Comparand.Proofs.Faults
import Comparand.Proofs.Parsing

/-!
# Well-formed expressions

Whether an expression is a formula is a matter of its tokens alone: with other doubles in the places
of its identifiers it has a tree of the same shape. The text that is made of it for an evaluation
knows the values, though, and a negative one takes four tokens of it, so that the same expression
may keep within the limit under one context and run into it under another. That is the only way in
which the values decide whether an evaluation gets as far as the arithmetic.
-/
namespace Comparand
open Formula (Token Expr Fault Placed Agree Spells IsNumeral maxTokens)

namespace Formula

/-! ## Trees of one shape -/

/-- A token without the value of a number. -/
def Token.shape : Token → Token
  | .number _ => .number 0
  | token => token

theorem Token.eq_of_shape_eq {token token' : Token} (h : token'.shape = token.shape)
    (symbol : ∀ value, token ≠ .number value) : token' = token := by
  cases token <;> cases token' <;> simp_all [shape]

def shapes (tokens : List Placed) : List Placed :=
  tokens.map fun (token, position) => (token.shape, position)

theorem exists_of_shapes_eq {us ts vs : List Placed} {token : Token} {position : Nat}
    (same : shapes us = shapes (ts ++ (token, position) :: vs))
    (symbol : ∀ value, token ≠ .number value) :
    ∃ ts' vs', us = ts' ++ (token, position) :: vs' ∧ shapes ts' = shapes ts ∧
      shapes vs' = shapes vs := by
  simp only [shapes, List.map_append, List.map_cons] at same
  obtain ⟨ts', rest, rfl, hts, hrest⟩ := List.map_eq_append_iff.mp same
  obtain ⟨⟨token', position'⟩, vs', rfl, hplaced, hvs⟩ := List.map_eq_cons_iff.mp hrest
  obtain ⟨htoken, rfl⟩ := Prod.mk.inj hplaced
  obtain rfl := Token.eq_of_shape_eq htoken symbol
  exact ⟨ts', vs', rfl, hts, hvs⟩

theorem Operator.token_ne_number (operator : Operator) (value : Float) :
    operator.token ≠ .number value := by
  cases operator <;> simp [Operator.token]

/-- With other numbers in the same places there is a derivation of the same rules. -/
theorem Derives.of_shapes_eq {level : Level} {ts us : List Placed} {e : Expr}
    (h : Derives level ts e) (same : shapes us = shapes ts) : ∃ e', Derives level us e' := by
  induction h generalizing us with
  | term _ ih =>
    obtain ⟨e', he'⟩ := ih same
    exact ⟨e', .term he'⟩
  | factor _ ih =>
    obtain ⟨e', he'⟩ := ih same
    exact ⟨e', .factor he'⟩
  | unsigned _ ih =>
    obtain ⟨e', he'⟩ := ih same
    exact ⟨e', .unsigned he'⟩
  | base _ ih =>
    obtain ⟨e', he'⟩ := ih same
    exact ⟨e', .base he'⟩
  | @sum _ _ _ _ operator _ hop _ _ ihl ihr =>
    obtain ⟨_, _, rfl, hts, hvs⟩ := exists_of_shapes_eq same operator.token_ne_number
    obtain ⟨left, hleft⟩ := ihl hts
    obtain ⟨right, hright⟩ := ihr hvs
    exact ⟨_, .sum hop hleft hright⟩
  | @product _ _ _ _ operator _ hop _ _ ihl ihr =>
    obtain ⟨_, _, rfl, hts, hvs⟩ := exists_of_shapes_eq same operator.token_ne_number
    obtain ⟨left, hleft⟩ := ihl hts
    obtain ⟨right, hright⟩ := ihr hvs
    exact ⟨_, .product hop hleft hright⟩
  | power _ _ ihl ihr =>
    obtain ⟨_, _, rfl, hts, hvs⟩ := exists_of_shapes_eq same Operator.pow.token_ne_number
    obtain ⟨base, hbase⟩ := ihl hts
    obtain ⟨exponent, hexponent⟩ := ihr hvs
    exact ⟨_, .power hbase hexponent⟩
  | @negation ts _ position _ ih =>
    have same' : shapes us = shapes ([] ++ (.minus, position) :: ts) := same
    obtain ⟨front, rest, rfl, hfront, hrest⟩ :=
      exists_of_shapes_eq same' Operator.sub.token_ne_number
    obtain rfl := List.map_eq_nil_iff.mp hfront
    obtain ⟨e', he'⟩ := ih hrest
    exact ⟨_, .negation he'⟩
  | number =>
    obtain ⟨⟨token, position⟩, rest, rfl, hplaced, hrest⟩ := List.map_eq_cons_iff.mp same
    obtain rfl := List.map_eq_nil_iff.mp hrest
    cases token <;> cases hplaced
    exact ⟨_, .number⟩
  | @group ts _ opened closed _ ih =>
    have same' : shapes us = shapes ([] ++ (.opening, opened) :: (ts ++ [(.closing, closed)])) :=
      same
    obtain ⟨front, rest, rfl, hfront, hrest⟩ := exists_of_shapes_eq same' (by simp)
    obtain rfl := List.map_eq_nil_iff.mp hfront
    obtain ⟨inner, back, rfl, hinner, hback⟩ := exists_of_shapes_eq hrest (by simp)
    obtain rfl := List.map_eq_nil_iff.mp hback
    obtain ⟨e', he'⟩ := ih hinner
    exact ⟨e', .group he'⟩

end Formula

namespace Arithmetic
open Formula (shapes)

/-! ## Expressions over values -/

section Reading
variable {V : Type} {a : Arithmetic V} {values : String → Float}

/-- The tree of an expression whose identifiers are operands of their own. -/
def reading (a : Arithmetic V) (values : String → Float) : Except Fault Expr := do
  let atoms ← a.flattened.mapM (a.atom values)
  Expr.ofTokens atoms.zipIdx

theorem direct_eq (a : Arithmetic V) (values : String → Float) :
    a.direct values = a.reading values >>= Expr.value := by
  simp only [direct, reading, bind_assoc]

/-- Whether an expression is a formula once its identifiers are operands. -/
def IsFormula (a : Arithmetic V) : Prop := ∃ values e, a.reading values = .ok e

/-- The number of tokens of the text that substitution makes of an expression. -/
def tokenCount (a : Arithmetic V) (values : String → Float) : Nat :=
  (a.flattened.map (a.width values)).sum

theorem atom_shape {token : String} {b : Token} (h : a.atom values token = .ok b)
    (values' : String → Float) :
    ∃ b', a.atom values' token = .ok b' ∧ b'.shape = b.shape := by
  unfold atom at h ⊢
  split
  · rename_i bound
    rw [if_pos bound] at h
    cases h
    exact ⟨_, rfl, rfl⟩
  · rename_i free
    rw [if_neg free] at h
    exact ⟨b, h, rfl⟩

theorem atoms_shape {tokens : List String} {atoms : List Token}
    (h : tokens.mapM (a.atom values) = .ok atoms) (values' : String → Float) :
    ∃ atoms', tokens.mapM (a.atom values') = .ok atoms' ∧
      atoms'.map Token.shape = atoms.map Token.shape := by
  induction tokens generalizing atoms with
  | nil =>
    cases h
    exact ⟨[], rfl, rfl⟩
  | cons token tokens ih =>
    obtain ⟨b, bs, hatom, hatoms, rfl⟩ := mapM_cons_eq_ok_iff.mp h
    obtain ⟨b', hatom', hshape⟩ := atom_shape hatom values'
    obtain ⟨bs', hatoms', hshapes⟩ := ih hatoms
    refine ⟨b' :: bs', mapM_cons_eq_ok_iff.mpr ⟨b', bs', hatom', hatoms', rfl⟩, ?_⟩
    rw [List.map_cons, List.map_cons, hshape, hshapes]

theorem shapes_zipIdx (atoms : List Token) :
    shapes atoms.zipIdx = (atoms.map Token.shape).zipIdx := by
  rw [shapes, List.zipIdx_map]
  rfl

/-- If an expression has a tree over some values, then it has one over all. -/
theorem IsFormula.exists_reading (h : a.IsFormula) (values : String → Float) :
    ∃ e, a.reading values = .ok e := by
  obtain ⟨values', e, hreading⟩ := h
  obtain ⟨atoms, hatoms, htree⟩ := bind_eq_ok_iff.mp hreading
  obtain ⟨atoms', hatoms', hshape⟩ := atoms_shape hatoms values
  have same : shapes atoms'.zipIdx = shapes atoms.zipIdx := by
    rw [shapes_zipIdx, shapes_zipIdx, hshape]
  obtain ⟨e', he'⟩ := (Formula.derives_of_ofTokens htree).of_shapes_eq same
  exact ⟨e', bind_eq_ok_iff.mpr ⟨atoms', hatoms', Formula.ofTokens_of_derives he'⟩⟩

theorem exists_pieces {tokens : List String} {atoms : List Token}
    (finite : ∀ token, (a.bindings.lookup token).isSome → (values token).isFinite)
    (known : ∀ token ∈ tokens, (a.bindings.lookup token).isSome ∨ IsNumeral token.toList ∨
      token.toList ∈ TokenTree.symbols) (h : tokens.mapM (a.atom values) = .ok atoms) :
    ∃ pieces, List.Forall₂ (fun piece us => Token.scanFrom 0 0 0 piece = .ok us)
        (tokens.map fun token => spelled (a.placed values token).toList) pieces ∧
      pieces.flatten.length = (tokens.map (a.width values)).sum := by
  induction tokens generalizing atoms with
  | nil => exact ⟨[], .nil, rfl⟩
  | cons token tokens ih =>
    obtain ⟨b, bs, hatom, hatoms, rfl⟩ := mapM_cons_eq_ok_iff.mp h
    have hagree := agree_atom (finite token) (known token (by simp))
    obtain ⟨pieces, hpieces, hlength⟩ :=
      ih (fun other mem => known other (List.mem_cons_of_mem token mem)) hatoms
    rw [hatom] at hagree
    generalize hscan : Token.scanFrom 0 0 0 _ = scanned at hagree
    cases hagree with
    | @ok _ us both =>
      refine ⟨us :: pieces, .cons hscan hpieces, ?_⟩
      rw [List.flatten_cons, List.length_append, List.map_cons, List.sum_cons, hlength, both.2]

variable {ns : Namespace V} {source separator : String}

/-- The text of an expression with the texts of doubles in the places of its identifiers. -/
def placedText (a : Arithmetic V) (values : String → Float) : String :=
  spellPowers (" ".intercalate (a.flattened.map (a.placed values)))

/-- Within the limit on tokens the text spells the tree of the values themselves, or none. -/
theorem agree_tree (built : ofText source ns separator = .ok a)
    (finite : ∀ token, (a.bindings.lookup token).isSome → (values token).isFinite)
    (fits : Token.Fits (Token.scan (a.placedText values))) :
    Agree Expr.Alike (a.reading values) (Formula.tree (a.placedText values)) :=
  (agree_scan built finite fits).bind fun _ _ hspells => hspells.ofTokens

theorem scan_placedText (built : ofText source ns separator = .ok a)
    (finite : ∀ token, (a.bindings.lookup token).isSome → (values token).isFinite) {e : Expr}
    (h : a.reading values = .ok e) :
    (a.tokenCount values ≤ maxTokens → ∃ us, Token.scan (a.placedText values) = .ok us) ∧
      (maxTokens < a.tokenCount values →
        Token.scan (a.placedText values) = .error (.tooManyTokens maxTokens)) := by
  obtain ⟨atoms, hatoms, -⟩ := bind_eq_ok_iff.mp h
  obtain ⟨pieces, hpieces, hlength⟩ := exists_pieces finite (flattened_of_ofText built) hatoms
  obtain ⟨within, beyond⟩ := Token.scanPieces_eq hpieces (Nat.zero_le maxTokens) 0
  rw [hlength, Nat.zero_add] at within beyond
  rw [Token.scan, placedText, toList_spellPowers_intercalate, Token.scanFrom_intercalate,
    List.map_map]
  exact ⟨fun small => (within small).imp fun _ h => h.1, beyond⟩

end Reading

section Evaluate
variable {V : Type} [Variable V] {a : Arithmetic V} {ns : Namespace V} {source separator : String}

/-- Whether an evaluation does not get as far as the arithmetic. -/
def FailsByGrammar (a : Arithmetic V) (context : Context) : Prop :=
  ∃ formula fault, a.evaluate context = .error (.unsafeExpression formula fault) ∧
    fault.IsGrammatical

/--
The text of an expression spells a tree exactly if there is one over the values themselves and the
text keeps within the limit on tokens, and the two trees have the same value.
-/
theorem tree_iff_reading {context : Context} {values : String → Float}
    (built : ofText source ns separator = .ok a)
    (reads : ∀ identifier v, a.bindings.lookup identifier = some v →
      Variable.read v context = .ok (.real (values identifier)) ∧ (values identifier).isFinite) :
    ∃ formula, a.substituted context = .ok formula ∧ ∀ y,
      (∃ e, Formula.tree formula = .ok e ∧ e.value = y) ↔
        ∃ e, a.reading values = .ok e ∧ e.value = y ∧ a.tokenCount values ≤ maxTokens := by
  have finite := isFinite_of_reads reads
  refine ⟨a.placedText values, substituted_eq_placed built reads, fun y => ?_⟩
  constructor
  · rintro ⟨e', htree, rfl⟩
    obtain ⟨us, hscan, -⟩ := bind_eq_ok_iff.mp htree
    have hagree := agree_tree built finite (by simp [Token.Fits, hscan])
    rw [htree] at hagree
    generalize hreading : a.reading values = read at hagree
    cases hagree with
    | @ok e _ alike =>
      refine ⟨e, rfl, alike.value_eq, ?_⟩
      by_contra full
      have hfull := (scan_placedText built finite hreading).2 (Nat.lt_of_not_le full)
      cases hscan.symm.trans hfull
  · rintro ⟨e, hreading, rfl, small⟩
    obtain ⟨us, hscan⟩ := (scan_placedText built finite hreading).1 small
    have hagree := agree_tree built finite (by simp [Token.Fits, hscan])
    rw [hreading] at hagree
    generalize htree : Formula.tree (a.placedText values) = spelled at hagree
    cases hagree with
    | @ok _ e' alike => exact ⟨e', rfl, alike.value_eq.symm⟩

theorem evaluate_eq_ok_iff {context : Context} {values : String → Float} {x : Float}
    (built : ofText source ns separator = .ok a)
    (reads : ∀ identifier v, a.bindings.lookup identifier = some v →
      Variable.read v context = .ok (.real (values identifier)) ∧ (values identifier).isFinite) :
    a.evaluate context = .ok x ↔
      a.direct values = .ok x ∧ a.tokenCount values ≤ maxTokens := by
  obtain ⟨formula, hformula, htree⟩ := tree_iff_reading built reads
  rw [evaluate, hformula, ok_bind, mapError_eq_ok_iff, Formula.evaluate_eq_bind, bind_eq_ok_iff,
    htree, direct_eq, bind_eq_ok_iff]
  simp only [exists_and_right, ← and_assoc]

theorem failsByGrammar_iff {context : Context} {values : String → Float}
    (built : ofText source ns separator = .ok a)
    (reads : ∀ identifier v, a.bindings.lookup identifier = some v →
      Variable.read v context = .ok (.real (values identifier)) ∧ (values identifier).isFinite) :
    a.FailsByGrammar context ↔ ¬ (a.IsFormula ∧ a.tokenCount values ≤ maxTokens) := by
  obtain ⟨formula, hformula, htree⟩ := tree_iff_reading built reads
  have hfails : a.FailsByGrammar context ↔
      ∃ fault, Formula.evaluate formula = .error fault ∧ fault.IsGrammatical := by
    rw [FailsByGrammar, evaluate, hformula, ok_bind]
    cases Formula.evaluate formula with
    | error fault =>
      constructor
      · rintro ⟨_, _, h, hgrammatical⟩
        cases h
        exact ⟨fault, rfl, hgrammatical⟩
      · rintro ⟨_, h, hgrammatical⟩
        cases h
        exact ⟨formula, fault, rfl, hgrammatical⟩
    | ok x => simp [Except.mapError]
  rw [hfails, Formula.exists_isGrammatical_iff, not_iff_not]
  constructor
  · rintro ⟨e', he'⟩
    obtain ⟨e, hreading, -, small⟩ := (htree e'.value).mp ⟨e', he', rfl⟩
    exact ⟨⟨values, e, hreading⟩, small⟩
  · rintro ⟨formulaic, small⟩
    obtain ⟨e, hreading⟩ := formulaic.exists_reading values
    obtain ⟨e', he', -⟩ := (htree e.value).mpr ⟨e, hreading, rfl, small⟩
    exact ⟨e', he'⟩

/--
Two contexts of finite doubles are apart in whether an evaluation fails on the grammar exactly if
the expression is a formula and its text keeps within the limit on tokens under only one of them.
-/
theorem failsByGrammar_congr_iff {context context' : Context} {values values' : String → Float}
    (built : ofText source ns separator = .ok a)
    (reads : ∀ identifier v, a.bindings.lookup identifier = some v →
      Variable.read v context = .ok (.real (values identifier)) ∧ (values identifier).isFinite)
    (reads' : ∀ identifier v, a.bindings.lookup identifier = some v →
      Variable.read v context' = .ok (.real (values' identifier)) ∧
        (values' identifier).isFinite) :
    (a.FailsByGrammar context ↔ a.FailsByGrammar context') ↔
      (a.IsFormula →
        (a.tokenCount values ≤ maxTokens ↔ a.tokenCount values' ≤ maxTokens)) := by
  rw [failsByGrammar_iff built reads, failsByGrammar_iff built reads', not_iff_not]
  exact and_congr_right_iff

end Evaluate

/-- The tokens of `x + x + ... + x`. -/
def repeatedTokens (operators : Nat) : List String :=
  "x" :: (List.replicate operators ["+", "x"]).flatten

def repeatedText (operators : Nat) : List Char :=
  'x' :: (List.replicate operators [' ', '+', ' ', 'x']).flatten

def repeatedSum (operators : Nat) : Arithmetic PathVariable where
  tokens := TokenTree.nest (repeatedTokens operators)
  bindings := [("x", { path := ["x"], kind := .number })]
  separator := ":"

/-- A context that gives `x` a double. -/
def realContext (x : Float) : Context := .object [("x", .real x)]

theorem flattened_repeatedSum (operators : Nat) :
    (repeatedSum operators).flattened = repeatedTokens operators :=
  TokenTree.flatten_nest (repeatedTokens operators)

theorem built_of_scanFrom {operators : Nat}
    (scanned : TokenTree.scanFrom ":".toList 0 [] 0 (repeatedText operators) =
      .ok (repeatedTokens operators))
    (resolved : resolveTokens (Namespace.paths .number) ":" (repeatedTokens operators) [] =
      .ok (repeatedSum operators).bindings) :
    ofText (String.ofList (repeatedText operators)) (Namespace.paths .number) ":" =
      .ok (repeatedSum operators) := by
  have htext : (String.ofList (repeatedText operators)).toList = repeatedText operators :=
    String.toList_ofList
  exact ofText_eq_ok_iff.mpr ⟨_, _, htext.symm ▸ scanned, by decide, resolved, rfl⟩

theorem repeatedSum_built :
    ofText (String.ofList (repeatedText 205)) (Namespace.paths .number) ":" =
      .ok (repeatedSum 205) :=
  built_of_scanFrom (by decide +kernel) (by decide +kernel)

theorem repeatedSum_reads {x : Float} (finite : x.isFinite) (identifier : String)
    (v : PathVariable) (bound : (repeatedSum 205).bindings.lookup identifier = some v) :
    Variable.read v (realContext x) = .ok (.real x) ∧ x.isFinite := by
  simp only [repeatedSum, List.lookup_cons] at bound
  split at bound
  · cases bound
    exact ⟨rfl, finite⟩
  · cases bound

theorem isFinite_one : (1 : Float).isFinite := by decide +kernel

theorem isFinite_minus_one : (-1 : Float).isFinite := by decide +kernel

theorem repeatedSum_isFormula : (repeatedSum 205).IsFormula := by
  have hok : ((repeatedSum 205).reading fun _ => 0).isOk := by
    rw [reading, flattened_repeatedSum]
    decide +kernel
  refine ⟨fun _ => 0, ?_⟩
  cases hreading : (repeatedSum 205).reading fun _ => 0 with
  | ok e => exact ⟨e, rfl⟩
  | error _ =>
    rw [hreading] at hok
    cases hok

theorem tokenCount_repeatedSum :
    (repeatedSum 205).tokenCount (fun _ => 1) = 411 ∧
      (repeatedSum 205).tokenCount (fun _ => -1) = 1029 := by
  simp only [tokenCount, flattened_repeatedSum]
  exact ⟨by decide +kernel, by decide +kernel⟩

/-- A sum of one variable has a value where the variable is one, and is too long where it is not. -/
theorem repeatedSum_failsByGrammar :
    ofText (String.ofList (repeatedText 205)) (Namespace.paths .number) ":" =
        .ok (repeatedSum 205) ∧
      (∀ identifier v, (repeatedSum 205).bindings.lookup identifier = some v →
        Variable.read v (realContext 1) = .ok (.real 1) ∧ (1 : Float).isFinite) ∧
      (∀ identifier v, (repeatedSum 205).bindings.lookup identifier = some v →
        Variable.read v (realContext (-1)) = .ok (.real (-1)) ∧ (-1 : Float).isFinite) ∧
      ¬ (repeatedSum 205).FailsByGrammar (realContext 1) ∧
      (repeatedSum 205).FailsByGrammar (realContext (-1)) := by
  have reads := repeatedSum_reads isFinite_one
  have reads' := repeatedSum_reads isFinite_minus_one
  refine ⟨repeatedSum_built, reads, reads', ?_, ?_⟩
  · rw [failsByGrammar_iff repeatedSum_built reads, tokenCount_repeatedSum.1]
    exact not_not_intro ⟨repeatedSum_isFormula, by decide⟩
  · rw [failsByGrammar_iff repeatedSum_built reads', tokenCount_repeatedSum.2]
    exact fun h => absurd h.2 (by decide)

theorem repeatedSum_failsByGrammar_congr :
    ofText (String.ofList (repeatedText 205)) (Namespace.paths .number) ":" =
        .ok (repeatedSum 205) ∧
      (∀ identifier v, (repeatedSum 205).bindings.lookup identifier = some v →
        Variable.read v (realContext 1) = .ok (.real 1) ∧ (1 : Float).isFinite) ∧
      (∀ identifier v, (repeatedSum 205).bindings.lookup identifier = some v →
        Variable.read v (realContext (-1)) = .ok (.real (-1)) ∧ (-1 : Float).isFinite) ∧
      (((repeatedSum 205).FailsByGrammar (realContext 1) ↔
          (repeatedSum 205).FailsByGrammar (realContext (-1))) ↔
        ((repeatedSum 205).IsFormula →
          ((repeatedSum 205).tokenCount (fun _ => 1) ≤ maxTokens ↔
            (repeatedSum 205).tokenCount (fun _ => -1) ≤ maxTokens))) :=
  ⟨repeatedSum_built, repeatedSum_reads isFinite_one, repeatedSum_reads isFinite_minus_one,
    failsByGrammar_congr_iff repeatedSum_built (repeatedSum_reads isFinite_one)
      (repeatedSum_reads isFinite_minus_one)⟩

end Arithmetic

end Comparand
