import Comparand.Proofs.Cuts

/-!
# Cuts of a source text

The scan of a source text cuts off the pieces that the scan of the formula cuts off, apart from the
words, which no formula has. It also keeps count of the parentheses; in an expression they match by
the grammar.
-/
namespace Comparand
open Formula (Token Expr Placed Derives Level Begins Cuts StarsApart IsNumeral numeralLength)

/-! ## Parentheses -/

namespace Formula

/-- The number of open groups behind a token, if there is one to close where it closes one. -/
def Token.deepen : Nat → Token → Option Nat
  | depth, .opening => some (depth + 1)
  | depth + 1, .closing => some depth
  | 0, .closing => none
  | depth, _ => some depth

theorem Operator.deepen_token (operator : Operator) (depth : Nat) :
    Token.deepen depth operator.token = some depth := by
  cases operator <;> cases depth <;> rfl

theorem deepen_infix {ts us : List Placed} {depth : Nat}
    (left : (ts.map Prod.fst).foldlM Token.deepen depth = some depth)
    (right : (us.map Prod.fst).foldlM Token.deepen depth = some depth) (operator : Operator)
    (position : Nat) :
    ((ts ++ (operator.token, position) :: us).map Prod.fst).foldlM Token.deepen depth =
      some depth := by
  rw [List.map_append, List.foldlM_append, left, List.map_cons]
  simp only [Option.bind_eq_bind, Option.bind_some, List.foldlM_cons, operator.deepen_token, right]

/-- An expression closes the groups that it opens, and no others. -/
theorem Derives.deepen {level : Level} {ts : List Placed} {e : Expr} (h : Derives level ts e)
    (depth : Nat) : (ts.map Prod.fst).foldlM Token.deepen depth = some depth := by
  induction h generalizing depth with
  | term _ ih | factor _ ih | unsigned _ ih | base _ ih => exact ih depth
  | sum _ _ _ ihl ihr | product _ _ _ ihl ihr => exact deepen_infix (ihl depth) (ihr depth) _ _
  | power _ _ ihl ihr => exact deepen_infix (ihl depth) (ihr depth) .pow _
  | negation _ ih =>
    rw [List.map_cons, List.foldlM_cons,
      show Token.deepen depth .minus = some depth from Operator.sub.deepen_token depth]
    exact ih depth
  | number => cases depth <;> rfl
  | group _ ih =>
    rw [List.cons_append, List.map_cons, List.foldlM_cons, List.map_append]
    change List.foldlM Token.deepen (depth + 1) _ = _
    rw [List.foldlM_append, ih]
    rfl

end Formula

/-! ## The cuts of a source text -/

namespace TokenTree

theorem scanFrom_skip (separator : List Char) (position : Nat) (opened : List Nat) (skip : Nat)
    (text : List Char) :
    scanFrom separator position opened skip text =
      scanFrom separator (position + Text.utf8Length (text.take skip)) opened 0
        (text.drop skip) := by
  induction text generalizing position skip with
  | nil => cases skip <;> simp [scanFrom]
  | cons c text ih =>
    cases skip with
    | zero => simp
    | succ skip =>
      rw [scanFrom, ih, List.take_succ_cons, List.drop_succ_cons, Text.utf8Length_cons,
        Nat.add_assoc]

theorem scanFrom_of_lexeme? {c : Char} {rest : List Char} {kind : Lexeme} {length : Nat}
    (hc : ¬ Text.isBlank c) (h : lexeme? (c :: rest) = some (kind, length)) (positive : 0 < length)
    {separator : List Char}
    (hword : kind = .word → Identifier.isWellFormed separator ((c :: rest).take length))
    (position : Nat) (opened : List Nat) :
    scanFrom separator position opened 0 (c :: rest) = do
      let opened ← track kind position opened
      let tokens ← scanFrom separator
        (position + c.utf8Size + Text.utf8Length (rest.take (length - 1))) opened 0
        ((c :: rest).drop length)
      return String.ofList ((c :: rest).take length) :: tokens := by
  obtain ⟨shorter, rfl⟩ := Nat.exists_eq_succ_of_ne_zero positive.ne'
  have htail : ∀ opened', scanFrom separator (position + c.utf8Size) opened' shorter rest =
      scanFrom separator (position + c.utf8Size + Text.utf8Length (rest.take shorter)) opened' 0
        (rest.drop shorter) := fun opened' => scanFrom_skip ..
  rw [scanFrom, if_neg hc, h]
  simp only [Nat.succ_eq_add_one, Nat.add_sub_cancel, htail]
  split
  · rename_i hkind
    rw [checkWord, if_pos (hword hkind), ok_bind]
    rfl
  · rfl

theorem exists_of_scanFrom {c : Char} {rest : List Char} {kind : Lexeme} {length : Nat}
    (hc : ¬ Text.isBlank c) (hlexeme : lexeme? (c :: rest) = some (kind, length))
    (positive : 0 < length) (hword : kind ≠ .word) {separator : List Char} {position : Nat}
    {opened : List Nat} {pieces : List String}
    (h : scanFrom separator position opened 0 (c :: rest) = .ok pieces) :
    ∃ position' opened' pieces',
      scanFrom separator position' opened' 0 ((c :: rest).drop length) = .ok pieces' ∧
        pieces = String.ofList ((c :: rest).take length) :: pieces' := by
  rw [scanFrom_of_lexeme? hc hlexeme positive fun h => absurd h hword] at h
  obtain ⟨opened', -, h⟩ := bind_eq_ok_iff.mp h
  obtain ⟨pieces', hrest, hpure⟩ := bind_eq_ok_iff.mp h
  cases hpure
  exact ⟨_, opened', pieces', hrest, rfl⟩

theorem exists_word_of_scanFrom {c : Char} {rest : List Char} {length : Nat}
    (hc : ¬ Text.isBlank c) (hlexeme : lexeme? (c :: rest) = some (.word, length))
    {separator : List Char} {position : Nat} {opened : List Nat} {pieces : List String}
    (h : scanFrom separator position opened 0 (c :: rest) = .ok pieces) :
    ∃ word ∈ pieces, Identifier.isWellFormed separator word.toList := by
  obtain ⟨kind, length', _, _, hlexeme', hword, -, -, rfl⟩ := exists_lexeme_of_scanFrom hc h
  cases hlexeme.symm.trans hlexeme'
  refine ⟨_, List.mem_cons_self, ?_⟩
  rw [String.toList_ofList]
  exact hword rfl

theorem lexeme?_length {text : List Char} {kind : Lexeme} {length : Nat}
    (h : lexeme? text = some (kind, length)) : 0 < length := by
  unfold lexeme? at h
  split at h
  · cases h
    exact Nat.two_pos
  · cases h
    exact Nat.one_pos
  · cases h
    exact Nat.one_pos
  · dsimp only at h
    split at h
    · cases h
      assumption
    · split at h
      · cases h
        exact Nat.one_pos
      · split at h
        · cases h
        · cases h
          omega
  · cases h

theorem lexeme?_of_numeral {text : List Char} (found : 0 < numeralLength text) :
    lexeme? text = some (.numeral, numeralLength text) := by
  unfold lexeme?
  split
  · rw [Token.numeralLength_eq_zero rfl (by decide)] at found
    cases found
  · rw [Token.numeralLength_eq_zero rfl (by decide)] at found
    cases found
  · rw [Token.numeralLength_eq_zero rfl (by decide)] at found
    cases found
  · exact if_pos found
  · cases found

theorem lexeme?_of_operator {c : Char} (h : c = '+' ∨ c = '-' ∨ c = '/' ∨ c = '^')
    (rest : List Char) : lexeme? (c :: rest) = some (.operator, 1) := by
  rcases h with rfl | rfl | rfl | rfl <;> rfl

theorem lexeme?_star {rest : List Char} (next : rest.head? ≠ some '*') :
    lexeme? ('*' :: rest) = some (.operator, 1) := by
  cases rest with
  | nil => rfl
  | cons c rest =>
    unfold lexeme?
    split
    · rename_i heq
      rw [(List.cons.inj (List.cons.inj heq).2).1] at next
      exact absurd rfl next
    · rename_i heq
      cases (List.cons.inj heq).1
    · rename_i heq
      cases (List.cons.inj heq).1
    · rename_i heq
      obtain ⟨rfl, rfl⟩ := List.cons.inj heq
      rfl
    · rename_i heq
      cases heq

/-- What a text begins with is a lexeme of it: no word, and a parenthesis where it writes one. -/
theorem lexeme?_of_begins {text : List Char} {length : Nat} {token : Token}
    (h : Begins text length token) :
    ∃ kind, lexeme? text = some (kind, length) ∧ kind ≠ .word ∧
      (kind = .opening ↔ token = .opening) ∧ (kind = .closing ↔ token = .closing) := by
  cases h with
  | numeral found => exact ⟨.numeral, lexeme?_of_numeral found, by simp⟩
  | @sign c rest token hsign =>
    unfold Formula.sign? at hsign
    split at hsign <;> cases hsign
    · exact ⟨.operator, lexeme?_of_operator (by simp) rest, by simp⟩
    · exact ⟨.operator, lexeme?_of_operator (by simp) rest, by simp⟩
    · exact ⟨.operator, lexeme?_of_operator (by simp) rest, by simp⟩
    · exact ⟨.opening, rfl, by simp⟩
    · exact ⟨.closing, rfl, by simp⟩
  | star hstar => exact ⟨.operator, lexeme?_star hstar, by simp⟩
  | power => exact ⟨.operator, rfl, by simp⟩
  | caret => exact ⟨.operator, lexeme?_of_operator (by simp) _, by simp⟩

theorem track_of_deepen {kind : Lexeme} {token : Token}
    (opening : kind = .opening ↔ token = .opening) (closing : kind = .closing ↔ token = .closing)
    {opened : List Nat} {depth : Nat} (h : Token.deepen opened.length token = some depth)
    (position : Nat) :
    ∃ opened', track kind position opened = .ok opened' ∧ opened'.length = depth := by
  cases opened <;> cases token <;> cases h <;> cases kind <;> simp_all [track]

/-- In a text without words the scan finds the pieces, if the parentheses match. -/
theorem scanFrom_of_cuts {text : List Char} {pieces : List String} {tokens : List Token}
    (h : Cuts text pieces tokens) {opened : List Nat}
    (balanced : tokens.foldlM Token.deepen opened.length = some 0) (separator : List Char)
    (position : Nat) : scanFrom separator position opened 0 text = .ok pieces := by
  induction h generalizing opened position with
  | nil =>
    obtain rfl := List.length_eq_zero_iff.mp (Option.some.inj balanced)
    rfl
  | blank hc _ ih =>
    rw [scanFrom, if_pos hc]
    exact ih balanced _
  | @piece text length token pieces tokens hbegins _ ih =>
    obtain ⟨some_length, c, rest, rfl, hblank⟩ := hbegins.exists_cons
    obtain ⟨kind, hlexeme, hword, hopening, hclosing⟩ := lexeme?_of_begins hbegins
    rw [List.foldlM_cons] at balanced
    obtain ⟨depth, hdepth, hrest⟩ := Option.bind_eq_some_iff.mp balanced
    obtain ⟨opened', htrack, rfl⟩ := track_of_deepen hopening hclosing hdepth position
    rw [scanFrom_of_lexeme? hblank hlexeme some_length fun h => absurd h hword, htrack, ok_bind,
      ih hrest]
    rfl

/-! ## The pieces of a scanned source text -/

section Atoms
variable {V : Type} {a : Arithmetic V} {values : String → Float}

theorem atom_eq_single (closed : a.bindings = []) {piece : List Char} (hne : piece ≠ ['^']) :
    a.atom values (String.ofList piece) = Arithmetic.single (String.ofList piece) := by
  have hpower : String.ofList piece ≠ "^" := by
    intro heq
    have hlist := congrArg String.toList heq
    rw [String.toList_ofList] at hlist
    exact hne hlist
  rw [Arithmetic.atom, closed, if_neg (by simp), if_neg hpower]

theorem atom_of_scanFrom (closed : a.bindings = []) {piece : List Char} {token : Token}
    (hne : piece ≠ ['^']) (h : Token.scanFrom 0 0 0 piece = .ok [(token, 0)]) :
    a.atom values (String.ofList piece) = .ok token := by
  rw [atom_eq_single closed hne, Arithmetic.single, Token.scan, String.toList_ofList, h]
  rfl

theorem ne_caret_of_isNumeral {piece : List Char} (numeral : IsNumeral piece) : piece ≠ ['^'] := by
  rintro rfl
  exact Arithmetic.caret_not_mem_of_isNumeral numeral List.mem_cons_self

theorem atom_of_begins (closed : a.bindings = []) {text : List Char} {length : Nat} {token : Token}
    (h : Begins text length token) :
    a.atom values (String.ofList (text.take length)) = .ok token := by
  cases h with
  | @numeral _ value found hread finite =>
    have numeral := Formula.isNumeral_take found
    exact atom_of_scanFrom closed (ne_caret_of_isNumeral numeral)
      (Arithmetic.scanFrom_numeral numeral hread finite (by decide))
  | @sign c rest token hsign =>
    unfold Formula.sign? at hsign
    split at hsign <;> cases hsign <;> exact atom_of_scanFrom closed (by simp) rfl
  | star | power => exact atom_of_scanFrom closed (by simp) rfl
  | caret =>
    rw [Arithmetic.atom, closed]
    rfl

theorem mapM_atom_of_cuts (closed : a.bindings = []) {text : List Char} {pieces : List String}
    {tokens : List Token} (h : Cuts text pieces tokens) :
    pieces.mapM (a.atom values) = .ok tokens := by
  induction h with
  | nil => rfl
  | blank _ _ ih => exact ih
  | piece hbegins _ ih =>
    exact mapM_cons_eq_ok_iff.mpr ⟨_, _, atom_of_begins closed hbegins, ih, rfl⟩

theorem read?_of_atom (closed : a.bindings = []) {piece : List Char} {token : Token}
    (numeral : IsNumeral piece) (h : a.atom values (String.ofList piece) = .ok token) :
    ∃ value, Decimal.read? piece = some value ∧ value.isFinite := by
  have hlist : (String.ofList piece).toList = piece := String.toList_ofList
  rw [atom_eq_single closed (ne_caret_of_isNumeral numeral), Arithmetic.single] at h
  obtain ⟨us, hscan, -⟩ := bind_eq_ok_iff.mp h
  obtain ⟨value, hread, finite, -⟩ :=
    Arithmetic.scan_of_isNumeral (hlist.symm ▸ numeral) hscan
  exact ⟨value, hlist ▸ hread, finite⟩

/-- A lexeme that is no word is a piece, unless it is a `*` in front of a caret. -/
theorem begins_of_lexeme? (closed : a.bindings = []) {c : Char} {rest : List Char} {kind : Lexeme}
    {length : Nat} {token : Token} (h : lexeme? (c :: rest) = some (kind, length))
    (hword : kind ≠ .word)
    (hatom : a.atom values (String.ofList ((c :: rest).take length)) = .ok token) :
    (∃ length token, Begins (c :: rest) length token) ∨
      ∃ behind, c :: rest = '*' :: '^' :: behind := by
  by_cases found : 0 < numeralLength (c :: rest)
  · rw [lexeme?_of_numeral found] at h
    cases h
    obtain ⟨value, hread, finite⟩ := read?_of_atom closed (Formula.isNumeral_take found) hatom
    exact .inl ⟨_, _, .numeral found hread finite⟩
  · apply Formula.exists_begins
    unfold lexeme? at h
    split at h
    · rename_i heq
      exact .inr ((List.cons.inj heq).1 ▸ rfl)
    · rename_i heq
      exact .inr ((List.cons.inj heq).1 ▸ rfl)
    · rename_i heq
      exact .inr ((List.cons.inj heq).1 ▸ rfl)
    · rename_i heq
      obtain ⟨rfl, rfl⟩ := List.cons.inj heq
      dsimp only at h
      rw [if_neg found] at h
      split at h
      · rename_i operator
        rcases operator with rfl | rfl | rfl | rfl | rfl
        · exact .inr rfl
        · exact .inr rfl
        · exact .inr rfl
        · exact .inr rfl
        · exact .inl rfl
      · split at h
        · cases h
        · cases h
          exact absurd rfl hword
    · cases h

theorem not_starsApart_of_scanFrom (closed : a.bindings = []) {behind : List Char}
    {separator : List Char} {position : Nat} {opened : List Nat} {pieces : List String}
    {tokens : List Token}
    (h : scanFrom separator position opened 0 ('*' :: '^' :: behind) = .ok pieces)
    (hatoms : pieces.mapM (a.atom values) = .ok tokens) : ¬ StarsApart tokens := by
  obtain ⟨_, _, pieces', hcaret, rfl⟩ :=
    exists_of_scanFrom (by decide) (lexeme?_star (by simp)) Nat.one_pos (by simp) h
  obtain ⟨_, _, pieces'', -, rfl⟩ :=
    exists_of_scanFrom (by decide) (lexeme?_of_operator (by simp) _) Nat.one_pos (by simp) hcaret
  obtain ⟨x, _, hx, hrest, rfl⟩ := mapM_cons_eq_ok_iff.mp hatoms
  obtain ⟨y, _, hy, -, rfl⟩ := mapM_cons_eq_ok_iff.mp hrest
  have star : Begins ['*'] 1 .star := .star (by simp) (by simp)
  have caret : Begins ['^'] 1 .doubleStar := .caret
  have hstar : a.atom values (String.ofList ['*']) = .ok .star := atom_of_begins closed star
  have hcaret : a.atom values (String.ofList ['^']) = .ok .doubleStar :=
    atom_of_begins closed caret
  cases hx.symm.trans hstar
  cases hy.symm.trans hcaret
  exact fun apart => (List.isChain_cons_cons.mp apart).1 ⟨rfl, rfl⟩

/-- What scans as a source text without words has pieces, if no stars are neighbours in it. -/
theorem cuts_of_scanFrom (closed : a.bindings = []) {separator text : List Char} {position : Nat}
    {opened : List Nat} {pieces : List String} {tokens : List Token}
    (h : scanFrom separator position opened 0 text = .ok pieces)
    (free : ∀ piece ∈ pieces, ¬ Identifier.isWellFormed separator piece.toList)
    (hatoms : pieces.mapM (a.atom values) = .ok tokens) (apart : StarsApart tokens) :
    Cuts text pieces tokens := by
  induction hn : text.length using Nat.strong_induction_on
    generalizing text position opened pieces tokens with
  | _ n ih =>
    subst hn
    cases text with
    | nil =>
      cases opened <;> cases h
      cases hatoms
      exact .nil
    | cons c rest =>
      by_cases hc : Text.isBlank c
      · rw [scanFrom, if_pos hc] at h
        exact .blank hc (ih rest.length (by simp) h free hatoms apart rfl)
      · cases hlexeme : lexeme? (c :: rest) with
        | none =>
          rw [scanFrom, if_neg hc, hlexeme] at h
          cases h
        | some cut =>
          obtain ⟨kind, length⟩ := cut
          have hword : kind ≠ .word := by
            rintro rfl
            obtain ⟨word, mem, formed⟩ := exists_word_of_scanFrom hc hlexeme h
            exact free word mem formed
          have positive := lexeme?_length hlexeme
          obtain ⟨_, _, pieces', hrest, rfl⟩ := exists_of_scanFrom hc hlexeme positive hword h
          obtain ⟨token, tokens, hatom, hatoms', rfl⟩ := mapM_cons_eq_ok_iff.mp hatoms
          rcases begins_of_lexeme? closed hlexeme hword hatom with
            ⟨length', token', hbegins⟩ | ⟨behind, hbehind⟩
          · obtain ⟨kind', hkind', -⟩ := lexeme?_of_begins hbegins
            obtain ⟨rfl, rfl⟩ : kind = kind' ∧ length = length' := by
              simpa using hlexeme.symm.trans hkind'
            cases hatom.symm.trans (atom_of_begins closed hbegins)
            have hshorter : ((c :: rest).drop length).length < (c :: rest).length := by
              simp only [List.length_drop, List.length_cons]
              omega
            exact .piece hbegins (ih _ hshorter hrest
              (fun piece mem => free piece (List.mem_cons_of_mem _ mem)) hatoms' apart.tail rfl)
          · obtain ⟨rfl, rfl⟩ := List.cons.inj hbehind
            exact (not_starsApart_of_scanFrom closed h hatoms apart).elim

end Atoms

end TokenTree

end Comparand
