import Comparand.Proofs.Lexemes
import Comparand.Proofs.Plain

/-!
# Size and nesting of token trees

The tree of a source text is as large as the text makes it: it has one token for each lexeme, and its
groups are nested as deep as parentheses are open at once. The limit on the tokens of a formula plays
no part in this; it takes effect when the expression is evaluated. So a tree keeps within the limit,
in size and in depth, if and only if the source has no more lexemes than that, and every depth
whatsoever is reached by some source.
-/
namespace Comparand
open Formula (IsNumeral maxTokens)

/-! ## Parentheses open at once -/

namespace Text
variable {α : Type} [DecidableEq α]

/-- The greatest number of groups open at once, `opened` of them in front of the text. -/
def mostOpen (opening closing : α) (opened : Nat) : List α → Nat
  | [] => opened
  | c :: rest =>
    if c = opening then mostOpen opening closing (opened + 1) rest
    else if c = closing then max opened (mostOpen opening closing (opened - 1) rest)
    else mostOpen opening closing opened rest

variable {opening closing : α}

theorem le_mostOpen (opened : Nat) (text : List α) :
    opened ≤ mostOpen opening closing opened text := by
  induction text generalizing opened with
  | nil => exact Nat.le_refl opened
  | cons c rest ih =>
    rw [mostOpen]
    split
    · exact Nat.le_trans (Nat.le_succ opened) (ih (opened + 1))
    · split
      · exact Nat.le_max_left _ _
      · exact ih opened

theorem mostOpen_le (opened : Nat) (text : List α) :
    mostOpen opening closing opened text ≤ opened + text.length := by
  induction text generalizing opened with
  | nil => exact Nat.le_refl opened
  | cons c rest ih =>
    rw [mostOpen, List.length_cons]
    split
    · have := ih (opened + 1)
      omega
    · split
      · have := ih (opened - 1)
        omega
      · have := ih opened
        omega

end Text

/-! ## Depth -/

namespace TokenTree
open Text (mostOpen le_mostOpen)

mutual

/-- How many groups are nested in one another. -/
def depth : TokenTree → Nat
  | .token _ => 0
  | .group items => depthAll items + 1

def depthAll : List TokenTree → Nat
  | [] => 0
  | tree :: trees => max (depth tree) (depthAll trees)

end

theorem depthAll_append (xs ys : List TokenTree) :
    depthAll (xs ++ ys) = max (depthAll xs) (depthAll ys) := by
  induction xs with
  | nil => simp [depthAll]
  | cons x xs ih => rw [List.cons_append, depthAll, depthAll, ih, Nat.max_assoc]

theorem depthAll_reverse_cons (tree : TokenTree) (trees : List TokenTree) :
    depthAll (tree :: trees).reverse = max (depthAll trees.reverse) (depth tree) := by
  rw [List.reverse_cons, depthAll_append, depthAll, depthAll, Nat.max_zero]

theorem depthAll_closeAll_cons (tree : TokenTree) (current : List TokenTree)
    (outer : List (List TokenTree)) :
    depthAll (closeAll (tree :: current) outer) =
      max (depthAll (closeAll current outer)) (outer.length + depth tree) := by
  induction outer generalizing tree current with
  | nil => rw [closeAll, closeAll, depthAll_reverse_cons, List.length_nil, Nat.zero_add]
  | cons parent outer ih =>
    rw [closeAll, closeAll, ih, ih, depth, depth, depthAll_reverse_cons, List.length_cons]
    omega

theorem length_le_depthAll_closeAll (current : List TokenTree) (outer : List (List TokenTree)) :
    outer.length ≤ depthAll (closeAll current outer) := by
  cases outer with
  | nil => exact Nat.zero_le _
  | cons parent outer =>
    rw [closeAll, depthAll_closeAll_cons, depth, List.length_cons]
    omega

/-- Reading on makes a tree as deep as groups come to be open. -/
theorem depthAll_nestInto (current : List TokenTree) (outer : List (List TokenTree))
    (tokens : List String) :
    depthAll (nestInto current outer tokens) =
      max (depthAll (closeAll current outer)) (mostOpen "(" ")" outer.length tokens) := by
  induction tokens generalizing current outer with
  | nil => exact (Nat.max_eq_left (length_le_depthAll_closeAll current outer)).symm
  | cons text rest ih =>
    have hlength := length_le_depthAll_closeAll current outer
    have hextended := depthAll_closeAll_cons (.token text) current outer
    rw [depth, Nat.add_zero, Nat.max_eq_left hlength] at hextended
    rw [nestInto, mostOpen]
    split
    · have hmost : outer.length + 1 ≤ mostOpen "(" ")" (outer.length + 1) rest := le_mostOpen _ _
      rw [ih, closeAll, depthAll_closeAll_cons, List.length_cons]
      simp only [depth, depthAll, List.reverse_singleton]
      omega
    · cases outer with
      | nil =>
        simp only [ih, hextended, List.length_nil, Nat.zero_sub, Nat.zero_max, ite_self]
      | cons parent outer =>
        dsimp only
        split
        · rw [closeAll] at hextended
          rw [List.length_cons] at hlength
          rw [ih, hextended, List.length_cons, Nat.add_sub_cancel]
          omega
        · rw [ih, hextended]

theorem depthAll_nest (tokens : List String) :
    depthAll (nest tokens) = mostOpen "(" ")" 0 tokens := by
  simp [nest, depthAll_nestInto, closeAll, depthAll]

/-! ## Lexemes -/

/-- The number of lexemes in a text, whose first `skip` characters belong to one before. -/
def lexemeCountFrom : (skip : Nat) → List Char → Nat
  | _, [] => 0
  | skip + 1, _ :: rest => lexemeCountFrom skip rest
  | 0, c :: rest =>
    if Text.isBlank c then lexemeCountFrom 0 rest
    else match lexeme? (c :: rest) with
      | none => 0
      | some (_, length) => 1 + lexemeCountFrom (length - 1) rest

/-- The number of lexemes in a text by longest match, up to the first character that begins none. -/
def lexemeCount (text : List Char) : Nat := lexemeCountFrom 0 text

theorem no_parenthesis_of_lexeme? {c : Char} {rest : List Char} {kind : Lexeme} {length : Nat}
    (hc : c ≠ '(' ∧ c ≠ ')') (h : lexeme? (c :: rest) = some (kind, length)) :
    kind ≠ .opening ∧ kind ≠ .closing ∧
      ∀ d ∈ (c :: rest).take length, d ≠ '(' ∧ d ≠ ')' := by
  unfold lexeme? at h
  split at h
  · rename_i heq
    obtain ⟨rfl, rfl⟩ := List.cons.inj heq
    cases h
    simp
  · rename_i heq
    exact absurd (List.cons.inj heq).1 hc.1
  · rename_i heq
    exact absurd (List.cons.inj heq).1 hc.2
  · rename_i heq
    obtain ⟨rfl, rfl⟩ := List.cons.inj heq
    dsimp only at h
    split at h
    · rename_i found
      cases h
      have numeral := Formula.isNumeral_take found
      refine ⟨by simp, by simp, fun d hd => ⟨?_, ?_⟩⟩ <;>
        · rintro rfl
          exact numeral.not_mem (by decide) (by decide) hd
    · split at h
      · cases h
        simpa using hc
      · split at h
        · cases h
        · cases h
          rw [Nat.add_comm, List.take_succ_cons,
            ← List.prefix_iff_eq_take.mp (List.takeWhile_prefix _)]
          refine ⟨by simp, by simp, List.forall_mem_cons.mpr ⟨hc, fun d hd => ?_⟩⟩
          have inner := List.mem_takeWhile_imp hd
          constructor <;>
            · rintro rfl
              cases inner
  · rename_i heq
    cases heq

theorem track_of_ne {kind : Lexeme} {position : Nat} {opened opened' : List Nat}
    (hopening : kind ≠ .opening) (hclosing : kind ≠ .closing)
    (h : track kind position opened = .ok opened') : opened' = opened := by
  cases kind <;> cases opened <;> simp_all [track]

theorem scanFrom_of_lexeme?_one {separator : List Char} {c : Char} {rest : List Char}
    {kind : Lexeme} {position : Nat} {opened opened' : List Nat} {tokens : List String}
    (hc : ¬ Text.isBlank c) (hlexeme : lexeme? (c :: rest) = some (kind, 1)) (hword : kind ≠ .word)
    (htrack : track kind position opened = .ok opened')
    (hrest : scanFrom separator (position + c.utf8Size) opened' 0 rest = .ok tokens) :
    scanFrom separator position opened 0 (c :: rest) = .ok (String.ofList [c] :: tokens) := by
  rw [scanFrom, if_neg hc, hlexeme]
  dsimp only
  rw [if_neg hword, htrack, ok_bind, hrest]
  rfl

theorem mostOpen_of_lexeme? {c : Char} {rest : List Char} {kind : Lexeme} {length position : Nat}
    {opened opened' : List Nat} (hlexeme : lexeme? (c :: rest) = some (kind, length))
    (htrack : track kind position opened = .ok opened') :
    (∀ d ∈ rest.take (length - 1), d ≠ '(' ∧ d ≠ ')') ∧
      ∀ tokens : List String,
        mostOpen "(" ")" opened'.length tokens = mostOpen '(' ')' opened'.length rest →
        mostOpen "(" ")" opened.length (String.ofList ((c :: rest).take length) :: tokens) =
          mostOpen '(' ')' opened.length (c :: rest) := by
  by_cases hopening : c = '('
  · subst hopening
    cases (show lexeme? ('(' :: rest) = some (.opening, 1) from rfl).symm.trans hlexeme
    cases htrack
    exact ⟨by simp, fun tokens heq => heq⟩
  · by_cases hclosing : c = ')'
    · subst hclosing
      cases (show lexeme? (')' :: rest) = some (.closing, 1) from rfl).symm.trans hlexeme
      cases opened <;> cases htrack
      exact ⟨by simp, fun tokens heq => congrArg (max _) heq⟩
    · obtain ⟨hkind, hkind', hmem⟩ := no_parenthesis_of_lexeme? ⟨hopening, hclosing⟩ hlexeme
      obtain rfl := track_of_ne hkind hkind' htrack
      have htext : String.ofList ((c :: rest).take length) ≠ "(" ∧
          String.ofList ((c :: rest).take length) ≠ ")" := by
        constructor <;>
          · intro heq
            have hlist := congrArg String.toList heq
            rw [String.toList_ofList] at hlist
            simp [hlist] at hmem
      constructor
      · intro d hd
        cases length with
        | zero => cases hd
        | succ length => exact hmem d (List.mem_cons_of_mem c hd)
      · intro tokens heq
        rwa [mostOpen, if_neg htext.1, if_neg htext.2, mostOpen, if_neg hopening, if_neg hclosing]

/-- A scan that goes through has one token for each lexeme, and opens what the text opens. -/
theorem size_of_scanFrom {separator text : List Char} {position skip : Nat} {opened : List Nat}
    {tokens : List String} (h : scanFrom separator position opened skip text = .ok tokens)
    (inner : ∀ c ∈ text.take skip, c ≠ '(' ∧ c ≠ ')') :
    tokens.length = lexemeCountFrom skip text ∧
      mostOpen "(" ")" opened.length tokens = mostOpen '(' ')' opened.length text := by
  induction text generalizing position skip opened tokens with
  | nil =>
    cases opened <;> cases h
    exact ⟨(lexemeCountFrom.eq_1 skip).symm, rfl⟩
  | cons c rest ih =>
    cases skip with
    | succ skip =>
      rw [List.take_succ_cons] at inner
      obtain ⟨hopening, hclosing⟩ := inner c List.mem_cons_self
      rw [lexemeCountFrom, mostOpen, if_neg hopening, if_neg hclosing]
      exact ih h fun d hd => inner d (List.mem_cons_of_mem c hd)
    | zero =>
      by_cases hc : Text.isBlank c
      · have hopening : c ≠ '(' := fun heq => absurd (heq ▸ hc) (by decide)
        have hclosing : c ≠ ')' := fun heq => absurd (heq ▸ hc) (by decide)
        rw [scanFrom, if_pos hc] at h
        rw [lexemeCountFrom, if_pos hc, mostOpen, if_neg hopening, if_neg hclosing]
        exact ih h (by simp)
      · obtain ⟨kind, length, opened', tokens', hlexeme, -, htrack, hrest, rfl⟩ :=
          exists_lexeme_of_scanFrom hc h
        obtain ⟨inner', hstep⟩ := mostOpen_of_lexeme? hlexeme htrack
        obtain ⟨hlength, hopen⟩ := ih hrest inner'
        rw [lexemeCountFrom, if_neg hc, hlexeme, List.length_cons, Nat.add_comm, hlength]
        exact ⟨rfl, hstep tokens' hopen⟩

end TokenTree

/-! ## Trees of source texts -/

namespace Arithmetic
open TokenTree (depthAll lexemeCount)
open Text (mostOpen)
variable {V : Type} {ns : Namespace V} {source separator : String} {a : Arithmetic V}

/-- The size and the depth of a tree are those of its source, however large they are. -/
theorem size_of_ofText (built : ofText source ns separator = .ok a) :
    a.flattened.length = lexemeCount source.toList ∧
      depthAll a.tokens = mostOpen '(' ')' 0 source.toList := by
  obtain ⟨tokens, bindings, hscan, -, -, rfl⟩ := ofText_eq_ok_iff.mp built
  obtain ⟨hlength, hopen⟩ := TokenTree.size_of_scanFrom hscan (by simp)
  rw [flattened, TokenTree.flatten_nest, TokenTree.depthAll_nest]
  exact ⟨hlength, hopen⟩

theorem depthAll_le_length (built : ofText source ns separator = .ok a) :
    depthAll a.tokens ≤ a.flattened.length := by
  obtain ⟨tokens, bindings, -, -, -, rfl⟩ := ofText_eq_ok_iff.mp built
  rw [flattened, TokenTree.flatten_nest, TokenTree.depthAll_nest]
  simpa using Text.mostOpen_le 0 tokens

/-! ## Enclosures -/

/-- A one in parentheses, so many times. -/
def enclosure (times : Nat) : List Char :=
  List.replicate times '(' ++ '1' :: List.replicate times ')'

def enclosureTokens (times : Nat) : List String :=
  List.replicate times "(" ++ "1" :: List.replicate times ")"

theorem scanFrom_replicate_closing (separator : List Char) (position : Nat) (opened : List Nat) :
    TokenTree.scanFrom separator position opened 0 (List.replicate opened.length ')') =
      .ok (List.replicate opened.length ")") := by
  induction opened generalizing position with
  | nil => rfl
  | cons innermost opened ih =>
    exact TokenTree.scanFrom_of_lexeme?_one (by decide) rfl (by decide) rfl (ih _)

theorem lexeme?_one (times : Nat) :
    TokenTree.lexeme? ('1' :: List.replicate times ')') = some (.numeral, 1) := by
  cases times <;> rfl

theorem scanFrom_enclosure (separator : List Char) (position : Nat) (opened : List Nat)
    (times : Nat) :
    TokenTree.scanFrom separator position opened 0
        (List.replicate times '(' ++ '1' :: List.replicate (times + opened.length) ')') =
      .ok (List.replicate times "(" ++ "1" :: List.replicate (times + opened.length) ")") := by
  induction times generalizing position opened with
  | zero =>
    rw [Nat.zero_add]
    exact TokenTree.scanFrom_of_lexeme?_one (by decide) (lexeme?_one opened.length) (by decide) rfl
      (scanFrom_replicate_closing separator _ opened)
  | succ times ih =>
    have hdeeper : times + 1 + opened.length = times + (position :: opened).length := by
      rw [List.length_cons]
      omega
    rw [hdeeper]
    exact TokenTree.scanFrom_of_lexeme?_one (by decide) rfl (by decide) rfl (ih _ _)

theorem mostOpen_replicate_closing (opened times : Nat) :
    mostOpen "(" ")" opened (List.replicate times ")") = opened := by
  induction times generalizing opened with
  | zero => rfl
  | succ times ih =>
    rw [List.replicate_succ, mostOpen, if_neg (by decide), if_pos rfl, ih]
    omega

theorem mostOpen_enclosureTokens (opened times closed : Nat) :
    mostOpen "(" ")" opened (List.replicate times "(" ++ "1" :: List.replicate closed ")") =
      opened + times := by
  induction times generalizing opened with
  | zero =>
    rw [List.replicate_zero, List.nil_append, mostOpen, if_neg (by decide), if_neg (by decide)]
    exact mostOpen_replicate_closing opened closed
  | succ times ih =>
    rw [List.replicate_succ, List.cons_append, mostOpen, if_pos rfl, ih]
    omega

theorem exists_ofText_enclosure (ns : Namespace V) (times : Nat) :
    ∃ a : Arithmetic V, ofText (String.ofList (enclosure times)) ns defaultSeparator = .ok a ∧
      a.flattened.length = 2 * times + 1 ∧ depthAll a.tokens = times := by
  have hscan := scanFrom_enclosure defaultSeparator.toList 0 [] times
  have free : ∀ token ∈ enclosureTokens times,
      ¬ Identifier.isCandidate defaultSeparator.toList token.toList := by
    intro token mem
    simp only [enclosureTokens, List.mem_append, List.mem_cons, List.mem_replicate] at mem
    rcases mem with ⟨-, rfl⟩ | rfl | ⟨-, rfl⟩ <;> decide +kernel
  refine ⟨_, ofText_eq_ok_iff.mpr ⟨enclosureTokens times, [], ?_, by decide,
    resolveTokens_of_not_isCandidate free [], rfl⟩, ?_, ?_⟩
  · rw [String.toList_ofList]
    exact hscan
  · rw [flattened, TokenTree.flatten_nest]
    simp only [enclosureTokens, List.length_append, List.length_cons, List.length_replicate]
    omega
  · rw [TokenTree.depthAll_nest, enclosureTokens, mostOpen_enclosureTokens, Nat.zero_add]

/-! ## The limit on tokens -/

/-- A tree keeps within the limit on tokens, in size and in depth, exactly if its source does. -/
theorem withinLimit_iff_of_ofText (built : ofText source ns separator = .ok a) :
    a.flattened.length = lexemeCount source.toList ∧
      depthAll a.tokens = mostOpen '(' ')' 0 source.toList ∧
      (a.flattened.length ≤ maxTokens ∧ depthAll a.tokens ≤ maxTokens ↔
        lexemeCount source.toList ≤ maxTokens) := by
  obtain ⟨hlength, hdepth⟩ := size_of_ofText built
  refine ⟨hlength, hdepth, ?_⟩
  rw [← hlength]
  exact ⟨And.left, fun small => ⟨small, Nat.le_trans (depthAll_le_length built) small⟩⟩

theorem enclosure_withinLimit_iff :
    ∃ a : Arithmetic PathVariable,
      ofText (String.ofList (enclosure 3)) (Namespace.paths .number) defaultSeparator = .ok a ∧
        a.flattened.length = lexemeCount (String.ofList (enclosure 3)).toList ∧
        depthAll a.tokens = mostOpen '(' ')' 0 (String.ofList (enclosure 3)).toList ∧
        (a.flattened.length ≤ maxTokens ∧ depthAll a.tokens ≤ maxTokens ↔
          lexemeCount (String.ofList (enclosure 3)).toList ≤ maxTokens) := by
  obtain ⟨a, built, -, -⟩ := exists_ofText_enclosure (Namespace.paths .number) 3
  exact ⟨a, built, withinLimit_iff_of_ofText built⟩

/-- A tree that is too large and too deep for the limit. -/
theorem enclosure_exceeds_limit :
    ∃ a : Arithmetic PathVariable,
      ofText (String.ofList (enclosure 1025)) (Namespace.paths .number) defaultSeparator = .ok a ∧
        maxTokens < a.flattened.length ∧ maxTokens < depthAll a.tokens := by
  obtain ⟨a, built, hlength, hdepth⟩ := exists_ofText_enclosure (Namespace.paths .number) 1025
  refine ⟨a, built, ?_, ?_⟩
  · rw [hlength]
    decide
  · rw [hdepth]
    decide

end Arithmetic
end Comparand
