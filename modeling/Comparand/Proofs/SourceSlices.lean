import Comparand.Proofs.FormulaSlices
import Comparand.Proofs.Parentheses
import Comparand.Proofs.SourceCuts
import Comparand.Proofs.Stretches

/-!
# Slices of a source text

The tokens of a source text are its slices by longest match, grouped by their parentheses. A scan
comes to the end of the text with no parenthesis left open, or to the first obstacle: a character
that no lexeme begins with, a word that is no identifier, or a parenthesis without a partner.
-/
namespace Comparand.TokenTree
open Formula (Fault IsNumeral)
open Identifier (FirstStray Clean stretches)
open Text (Longest Unmatched Solid Sliced)

def IsLexeme (slice : List Char) : Prop := ∃ kind : Lexeme, kind.Matches slice

/-- Whether every word among the slices is an identifier. -/
def Identified (separator : List Char) (slices : List (String × Nat)) : Prop :=
  ∀ slice ∈ slices, IsWord slice.1.toList → Identifier.isWellFormed separator slice.1.toList

/--
What a scan stops at, in the text from the offset `stop` on and with groups that are still open. A
word that is no identifier is reported by its first stray, and as a whole if it has none.
-/
inductive Obstacle (separator : List Char) (opened : List Nat) (stop : Nat) :
    List Char → Fault → Prop
  | unmatched {c : Char} {behind : List Char} : ¬ Text.isBlank c →
      Unmatched IsLexeme (c :: behind) →
      Obstacle separator opened stop (c :: behind)
        (.unexpectedCharacter (String.singleton c) stop)
  | stray {word : String} {behind before : List Char} {c : Char} :
      Longest IsLexeme word.toList behind → IsWord word.toList →
      FirstStray separator (stretches separator word.toList) before c →
      Obstacle separator opened stop (word.toList ++ behind)
        (.unexpectedCharacter (String.singleton c) (stop + Text.utf8Length before))
  | malformed {word : String} {behind : List Char} :
      Longest IsLexeme word.toList behind → IsWord word.toList →
      ¬ Identifier.isWellFormed separator word.toList →
      Clean (stretches separator word.toList) →
      Obstacle separator opened stop (word.toList ++ behind) (.unexpectedCharacter word stop)
  | closing {behind : List Char} : opened = [] →
      Obstacle separator opened stop (')' :: behind) (.unexpectedToken ")" stop)
  | unclosed {innermost : Nat} {outer : List Nat} : opened = innermost :: outer →
      Obstacle separator opened stop [] (.expectedClosing innermost)

/-! ## Lexemes -/

theorem solid_isLexeme : Solid IsLexeme where
  ne_nil := by
    rintro slice ⟨kind, h⟩
    cases kind with
    | numeral => exact IsNumeral.ne_nil h
    | operator =>
      have hall : ∀ operator ∈ operators, operator ≠ [] := by decide
      exact hall _ h
    | opening => cases h; simp
    | closing => cases h; simp
    | word => exact IsWord.ne_nil h
  not_isBlank := by
    rintro slice ⟨kind, h⟩
    cases kind with
    | numeral => exact IsNumeral.not_isBlank h
    | operator =>
      have hall : ∀ operator ∈ operators, ∀ c ∈ operator, ¬ Text.isBlank c := by
        simp [operators, Text.isBlank]
      exact hall _ h
    | opening => cases h; simp [Text.isBlank]
    | closing => cases h; simp [Text.isBlank]
    | word =>
      intro c mem blank
      have hends := IsWord.endsWord h c mem
      rw [endsWord, blank] at hends
      cases hends

theorem Lexeme.eq_of_matches_parenthesis {kind : Lexeme} {c : Char} (hc : c = '(' ∨ c = ')')
    (h : kind.Matches [c]) : kind = if c = '(' then .opening else .closing := by
  have hends : endsWord c := by rcases hc with rfl | rfl <;> rfl
  have hsign : ¬ (c = '+' ∨ c = '-') := by rcases hc with rfl | rfl <;> decide
  cases kind with
  | numeral => exact absurd (List.mem_singleton_self c) (IsNumeral.not_mem h hends (not_or.mp hsign))
  | operator =>
    have hall : ∀ operator ∈ operators, operator ≠ ['('] ∧ operator ≠ [')'] := by decide
    rcases hc with rfl | rfl
    · exact absurd rfl (hall _ h).1
    · exact absurd rfl (hall _ h).2
  | opening => cases h; rfl
  | closing => cases h; rfl
  | word =>
    have := IsWord.endsWord h c (List.mem_singleton_self c)
    rw [hends] at this
    cases this

theorem lexeme?_of_word {c : Char} {word rest : List Char} (h : IsWord (c :: word))
    (next : ∀ d, rest.head? = some d → endsWord d) :
    lexeme? (c :: word ++ rest) = some (.word, word.length + 1) := by
  obtain ⟨hc, hword⟩ := List.forall_mem_cons.mp h.endsWord
  have hbegins : Identifier.beginsNumerically [c] = false := h.beginsNumerically
  obtain ⟨hdigit, hpoint⟩ : c.isDigit = false ∧ c ≠ '.' := by
    simpa [Identifier.beginsNumerically] using hbegins
  have hne : ∀ {d}, endsWord d = true → c ≠ d := by
    rintro d hd rfl
    rw [hc] at hd
    cases hd
  have hrest : rest.takeWhile (!endsWord ·) = [] := by
    cases rest with
    | nil => rfl
    | cons d rest => exact List.takeWhile_cons_of_neg (by simp [next d rfl])
  have htake : ((word ++ rest).takeWhile (!endsWord ·)).length = word.length := by
    rw [List.takeWhile_append_of_pos fun d mem => by simp [hword d mem], hrest, List.append_nil]
  rw [List.cons_append]
  unfold lexeme?
  split
  · rename_i heq
    exact absurd (List.cons.inj heq).1 (hne rfl)
  · rename_i heq
    exact absurd (List.cons.inj heq).1 (hne rfl)
  · rename_i heq
    exact absurd (List.cons.inj heq).1 (hne rfl)
  · rename_i heq
    obtain ⟨rfl, rfl⟩ := List.cons.inj heq
    have hoperator : ¬ (c = '+' ∨ c = '-' ∨ c = '*' ∨ c = '/' ∨ c = '^') := by
      simp only [not_or]
      exact ⟨hne rfl, hne rfl, hne rfl, hne rfl, hne rfl⟩
    dsimp only
    rw [Formula.Token.numeralLength_eq_zero hdigit hpoint, if_neg (by decide), if_neg hoperator,
      hc, hbegins, if_neg (by decide), htake, Nat.add_comm]
  · rename_i heq
    cases heq

/-- What a text is found to begin with is its longest lexeme. -/
theorem lexeme?_of_longest {slice rest : List Char} (h : Longest IsLexeme slice rest)
    {kind : Lexeme} (hkind : kind.Matches slice) :
    lexeme? (slice ++ rest) = some (kind, slice.length) := by
  cases kind with
  | numeral =>
    have hlength := Formula.Token.numeralLength_of_longest h (fun _ numeral => ⟨.numeral, numeral⟩)
      hkind
    have hpositive := List.length_pos_iff.mpr (IsNumeral.ne_nil hkind)
    rw [lexeme?_of_numeral (by rwa [hlength]), hlength]
  | operator =>
    simp only [Lexeme.Matches, operators, List.mem_cons, List.not_mem_nil, or_false] at hkind
    rcases hkind with rfl | rfl | rfl | rfl | rfl | rfl
    case inr.inr.inl =>
      refine lexeme?_star fun hstar => ?_
      obtain ⟨rest, rfl⟩ := List.head?_eq_some_iff.mp hstar
      exact absurd (h.length_le ['*', '*'] ⟨rest, rfl⟩ ⟨.operator, by
        simp [Lexeme.Matches, operators]⟩) (by decide)
    case inr.inr.inr.inr.inr => rfl
    all_goals exact lexeme?_of_operator (by simp) rest
  | opening => cases hkind; rfl
  | closing => cases hkind; rfl
  | word =>
    obtain ⟨c, word, rfl⟩ := List.exists_cons_of_ne_nil (IsWord.ne_nil hkind)
    have hslice : IsWord (c :: word) := hkind
    refine lexeme?_of_word hslice fun d hd => ?_
    by_contra goes_on
    obtain ⟨rest, rfl⟩ := List.head?_eq_some_iff.mp hd
    obtain ⟨hc, hword⟩ := List.forall_mem_cons.mp hslice.endsWord
    have hbegins : Identifier.beginsNumerically [c] = false := hslice.beginsNumerically
    have longer : IsWord (c :: (word ++ [d])) :=
      isWord_cons hc hbegins fun e mem => by
        rcases List.mem_append.mp mem with mem | mem
        · exact hword e mem
        · rw [List.mem_singleton.mp mem]
          simpa using goes_on
    have := h.length_le _ ⟨rest, by simp⟩ ⟨.word, longer⟩
    simp at this

theorem lexeme?_of_unmatched {text : List Char} (h : Unmatched IsLexeme text) :
    lexeme? text = none := by
  by_contra found
  obtain ⟨⟨kind, length⟩, hfound⟩ := Option.ne_none_iff_exists'.mp found
  exact h _ (List.take_prefix length text) ⟨kind, matches_of_lexeme? hfound⟩

/-! ## One step of a scan -/

variable {separator : List Char}

theorem track_of_follow {kind : Lexeme} {slice : String} (hkind : kind.Matches slice.toList)
    {opened opened' : List Nat} {position : Nat}
    (h : follow opened (slice, position) = some opened') :
    track kind position opened = .ok opened' := by
  unfold follow at h
  split at h
  · rename_i hslice
    rw [show slice = "(" from hslice] at hkind
    rw [Lexeme.eq_of_matches_parenthesis (.inl rfl) hkind]
    cases h
    cases opened <;> rfl
  · rename_i opening
    split at h
    · rename_i hslice
      rw [show slice = ")" from hslice] at hkind
      rw [Lexeme.eq_of_matches_parenthesis (.inr rfl) hkind]
      cases opened with
      | nil => cases h
      | cons innermost outer => cases h; rfl
    · rename_i closing
      cases h
      cases kind with
      | opening =>
        have hslice : slice.toList = "(".toList := hkind
        exact absurd (String.toList_inj.mp hslice) opening
      | closing =>
        have hslice : slice.toList = ")".toList := hkind
        exact absurd (String.toList_inj.mp hslice) closing
      | numeral | operator | word => cases opened <;> rfl

theorem scanFrom_slice {slice : String} {text : List Char}
    (h : Longest IsLexeme slice.toList text)
    (identified : IsWord slice.toList → Identifier.isWellFormed separator slice.toList)
    {opened opened' : List Nat} {position : Nat}
    (hfollow : follow opened (slice, position) = some opened') :
    scanFrom separator position opened 0 (slice.toList ++ text) = do
      let tokens ← scanFrom separator (position + Text.utf8Length slice.toList) opened' 0 text
      return slice :: tokens := by
  obtain ⟨kind, hkind⟩ := h.lexeme
  obtain ⟨c, cs, hcons⟩ := List.exists_cons_of_ne_nil (solid_isLexeme.ne_nil h.lexeme)
  have hslice : slice = String.ofList (c :: cs) := by rw [← hcons, String.ofList_toList]
  have hblank : ¬ Text.isBlank c :=
    solid_isLexeme.not_isBlank h.lexeme c (by rw [hcons]; exact List.mem_cons_self)
  have hlexeme := lexeme?_of_longest h hkind
  have htrack := track_of_follow hkind hfollow
  have hword : kind = .word →
      Identifier.isWellFormed separator ((c :: (cs ++ text)).take (cs.length + 1)) := by
    rintro rfl
    rw [List.take_succ_cons, List.take_left, ← hcons]
    exact identified hkind
  rw [hcons, List.cons_append, List.length_cons] at hlexeme
  rw [hcons, List.cons_append, scanFrom_of_lexeme? hblank hlexeme (Nat.succ_pos _) hword, htrack,
    ok_bind, List.take_succ_cons, List.drop_succ_cons, Nat.add_sub_cancel, List.take_left,
    List.drop_left, Nat.add_assoc, ← Text.utf8Length_cons, ← hcons, String.ofList_toList]

theorem scanFrom_of_checkWord {word : String} {behind : List Char}
    (h : Longest IsLexeme word.toList behind) (hword : IsWord word.toList) {position : Nat}
    {fault : Fault} (hcheck : checkWord separator word.toList position = .error fault)
    (opened : List Nat) :
    scanFrom separator position opened 0 (word.toList ++ behind) = .error fault := by
  obtain ⟨c, cs, hcons⟩ := List.exists_cons_of_ne_nil hword.ne_nil
  have hblank : ¬ Text.isBlank c :=
    solid_isLexeme.not_isBlank h.lexeme c (by rw [hcons]; exact List.mem_cons_self)
  have hkind : Lexeme.word.Matches word.toList := hword
  have hlexeme := lexeme?_of_longest h hkind
  rw [hcons, List.cons_append, List.length_cons] at hlexeme
  rw [hcons] at hcheck
  rw [hcons, List.cons_append, scanFrom, if_neg hblank, hlexeme]
  simp only [if_true, List.take_succ_cons, List.take_left, hcheck, error_bind]

/-! ## Scans -/

/-- A scan gives the slices, and goes on behind them with the groups that they leave open. -/
theorem scanFrom_of_sliced {position stop : Nat} {text rest : List Char}
    {slices : List (String × Nat)} (h : Sliced IsLexeme position text slices stop rest)
    (identified : Identified separator slices) {opened opened' : List Nat}
    (hfollow : slices.foldlM follow opened = some opened') :
    scanFrom separator position opened 0 text = do
      let tokens ← scanFrom separator stop opened' 0 rest
      return slices.map Prod.fst ++ tokens := by
  induction h generalizing opened with
  | done =>
    cases hfollow
    exact (bind_pure _).symm
  | blank hc _ ih =>
    rw [scanFrom, if_pos hc]
    exact ih identified hfollow
  | slice hlongest _ ih =>
    obtain ⟨hslice, hslices⟩ := List.forall_mem_cons.mp identified
    rw [List.foldlM_cons] at hfollow
    obtain ⟨behind, hstep, hrun⟩ := Option.bind_eq_some_iff.mp hfollow
    rw [scanFrom_slice hlongest hslice hstep, ih hslices hrun, bind_assoc]
    rfl

theorem Obstacle.scanFrom {opened : List Nat} {stop : Nat} {rest : List Char} {fault : Fault}
    (h : Obstacle separator opened stop rest fault) :
    scanFrom separator stop opened 0 rest = .error fault := by
  cases h with
  | unmatched hblank hnone => rw [TokenTree.scanFrom, if_neg hblank, lexeme?_of_unmatched hnone]
  | stray hlongest hword stray =>
    have hstray := Identifier.firstStrayFrom_of_firstStray stray 0
    refine scanFrom_of_checkWord hlongest hword ?_ opened
    rw [checkWord, Identifier.firstStray?, hstray, Nat.zero_add, if_neg]
    simp [Identifier.isWellFormed, Identifier.firstStray?, hstray]
  | malformed hlongest hword hformed clean =>
    refine scanFrom_of_checkWord hlongest hword ?_ opened
    rw [checkWord, if_neg hformed, Identifier.firstStray?,
      Identifier.firstStrayFrom_of_clean clean, String.ofList_toList]
  | closing closed =>
    subst closed
    rfl
  | unclosed left => rw [left]; rfl

/-- A text is sliced into tokens up to its end, or up to the first obstacle. -/
theorem exists_sliced (separator text : List Char) :
    ∃ slices opened stop rest, Sliced IsLexeme 0 text slices stop rest ∧
      Identified separator slices ∧ LeavesOpen slices opened ∧
      (rest = [] ∧ opened = [] ∨ ∃ fault, Obstacle separator opened stop rest fault) := by
  let Admitted (slices : List (String × Nat)) : Prop :=
    Identified separator slices ∧ ∃ opened, LeavesOpen slices opened
  obtain ⟨slices, stop, rest, hsliced, ⟨identified, opened, hopened⟩, hend⟩ :=
    solid_isLexeme.exists_sliced Admitted
      ⟨by simp [Identified], [], .balanced .nil⟩ text
  refine ⟨slices, opened, stop, rest, hsliced, identified, hopened, ?_⟩
  rcases hend with rfl | halts
  · cases opened with
    | nil => exact .inl ⟨rfl, rfl⟩
    | cons innermost outer => exact .inr ⟨_, .unclosed rfl⟩
  · right
    cases halts with
    | unmatched hblank hnone => exact ⟨_, .unmatched hblank hnone⟩
    | @refused slice behind hlongest refused =>
      by_cases formed : IsWord slice.toList → Identifier.isWellFormed separator slice.toList
      · have unpaired : ∀ opened', ¬ LeavesOpen (slices ++ [(slice, stop)]) opened' := by
          refine fun opened' h => refused ⟨?_, opened', h⟩
          exact List.forall_mem_append.mpr ⟨identified, by simpa using formed⟩
        by_cases opening : slice = "("
        · exact absurd (opening ▸ hopened.open stop) (unpaired _)
        · by_cases closing : slice = ")"
          · subst closing
            cases opened with
            | nil => exact ⟨_, .closing rfl⟩
            | cons innermost outer => exact absurd (hopened.close stop) (unpaired _)
          · have single : Balanced ([(slice, stop)].map Prod.fst) := .token opening closing
            exact absurd (hopened.append single) (unpaired _)
      · obtain ⟨hword, malformed⟩ := Classical.not_imp.mp formed
        rcases Identifier.clean_or_exists_firstStray separator
          (stretches separator slice.toList) with clean | ⟨before, c, stray⟩
        · exact ⟨_, .malformed hlongest hword malformed clean⟩
        · exact ⟨_, .stray hlongest hword stray⟩

/-! ## Trees and faults -/

theorem ofText_of_sliced {source separator : String} {slices : List (String × Nat)} {stop : Nat}
    (h : Sliced IsLexeme 0 source.toList slices stop [])
    (identified : Identified separator.toList slices) (paired : LeavesOpen slices []) :
    ofText source separator = .ok (nest (slices.map Prod.fst)) := by
  rw [ofText, scanFrom_of_sliced h identified paired.foldlM_follow]
  exact congrArg (fun tokens => Except.ok (nest tokens)) (List.append_nil _)

theorem ofText_of_obstacle {source separator : String} {slices : List (String × Nat)} {stop : Nat}
    {rest : List Char} (h : Sliced IsLexeme 0 source.toList slices stop rest)
    (identified : Identified separator.toList slices) {opened : List Nat}
    (hopened : LeavesOpen slices opened) {fault : Fault}
    (obstacle : Obstacle separator.toList opened stop rest fault) :
    ofText source separator = .error fault := by
  rw [ofText, scanFrom_of_sliced h identified hopened.foldlM_follow, obstacle.scanFrom]
  rfl

theorem ofText_eq_ok_iff {source separator : String} {trees : List TokenTree} :
    ofText source separator = .ok trees ↔
      ∃ slices stop, Sliced IsLexeme 0 source.toList slices stop [] ∧
        Identified separator.toList slices ∧ LeavesOpen slices [] ∧
        trees = nest (slices.map Prod.fst) := by
  constructor
  · intro h
    obtain ⟨slices, opened, stop, rest, hsliced, identified, hopened, hend⟩ :=
      exists_sliced separator.toList source.toList
    rcases hend with ⟨rfl, rfl⟩ | ⟨fault, obstacle⟩
    · cases h.symm.trans (ofText_of_sliced hsliced identified hopened)
      exact ⟨slices, stop, hsliced, identified, hopened, rfl⟩
    · cases h.symm.trans (ofText_of_obstacle hsliced identified hopened obstacle)
  · rintro ⟨slices, stop, hsliced, identified, paired, rfl⟩
    exact ofText_of_sliced hsliced identified paired

theorem ofText_eq_error_iff {source separator : String} {fault : Fault} :
    ofText source separator = .error fault ↔
      ∃ slices opened stop rest, Sliced IsLexeme 0 source.toList slices stop rest ∧
        Identified separator.toList slices ∧ LeavesOpen slices opened ∧
        Obstacle separator.toList opened stop rest fault := by
  constructor
  · intro h
    obtain ⟨slices, opened, stop, rest, hsliced, identified, hopened, hend⟩ :=
      exists_sliced separator.toList source.toList
    rcases hend with ⟨rfl, rfl⟩ | ⟨found, obstacle⟩
    · cases h.symm.trans (ofText_of_sliced hsliced identified hopened)
    · cases h.symm.trans (ofText_of_obstacle hsliced identified hopened obstacle)
      exact ⟨slices, opened, stop, rest, hsliced, identified, hopened, obstacle⟩
  · rintro ⟨slices, opened, stop, rest, hsliced, identified, hopened, obstacle⟩
    exact ofText_of_obstacle hsliced identified hopened obstacle

/-- The text that a fault of a source text points at, and the offset where it points. -/
def reported? : Fault → Option (String × Nat)
  | .unexpectedCharacter text position => some (text, position)
  | .unexpectedToken text position => some (text, position)
  | .expectedClosing position => some ("(", position)
  | _ => none

theorem Obstacle.exists_reported {text rest : List Char} {slices : List (String × Nat)}
    {stop : Nat} (h : Sliced IsLexeme 0 text slices stop rest) {opened : List Nat}
    (hopened : LeavesOpen slices opened) {fault : Fault}
    (obstacle : Obstacle separator opened stop rest fault) :
    ∃ found before behind, reported? fault = some (found, Text.utf8Length before) ∧
      text = before ++ (found.toList ++ behind) := by
  obtain ⟨cut, rfl, rfl⟩ := h.exists_cut
  rw [Nat.zero_add] at obstacle
  cases obstacle with
  | @unmatched c behind => exact ⟨_, cut, behind, rfl, by rw [String.toList_singleton]; rfl⟩
  | @stray word behind before c _ _ stray =>
    obtain ⟨tail, htail⟩ := stray.exists_intercalate
    rw [Identifier.intercalate_stretches] at htail
    refine ⟨_, cut ++ before, tail ++ behind, by rw [Text.utf8Length_append]; rfl, ?_⟩
    rw [htail, String.toList_singleton]
    simp
  | @malformed word behind => exact ⟨word, cut, behind, rfl, rfl⟩
  | @closing behind => exact ⟨")", cut, behind, rfl, rfl⟩
  | unclosed left =>
    subst left
    cases hopened with
    | opening _ _ =>
      obtain ⟨before, behind, htext, hoffset⟩ :=
        h.exists_append _ (List.mem_append_right _ List.mem_cons_self)
      rw [Nat.zero_add] at hoffset
      exact ⟨"(", before, behind, congrArg (fun n => some ("(", n)) hoffset, htext⟩

/--
A source text gives the trees of its slices if it is sliced up to its end, every word is an
identifier and every parenthesis has its partner; otherwise the first obstacle decides. A fault
points at a text that stands where it points. Over a namespace, stray text makes the source unsafe,
and all else is a fault of its structure.
-/
theorem ofText_obstacles {V : Type} (source separator : String) (ns : Namespace V) :
    (∀ trees, ofText source separator = .ok trees ↔
      ∃ slices stop, Sliced IsLexeme 0 source.toList slices stop [] ∧
        Identified separator.toList slices ∧ LeavesOpen slices [] ∧
        trees = nest (slices.map Prod.fst)) ∧
    (∀ fault, ofText source separator = .error fault ↔
      ∃ slices opened stop rest, Sliced IsLexeme 0 source.toList slices stop rest ∧
        Identified separator.toList slices ∧ LeavesOpen slices opened ∧
        Obstacle separator.toList opened stop rest fault) ∧
    (∀ fault, ofText source separator = .error fault →
      ∃ found before behind, reported? fault = some (found, Text.utf8Length before) ∧
        source.toList = before ++ (found.toList ++ behind)) ∧
    ∀ fault, ofText source separator = .error fault →
      Arithmetic.ofText source ns separator = .error (match fault with
        | .unexpectedCharacter .. => .unsafeExpression source fault
        | _ => .tokenize fault) := by
  refine ⟨fun trees => ofText_eq_ok_iff, fun fault => ofText_eq_error_iff, fun fault h => ?_,
    fun fault h => ?_⟩
  · obtain ⟨slices, opened, stop, rest, hsliced, -, hopened, obstacle⟩ := ofText_eq_error_iff.mp h
    exact obstacle.exists_reported hsliced hopened
  · rw [Arithmetic.ofText, h]
    rfl

/-! ## Trees and their tokens -/

/--
No token is lost or split when groups are formed. The tokens of the trees are the source text
without its blanks, groups mirror the parentheses, and from the tokens joined by spaces the same
trees come again.
-/
theorem ofText_regroups {source separator : String} {trees : List TokenTree}
    (h : ofText source separator = .ok trees) :
    (String.join (flatten trees)).toList = source.toList.filter (!Text.isBlank ·) ∧
      (∀ tree ∈ trees, Enclosed tree) ∧
      ofText (" ".intercalate (flatten trees)) separator = .ok trees := by
  obtain ⟨slices, stop, hsliced, identified, paired, rfl⟩ := ofText_eq_ok_iff.mp h
  rw [flatten_nest]
  have balanced : Balanced (slices.map Prod.fst) := by
    cases paired with
    | balanced front => exact front
  refine ⟨?_, balanced.enclosed, ?_⟩
  · rw [hsliced.filter_eq solid_isLexeme, String.toList_join, List.flatMap_map]
    exact (List.append_nil _).symm
  · have lexemes : ∀ text ∈ slices.map Prod.fst, IsLexeme text.toList :=
      List.forall_mem_map.mpr hsliced.lexeme
    obtain ⟨slices', stop', hsliced', hmap⟩ := solid_isLexeme.sliced_intercalate lexemes 0
    have identified' : Identified separator.toList slices' := by
      intro slice mem
      have hmem : slice.1 ∈ slices.map Prod.fst := hmap ▸ List.mem_map_of_mem mem
      obtain ⟨slice', mem', heq⟩ := List.mem_map.mp hmem
      exact heq ▸ identified slice' mem'
    rw [← hmap] at balanced ⊢
    exact ofText_of_sliced (by rwa [String.toList_intercalate, hmap]) identified'
      (.balanced balanced)

/-- The trees of `a€b*((.5e1 +\t2.)^ x)`, with `€` as separator. -/
def nested : List TokenTree :=
  [.token "a€b", .token "*", .group [.token "(", .group [.token "(", .token ".5e1", .token "+",
    .token "2.", .token ")"], .token "^", .token "x", .token ")"]]

theorem ofText_nested : ofText "a€b*((.5e1 +\t2.)^ x)" "€" = .ok nested := by
  have hscan : scanFrom "€".toList 0 [] 0 "a€b*((.5e1 +\t2.)^ x)".toList =
      .ok ["a€b", "*", "(", "(", ".5e1", "+", "2.", ")", "^", "x", ")"] := by decide +kernel
  rw [ofText, hscan]
  rfl

theorem ofText_regroups_nested :
    ofText "a€b*((.5e1 +\t2.)^ x)" "€" = .ok nested ∧
      (String.join (flatten nested)).toList =
        "a€b*((.5e1 +\t2.)^ x)".toList.filter (!Text.isBlank ·) ∧
      (∀ tree ∈ nested, Enclosed tree) ∧
      ofText (" ".intercalate (flatten nested)) "€" = .ok nested :=
  ⟨ofText_nested, ofText_regroups ofText_nested⟩

end Comparand.TokenTree
