import Comparand.Proofs.LongestMatch
import Comparand.Proofs.NumeralReadings
import Comparand.Proofs.Plain

/-!
# Slices of a formula

The tokens of a formula are what its slices by longest match are: numerals and symbols with blanks
between them. A scan comes to the end of the text, or to the first obstacle in it: a character that
no lexeme begins with, a numeral too large for a double, or one token too many. What lies behind an
obstacle has no influence.
-/
namespace Comparand.Formula
open Text (Longest Unmatched Solid Sliced Halts)

def Token.symbols : List (List Char × Token) :=
  [(['+'], .plus), (['-'], .minus), (['*'], .star), (['/'], .slash), (['*', '*'], .doubleStar),
    (['('], .opening), ([')'], .closing)]

/-- Numerals, however large, and symbols. -/
def IsLexeme (slice : List Char) : Prop :=
  IsNumeral slice ∨ ∃ token, (slice, token) ∈ Token.symbols

/-- The token that a lexeme is. A numeral is the double that it reads as, if that is finite. -/
inductive IsToken : List Char → Token → Prop
  | numeral {slice : List Char} {value : Float} : IsNumeral slice →
      Decimal.read? slice = some value → value.isFinite → IsToken slice (.number value)
  | symbol {slice : List Char} {token : Token} : (slice, token) ∈ Token.symbols →
      IsToken slice token

/-- The token that a slice is, at the offset where the slice begins. -/
def IsTokenAt (slice : String × Nat) (placed : Placed) : Prop :=
  IsToken slice.1.toList placed.1 ∧ placed.2 = slice.2

/-- What a scan stops at, behind a number of tokens, in the text from the offset `stop` on. -/
inductive Obstacle (tokens stop : Nat) : List Char → Fault → Prop
  | unmatched {c : Char} {behind : List Char} : ¬ Text.isBlank c →
      Unmatched IsLexeme (c :: behind) →
      Obstacle tokens stop (c :: behind) (.unexpectedCharacter (String.singleton c) stop)
  | tooLarge {slice : String} {behind : List Char} : Longest IsLexeme slice.toList behind →
      IsNumeral slice.toList → Decimal.read? slice.toList = some (Binary64.infinity false) →
      Obstacle tokens stop (slice.toList ++ behind) (.literalTooLarge slice)
  | tooMany {slice : String} {behind : List Char} {token : Token} : tokens = maxTokens →
      Longest IsLexeme slice.toList behind → IsToken slice.toList token →
      Obstacle tokens stop (slice.toList ++ behind) (.tooManyTokens maxTokens)

/-! ## Lexemes -/

theorem IsNumeral.not_isBlank {numeral : List Char} (h : IsNumeral numeral) :
    ∀ c ∈ numeral, ¬ Text.isBlank c := by
  intro c mem blank
  refine h.not_mem (by simp [TokenTree.endsWord, blank]) ⟨?_, ?_⟩ mem
  · rintro rfl
    cases blank
  · rintro rfl
    cases blank

theorem solid_isLexeme : Solid IsLexeme where
  ne_nil := by
    rintro slice (numeral | ⟨token, symbol⟩)
    · exact numeral.ne_nil
    · have hall : ∀ entry ∈ Token.symbols, entry.1 ≠ [] := by decide
      exact hall _ symbol
  not_isBlank := by
    rintro slice (numeral | ⟨token, symbol⟩)
    · exact numeral.not_isBlank
    · have hall : ∀ entry ∈ Token.symbols, ∀ c ∈ entry.1, ¬ Text.isBlank c := by
        simp [Token.symbols, Text.isBlank]
      exact hall _ symbol

theorem IsLexeme.exists_isToken {slice : List Char} (h : IsLexeme slice) :
    (∃ token, IsToken slice token) ∨
      IsNumeral slice ∧ Decimal.read? slice = some (Binary64.infinity false) := by
  rcases h with numeral | ⟨token, symbol⟩
  · rcases Decimal.read?_cases_of_isNumeral numeral with ⟨value, hread, finite, -⟩ | infinite
    · exact .inl ⟨_, .numeral numeral hread finite⟩
    · exact .inr ⟨numeral, infinite⟩
  · exact .inl ⟨token, .symbol symbol⟩

theorem IsToken.ne_blank {slice : List Char} {token : Token} (h : IsToken slice token) :
    token ≠ .blank := by
  cases h with
  | numeral => simp
  | symbol symbol =>
    have hall : ∀ entry ∈ Token.symbols, entry.2 ≠ .blank := by decide
    exact hall _ symbol

theorem IsToken.zero_le {slice : List Char} {value : Float} (h : IsToken slice (.number value)) :
    value.isFinite ∧ 0 ≤ value ∧ IsNumeral slice ∧ Decimal.read? slice = some value := by
  cases h with
  | numeral numeral hread finite =>
    rcases Decimal.read?_cases_of_isNumeral numeral with ⟨value', hread', -, positive⟩ | infinite
    · obtain rfl : value = value' := Option.some.inj (hread.symm.trans hread')
      exact ⟨finite, positive, numeral, hread⟩
    · obtain rfl : value = Binary64.infinity false := Option.some.inj (hread.symm.trans infinite)
      exact absurd finite (by decide)
  | symbol symbol =>
    have hall : ∀ entry ∈ Token.symbols, ∀ value, entry.2 ≠ .number value := by
      simp [Token.symbols]
    exact absurd rfl (hall _ symbol value)

/-! ## The token at the head of a text -/

namespace Token

/-- The longest lexeme that a text begins with is its numeral, if it is one. -/
theorem numeralLength_of_longest {Lexeme : List Char → Prop} {numeral rest : List Char}
    (h : Longest Lexeme numeral rest) (numerals : ∀ slice, IsNumeral slice → Lexeme slice)
    (hnumeral : IsNumeral numeral) :
    numeralLength (numeral ++ rest) = numeral.length := by
  have least := hnumeral.length_le rest
  have positive := List.length_pos_iff.mpr hnumeral.ne_nil
  exact h.length_eq (numerals _ (isNumeral_take (by omega))) (numeralLength_le _) least

theorem numeralLength_of_unmatched {Lexeme : List Char → Prop} {text : List Char}
    (h : Unmatched Lexeme text) (numerals : ∀ slice, IsNumeral slice → Lexeme slice) :
    numeralLength text = 0 := by
  by_contra found
  exact h _ (List.take_prefix _ text) (numerals _ (isNumeral_take (Nat.pos_of_ne_zero found)))

theorem mem_symbols_of_symbol? {text : List Char} {token : Token} {length : Nat}
    (h : symbol? text = some (token, length)) : (text.take length, token) ∈ symbols := by
  unfold symbol? at h
  split at h <;> cases h <;> simp [symbols]

theorem symbol?_of_longest {symbol rest : List Char} {token : Token}
    (h : Longest IsLexeme symbol rest) (mem : (symbol, token) ∈ symbols) :
    symbol? (symbol ++ rest) = some (token, symbol.length) := by
  simp only [symbols, List.mem_cons, Prod.mk.injEq, List.not_mem_nil, or_false] at mem
  rcases mem with ⟨rfl, rfl⟩ | ⟨rfl, rfl⟩ | ⟨rfl, rfl⟩ | ⟨rfl, rfl⟩ | ⟨rfl, rfl⟩ | ⟨rfl, rfl⟩ |
    ⟨rfl, rfl⟩
  case inr.inr.inl =>
    cases rest with
    | nil => rfl
    | cons c rest =>
      refine symbol?_star_of_ne ?_ rest
      rintro rfl
      exact absurd (h.length_le ['*', '*'] ⟨rest, rfl⟩ (.inr ⟨.doubleStar, by simp [symbols]⟩))
        (by decide)
  all_goals rfl

theorem numeralLength_of_mem_symbols {symbol : List Char} {token : Token}
    (mem : (symbol, token) ∈ symbols) (rest : List Char) : numeralLength (symbol ++ rest) = 0 := by
  simp only [symbols, List.mem_cons, Prod.mk.injEq, List.not_mem_nil, or_false] at mem
  rcases mem with ⟨rfl, -⟩ | ⟨rfl, -⟩ | ⟨rfl, -⟩ | ⟨rfl, -⟩ | ⟨rfl, -⟩ | ⟨rfl, -⟩ | ⟨rfl, -⟩ <;>
    exact numeralLength_eq_zero rfl (by decide) _

/-- The token at the head of a text is what the longest lexeme is. -/
theorem head_of_isToken {c : Char} {slice rest : List Char} {token : Token}
    (h : Longest IsLexeme (c :: slice) rest) (hslice : IsToken (c :: slice) token)
    (position : Nat) : head c (slice ++ rest) position = .ok (token, slice.length + 1) := by
  cases hslice with
  | numeral numeral hread finite =>
    have hlength := numeralLength_of_longest h (fun _ => .inl) numeral
    rw [List.cons_append, List.length_cons] at hlength
    simp only [head, hlength, Nat.succ_ne_zero, if_false]
    rw [List.take_succ_cons, List.take_left, hread]
    exact if_pos finite
  | symbol symbol =>
    have hlength := numeralLength_of_mem_symbols symbol rest
    have hsymbol := symbol?_of_longest h symbol
    rw [List.cons_append] at hlength hsymbol
    simp only [head, hlength, if_true, hsymbol]
    rfl

theorem head_of_infinite {c : Char} {slice rest : List Char}
    (h : Longest IsLexeme (c :: slice) rest) (numeral : IsNumeral (c :: slice))
    (infinite : Decimal.read? (c :: slice) = some (Binary64.infinity false)) (position : Nat) :
    head c (slice ++ rest) position = .error (.literalTooLarge (String.ofList (c :: slice))) := by
  have hlength := numeralLength_of_longest h (fun _ => .inl) numeral
  rw [List.cons_append, List.length_cons] at hlength
  simp only [head, hlength, Nat.succ_ne_zero, if_false]
  rw [List.take_succ_cons, List.take_left, infinite]
  exact if_neg (by decide)

theorem head_of_unmatched {c : Char} {rest : List Char} (h : Unmatched IsLexeme (c :: rest))
    (position : Nat) :
    head c rest position = .error (.unexpectedCharacter (String.singleton c) position) := by
  have hnone : symbol? (c :: rest) = none := by
    by_contra found
    obtain ⟨⟨token, length⟩, hfound⟩ := Option.ne_none_iff_exists'.mp found
    exact h _ (List.take_prefix length _) (.inr ⟨token, mem_symbols_of_symbol? hfound⟩)
  simp only [head, numeralLength_of_unmatched h fun _ => .inl, if_true, hnone]

end Token

/-! ## Scans -/

/-- A scan gives the tokens that the slices are, and goes on behind them. -/
theorem scanFrom_of_sliced {position stop : Nat} {text rest : List Char}
    {slices : List (String × Nat)} (h : Sliced IsLexeme position text slices stop rest)
    {tokens : List Placed} (htokens : List.Forall₂ IsTokenAt slices tokens) {found : Nat}
    (room : found + tokens.length ≤ maxTokens) :
    Token.scanFrom found position 0 text = do
      let us ← Token.scanFrom (found + tokens.length) stop 0 rest
      return tokens ++ us := by
  induction h generalizing tokens found with
  | done =>
    cases htokens
    exact (bind_pure _).symm
  | blank hc _ ih =>
    rw [Token.scanFrom_of_isBlank hc]
    exact ih htokens room
  | @slice slice position stop text rest slices hlongest _ ih =>
    obtain ⟨⟨token, offset⟩, tokens, ⟨htoken, hoffset⟩, htokens', rfl⟩ :=
      List.forall₂_cons_left_iff.mp htokens
    dsimp only at htoken hoffset
    subst hoffset
    obtain ⟨c, cs, hcons⟩ := List.exists_cons_of_ne_nil (solid_isLexeme.ne_nil hlongest.lexeme)
    have hblank : ¬ Text.isBlank c :=
      solid_isLexeme.not_isBlank hlongest.lexeme c (by rw [hcons]; exact List.mem_cons_self)
    rw [hcons] at hlongest htoken
    rw [List.length_cons] at room
    rw [hcons, List.cons_append, Token.scanFrom_of_head hblank
      (Token.head_of_isToken hlongest htoken offset), if_neg (by omega), Nat.add_sub_cancel,
      Token.scanFrom_skip, List.take_left, List.drop_left, Nat.add_assoc, ← Text.utf8Length_cons,
      ← hcons, ih htokens' (by omega), List.length_cons, bind_assoc, Nat.add_assoc,
      Nat.add_comm 1]
    rfl

theorem Obstacle.scanFrom {tokens stop : Nat} {rest : List Char} {fault : Fault}
    (h : Obstacle tokens stop rest fault) : Token.scanFrom tokens stop 0 rest = .error fault := by
  cases h with
  | unmatched hblank hnone =>
    exact Token.scanFrom_of_head_error hblank (Token.head_of_unmatched hnone stop) tokens
  | @tooLarge slice behind hlongest numeral infinite =>
    obtain ⟨c, cs, hcons⟩ := List.exists_cons_of_ne_nil numeral.ne_nil
    have hslice : slice = String.ofList (c :: cs) := by rw [← hcons, String.ofList_toList]
    rw [hcons] at hlongest numeral infinite ⊢
    rw [hslice]
    exact Token.scanFrom_of_head_error (numeral.not_isBlank c List.mem_cons_self)
      (Token.head_of_infinite hlongest numeral infinite stop) tokens
  | @tooMany slice behind token full hlongest htoken =>
    obtain ⟨c, cs, hcons⟩ := List.exists_cons_of_ne_nil (solid_isLexeme.ne_nil hlongest.lexeme)
    have hblank : ¬ Text.isBlank c :=
      solid_isLexeme.not_isBlank hlongest.lexeme c (by rw [hcons]; exact List.mem_cons_self)
    rw [hcons] at hlongest htoken ⊢
    rw [List.cons_append, Token.scanFrom_of_head hblank (Token.head_of_isToken hlongest htoken stop),
      if_pos full.ge]

/-- A text is sliced into tokens up to its end, or up to the first obstacle. -/
theorem exists_sliced (text : List Char) :
    ∃ slices tokens stop rest, Sliced IsLexeme 0 text slices stop rest ∧
      List.Forall₂ IsTokenAt slices tokens ∧ tokens.length ≤ maxTokens ∧
      (rest = [] ∨ ∃ fault, Obstacle tokens.length stop rest fault) := by
  let Admitted (slices : List (String × Nat)) : Prop :=
    ∃ tokens, List.Forall₂ IsTokenAt slices tokens ∧ tokens.length ≤ maxTokens
  obtain ⟨slices, stop, rest, hsliced, ⟨tokens, htokens, room⟩, hend⟩ :=
    solid_isLexeme.exists_sliced Admitted ⟨[], .nil, Nat.zero_le _⟩ text
  refine ⟨slices, tokens, stop, rest, hsliced, htokens, room, hend.imp id fun halts => ?_⟩
  cases halts with
  | unmatched hblank hnone => exact ⟨_, .unmatched hblank hnone⟩
  | @refused slice behind hlongest refused =>
    rcases hlongest.lexeme.exists_isToken with ⟨token, htoken⟩ | ⟨numeral, infinite⟩
    · refine ⟨_, .tooMany ?_ hlongest htoken⟩
      by_contra room'
      refine refused ⟨tokens ++ [(token, stop)], ?_, ?_⟩
      · exact List.rel_append htokens (.cons ⟨htoken, rfl⟩ .nil)
      · rw [List.length_append, List.length_singleton]
        omega
    · exact ⟨_, .tooLarge hlongest numeral infinite⟩

theorem Token.scan_of_sliced {source : String} {slices : List (String × Nat)} {stop : Nat}
    (h : Sliced IsLexeme 0 source.toList slices stop []) {tokens : List Placed}
    (htokens : List.Forall₂ IsTokenAt slices tokens) (room : tokens.length ≤ maxTokens) :
    Token.scan source = .ok tokens := by
  rw [Token.scan, scanFrom_of_sliced h htokens (by rwa [Nat.zero_add])]
  exact congrArg Except.ok (List.append_nil tokens)

theorem Token.scan_of_obstacle {source : String} {slices : List (String × Nat)} {stop : Nat}
    {rest : List Char} (h : Sliced IsLexeme 0 source.toList slices stop rest)
    {tokens : List Placed} (htokens : List.Forall₂ IsTokenAt slices tokens)
    (room : tokens.length ≤ maxTokens) {fault : Fault}
    (obstacle : Obstacle tokens.length stop rest fault) : Token.scan source = .error fault := by
  rw [Token.scan, scanFrom_of_sliced h htokens (by rwa [Nat.zero_add]), Nat.zero_add,
    obstacle.scanFrom, error_bind]

theorem Token.scan_eq_ok_iff {source : String} {tokens : List Placed} :
    Token.scan source = .ok tokens ↔
      ∃ slices stop, Sliced IsLexeme 0 source.toList slices stop [] ∧
        List.Forall₂ IsTokenAt slices tokens ∧ tokens.length ≤ maxTokens := by
  constructor
  · intro h
    obtain ⟨slices, found, stop, rest, hsliced, htokens, room, rfl | ⟨fault, obstacle⟩⟩ :=
      exists_sliced source.toList
    · cases h.symm.trans (Token.scan_of_sliced hsliced htokens room)
      exact ⟨slices, stop, hsliced, htokens, room⟩
    · cases h.symm.trans (Token.scan_of_obstacle hsliced htokens room obstacle)
  · rintro ⟨slices, stop, hsliced, htokens, room⟩
    exact Token.scan_of_sliced hsliced htokens room

theorem Token.scan_eq_error_iff {source : String} {fault : Fault} :
    Token.scan source = .error fault ↔
      ∃ slices tokens stop rest, Sliced IsLexeme 0 source.toList slices stop rest ∧
        List.Forall₂ IsTokenAt slices tokens ∧ tokens.length ≤ maxTokens ∧
        Obstacle tokens.length stop rest fault := by
  constructor
  · intro h
    obtain ⟨slices, tokens, stop, rest, hsliced, htokens, room, rfl | ⟨found, obstacle⟩⟩ :=
      exists_sliced source.toList
    · cases h.symm.trans (Token.scan_of_sliced hsliced htokens room)
    · cases h.symm.trans (Token.scan_of_obstacle hsliced htokens room obstacle)
      exact ⟨slices, tokens, stop, rest, hsliced, htokens, room, obstacle⟩
  · rintro ⟨slices, tokens, stop, rest, hsliced, htokens, room, obstacle⟩
    exact Token.scan_of_obstacle hsliced htokens room obstacle

/-! ## Tokens in place -/

theorem map_snd_eq_of_isTokenAt {slices : List (String × Nat)} {tokens : List Placed}
    (h : List.Forall₂ IsTokenAt slices tokens) : tokens.map Prod.snd = slices.map Prod.snd := by
  induction h with
  | nil => rfl
  | cons head _ ih => rw [List.map_cons, List.map_cons, head.2, ih]

theorem exists_slice_of_mem {slices : List (String × Nat)} {tokens : List Placed}
    (h : List.Forall₂ IsTokenAt slices tokens) {placed : Placed} (mem : placed ∈ tokens) :
    ∃ slice ∈ slices, IsTokenAt slice placed := by
  induction h with
  | nil => cases mem
  | cons head _ ih =>
    rcases List.mem_cons.mp mem with rfl | mem
    · exact ⟨_, List.mem_cons_self, head⟩
    · obtain ⟨slice, hslice, hplaced⟩ := ih mem
      exact ⟨slice, List.mem_cons_of_mem _ hslice, hplaced⟩

theorem exists_of_mem_tokens {text rest : List Char} {stop : Nat} {slices : List (String × Nat)}
    (h : Sliced IsLexeme 0 text slices stop rest) {tokens : List Placed}
    (htokens : List.Forall₂ IsTokenAt slices tokens) {token : Token} {offset : Nat}
    (mem : (token, offset) ∈ tokens) :
    ∃ before slice behind, text = before ++ (slice ++ behind) ∧
      offset = Text.utf8Length before ∧ IsToken slice token := by
  obtain ⟨slice, hslice, htoken, hoffset⟩ := exists_slice_of_mem htokens mem
  obtain ⟨before, behind, htext, hbefore⟩ := h.exists_append slice hslice
  rw [Nat.zero_add] at hbefore
  exact ⟨before, slice.1.toList, behind, htext, hoffset.trans hbefore, htoken⟩

/--
A scan gives the tokens that a text is sliced into, if it is sliced up to its end; otherwise the
first obstacle decides. Tokens come from left to right, none of them is blank, and numbers are the
finite values, zero or more, of the numerals that stand in the text where they are said to stand.
-/
theorem Token.scan_slices (source : String) :
    (∀ tokens, Token.scan source = .ok tokens ↔
      ∃ slices stop, Sliced IsLexeme 0 source.toList slices stop [] ∧
        List.Forall₂ IsTokenAt slices tokens ∧ tokens.length ≤ maxTokens) ∧
    (∀ fault, Token.scan source = .error fault ↔
      ∃ slices tokens stop rest, Sliced IsLexeme 0 source.toList slices stop rest ∧
        List.Forall₂ IsTokenAt slices tokens ∧ tokens.length ≤ maxTokens ∧
        Obstacle tokens.length stop rest fault) ∧
    ∀ tokens, Token.scan source = .ok tokens →
      tokens.Pairwise (fun token next => token.2 < next.2) ∧
      (∀ placed ∈ tokens, placed.1 ≠ .blank) ∧
      ∀ value offset, (.number value, offset) ∈ tokens →
        value.isFinite ∧ 0 ≤ value ∧ ∃ before numeral behind,
          source.toList = before ++ (numeral ++ behind) ∧ offset = Text.utf8Length before ∧
          IsNumeral numeral ∧ Decimal.read? numeral = some value := by
  refine ⟨fun tokens => Token.scan_eq_ok_iff, fun fault => Token.scan_eq_error_iff,
    fun tokens h => ?_⟩
  obtain ⟨slices, stop, hsliced, htokens, -⟩ := Token.scan_eq_ok_iff.mp h
  refine ⟨?_, fun placed mem => ?_, fun value offset mem => ?_⟩
  · rw [← List.pairwise_map (f := Prod.snd) (R := (· < ·)), map_snd_eq_of_isTokenAt htokens,
      List.pairwise_map]
    exact hsliced.pairwise_lt solid_isLexeme
  · obtain ⟨_, _, _, _, _, htoken⟩ := exists_of_mem_tokens hsliced htokens mem
    exact htoken.ne_blank
  · obtain ⟨before, numeral, behind, htext, hoffset, htoken⟩ :=
      exists_of_mem_tokens hsliced htokens mem
    obtain ⟨finite, positive, hnumeral, hread⟩ := htoken.zero_le
    exact ⟨finite, positive, before, numeral, behind, htext, hoffset, hnumeral, hread⟩

end Comparand.Formula
