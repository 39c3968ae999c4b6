import Comparand.Proofs.FormulaSlices
import Comparand.Proofs.Limits

/-!
# Slices of joined texts

No lexeme holds a space. So a text is sliced as before when more is joined to it by a space, and
what stops the slicing stops it again. Texts that are joined by single spaces have their tokens in a
row, each moved by the bytes in front of its text; if there is something in one of them that is no
token, then it is the fault of the whole as it is that of its text.
-/
namespace Comparand

namespace Text
variable {Lexeme : List Char → Prop}

/-- Texts with a space behind each of them. -/
def spaced (texts : List String) : List Char := texts.flatMap fun text => text.toList ++ [' ']

@[simp] theorem spaced_nil : spaced [] = [] := rfl

@[simp] theorem spaced_cons (text : String) (texts : List String) :
    spaced (text :: texts) = text.toList ++ ' ' :: spaced texts := by
  simp [spaced]

theorem toList_intercalate_cons_cons (text next : String) (texts : List String) :
    (" ".intercalate (text :: next :: texts)).toList =
      text.toList ++ ' ' :: (" ".intercalate (next :: texts)).toList := by
  simp [String.toList_intercalate]

theorem toList_intercalate_append (before : List String) (text : String) (after : List String) :
    (" ".intercalate (before ++ text :: after)).toList =
      spaced before ++ (" ".intercalate (text :: after)).toList := by
  induction before with
  | nil => rfl
  | cons first before ih =>
    have htail : ∃ next texts, before ++ text :: after = next :: texts :=
      List.exists_cons_of_ne_nil (by simp)
    obtain ⟨next, texts, heq⟩ := htail
    rw [List.cons_append, heq, toList_intercalate_cons_cons, ← heq, ih, spaced_cons,
      List.append_assoc, List.cons_append]

theorem exists_toList_intercalate_cons (text : String) (after : List String) :
    ∃ behind, (" ".intercalate (text :: after)).toList = text.toList ++ behind ∧
      (behind = [] ∨ behind.head? = some ' ') := by
  cases after with
  | nil => exact ⟨[], by simp, .inl rfl⟩
  | cons next after => exact ⟨_, toList_intercalate_cons_cons text next after, .inr rfl⟩

/-! ## Slices in another place -/

theorem Unmatched.append (solid : Solid Lexeme) {text behind : List Char}
    (h : Unmatched Lexeme text) (hbehind : behind = [] ∨ behind.head? = some ' ') :
    Unmatched Lexeme (text ++ behind) := by
  intro slice hslice hlexeme
  exact h slice (solid.prefix_of_append hbehind hslice hlexeme) hlexeme

theorem Longest.append (solid : Solid Lexeme) {slice rest behind : List Char}
    (h : Longest Lexeme slice rest) (hbehind : behind = [] ∨ behind.head? = some ' ') :
    Longest Lexeme slice (rest ++ behind) := by
  refine ⟨h.lexeme, fun longer hlonger hlexeme => ?_⟩
  rw [← List.append_assoc] at hlonger
  exact h.length_le longer (solid.prefix_of_append hbehind hlonger hlexeme) hlexeme

variable {position stop : Nat} {text rest : List Char} {slices : List (String × Nat)}

/-- A text is sliced alike when more is joined to it by a space. -/
theorem Sliced.append (solid : Solid Lexeme) {behind : List Char}
    (h : Sliced Lexeme position text slices stop rest)
    (hbehind : behind = [] ∨ behind.head? = some ' ') :
    Sliced Lexeme position (text ++ behind) slices stop (rest ++ behind) := by
  induction h with
  | done => exact .done
  | blank hc _ ih => exact .blank hc ih
  | slice hlongest _ ih =>
    rw [List.append_assoc]
    exact .slice (hlongest.append solid hbehind) ih

theorem Sliced.moved (h : Sliced Lexeme position text slices stop rest) (shift : Nat) :
    Sliced Lexeme (shift + position) text (slices.map fun slice => (slice.1, shift + slice.2))
      (shift + stop) rest := by
  induction h with
  | done => exact .done
  | blank hc _ ih =>
    rw [← Nat.add_assoc] at ih
    exact .blank hc ih
  | slice hlongest _ ih =>
    rw [← Nat.add_assoc] at ih
    exact .slice hlongest ih

theorem Sliced.trans {middle : List Char} {slices' : List (String × Nat)} {stop' : Nat}
    (h : Sliced Lexeme position text slices stop middle)
    (hrest : Sliced Lexeme stop middle slices' stop' rest) :
    Sliced Lexeme position text (slices ++ slices') stop' rest := by
  induction h with
  | done => exact hrest
  | blank hc _ ih => exact .blank hc (ih hrest)
  | slice hlongest _ ih => exact .slice hlongest (ih hrest)

theorem Sliced.stop_eq (h : Sliced Lexeme position text slices stop []) :
    stop = position + utf8Length text := by
  obtain ⟨cut, htext, hstop⟩ := h.exists_cut
  rw [htext, List.append_nil, hstop]

end Text

namespace Formula
open Text (Sliced Unmatched spaced)

/-! ## Faults in another place -/

/-- A fault further to the right. -/
def Fault.moved (shift : Nat) : Fault → Fault
  | .unexpectedCharacter text position => .unexpectedCharacter text (shift + position)
  | .unexpectedToken token position => .unexpectedToken token (shift + position)
  | .expectedClosing position => .expectedClosing (shift + position)
  | .trailingTokens token position => .trailingTokens token (shift + position)
  | fault => fault

/-- Whether a text has something in it that is no token. -/
def Fault.IsLexical : Fault → Prop
  | .unexpectedCharacter .. | .literalTooLarge .. => True
  | _ => False

theorem Obstacle.moved {tokens stop : Nat} {rest behind : List Char} {fault : Fault}
    (h : Obstacle tokens stop rest fault) (lexical : fault.IsLexical)
    (hbehind : behind = [] ∨ behind.head? = some ' ') (tokens' shift : Nat) :
    Obstacle tokens' (shift + stop) (rest ++ behind) (fault.moved shift) := by
  cases h with
  | unmatched hblank hnone => exact .unmatched hblank (hnone.append solid_isLexeme hbehind)
  | tooLarge hlongest numeral infinite =>
    rw [List.append_assoc]
    exact .tooLarge (hlongest.append solid_isLexeme hbehind) numeral infinite
  | tooMany => exact absurd lexical id

/-! ## Tokens in another place -/

/-- The tokens that a text is sliced into, from the offset `position` up to the offset `stop`. -/
def Tokenized (position : Nat) (text : List Char) (tokens : List Placed) (stop : Nat)
    (rest : List Char) : Prop :=
  ∃ slices, Sliced IsLexeme position text slices stop rest ∧
    List.Forall₂ IsTokenAt slices tokens

/-- The tokens that a text is sliced into up to its end, however many they are. -/
def Spans (text : String) (tokens : List Placed) : Prop :=
  ∃ stop, Tokenized 0 text.toList tokens stop []

/-- The tokens of a text up to its end, or up to what is no token in it, however many they are. -/
def Yields (text : String) (tokens : List Placed) : Prop :=
  ∃ stop rest, Tokenized 0 text.toList tokens stop rest ∧
    (rest = [] ∨ ∃ fault, Obstacle tokens.length stop rest fault ∧ fault.IsLexical)

variable {position stop : Nat} {text rest : List Char} {tokens : List Placed}

theorem Tokenized.append (h : Tokenized position text tokens stop rest) {behind : List Char}
    (hbehind : behind = [] ∨ behind.head? = some ' ') :
    Tokenized position (text ++ behind) tokens stop (rest ++ behind) := by
  obtain ⟨slices, hsliced, htokens⟩ := h
  exact ⟨slices, hsliced.append solid_isLexeme hbehind, htokens⟩

theorem Tokenized.moved (h : Tokenized position text tokens stop rest) (shift : Nat) :
    Tokenized (shift + position) text (Token.moved shift tokens) (shift + stop) rest := by
  obtain ⟨slices, hsliced, htokens⟩ := h
  refine ⟨_, hsliced.moved shift, ?_⟩
  rw [Token.moved, List.forall₂_map_left_iff, List.forall₂_map_right_iff]
  exact htokens.imp fun slice placed hplaced => ⟨hplaced.1, congrArg (shift + ·) hplaced.2⟩

theorem Tokenized.space {more : List Char} {tokens' : List Placed} {stop' : Nat}
    (h : Tokenized 0 text tokens stop []) (hmore : Tokenized 0 more tokens' stop' rest) :
    Tokenized 0 (text ++ ' ' :: more)
      (tokens ++ Token.moved (Text.utf8Length text + 1) tokens')
      (Text.utf8Length text + 1 + stop') rest := by
  have hfront : Tokenized 0 (text ++ ' ' :: more) tokens stop (' ' :: more) := h.append (.inr rfl)
  obtain ⟨slices, hsliced, htokens⟩ := hfront
  obtain ⟨slices', hsliced', htokens'⟩ := hmore.moved (Text.utf8Length text + 1)
  have hstop : stop = Text.utf8Length text := by
    obtain ⟨_, hwhole, -⟩ := h
    rw [hwhole.stop_eq, Nat.zero_add]
  subst hstop
  exact ⟨slices ++ slices', hsliced.trans (.blank rfl hsliced'), List.rel_append htokens htokens'⟩

theorem Spans.scan_eq_ok {text : String} (h : Spans text tokens)
    (room : tokens.length ≤ maxTokens) : Token.scan text = .ok tokens := by
  obtain ⟨stop, slices, hsliced, htokens⟩ := h
  exact Token.scan_of_sliced hsliced htokens room

theorem spans_of_scan_eq_ok {text : String} (h : Token.scan text = .ok tokens) :
    Spans text tokens := by
  obtain ⟨slices, stop, hsliced, htokens, -⟩ := Token.scan_eq_ok_iff.mp h
  exact ⟨stop, slices, hsliced, htokens⟩

/-- Every text has tokens, up to its end or up to what is none. -/
theorem exists_yields (text : String) : ∃ tokens, Yields text tokens := by
  let Admitted (slices : List (String × Nat)) : Prop :=
    ∃ tokens, List.Forall₂ IsTokenAt slices tokens
  obtain ⟨slices, stop, rest, hsliced, ⟨tokens, htokens⟩, hend⟩ :=
    solid_isLexeme.exists_sliced Admitted ⟨[], .nil⟩ text.toList
  refine ⟨tokens, stop, rest, ⟨slices, hsliced, htokens⟩, hend.imp id fun halts => ?_⟩
  cases halts with
  | unmatched hblank hnone => exact ⟨_, .unmatched hblank hnone, trivial⟩
  | @refused slice behind hlongest refused =>
    rcases hlongest.lexeme.exists_isToken with ⟨token, htoken⟩ | ⟨numeral, infinite⟩
    · exact absurd ⟨tokens ++ [(token, stop)],
        List.rel_append htokens (.cons ⟨htoken, rfl⟩ .nil)⟩ refused
    · exact ⟨_, .tooLarge hlongest numeral infinite, trivial⟩

/-! ## Joined texts -/

/-- The tokens of texts in a row, each list moved by the bytes in front of its text. -/
def Token.row (texts : List String) (tokens : List (List Placed)) : List Placed :=
  (List.zipWith (fun before ts => moved (Text.utf8Length (spaced before)) ts) texts.inits
    tokens).flatten

theorem Token.moved_zero (tokens : List Placed) : moved 0 tokens = tokens := by
  simp [moved]

theorem Token.moved_moved (shift shift' : Nat) (tokens : List Placed) :
    moved shift (moved shift' tokens) = moved (shift + shift') tokens := by
  simp [moved, Nat.add_assoc]

theorem Token.moved_flatten (shift : Nat) (tokens : List (List Placed)) :
    moved shift tokens.flatten = (tokens.map (moved shift)).flatten := by
  rw [moved, List.map_flatten]
  rfl

theorem Token.row_cons (text : String) (texts : List String) (ts : List Placed)
    (tokens : List (List Placed)) :
    row (text :: texts) (ts :: tokens) =
      ts ++ moved (Text.utf8Length text.toList + 1) (row texts tokens) := by
  have hspaced : ∀ before, Text.utf8Length (spaced (text :: before)) =
      Text.utf8Length text.toList + 1 + Text.utf8Length (spaced before) := by
    intro before
    rw [Text.spaced_cons, Text.utf8Length_append, Text.utf8Length_cons, ← Nat.add_assoc]
    rfl
  rw [row, row, moved_flatten, List.map_zipWith]
  simp only [List.inits_cons, List.zipWith_cons_cons, List.zipWith_map_left, List.flatten_cons,
    Text.spaced_nil, Text.utf8Length_nil, moved_zero, hspaced, moved_moved]

/-- Texts that are sliced up to their ends are sliced up to the last one's when they are joined. -/
theorem spans_intercalate {texts : List String} {tokens : List (List Placed)}
    (h : List.Forall₂ Spans texts tokens) :
    Spans (" ".intercalate texts) (Token.row texts tokens) := by
  induction h with
  | nil => exact ⟨0, [], .done, .nil⟩
  | @cons text ts texts tokens hspans hmore ih =>
    obtain ⟨stop, htext⟩ := hspans
    obtain ⟨stop', htexts⟩ := ih
    unfold Spans
    rw [Token.row_cons]
    cases texts with
    | nil =>
      cases hmore
      exact ⟨stop, by simpa [Token.row, Token.moved] using htext⟩
    | cons next texts =>
      rw [Text.toList_intercalate_cons_cons]
      exact ⟨_, htext.space htexts⟩

/-- Behind texts that are sliced up to their ends, more is sliced as on its own. -/
theorem exists_tokenized_spaced {before : List String} {tokens : List (List Placed)}
    (h : List.Forall₂ Spans before tokens) {text rest : List Char} {ts : List Placed} {stop : Nat}
    (htext : Tokenized 0 text ts stop rest) :
    ∃ us, us.length = tokens.flatten.length + ts.length ∧
      Tokenized 0 (spaced before ++ text) us (Text.utf8Length (spaced before) + stop) rest := by
  induction h with
  | nil => exact ⟨ts, by simp, by simpa using htext⟩
  | @cons first front before tokens hspans _ ih =>
    obtain ⟨stop', hfirst⟩ := hspans
    obtain ⟨us, hlength, hus⟩ := ih
    refine ⟨front ++ Token.moved (Text.utf8Length first.toList + 1) us, ?_, ?_⟩
    · rw [List.length_append, Token.length_moved, List.flatten_cons, List.length_append]
      omega
    · rw [Text.spaced_cons, List.append_assoc, List.cons_append, Text.utf8Length_append,
        Text.utf8Length_cons, Nat.add_assoc, Nat.add_assoc]
      have hspace := hfirst.space hus
      rwa [Nat.add_assoc] at hspace

/-- The tokens in front of a lexical fault are all tokens of a text, if it has no such fault. -/
theorem Yields.spans {text : String} {ts : List Placed} (h : Yields text ts)
    (room : ts.length ≤ maxTokens)
    (free : ∀ fault, Token.scan text = .error fault → ¬ fault.IsLexical) : Spans text ts := by
  obtain ⟨stop, rest, ⟨slices, hsliced, htokens⟩, rfl | ⟨fault, obstacle, lexical⟩⟩ := h
  · exact ⟨stop, slices, hsliced, htokens⟩
  · have hscan := Token.scan_of_obstacle hsliced htokens room obstacle
    exact absurd lexical (free fault hscan)

theorem Yields.exists_obstacle {text : String} {ts : List Placed} {fault : Fault}
    (h : Yields text ts) (room : ts.length ≤ maxTokens)
    (hscan : Token.scan text = .error fault) :
    ∃ stop rest, Tokenized 0 text.toList ts stop rest ∧ Obstacle ts.length stop rest fault := by
  obtain ⟨stop, rest, ⟨slices, hsliced, htokens⟩, rfl | ⟨cause, obstacle, -⟩⟩ := h
  · rw [Token.scan_of_sliced hsliced htokens room] at hscan
    cases hscan
  · rw [Token.scan_of_obstacle hsliced htokens room obstacle] at hscan
    cases hscan
    exact ⟨stop, rest, ⟨slices, hsliced, htokens⟩, obstacle⟩

theorem Token.length_row {texts : List String} {tokens : List (List Placed)}
    (h : texts.length = tokens.length) : (row texts tokens).length = tokens.flatten.length := by
  induction texts generalizing tokens with
  | nil =>
    have hnone : tokens = [] := List.length_eq_zero_iff.mp h.symm
    rw [hnone]
    rfl
  | cons text texts ih =>
    obtain ⟨ts, tokens, rfl⟩ := List.exists_cons_of_length_eq_add_one h.symm
    rw [row_cons, List.length_append, length_moved, ih (by simpa using h), List.flatten_cons,
      List.length_append]

/--
A text that is joined to others stands behind those in front of it, with a space behind each. Texts
that scan have their tokens in a row, each list moved by the bytes in front of its text, unless that
makes too many. Of texts that have something in them that is no token, the first one fails the whole
with its own fault, moved likewise, as long as there are not too many tokens in front of it; every
text has tokens in front of what is none.
-/
theorem Token.scan_joined :
    (∀ (before : List String) (text : String) (after : List String),
      spaced before ++ text.toList <+: (" ".intercalate (before ++ text :: after)).toList) ∧
    (∀ (texts : List String) (tokens : List (List Placed)),
      List.Forall₂ (fun text ts => scan text = .ok ts) texts tokens →
      tokens.flatten.length ≤ maxTokens →
      scan (" ".intercalate texts) = .ok (row texts tokens)) ∧
    (∀ text, ∃ tokens, Yields text tokens) ∧
    ∀ (before : List String) (text : String) (after : List String) (fault : Fault)
      (tokens : List (List Placed)) (ts : List Placed),
      (∀ earlier ∈ before, ∀ cause, scan earlier = .error cause → ¬ cause.IsLexical) →
      scan text = .error fault → fault.IsLexical →
      List.Forall₂ Yields before tokens → Yields text ts →
      tokens.flatten.length + ts.length ≤ maxTokens →
      scan (" ".intercalate (before ++ text :: after)) =
        .error (fault.moved (Text.utf8Length (spaced before))) := by
  refine ⟨fun before text after => ?_, fun texts tokens h room => ?_, exists_yields, ?_⟩
  · obtain ⟨behind, hjoined, -⟩ := Text.exists_toList_intercalate_cons text after
    rw [Text.toList_intercalate_append, hjoined, ← List.append_assoc]
    exact List.prefix_append _ behind
  · have hspans := spans_intercalate (h.imp fun text ts => spans_of_scan_eq_ok)
    exact hspans.scan_eq_ok (by rwa [length_row h.length_eq])
  · intro before text after fault tokens ts free hscan lexical hbefore htext room
    have hspans : List.Forall₂ Spans before tokens := by
      refine List.forall₂_iff_zip.mpr ⟨hbefore.length_eq, fun {earlier us} mem => ?_⟩
      have hyields := (List.forall₂_iff_zip.mp hbefore).2 mem
      have hlength := (List.sublist_flatten_of_mem (List.of_mem_zip mem).2).length_le
      exact hyields.spans (by omega) (free earlier (List.of_mem_zip mem).1)
    obtain ⟨stop, rest, htokenized, obstacle⟩ := htext.exists_obstacle (by omega) hscan
    obtain ⟨behind, hjoined, hbehind⟩ := Text.exists_toList_intercalate_cons text after
    obtain ⟨us, hlength, slices, hsliced, htokens⟩ :=
      exists_tokenized_spaced hspans (htokenized.append hbehind)
    rw [← hjoined, ← Text.toList_intercalate_append] at hsliced
    exact scan_of_obstacle hsliced htokens (by omega)
      (obstacle.moved lexical hbehind us.length _)

theorem Token.stars_scan_joined :
    Token.scan "2*" = .ok [(.number 2, 0), (.star, 1)] ∧
      Token.scan "* 3" = .ok [(.star, 0), (.number 3, 2)] ∧
      Token.scan "é 4" = .error (.unexpectedCharacter "é" 0) ∧
      Token.scan (" ".intercalate ["2*", "* 3"]) =
        .ok [(.number 2, 0), (.star, 1), (.star, 3), (.number 3, 5)] ∧
      Token.scan (" ".intercalate ["2*", "é 4", ")"]) = .error (.unexpectedCharacter "é" 3) := by
  have hfirst : Token.scan "2*" = .ok [(.number 2, 0), (.star, 1)] := by decide +kernel
  have hsecond : Token.scan "* 3" = .ok [(.star, 0), (.number 3, 2)] := by decide +kernel
  have hletter : Token.scan "é 4" = .error (.unexpectedCharacter "é" 0) := by decide +kernel
  have yieldsFirst : Yields "2*" [(.number 2, 0), (.star, 1)] := by
    obtain ⟨stop, htokenized⟩ := spans_of_scan_eq_ok hfirst
    exact ⟨stop, [], htokenized, .inl rfl⟩
  have unmatched : Unmatched IsLexeme "é 4".toList := by
    rintro slice ⟨rest, hslice⟩ (numeral | ⟨token, symbol⟩)
    · have hlength := numeral.length_le rest
      rw [hslice, show numeralLength "é 4".toList = 0 by decide] at hlength
      exact numeral.ne_nil (List.length_eq_zero_iff.mp (Nat.le_zero.mp hlength))
    · have hall : ∀ entry ∈ Token.symbols, ¬ entry.1 <+: "é 4".toList := by decide
      exact hall _ symbol ⟨rest, hslice⟩
  have yieldsNone : Yields "é 4" [] :=
    ⟨0, _, ⟨[], .done, .nil⟩, .inr ⟨_, .unmatched (by decide) unmatched, trivial⟩⟩
  refine ⟨hfirst, hsecond, hletter, ?_, ?_⟩
  · exact Token.scan_joined.2.1 ["2*", "* 3"] _ (.cons hfirst (.cons hsecond .nil)) (by decide)
  · exact Token.scan_joined.2.2.2 ["2*"] "é 4" [")"] _ [[(.number 2, 0), (.star, 1)]] []
      (by simp [hfirst]) hletter trivial (.cons yieldsFirst .nil) yieldsNone (by decide)

end Formula

end Comparand
