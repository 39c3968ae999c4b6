import Comparand.Formula.Expr.OfTokens
import Comparand.Proofs.Scanning
import Comparand.TokenTree.OfText

/-!
# Plain texts

A plain text holds no blank, no operator and no parenthesis, apart from the sign of an exponent. All
that a scan can find in it are numerals, and since no expression has two numbers in a row, only a
text that is a single numeral can be part of one.
-/
namespace Comparand.Formula

/--
Whether a text has a blank, an operator or a parenthesis only as sign behind an exponent marker.
-/
def plainFrom (marked : Bool) : List Char → Bool
  | [] => true
  | c :: rest =>
    (!TokenTree.endsWord c || (marked && (c = '+' || c = '-'))) &&
      plainFrom (c = 'e' || c = 'E') rest

/-- A text without the minus sign in front. -/
def unsignedPart : List Char → List Char
  | '-' :: rest => rest
  | text => text

/-- A numeral with at most one minus sign in front. -/
def IsLiteral (text : List Char) : Prop := IsNumeral (unsignedPart text)

/-- A text of at least one character, plain behind at most one minus sign. -/
def IsPlain (text : List Char) : Prop := text ≠ [] ∧ plainFrom false (unsignedPart text)

/-! ## Numerals are plain -/

theorem endsWord_of_isDigit {c : Char} (h : c.isDigit) : TokenTree.endsWord c = false := by
  simp only [TokenTree.endsWord, Text.isBlank, Bool.or_eq_false_iff, decide_eq_false_iff_not]
  refine ⟨⟨⟨⟨⟨⟨⟨⟨⟨⟨⟨?_, ?_⟩, ?_⟩, ?_⟩, ?_⟩, ?_⟩, ?_⟩, ?_⟩, ?_⟩, ?_⟩, ?_⟩, ?_⟩ <;>
    (rintro rfl; cases h)

theorem plainFrom_digit {c : Char} (h : c.isDigit) (marked : Bool) (rest : List Char) :
    plainFrom marked (c :: rest) = plainFrom false rest := by
  have he : c ≠ 'e' := by rintro rfl; cases h
  have hE : c ≠ 'E' := by rintro rfl; cases h
  simp [plainFrom, endsWord_of_isDigit h, he, hE]

theorem plainFrom_digits {digits : List Char} (h : AllDigits digits) (rest : List Char) :
    plainFrom false (digits ++ rest) = plainFrom false rest := by
  induction digits with
  | nil => rfl
  | cons c digits ih =>
    rw [List.cons_append, plainFrom_digit (h c (by simp))]
    exact ih fun d hd => h d (List.mem_cons_of_mem c hd)

theorem IsExponent.plainFrom_append {exponent : List Char} (h : IsExponent exponent)
    (rest : List Char) : plainFrom false (exponent ++ rest) = plainFrom false rest := by
  cases h with
  | absent => rfl
  | @marked marker sign digits hmarker hsign some_digits hdigits =>
    have hmarked : plainFrom false (marker :: (sign ++ digits) ++ rest) =
        plainFrom true (sign ++ digits ++ rest) := by
      rcases hmarker with rfl | rfl <;> rfl
    obtain ⟨c, cs, rfl⟩ := List.exists_cons_of_ne_nil some_digits
    have hrun : plainFrom false (c :: cs ++ rest) = plainFrom false rest :=
      plainFrom_digits hdigits rest
    have hc : c.isDigit := hdigits c (by simp)
    rw [hmarked, ← hrun]
    rcases hsign with rfl | rfl | rfl
    · exact (plainFrom_digit hc true _).trans (plainFrom_digit hc false _).symm
    · rfl
    · rfl

theorem IsNumeral.plainFrom_append {numeral : List Char} (h : IsNumeral numeral)
    (rest : List Char) : plainFrom false (numeral ++ rest) = plainFrom false rest := by
  obtain ⟨mantissa, exponent, hm, he, rfl⟩ := h
  rw [List.append_assoc]
  cases hm with
  | whole _ hdigits => rw [plainFrom_digits hdigits, he.plainFrom_append]
  | @pointed digits fraction _ hdigits hfraction =>
    have hpoint : plainFrom false ('.' :: fraction ++ (exponent ++ rest)) =
        plainFrom false (fraction ++ (exponent ++ rest)) := rfl
    rw [List.append_assoc, plainFrom_digits hdigits, hpoint, plainFrom_digits hfraction,
      he.plainFrom_append]

theorem IsNumeral.ne_nil {numeral : List Char} (h : IsNumeral numeral) : numeral ≠ [] := by
  obtain ⟨mantissa, exponent, hm, he, rfl⟩ := h
  cases hm with
  | whole some_digits => simp [some_digits]
  | pointed => simp

theorem IsLiteral.isPlain {text : List Char} (h : IsLiteral text) : IsPlain text := by
  refine ⟨?_, ?_⟩
  · rintro rfl
    exact IsNumeral.ne_nil h rfl
  · have hplain := IsNumeral.plainFrom_append h []
    rw [List.append_nil] at hplain
    exact hplain.trans rfl

/-- A plain text has none of the characters that end a word, apart from signs. -/
theorem not_mem_of_plainFrom {marked : Bool} {text : List Char} (h : plainFrom marked text)
    {d : Char} (ends : TokenTree.endsWord d) (unsigned : d ≠ '+' ∧ d ≠ '-') : d ∉ text := by
  induction text generalizing marked with
  | nil => simp
  | cons c text ih =>
    simp only [plainFrom, Bool.and_eq_true] at h
    intro hm
    rcases List.mem_cons.mp hm with rfl | hm
    · simp [ends, unsigned] at h
    · exact ih h.2 hm

theorem caret_not_mem_of_plainFrom {marked : Bool} {text : List Char}
    (h : plainFrom marked text) : '^' ∉ text :=
  not_mem_of_plainFrom h (by decide) (by decide)

theorem IsNumeral.not_mem {numeral : List Char} (h : IsNumeral numeral) {d : Char}
    (ends : TokenTree.endsWord d) (unsigned : d ≠ '+' ∧ d ≠ '-') : d ∉ numeral := by
  have hplain := h.plainFrom_append []
  rw [List.append_nil] at hplain
  exact not_mem_of_plainFrom (hplain.trans rfl) ends unsigned

/-! ## What a scan finds -/

theorem endsWord_of_symbol? {c : Char} {rest : List Char} {found : Token × Nat}
    (h : Token.symbol? (c :: rest) = some found) : TokenTree.endsWord c := by
  unfold Token.symbol? at h
  split at h <;> simp_all [TokenTree.endsWord]

theorem plainFrom_cons {c : Char} {rest : List Char} (h : plainFrom false (c :: rest)) :
    TokenTree.endsWord c = false := by
  simp only [plainFrom, Bool.false_and, Bool.or_false, Bool.and_eq_true, Bool.not_eq_true'] at h
  exact h.1

theorem number_of_plainFrom {text : List Char} {found position : Nat} {tokens : List Placed}
    (plain : plainFrom false text) (some_text : text ≠ [])
    (h : Token.scanFrom found position 0 text = .ok tokens) :
    ∃ value rest found' position', tokens = (.number value, position) :: rest ∧
      0 < numeralLength text ∧
      Token.scanFrom found' position' 0 (text.drop (numeralLength text)) = .ok rest := by
  obtain ⟨c, cs, rfl⟩ := List.exists_cons_of_ne_nil some_text
  have hends := plainFrom_cons plain
  have hblank : ¬ Text.isBlank c := by
    intro hb
    simp [TokenTree.endsWord, hb] at hends
  cases hhead : Token.head c cs position with
  | error fault =>
    rw [Token.scanFrom_of_head_error hblank hhead] at h
    cases h
  | ok cut =>
    obtain ⟨token, length⟩ := cut
    obtain ⟨rest, hrest, rfl⟩ := Token.scanFrom_eq_ok_of_head hblank hhead h
    simp only [Token.head] at hhead
    split at hhead
    · split at hhead
      · rename_i hsymbol
        rw [endsWord_of_symbol? hsymbol] at hends
        cases hends
      · cases hhead
    · rename_i some_length
      obtain ⟨shorter, hshorter⟩ := Nat.exists_eq_succ_of_ne_zero some_length
      split at hhead
      · split at hhead
        · cases hhead
          rw [Token.scanFrom_skip, hshorter] at hrest
          rw [hshorter]
          exact ⟨_, rest, _, _, rfl, Nat.succ_pos shorter, hrest⟩
        · cases hhead
      · cases hhead

/-- The tokens of a plain text begin with two numbers, unless the text is a single numeral. -/
theorem numbers_of_plainFrom {text : List Char} {found position : Nat} {tokens : List Placed}
    (plain : plainFrom false text) (some_text : text ≠ [])
    (h : Token.scanFrom found position 0 text = .ok tokens) :
    IsNumeral text ∨ ∃ v p w q rest, tokens = (.number v, p) :: (.number w, q) :: rest := by
  obtain ⟨v, rest, found', position', rfl, hlength, hrest⟩ :=
    number_of_plainFrom plain some_text h
  have hnumeral := isNumeral_take hlength
  by_cases hdrop : text.drop (numeralLength text) = []
  · left
    rwa [List.take_of_length_le (List.drop_eq_nil_iff.mp hdrop)] at hnumeral
  · right
    rw [← List.take_append_drop (numeralLength text) text, hnumeral.plainFrom_append] at plain
    obtain ⟨w, rest', _, _, rfl, -, -⟩ := number_of_plainFrom plain hdrop hrest
    exact ⟨v, position, w, position', rest', rfl⟩

/-! ## What an expression cannot hold -/

/-- Two neighbours in a list of tokens are read one after the other. -/
theorem State.steps_of_ofTokens {ts us : List Placed} {x y : Placed} {e : Expr}
    (h : Expr.ofTokens (ts ++ x :: y :: us) = .ok e) :
    ∃ s s' s'', State.step s x = .ok s' ∧ State.step s' y = .ok s'' := by
  obtain ⟨_, hrun, -⟩ := bind_eq_ok_iff.mp h
  rw [List.foldlM_append] at hrun
  obtain ⟨s, -, hrun⟩ := bind_eq_ok_iff.mp hrun
  rw [List.foldlM_cons] at hrun
  obtain ⟨s', hx, hrun⟩ := bind_eq_ok_iff.mp hrun
  rw [List.foldlM_cons] at hrun
  obtain ⟨s'', hy, -⟩ := bind_eq_ok_iff.mp hrun
  exact ⟨s, s', s'', hx, hy⟩

theorem not_numbers_of_ofTokens {ts us : List Placed} {v w : Float} {p q : Nat} {e : Expr} :
    Expr.ofTokens (ts ++ (.number v, p) :: (.number w, q) :: us) ≠ .ok e := by
  intro h
  obtain ⟨s, s', s'', hx, hy⟩ := State.steps_of_ofTokens h
  cases s with
  | wanting stack => cases hx; cases hy
  | having operand stack => cases hx

theorem not_minus_closing_of_ofTokens {ts us : List Placed} {p q : Nat} {e : Expr} :
    Expr.ofTokens (ts ++ (.minus, p) :: (.closing, q) :: us) ≠ .ok e := by
  intro h
  obtain ⟨s, s', s'', hx, hy⟩ := State.steps_of_ofTokens h
  cases s with
  | wanting stack => cases hx; cases hy
  | having operand stack => cases hx; cases hy

end Comparand.Formula
