import Comparand.Proofs.Environment
import Comparand.Proofs.Grammar

/-!
# Cuts of a text

A source text and the formula that it becomes once `**` is written for `^` are cut by two scans of
their own. Both cut off the same pieces, as long as no star stands next to another one, which it
never does in an expression: `*^` would be cut as `*` and `^` in the one and as `**` and `*` in the
other. `Cuts` says what the pieces are and which tokens they write, without either scan.
-/
namespace Comparand
namespace Formula
open Arithmetic (spelled spelled_cons spelled_append spelled_eq_self)

/-- The symbols of one character that both scans cut off wherever they stand. -/
def sign? : Char → Option Token
  | '+' => some .plus
  | '-' => some .minus
  | '/' => some .slash
  | '(' => some .opening
  | ')' => some .closing
  | _ => none

/-- The length of the piece that a text begins with, and the token that it writes. -/
inductive Begins : List Char → Nat → Token → Prop
  | numeral {text : List Char} {value : Float} : 0 < numeralLength text →
      Decimal.read? (text.take (numeralLength text)) = some value → value.isFinite →
      Begins text (numeralLength text) (.number value)
  | sign {c : Char} {rest : List Char} {token : Token} : sign? c = some token →
      Begins (c :: rest) 1 token
  | star {rest : List Char} : rest.head? ≠ some '*' → rest.head? ≠ some '^' →
      Begins ('*' :: rest) 1 .star
  | power {rest : List Char} : Begins ('*' :: '*' :: rest) 2 .doubleStar
  | caret {rest : List Char} : Begins ('^' :: rest) 1 .doubleStar

/-- The pieces of a text, and the tokens that they write. -/
inductive Cuts : List Char → List String → List Token → Prop
  | nil : Cuts [] [] []
  | blank {c : Char} {rest : List Char} {pieces : List String} {tokens : List Token} :
      Text.isBlank c → Cuts rest pieces tokens → Cuts (c :: rest) pieces tokens
  | piece {text : List Char} {length : Nat} {token : Token} {pieces : List String}
      {tokens : List Token} : Begins text length token → Cuts (text.drop length) pieces tokens →
      Cuts text (String.ofList (text.take length) :: pieces) (token :: tokens)

theorem sign?_eq_some {c : Char} {token : Token} (h : sign? c = some token) :
    c ≠ '*' ∧ c ≠ '^' ∧ ¬ Text.isBlank c ∧ c.isDigit = false ∧ c ≠ '.' ∧
      Token.symbol? [c] = some (token, 1) := by
  unfold sign? at h
  split at h <;> cases h <;> decide

theorem not_isBlank_of_numeralLength {c : Char} {rest : List Char}
    (found : 0 < numeralLength (c :: rest)) : ¬ Text.isBlank c := by
  have hnumeral := isNumeral_take found
  obtain ⟨shorter, hshorter⟩ := Nat.exists_eq_succ_of_ne_zero found.ne'
  rw [hshorter, List.take_succ_cons] at hnumeral
  exact Arithmetic.not_isBlank_of_beginsNumerically
    (Arithmetic.beginsNumerically_of_isNumeral hnumeral)

theorem Begins.exists_cons {text : List Char} {length : Nat} {token : Token}
    (h : Begins text length token) :
    0 < length ∧ ∃ c rest, text = c :: rest ∧ ¬ Text.isBlank c := by
  cases h with
  | numeral found =>
    cases text with
    | nil => cases found
    | cons c rest => exact ⟨found, c, rest, rfl, not_isBlank_of_numeralLength found⟩
  | sign hsign => exact ⟨Nat.one_pos, _, _, rfl, (sign?_eq_some hsign).2.2.1⟩
  | star | caret => exact ⟨Nat.one_pos, _, _, rfl, by decide⟩
  | power => exact ⟨Nat.two_pos, _, _, rfl, by decide⟩

/-! ## Numerals in spelled texts -/

theorem spelled_numeral (text : List Char) :
    numeralLength (spelled text) = numeralLength text ∧
      (spelled text).take (numeralLength text) = text.take (numeralLength text) ∧
      (spelled text).drop (numeralLength text) = spelled (text.drop (numeralLength text)) := by
  by_cases hcaret : '^' ∈ text
  · obtain ⟨front, rest, rfl, hfront⟩ := List.eq_append_cons_of_mem hcaret
    have hspelled : spelled (front ++ '^' :: rest) = front ++ '*' :: '*' :: spelled rest := by
      rw [spelled_append, spelled_eq_self hfront]
      rfl
    have hdrop : spelled (front.drop (numeralLength front)) = front.drop (numeralLength front) :=
      spelled_eq_self fun h => hfront (List.mem_of_mem_drop h)
    have hlength : numeralLength (front ++ '^' :: rest) = numeralLength front :=
      numeralLength_append_of_endsNumeral (.inr (.inr (.inr rfl))) front rest
    have hle := numeralLength_le front
    rw [hlength, hspelled, numeralLength_append_of_endsNumeral (.inr (.inr (.inl rfl))),
      List.take_append_of_le_length hle, List.take_append_of_le_length hle,
      List.drop_append_of_le_length hle, List.drop_append_of_le_length hle, spelled_append, hdrop]
    exact ⟨rfl, rfl, rfl⟩
  · rw [spelled_eq_self hcaret, spelled_eq_self fun h => hcaret (List.mem_of_mem_drop h)]
    exact ⟨rfl, rfl, rfl⟩

/-! ## The cuts of a formula -/

theorem head_star {rest : List Char} (next : rest.head? ≠ some '*') (position : Nat) :
    Token.head '*' rest position = .ok (.star, 1) := by
  cases rest with
  | nil => rfl
  | cons c rest =>
    have hc : c ≠ '*' := by simpa using next
    have hlength : numeralLength ('*' :: c :: rest) = 0 :=
      Token.numeralLength_eq_zero rfl (by decide) (c :: rest)
    simp only [Token.head, hlength, if_true, Token.symbol?_star_of_ne hc]

theorem Begins.head {text : List Char} {length : Nat} {token : Token}
    (h : Begins text length token) :
    ∃ c rest shorter, spelled text = c :: rest ∧ ¬ Text.isBlank c ∧
      (∀ position, Token.head c rest position = .ok (token, shorter + 1)) ∧
      rest.drop shorter = spelled (text.drop length) := by
  cases h with
  | @numeral _ value found hread finite =>
    obtain ⟨hlength, htake, hdrop⟩ := spelled_numeral text
    cases hcons : spelled text with
    | nil =>
      rw [hcons] at hlength
      rw [← hlength] at found
      cases found
    | cons c rest =>
      rw [hcons] at hlength htake hdrop
      obtain ⟨shorter, hshorter⟩ := Nat.exists_eq_succ_of_ne_zero found.ne'
      refine ⟨c, rest, shorter, rfl, not_isBlank_of_numeralLength (hlength ▸ found), ?_, ?_⟩
      · intro position
        simp only [Token.head, hlength, htake, hread, if_pos finite, if_neg found.ne']
        rw [hshorter]
      · rw [hshorter, List.drop_succ_cons] at hdrop
        rw [hdrop, hshorter]
  | @sign c rest token hsign =>
    obtain ⟨hstar, hcaret, hblank, -, -, hsymbol⟩ := sign?_eq_some hsign
    refine ⟨c, spelled rest, 0, ?_, hblank, Token.head_of_symbol? hsymbol hstar _, rfl⟩
    rw [spelled_cons, if_neg hcaret]
    rfl
  | @star rest hstar hcaret =>
    refine ⟨'*', spelled rest, 0, rfl, by decide, fun position => ?_, rfl⟩
    refine head_star ?_ position
    cases rest with
    | nil => simp
    | cons c rest =>
      have hc : c ≠ '^' := by simpa using hcaret
      rw [spelled_cons, if_neg hc]
      exact hstar
  | power => exact ⟨_, _, 1, rfl, by decide, fun _ => rfl, rfl⟩
  | caret => exact ⟨_, _, 1, rfl, by decide, fun _ => rfl, rfl⟩

/-- The tokens of a formula are those that the pieces of its source text write. -/
theorem Cuts.scanFrom {text : List Char} {pieces : List String} {tokens : List Token}
    (h : Cuts text pieces tokens) {found : Nat} (room : found + tokens.length ≤ maxTokens)
    (position : Nat) :
    ∃ us, Token.scanFrom found position 0 (spelled text) = .ok us ∧ us.map Prod.fst = tokens := by
  induction h generalizing found position with
  | nil => exact ⟨[], rfl, rfl⟩
  | @blank c rest pieces tokens hc _ ih =>
    have hcaret : c ≠ '^' := by
      rintro rfl
      cases hc
    obtain ⟨us, hus, hmap⟩ := ih room (position + c.utf8Size)
    refine ⟨us, ?_, hmap⟩
    rw [spelled_cons, if_neg hcaret, List.singleton_append, Token.scanFrom_of_isBlank hc, hus]
  | @piece text length token pieces tokens hbegins _ ih =>
    obtain ⟨c, rest, shorter, hspelled, hblank, hhead, hdrop⟩ := hbegins.head
    rw [List.length_cons] at room
    have room' : found + 1 + tokens.length ≤ maxTokens := by omega
    obtain ⟨us, hus, hmap⟩ :=
      ih room' (position + c.utf8Size + Text.utf8Length (rest.take shorter))
    refine ⟨(token, position) :: us, ?_, by rw [List.map_cons, hmap]⟩
    rw [hspelled, Token.scanFrom_of_head hblank (hhead position), if_neg (by omega),
      Token.scanFrom_skip, Nat.add_sub_cancel, hdrop, hus]
    rfl

/-! ## Stars -/

def Token.isStar : Token → Bool
  | .star | .doubleStar => true
  | _ => false

def StarsApart (tokens : List Token) : Prop :=
  tokens.IsChain fun token next => ¬ (token.isStar ∧ next.isStar)

theorem State.step_of_isStar {s s' : State} {token : Token} {position : Nat}
    (star : token.isStar) (h : s.step (token, position) = .ok s') :
    (∃ operand stack, s = .having operand stack) ∧ ∃ stack, s' = .wanting stack := by
  cases s with
  | wanting stack =>
    cases token with
    | star | doubleStar => cases h
    | number | plus | minus | slash | opening | closing | blank => cases star
  | having operand stack =>
    refine ⟨⟨operand, stack, rfl⟩, ?_⟩
    cases token with
    | star | doubleStar =>
      cases h
      exact ⟨_, rfl⟩
    | number | plus | minus | slash | opening | closing | blank => cases star

theorem starsApart_of_foldlM {tokens : List Placed} {s s' : State}
    (h : tokens.foldlM State.step s = .ok s') : StarsApart (tokens.map Prod.fst) := by
  induction tokens generalizing s with
  | nil => exact .nil
  | cons x tokens ih =>
    obtain ⟨next, hx, hrest⟩ := bind_eq_ok_iff.mp ((List.foldlM_cons ..).symm.trans h)
    cases tokens with
    | nil => exact .singleton _
    | cons y tokens =>
      refine List.isChain_cons_cons.mpr ⟨?_, ih hrest⟩
      obtain ⟨_, hy, -⟩ := bind_eq_ok_iff.mp ((List.foldlM_cons ..).symm.trans hrest)
      rintro ⟨star, star'⟩
      obtain ⟨-, stack, rfl⟩ := State.step_of_isStar star hx
      obtain ⟨⟨operand, stack', hhaving⟩, -⟩ := State.step_of_isStar star' hy
      cases hhaving

/-! ## The pieces of a scanned formula -/

theorem exists_begins {c : Char} {rest : List Char}
    (h : c = '^' ∨ (Token.symbol? [c]).isSome) :
    (∃ length token, Begins (c :: rest) length token) ∨
      ∃ behind, c :: rest = '*' :: '^' :: behind := by
  by_cases hcaret : c = '^'
  · exact .inl ⟨1, .doubleStar, hcaret ▸ .caret⟩
  · by_cases hstar : c = '*'
    · subst hstar
      cases rest with
      | nil => exact .inl ⟨1, .star, .star (by simp) (by simp)⟩
      | cons d rest =>
        by_cases hd : d = '*'
        · exact .inl ⟨2, .doubleStar, hd ▸ .power⟩
        · by_cases hd' : d = '^'
          · exact .inr ⟨rest, hd' ▸ rfl⟩
          · exact .inl ⟨1, .star, .star (by simpa using hd) (by simpa using hd')⟩
    · have hsign : (sign? c).isSome := by
        have hsymbol := h.resolve_left hcaret
        unfold Token.symbol? at hsymbol
        split at hsymbol <;> simp_all [sign?]
      obtain ⟨token, htoken⟩ := Option.isSome_iff_exists.mp hsign
      exact .inl ⟨1, token, .sign htoken⟩

theorem isSome_symbol? (c : Char) (rest : List Char) :
    (Token.symbol? (c :: rest)).isSome = (Token.symbol? [c]).isSome := by
  by_cases hstar : c = '*'
  · subst hstar
    cases rest with
    | nil => rfl
    | cons d rest =>
      by_cases hd : d = '*'
      · subst hd
        rfl
      · rw [Token.symbol?_star_of_ne hd]
        rfl
  · rw [Token.symbol?_cons_of_ne hstar]

theorem begins_of_head {text rest : List Char} {c : Char} {position length : Nat} {token : Token}
    (hspelled : spelled text = c :: rest)
    (hhead : Token.head c rest position = .ok (token, length)) :
    (∃ length token, Begins text length token) ∨ ∃ behind, text = '*' :: '^' :: behind := by
  obtain ⟨hlength, htake, -⟩ := spelled_numeral text
  rw [hspelled] at hlength htake
  simp only [Token.head, hlength, htake] at hhead
  split at hhead
  · cases text with
    | nil => cases hspelled
    | cons d text =>
      apply exists_begins
      by_cases hcaret : d = '^'
      · exact .inl hcaret
      · rw [spelled_cons, if_neg hcaret] at hspelled
        obtain rfl : d = c := (List.cons.inj hspelled).1
        split at hhead
        · rename_i hsymbol
          right
          rw [← isSome_symbol? d rest, hsymbol]
          rfl
        · cases hhead
  · rename_i found
    split at hhead
    · rename_i value hread
      split at hhead
      · rename_i finite
        exact .inl ⟨_, _, .numeral (Nat.pos_of_ne_zero found) hread finite⟩
      · cases hhead
    · cases hhead

theorem exists_head_star (rest : List Char) (position : Nat) :
    ∃ token length, Token.head '*' rest position = .ok (token, length) ∧ token.isStar := by
  by_cases hstar : rest.head? = some '*'
  · obtain ⟨_, rfl⟩ := List.head?_eq_some_iff.mp hstar
    exact ⟨_, _, rfl, rfl⟩
  · exact ⟨_, _, head_star hstar position, rfl⟩

/-- A caret behind a star makes two stars in a row. -/
theorem not_starsApart_of_scanFrom {behind : List Char} {found position : Nat}
    {tokens : List Placed}
    (h : Token.scanFrom found position 0 (spelled ('*' :: '^' :: behind)) = .ok tokens) :
    ¬ StarsApart (tokens.map Prod.fst) := by
  obtain ⟨us, hus, rfl⟩ := Token.scanFrom_eq_ok_of_head (c := '*') (by decide) rfl h
  rw [Token.scanFrom_skip] at hus
  obtain ⟨token, length, hhead, star⟩ := exists_head_star (spelled behind) _
  obtain ⟨vs, -, rfl⟩ := Token.scanFrom_eq_ok_of_head (by decide) hhead hus
  intro apart
  exact (List.isChain_cons_cons.mp apart).1 ⟨rfl, star⟩

/-- What scans as a formula has pieces, if no stars are neighbours in it. -/
theorem exists_cuts_of_scanFrom {text : List Char} {found position : Nat} {tokens : List Placed}
    (h : Token.scanFrom found position 0 (spelled text) = .ok tokens)
    (apart : StarsApart (tokens.map Prod.fst)) :
    ∃ pieces, Cuts text pieces (tokens.map Prod.fst) := by
  induction hn : text.length using Nat.strong_induction_on
    generalizing text found position tokens with
  | _ n ih =>
    subst hn
    cases text with
    | nil =>
      cases h
      exact ⟨[], .nil⟩
    | cons c rest =>
      by_cases hc : Text.isBlank c
      · have hcaret : c ≠ '^' := by
          rintro rfl
          cases hc
        rw [spelled_cons, if_neg hcaret, List.singleton_append, Token.scanFrom_of_isBlank hc] at h
        obtain ⟨pieces, hcuts⟩ := ih rest.length (by simp) h apart rfl
        exact ⟨pieces, .blank hc hcuts⟩
      · obtain ⟨c', rest', hspelled, hc'⟩ :
            ∃ c' rest', spelled (c :: rest) = c' :: rest' ∧ ¬ Text.isBlank c' := by
          by_cases hcaret : c = '^'
          · exact ⟨'*', '*' :: spelled rest, by rw [spelled_cons, if_pos hcaret]; rfl, by decide⟩
          · exact ⟨c, spelled rest, by rw [spelled_cons, if_neg hcaret]; rfl, hc⟩
        rw [hspelled] at h
        cases hhead : Token.head c' rest' position with
        | error fault =>
          rw [Token.scanFrom_of_head_error hc' hhead] at h
          cases h
        | ok cut =>
          rcases begins_of_head hspelled hhead with ⟨length, token, hbegins⟩ | ⟨behind, hbehind⟩
          · obtain ⟨_, _, shorter, hcons, -, hcut, hdrop⟩ := hbegins.head
            obtain ⟨rfl, rfl⟩ := List.cons.inj (hspelled.symm.trans hcons)
            obtain ⟨us, hus, rfl⟩ := Token.scanFrom_eq_ok_of_head hc' (hcut position) h
            rw [Token.scanFrom_skip, Nat.add_sub_cancel, hdrop] at hus
            have hshorter : ((c :: rest).drop length).length < (c :: rest).length := by
              have hlength := hbegins.exists_cons.1
              simp only [List.length_drop, List.length_cons]
              omega
            obtain ⟨pieces, hcuts⟩ := ih _ hshorter hus apart.tail rfl
            exact ⟨_, .piece hbegins hcuts⟩
          · rw [← hspelled, hbehind] at h
            exact (not_starsApart_of_scanFrom h apart).elim

end Formula

end Comparand
