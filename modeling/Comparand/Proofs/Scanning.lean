import Comparand.Formula.Token
import Comparand.Proofs.Numerals
import Comparand.Proofs.Results

/-!
# Scanning a text piece by piece

A scan does not look across a delimiter, apart from the number of tokens and the position: what
stands in front of it is scanned on its own, and so is what follows. In a text that is joined by
spaces, then, every piece has its own tokens.
-/
namespace Comparand.Formula.Token

/-- What stands behind tokens that must not run on. -/
def delimits (c : Char) : Prop := c = ' ' ∨ c = ')'

theorem endsNumeral_of_delimits {c : Char} (h : delimits c) : endsNumeral c :=
  h.imp_right .inl

/-! ## The token at the head -/

theorem symbol?_length {text : List Char} {token : Token} {length : Nat}
    (h : symbol? text = some (token, length)) : 0 < length ∧ length ≤ text.length := by
  unfold symbol? at h
  split at h <;> cases h <;> simp

theorem head_length {c : Char} {rest : List Char} {position length : Nat} {token : Token}
    (h : head c rest position = .ok (token, length)) :
    0 < length ∧ length ≤ (c :: rest).length := by
  simp only [head] at h
  split at h
  · split at h
    · rename_i hsymbol
      cases h
      exact symbol?_length hsymbol
    · cases h
  · rename_i found
    have hle := numeralLength_le (c :: rest)
    split at h
    · split at h
      · cases h
        exact ⟨Nat.pos_of_ne_zero found, hle⟩
      · cases h
    · cases h

theorem numeralLength_eq_zero {c : Char} (hc : c.isDigit = false) (point : c ≠ '.')
    (rest : List Char) : numeralLength (c :: rest) = 0 := by
  simp only [numeralLength]
  rw [digitRun_cons_eq_zero hc, List.drop_zero, fractionLength_eq_zero point]
  rfl

theorem symbol?_cons_of_ne {c : Char} (h : c ≠ '*') (rest : List Char) :
    symbol? (c :: rest) = symbol? [c] := by
  unfold symbol?
  split <;> simp_all

theorem symbol?_star_of_ne {c : Char} (h : c ≠ '*') (rest : List Char) :
    symbol? ('*' :: c :: rest) = some (.star, 1) := by
  unfold symbol?
  split <;> simp_all

theorem symbol?_append_delimiter {d : Char} (hd : delimits d) (c : Char) (text rest : List Char) :
    symbol? (c :: (text ++ d :: rest)) = symbol? (c :: text) := by
  by_cases hc : c = '*'
  · subst hc
    cases text with
    | nil => rcases hd with rfl | rfl <;> rfl
    | cons e text =>
      by_cases he : e = '*'
      · subst he
        rfl
      · rw [List.cons_append, symbol?_star_of_ne he, symbol?_star_of_ne he]
  · rw [symbol?_cons_of_ne hc, symbol?_cons_of_ne hc text]

theorem head_append_delimiter {d : Char} (hd : delimits d) (c : Char) (text rest : List Char)
    (position : Nat) : head c (text ++ d :: rest) position = head c text position := by
  have hlength : numeralLength (c :: (text ++ d :: rest)) = numeralLength (c :: text) := by
    rw [← List.cons_append, numeralLength_append_of_endsNumeral (endsNumeral_of_delimits hd)]
  have htake : (c :: (text ++ d :: rest)).take (numeralLength (c :: text)) =
      (c :: text).take (numeralLength (c :: text)) := by
    rw [← List.cons_append, List.take_append_of_le_length (numeralLength_le _)]
  simp only [head, hlength, symbol?_append_delimiter hd, htake]

/-- Apart from a star, a symbol is a token of its own wherever it stands. -/
theorem head_of_symbol? {c : Char} {token : Token} (h : symbol? [c] = some (token, 1))
    (star : c ≠ '*') (rest : List Char) (position : Nat) :
    head c rest position = .ok (token, 1) := by
  have hdigit : c.isDigit = false ∧ c ≠ '.' := by
    unfold symbol? at h
    split at h <;> simp_all
  simp only [head, numeralLength_eq_zero hdigit.1 hdigit.2, if_true, symbol?_cons_of_ne star, h]

theorem head_of_isNumeral {c : Char} {rest : List Char} (h : IsNumeral (c :: rest))
    (position : Nat) :
    head c rest position =
      match Decimal.read? (c :: rest) with
      | some value =>
        if value.isFinite then .ok (.number value, (c :: rest).length)
        else .error (.literalTooLarge (String.ofList (c :: rest)))
      | none => .error (.unexpectedCharacter (String.ofList (c :: rest)) position) := by
  have hlength := numeralLength_eq_length h
  simp only [head, hlength, List.take_length]
  exact if_neg (Nat.succ_ne_zero _)

/-! ## Scans of several texts -/

theorem scanFrom_of_length_le {text : List Char} {skip : Nat} (h : text.length ≤ skip)
    (found position : Nat) : scanFrom found position skip text = .ok [] := by
  induction text generalizing skip position with
  | nil => cases skip <;> rfl
  | cons c text ih =>
    cases skip with
    | zero => simp at h
    | succ skip => exact ih (by simpa using h) _

theorem scanFrom_of_isBlank {c : Char} (hc : Text.isBlank c) (rest : List Char)
    (found position : Nat) :
    scanFrom found position 0 (c :: rest) = scanFrom found (position + c.utf8Size) 0 rest := by
  rw [scanFrom, if_pos hc]

theorem scanFrom_of_head_error {c : Char} {rest : List Char} {position : Nat} {fault : Fault}
    (hc : ¬ Text.isBlank c) (h : head c rest position = .error fault) (found : Nat) :
    scanFrom found position 0 (c :: rest) = .error fault := by
  rw [scanFrom, if_neg hc, h]
  rfl

theorem scanFrom_of_head {c : Char} {rest : List Char} {position length : Nat} {token : Token}
    (hc : ¬ Text.isBlank c) (h : head c rest position = .ok (token, length)) (found : Nat) :
    scanFrom found position 0 (c :: rest) =
      if maxTokens ≤ found then .error (.tooManyTokens maxTokens)
      else do
        let tokens ← scanFrom (found + 1) (position + c.utf8Size) (length - 1) rest
        return (token, position) :: tokens := by
  rw [scanFrom, if_neg hc, h, ok_bind]
  dsimp only
  split <;> rfl

theorem scanFrom_eq_ok_of_head {c : Char} {rest : List Char} {found position length : Nat}
    {token : Token} {tokens : List Placed} (hc : ¬ Text.isBlank c)
    (hhead : head c rest position = .ok (token, length))
    (h : scanFrom found position 0 (c :: rest) = .ok tokens) :
    ∃ us, scanFrom (found + 1) (position + c.utf8Size) (length - 1) rest = .ok us ∧
      tokens = (token, position) :: us := by
  rw [scanFrom_of_head hc hhead] at h
  split at h
  · cases h
  · obtain ⟨us, hus, hpure⟩ := bind_eq_ok_iff.mp h
    cases hpure
    exact ⟨us, hus, rfl⟩

/-- Characters that belong to a token which has been found are passed over. -/
theorem scanFrom_skip (found position skip : Nat) (text : List Char) :
    scanFrom found position skip text =
      scanFrom found (position + Text.utf8Length (text.take skip)) 0 (text.drop skip) := by
  induction text generalizing position skip with
  | nil => cases skip <;> simp [scanFrom]
  | cons c text ih =>
    cases skip with
    | zero => simp
    | succ skip =>
      rw [scanFrom, ih, List.take_succ_cons, List.drop_succ_cons, Text.utf8Length_cons,
        Nat.add_assoc]

theorem scanFrom_append_delimiter {d : Char} (hd : delimits d) {text : List Char} {skip : Nat}
    (h : skip ≤ text.length) (rest : List Char) (found position : Nat) :
    scanFrom found position skip (text ++ d :: rest) = do
      let ts ← scanFrom found position skip text
      let us ← scanFrom (found + ts.length) (position + Text.utf8Length text) 0 (d :: rest)
      return ts ++ us := by
  induction text generalizing skip found position with
  | nil =>
    obtain rfl : skip = 0 := by simpa using h
    exact (bind_pure _).symm
  | cons c text ih =>
    rw [List.cons_append, Text.utf8Length_cons, ← Nat.add_assoc]
    cases skip with
    | succ skip => exact ih (by simpa using h) found _
    | zero =>
      by_cases hc : Text.isBlank c
      · rw [scanFrom_of_isBlank hc, scanFrom_of_isBlank hc]
        exact ih (Nat.zero_le _) found _
      · have happend := head_append_delimiter hd c text rest position
        cases hhead : head c text position with
        | error fault =>
          rw [scanFrom_of_head_error hc hhead, scanFrom_of_head_error hc (happend.trans hhead)]
          rfl
        | ok cut =>
          obtain ⟨token, length⟩ := cut
          have hlength := head_length hhead
          have hskip : length - 1 ≤ text.length := by
            simp only [List.length_cons] at hlength
            omega
          rw [scanFrom_of_head hc hhead, scanFrom_of_head hc (happend.trans hhead)]
          split
          · rfl
          · simp only [ih hskip, bind_assoc, pure_bind, List.cons_append, List.length_cons,
              Nat.add_assoc, Nat.add_comm 1]

/-- Scans pieces in a row, as though a space stood between them. -/
def scanPieces (found position : Nat) : List (List Char) → Except Fault (List Placed)
  | [] => .ok []
  | piece :: pieces => do
    let ts ← scanFrom found position 0 piece
    let us ← scanPieces (found + ts.length) (position + Text.utf8Length piece + 1) pieces
    return ts ++ us

theorem scanFrom_intercalate (pieces : List (List Char)) (found position : Nat) :
    scanFrom found position 0 ([' '].intercalate pieces) = scanPieces found position pieces := by
  induction pieces generalizing found position with
  | nil => rfl
  | cons x xs ih =>
    cases xs with
    | nil =>
      rw [List.intercalate_singleton, scanPieces]
      simp only [scanPieces, ok_bind, List.append_nil]
      exact (bind_pure _).symm
    | cons y ys =>
      rw [List.intercalate_cons_cons, List.append_assoc, List.singleton_append,
        scanFrom_append_delimiter (.inl rfl) (Nat.zero_le _), scanPieces]
      congr 1
      funext ts
      rw [← ih]
      rfl

/-- The tokens of each piece stand together. -/
theorem scanPieces_eq_ok {before after : List (List Char)} {piece : List Char}
    {found position : Nat} {tokens : List Placed}
    (h : scanPieces found position (before ++ piece :: after) = .ok tokens) :
    ∃ found' position' ts us vs, scanFrom found' position' 0 piece = .ok us ∧
      tokens = ts ++ us ++ vs := by
  induction before generalizing found position tokens with
  | nil =>
    obtain ⟨us, hus, hrest⟩ := bind_eq_ok_iff.mp h
    obtain ⟨vs, -, hpure⟩ := bind_eq_ok_iff.mp hrest
    cases hpure
    exact ⟨found, position, [], us, vs, hus, rfl⟩
  | cons x before ih =>
    obtain ⟨xs, -, hrest⟩ := bind_eq_ok_iff.mp h
    obtain ⟨ys, hys, hpure⟩ := bind_eq_ok_iff.mp hrest
    cases hpure
    obtain ⟨found', position', ts, us, vs, hus, rfl⟩ := ih hys
    exact ⟨found', position', xs ++ ts, us, vs, hus, by simp⟩

/-! ## Scans within the limit -/

/-- Whether a scan does not run into the limit on tokens. -/
def Fits {α : Type} (x : Except Fault α) : Prop := x ≠ .error (.tooManyTokens maxTokens)

theorem Fits.of_bind {α β : Type} {x : Except Fault α} {f : α → Except Fault β}
    (h : Fits (x >>= f)) : Fits x := by
  rintro rfl
  exact h rfl

/-- A text that is one token scans to it. -/
theorem scanFrom_whole {c : Char} {rest : List Char} {found position : Nat} {token : Token}
    (hc : ¬ Text.isBlank c) (hhead : head c rest position = .ok (token, (c :: rest).length))
    (room : found < maxTokens) :
    scanFrom found position 0 (c :: rest) = .ok [(token, position)] := by
  rw [scanFrom_of_head hc hhead, if_neg (by omega), scanFrom_of_length_le (by simp)]
  rfl

end Comparand.Formula.Token
