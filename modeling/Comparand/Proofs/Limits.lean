import Comparand.Proofs.Scanning
import Comparand.Proofs.Signs

/-!
# Scans at other places

What a text scans to depends on its place by nothing but the offsets of the tokens, as long as there
is room for them within the limit; otherwise the scan is given up. So texts that are joined by
spaces scan to their tokens in a row, unless these are too many in all.
-/
namespace Comparand.Formula.Token

theorem agree_head (c : Char) (rest : List Char) (position position' : Nat) :
    Agree Eq (head c rest position) (head c rest position') := by
  simp only [head]
  split
  · split
    · exact .ok rfl
    · exact .error rfl
  · split
    · split
      · exact .ok rfl
      · exact .error rfl
    · exact .error rfl

/-- Tokens moved to the right. -/
def moved (shift : Nat) (tokens : List Placed) : List Placed :=
  tokens.map fun (token, position) => (token, shift + position)

@[simp] theorem length_moved (shift : Nat) (tokens : List Placed) :
    (moved shift tokens).length = tokens.length :=
  List.length_map _

@[simp] theorem map_fst_moved (shift : Nat) (tokens : List Placed) :
    (moved shift tokens).map Prod.fst = tokens.map Prod.fst := by
  simp [moved]

/-- Behind other tokens a text has the same tokens, or runs into the limit. -/
theorem scanFrom_eq {text : List Char} {found position skip : Nat} {tokens : List Placed}
    (h : scanFrom found position skip text = .ok tokens) (found' shift : Nat) :
    scanFrom found' (shift + position) skip text =
      if tokens = [] ∨ found' + tokens.length ≤ maxTokens then .ok (moved shift tokens)
      else .error (.tooManyTokens maxTokens) := by
  induction text generalizing found found' position skip tokens with
  | nil =>
    cases skip <;> cases h <;> rfl
  | cons c rest ih =>
    cases skip with
    | succ skip => rw [scanFrom, Nat.add_assoc, ih h]
    | zero =>
      by_cases hc : Text.isBlank c
      · rw [scanFrom_of_isBlank hc] at h ⊢
        rw [Nat.add_assoc, ih h]
      · rcases (agree_head c rest position (shift + position)).ok_or_error with
          ⟨⟨token, length⟩, _, hhead, hhead', rfl⟩ | ⟨fault, _, hhead, -, -⟩
        · obtain ⟨us, hus, rfl⟩ := scanFrom_eq_ok_of_head hc hhead h
          rw [scanFrom_of_head hc hhead', Nat.add_assoc, ih hus]
          simp only [List.length_cons, reduceCtorEq, false_or]
          by_cases full : maxTokens ≤ found'
          · rw [if_pos full, if_neg (by omega)]
          · rw [if_neg full]
            by_cases room : us = [] ∨ found' + 1 + us.length ≤ maxTokens
            · have hlength : found' + (us.length + 1) ≤ maxTokens := by
                rcases room with rfl | room
                · simp only [List.length_nil]
                  omega
                · omega
              rw [if_pos room, if_pos hlength]
              rfl
            · rw [if_neg room, if_neg (by omega)]
              rfl
        · rw [scanFrom_of_head_error hc hhead] at h
          cases h

theorem length_le_of_scanFrom {text : List Char} {found position skip : Nat}
    {tokens : List Placed} (h : scanFrom found position skip text = .ok tokens)
    (room : found ≤ maxTokens) : found + tokens.length ≤ maxTokens := by
  have hsame := scanFrom_eq h found 0
  rw [Nat.zero_add, h] at hsame
  split at hsame
  · rename_i fits
    rcases fits with rfl | fits
    · exact room
    · exact fits
  · cases hsame

theorem scanFrom_eq_error {text : List Char} {found position skip : Nat} {fault : Fault}
    (h : scanFrom found position skip text = .error fault) {found' : Nat} (le : found ≤ found')
    (position' : Nat) :
    ∃ fault', scanFrom found' position' skip text = .error fault' ∧
      (fault' = .tooManyTokens maxTokens ∨ fault.SameCause fault') := by
  induction text generalizing found found' position position' skip with
  | nil => cases skip <;> cases h
  | cons c rest ih =>
    cases skip with
    | succ skip => exact ih h le _
    | zero =>
      by_cases hc : Text.isBlank c
      · rw [scanFrom_of_isBlank hc] at h ⊢
        exact ih h le _
      · rcases (agree_head c rest position position').ok_or_error with
          ⟨⟨token, length⟩, _, hhead, hhead', rfl⟩ | ⟨cause, cause', hhead, hhead', same⟩
        · rw [scanFrom_of_head hc hhead] at h
          rw [scanFrom_of_head hc hhead']
          by_cases full : maxTokens ≤ found'
          · exact ⟨_, if_pos full, .inl rfl⟩
          · rw [if_neg (by omega)] at h
            rw [if_neg full]
            rcases bind_eq_error_iff.mp h with h | ⟨us, -, h⟩
            · obtain ⟨fault', hfault', hcause⟩ := ih h (Nat.succ_le_succ le) _
              exact ⟨fault', by rw [hfault']; rfl, hcause⟩
            · cases h
        · rw [scanFrom_of_head_error hc hhead] at h
          cases h
          exact ⟨cause', scanFrom_of_head_error hc hhead' found', .inr same⟩

theorem agree_scanFrom {text : List Char} {found position : Nat}
    (fits : Fits (scanFrom found position 0 text)) :
    Agree (fun ts us => ts.map Prod.fst = us.map Prod.fst) (scanFrom 0 0 0 text)
      (scanFrom found position 0 text) := by
  cases h : scanFrom 0 0 0 text with
  | ok ts =>
    have hmoved := scanFrom_eq h found position
    rw [Nat.add_zero] at hmoved
    split at hmoved
    · rw [hmoved]
      exact .ok (map_fst_moved position ts).symm
    · exact absurd hmoved fits
  | error fault =>
    obtain ⟨fault', hfault', full | same⟩ := scanFrom_eq_error h (Nat.zero_le found) position
    · exact absurd (full ▸ hfault') fits
    · rw [hfault']
      exact .error same

/-- Texts that are joined have their tokens in a row, or run into the limit. -/
theorem scanPieces_eq {pieces : List (List Char)} {tokens : List (List Placed)}
    (h : List.Forall₂ (fun piece us => scanFrom 0 0 0 piece = .ok us) pieces tokens)
    {found : Nat} (room : found ≤ maxTokens) (position : Nat) :
    (found + tokens.flatten.length ≤ maxTokens →
      ∃ vs, scanPieces found position pieces = .ok vs ∧
        vs.map Prod.fst = tokens.flatten.map Prod.fst) ∧
    (maxTokens < found + tokens.flatten.length →
      scanPieces found position pieces = .error (.tooManyTokens maxTokens)) := by
  induction h generalizing found position with
  | nil =>
    refine ⟨fun _ => ⟨[], rfl, rfl⟩, fun full => ?_⟩
    simp only [List.flatten_nil, List.length_nil, Nat.add_zero] at full
    omega
  | @cons piece us pieces tokens hpiece _ ih =>
    have hmoved := scanFrom_eq hpiece found position
    rw [Nat.add_zero] at hmoved
    rw [scanPieces, hmoved, List.flatten_cons, List.length_append]
    by_cases fits : found + us.length ≤ maxTokens
    · obtain ⟨within, beyond⟩ := ih fits (position + Text.utf8Length piece + 1)
      rw [if_pos (.inr fits), ok_bind, length_moved]
      constructor
      · intro small
        obtain ⟨vs, hvs, hmap⟩ := within (by omega)
        exact ⟨moved position us ++ vs, by rw [hvs]; rfl, by simp [hmap]⟩
      · intro full
        rw [beyond (by omega)]
        rfl
    · have some_tokens : ¬ (us = [] ∨ found + us.length ≤ maxTokens) := by
        rintro (rfl | le)
        · exact fits room
        · exact fits le
      rw [if_neg some_tokens]
      exact ⟨fun small => absurd small (by omega), fun _ => rfl⟩

end Comparand.Formula.Token
