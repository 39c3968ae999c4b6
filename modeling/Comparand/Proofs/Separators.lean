import Comparand.Proofs.Identifiers
import Comparand.Proofs.Resolution
import Comparand.Proofs.Stretches

/-!
# Separators

A separator is found in a token from left to right: each occurrence is the leftmost one there is
behind the one before, whether its characters could stand in an identifier or not, and whether it
overlaps itself or not. `Separated` says which pieces that leaves. The scan for strays passes over
just these occurrences, so it sees the pieces and nothing else, and the scopes and the name that a
token is resolved by are the same pieces again.
-/
namespace Comparand

namespace Text

/-- The pieces of a text between the occurrences of a separator, as found from left to right. -/
inductive Separated (separator : List Char) : List Char → List (List Char) → Prop
  | whole {text : List Char} : ¬ separator <:+: text → Separated separator text [text]
  /-- There is no occurrence further to the left, and the others are found behind this one. -/
  | first {piece rest : List Char} {pieces : List (List Char)} :
      (∀ front behind, piece ++ (separator ++ rest) = front ++ (separator ++ behind) →
        piece.length ≤ front.length) →
      Separated separator rest pieces →
      Separated separator (piece ++ (separator ++ rest)) (piece :: pieces)

variable {separator text : List Char} {pieces : List (List Char)}

theorem Separated.ne_nil (h : Separated separator text pieces) : pieces ≠ [] := by
  cases h <;> exact List.cons_ne_nil _ _

theorem Separated.cons {piece : List Char} {c : Char}
    (h : Separated separator text (piece :: pieces)) (free : ¬ separator <+: c :: text) :
    Separated separator (c :: text) ((c :: piece) :: pieces) := by
  cases h with
  | whole none =>
    apply Separated.whole
    rw [List.infix_cons_iff]
    exact fun h => h.elim free none
  | @first _ rest _ leftmost hrest =>
    have leftmost' : ∀ front behind,
        c :: piece ++ (separator ++ rest) = front ++ (separator ++ behind) →
          (c :: piece).length ≤ front.length := by
      intro front behind heq
      cases front with
      | nil => exact absurd ⟨behind, heq.symm⟩ free
      | cons d front => exact Nat.succ_le_succ (leftmost front behind (List.cons.inj heq).2)
    exact .first leftmost' hrest

theorem separated_pieces (given : separator ≠ []) (text : List Char) :
    Separated separator text (Text.pieces separator text) := by
  induction text using Identifier.induction_of_stands separator with
  | nil => exact .whole fun h => given (List.infix_nil.mp h)
  | occurrence _ rest ih =>
    have hfirst : Separated separator ([] ++ (separator ++ rest))
        ([] :: Text.pieces separator rest) := .first (fun _ _ _ => Nat.zero_le _) ih
    rw [pieces_append given]
    exact hfirst
  | character c rest stands ih =>
    have free : ¬ separator <+: c :: rest := fun h => stands ⟨given, h⟩
    obtain ⟨piece, more, hrest, hcons⟩ := exists_pieces_cons free
    rw [hrest] at ih
    rw [hcons]
    exact ih.cons free

/-- Leftmost occurrences leave no choice. -/
theorem Separated.unique {pieces' : List (List Char)} (h : Separated separator text pieces)
    (h' : Separated separator text pieces') : pieces = pieces' := by
  induction h generalizing pieces' with
  | whole none =>
    cases h' with
    | whole => rfl
    | @first piece rest => exact absurd ⟨piece, rest, List.append_assoc ..⟩ none
  | @first piece rest pieces leftmost _ ih =>
    generalize htext : piece ++ (separator ++ rest) = text at h'
    cases h' with
    | whole none => exact absurd ⟨piece, rest, by rw [List.append_assoc, htext]⟩ none
    | @first piece' rest' _ leftmost' hrest' =>
      have hlength : piece.length = piece'.length :=
        Nat.le_antisymm (leftmost _ _ htext) (leftmost' _ _ htext.symm)
      obtain ⟨rfl, hbehind⟩ := List.append_inj htext hlength
      rw [List.append_cancel_left hbehind] at ih
      rw [ih hrest']

theorem separated_iff (given : separator ≠ []) :
    Separated separator text pieces ↔ pieces = Text.pieces separator text := by
  constructor
  · exact fun h => h.unique (separated_pieces given text)
  · rintro rfl
    exact separated_pieces given text

theorem Separated.two_le_length_iff (h : Separated separator text pieces) :
    2 ≤ pieces.length ↔ separator <:+: text := by
  cases h with
  | whole none => simp [none]
  | @first piece rest pieces _ hrest =>
    have hpositive := List.length_pos_iff.mpr hrest.ne_nil
    have occurs : separator <:+: piece ++ (separator ++ rest) :=
      ⟨piece, rest, List.append_assoc ..⟩
    simp only [occurs, iff_true, List.length_cons]
    omega

end Text

namespace Identifier

variable {separator : List Char} {pieces : List (List Char)}

theorem isWordCharacter_iff {c : Char} :
    isWordCharacter c ↔ Text.isAlphanumeric c ∨ c = '_' := by
  simp [isWordCharacter]

theorem beginsNumerically_eq_false_iff {token : List Char} :
    beginsNumerically token = false ↔ ∀ c, token.head? = some c → ¬ c.isDigit ∧ c ≠ '.' := by
  cases token with
  | nil => simp [beginsNumerically]
  | cons c rest => simp [beginsNumerically]

theorem clean_cons {piece : List Char} :
    Clean (piece :: pieces) ↔ (∀ c ∈ piece, isWordCharacter c) ∧ Clean pieces :=
  List.forall_mem_cons

/-! ## The first stray, by pieces -/

/-- The first stray stands behind clean pieces, in one that is clean up to it. -/
theorem FirstStray.exists_head {before : List Char} {c : Char}
    (h : FirstStray separator pieces before c) :
    ∃ clean head tail more, pieces = clean ++ (head ++ c :: tail) :: more ∧
      Clean (clean ++ [head]) ∧ ¬ isWordCharacter c ∧
      before = separator.intercalate (clean ++ [head]) := by
  induction h with
  | @here c tail more hc =>
    exact ⟨[], [], tail, more, rfl, by simp [Clean], hc, by simp⟩
  | @next c d piece before more hd _ ih =>
    obtain ⟨clean, head, tail, more', heq, hclean, hc, rfl⟩ := ih
    cases clean with
    | nil =>
      obtain ⟨rfl, rfl⟩ := List.cons.inj heq
      refine ⟨[], d :: head, tail, more, rfl, ?_, hc, by simp⟩
      rw [List.nil_append, clean_cons] at hclean ⊢
      exact ⟨List.forall_mem_cons.mpr ⟨hd, hclean.1⟩, hclean.2⟩
    | cons first clean =>
      obtain ⟨rfl, rfl⟩ := List.cons.inj heq
      refine ⟨(d :: piece) :: clean, head, tail, more', rfl, ?_, hc, ?_⟩
      · rw [List.cons_append, clean_cons] at hclean ⊢
        exact ⟨List.forall_mem_cons.mpr ⟨hd, hclean.1⟩, hclean.2⟩
      · rw [List.cons_append, List.cons_append, List.intercalate_cons_cons_left]
  | @beyond c before more _ ih =>
    obtain ⟨clean, head, tail, more', rfl, hclean, hc, rfl⟩ := ih
    refine ⟨[] :: clean, head, tail, more', rfl, ?_, hc, ?_⟩
    · rw [List.cons_append, clean_cons]
      exact ⟨by simp, hclean⟩
    · rw [List.cons_append, List.intercalate_cons_of_ne_nil (by simp), List.nil_append]

theorem FirstStray.append {front piece before : List Char} {c : Char}
    (h : FirstStray separator (piece :: pieces) before c)
    (hfront : ∀ d ∈ front, isWordCharacter d) :
    FirstStray separator ((front ++ piece) :: pieces) (front ++ before) c := by
  induction front with
  | nil => exact h
  | cons d front ih =>
    rw [List.forall_mem_cons] at hfront
    exact .next hfront.1 (ih hfront.2)

theorem firstStray_of_head {clean more : List (List Char)} {head tail : List Char} {c : Char}
    (hclean : Clean (clean ++ [head])) (hc : ¬ isWordCharacter c) :
    FirstStray separator (clean ++ (head ++ c :: tail) :: more)
      (separator.intercalate (clean ++ [head])) c := by
  induction clean with
  | nil =>
    have hhere : FirstStray separator ((c :: tail) :: more) [] c := .here hc
    have hstray := hhere.append (clean_cons.mp hclean).1
    rw [List.append_nil] at hstray
    rwa [List.nil_append, List.nil_append, List.intercalate_singleton]
  | cons first clean ih =>
    have hfirst := (clean_cons.mp hclean).1
    have hstray := (FirstStray.beyond (ih (clean_cons.mp hclean).2)).append hfirst
    rw [List.append_nil] at hstray
    rwa [List.cons_append, List.cons_append, List.intercalate_cons_of_ne_nil (by simp),
      List.append_assoc]

theorem firstStray?_eq_some_iff {token : List Char} {offset : Nat} {c : Char} :
    firstStray? separator token = some (offset, c) ↔
      ∃ clean head tail more,
        stretches separator token = clean ++ (head ++ c :: tail) :: more ∧
        Clean (clean ++ [head]) ∧ ¬ isWordCharacter c ∧
        offset = Text.utf8Length (separator.intercalate (clean ++ [head])) := by
  constructor
  · intro hscan
    rcases clean_or_exists_firstStray separator (stretches separator token) with
      clean | ⟨before, d, stray⟩
    · rw [firstStray?, firstStrayFrom_of_clean clean] at hscan
      cases hscan
    · rw [firstStray?, firstStrayFrom_of_firstStray stray] at hscan
      cases hscan
      obtain ⟨clean, head, tail, more, heq, hclean, hc, rfl⟩ := stray.exists_head
      exact ⟨clean, head, tail, more, heq, hclean, hc, Nat.zero_add _⟩
  · intro ⟨clean, head, tail, more, heq, hclean, hc, hoffset⟩
    have stray : FirstStray separator (stretches separator token)
        (separator.intercalate (clean ++ [head])) c := by
      rw [heq]
      exact firstStray_of_head hclean hc
    rw [firstStray?, firstStrayFrom_of_firstStray stray, Nat.zero_add, hoffset]

theorem firstStray?_eq_none_iff {token : List Char} :
    firstStray? separator token = none ↔ Clean (stretches separator token) := by
  constructor
  · intro hscan
    rcases clean_or_exists_firstStray separator (stretches separator token) with
      clean | ⟨before, d, stray⟩
    · exact clean
    · rw [firstStray?, firstStrayFrom_of_firstStray stray] at hscan
      cases hscan
  · exact fun clean => firstStrayFrom_of_clean clean 0

/-! ## Tokens -/

theorem refers_iff (given : separator ≠ []) {token : List Char} {pieces : List (List Char)}
    (h : Text.Separated separator token pieces) :
    refers separator token ↔ (∃ c ∈ token, Text.isAlphabetic c) ∨ 2 ≤ pieces.length := by
  rw [h.two_le_length_iff, ← Text.occursIn_iff]
  simp [refers, hasSeparator, given]

/-- A token is resolved by its pieces, which make it again when they are joined. -/
theorem exists_split {separator : String} (given : separator ≠ "") (token : String) :
    ∃ scopes name, Identifier.split separator token = (name, scopes) ∧
      (scopes ++ [name]).map String.toList = Text.pieces separator.toList token.toList ∧
      separator.intercalate (scopes ++ [name]) = token := by
  have given' : separator.toList ≠ [] := by simpa using given
  have hpieces := Identifier.split_eq_iff.mp (rfl : Identifier.split separator token = _)
  have htexts := congrArg (List.map String.toList) hpieces
  rw [List.map_map] at htexts
  refine ⟨_, _, rfl, ?_, ?_⟩
  · rw [← htexts]
    simp
  · rw [← String.toList_inj, String.toList_intercalate, ← htexts]
    have hjoined : separator.toList.intercalate (stretches separator.toList token.toList) =
        token.toList := intercalate_stretches token.toList
    rw [stretches, if_neg given'] at hjoined
    simpa using hjoined

/--
The pieces of a token are the ones that its separator leaves when it is found from left to right. By
them it is told whether the token is well formed, and which character of it is the first stray; and
they are the scopes and the name that it is resolved by, which make the token again when they are
joined.
-/
theorem pieces_agree {separator : String} (given : separator ≠ "") (token : String) :
    ∃ pieces, (∀ others, Text.Separated separator.toList token.toList others ↔ others = pieces) ∧
      (isWellFormed separator.toList token.toList ↔
        (∀ c, token.toList.head? = some c → ¬ c.isDigit ∧ c ≠ '.') ∧
        (∀ piece ∈ pieces, ∀ c ∈ piece, Text.isAlphanumeric c ∨ c = '_') ∧
        ((∃ c ∈ token.toList, Text.isAlphabetic c) ∨ 2 ≤ pieces.length)) ∧
      (firstStray? separator.toList token.toList = none ↔
        ∀ piece ∈ pieces, ∀ c ∈ piece, Text.isAlphanumeric c ∨ c = '_') ∧
      (∀ offset c, firstStray? separator.toList token.toList = some (offset, c) ↔
        ∃ clean head tail more, pieces = clean ++ (head ++ c :: tail) :: more ∧
          (∀ piece ∈ clean ++ [head], ∀ d ∈ piece, Text.isAlphanumeric d ∨ d = '_') ∧
          ¬ (Text.isAlphanumeric c ∨ c = '_') ∧
          offset = Text.utf8Length (separator.toList.intercalate (clean ++ [head]))) ∧
      ∃ scopes name, Identifier.split separator token = (name, scopes) ∧
        (scopes ++ [name]).map String.toList = pieces ∧
        separator.intercalate (scopes ++ [name]) = token ∧
        ∀ (V : Type) (ns : Namespace V) (known : List (String × V)), known.lookup token = none →
          isWellFormed separator.toList token.toList →
          Arithmetic.resolveToken ns separator token known = do
            return known ++ [(token, ← ns name scopes)] := by
  have given' : separator.toList ≠ [] := by simpa using given
  have hseparated := Text.separated_pieces given' token.toList
  have hstretches : stretches separator.toList token.toList =
      Text.pieces separator.toList token.toList := if_neg given'
  have hnone : firstStray? separator.toList token.toList = none ↔
      ∀ piece ∈ Text.pieces separator.toList token.toList, ∀ c ∈ piece,
        Text.isAlphanumeric c ∨ c = '_' := by
    rw [firstStray?_eq_none_iff, hstretches, Clean]
    simp only [isWordCharacter_iff]
  refine ⟨Text.pieces separator.toList token.toList, fun others => Text.separated_iff given', ?_,
    hnone, fun offset c => ?_, ?_⟩
  · simp only [isWellFormed, Bool.and_eq_true, Bool.not_eq_true', Option.isNone_iff_eq_none,
      beginsNumerically_eq_false_iff, hnone, refers_iff given' hseparated, and_assoc]
  · rw [firstStray?_eq_some_iff, hstretches]
    simp only [Clean, isWordCharacter_iff]
  · obtain ⟨scopes, name, hsplit, hpieces, hjoined⟩ := exists_split given token
    refine ⟨scopes, name, hsplit, hpieces, hjoined, fun V ns known fresh formed => ?_⟩
    rw [Arithmetic.resolveToken_of_lookup fresh, if_pos (isCandidate_of_isWellFormed formed),
      if_pos formed, hsplit]

theorem overlapping_pieces_agree :
    "aa" ≠ "" ∧ firstStray? "aa".toList "aaa$aa".toList = some (3, '$') ∧
      ¬ isWellFormed "aa".toList "aaa$aa".toList ∧
      Identifier.split "aa" "aaa$aa" = ("", ["", "a$"]) := by
  have given : "aa" ≠ "" := by decide
  obtain ⟨pieces, hpieces, hformed, -, hstray, -⟩ := pieces_agree given "aaa$aa"
  have hthree : [[], ['a', '$'], []] = pieces :=
    (hpieces _).mp (Text.separated_pieces (by decide) "aaa$aa".toList)
  subst hthree
  refine ⟨given, ?_, fun formed => ?_, rfl⟩
  · have letter : Text.isAlphanumeric 'a' := by decide
    have word : ∀ piece ∈ [[]] ++ [['a']], ∀ d ∈ piece, Text.isAlphanumeric d ∨ d = '_' := by
      simp [letter]
    exact (hstray 3 '$').mpr ⟨[[]], ['a'], [], [[]], rfl, word, by decide, rfl⟩
  · have hdollar := (hformed.mp formed).2.1 ['a', '$'] (by simp) '$' (by simp)
    exact absurd hdollar (by decide)

end Identifier

end Comparand
