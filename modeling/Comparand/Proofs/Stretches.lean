import Comparand.Identifier
import Mathlib.Data.List.Infix

/-!
# Stretches of a word

A separator stands in a word wherever it is found from left to right, and what lies between is cut
into stretches. An identifier has nothing but word characters in its stretches; in any other text
the first character that is none is the first stray, and a scan of the text points at it.
-/
namespace Comparand

namespace Text

/-! ## Pieces -/

theorem piecesFrom_skip (separator : List Char) (skip : Nat) (text : List Char) :
    piecesFrom separator skip text = pieces separator (text.drop skip) := by
  induction text generalizing skip with
  | nil => cases skip <;> rfl
  | cons c text ih =>
    cases skip with
    | zero => rfl
    | succ skip => exact ih skip

/-- An occurrence of the separator in front is passed over as a whole. -/
theorem pieces_append {separator : List Char} (given : separator ≠ []) (rest : List Char) :
    pieces separator (separator ++ rest) = [] :: pieces separator rest := by
  obtain ⟨c, tail, rfl⟩ := List.exists_cons_of_ne_nil given
  rw [pieces, List.cons_append, piecesFrom, if_pos (by simp), piecesFrom_skip,
    List.length_cons, Nat.add_sub_cancel, List.drop_left]

theorem exists_pieces_cons {separator : List Char} {c : Char} {rest : List Char}
    (h : ¬ separator <+: c :: rest) :
    ∃ piece more, pieces separator rest = piece :: more ∧
      pieces separator (c :: rest) = (c :: piece) :: more := by
  obtain ⟨piece, more, hpieces⟩ :=
    List.exists_cons_of_ne_nil (piecesFrom_ne_nil separator 0 rest)
  refine ⟨piece, more, hpieces, ?_⟩
  rw [pieces, piecesFrom, if_neg (by simpa using h), hpieces]

end Text

namespace Identifier

/-! ## Stretches -/

/-- What lies between the occurrences of the separator. An empty separator occurs nowhere. -/
def stretches (separator word : List Char) : List (List Char) :=
  if separator = [] then [word] else Text.pieces separator word

/-- Whether an occurrence of the separator is passed over at the head of a text. -/
def Stands (separator text : List Char) : Prop := separator ≠ [] ∧ separator <+: text

variable {separator : List Char}

theorem stretches_nil : stretches separator [] = [[]] := by
  unfold stretches
  split <;> rfl

theorem stretches_ne_nil (word : List Char) : stretches separator word ≠ [] := by
  unfold stretches
  split
  · simp
  · exact Text.piecesFrom_ne_nil separator 0 word

theorem stretches_append (given : separator ≠ []) (rest : List Char) :
    stretches separator (separator ++ rest) = [] :: stretches separator rest := by
  rw [stretches, stretches, if_neg given, if_neg given, Text.pieces_append given]

theorem exists_stretches_cons {c : Char} {rest : List Char} (h : ¬ Stands separator (c :: rest)) :
    ∃ stretch more, stretches separator rest = stretch :: more ∧
      stretches separator (c :: rest) = (c :: stretch) :: more := by
  unfold stretches
  split
  · exact ⟨rest, [], rfl, rfl⟩
  · rename_i given
    exact Text.exists_pieces_cons fun stands => h ⟨given, stands⟩

/-- A word is read from left to right, an occurrence of the separator as a whole. -/
theorem induction_of_stands (separator : List Char) {motive : List Char → Prop} (nil : motive [])
    (occurrence : separator ≠ [] → ∀ rest, motive rest → motive (separator ++ rest))
    (character : ∀ c rest, ¬ Stands separator (c :: rest) → motive rest → motive (c :: rest))
    (word : List Char) : motive word := by
  induction h : word.length using Nat.strong_induction_on generalizing word with
  | _ n ih =>
    cases word with
    | nil => exact nil
    | cons c rest =>
      by_cases stands : Stands separator (c :: rest)
      · obtain ⟨given, behind, hbehind⟩ := stands
        have hpositive := List.length_pos_iff.mpr given
        have hlength : separator.length + behind.length = n := by
          rw [← h, ← hbehind, List.length_append]
        rw [← hbehind]
        exact occurrence given behind (ih behind.length (by omega) behind rfl)
      · exact character c rest stands (ih rest.length (by rw [← h, List.length_cons]; omega) rest rfl)

/-- The stretches with the separator between them are the word. -/
theorem intercalate_stretches (word : List Char) :
    separator.intercalate (stretches separator word) = word := by
  induction word using induction_of_stands separator with
  | nil => rw [stretches_nil, List.intercalate_singleton]
  | occurrence given rest ih =>
    rw [stretches_append given, List.intercalate_cons_of_ne_nil (stretches_ne_nil rest),
      List.nil_append, ih]
  | character c rest h ih =>
    obtain ⟨stretch, more, hrest, hcons⟩ := exists_stretches_cons h
    rw [hcons, List.intercalate_cons_cons_left, ← hrest, ih]

example : stretches ['a', 'a'] ['a', 'a', 'a', 'b', 'a', 'a'] = [[], ['a', 'b'], []] := by decide

/-! ## The first stray -/

/--
The first character of the stretches that is no word character, and all that stands in front of it,
the separator between stretches included.
-/
inductive FirstStray (separator : List Char) : List (List Char) → List Char → Char → Prop
  | here {c : Char} {stretch : List Char} {more : List (List Char)} : ¬ isWordCharacter c →
      FirstStray separator ((c :: stretch) :: more) [] c
  | next {c d : Char} {stretch before : List Char} {more : List (List Char)} :
      isWordCharacter d → FirstStray separator (stretch :: more) before c →
      FirstStray separator ((d :: stretch) :: more) (d :: before) c
  | beyond {c : Char} {before : List Char} {more : List (List Char)} :
      FirstStray separator more before c → FirstStray separator ([] :: more) (separator ++ before) c

def Clean (stretches : List (List Char)) : Prop :=
  ∀ stretch ∈ stretches, ∀ c ∈ stretch, isWordCharacter c

theorem clean_or_exists_firstStray (separator : List Char) (stretches : List (List Char)) :
    Clean stretches ∨ ∃ before c, FirstStray separator stretches before c := by
  induction stretches with
  | nil => exact .inl (by simp [Clean])
  | cons stretch more ih =>
    induction stretch with
    | nil =>
      refine ih.imp (fun clean => List.forall_mem_cons.mpr ⟨by simp, clean⟩) ?_
      rintro ⟨before, c, stray⟩
      exact ⟨separator ++ before, c, .beyond stray⟩
    | cons d stretch ih' =>
      by_cases hd : isWordCharacter d
      · refine ih'.imp (fun clean => ?_) ?_
        · obtain ⟨hstretch, hmore⟩ := List.forall_mem_cons.mp clean
          exact List.forall_mem_cons.mpr ⟨List.forall_mem_cons.mpr ⟨hd, hstretch⟩, hmore⟩
        · rintro ⟨before, c, stray⟩
          exact ⟨d :: before, c, .next hd stray⟩
      · exact .inr ⟨[], d, .here hd⟩

/-- The first stray stands in the text behind what is said to stand in front of it. -/
theorem FirstStray.exists_intercalate {stretches : List (List Char)} {before : List Char} {c : Char}
    (h : FirstStray separator stretches before c) :
    ∃ behind, separator.intercalate stretches = before ++ c :: behind := by
  induction h with
  | here => exact ⟨_, List.intercalate_cons_cons_left⟩
  | next _ _ ih =>
    obtain ⟨behind, hbehind⟩ := ih
    exact ⟨behind, by rw [List.intercalate_cons_cons_left, hbehind, List.cons_append]⟩
  | beyond stray ih =>
    obtain ⟨behind, hbehind⟩ := ih
    refine ⟨behind, ?_⟩
    rw [List.intercalate_cons_of_ne_nil (by rintro rfl; cases stray), List.nil_append, hbehind,
      List.append_assoc]

/-! ## The scan for strays -/

theorem firstStrayFrom_skip (separator : List Char) (offset skip : Nat) (text : List Char) :
    firstStrayFrom separator offset skip text =
      firstStrayFrom separator (offset + Text.utf8Length (text.take skip)) 0 (text.drop skip) := by
  induction text generalizing offset skip with
  | nil => cases skip <;> rfl
  | cons c text ih =>
    cases skip with
    | zero => rfl
    | succ skip =>
      rw [firstStrayFrom, ih, List.take_succ_cons, List.drop_succ_cons, Text.utf8Length_cons,
        Nat.add_assoc]

theorem firstStrayFrom_append (given : separator ≠ []) (offset : Nat) (rest : List Char) :
    firstStrayFrom separator offset 0 (separator ++ rest) =
      firstStrayFrom separator (offset + Text.utf8Length separator) 0 rest := by
  obtain ⟨c, tail, rfl⟩ := List.exists_cons_of_ne_nil given
  rw [List.cons_append, firstStrayFrom, if_pos (by simp), firstStrayFrom_skip, List.length_cons,
    Nat.add_sub_cancel, List.take_left, List.drop_left, Text.utf8Length_cons, Nat.add_assoc]

theorem firstStrayFrom_cons {c : Char} {rest : List Char} (h : ¬ Stands separator (c :: rest))
    (offset : Nat) :
    firstStrayFrom separator offset 0 (c :: rest) =
      if isWordCharacter c then firstStrayFrom separator (offset + c.utf8Size) 0 rest
      else some (offset, c) := by
  rw [firstStrayFrom, if_neg]
  simpa [Stands] using h

theorem firstStrayFrom_of_firstStray {word before : List Char} {c : Char}
    (h : FirstStray separator (stretches separator word) before c) (offset : Nat) :
    firstStrayFrom separator offset 0 word = some (offset + Text.utf8Length before, c) := by
  induction word using induction_of_stands separator generalizing before offset with
  | nil =>
    rw [stretches_nil] at h
    cases h with
    | beyond none => cases none
  | occurrence given rest ih =>
    rw [stretches_append given] at h
    cases h with
    | beyond stray =>
      rw [firstStrayFrom_append given, ih stray, Text.utf8Length_append, Nat.add_assoc]
  | character d rest stands ih =>
    obtain ⟨stretch, more, hrest, hcons⟩ := exists_stretches_cons stands
    rw [hcons] at h
    rw [firstStrayFrom_cons stands]
    cases h with
    | here hc => exact if_neg hc
    | next hd stray =>
      rw [if_pos hd, ih (hrest ▸ stray), Text.utf8Length_cons, Nat.add_assoc]

theorem firstStrayFrom_of_clean {word : List Char} (h : Clean (stretches separator word))
    (offset : Nat) : firstStrayFrom separator offset 0 word = none := by
  induction word using induction_of_stands separator generalizing offset with
  | nil => rfl
  | occurrence given rest ih =>
    rw [stretches_append given] at h
    rw [firstStrayFrom_append given, ih (List.forall_mem_cons.mp h).2]
  | character d rest stands ih =>
    obtain ⟨stretch, more, hrest, hcons⟩ := exists_stretches_cons stands
    rw [hcons] at h
    obtain ⟨hstretch, hmore⟩ := List.forall_mem_cons.mp h
    obtain ⟨hd, hstretch⟩ := List.forall_mem_cons.mp hstretch
    rw [firstStrayFrom_cons stands, if_pos hd,
      ih (by rw [hrest]; exact List.forall_mem_cons.mpr ⟨hstretch, hmore⟩)]

end Identifier

end Comparand
