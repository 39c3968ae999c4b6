import Comparand.Identifier

/-!
# Characters of identifiers

A well-formed identifier in which the separator does not occur is a word: letters, numerals and `_`
throughout, and it does not begin like a numeral. Blanks, operators, parentheses and points are no
word characters.
-/
namespace Comparand

theorem Text.occursIn_iff {pattern text : List Char} :
    Text.occursIn pattern text ↔ pattern <:+: text := by
  induction text with
  | nil => simp [Text.occursIn]
  | cons c rest ih =>
    rw [Text.occursIn, Bool.or_eq_true, List.isPrefixOf_iff_prefix, ih, List.infix_cons_iff]

namespace Identifier

theorem isWordCharacter_of_firstStrayFrom {separator token : List Char} {offset : Nat}
    (bare : Text.occursIn separator token = false)
    (clean : firstStrayFrom separator offset 0 token = none) :
    ∀ c ∈ token, isWordCharacter c := by
  induction token generalizing offset with
  | nil => simp
  | cons c rest ih =>
    simp only [Text.occursIn, Bool.or_eq_false_iff] at bare
    simp only [firstStrayFrom, bare.1, Bool.and_false, Bool.false_eq_true, if_false] at clean
    split at clean
    · rename_i hc
      intro d hd
      rcases List.mem_cons.mp hd with rfl | hd
      · exact hc
      · exact ih bare.2 clean d hd
    · cases clean

/-- What is well formed and has no separator is a word. -/
theorem isWordCharacter_of_isWellFormed {separator token : List Char}
    (bare : Text.occursIn separator token = false) (formed : isWellFormed separator token) :
    ∀ c ∈ token, isWordCharacter c := by
  simp only [isWellFormed, Bool.and_eq_true, Option.isNone_iff_eq_none] at formed
  exact isWordCharacter_of_firstStrayFrom bare formed.1.2

theorem beginsNumerically_of_isWellFormed {separator token : List Char}
    (formed : isWellFormed separator token) : beginsNumerically token = false := by
  simp only [isWellFormed, Bool.and_eq_true, Bool.not_eq_true'] at formed
  exact formed.1.1

theorem isCandidate_of_isWellFormed {separator token : List Char}
    (formed : isWellFormed separator token) : isCandidate separator token := by
  simp only [isWellFormed, Bool.and_eq_true, Bool.not_eq_true'] at formed
  simp [isCandidate, formed.1.1, formed.2]

theorem ne_of_isWordCharacter {c d : Char} (hc : isWordCharacter c)
    (hd : isWordCharacter d = false) : c ≠ d := by
  rintro rfl
  simp [hd] at hc

end Identifier

end Comparand
