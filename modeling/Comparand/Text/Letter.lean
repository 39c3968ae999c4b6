import Comparand.Text.AlphabeticRanges
import Comparand.Text.NumericRanges

/-!
# Letters and numerals

`isAlphabetic` is the Unicode property `Alphabetic`: letters, letter-like numerals and the marks
that belong to them. `isAlphanumeric` adds everything that Unicode counts as a number, superscripts
and fractions included. Both agree with the classes of `Char` on ASCII.
-/
namespace Comparand.Text

/-- Whether a code point lies in one of the stretches. -/
def inRanges (ranges : List (Nat × Nat)) (n : Nat) : Bool :=
  ranges.any fun (first, last) => first ≤ n && n ≤ last

def isAlphabetic (c : Char) : Bool :=
  if c.toNat < 128 then c.isAlpha else inRanges alphabeticRanges c.toNat

def isNumeric (c : Char) : Bool :=
  if c.toNat < 128 then c.isDigit else inRanges numericRanges c.toNat

theorem isAlphabetic_of_isAlpha {c : Char} (h : c.isAlpha) : isAlphabetic c := by
  have small : c.toNat < 128 := by
    change (decide ('A'.val ≤ c.val ∧ c.val ≤ 'Z'.val) ||
      (decide ('a'.val ≤ c.val) && decide (c.val ≤ 'z'.val))) = true at h
    simp only [Bool.or_eq_true, Bool.and_eq_true, decide_eq_true_eq,
      UInt32.le_iff_toNat_le] at h
    have upper : 'Z'.toNat = 90 := rfl
    have lower : 'z'.toNat = 122 := rfl
    simp only [Char.toNat_val] at h
    omega
  simp [isAlphabetic, small, h]

theorem isNumeric_of_isDigit {c : Char} (h : c.isDigit) : isNumeric c := by
  have small : c.toNat < 128 := by
    have := Char.isDigit_iff_toNat.1 h
    have nine : '9'.toNat = 57 := rfl
    omega
  simp [isNumeric, small, h]

def isAlphanumeric (c : Char) : Bool := isAlphabetic c || isNumeric c

end Comparand.Text
