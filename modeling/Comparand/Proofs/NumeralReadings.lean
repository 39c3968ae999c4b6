import Comparand.Proofs.Positional
import Comparand.Proofs.Sameness

/-!
# What numerals read as

Every numeral of the grammar is read, and nothing else that begins with a digit or a point. It has no
sign, so what it reads as is a double that is not negative, or infinity where the numeral is too
large for a double.
-/
namespace Comparand
open Formula (AllDigits IsMantissa IsExponent IsNumeral digitRun)

namespace Binary64
open Float.Model (UnpackedFloat)
open Float.Model.UnpackedFloat (Sign unpackSign)

theorem zero_le_of_isNegative {x : Float} (finite : x.isFinite) (h : isNegative x = false) :
    0 ≤ x := by
  let b : BitVec 64 := x.toBits.toBitVec
  have hsign : Sign.ofBitVec (@unpackSign .binary64 b) = .positive := by
    rw [ofBitVec_unpackSign, h]
    rfl
  rw [le_iff_unpack, unpack_zero]
  change UnpackedFloat.le (.zero .positive) (UnpackedFloat.unpack .binary64 b)
  rcases unpack_cases b with ⟨-, -, hb⟩ | ⟨top, -, -⟩ | ⟨-, -, hb⟩ | ⟨-, _, hb⟩ | ⟨-, -, _, hb⟩
  · rw [hb, hsign]
    rfl
  · have hexponent := toNat_unpackExponent b
    rw [top] at hexponent
    exact absurd hexponent.symm (isFinite_iff_exponentField.mp finite)
  all_goals
    rw [hb, hsign]
    rfl

end Binary64

namespace Decimal

theorem takeWhile_digits_append {digits rest : List Char} (h : AllDigits digits)
    (ends : digitRun rest = 0) :
    (digits ++ rest).takeWhile Char.isDigit = digits ∧
      (digits ++ rest).dropWhile Char.isDigit = rest := by
  have hnone : rest.takeWhile Char.isDigit = [] := List.length_eq_zero_iff.mp ends
  have hrest := List.takeWhile_append_dropWhile (p := Char.isDigit) (l := rest)
  rw [hnone, List.nil_append] at hrest
  rw [List.takeWhile_append_of_pos h, List.dropWhile_append_of_pos h, hnone, hrest]
  exact ⟨List.append_nil digits, rfl⟩

theorem isSome_exponentPart? {exponent : List Char} (h : IsExponent exponent) :
    (exponentPart? exponent).isSome := by
  cases h with
  | absent => rfl
  | @marked marker sign digits hmarker hsign some_digits hdigits =>
    obtain ⟨negative, hsplit⟩ : ∃ negative, splitSign (sign ++ digits) = (negative, digits) := by
      obtain ⟨c, cs, rfl⟩ := List.exists_cons_of_ne_nil some_digits
      rcases hsign with rfl | rfl | rfl
      · exact ⟨false, splitSign_of_isDigit (hdigits c (by simp)) cs⟩
      · exact ⟨false, rfl⟩
      · exact ⟨true, rfl⟩
    have hall : digits.all Char.isDigit := List.all_eq_true.mpr hdigits
    simp [exponentPart?, hsplit, hmarker, some_digits, hall]

theorem isSome_unsigned? {text : List Char} (h : IsNumeral text) : (unsigned? text).isSome := by
  obtain ⟨mantissa, exponent, hm, he, rfl⟩ := h
  have hexponent := isSome_exponentPart? he
  cases hm with
  | whole some_digits hdigits =>
    obtain ⟨htake, hdrop⟩ := takeWhile_digits_append hdigits he.digitRun_eq_zero
    simp only [unsigned?, htake, hdrop]
    cases he with
    | absent => simp [some_digits, exponentPart?]
    | marked hmarker => rcases hmarker with rfl | rfl <;> simpa [some_digits] using hexponent
  | @pointed digits fraction some_digits hdigits hfraction =>
    obtain ⟨htake, hdrop⟩ := takeWhile_digits_append hdigits
      (Formula.digitRun_cons_eq_zero (c := '.') rfl (fraction ++ exponent))
    obtain ⟨htake', hdrop'⟩ := takeWhile_digits_append hfraction he.digitRun_eq_zero
    have hnone : ¬ (digits = [] ∧ fraction = []) := by
      rintro ⟨hempty, hempty'⟩
      exact some_digits.elim (fun h => h hempty) fun h => h hempty'
    rw [List.append_assoc, List.cons_append]
    simp only [unsigned?, htake, hdrop, htake', hdrop', if_neg hnone, Option.isSome_map]
    exact hexponent

theorem exists_sign (text : List Char) :
    ∃ sign, (sign = [] ∨ sign = ['+'] ∨ sign = ['-']) ∧ text = sign ++ (splitSign text).2 := by
  unfold splitSign
  split
  · exact ⟨['-'], by simp, rfl⟩
  · exact ⟨['+'], by simp, rfl⟩
  · exact ⟨[], by simp, rfl⟩

theorem isExponent_of_isSome {text : List Char} (h : (exponentPart? text).isSome) :
    IsExponent text := by
  cases text with
  | nil => exact .absent
  | cons marker rest =>
    obtain ⟨sign, hsign, hrest⟩ := exists_sign rest
    simp only [exponentPart?] at h
    split at h
    · rename_i marked
      rw [hrest]
      exact .marked marked.1 hsign marked.2.1 (List.all_eq_true.mp marked.2.2)
    · cases h

/-- Nothing is read without its sign but what the grammar describes. -/
theorem isNumeral_of_isSome {text : List Char} (h : (unsigned? text).isSome) :
    IsNumeral text := by
  have htext := List.takeWhile_append_dropWhile (p := Char.isDigit) (l := text)
  have hwhole : AllDigits (text.takeWhile Char.isDigit) := fun c => List.mem_takeWhile_imp
  simp only [unsigned?] at h
  generalize text.takeWhile Char.isDigit = whole at htext hwhole h
  generalize text.dropWhile Char.isDigit = rest at htext h
  subst htext
  split at h
  · rename_i rest
    have hrest := List.takeWhile_append_dropWhile (p := Char.isDigit) (l := rest)
    have hfraction : AllDigits (rest.takeWhile Char.isDigit) := fun c => List.mem_takeWhile_imp
    split at h
    · cases h
    · rename_i some_digits
      rw [Option.isSome_map] at h
      refine ⟨whole ++ '.' :: rest.takeWhile Char.isDigit, rest.dropWhile Char.isDigit,
        .pointed (not_and_or.mp some_digits) hwhole hfraction, isExponent_of_isSome h, ?_⟩
      rw [List.append_assoc, List.cons_append, hrest]
  · split at h
    · cases h
    · rename_i some_digits
      rw [Option.isSome_map] at h
      exact ⟨whole, _, .whole some_digits hwhole, isExponent_of_isSome h, rfl⟩

theorem read?_of_begins {c : Char} (h : c.isDigit ∨ c = '.') (rest : List Char) :
    read? (c :: rest) = (unsigned? (c :: rest)).map fun (m, e) => toFloat false m e := by
  refine read?_of_splitSign ?_ h
  rcases h with hdigit | rfl
  · exact splitSign_of_isDigit hdigit rest
  · rfl

theorem exists_read?_of_isNumeral {text : List Char} (h : IsNumeral text) :
    ∃ bits ≤ Binary64.infinityBits, read? text = some (Binary64.ofMagnitudeBits false bits) := by
  obtain ⟨⟨mantissa, exponent⟩, hunsigned⟩ := Option.isSome_iff_exists.mp (isSome_unsigned? h)
  obtain ⟨bits, hle, hfloat⟩ := exists_toFloat_eq mantissa exponent
  obtain ⟨c, rest, rfl, hc⟩ := h.exists_cons
  refine ⟨bits, hle, ?_⟩
  rw [read?_of_begins hc rest, hunsigned, Option.map_some]
  exact congrArg some (hfloat false)

/-- A numeral reads as a finite double that is not negative, or it is too large for one. -/
theorem read?_cases_of_isNumeral {text : List Char} (h : IsNumeral text) :
    (∃ value, read? text = some value ∧ value.isFinite ∧ 0 ≤ value) ∨
      read? text = some (Binary64.infinity false) := by
  obtain ⟨bits, hle, hread⟩ := exists_read?_of_isNumeral h
  rcases Nat.lt_or_eq_of_le hle with finite | rfl
  · have hfinite : (Binary64.ofMagnitudeBits false bits).isFinite :=
      (Binary64.isFinite_ofMagnitudeBits_iff hle).mpr finite
    exact .inl ⟨_, hread, hfinite,
      Binary64.zero_le_of_isNegative hfinite (Binary64.isNegative_ofMagnitudeBits false hle)⟩
  · exact .inr hread

end Decimal

end Comparand
