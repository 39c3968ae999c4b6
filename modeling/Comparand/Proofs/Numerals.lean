import Comparand.Formula.Numeral
import Mathlib.Data.List.TakeWhile

/-!
# The grammar of numerals

`numeralLength` measures what the grammar describes: what is cut off the head of a text is a
numeral, and a numeral with an end behind it is cut off whole. Nothing behind an end has an
influence on what is found in front of it.
-/
namespace Comparand.Formula

/-- Digits throughout, possibly none. -/
def AllDigits (text : List Char) : Prop := ∀ c ∈ text, c.isDigit

/-- `digit+`, `digit+ "." digit*` or `"." digit+`. -/
inductive IsMantissa : List Char → Prop
  | whole {digits : List Char} : digits ≠ [] → AllDigits digits → IsMantissa digits
  | pointed {digits fraction : List Char} :
      digits ≠ [] ∨ fraction ≠ [] → AllDigits digits → AllDigits fraction →
      IsMantissa (digits ++ '.' :: fraction)

/-- Nothing, or `("e" | "E") ("+" | "-")? digit+`. -/
inductive IsExponent : List Char → Prop
  | absent : IsExponent []
  | marked {marker : Char} {sign digits : List Char} :
      marker = 'e' ∨ marker = 'E' → sign = [] ∨ sign = ['+'] ∨ sign = ['-'] →
      digits ≠ [] → AllDigits digits → IsExponent (marker :: (sign ++ digits))

/-- A mantissa with an exponent or without one. -/
def IsNumeral (text : List Char) : Prop :=
  ∃ mantissa exponent, IsMantissa mantissa ∧ IsExponent exponent ∧ text = mantissa ++ exponent

/-- Some of the characters with which no numeral goes on. -/
def endsNumeral (c : Char) : Prop := c = ' ' ∨ c = ')' ∨ c = '*' ∨ c = '^'

theorem isDigit_of_endsNumeral {c : Char} (h : endsNumeral c) : c.isDigit = false := by
  rcases h with rfl | rfl | rfl | rfl <;> rfl

/-! ## Runs of digits -/

theorem AllDigits.append {xs ys : List Char} (hx : AllDigits xs) (hy : AllDigits ys) :
    AllDigits (xs ++ ys) :=
  fun c hc => (List.mem_append.mp hc).elim (hx c) (hy c)

theorem digitRun_le (text : List Char) : digitRun text ≤ text.length := by
  rw [digitRun]
  exact (List.takeWhile_sublist _).length_le

theorem allDigits_take_digitRun (text : List Char) : AllDigits (text.take (digitRun text)) := by
  rw [digitRun, ← List.prefix_iff_eq_take.mp (List.takeWhile_prefix _)]
  exact fun c hc => List.mem_takeWhile_imp hc

theorem digitRun_append {digits : List Char} (h : AllDigits digits) (rest : List Char) :
    digitRun (digits ++ rest) = digits.length + digitRun rest := by
  rw [digitRun, List.takeWhile_append_of_pos h, List.length_append, digitRun]

theorem digitRun_cons_eq_zero {c : Char} (h : c.isDigit = false) (rest : List Char) :
    digitRun (c :: rest) = 0 := by
  simp [digitRun, h]

theorem digitRun_append_of_endsNumeral {d : Char} (hd : endsNumeral d) (text rest : List Char) :
    digitRun (text ++ d :: rest) = digitRun text := by
  have hstop := isDigit_of_endsNumeral hd
  induction text with
  | nil => exact digitRun_cons_eq_zero hstop rest
  | cons c text ih =>
    simp only [digitRun, List.cons_append, List.takeWhile_cons] at ih ⊢
    split
    · simp [ih]
    · rfl

/-! ## Fractions -/

theorem fractionLength_le (text : List Char) : fractionLength text ≤ text.length := by
  unfold fractionLength
  split
  · rename_i rest
    have := digitRun_le rest
    simp only [List.length_cons]
    omega
  · exact Nat.zero_le _

theorem fractionLength_eq_zero {c : Char} (h : c ≠ '.') (rest : List Char) :
    fractionLength (c :: rest) = 0 := by
  unfold fractionLength
  split
  · rename_i heq
    exact (h (List.cons.inj heq).1).elim
  · rfl

/-- A fraction is missing, or a point with digits behind it. -/
theorem take_fractionLength (text : List Char) :
    fractionLength text = 0 ∨
      ∃ digits, AllDigits digits ∧ fractionLength text = 1 + digits.length ∧
        text.take (fractionLength text) = '.' :: digits := by
  unfold fractionLength
  split
  · rename_i rest
    refine .inr ⟨rest.take (digitRun rest), allDigits_take_digitRun rest, ?_, ?_⟩
    · rw [List.length_take, Nat.min_eq_left (digitRun_le rest)]
    · rw [Nat.add_comm, List.take_succ_cons]
  · exact .inl rfl

theorem fractionLength_append_of_endsNumeral {d : Char} (hd : endsNumeral d)
    (text rest : List Char) :
    fractionLength (text ++ d :: rest) = fractionLength text := by
  cases text with
  | nil => rcases hd with rfl | rfl | rfl | rfl <;> rfl
  | cons c text =>
    by_cases hc : c = '.'
    · subst hc
      simp only [List.cons_append, fractionLength, digitRun_append_of_endsNumeral hd]
    · rw [List.cons_append, fractionLength_eq_zero hc, fractionLength_eq_zero hc]

/-! ## Exponents -/

def signLength : List Char → Nat
  | '+' :: _ => 1
  | '-' :: _ => 1
  | _ => 0

theorem exponentLength_cons (marker : Char) (rest : List Char) :
    exponentLength (marker :: rest) =
      if marker = 'e' ∨ marker = 'E' then
        if digitRun (rest.drop (signLength rest)) = 0 then 0
        else 1 + signLength rest + digitRun (rest.drop (signLength rest))
      else 0 := rfl

theorem signLength_le (text : List Char) : signLength text ≤ text.length := by
  unfold signLength
  split <;> simp

theorem take_signLength (text : List Char) :
    text.take (signLength text) = [] ∨ text.take (signLength text) = ['+'] ∨
      text.take (signLength text) = ['-'] := by
  unfold signLength
  split <;> simp

theorem signLength_eq_zero {c : Char} (h : c.isDigit) (rest : List Char) :
    signLength (c :: rest) = 0 := by
  unfold signLength
  split
  · rename_i heq
    obtain rfl := (List.cons.inj heq).1
    cases h
  · rename_i heq
    obtain rfl := (List.cons.inj heq).1
    cases h
  · rfl

theorem signLength_append_of_endsNumeral {d : Char} (hd : endsNumeral d) (text rest : List Char) :
    signLength (text ++ d :: rest) = signLength text := by
  cases text with
  | nil => rcases hd with rfl | rfl | rfl | rfl <;> rfl
  | cons c text =>
    rw [List.cons_append]
    unfold signLength
    split <;> split <;> simp_all

theorem exponentLength_le (text : List Char) : exponentLength text ≤ text.length := by
  cases text with
  | nil => exact Nat.le_refl _
  | cons marker rest =>
    have hsign := signLength_le rest
    have hdigits := digitRun_le (rest.drop (signLength rest))
    rw [List.length_drop] at hdigits
    rw [exponentLength_cons, List.length_cons]
    split
    · split <;> omega
    · omega

theorem isExponent_take (text : List Char) : IsExponent (text.take (exponentLength text)) := by
  cases text with
  | nil => exact .absent
  | cons marker rest =>
    rw [exponentLength_cons]
    split
    · rename_i hmarker
      split
      · exact .absent
      · rename_i some_digits
        rw [show 1 + signLength rest + digitRun (rest.drop (signLength rest)) =
            signLength rest + digitRun (rest.drop (signLength rest)) + 1 by omega,
          List.take_succ_cons, List.take_add]
        refine .marked hmarker (take_signLength rest) ?_ (allDigits_take_digitRun _)
        have := digitRun_le (rest.drop (signLength rest))
        exact List.ne_nil_of_length_pos (by rw [List.length_take]; omega)
    · exact .absent

theorem IsExponent.length_le {exponent : List Char} (h : IsExponent exponent) (rest : List Char) :
    exponent.length ≤ exponentLength (exponent ++ rest) := by
  cases h with
  | absent => exact Nat.zero_le _
  | @marked marker sign digits hmarker hsign some_digits hdigits =>
    obtain ⟨c, cs, rfl⟩ := List.exists_cons_of_ne_nil some_digits
    have hc : c.isDigit := hdigits c (by simp)
    have hlength : signLength (sign ++ (c :: cs ++ rest)) = sign.length := by
      rcases hsign with rfl | rfl | rfl
      · exact signLength_eq_zero hc _
      · rfl
      · rfl
    rw [List.cons_append, List.append_assoc, exponentLength_cons, if_pos hmarker, hlength,
      List.drop_left, digitRun_append hdigits, if_neg (by simp)]
    simp only [List.length_cons, List.length_append]
    omega

theorem IsExponent.digitRun_eq_zero {text : List Char} (h : IsExponent text) :
    digitRun text = 0 := by
  cases h with
  | absent => rfl
  | marked hmarker => rcases hmarker with rfl | rfl <;> exact digitRun_cons_eq_zero rfl _

theorem exponentLength_append_of_endsNumeral {d : Char} (hd : endsNumeral d)
    (text rest : List Char) :
    exponentLength (text ++ d :: rest) = exponentLength text := by
  cases text with
  | nil => rcases hd with rfl | rfl | rfl | rfl <;> rfl
  | cons marker text =>
    rw [List.cons_append, exponentLength_cons, exponentLength_cons,
      signLength_append_of_endsNumeral hd, List.drop_append_of_le_length (signLength_le text),
      digitRun_append_of_endsNumeral hd]

/-! ## Numerals -/

theorem IsNumeral.exists_cons {text : List Char} (h : IsNumeral text) :
    ∃ c rest, text = c :: rest ∧ (c.isDigit ∨ c = '.') := by
  obtain ⟨_, exponent, hm, -, rfl⟩ := h
  cases hm with
  | whole some_digits hdigits =>
    obtain ⟨c, cs, rfl⟩ := List.exists_cons_of_ne_nil some_digits
    exact ⟨c, cs ++ exponent, rfl, .inl (hdigits c (by simp))⟩
  | @pointed digits fraction _ hdigits =>
    cases digits with
    | nil => exact ⟨_, _, rfl, .inr rfl⟩
    | cons c cs => exact ⟨_, _, rfl, .inl (hdigits c (by simp))⟩

theorem numeralLength_le (text : List Char) : numeralLength text ≤ text.length := by
  have hwhole := digitRun_le text
  have hfraction := fractionLength_le (text.drop (digitRun text))
  have hexponent := exponentLength_le
    (text.drop (digitRun text + fractionLength (text.drop (digitRun text))))
  simp only [List.length_drop] at hfraction hexponent
  simp only [numeralLength]
  split <;> omega

/-- What is cut off the head of a text is a numeral. -/
theorem isNumeral_take {text : List Char} (h : 0 < numeralLength text) :
    IsNumeral (text.take (numeralLength text)) := by
  simp only [numeralLength] at h ⊢
  split at h
  · cases h
  · rename_i found
    rw [if_neg found, List.take_add, List.take_add]
    have hwhole := allDigits_take_digitRun text
    have hle := digitRun_le text
    refine ⟨_, _, ?_, isExponent_take _, rfl⟩
    rcases take_fractionLength (text.drop (digitRun text)) with hnone | ⟨digits, hd, hl, htake⟩
    · rw [hnone, List.take_zero, List.append_nil]
      refine .whole (List.ne_nil_of_length_pos ?_) hwhole
      rw [List.length_take]
      omega
    · rw [htake]
      refine .pointed ?_ hwhole hd
      by_contra hempty
      simp only [not_or, not_not] at hempty
      have := congrArg List.length hempty.1
      simp only [List.length_take, List.length_nil] at this
      simp only [hl, hempty.2, List.length_nil] at found
      omega

/-- The runs of digits in a mantissa with any text behind it, and whether they end with it. -/
theorem IsMantissa.exists_lengths {mantissa : List Char} (h : IsMantissa mantissa)
    (rest : List Char) :
    ∃ whole fraction, digitRun (mantissa ++ rest) = whole ∧
      fractionLength ((mantissa ++ rest).drop whole) = fraction ∧
      ¬ (whole = 0 ∧ fraction ≤ 1) ∧ mantissa.length ≤ whole + fraction ∧
      (digitRun rest = 0 → fractionLength rest = 0 → whole + fraction = mantissa.length) := by
  cases h with
  | whole some_digits hdigits =>
    have hpositive := List.length_pos_iff.mpr some_digits
    refine ⟨_, _, digitRun_append hdigits rest, rfl, by omega, by omega, fun hrun hfraction => ?_⟩
    rw [hrun, Nat.add_zero, List.drop_left, hfraction, Nat.add_zero]
  | @pointed digits fraction some_digits hdigits hfraction =>
    have hrun : digitRun (digits ++ '.' :: fraction ++ rest) = digits.length := by
      rw [List.append_assoc, digitRun_append hdigits, List.cons_append,
        digitRun_cons_eq_zero rfl, Nat.add_zero]
    have hlength : fractionLength ((digits ++ '.' :: fraction ++ rest).drop digits.length) =
        1 + (fraction.length + digitRun rest) := by
      rw [List.append_assoc, List.drop_left, List.cons_append, fractionLength,
        digitRun_append hfraction]
    have some_length : 0 < digits.length ∨ 0 < fraction.length :=
      some_digits.imp List.length_pos_iff.mpr List.length_pos_iff.mpr
    refine ⟨_, _, hrun, hlength, ?_, ?_, fun hrest _ => ?_⟩
    · omega
    · rw [List.length_append, List.length_cons]
      omega
    · rw [List.length_append, List.length_cons, hrest]
      omega

/-- No numeral at the head of a text is longer than the one that is cut off. -/
theorem IsNumeral.length_le {numeral : List Char} (h : IsNumeral numeral) (rest : List Char) :
    numeral.length ≤ numeralLength (numeral ++ rest) := by
  obtain ⟨mantissa, exponent, hm, he, rfl⟩ := h
  rw [List.append_assoc]
  obtain ⟨whole, fraction, hwhole, hfraction, found, hle, hends⟩ :=
    hm.exists_lengths (exponent ++ rest)
  simp only [numeralLength, hwhole, hfraction, if_neg found, List.length_append]
  have hexponent := he.length_le rest
  cases he with
  | absent =>
    rw [List.length_nil]
    omega
  | @marked marker sign digits hmarker =>
    have hrun : digitRun (marker :: (sign ++ digits) ++ rest) = 0 := by
      rcases hmarker with rfl | rfl <;> exact digitRun_cons_eq_zero rfl _
    have hpoint : fractionLength (marker :: (sign ++ digits) ++ rest) = 0 := by
      rcases hmarker with rfl | rfl <;> rfl
    rw [hends hrun hpoint, List.drop_left]
    omega

theorem numeralLength_eq_length {text : List Char} (h : IsNumeral text) :
    numeralLength text = text.length :=
  Nat.le_antisymm (numeralLength_le text) (by simpa using h.length_le [])

/-- A character that ends the numeral and what follows have no influence. -/
theorem numeralLength_append_of_endsNumeral {d : Char} (hd : endsNumeral d)
    (text rest : List Char) :
    numeralLength (text ++ d :: rest) = numeralLength text := by
  have hwhole := digitRun_le text
  have hfraction := fractionLength_le (text.drop (digitRun text))
  rw [List.length_drop] at hfraction
  simp only [numeralLength]
  rw [digitRun_append_of_endsNumeral hd, List.drop_append_of_le_length hwhole,
    fractionLength_append_of_endsNumeral hd, List.drop_append_of_le_length (by omega),
    exponentLength_append_of_endsNumeral hd]

end Comparand.Formula
