import Comparand.Number.Shortest
import Comparand.Proofs.Numerals
import Comparand.Proofs.Rounding

/-!
# Positional texts read back

The digits that are chosen for a finite double read back to it, by choice or because all of them are
written out. Positional notation keeps their value, and it is a numeral without an exponent.
-/
namespace Comparand
open Formula (AllDigits IsMantissa)

namespace Decimal

/-! ## Reading digits -/

theorem splitSign_of_isDigit {c : Char} (h : c.isDigit) (rest : List Char) :
    splitSign (c :: rest) = (false, c :: rest) := by
  unfold splitSign
  split
  · rename_i heq
    obtain rfl := (List.cons.inj heq).1
    cases h
  · rename_i heq
    obtain rfl := (List.cons.inj heq).1
    cases h
  · rfl

/-- What begins with a digit or a point behind its sign is no word but a numeral. -/
theorem read?_of_splitSign {text rest : List Char} {negative : Bool} {c : Char}
    (hsign : splitSign text = (negative, c :: rest)) (h : c.isDigit ∨ c = '.') :
    read? text = (unsigned? (c :: rest)).map fun (m, e) => toFloat negative m e := by
  have hlower : c.toLower = c := by
    refine dif_neg ?_
    rintro ⟨hge, -⟩
    have hupper := UInt32.le_iff_toNat_le.mp hge
    rcases h with hdigit | rfl
    · exact absurd (Nat.le_trans hupper (Char.isDigit_iff_toNat.mp hdigit).2) (by decide)
    · exact absurd hupper (by decide)
  have hword : ∀ d word, ¬ (d.isDigit ∨ d = '.') →
      ¬ (c :: rest).map Char.toLower = d :: word := by
    intro d word hd heq
    rw [List.map_cons, hlower] at heq
    obtain rfl := (List.cons.inj heq).1
    exact hd h
  have inf : ¬ ((c :: rest).map Char.toLower = "inf".toList ∨
      (c :: rest).map Char.toLower = "infinity".toList) := by
    rintro (heq | heq)
    · exact hword 'i' _ (by decide) heq
    · exact hword 'i' _ (by decide) heq
  have nan : ¬ (c :: rest).map Char.toLower = "nan".toList := hword 'n' _ (by decide)
  simp only [read?, hsign]
  rw [if_neg inf, if_neg nan]

theorem read?_of_isDigit {c : Char} (h : c.isDigit) (rest : List Char) :
    read? (c :: rest) = (unsigned? (c :: rest)).map fun (m, e) => toFloat false m e :=
  read?_of_splitSign (splitSign_of_isDigit h rest) (.inl h)

theorem takeWhile_digits {digits : List Char} (h : AllDigits digits) :
    digits.takeWhile Char.isDigit = digits :=
  List.takeWhile_eq_self_iff.mpr h

theorem unsigned?_whole {digits : List Char} (some_digits : digits ≠ []) (h : AllDigits digits) :
    unsigned? digits = some (ofDigits digits, 0) := by
  have hdrop : digits.dropWhile Char.isDigit = [] := List.dropWhile_eq_nil_iff.mpr h
  simp [unsigned?, hdrop, takeWhile_digits h, some_digits, exponentPart?]

theorem unsigned?_pointed {whole fraction : List Char} (some_digits : whole ≠ [])
    (hwhole : AllDigits whole) (hfraction : AllDigits fraction) :
    unsigned? (whole ++ '.' :: fraction) =
      some (ofDigits (whole ++ fraction), 0 - (fraction.length : Int)) := by
  have htake : (whole ++ '.' :: fraction).takeWhile Char.isDigit = whole := by
    rw [List.takeWhile_append_of_pos hwhole]
    simp
  have hdrop : (whole ++ '.' :: fraction).dropWhile Char.isDigit = '.' :: fraction := by
    rw [List.dropWhile_append_of_pos hwhole]
    rfl
  have hnone : fraction.dropWhile Char.isDigit = [] := List.dropWhile_eq_nil_iff.mpr hfraction
  simp [unsigned?, htake, hdrop, hnone, takeWhile_digits hfraction, some_digits, exponentPart?]

theorem ofDigits_toDigits (n : Nat) : ofDigits (Nat.toDigits 10 n) = n :=
  Nat.ofDigitChars_ten_toDigits

theorem ofDigits_append_zeros (digits : List Char) (n : Nat) :
    ofDigits (digits ++ List.replicate n '0') = ofDigits digits * 10 ^ n := by
  rw [ofDigits, Nat.ofDigitChars_append, Nat.ofDigitChars_replicate_zero, Nat.mul_comm, ofDigits]

theorem ofDigits_zeros_append (digits : List Char) (n : Nat) :
    ofDigits (List.replicate n '0' ++ digits) = ofDigits digits := by
  rw [ofDigits, Nat.ofDigitChars_append, Nat.ofDigitChars_replicate_zero, Nat.mul_zero, ofDigits]

theorem exists_toFloat_eq (mantissa : Nat) (exponent : Int) :
    ∃ bits ≤ Binary64.infinityBits, ∀ negative,
      toFloat negative mantissa exponent = Binary64.ofMagnitudeBits negative bits := by
  by_cases hzero : mantissa = 0
  · exact ⟨_, Binary64.nearestBits_le 0 1, fun negative => by
      simp [toFloat, hzero, Binary64.ofRatio]⟩
  · cases exponent with
    | ofNat e =>
      by_cases large : 400 < e
      · exact ⟨_, Nat.le_refl _, fun negative => by simp [toFloat, hzero, large, Binary64.infinity]⟩
      · exact ⟨_, Binary64.nearestBits_le (mantissa * 10 ^ e) 1, fun negative => by
          simp [toFloat, hzero, large, Binary64.ofRatio]⟩
    | negSucc e =>
      by_cases small : mantissa.log2 + 1100 < 3 * (e + 1)
      · exact ⟨_, Binary64.nearestBits_le 0 1, fun negative => by
          simp [toFloat, hzero, small, Binary64.ofRatio]⟩
      · exact ⟨_, Binary64.nearestBits_le mantissa (10 ^ (e + 1)), fun negative => by
          simp [toFloat, hzero, small, Binary64.ofRatio]⟩

/-- Zeros written out stand for the power of ten, unless the number is too large anyway. -/
theorem toFloat_scaled {mantissa e : Nat} (finite : (toFloat false mantissa (.ofNat e)).isFinite) :
    toFloat false (mantissa * 10 ^ e) 0 = toFloat false mantissa (.ofNat e) := by
  by_cases hzero : mantissa = 0
  · simp [toFloat, hzero]
  · have hne : mantissa * 10 ^ e ≠ 0 := Nat.mul_ne_zero hzero (Nat.pos_iff_ne_zero.mp (by simp))
    have hsmall : ¬ 400 < e := by
      intro large
      simp only [toFloat, hzero, large, if_true, if_false, Binary64.infinity] at finite
      rw [Binary64.isFinite_ofMagnitudeBits_iff (Nat.le_refl _)] at finite
      exact Nat.lt_irrefl _ finite
    simp [toFloat, hne, hzero, hsmall]

theorem toFloat_true (mantissa : Nat) (exponent : Int) :
    toFloat true mantissa exponent = -toFloat false mantissa exponent := by
  obtain ⟨bits, hle, hfloat⟩ := exists_toFloat_eq mantissa exponent
  rw [hfloat, hfloat, Binary64.neg_ofMagnitudeBits hle]

theorem isFinite_toFloat (negative : Bool) (mantissa : Nat) (exponent : Int) :
    (toFloat negative mantissa exponent).isFinite = (toFloat false mantissa exponent).isFinite := by
  obtain ⟨bits, hle, hfloat⟩ := exists_toFloat_eq mantissa exponent
  rw [Bool.eq_iff_iff, hfloat, hfloat, Binary64.isFinite_ofMagnitudeBits_iff hle,
    Binary64.isFinite_ofMagnitudeBits_iff hle]

end Decimal

namespace Shortest

/-! ## Choosing digits -/

theorem exponent_ge (x : Float) : -1074 ≤ Binary64.exponent x := by
  unfold Binary64.exponent
  omega

theorem toFloat_of_ratio_eq {x : Float} (finite : x.isFinite) {num den : Nat} (hden : 0 < den)
    (equal : (num / den : ℚ) = Binary64.significand x * 2 ^ Binary64.exponent x) :
    Binary64.ofRatio (Binary64.isNegative x) num den = x := by
  rw [Binary64.ofRatio, Binary64.nearestBits_of_eq finite hden equal]
  exact (Binary64.eq_ofMagnitudeBits finite).symm

/-- All digits of a double read back to it. -/
theorem toFloat_exact {x : Float} (finite : x.isFinite) (nonzero : Binary64.significand x ≠ 0) :
    Decimal.toFloat (Binary64.isNegative x) (exact x).1 (exact x).2 = x := by
  have hge := exponent_ge x
  cases hexponent : Binary64.exponent x with
  | ofNat e =>
    have hexact : exact x = (Binary64.significand x * 2 ^ e, 0) := by
      rw [exact, hexponent]
    have hne : Binary64.significand x * 2 ^ e ≠ 0 :=
      Nat.mul_ne_zero nonzero (Nat.pos_iff_ne_zero.mp (Nat.two_pow_pos e))
    rw [hexact]
    simp only [Decimal.toFloat, hne, if_false]
    apply toFloat_of_ratio_eq finite Nat.one_pos
    rw [hexponent]
    simp
  | negSucc e =>
    rw [hexponent] at hge
    have hexact : exact x = (Binary64.significand x * 5 ^ (e + 1), .negSucc e) := by
      rw [exact, hexponent]
    have hne : Binary64.significand x * 5 ^ (e + 1) ≠ 0 :=
      Nat.mul_ne_zero nonzero (Nat.pos_iff_ne_zero.mp (Nat.pow_pos (by decide)))
    have hlog : 2 * (e + 1) ≤ (Binary64.significand x * 5 ^ (e + 1)).log2 := by
      rw [Nat.le_log2 hne, Nat.pow_mul]
      calc (2 ^ 2) ^ (e + 1) ≤ 5 ^ (e + 1) := Nat.pow_le_pow_left (by decide) _
        _ ≤ Binary64.significand x * 5 ^ (e + 1) :=
          Nat.le_mul_of_pos_left _ (Nat.pos_iff_ne_zero.mpr nonzero)
    have hsmall : ¬ (Binary64.significand x * 5 ^ (e + 1)).log2 + 1100 < 3 * (e + 1) := by omega
    rw [hexact]
    simp only [Decimal.toFloat, hne, hsmall, if_false]
    apply toFloat_of_ratio_eq finite (Nat.pow_pos (by decide))
    rw [hexponent, zpow_negSucc]
    push_cast
    rw [show (10 : ℚ) = 2 * 5 by norm_num, mul_pow]
    field_simp

theorem toFloat_digits {x : Float} (tie : Tie) (finite : x.isFinite)
    (nonzero : Binary64.significand x ≠ 0) :
    Decimal.toFloat (Binary64.isNegative x) (digits tie x).1 (digits tie x).2 = x := by
  unfold digits
  cases hfind : (List.range' 1 17).findSome? (withDigits? tie x) with
  | none => exact toFloat_exact finite nonzero
  | some found =>
    obtain ⟨count, -, hcount⟩ := List.exists_of_findSome?_eq_some hfind
    have hreads := List.find?_some hcount
    exact of_decide_eq_true hreads

/-! ## Writing digits out -/

theorem allDigits_toDigits (n : Nat) : AllDigits (Nat.toDigits 10 n) :=
  fun _ hc => Nat.isDigit_of_mem_toDigits (by decide) (by decide) hc

theorem allDigits_zeros (n : Nat) : AllDigits (List.replicate n '0') := by
  intro c hc
  rw [(List.mem_replicate.mp hc).2]
  rfl

/-- A layout has no point when nothing stands behind it, and digits in front of it otherwise. -/
theorem layout_cases (mantissa : Nat) (exponent : Int) :
    (∃ e digits, exponent = .ofNat e ∧ layout mantissa exponent = digits ∧ digits ≠ [] ∧
      AllDigits digits ∧ Decimal.ofDigits digits = mantissa * 10 ^ e) ∨
    ∃ e whole fraction, exponent = .negSucc e ∧
      layout mantissa exponent = whole ++ '.' :: fraction ∧ whole ≠ [] ∧ AllDigits whole ∧
      AllDigits fraction ∧ fraction.length = e + 1 ∧
      Decimal.ofDigits (whole ++ fraction) = mantissa := by
  have hdigits := allDigits_toDigits mantissa
  have some_digits : Nat.toDigits 10 mantissa ≠ [] := Nat.toDigits_ne_nil
  cases exponent with
  | ofNat e =>
    left
    by_cases hzero : mantissa = 0
    · refine ⟨e, Nat.toDigits 10 mantissa, rfl, by simp [layout, hzero], some_digits, hdigits, ?_⟩
      rw [Decimal.ofDigits_toDigits, hzero, Nat.zero_mul]
    · refine ⟨e, Nat.toDigits 10 mantissa ++ List.replicate e '0', rfl, by simp [layout, hzero],
        by simp [some_digits], hdigits.append (allDigits_zeros e), ?_⟩
      rw [Decimal.ofDigits_append_zeros, Decimal.ofDigits_toDigits]
  | negSucc e =>
    right
    by_cases long : e + 1 < (Nat.toDigits 10 mantissa).length
    · refine ⟨e, (Nat.toDigits 10 mantissa).take ((Nat.toDigits 10 mantissa).length - (e + 1)),
        (Nat.toDigits 10 mantissa).drop ((Nat.toDigits 10 mantissa).length - (e + 1)), rfl,
        by simp [layout, long], ?_, fun c hc => hdigits c (List.mem_of_mem_take hc),
        fun c hc => hdigits c (List.mem_of_mem_drop hc), ?_, ?_⟩
      · exact List.ne_nil_of_length_pos (by rw [List.length_take]; omega)
      · rw [List.length_drop]
        omega
      · rw [List.take_append_drop, Decimal.ofDigits_toDigits]
    · refine ⟨e, ['0'], List.replicate (e + 1 - (Nat.toDigits 10 mantissa).length) '0' ++
        Nat.toDigits 10 mantissa, rfl, by simp [layout, long], by simp, allDigits_zeros 1,
        (allDigits_zeros _).append hdigits, ?_, ?_⟩
      · rw [List.length_append, List.length_replicate]
        omega
      · rw [← List.append_assoc]
        change Decimal.ofDigits (List.replicate 1 '0' ++ _ ++ _) = _
        rw [List.append_assoc, Decimal.ofDigits_zeros_append, Decimal.ofDigits_zeros_append,
          Decimal.ofDigits_toDigits]

theorem isMantissa_layout (mantissa : Nat) (exponent : Int) :
    IsMantissa (layout mantissa exponent) := by
  rcases layout_cases mantissa exponent with
    ⟨_, digits, -, hlayout, some_digits, hdigits, -⟩ |
    ⟨_, whole, fraction, -, hlayout, some_digits, hwhole, hfraction, -, -⟩
  · exact hlayout ▸ .whole some_digits hdigits
  · exact hlayout ▸ .pointed (.inl some_digits) hwhole hfraction

theorem read?_layout {mantissa : Nat} {exponent : Int}
    (finite : (Decimal.toFloat false mantissa exponent).isFinite) :
    Decimal.read? (layout mantissa exponent) =
      some (Decimal.toFloat false mantissa exponent) := by
  rcases layout_cases mantissa exponent with
    ⟨e, digits, rfl, hlayout, some_digits, hdigits, hvalue⟩ |
    ⟨e, whole, fraction, rfl, hlayout, some_digits, hwhole, hfraction, hlength, hvalue⟩
  · obtain ⟨c, rest, rfl⟩ := List.exists_cons_of_ne_nil some_digits
    rw [hlayout, Decimal.read?_of_isDigit (hdigits c (by simp)),
      Decimal.unsigned?_whole some_digits hdigits, Option.map_some, hvalue]
    exact congrArg some (Decimal.toFloat_scaled finite)
  · obtain ⟨c, rest, rfl⟩ := List.exists_cons_of_ne_nil some_digits
    have hunsigned := Decimal.unsigned?_pointed some_digits hwhole hfraction
    rw [hvalue, hlength] at hunsigned
    rw [hlayout, List.cons_append, Decimal.read?_of_isDigit (hwhole c (by simp)),
      ← List.cons_append, hunsigned, Option.map_some,
      show (0 : Int) - (e + 1 : Nat) = .negSucc e by omega]

/-! ## Positional notation -/

theorem positionalMagnitude_eq_layout {x : Float} (finite : x.isFinite) :
    ∃ mantissa exponent, positionalMagnitude x = layout mantissa exponent ∧
      Decimal.toFloat (Binary64.isNegative x) mantissa exponent = x := by
  by_cases zero : Binary64.significand x = 0
  · refine ⟨0, 0, by rw [positionalMagnitude, if_pos zero]; rfl, ?_⟩
    have hratio : ((0 : Nat) / (1 : Nat) : ℚ) =
        Binary64.significand x * 2 ^ Binary64.exponent x := by simp [zero]
    exact toFloat_of_ratio_eq finite Nat.one_pos hratio
  · exact ⟨_, _, by rw [positionalMagnitude, if_neg zero], toFloat_digits .up finite zero⟩

/-- The text of a finite double without its sign is a numeral, and with its sign it reads back. -/
theorem read?_positionalMagnitude {x : Float} (finite : x.isFinite) :
    IsMantissa (positionalMagnitude x) ∧
      ∃ y, Decimal.read? (positionalMagnitude x) = some y ∧ y.isFinite ∧
        x = if Binary64.isNegative x then -y else y := by
  obtain ⟨mantissa, exponent, hlayout, hreads⟩ := positionalMagnitude_eq_layout finite
  have hfinite : (Decimal.toFloat false mantissa exponent).isFinite := by
    rw [← Decimal.isFinite_toFloat (Binary64.isNegative x), hreads]
    exact finite
  rw [hlayout]
  refine ⟨isMantissa_layout mantissa exponent, _, read?_layout hfinite, hfinite, ?_⟩
  cases hsign : Binary64.isNegative x with
  | false =>
    rw [hsign] at hreads
    exact hreads.symm
  | true =>
    rw [hsign, Decimal.toFloat_true] at hreads
    exact hreads.symm

end Shortest

end Comparand
