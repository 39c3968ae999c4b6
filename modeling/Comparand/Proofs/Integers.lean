import Comparand.Proofs.Rounding
import Mathlib

/-!
# Integers that are doubles

An integer below `2 ^ 53` in magnitude is a double, and no other integer has the same nearest
double. Beyond that an integer may still be a double, and if it is, that is the double that it is
converted to.
-/
namespace Comparand

namespace Binary64
variable {x y : Float} {n k : Int}

/-- The number that a finite double is. -/
def toRat (x : Float) : ℚ :=
  (if isNegative x then -1 else 1) * (significand x * 2 ^ exponent x)

/-- Whether a double is an integer, exactly. -/
def IsExactly (x : Float) (n : Int) : Prop := x.isFinite ∧ toRat x = n

theorem IsExactly.unique (hn : IsExactly x n) (hk : IsExactly x k) : n = k := by
  exact_mod_cast hn.2.symm.trans hk.2

theorem IsExactly.magnitude (h : IsExactly x n) :
    (significand x * 2 ^ exponent x : ℚ) = n.natAbs := by
  have hpos : (0 : ℚ) ≤ significand x * 2 ^ exponent x := by positivity
  have habs : |toRat x| = significand x * 2 ^ exponent x := by
    unfold toRat
    split <;> simp [abs_of_nonneg hpos]
  rw [← habs, h.2, Nat.cast_natAbs, Int.cast_abs]

theorem IsExactly.isNegative_eq (h : IsExactly x n) (nonzero : n ≠ 0) :
    isNegative x = decide (n < 0) := by
  have hpos : (0 : ℚ) ≤ significand x * 2 ^ exponent x := by positivity
  have hvalue := h.2
  unfold toRat at hvalue
  split at hvalue
  · rename_i negative
    have : (n : ℚ) ≤ 0 := by linarith
    have : n ≤ 0 := by exact_mod_cast this
    rw [negative, eq_comm, decide_eq_true_iff]
    omega
  · rename_i positive
    have : (0 : ℚ) ≤ n := by linarith
    have : 0 ≤ n := by exact_mod_cast this
    rw [Bool.eq_false_iff.mpr positive, eq_comm, decide_eq_false_iff_not]
    omega

/-! ## Small integers -/

theorem significand_and_exponent_ofMagnitudeBits (negative : Bool) {e m : Nat}
    (lower : 2 ^ 52 ≤ m) (upper : m < 2 ^ 53) (h : e * 2 ^ 52 + m ≤ infinityBits) :
    significand (ofMagnitudeBits negative (e * 2 ^ 52 + m)) = m ∧
      exponent (ofMagnitudeBits negative (e * 2 ^ 52 + m)) = e - 1074 := by
  have hfield : exponentField (ofMagnitudeBits negative (e * 2 ^ 52 + m)) = e + 1 := by
    rw [exponentField_ofMagnitudeBits negative h]
    omega
  have hfraction : fractionField (ofMagnitudeBits negative (e * 2 ^ 52 + m)) = m - 2 ^ 52 := by
    rw [fractionField_ofMagnitudeBits negative h]
    omega
  rw [significand, exponent, hfield, hfraction, if_neg (Nat.succ_ne_zero e)]
  omega

/-- A natural number below `2 ^ 53` fills the significand when it is shifted to the left. -/
theorem exists_magnitude_eq {n : Nat} (pos : 0 < n) (h : n < 2 ^ 53) :
    ∃ bits < infinityBits, ∀ negative,
      (significand (ofMagnitudeBits negative bits) : ℚ) *
        2 ^ exponent (ofMagnitudeBits negative bits) = n := by
  have hlog : n.log2 ≤ 52 :=
    Nat.le_of_lt_succ ((Nat.log2_lt (Nat.pos_iff_ne_zero.mp pos)).mpr h)
  have hshift : 2 ^ n.log2 * 2 ^ (52 - n.log2) = 2 ^ 52 := by
    rw [← Nat.pow_add, Nat.add_sub_cancel' hlog]
  have lower : 2 ^ 52 ≤ n * 2 ^ (52 - n.log2) := by
    rw [← hshift]
    exact Nat.mul_le_mul_right _ (Nat.log2_self_le (Nat.pos_iff_ne_zero.mp pos))
  have upper : n * 2 ^ (52 - n.log2) < 2 ^ 53 := by
    calc n * 2 ^ (52 - n.log2) < 2 ^ (n.log2 + 1) * 2 ^ (52 - n.log2) :=
          Nat.mul_lt_mul_of_pos_right Nat.lt_log2_self (Nat.two_pow_pos _)
      _ = 2 ^ 53 := by rw [Nat.pow_succ, Nat.mul_right_comm, hshift, ← Nat.pow_succ]
  have hlt : (n.log2 + 1022) * 2 ^ 52 + n * 2 ^ (52 - n.log2) < infinityBits := by
    unfold infinityBits
    omega
  refine ⟨_, hlt, fun negative => ?_⟩
  obtain ⟨hsignificand, hexponent⟩ :=
    significand_and_exponent_ofMagnitudeBits negative lower upper (Nat.le_of_lt hlt)
  have cancel : ((52 - n.log2 : Nat) : Int) + ((n.log2 + 1022 : Nat) - 1074) = 0 := by omega
  rw [hsignificand, hexponent, Nat.cast_mul, Nat.cast_pow, mul_assoc, Nat.cast_ofNat,
    ← zpow_natCast, ← zpow_add₀ two_ne_zero, cancel, zpow_zero, mul_one]

theorem exists_isExactly (h : n.natAbs < 2 ^ 53) : ∃ x, IsExactly x n := by
  by_cases hzero : n = 0
  · exact ⟨0, by decide +kernel, by simp [hzero, toRat, show significand 0 = 0 by decide +kernel]⟩
  · obtain ⟨bits, hlt, hbits⟩ := exists_magnitude_eq (Int.natAbs_pos.mpr hzero) h
    refine ⟨ofMagnitudeBits (n < 0) bits,
      (isFinite_ofMagnitudeBits_iff (Nat.le_of_lt hlt)).mpr hlt, ?_⟩
    rw [toRat, hbits, isNegative_ofMagnitudeBits _ (Nat.le_of_lt hlt)]
    by_cases negative : n < 0
    · simp [negative, abs_of_neg]
    · simp [negative, abs_of_nonneg (Int.not_lt.mp negative)]

/-! ## Conversion -/

/-- An integer that is a double is converted to it. -/
theorem ofInt_eq_of_isExactly (h : IsExactly x n) (nonzero : n ≠ 0) : ofInt n = x := by
  have hbits : nearestBits n.natAbs 1 = magnitudeBits x := by
    apply nearestBits_of_eq h.1 Nat.one_pos
    rw [h.magnitude, Nat.cast_one, div_one]
  rw [ofInt, ofRatio, hbits, ← h.isNegative_eq nonzero]
  exact (eq_ofMagnitudeBits h.1).symm

theorem isExactly_ofRatio_zero (negative : Bool) : IsExactly (ofRatio negative 0 1) 0 := by
  have hzero : ∀ negative, significand (ofRatio negative 0 1) = 0 := by decide +kernel
  have hfinite : ∀ negative, (ofRatio negative 0 1).isFinite := by decide +kernel
  exact ⟨hfinite negative, by simp [toRat, hzero]⟩

theorem isExactly_ofRatio {negative : Bool} {m : Nat} (h : ∃ x, IsExactly x n)
    (spelled : n = if negative then -(m : Int) else m) : IsExactly (ofRatio negative m 1) n := by
  by_cases hm : m = 0
  · obtain rfl : n = 0 := by simp [spelled, hm]
    rw [hm]
    exact isExactly_ofRatio_zero negative
  · obtain ⟨x, hx⟩ := h
    have hsign : decide (n < 0) = negative := by
      cases negative <;> simp at spelled ⊢ <;> omega
    have hmagnitude : n.natAbs = m := by
      cases negative <;> simp at spelled <;> omega
    have nonzero : n ≠ 0 := by omega
    have hconvert := ofInt_eq_of_isExactly hx nonzero
    rw [ofInt, hsign, hmagnitude] at hconvert
    rw [hconvert]
    exact hx

theorem isExactly_ofInt_iff : IsExactly (ofInt n) n ↔ ∃ x, IsExactly x n := by
  refine ⟨fun h => ⟨_, h⟩, fun h => isExactly_ofRatio h ?_⟩
  simp only [decide_eq_true_iff]
  split <;> omega

theorem isExactly_ofInt (h : n.natAbs < 2 ^ 53) : IsExactly (ofInt n) n :=
  isExactly_ofInt_iff.mpr (exists_isExactly h)

theorem ofInt_ne_nan (n : Int) : ofInt n ≠ Float.nan := by
  intro heq
  have hbits := toNat_toBits_ofMagnitudeBits (n < 0) (nearestBits_le n.natAbs 1)
  have hle := nearestBits_le n.natAbs 1
  have hnan : Float.nan.toBits.toNat = 0x7ff8000000000000 := by decide +kernel
  rw [← ofRatio, ← ofInt, heq, hnan] at hbits
  unfold infinityBits at hle
  split at hbits <;> omega

/-! ## No other integer -/

/-- Rounding does not lead below `2 ^ 53`. -/
theorem le_nearestBits {n : Nat} (h : 2 ^ 53 ≤ n) : 1076 * 2 ^ 52 ≤ nearestBits n 1 := by
  have pos : 0 < n := Nat.lt_of_lt_of_le (Nat.two_pow_pos 53) h
  obtain ⟨lower, upper⟩ := magnitude_spec pos Nat.one_pos
  have hmagnitude : 53 ≤ magnitude n 1 := by
    have hle : (2 : ℚ) ^ (53 : Int) ≤ n / (1 : Nat) := by
      rw [Nat.cast_one, div_one]
      exact_mod_cast h
    have := (zpow_lt_zpow_iff_right₀ one_lt_two).mp (hle.trans_lt upper)
    omega
  have hgrid : max (magnitude n 1 - 52) (-1074) = magnitude n 1 - 52 := by omega
  set e := magnitude n 1 - 52 with he
  have hden : 0 < (scaleDown n 1 e).2 := scaleDown_den_pos Nat.one_pos e
  have hscaled : 2 ^ 52 * (scaleDown n 1 e).2 ≤ (scaleDown n 1 e).1 := by
    have hpos : (0 : ℚ) < (scaleDown n 1 e).2 := by exact_mod_cast hden
    rw [← Nat.cast_le (α := ℚ), Nat.cast_mul, ← le_div_iff₀ hpos, scaleDown_ratio]
    calc ((2 ^ 52 : Nat) : ℚ) = 2 ^ magnitude n 1 * 2 ^ (-e) := by
          rw [← zpow_add₀ two_ne_zero, he]
          norm_num
      _ ≤ n / (1 : Nat) * 2 ^ (-e) := by gcongr
  have hround : 2 ^ 52 ≤ roundHalfEven (scaleDown n 1 e).1 (scaleDown n 1 e).2 := by
    have hfloor := (Nat.le_div_iff_mul_le hden).mpr hscaled
    unfold roundHalfEven
    dsimp only
    split <;> omega
  rw [nearestBits, if_neg (Nat.pos_iff_ne_zero.mp pos), hgrid]
  simp only [infinityBits, le_min_iff]
  omega

theorem IsExactly.magnitudeBits_lt (h : IsExactly x n) (small : n.natAbs < 2 ^ 53) :
    magnitudeBits x < 1076 * 2 ^ 52 := by
  by_contra hge
  have hfraction : fractionField x < 2 ^ 52 := Nat.mod_lt _ (Nat.two_pow_pos 52)
  have hfield : 1076 ≤ exponentField x := by
    unfold magnitudeBits at hge
    omega
  have hexponent : 1 ≤ exponent x := by
    unfold exponent
    omega
  have hsignificand : 2 ^ 52 ≤ significand x := by
    unfold significand
    split <;> omega
  have hlarge : ((2 ^ 53 : Nat) : ℚ) ≤ n.natAbs := by
    calc ((2 ^ 53 : Nat) : ℚ) = (2 ^ 52 : Nat) * 2 ^ (1 : Int) := by norm_num
      _ ≤ significand x * 2 ^ exponent x := by
        gcongr
        exact one_le_two
      _ = n.natAbs := h.magnitude
  have : 2 ^ 53 ≤ n.natAbs := by exact_mod_cast hlarge
  omega

theorem magnitudeBits_ofInt (n : Int) : magnitudeBits (ofInt n) = nearestBits n.natAbs 1 :=
  magnitudeBits_ofMagnitudeBits _ (nearestBits_le _ _)

/-- A double below `2 ^ 53` in magnitude is the nearest one of a single integer. -/
theorem eq_of_ofInt_eq (small : n.natAbs < 2 ^ 53) (h : ofInt k = ofInt n) : k = n := by
  have exact := isExactly_ofInt small
  by_cases hk : k.natAbs < 2 ^ 53
  · exact (h ▸ isExactly_ofInt hk : IsExactly (ofInt n) k).unique exact
  · have below := exact.magnitudeBits_lt small
    have above := le_nearestBits (Nat.not_lt.mp hk)
    rw [← h, magnitudeBits_ofInt] at below
    omega

end Binary64

end Comparand
