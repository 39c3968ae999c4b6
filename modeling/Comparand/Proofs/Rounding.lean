import Comparand.Proofs.Doubles
import Mathlib.Algebra.Order.Field.Power
import Mathlib.Algebra.Order.Ring.Rat
import Mathlib.Tactic.FieldSimp
import Mathlib.Tactic.Linarith
import Mathlib.Tactic.Positivity

/-!
# Ratios that are doubles

Rounding has nothing to do with a ratio that a double is equal to: its order of magnitude puts the
grid of doubles where the double lies, and on that grid the ratio is an integer.
-/
namespace Comparand.Binary64

theorem scaleDown_den_pos {num den : Nat} (hden : 0 < den) (e : Int) :
    0 < (scaleDown num den e).2 := by
  cases e with
  | ofNat e => exact Nat.mul_pos hden (Nat.two_pow_pos e)
  | negSucc e => exact hden

theorem scaleDown_ratio (num den : Nat) (e : Int) :
    ((scaleDown num den e).1 : ℚ) / (scaleDown num den e).2 = num / den * 2 ^ (-e) := by
  cases e with
  | ofNat e =>
    simp only [scaleDown, Int.ofNat_eq_natCast, zpow_neg, zpow_natCast, Nat.cast_mul, Nat.cast_pow,
      Nat.cast_ofNat]
    rw [← div_div, div_eq_mul_inv (_ / _)]
  | negSucc e =>
    simp only [scaleDown, Int.neg_negSucc, zpow_natCast, Nat.cast_mul, Nat.cast_pow,
      Nat.cast_ofNat]
    rw [mul_div_right_comm]

theorem scaleDown_le_iff {num den : Nat} (hden : 0 < den) (e : Int) :
    (scaleDown num den e).2 ≤ (scaleDown num den e).1 ↔ (2 : ℚ) ^ e ≤ num / den := by
  have hpos : (0 : ℚ) < (scaleDown num den e).2 := by exact_mod_cast scaleDown_den_pos hden e
  rw [← Nat.cast_le (α := ℚ), ← one_le_div hpos, scaleDown_ratio, zpow_neg, ← div_eq_mul_inv,
    one_le_div (by positivity)]

theorem zpow_log2_le {n : Nat} (hn : 0 < n) : (2 : ℚ) ^ (n.log2 : Int) ≤ n := by
  rw [zpow_natCast]
  exact_mod_cast Nat.log2_self_le (Nat.pos_iff_ne_zero.mp hn)

theorem lt_zpow_log2 (n : Nat) : (n : ℚ) < 2 ^ (n.log2 + 1 : Int) := by
  exact_mod_cast Nat.lt_log2_self

/-- The order of magnitude of a positive ratio is the one of its logarithm. -/
theorem magnitude_spec {num den : Nat} (hnum : 0 < num) (hden : 0 < den) :
    (2 : ℚ) ^ magnitude num den ≤ num / den ∧
      (num / den : ℚ) < 2 ^ (magnitude num den + 1) := by
  have two : (2 : ℚ) ≠ 0 := two_ne_zero
  have hden' : (0 : ℚ) < den := by exact_mod_cast hden
  set guess : Int := num.log2 - den.log2 with hguess
  have upper : (num / den : ℚ) < 2 ^ (guess + 1) := by
    rw [div_lt_iff₀ hden']
    calc (num : ℚ) < 2 ^ (num.log2 + 1 : Int) := lt_zpow_log2 num
      _ = 2 ^ (guess + 1) * 2 ^ (den.log2 : Int) := by
        rw [← zpow_add₀ two]
        congr 1
        omega
      _ ≤ 2 ^ (guess + 1) * den := by
        gcongr
        exact zpow_log2_le hden
  have lower : (2 : ℚ) ^ (guess - 1) ≤ num / den := by
    rw [le_div_iff₀ hden']
    calc (2 : ℚ) ^ (guess - 1) * den ≤ 2 ^ (guess - 1) * 2 ^ (den.log2 + 1 : Int) := by
          gcongr
          exact (lt_zpow_log2 den).le
      _ = 2 ^ (num.log2 : Int) := by
        rw [← zpow_add₀ two]
        congr 1
        omega
      _ ≤ num := zpow_log2_le hnum
  have hmagnitude : magnitude num den =
      if (scaleDown num den guess).2 ≤ (scaleDown num den guess).1 then guess else guess - 1 := rfl
  rw [hmagnitude]
  split
  · rename_i h
    exact ⟨(scaleDown_le_iff hden guess).mp h, upper⟩
  · rename_i h
    rw [scaleDown_le_iff hden, not_le] at h
    exact ⟨lower, by rwa [sub_add_cancel]⟩

theorem magnitude_eq_of_bounds {num den : Nat} {e : Int} (hnum : 0 < num) (hden : 0 < den)
    (lower : (2 : ℚ) ^ e ≤ num / den) (upper : (num / den : ℚ) < 2 ^ (e + 1)) :
    magnitude num den = e := by
  obtain ⟨hle, hlt⟩ := magnitude_spec hnum hden
  have one_lt : (1 : ℚ) < 2 := one_lt_two
  have below := (zpow_lt_zpow_iff_right₀ one_lt).mp (lower.trans_lt hlt)
  have above := (zpow_lt_zpow_iff_right₀ one_lt).mp (hle.trans_lt upper)
  omega

theorem roundHalfEven_of_eq {num den n : Nat} (hden : 0 < den) (h : (num / den : ℚ) = n) :
    roundHalfEven num den = n := by
  have hden' : (den : ℚ) ≠ 0 := by exact_mod_cast Nat.pos_iff_ne_zero.mp hden
  rw [div_eq_iff hden'] at h
  obtain rfl : num = n * den := by exact_mod_cast h
  simp [roundHalfEven, Nat.mul_div_cancel n hden, hden]

theorem significand_lt (x : Float) : significand x < 2 ^ 53 := by
  unfold significand fractionField
  split <;> omega

/-- The grid on which a double lies is the one that the order of its magnitude gives. -/
theorem grid_eq {x : Float} {num den : Nat} (hnum : 0 < num) (hden : 0 < den)
    (equal : (num / den : ℚ) = significand x * 2 ^ exponent x) :
    max (magnitude num den - 52) (-1074) = exponent x := by
  have two : (2 : ℚ) ≠ 0 := two_ne_zero
  have hsig : (significand x : ℚ) < 2 ^ (53 : Int) := by exact_mod_cast significand_lt x
  have one_lt : (1 : ℚ) < 2 := one_lt_two
  by_cases subnormal : exponentField x = 0
  · have hexponent : exponent x = -1074 := by simp [exponent, subnormal]
    have hsig : (significand x : ℚ) < 2 ^ (52 : Int) := by
      rw [significand, if_pos subnormal, fractionField]
      exact_mod_cast Nat.mod_lt _ (by omega)
    have hlt : (num / den : ℚ) < 2 ^ (52 + exponent x) := by
      rw [equal, zpow_add₀ two]
      gcongr
    have := (zpow_lt_zpow_iff_right₀ one_lt).mp
      ((magnitude_spec hnum hden).1.trans_lt hlt)
    omega
  · have hexponent : exponent x = exponentField x - 1075 := by
      rw [exponent, max_eq_right (Nat.one_le_iff_ne_zero.mpr subnormal)]
    have sig_ge : (2 : ℚ) ^ (52 : Int) ≤ significand x := by
      rw [significand, if_neg subnormal]
      exact_mod_cast Nat.le_add_right _ _
    have hmagnitude : magnitude num den = 52 + exponent x := by
      apply magnitude_eq_of_bounds hnum hden
      · rw [equal, zpow_add₀ two]
        gcongr
      · rw [equal, show 52 + exponent x + 1 = 53 + exponent x by omega, zpow_add₀ two]
        gcongr
    omega

theorem nearestBits_le (num den : Nat) : nearestBits num den ≤ infinityBits := by
  unfold nearestBits
  split
  · exact Nat.zero_le _
  · exact Nat.min_le_right _ _

/-- A ratio that is equal to a double is rounded to it. -/
theorem nearestBits_of_eq {x : Float} (finite : x.isFinite) {num den : Nat} (hden : 0 < den)
    (equal : (num / den : ℚ) = significand x * 2 ^ exponent x) :
    nearestBits num den = magnitudeBits x := by
  have hden' : (den : ℚ) ≠ 0 := by exact_mod_cast Nat.pos_iff_ne_zero.mp hden
  by_cases hnum : num = 0
  · have hzero : significand x = 0 := by
      rw [hnum, Nat.cast_zero, zero_div, eq_comm, mul_eq_zero] at equal
      exact_mod_cast equal.resolve_right (zpow_ne_zero _ two_ne_zero)
    unfold significand at hzero
    split at hzero
    · rename_i subnormal
      simp [nearestBits, hnum, magnitudeBits, subnormal, hzero]
    · omega
  · have hgrid := grid_eq (Nat.pos_iff_ne_zero.mpr hnum) hden equal
    have hround : roundHalfEven (scaleDown num den (exponent x)).1
        (scaleDown num den (exponent x)).2 = significand x := by
      apply roundHalfEven_of_eq (scaleDown_den_pos hden _)
      rw [scaleDown_ratio, equal, mul_assoc, ← zpow_add₀ two_ne_zero, add_neg_cancel, zpow_zero,
        mul_one]
    have hbits : (exponent x + 1074).toNat * 2 ^ 52 + significand x = magnitudeBits x := by
      unfold exponent significand magnitudeBits
      split <;> omega
    have hlt := magnitudeBits_lt_of_isFinite finite
    rw [nearestBits, if_neg hnum, hgrid]
    simp only [hround, hbits]
    omega

end Comparand.Binary64
