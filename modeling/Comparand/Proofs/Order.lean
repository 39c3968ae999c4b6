import Comparand.Proofs.Integers
import Comparand.Proofs.Sameness

/-!
# The order of doubles

Unless one of them is not-a-number, of two doubles one is less than the other or they are equal.
Finite ones compare as the numbers that they are. Exponents settle it where they differ, since no
significand but those on the finest grid lacks its leading bit; so a double on a coarser grid has
the greater magnitude.
-/
namespace Comparand.Binary64
open Float.Model Float.Model.UnpackedFloat

/-! ## Three ways to compare -/

theorem compare_swap (a b : UnpackedFloat) : b.compare a = (a.compare b).map Ordering.swap := by
  have fields {e₁ e₂ : Int} {m₁ m₂ : Nat} : (compare e₂ e₁).then (compare m₂ m₁) =
      ((compare e₁ e₂).then (compare m₁ m₂)).swap := by
    rw [Ordering.swap_then, ← Std.OrientedCmp.eq_swap, ← Std.OrientedCmp.eq_swap]
  cases a with
  | notANumber => cases b <;> rfl
  | infinity s =>
    cases b with
    | notANumber => cases s <;> rfl
    | infinity t | zero t | finite t => cases s <;> cases t <;> rfl
  | zero s =>
    cases b with
    | notANumber => rfl
    | infinity t | zero t | finite t => cases s <;> cases t <;> rfl
  | finite s m e =>
    cases b with
    | notANumber => cases s <;> rfl
    | infinity t | zero t => cases s <;> cases t <;> rfl
    | finite t k f =>
      cases s <;> cases t
      · exact congrArg (fun o => some (Ordering.swap o)) fields
      · rfl
      · rfl
      · exact congrArg some fields

/-- How two doubles compare; not-a-number compares with nothing. -/
def order (x y : Float) : Option Ordering := x.toModel.unpack.compare y.toModel.unpack

variable {x y : Float}

theorem order_swap (x y : Float) : order y x = (order x y).map Ordering.swap := compare_swap _ _

theorem lt_iff_order : x < y ↔ order x y = some .lt :=
  lt_iff_unpack.trans beq_iff_eq

theorem gt_iff_order : y < x ↔ order x y = some .gt := by
  rw [lt_iff_order, order_swap x y]
  cases order x y with
  | none => simp
  | some o => cases o <;> simp

theorem le_iff_order : x ≤ y ↔ (order x y).any (·.isLE) := le_iff_unpack

theorem beq_iff_order : x == y ↔ order x y = some .eq := by
  change x.toModel.unpack.beq y.toModel.unpack = true ↔ _
  exact beq_iff_eq

theorem order_eq_none_iff : order x y = none ↔ x.isNaN ∨ y.isNaN := by
  change x.toModel.unpack.compare y.toModel.unpack = none ↔
    x.toModel.unpack.isNaN ∨ y.toModel.unpack.isNaN
  cases x.toModel.unpack with
  | notANumber => simp [UnpackedFloat.compare, UnpackedFloat.isNaN]
  | infinity s | zero s | finite s =>
    cases y.toModel.unpack with
    | notANumber => cases s <;> simp [UnpackedFloat.compare, UnpackedFloat.isNaN]
    | infinity t | zero t | finite t =>
      cases s <;> cases t <;> simp [UnpackedFloat.compare, UnpackedFloat.isNaN]

/-- Exactly one comparison of two doubles holds, or none if one of them is not-a-number. -/
theorem count_comparisons (x y : Float) :
    [x == y, decide (x < y), decide (y < x)].count true = if x.isNaN || y.isNaN then 0 else 1 := by
  have hnan : (x.isNaN || y.isNaN) = decide (order x y = none) := by
    rw [Bool.eq_iff_iff, decide_eq_true_iff, order_eq_none_iff, Bool.or_eq_true]
  have hbeq : (x == y) = decide (order x y = some .eq) := by
    rw [Bool.eq_iff_iff, decide_eq_true_iff, beq_iff_order]
  have hlt : decide (x < y) = decide (order x y = some .lt) := decide_eq_decide.mpr lt_iff_order
  have hgt : decide (y < x) = decide (order x y = some .gt) := decide_eq_decide.mpr gt_iff_order
  rw [hnan, hbeq, hlt, hgt]
  cases order x y with
  | none => rfl
  | some o => cases o <;> rfl

/-! ## Finite doubles -/

theorem unpack_of_isFinite (h : x.isFinite) :
    (significand x = 0 ∧ ∃ sign, x.toModel.unpack = .zero sign) ∨
      ∃ hm, x.toModel.unpack =
        .finite (if isNegative x then .negative else .positive) (significand x) (exponent x) hm := by
  let b : BitVec 64 := x.toBits.toBitVec
  have hfield : (@unpackExponent .binary64 b).toNat = exponentField x := toNat_unpackExponent b
  have hfraction : (@unpackMantissa .binary64 b).toNat = fractionField x := toNat_unpackMantissa b
  have not_top : @unpackExponent .binary64 b ≠ -1#11 := by
    intro top
    rw [top] at hfield
    exact isFinite_iff_exponentField.mp h hfield.symm
  have hunpack : x.toModel.unpack = UnpackedFloat.unpack .binary64 b := rfl
  rw [hunpack, ← ofBitVec_unpackSign x]
  rcases unpack_cases b with ⟨top, -, -⟩ | ⟨top, -, -⟩ | ⟨bottom, none, hb⟩ |
    ⟨bottom, hm, hb⟩ | ⟨-, not_bottom, hm, hb⟩
  · exact absurd top not_top
  · exact absurd top not_top
  · have hzero : exponentField x = 0 := by rw [← hfield, bottom, BitVec.toNat_zero]
    refine .inl ⟨?_, _, hb⟩
    rw [significand, if_pos hzero, ← hfraction, none, BitVec.toNat_zero]
  · have hzero : exponentField x = 0 := by rw [← hfield, bottom, BitVec.toNat_zero]
    have hsignificand : significand x = (@unpackMantissa .binary64 b).toNat := by
      rw [significand, if_pos hzero, hfraction]
    have hexponent : exponent x = (@unpackExponent .binary64 b).toNat - (1023 + 52) + 1 := by
      rw [exponent, hfield, hzero]
      rfl
    right
    rw [hb]
    simp only [hsignificand, hexponent]
    exact ⟨hm, rfl⟩
  · have hne : exponentField x ≠ 0 := by
      rw [← hfield]
      exact fun hzero => not_bottom (BitVec.eq_of_toNat_eq hzero)
    have hsignificand : significand x = (1#1 ++ @unpackMantissa .binary64 b).toNat := by
      rw [significand, if_neg hne, toNat_implicit, hfraction]
    have hexponent : exponent x = (@unpackExponent .binary64 b).toNat - (1023 + 52) := by
      rw [exponent, hfield]
      omega
    right
    rw [hb]
    simp only [hsignificand, hexponent]
    exact ⟨hm, rfl⟩

/-- Magnitudes on a coarser grid are greater, for there each significand has its leading bit. -/
theorem magnitude_lt_of_exponent_lt (h : exponent x < exponent y) :
    (significand x * 2 ^ exponent x : ℚ) < significand y * 2 ^ exponent y := by
  have hfield : exponentField y ≠ 0 := by
    unfold exponent at h
    omega
  have hx : (significand x : ℚ) < 2 ^ 53 := by exact_mod_cast significand_lt x
  have hy : (2 : ℚ) ^ 52 ≤ significand y := by
    rw [significand, if_neg hfield]
    exact_mod_cast Nat.le_add_right _ _
  calc (significand x * 2 ^ exponent x : ℚ) < 2 ^ 53 * 2 ^ exponent x := by gcongr
    _ = 2 ^ 52 * 2 ^ (exponent x + 1) := by
      rw [zpow_add_one₀ (by norm_num)]
      ring
    _ ≤ significand y * 2 ^ exponent y := by
      gcongr
      · norm_num
      · omega

/-- Magnitudes compare by their exponents, and by their significands on one grid. -/
theorem compare_magnitudes (x y : Float) :
    compare (significand x * 2 ^ exponent x : ℚ) (significand y * 2 ^ exponent y) =
      (compare (exponent x) (exponent y)).then (compare (significand x) (significand y)) := by
  rcases lt_trichotomy (exponent x) (exponent y) with hlt | heq | hgt
  · rw [compare_lt_iff_lt.mpr hlt, compare_lt_iff_lt.mpr (magnitude_lt_of_exponent_lt hlt)]
    rfl
  · have hpos : (0 : ℚ) < 2 ^ exponent y := by positivity
    rw [heq, compare_eq_iff_eq.mpr rfl]
    change compare _ _ = compare (significand x) (significand y)
    rcases lt_trichotomy (significand x) (significand y) with hlt | heq | hgt
    · rw [compare_lt_iff_lt.mpr hlt, compare_lt_iff_lt]
      exact mul_lt_mul_of_pos_right (by exact_mod_cast hlt) hpos
    · rw [compare_eq_iff_eq.mpr heq, compare_eq_iff_eq, heq]
    · rw [compare_gt_iff_gt.mpr hgt, compare_gt_iff_gt]
      exact mul_lt_mul_of_pos_right (by exact_mod_cast hgt) hpos
  · rw [compare_gt_iff_gt.mpr hgt, compare_gt_iff_gt.mpr (magnitude_lt_of_exponent_lt hgt)]
    rfl

theorem toRat_of_significand_eq_zero (h : significand x = 0) : toRat x = 0 := by
  simp [toRat, h]

theorem toRat_pos (h : isNegative x = false) (nonzero : 0 < significand x) : 0 < toRat x := by
  simp only [toRat, h, Bool.false_eq_true, if_false, one_mul]
  positivity

theorem toRat_neg (h : isNegative x = true) (nonzero : 0 < significand x) : toRat x < 0 := by
  have hpos : (0 : ℚ) < significand x * 2 ^ exponent x := by positivity
  simp only [toRat, h, if_true, neg_one_mul]
  linarith

theorem compare_neg_neg (a b : ℚ) : compare (-a) (-b) = (compare a b).swap := by
  rcases lt_trichotomy a b with hlt | heq | hgt
  · rw [compare_lt_iff_lt.mpr hlt]
    exact compare_gt_iff_gt.mpr (neg_lt_neg hlt)
  · rw [compare_eq_iff_eq.mpr heq]
    exact compare_eq_iff_eq.mpr (congrArg Neg.neg heq)
  · rw [compare_gt_iff_gt.mpr hgt]
    exact compare_lt_iff_lt.mpr (neg_lt_neg hgt)

theorem order_of_significand_eq_zero (hx : x.isFinite) (hy : y.isFinite)
    (zero : significand x = 0) : order x y = some (compare (toRat x) (toRat y)) := by
  obtain ⟨sign, hux⟩ : ∃ sign, x.toModel.unpack = .zero sign := by
    rcases unpack_of_isFinite hx with ⟨-, hux⟩ | ⟨nonzero, -⟩
    · exact hux
    · exact absurd zero (Nat.pos_iff_ne_zero.mp nonzero)
  rw [order, hux, toRat_of_significand_eq_zero zero]
  rcases unpack_of_isFinite hy with ⟨zero', sign', huy⟩ | ⟨nonzero, huy⟩
  · rw [huy, toRat_of_significand_eq_zero zero', compare_eq_iff_eq.mpr rfl]
    rfl
  · cases hneg : isNegative y with
    | false =>
      rw [huy, hneg, compare_lt_iff_lt.mpr (toRat_pos hneg nonzero)]
      rfl
    | true =>
      rw [huy, hneg, compare_gt_iff_gt.mpr (toRat_neg hneg nonzero)]
      rfl

/-- Finite doubles compare as the numbers that they are. -/
theorem order_of_isFinite (hx : x.isFinite) (hy : y.isFinite) :
    order x y = some (compare (toRat x) (toRat y)) := by
  rcases unpack_of_isFinite hx with ⟨zx, -⟩ | ⟨px, hux⟩
  · exact order_of_significand_eq_zero hx hy zx
  rcases unpack_of_isFinite hy with ⟨zy, -⟩ | ⟨py, huy⟩
  · rw [order_swap y x, order_of_significand_eq_zero hy hx zy]
    exact congrArg some Std.OrientedCmp.eq_swap.symm
  unfold order
  cases hneg : isNegative x with
  | false =>
    cases hneg' : isNegative y with
    | false =>
      simp only [hux, huy, toRat, hneg, hneg', Bool.false_eq_true, if_false, one_mul]
      rw [compare_magnitudes]
      rfl
    | true =>
      have hlt : toRat y < toRat x := (toRat_neg hneg' py).trans (toRat_pos hneg px)
      rw [hux, huy, hneg, hneg', compare_gt_iff_gt.mpr hlt]
      rfl
  | true =>
    cases hneg' : isNegative y with
    | false =>
      have hlt : toRat x < toRat y := (toRat_neg hneg px).trans (toRat_pos hneg' py)
      rw [hux, huy, hneg, hneg', compare_lt_iff_lt.mpr hlt]
      rfl
    | true =>
      simp only [hux, huy, toRat, hneg, hneg', if_true, neg_one_mul]
      rw [compare_neg_neg, compare_magnitudes]
      rfl

theorem lt_iff_toRat (hx : x.isFinite) (hy : y.isFinite) : x < y ↔ toRat x < toRat y := by
  rw [lt_iff_order, order_of_isFinite hx hy, Option.some_inj, compare_lt_iff_lt]

theorem le_iff_toRat (hx : x.isFinite) (hy : y.isFinite) : x ≤ y ↔ toRat x ≤ toRat y := by
  rw [le_iff_order, order_of_isFinite hx hy, ← compare_le_iff_le, Option.any_some]
  exact Ordering.isLE_iff_ne_gt

end Comparand.Binary64
