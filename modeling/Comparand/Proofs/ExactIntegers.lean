import Comparand.Operand.Comparison
import Comparand.Proofs.IntegerSets
import Comparand.Proofs.Order

/-!
# Exact conversions between words and doubles

A double is read as a word if and only if it is an integer in the range of words. The range may as
well be checked among doubles: the double nearest to the smallest word is that word, and the one
nearest to the largest word is `2 ^ 63`, the first integer beyond the range. A word is read as a
double if and only if it is at most `Word.maxSafe` in magnitude, and read back from it. So a set
compares its size with a double that is an integer exactly.
-/
namespace Comparand
open Binary64 (IsExactly toRat isIntegral)

/-! ## From doubles to integers -/

namespace Binary64
variable {x : Float} {n : Int}

theorem toRat_of_magnitude {k : Nat} (h : (significand x * 2 ^ exponent x : ℚ) = k) :
    toRat x = ((if isNegative x then -k else k : Int) : ℚ) := by
  rw [toRat, h]
  split <;> simp

theorem isExactly_of_toInt? (h : toInt? x = some n) : IsExactly x n := by
  unfold toInt? at h
  split at h
  · rename_i finite
    cases hexponent : exponent x with
    | ofNat e =>
      rw [hexponent] at h
      cases h
      refine ⟨finite, toRat_of_magnitude ?_⟩
      rw [hexponent]
      simp
    | negSucc e =>
      rw [hexponent] at h
      dsimp only at h
      split at h
      · rename_i divisible
        cases h
        refine ⟨finite, toRat_of_magnitude ?_⟩
        rw [hexponent, zpow_negSucc, Nat.cast_div (Nat.dvd_of_mod_eq_zero divisible) (by positivity)]
        simp [div_eq_mul_inv]
      · cases h
  · cases h

theorem toInt?_ne_none_of_isExactly (h : IsExactly x n) : toInt? x ≠ none := by
  unfold toInt?
  rw [if_pos h.1]
  have hmagnitude := h.magnitude
  cases hexponent : exponent x with
  | ofNat e => simp
  | negSucc e =>
    rw [hexponent, zpow_negSucc] at hmagnitude
    have hcast : (significand x : ℚ) = n.natAbs * 2 ^ (e + 1) := by
      rw [← hmagnitude]
      field_simp
    have hdivisible : significand x = n.natAbs * 2 ^ (e + 1) := by exact_mod_cast hcast
    simp [hdivisible]

theorem toInt?_eq_some_iff : toInt? x = some n ↔ IsExactly x n := by
  refine ⟨isExactly_of_toInt?, fun h => ?_⟩
  obtain ⟨k, hk⟩ := Option.ne_none_iff_exists'.mp (toInt?_ne_none_of_isExactly h)
  rw [hk, (isExactly_of_toInt? hk).unique h]

theorem isIntegral_iff : isIntegral x ↔ ∃ n, IsExactly x n := by
  simp only [isIntegral, Option.isSome_iff_exists, toInt?_eq_some_iff]

end Binary64

namespace Word
variable {x : Float} {n : Int64}

theorem ofFloat?_eq_some_iff : ofFloat? x = some n ↔ IsExactly x n.toInt := by
  rw [ofFloat?, Option.bind_eq_some_iff]
  constructor
  · rintro ⟨k, hk, hn⟩
    rw [toInt_of_ofInt? hn]
    exact Binary64.toInt?_eq_some_iff.mp hk
  · exact fun h => ⟨n.toInt, Binary64.toInt?_eq_some_iff.mpr h, ofInt?_toInt n⟩

/-! ## The range of words among doubles -/

theorem isExactly_widen_minValue : IsExactly (widen Int64.minValue) (-2 ^ 63) :=
  ⟨by decide +kernel, by decide +kernel⟩

/-- The largest word is rounded up. -/
theorem isExactly_widen_maxValue : IsExactly (widen Int64.maxValue) (2 ^ 63) :=
  ⟨by decide +kernel, by decide +kernel⟩

theorem not_isExactly_maxValue : ¬ IsExactly x (2 ^ 63 - 1) := by
  intro h
  have hwiden : IsExactly (widen Int64.maxValue) (2 ^ 63 - 1) :=
    Binary64.isExactly_ofInt_iff.mpr ⟨x, h⟩
  exact absurd (hwiden.unique isExactly_widen_maxValue) (by decide)

/-- A double that is an integer is in the range of words if it is between the bounds as doubles. -/
theorem in_range_iff {k : Int} (h : IsExactly x k) :
    (-2 ^ 63 ≤ k ∧ k < 2 ^ 63) ↔ ¬ (x < widen Int64.minValue ∨ widen Int64.maxValue ≤ x) := by
  have lower := isExactly_widen_minValue
  have upper := isExactly_widen_maxValue
  rw [Binary64.lt_iff_toRat h.1 lower.1, Binary64.le_iff_toRat upper.1 h.1, h.2, lower.2, upper.2,
    Int.cast_lt, Int.cast_le]
  omega

end Word

/-! ## Values -/

namespace Value
variable {x : Float} {n : Int64}

theorem asInteger_real_eq_ok_iff : (real x).asInteger = .ok n ↔ IsExactly x n.toInt := by
  rw [← Word.ofFloat?_eq_some_iff, asInteger, integer?]
  cases Word.ofFloat? x <;> simp

theorem exists_asInteger_real_iff :
    (∃ n, (real x).asInteger = .ok n) ↔ ∃ k : Int, IsExactly x k ∧ -2 ^ 63 ≤ k ∧ k < 2 ^ 63 := by
  constructor
  · rintro ⟨n, hn⟩
    exact ⟨n.toInt, asInteger_real_eq_ok_iff.mp hn, n.le_toInt, n.toInt_lt⟩
  · rintro ⟨k, hk, lower, upper⟩
    refine ⟨Int64.ofInt k, asInteger_real_eq_ok_iff.mpr ?_⟩
    rwa [Int64.toInt_ofInt_of_le lower upper]

theorem exists_asInteger_real_iff_guarded :
    (∃ n, (real x).asInteger = .ok n) ↔
      isIntegral x ∧ ¬ (x < Word.widen Int64.minValue ∨ Word.widen Int64.maxValue ≤ x) := by
  rw [exists_asInteger_real_iff, Binary64.isIntegral_iff]
  constructor
  · rintro ⟨k, hk, range⟩
    exact ⟨⟨k, hk⟩, (Word.in_range_iff hk).mp range⟩
  · rintro ⟨⟨k, hk⟩, guard⟩
    exact ⟨k, hk, (Word.in_range_iff hk).mpr guard⟩

theorem exists_asReal_integer_iff :
    (∃ y, (integer n).asReal = .ok y) ↔ n.toInt.natAbs ≤ 2 ^ 53 - 1 := by
  rw [asReal_integer]
  change _ ↔ n.toInt.natAbs ≤ Word.maxSafe
  split <;> simp [*]

end Value

/-! ## Sizes of sets -/

namespace Operand
variable {V : Type}

/-- The size of a set as a word is its size, as far as doubles can tell. -/
theorem cardinality_lt_iff (members : List (Operand V)) {x : Float} {n : Int64}
    (h : IsExactly x n.toInt) :
    (cardinality members < n ↔ (members.length : Int) < n.toInt) ∧
      (n < cardinality members ↔ n.toInt < members.length) := by
  have hne : n.toInt ≠ 2 ^ 63 - 1 := fun heq => Word.not_isExactly_maxValue (heq ▸ h)
  have hsize : (cardinality members).toInt = min members.length (2 ^ 63 - 1) := by
    rw [cardinality, Word.ofSize, Int64.toInt_ofNat_of_lt (by omega)]
  have hlt := n.toInt_lt
  rw [Int64.lt_iff_toInt_lt, Int64.lt_iff_toInt_lt, hsize]
  omega

variable [Variable V]

theorem answer_lessThan_set (members : List (Operand V)) (value : Value) (context : Context) :
    (Operand.set members).answer (.lessThan value) context =
      (do return decide (cardinality members < (← value.asInteger))) := rfl

theorem answer_greaterThan_set (members : List (Operand V)) (value : Value) (context : Context) :
    (Operand.set members).answer (.greaterThan value) context =
      (do return decide ((← value.asInteger) < cardinality members)) := rfl

/--
A double is read as a word if and only if it is an integer in the range of words, and then that is
what it is read as; to compare it with the bounds as doubles amounts to the same. A word is read as
a double if and only if its magnitude is below `2 ^ 53`, and that double is equal to it and read
back as the word. So a set is less or greater than such a double exactly if its number of members
is.
-/
theorem exact_integers (x : Float) (n : Int64) :
    ((Value.real x).asInteger = .ok n ↔ IsExactly x n.toInt) ∧
    ((∃ n, (Value.real x).asInteger = .ok n) ↔
      ∃ k : Int, IsExactly x k ∧ -2 ^ 63 ≤ k ∧ k < 2 ^ 63) ∧
    ((∃ n, (Value.real x).asInteger = .ok n) ↔
      isIntegral x ∧ ¬ (x < Word.widen Int64.minValue ∨ Word.widen Int64.maxValue ≤ x)) ∧
    ((∃ y, (Value.integer n).asReal = .ok y) ↔ n.toInt.natAbs ≤ 2 ^ 53 - 1) ∧
    (∀ y, (Value.integer n).asReal = .ok y →
      IsExactly y n.toInt ∧ (Value.real y).asInteger = .ok n) ∧
    ∀ (members : List (Operand V)) (context : Context) (k : Int),
      IsExactly x k → -2 ^ 63 ≤ k → k < 2 ^ 63 →
        (Operand.set members).answer (.lessThan (.real x)) context =
          .ok (decide ((members.length : Int) < k)) ∧
        (Operand.set members).answer (.greaterThan (.real x)) context =
          .ok (decide (k < members.length)) := by
  refine ⟨Value.asInteger_real_eq_ok_iff, Value.exists_asInteger_real_iff,
    Value.exists_asInteger_real_iff_guarded, Value.exists_asReal_integer_iff, fun y hy => ?_,
    fun members context k hk lower upper => ?_⟩
  · have exactly := Value.isExactly_of_asReal_integer hy
    exact ⟨exactly, Value.asInteger_real_eq_ok_iff.mpr exactly⟩
  · obtain ⟨word, hword⟩ := Value.exists_asInteger_real_iff.mpr ⟨k, hk, lower, upper⟩
    have exactly : IsExactly x word.toInt := Value.asInteger_real_eq_ok_iff.mp hword
    obtain rfl : word.toInt = k := exactly.unique hk
    obtain ⟨less, greater⟩ := cardinality_lt_iff members exactly
    constructor
    · rw [answer_lessThan_set, hword, ok_bind]
      exact congrArg Except.ok (decide_eq_decide.mpr less)
    · rw [answer_greaterThan_set, hword, ok_bind]
      exact congrArg Except.ok (decide_eq_decide.mpr greater)

theorem bounds_exact_integers :
    IsExactly (-9223372036854775808) (-2 ^ 63) ∧
      (Value.real (-9223372036854775808)).asInteger = .ok Int64.minValue ∧
      (∃ y, (Value.integer 9007199254740991).asReal = .ok y ∧ IsExactly y 9007199254740991 ∧
        (Value.real y).asInteger = .ok 9007199254740991) ∧
      (Operand.set [.number 1, .number 1] : Operand PathVariable).answer
        (.greaterThan (.real (-9223372036854775808))) (.object []) = .ok true := by
  have smallest : IsExactly (-9223372036854775808) (-2 ^ 63) :=
    ⟨by decide +kernel, by decide +kernel⟩
  obtain ⟨reads, -, -, -, -, sizes⟩ :=
    exact_integers (V := PathVariable) (-9223372036854775808) Int64.minValue
  obtain ⟨-, -, -, safe, exactly, -⟩ := exact_integers (V := PathVariable) 0 9007199254740991
  obtain ⟨y, hy⟩ := safe.mpr (by decide)
  obtain ⟨hexactly, hback⟩ := exactly y hy
  obtain ⟨-, greater⟩ :=
    sizes [.number 1, .number 1] (.object []) (-2 ^ 63) smallest (by decide) (by decide)
  exact ⟨smallest, reads.mpr smallest, ⟨y, hy, hexactly, hback⟩, greater⟩

end Operand

end Comparand
