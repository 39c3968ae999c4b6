import Comparand.Number.Binary64
import Mathlib

/-!
# The bits of a double

Packing undoes unpacking for every pattern of bits that is no not-a-number, and negation changes
nothing but the sign bit. So a finite double is given by its sign and the bits of its magnitude.
-/
namespace Comparand.Binary64
open Float.Model Float.Model.UnpackedFloat

/-! ## Patterns as natural numbers -/

theorem toNat_implicit (m : BitVec 52) : (1#1 ++ m).toNat = 2 ^ 52 + m.toNat := by
  rw [BitVec.toNat_append, ← Nat.shiftLeft_add_eq_or_of_lt m.isLt]
  simp [Nat.shiftLeft_eq]

theorem toNat_packComponents (sign : Sign) (e : BitVec 11) (m : BitVec 52) :
    (packComponents .binary64 sign e m).toNat =
      sign.toBitVec.toNat * 2 ^ 63 + e.toNat * 2 ^ 52 + m.toNat := by
  rw [packComponents, BitVec.toNat_append, ← Nat.shiftLeft_add_eq_or_of_lt m.isLt,
    BitVec.toNat_append, ← Nat.shiftLeft_add_eq_or_of_lt e.isLt, Nat.shiftLeft_eq,
    Nat.shiftLeft_eq]
  omega

theorem toNat_unpackMantissa (b : BitVec 64) :
    (@unpackMantissa .binary64 b).toNat = b.toNat % 2 ^ 52 := by
  simp [unpackMantissa, BitVec.extractLsb]

theorem toNat_unpackExponent (b : BitVec 64) :
    (@unpackExponent .binary64 b).toNat = b.toNat / 2 ^ 52 % 2 ^ 11 := by
  simp [unpackExponent, BitVec.extractLsb, Nat.shiftRight_eq_div_pow]

theorem toNat_unpackSign (b : BitVec 64) :
    (@unpackSign .binary64 b).toNat = b.toNat / 2 ^ 63 % 2 := by
  change (b.extractLsb 63 63).toNat = _
  simp [BitVec.extractLsb, Nat.shiftRight_eq_div_pow]

/-! ## Packing -/

/-- What a pattern of bits is unpacked to, by its exponent and its mantissa. -/
theorem unpack_cases (b : BitVec 64) :
    let sign := Sign.ofBitVec (@unpackSign .binary64 b)
    let e : BitVec 11 := @unpackExponent .binary64 b
    let m : BitVec 52 := @unpackMantissa .binary64 b
    (e = -1#11 ∧ m = 0#52 ∧ UnpackedFloat.unpack .binary64 b = .infinity sign) ∨
    (e = -1#11 ∧ m ≠ 0#52 ∧ UnpackedFloat.unpack .binary64 b = .notANumber) ∨
    (e = 0#11 ∧ m = 0#52 ∧ UnpackedFloat.unpack .binary64 b = .zero sign) ∨
    (e = 0#11 ∧ ∃ hm, UnpackedFloat.unpack .binary64 b =
      .finite sign m.toNat (e.toNat - (1023 + 52) + 1) hm) ∨
    (e ≠ -1#11 ∧ e ≠ 0#11 ∧ ∃ hm, UnpackedFloat.unpack .binary64 b =
      .finite sign (1#1 ++ m).toNat (e.toNat - (1023 + 52)) hm) := by
  intro sign e m
  by_cases top : e = -1#11
  · by_cases none : m = 0#52
    · exact .inl ⟨top, none, (if_pos top).trans (if_pos none)⟩
    · exact .inr (.inl ⟨top, none, (if_pos top).trans (if_neg none)⟩)
  · by_cases bottom : e = 0#11
    · by_cases none : m = 0#52
      · exact .inr (.inr (.inl ⟨bottom, none,
          (if_neg top).trans ((if_pos bottom).trans (dif_pos none))⟩))
      · exact .inr (.inr (.inr (.inl ⟨bottom, _,
          (if_neg top).trans ((if_pos bottom).trans (dif_neg none))⟩)))
    · exact .inr (.inr (.inr (.inr ⟨top, bottom, _, (if_neg top).trans (if_neg bottom)⟩)))

theorem not_isNaNBits_of_le {b : BitVec 64} (h : b.toNat % 2 ^ 63 ≤ infinityBits) :
    ¬ @isNaNBits .binary64 b := by
  intro nan
  obtain ⟨top, some⟩ := of_decide_eq_true nan
  have he := toNat_unpackExponent b
  rw [top] at he
  change 2047 = _ at he
  apply some
  apply BitVec.eq_of_toNat_eq
  rw [toNat_unpackMantissa]
  change _ = 0
  unfold infinityBits at h
  omega

/-- A pattern of bits with the other sign. -/
def flipSign (b : BitVec 64) : BitVec 64 :=
  packComponents .binary64 (-Sign.ofBitVec (@unpackSign .binary64 b))
    (@unpackExponent .binary64 b) (@unpackMantissa .binary64 b)

theorem toNat_flipSign (b : BitVec 64) :
    (flipSign b).toNat = (1 - b.toNat / 2 ^ 63 % 2) * 2 ^ 63 + b.toNat % 2 ^ 63 := by
  have hneg : ∀ b : BitVec 1, (-Sign.ofBitVec b).toBitVec.toNat = 1 - b.toNat := by decide
  rw [flipSign, toNat_packComponents, hneg, toNat_unpackSign, toNat_unpackExponent,
    toNat_unpackMantissa]
  omega

theorem neg_unpack (b : BitVec 64) :
    (UnpackedFloat.unpack .binary64 b).neg = UnpackedFloat.unpack .binary64 (flipSign b) := by
  unfold flipSign UnpackedFloat.unpack
  simp only [unpackExponent_packComponents, unpackMantissa_packComponents,
    unpackSign_packComponents, Sign.ofBitVec_toBitVec]
  split
  · split <;> rfl
  · split
    · split <;> rfl
    · rfl

/-! ## Doubles -/

theorem eq_of_toBits {x y : Float} (h : x.toBits.toNat = y.toBits.toNat) : x = y :=
  Float.toBits_inj.mp (UInt64.toNat_inj.mp h)

theorem toBits_ofBits (n : UInt64) (h : n.toNat % 2 ^ 63 ≤ infinityBits) :
    (Float.ofBits n).toBits = n := by
  apply UInt64.toBitVec_inj.mp
  exact (@pack_unpack .binary64 n.toBitVec (by decide)).trans (if_neg (not_isNaNBits_of_le h))

theorem toNat_toBits_ofMagnitudeBits (negative : Bool) {bits : Nat} (h : bits ≤ infinityBits) :
    (ofMagnitudeBits negative bits).toBits.toNat = (if negative then 2 ^ 63 else 0) + bits := by
  unfold infinityBits at h
  have hword : (UInt64.ofNat (if negative then 2 ^ 63 + bits else bits)).toNat =
      (if negative then 2 ^ 63 else 0) + bits := by
    rw [UInt64.toNat_ofNat']
    split <;> omega
  rw [ofMagnitudeBits, toBits_ofBits, hword]
  rw [hword, infinityBits]
  split <;> omega

theorem toNat_toBits_neg (x : Float) (h : x.toBits.toNat % 2 ^ 63 ≤ infinityBits) :
    (-x).toBits.toNat = (1 - x.toBits.toNat / 2 ^ 63 % 2) * 2 ^ 63 + x.toBits.toNat % 2 ^ 63 := by
  have hflip : (flipSign x.toBits.toBitVec).toNat =
      (1 - x.toBits.toNat / 2 ^ 63 % 2) * 2 ^ 63 + x.toBits.toNat % 2 ^ 63 :=
    toNat_flipSign x.toBits.toBitVec
  have hle : (flipSign x.toBits.toBitVec).toNat % 2 ^ 63 ≤ infinityBits := by
    rw [hflip]
    omega
  change (UnpackedFloat.pack .binary64
    (UnpackedFloat.unpack .binary64 x.toBits.toBitVec).neg).toNat = _
  rw [neg_unpack, pack_unpack, if_neg (not_isNaNBits_of_le hle), hflip]

/-- Negation sets the sign bit of a double that has none. -/
theorem neg_ofMagnitudeBits {bits : Nat} (h : bits ≤ infinityBits) :
    -ofMagnitudeBits false bits = ofMagnitudeBits true bits := by
  have hbits := toNat_toBits_ofMagnitudeBits false h
  have hbelow := h
  unfold infinityBits at hbelow
  apply eq_of_toBits
  rw [toNat_toBits_neg _ (by rw [hbits, infinityBits]; simp; omega), hbits,
    toNat_toBits_ofMagnitudeBits true h]
  simp
  omega

theorem ofBitVec_unpackSign (x : Float) :
    Sign.ofBitVec (@unpackSign .binary64 x.toBits.toBitVec) =
      if isNegative x then .negative else .positive := by
  have hbit : (@unpackSign .binary64 x.toBits.toBitVec).toNat = x.toBits.toNat / 2 ^ 63 % 2 :=
    toNat_unpackSign x.toBits.toBitVec
  rw [isNegative, Sign.ofBitVec, ← hbit]
  rcases BitVec.eq_zero_or_eq_one (@unpackSign .binary64 x.toBits.toBitVec) with h | h <;>
    rw [h] <;> rfl

theorem isFinite_iff_exponentField {x : Float} : x.isFinite ↔ exponentField x ≠ 2047 := by
  have he := toNat_unpackExponent x.toBits.toBitVec
  change _ = x.toBits.toNat / 2 ^ 52 % 2 ^ 11 at he
  have htop : @unpackExponent .binary64 x.toBits.toBitVec = -1#11 ↔ exponentField x = 2047 := by
    rw [exponentField, ← he]
    exact ⟨fun h => by rw [h]; rfl, fun h => BitVec.eq_of_toNat_eq h⟩
  rw [ne_eq, ← htop]
  change (UnpackedFloat.unpack .binary64 x.toBits.toBitVec).isFinite = true ↔ _
  rcases unpack_cases x.toBits.toBitVec with ⟨top, -, hb⟩ | ⟨top, -, hb⟩ | ⟨bottom, -, hb⟩ |
    ⟨bottom, hm, hb⟩ | ⟨below, -, hm, hb⟩
  · rw [hb]
    exact ⟨fun h => Bool.noConfusion h, fun h => absurd top h⟩
  · rw [hb]
    exact ⟨fun h => Bool.noConfusion h, fun h => absurd top h⟩
  · rw [hb, bottom]
    exact ⟨fun _ => by decide, fun _ => rfl⟩
  · rw [hb, bottom]
    exact ⟨fun _ => by decide, fun _ => rfl⟩
  · rw [hb]
    exact ⟨fun _ => below, fun _ => rfl⟩

theorem isNaN_eq_false_of_isFinite {x : Float} (h : x.isFinite) : x.isNaN = false := by
  change (UnpackedFloat.unpack .binary64 x.toBits.toBitVec).isFinite = true at h
  change (UnpackedFloat.unpack .binary64 x.toBits.toBitVec).isNaN = false
  cases hu : UnpackedFloat.unpack .binary64 x.toBits.toBitVec with
  | notANumber => rw [hu] at h; cases h
  | infinity | zero | finite => rfl

theorem isInf_eq_false_of_isFinite {x : Float} (h : x.isFinite) : x.isInf = false := by
  change (UnpackedFloat.unpack .binary64 x.toBits.toBitVec).isFinite = true at h
  change (UnpackedFloat.unpack .binary64 x.toBits.toBitVec).isInf = false
  cases hu : UnpackedFloat.unpack .binary64 x.toBits.toBitVec with
  | infinity => rw [hu] at h; cases h
  | notANumber | zero | finite => rfl

/-- The bits below the sign. -/
def magnitudeBits (x : Float) : Nat := exponentField x * 2 ^ 52 + fractionField x

theorem magnitudeBits_lt_of_isFinite {x : Float} (h : x.isFinite) :
    magnitudeBits x < infinityBits := by
  have hne := isFinite_iff_exponentField.mp h
  unfold magnitudeBits exponentField fractionField infinityBits at *
  omega

/-- A finite double is its magnitude with a sign. -/
theorem eq_ofMagnitudeBits {x : Float} (h : x.isFinite) :
    x = ofMagnitudeBits (isNegative x) (magnitudeBits x) := by
  have hlt := x.toBits.toNat_lt
  apply eq_of_toBits
  rw [toNat_toBits_ofMagnitudeBits _ (Nat.le_of_lt (magnitudeBits_lt_of_isFinite h))]
  unfold isNegative magnitudeBits exponentField fractionField
  split
  · rename_i negative
    rw [beq_iff_eq] at negative
    omega
  · rename_i positive
    rw [beq_iff_eq] at positive
    omega

theorem isFinite_ofMagnitudeBits_iff {negative : Bool} {bits : Nat} (h : bits ≤ infinityBits) :
    (ofMagnitudeBits negative bits).isFinite ↔ bits < infinityBits := by
  rw [isFinite_iff_exponentField, exponentField, toNat_toBits_ofMagnitudeBits negative h]
  unfold infinityBits at *
  split <;> omega

/-! ## The fields of a magnitude with a sign -/

theorem isNegative_ofMagnitudeBits (negative : Bool) {bits : Nat} (h : bits ≤ infinityBits) :
    isNegative (ofMagnitudeBits negative bits) = negative := by
  rw [isNegative, toNat_toBits_ofMagnitudeBits negative h, Bool.eq_iff_iff, beq_iff_eq]
  unfold infinityBits at h
  cases negative <;> simp <;> omega

theorem exponentField_ofMagnitudeBits (negative : Bool) {bits : Nat} (h : bits ≤ infinityBits) :
    exponentField (ofMagnitudeBits negative bits) = bits / 2 ^ 52 := by
  rw [exponentField, toNat_toBits_ofMagnitudeBits negative h]
  unfold infinityBits at h
  split <;> omega

theorem fractionField_ofMagnitudeBits (negative : Bool) {bits : Nat} (h : bits ≤ infinityBits) :
    fractionField (ofMagnitudeBits negative bits) = bits % 2 ^ 52 := by
  rw [fractionField, toNat_toBits_ofMagnitudeBits negative h]
  split <;> omega

theorem magnitudeBits_ofMagnitudeBits (negative : Bool) {bits : Nat} (h : bits ≤ infinityBits) :
    magnitudeBits (ofMagnitudeBits negative bits) = bits := by
  rw [magnitudeBits, exponentField_ofMagnitudeBits negative h,
    fractionField_ofMagnitudeBits negative h]
  omega

end Comparand.Binary64
