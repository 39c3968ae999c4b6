import Comparand.Proofs.OwnValues
import Comparand.Proofs.Positional

/-!
# Integers that are read as numbers

An integer arrives as a word, as an integer of a document, or as a text of its digits. As a word,
and so as an integer of a document that fits a word, it is read exactly or not at all. A text is
read as the numeral that it is, always; it is read exactly if and only if the integer is a double.
An integer of a document that fits no word is read exactly if it is a double.
-/
namespace Comparand
open Binary64 (IsExactly)
open Formula (AllDigits)

namespace Word

theorem ofInt?_toInt (n : Int64) : ofInt? n.toInt = some n := by
  rw [ofInt?, if_pos ⟨n.le_toInt, n.toInt_lt⟩, Int64.ofInt_toInt]

theorem toInt_of_ofInt? {n : Int} {word : Int64} (h : ofInt? n = some word) : word.toInt = n := by
  unfold ofInt? at h
  split at h
  · rename_i fits
    cases h
    exact Int64.toInt_ofInt_of_le fits.1 fits.2
  · cases h

end Word

/-! ## Texts -/

/-- The texts of an integer: digits, with a sign in front of them or none. -/
inductive Spells : List Char → Int → Prop
  | plain {digits : List Char} : digits ≠ [] → AllDigits digits →
      Spells digits (Decimal.ofDigits digits)
  | plus {digits : List Char} : digits ≠ [] → AllDigits digits →
      Spells ('+' :: digits) (Decimal.ofDigits digits)
  | minus {digits : List Char} : digits ≠ [] → AllDigits digits →
      Spells ('-' :: digits) (-(Decimal.ofDigits digits : Int))

namespace Decimal
variable {text digits : List Char} {negative : Bool} {n : Int}

/-- Digits behind a sign are read as the double nearest to what they spell. -/
theorem read?_integer (hsign : splitSign text = (negative, digits)) (some_digits : digits ≠ [])
    (h : AllDigits digits) :
    read? text = some (Binary64.ofRatio negative (ofDigits digits) 1) := by
  obtain ⟨c, rest, rfl⟩ := List.exists_cons_of_ne_nil some_digits
  rw [read?_of_splitSign hsign (.inl (h c (by simp))), unsigned?_whole some_digits h,
    Option.map_some]
  by_cases hzero : ofDigits (c :: rest) = 0
  · simp [toFloat, hzero]
  · simp [toFloat, hzero]

/-- The text of an integer is read, and exactly so if the integer is a double. -/
theorem exists_read?_of_spells (h : Spells text n) :
    ∃ x, read? text = some x ∧ ((∃ y, IsExactly y n) → IsExactly x n) := by
  cases h with
  | plain some_digits hdigits =>
    obtain ⟨c, rest, rfl⟩ := List.exists_cons_of_ne_nil some_digits
    have hsign := splitSign_of_isDigit (hdigits c (by simp)) rest
    exact ⟨_, read?_integer hsign some_digits hdigits,
      fun isDouble => Binary64.isExactly_ofRatio isDouble rfl⟩
  | plus some_digits hdigits =>
    exact ⟨_, read?_integer rfl some_digits hdigits,
      fun isDouble => Binary64.isExactly_ofRatio isDouble rfl⟩
  | minus some_digits hdigits =>
    exact ⟨_, read?_integer rfl some_digits hdigits,
      fun isDouble => Binary64.isExactly_ofRatio isDouble rfl⟩

end Decimal

theorem spells_toDigits (n : Nat) : Spells (Nat.toDigits 10 n) n := by
  have h := Spells.plain Nat.toDigits_ne_nil (Shortest.allDigits_toDigits n)
  rwa [Decimal.ofDigits_toDigits] at h

theorem spells_toString (n : Int) : Spells (toString n).toList n := by
  cases n with
  | ofNat n =>
    change Spells n.repr.toList n
    rw [Nat.toList_repr]
    exact spells_toDigits n
  | negSucc n =>
    have h := Spells.minus Nat.toDigits_ne_nil (Shortest.allDigits_toDigits (n + 1))
    rw [Decimal.ofDigits_toDigits] at h
    change Spells ("-" ++ (n + 1).repr).toList _
    rw [String.toList_append, Nat.toList_repr]
    exact h

theorem Spells.not_isSpace {text : List Char} {n : Int} (h : Spells text n) {c : Char}
    (mem : c ∈ text) : Text.isSpace c = false := by
  have digit {digits : List Char} (hdigits : AllDigits digits) {c : Char} (mem : c ∈ digits) :
      Text.isSpace c = false := by
    have hrange : 48 ≤ c.toNat ∧ c.toNat ≤ 57 := Char.isDigit_iff_toNat.mp (hdigits c mem)
    simp only [Text.isSpace, Bool.or_eq_false_iff, Bool.and_eq_false_iff, decide_eq_false_iff_not]
    omega
  cases h with
  | plain _ hdigits => exact digit hdigits mem
  | plus _ hdigits =>
    rcases List.mem_cons.mp mem with rfl | mem
    · rfl
    · exact digit hdigits mem
  | minus _ hdigits =>
    rcases List.mem_cons.mp mem with rfl | mem
    · rfl
    · exact digit hdigits mem

theorem Text.trim_eq_self {text : List Char} (h : ∀ c ∈ text, isSpace c = false) :
    trim text = text := by
  have keep (text : List Char) (h : ∀ c ∈ text, isSpace c = false) :
      text.dropWhile isSpace = text := by
    cases text with
    | nil => rfl
    | cons c rest => rw [List.dropWhile_cons, h c (by simp)]; rfl
  rw [trim, keep text h, keep _ (by simpa using h), List.reverse_reverse]

/-! ## Values -/

namespace Value
variable {n : Int} {value : Value}

/-- The values that an integer arrives as. -/
inductive Presents (n : Int) : Value → Prop
  | word {word : Int64} : word.toInt = n → Presents n (.integer word)
  | document {value : Value} : ofDocument? (.integer n) = some value → Presents n value
  | text {t : String} : Spells (Text.trim t.toList) n → Presents n (.text t)

theorem isExactly_of_asReal_integer {word : Int64} {x : Float} (h : (integer word).asReal = .ok x) :
    IsExactly x word.toInt := by
  rw [asReal_integer] at h
  split at h
  · rename_i safe
    cases h
    exact Binary64.isExactly_ofInt (Nat.lt_of_le_of_lt safe (by decide))
  · cases h

theorem Presents.cases (h : value.Presents n) :
    (∃ word : Int64, word.toInt = n ∧ value = .integer word) ∨
      (∀ word, value ≠ .integer word) ∧
        ∃ x, value.asReal = .ok x ∧ ((∃ y, IsExactly y n) → IsExactly x n) := by
  cases h with
  | word hword => exact .inl ⟨_, hword, rfl⟩
  | document hvalue =>
    rw [ofDocument?] at hvalue
    cases hword : Word.ofInt? n with
    | some word =>
      rw [hword] at hvalue
      exact .inl ⟨word, Word.toInt_of_ofInt? hword, (Option.some.inj hvalue).symm⟩
    | none =>
      rw [hword] at hvalue
      obtain rfl := Option.some.inj hvalue
      exact .inr ⟨nofun, _, asReal_real _, Binary64.isExactly_ofInt_iff.mpr⟩
  | text hspells =>
    obtain ⟨x, hread, hexact⟩ := Decimal.exists_read?_of_spells hspells
    refine .inr ⟨nofun, x, ?_, hexact⟩
    rw [asReal, real?, hread]
    rfl

theorem presents_toString (n : Int) : (Value.text (toString n)).Presents n := by
  apply Presents.text
  rw [Text.trim_eq_self fun c mem => (spells_toString n).not_isSpace mem]
  exact spells_toString n

end Value

theorem PathVariable.read_number {v : PathVariable} {context : Context} {document : Document}
    {raw : Value} (kind : v.kind = .number) (found : context.lookup v.resolvedPath = some document)
    (hraw : Value.ofDocument? document = some raw) :
    v.read context = (raw.asReal.map .real).mapError fun _ =>
      .contextTypeMismatch (dotted v.resolvedPath) raw.print .number := by
  rw [read, found, kind]
  simp only [hraw, FieldKind.read?, FieldKind.shape, Value.asReal]
  cases raw.real? <;> rfl

namespace Value
variable {n : Int} {value : Value}

/--
An integer that arrives as a word is read exactly, or reported if it is too large; a text of it is
always read. What is read is the integer exactly wherever that is a double. A number field gives the
same number.
-/
theorem asReal_of_presents (h : value.Presents n) :
    (∀ x, value.asReal = .ok x →
      (∃ word, value = .integer word) ∨ (∃ y, IsExactly y n) → IsExactly x n) ∧
    ((∃ word, value = .integer word) →
      ((∃ failure, value.asReal = .error failure) ↔ Word.maxSafe < n.natAbs)) ∧
    ((∃ t, value = .text t) → ∃ x, value.asReal = .ok x) ∧
    ∀ (v : PathVariable) (context : Context) (document : Document), v.kind = .number →
      context.lookup v.resolvedPath = some document → ofDocument? document = some value →
      v.read context = (value.asReal.map .real).mapError fun _ =>
        .contextTypeMismatch (dotted v.resolvedPath) value.print .number := by
  refine ⟨?_, ?_, ?_, fun v context document => PathVariable.read_number⟩
  all_goals rcases h.cases with ⟨word, rfl, rfl⟩ | ⟨noWord, x, hread, hexact⟩
  · exact fun x hread _ => isExactly_of_asReal_integer hread
  · rintro y hread' (⟨word, rfl⟩ | isDouble)
    · exact absurd rfl (noWord word)
    · cases hread.symm.trans hread'
      exact hexact isDouble
  · intro _
    rw [asReal_integer]
    split <;> simp <;> omega
  · rintro ⟨word, rfl⟩
    exact absurd rfl (noWord word)
  · rintro ⟨t, ht⟩
    cases ht
  · exact fun _ => ⟨x, hread⟩

/-- The digits of an integer that is no double are read as another one. -/
theorem digits_read_inexactly :
    (Value.text "9007199254740993").Presents 9007199254740993 ∧
      (Value.text "9007199254740993").asReal = .ok 9007199254740992 ∧
      ¬ IsExactly 9007199254740992 9007199254740993 := by
  have other : IsExactly 9007199254740992 9007199254740992 := ⟨by decide +kernel, by decide +kernel⟩
  exact ⟨presents_toString 9007199254740993, by decide +kernel, fun h => nomatch h.unique other⟩

theorem power_read_exactly :
    (Value.text "1152921504606846976").Presents 1152921504606846976 ∧
      (Value.text "1152921504606846976").asReal = .ok 1152921504606846976 ∧
      IsExactly 1152921504606846976 1152921504606846976 ∧
      (PathVariable.mk ["n"] .number none).read (.object [("n", .text "1152921504606846976")]) =
        .ok (.real 1152921504606846976) := by
  have presents : (Value.text "1152921504606846976").Presents 1152921504606846976 :=
    presents_toString 1152921504606846976
  have hread : (Value.text "1152921504606846976").asReal = .ok 1152921504606846976 := by
    decide +kernel
  have isDouble : ∃ y, IsExactly y 1152921504606846976 :=
    ⟨1152921504606846976, by decide +kernel, by decide +kernel⟩
  obtain ⟨exactly, -, -, field⟩ := asReal_of_presents presents
  refine ⟨presents, hread, exactly _ hread (.inr isDouble), ?_⟩
  rw [field _ _ (.text "1152921504606846976") rfl rfl rfl, hread]
  rfl

end Value

end Comparand
