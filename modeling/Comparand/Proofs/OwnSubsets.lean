import Comparand.Proofs.Denotation
import Comparand.Proofs.Membership
import Comparand.Proofs.OwnValues

/-!
# Sets and their own values

Every set includes its own value. Each element of the value comes from a member, and that member
equals it, although the element need not be the member's value any more: an integer has become a
double on its way into the set. The other members have values as well, so whatever one of them fails
with is a mismatch, which is passed over. Only elements that are not-a-number and integers without a
reading as a double equal nothing.
-/
namespace Comparand

namespace Value

theorem isEqualTo_ofElement {value : Value} (number : value.toElement ≠ .number Float.nan)
    (safe : ∀ n, value = .integer n → n.toInt.natAbs ≤ Word.maxSafe) :
    value.isEqualTo (.ofElement value.toElement) = .ok true := by
  cases value with
  | integer n =>
    have equal : Binary64.ofInt n.toInt == Binary64.ofInt n.toInt :=
      Float.beq_self_iff.mpr (Binary64.ofInt_ne_nan n.toInt)
    simp [isEqualTo, toElement, ofElement, asReal_integer, asReal_real, safe n rfl, equal, pure,
      Except.pure]
  | real x =>
    refine (isEqualTo_self_iff (.real x)).mpr ⟨?_, by simp⟩
    rintro _ ⟨⟩ nan
    exact number (by simpa [toElement] using nan)
  | bool b => exact (isEqualTo_self_iff (.bool b)).mpr ⟨by simp, by simp⟩
  | text t => exact (isEqualTo_self_iff (.text t)).mpr ⟨by simp, by simp⟩
  | set items => exact (isEqualTo_self_iff (.set items)).mpr ⟨by simp, by simp⟩

end Value

theorem FieldKind.kind_of_read? {kind : FieldKind} {raw : Value} {n : Int64}
    (h : kind.read? raw = some (.integer n)) : kind = .integer := by
  cases kind with
  | integer => rfl
  | number => simp [read?] at h
  | bool | text => cases h
  | set => cases raw <;> cases h

theorem PathVariable.kind_of_read {v : PathVariable} {context : Context} {n : Int64}
    (h : v.read context = .ok (.integer n)) : v.kind = .integer := by
  obtain ⟨raw, hread⟩ := exists_of_read h
  exact FieldKind.kind_of_read? hread

namespace Operand

section
variable {V : Type} [Variable V] {members : List (Operand V)} {context : Context}

/-- Every element of the value of a set is the value of a member. -/
theorem exists_member_of_toValue {items : List Element}
    (h : toValue context (.set members) = .ok (.set items)) :
    (∀ member ∈ members, ∃ value, toValue context member = .ok value) ∧
      ∀ item ∈ items, ∃ member ∈ members, ∃ value,
        toValue context member = .ok value ∧ value.toElement = item := by
  rw [toValue, elements_eq_mapM] at h
  obtain ⟨found, hfound, hvalue⟩ := bind_eq_ok_iff.mp h
  cases hvalue
  constructor
  · intro member mem
    obtain ⟨x, -, hx⟩ := exists_of_mapM_eq_ok hfound mem
    obtain ⟨value, hvalue, -⟩ := bind_eq_ok_iff.mp hx
    exact ⟨value, hvalue⟩
  · intro item mem
    obtain ⟨member, hmember, hx⟩ := exists_of_mem_mapM hfound (Element.mem_of_mem_collect mem)
    obtain ⟨value, hvalue, hpure⟩ := bind_eq_ok_iff.mp hx
    cases hpure
    exact ⟨member, hmember, value, hvalue, rfl⟩

end
variable {members : List (Operand PathVariable)} {context : Context}

theorem equals_own_element {member : Operand PathVariable} {value : Value}
    (h : toValue context member = .ok value) (number : value.toElement ≠ .number Float.nan)
    (safe : ∀ n, value = .integer n → n.toInt.natAbs ≤ Word.maxSafe) :
    member.equals (.ofElement value.toElement) context = .ok true := by
  rw [equals, require, if_pos (supports_equality member), ok_bind, matchesValue_toValue h]
  exact Value.isEqualTo_ofElement number safe

theorem exists_variable_of_toValue {member : Operand PathVariable} {n : Int64}
    (h : toValue context member = .ok (.integer n)) :
    ∃ v, member = .variable v ∧ v.kind = .integer ∧ v.read context = .ok (.integer n) := by
  cases member with
  | string | number => cases h
  | arithmetic | set =>
    rw [toValue] at h
    obtain ⟨_, -, hpure⟩ := bind_eq_ok_iff.mp h
    cases hpure
  | «variable» v =>
    rw [toValue] at h
    exact ⟨v, rfl, PathVariable.kind_of_read h, h⟩

/--
A set holds its own value: in whatever order the elements are asked for, each of them equals a
member, and every member in front of that one differs from it or is passed over. Elements that are
not-a-number are excepted, and so are sets with an integer field among the members that holds an
integer beyond those that are read as numbers.
-/
theorem isSubset_own_value {items xs : List Element}
    (h : toValue context (.set members) = .ok (.set items))
    (numbers : .number Float.nan ∉ items)
    (safe : ∀ v n, .variable v ∈ members → v.kind = .integer →
      v.read context = .ok (.integer n) → n.toInt.natAbs ≤ Word.maxSafe)
    (order : xs.Perm items) :
    (Operand.set members).answer (.isSubset (.set xs)) context = .ok true ∧
      ∀ item ∈ xs, ∃ front member rest, members = front ++ member :: rest ∧
        member.equals (.ofElement item) context = .ok true ∧
        ∀ earlier ∈ front, ∀ failure, earlier.equals (.ofElement item) context = .error failure →
          failure.isTypeMismatch := by
  obtain ⟨values, sources⟩ := exists_member_of_toValue h
  have belongs : ∀ item ∈ xs, someEquals (.ofElement item) context members = .ok true := by
    intro item hitem
    have mem : item ∈ items := order.mem_iff.mp hitem
    obtain ⟨member, hmember, value, hvalue, rfl⟩ := sources item mem
    have hequals : member.equals (.ofElement value.toElement) context = .ok true := by
      refine equals_own_element hvalue (fun nan => numbers (nan ▸ mem)) ?_
      rintro n rfl
      obtain ⟨v, rfl, hkind, hread⟩ := exists_variable_of_toValue hvalue
      exact safe v n hmember hkind hread
    obtain ⟨front, rest, rfl⟩ := List.append_of_mem hmember
    refine someEquals_eq_ok_true hequals fun earlier hearlier failure fails => ?_
    obtain ⟨actual, hactual⟩ := values earlier (List.mem_append_left _ hearlier)
    exact isTypeMismatch_of_equals hactual fails
  rw [answer_isSubset_set]
  exact ⟨allBelong_eq_ok_true_iff.mpr belongs,
    fun item hitem => someEquals_eq_ok_true_iff.mp (belongs item hitem)⟩

/-- A set of a member of every kind, with repetitions that collapse. -/
def medley : List (Operand PathVariable) :=
  [.variable { path := ["count"], kind := .integer }, .string "a",
    .arithmetic successor, .variable { path := ["flag"], kind := .bool },
    .variable { path := ["list"], kind := .set }, .number 0, .number (-0),
    .set [.number Float.nan, .set [.variable { path := ["far"], kind := .integer }]],
    .variable { path := ["x"], kind := .text }, .variable { path := ["x"], kind := .number }]

def medleyContext : Context :=
  .object [("count", .integer 8), ("far", .integer 9007199254740993), ("flag", .bool true),
    ("list", .array [.integer 1, .text "b"]), ("x", .text "7")]

/-- The value of the set, where `x + 1` has collapsed into the count. -/
def medleyItems : List Element :=
  [.number 8, .text "a", .bool true, .set [.number 1, .text "b"], .number 0,
    .set [.number Float.nan, .set [.number 9007199254740992]], .text "7", .number 7]

theorem toValue_medley :
    toValue medleyContext (.set medley) = .ok (.set medleyItems) := by
  decide +kernel

theorem medley_numbers : Element.number Float.nan ∉ medleyItems := by
  decide +kernel

theorem medley_safe (v : PathVariable) (n : Int64) (mem : .variable v ∈ medley)
    (kind : v.kind = .integer) (h : v.read medleyContext = .ok (.integer n)) :
    n.toInt.natAbs ≤ Word.maxSafe := by
  simp only [medley, List.mem_cons, List.not_mem_nil, reduceCtorEq, false_or, or_false,
    Operand.variable.injEq] at mem
  rcases mem with rfl | rfl | rfl | rfl | rfl
  · have hread : PathVariable.read { path := ["count"], kind := .integer } medleyContext =
        .ok (.integer 8) := by decide +kernel
    cases hread.symm.trans h
    decide +kernel
  all_goals cases kind

/-- Not-a-number and the large integer of `far` stand in an inner set only. -/
theorem medley_isSubset_own_value :
    toValue medleyContext (.set medley) = .ok (.set medleyItems) ∧
      Element.number Float.nan ∉ medleyItems ∧
      (∀ v n, .variable v ∈ medley → v.kind = .integer →
        v.read medleyContext = .ok (.integer n) → n.toInt.natAbs ≤ Word.maxSafe) ∧
      (Operand.set medley).answer (.isSubset (.set medleyItems.reverse)) medleyContext =
        .ok true :=
  ⟨toValue_medley, medley_numbers, medley_safe,
    (isSubset_own_value toValue_medley medley_numbers medley_safe
      (List.reverse_perm medleyItems)).1⟩

end Operand

end Comparand
