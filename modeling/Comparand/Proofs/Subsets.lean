import Comparand.Operand.Comparison
import Comparand.Proofs.Results
import Comparand.Variable.Path

/-!
# Subset tests and the order of elements

A subset test asks for one element after another whether it belongs to the set, and it stops at the
first that does not or that cannot be told. If all elements belong, that is the answer in every
order. Otherwise the answer is that of the element which happens to be asked for first among those
that do not belong and those that fail; so the order matters if and only if there are both. Where
every member of the set has a value no element fails, and the order never matters.
-/
namespace Comparand

namespace Value
variable {actual value : Value} {failure : Failure}

theorem isTypeMismatch_of_asReal (h : value.asReal = .error failure) : failure.isTypeMismatch := by
  unfold asReal at h
  cases hx : value.real? with
  | none =>
    rw [hx] at h
    cases h
    rfl
  | some x =>
    rw [hx] at h
    cases h

theorem isTypeMismatch_of_asSet (h : value.asSet = .error failure) : failure.isTypeMismatch := by
  cases value with
  | set items => cases h
  | _ =>
    cases h
    rfl

theorem isTypeMismatch_of_isEqualTo (h : actual.isEqualTo value = .error failure) :
    failure.isTypeMismatch := by
  have numbers (h : (do return (← actual.asReal) == (← value.asReal)) =
      (.error failure : Except Failure Bool)) : failure.isTypeMismatch := by
    rcases bind_eq_error_iff.mp h with h | ⟨x, -, h⟩
    · exact isTypeMismatch_of_asReal h
    · rcases bind_eq_error_iff.mp h with h | ⟨y, -, h⟩
      · exact isTypeMismatch_of_asReal h
      · cases h
  cases actual with
  | text | bool => cases h
  | set xs =>
    rcases bind_eq_error_iff.mp h with h | ⟨ys, -, h⟩
    · exact isTypeMismatch_of_asSet h
    · cases h
  | integer | real => exact numbers h

end Value

namespace Operand
variable {V : Type} [Variable V] {members : List (Operand V)} {context : Context}

/-! ## One test -/

theorem answer_isSubset_set (members : List (Operand V)) (items : List Element)
    (context : Context) :
    (Operand.set members).answer (.isSubset (.set items)) context =
      allBelong members context items := rfl

theorem answer_belongsTo_set (members : List (Operand V)) (value : Value) (context : Context) :
    (Operand.set members).answer (.belongsTo value) context =
      someEquals value context members := rfl

theorem allBelong_eq_ok_true_iff {items : List Element} :
    allBelong members context items = .ok true ↔
      ∀ item ∈ items, someEquals (.ofElement item) context members = .ok true := by
  induction items with
  | nil => simp [allBelong]
  | cons item items ih =>
    rw [allBelong, bind_eq_ok_iff, List.forall_mem_cons, ← ih]
    constructor
    · rintro ⟨belongs, hitem, hrest⟩
      cases belongs with
      | true => exact ⟨hitem, hrest⟩
      | false => cases hrest
    · rintro ⟨hitem, hrest⟩
      exact ⟨true, hitem, hrest⟩

theorem exists_of_allBelong_ne {items : List Element}
    (h : allBelong members context items ≠ .ok true) :
    ∃ item ∈ items,
      someEquals (.ofElement item) context members = allBelong members context items := by
  induction items with
  | nil => exact absurd rfl h
  | cons item items ih =>
    rw [allBelong] at h ⊢
    cases hitem : someEquals (.ofElement item) context members with
    | error failure => exact ⟨item, by simp, hitem⟩
    | ok belongs =>
      rw [hitem, ok_bind] at h
      cases belongs with
      | false => exact ⟨item, by simp, hitem⟩
      | true =>
        obtain ⟨other, mem, hother⟩ := ih h
        exact ⟨other, List.mem_cons_of_mem item mem, hother⟩

/-- An element that does not belong settles the test if it is asked for first. -/
theorem exists_perm_allBelong_eq {items : List Element} {item : Element} (mem : item ∈ items)
    (h : someEquals (.ofElement item) context members ≠ .ok true) :
    ∃ xs, xs.Perm items ∧
      allBelong members context xs = someEquals (.ofElement item) context members := by
  obtain ⟨front, rest, rfl⟩ := List.append_of_mem mem
  refine ⟨item :: (front ++ rest), List.perm_middle.symm, ?_⟩
  rw [allBelong]
  cases hitem : someEquals (.ofElement item) context members with
  | error failure => rfl
  | ok belongs =>
    cases belongs with
    | false => rfl
    | true => exact absurd hitem h

/-! ## All orders -/

/-- Unless one element is rejected and another one fails, any two orders come out the same. -/
theorem allBelong_concur {items xs ys : List Element} (hxs : xs.Perm items) (hys : ys.Perm items)
    (settled : ¬ ((∃ item ∈ items, someEquals (.ofElement item) context members = .ok false) ∧
      ∃ item ∈ items, ∃ failure,
        someEquals (.ofElement item) context members = .error failure)) :
    Concur Eq (allBelong members context xs) (allBelong members context ys) := by
  by_cases hall : ∀ item ∈ items, someEquals (.ofElement item) context members = .ok true
  · rw [allBelong_eq_ok_true_iff.mpr fun item mem => hall item (hxs.mem_iff.mp mem),
      allBelong_eq_ok_true_iff.mpr fun item mem => hall item (hys.mem_iff.mp mem)]
    exact .ok rfl
  · have answered (zs : List Element) (hzs : zs.Perm items) :
        allBelong members context zs ≠ .ok true ∧ ∃ item ∈ items,
          someEquals (.ofElement item) context members = allBelong members context zs := by
      have hne : allBelong members context zs ≠ .ok true := fun htrue =>
        hall fun item mem => allBelong_eq_ok_true_iff.mp htrue item (hzs.mem_iff.mpr mem)
      obtain ⟨item, mem, hitem⟩ := exists_of_allBelong_ne hne
      exact ⟨hne, item, hzs.mem_iff.mp mem, hitem⟩
    obtain ⟨hne, item, mem, hitem⟩ := answered xs hxs
    obtain ⟨hne', other, mem', hother⟩ := answered ys hys
    cases hx : allBelong members context xs with
    | error failure =>
      cases hy : allBelong members context ys with
      | error failure' => exact .error
      | ok b =>
        cases b with
        | true => exact absurd hy hne'
        | false =>
          exact absurd ⟨⟨other, mem', hother.trans hy⟩, item, mem, failure, hitem.trans hx⟩ settled
    | ok b =>
      cases b with
      | true => exact absurd hx hne
      | false =>
        cases hy : allBelong members context ys with
        | error failure =>
          exact absurd ⟨⟨item, mem, hitem.trans hx⟩, other, mem', failure, hother.trans hy⟩ settled
        | ok b' =>
          cases b' with
          | true => exact absurd hy hne'
          | false => exact .ok rfl

/--
A subset test comes out the same in every order of the elements if and only if there are not both an
element that does not belong and an element for which that cannot be told.
-/
theorem isSubset_concur_iff (members : List (Operand V)) (items : List Element)
    (context : Context) :
    (∀ xs ys, xs.Perm items → ys.Perm items →
      Concur Eq ((Operand.set members).answer (.isSubset (.set xs)) context)
        ((Operand.set members).answer (.isSubset (.set ys)) context)) ↔
    ¬ ((∃ item ∈ items,
        (Operand.set members).answer (.belongsTo (.ofElement item)) context = .ok false) ∧
      ∃ item ∈ items, ∃ failure,
        (Operand.set members).answer (.belongsTo (.ofElement item)) context = .error failure) := by
  simp only [answer_isSubset_set, answer_belongsTo_set]
  constructor
  · rintro concur ⟨⟨item, mem, hfalse⟩, other, mem', failure, hfails⟩
    obtain ⟨xs, hxs, hxsFalse⟩ := exists_perm_allBelong_eq mem (by rw [hfalse]; nofun)
    obtain ⟨ys, hys, hysFails⟩ := exists_perm_allBelong_eq mem' (by rw [hfails]; nofun)
    have h := concur xs ys hxs hys
    rw [hxsFalse, hysFails, hfalse, hfails] at h
    cases h
  · intro settled xs ys hxs hys
    exact allBelong_concur hxs hys settled

/-- `x + 1` over a field that holds a number. -/
def successor : Arithmetic PathVariable where
  tokens := [.token "x", .token "+", .token "1"]
  bindings := [("x", { path := ["x"], kind := .number })]
  separator := ":"

theorem successor_isSubset_text_first :
    (Operand.set [.arithmetic successor]).answer
      (.isSubset (.set [.text "abc", .number 1])) (.object []) = .ok false := by
  decide +kernel

theorem successor_isSubset_number_first :
    (Operand.set [.arithmetic successor]).answer
      (.isSubset (.set [.number 1, .text "abc"])) (.object []) =
        .error (.missingContextValue "x") := by
  decide +kernel

/-- Where there is no `x`, a text does not belong to the set, and a number cannot be told to. -/
theorem successor_isSubset_order :
    [Element.text "abc", .number 1].Perm [.number 1, .text "abc"] ∧
      (Operand.set [.arithmetic successor]).answer
        (.isSubset (.set [.text "abc", .number 1])) (.object []) = .ok false ∧
      (Operand.set [.arithmetic successor]).answer
        (.isSubset (.set [.number 1, .text "abc"])) (.object []) =
          .error (.missingContextValue "x") ∧
      ¬ Concur Eq
        ((Operand.set [.arithmetic successor]).answer
          (.isSubset (.set [.text "abc", .number 1])) (.object []))
        ((Operand.set [.arithmetic successor]).answer
          (.isSubset (.set [.number 1, .text "abc"])) (.object [])) := by
  refine ⟨.swap _ _ _, successor_isSubset_text_first, successor_isSubset_number_first, ?_⟩
  rw [successor_isSubset_text_first, successor_isSubset_number_first]
  nofun

/-! ## Members with values -/

theorem isTypeMismatch_of_equals {operand : Operand V} {value actual : Value} {failure : Failure}
    (hactual : toValue context operand = .ok actual)
    (h : operand.equals value context = .error failure) : failure.isTypeMismatch := by
  rcases bind_eq_error_iff.mp h with h | ⟨_, -, h⟩
  · unfold require at h
    split at h
    · cases h
    · cases h
      rfl
  · cases operand with
    | string text => cases h
    | number x =>
      rcases bind_eq_error_iff.mp h with h | ⟨y, -, h⟩
      · exact Value.isTypeMismatch_of_asReal h
      · cases h
    | arithmetic expression =>
      rcases bind_eq_error_iff.mp h with h | ⟨y, -, h⟩
      · exact Value.isTypeMismatch_of_asReal h
      · rw [toValue] at hactual
        obtain ⟨x, hx, -⟩ := bind_eq_ok_iff.mp hactual
        rw [hx] at h
        cases h
    | set others =>
      rcases bind_eq_error_iff.mp h with h | ⟨y, -, h⟩
      · exact Value.isTypeMismatch_of_asSet h
      · rw [toValue] at hactual
        obtain ⟨x, hx, -⟩ := bind_eq_ok_iff.mp hactual
        rw [resolve, hx] at h
        cases h
    | «variable» v =>
      rw [toValue] at hactual
      rw [matchesValue, Variable.equals, hactual] at h
      exact Value.isTypeMismatch_of_isEqualTo h

theorem exists_someEquals_eq_ok
    (values : ∀ member ∈ members, ∃ actual, toValue context member = .ok actual) (value : Value) :
    ∃ belongs, someEquals value context members = .ok belongs := by
  induction members with
  | nil => exact ⟨false, rfl⟩
  | cons member members ih =>
    rw [List.forall_mem_cons] at values
    obtain ⟨⟨actual, hactual⟩, hrest⟩ := values
    rw [someEquals]
    cases hmember : member.equals value context with
    | ok belongs =>
      cases belongs with
      | true => exact ⟨true, rfl⟩
      | false => exact ih hrest
    | error failure =>
      simp only [isTypeMismatch_of_equals hactual hmember, if_true]
      exact ih hrest

/-- A set whose members all have values answers a subset test alike in every order. -/
theorem isSubset_concur_of_values {items xs ys : List Element}
    (values : ∀ member ∈ members, ∃ actual, toValue context member = .ok actual)
    (hxs : xs.Perm items) (hys : ys.Perm items) :
    Concur Eq ((Operand.set members).answer (.isSubset (.set xs)) context)
      ((Operand.set members).answer (.isSubset (.set ys)) context) := by
  rw [answer_isSubset_set, answer_isSubset_set]
  apply allBelong_concur hxs hys
  rintro ⟨-, item, -, failure, hfails⟩
  obtain ⟨belongs, hbelongs⟩ := exists_someEquals_eq_ok values (.ofElement item)
  rw [hbelongs] at hfails
  cases hfails

end Operand

end Comparand
