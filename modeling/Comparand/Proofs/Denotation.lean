import Comparand.Operand.Comparison
import Comparand.Proofs.Equivalence
import Comparand.Proofs.Substitution

/-!
# Equivalent operands denote the same

No context can tell two equivalent operands apart: both have a value or neither has, the values are
the same as elements of a set, and both compare with any value in the same way. Their failures need
not be the same, since the members of equivalent sets may stand in different orders, and the first
member that fails is the one that is reported.

What equivalence amounts to is said once, as a relation between operands; each statement about
denotations is then a case for each way in which two operands can be alike.
-/
namespace Comparand

/-! ## Expressions -/

namespace Arithmetic
variable {V : Type} [Variable V] {a b : Arithmetic V}

/-- An evaluation looks at the tokens, the separator and the variables, and not at groups. -/
theorem evaluate_congr (hflattened : a.flattened = b.flattened)
    (hseparator : a.separator = b.separator)
    (hlookup : ∀ identifier, a.bindings.lookup identifier = b.bindings.lookup identifier)
    (context : Context) : a.evaluate context = b.evaluate context := by
  have hreplace (stage : Stage) : a.replaceIn stage context = b.replaceIn stage context := by
    funext token
    rw [replaceIn, replaceIn, replacement, replacement, hseparator, hlookup]
  have hsubstituted : a.substituted context = b.substituted context := by
    simp only [substituted, substitute_eq_mapM, hflattened, hreplace]
  rw [evaluate, evaluate, hsubstituted]

end Arithmetic

namespace Operand
variable {V : Type} [Variable V]

/-! ## What equivalence amounts to -/

/-- Operands that differ in the sign of zero, in groups and in the order of members at most. -/
inductive Alike : Operand V → Operand V → Prop
  | refl {a : Operand V} : Alike a a
  | number {x y : Float} : x == y → Alike (.number x) (.number y)
  | arithmetic {e e' : Arithmetic V} : (∀ context, e.evaluate context = e'.evaluate context) →
      Alike (.arithmetic e) (.arithmetic e')
  | set {members others : List (Operand V)} (pairing : Fin members.length ≃ Fin others.length) :
      (∀ i, Alike members[i] others[pairing i]) → Alike (.set members) (.set others)

theorem alike_of_isEquivalent [DecidableEq V] {a b : Operand V} (ha : a.Built) (hb : b.Built)
    (h : a.isEquivalent b) : Alike a b := by
  induction ha generalizing b with
  | string =>
    obtain rfl := isEquivalent_string_iff.mp h
    exact .refl
  | number =>
    cases hb with
    | number => exact .number h
    | _ => cases h
  | arithmetic he =>
    cases hb with
    | arithmetic he' =>
      obtain ⟨hflattened, hseparator, -, hlookup⟩ := (Arithmetic.isEquivalent_iff he he').mp h
      exact .arithmetic (Arithmetic.evaluate_congr hflattened hseparator hlookup)
    | _ => cases h
  | set hmembers ih =>
    cases hb with
    | set hothers =>
      obtain ⟨pairing, hpairs⟩ := (isEquivalent_set_iff (.set hmembers) (.set hothers)).mp h
      exact .set pairing fun i =>
        ih _ (List.getElem_mem _) (hothers _ (List.getElem_mem _)) (hpairs i)
    | _ => cases h
  | var =>
    obtain rfl := isEquivalent_variable_iff.mp h
    exact .refl

variable {a b : Operand V}

theorem Alike.capabilities_eq (h : Alike a b) : a.capabilities = b.capabilities := by
  cases h <;> rfl

/-! ## Values -/

/-- The element that an operand is as a member of a set. -/
def toElement (context : Context) (operand : Operand V) : Except Failure Element := do
  return (← toValue context operand).toElement

theorem elements_eq_mapM (context : Context) (members : List (Operand V)) :
    elements context members = members.mapM (toElement context) := by
  induction members with
  | nil => rfl
  | cons member members ih =>
    rw [elements, ih, List.mapM_cons, toElement, bind_assoc]
    rfl

theorem toValue_set (context : Context) (members : List (Operand V)) :
    toValue context (.set members) = do return .set (← resolve members context) := by
  rw [toValue, resolve, bind_assoc]
  rfl

/-- Members that denote the same in pairs make up the same set, in whatever order they stand. -/
theorem resolve_concur {members others : List (Operand V)} {context : Context}
    (pairing : Fin members.length ≃ Fin others.length)
    (h : ∀ i, Concur (fun x y => x.toElement.same y.toElement)
      (toValue context members[i]) (toValue context others[pairing i])) :
    Concur (fun xs ys => Element.sameSet xs ys)
      (resolve members context) (resolve others context) := by
  have helement (i : Fin members.length) : Concur (fun x y => Element.same x y)
      (members[i].toElement context) (others[pairing i].toElement context) :=
    (h i).bind fun _ _ hsame => .ok hsame
  rw [resolve, resolve, elements_eq_mapM, elements_eq_mapM]
  apply Concur.bind (Concur.mapM ?left ?right)
  case left =>
    intro member mem
    obtain ⟨i, hi, rfl⟩ := List.getElem_of_mem mem
    exact ⟨_, List.getElem_mem _, helement ⟨i, hi⟩⟩
  case right =>
    intro other mem
    obtain ⟨j, hj, rfl⟩ := List.getElem_of_mem mem
    refine ⟨members[pairing.symm ⟨j, hj⟩], List.getElem_mem _, ?_⟩
    simpa using helement (pairing.symm ⟨j, hj⟩)
  intro xs ys hmatched
  apply Concur.ok
  rw [Element.sameSet_collect_iff]
  exact Element.same_set_iff.mpr hmatched

theorem Alike.toValue_concur (h : Alike a b) (context : Context) :
    Concur (fun x y => x.toElement.same y.toElement) (a.toValue context) (b.toValue context) := by
  induction h with
  | refl => exact .refl (fun value => Element.same_refl value.toElement) _
  | number hxy => exact .ok (Element.sameNumber_iff.mpr (.inl hxy))
  | arithmetic hevaluate =>
    rw [toValue, toValue, hevaluate]
    exact .refl (fun value => Element.same_refl value.toElement) _
  | set pairing _ ih =>
    rw [toValue_set, toValue_set]
    exact (resolve_concur pairing ih).bind fun _ _ hsame => .ok hsame

/-! ## Comparisons -/

/-- Alike operands take part in the same comparisons, so only the replies have to be compared. -/
theorem Alike.answer_concur (h : Alike a b) {question : Question} {context : Context}
    (hreply : Concur Eq (a.reply question context) (b.reply question context)) :
    Concur Eq (a.answer question context) (b.answer question context) := by
  rw [answer, answer, require, require, supports, supports, h.capabilities_eq]
  split
  · exact hreply
  · exact .error

theorem Alike.reply_equals_concur (h : Alike a b) (value : Value) (context : Context) :
    Concur Eq (a.reply (.equals value) context) (b.reply (.equals value) context) := by
  rw [reply, reply]
  cases h with
  | refl => exact .refl (fun _ => rfl) _
  | number hxy =>
    simp only [matchesValue, BEq.congr_left hxy]
    exact .refl (fun _ => rfl) _
  | arithmetic hevaluate =>
    simp only [matchesValue, hevaluate]
    exact .refl (fun _ => rfl) _
  | set pairing hmembers =>
    rw [matchesValue, matchesValue]
    cases value.asSet with
    | error failure => exact .error
    | ok expected =>
      apply (resolve_concur pairing fun i => (hmembers i).toValue_concur context).bind
      intro xs ys hsame
      exact .ok (Element.sameSet_eq_of_sameSet hsame expected)

omit [Variable V] in
theorem cardinality_eq {members others : List (Operand V)}
    (pairing : Fin members.length ≃ Fin others.length) :
    cardinality members = cardinality others := by
  rw [cardinality, cardinality, Fin.equiv_iff_eq.mp ⟨pairing⟩]

theorem Alike.reply_lessThan (h : Alike a b) (value : Value) (context : Context) :
    a.reply (.lessThan value) context = b.reply (.lessThan value) context := by
  cases h with
  | refl => rfl
  | number hxy => simp only [reply, Binary64.lt_iff_of_beq_left hxy]
  | arithmetic hevaluate => simp only [reply, hevaluate]
  | set pairing => simp only [reply, cardinality_eq pairing]

theorem Alike.reply_greaterThan (h : Alike a b) (value : Value) (context : Context) :
    a.reply (.greaterThan value) context = b.reply (.greaterThan value) context := by
  cases h with
  | refl => rfl
  | number hxy => simp only [reply, Binary64.lt_iff_of_beq_right hxy]
  | arithmetic hevaluate => simp only [reply, hevaluate]
  | set pairing => simp only [reply, cardinality_eq pairing]

/--
Equivalent operands have the same value as elements of a set, and they compare alike with every
value, or else both of them fail.
-/
theorem denotes_of_isEquivalent [DecidableEq V] (ha : a.Built) (hb : b.Built)
    (h : a.isEquivalent b) (value : Value) (context : Context) :
    Concur (fun x y => x.toElement.same y.toElement) (a.toValue context) (b.toValue context) ∧
      Concur Eq (a.equals value context) (b.equals value context) ∧
      Concur Eq (a.answer (.lessThan value) context) (b.answer (.lessThan value) context) ∧
      Concur Eq (a.answer (.greaterThan value) context)
        (b.answer (.greaterThan value) context) := by
  have alike := alike_of_isEquivalent ha hb h
  refine ⟨alike.toValue_concur context, ?_, ?_, ?_⟩
  · rw [← answer_equals, ← answer_equals]
    exact alike.answer_concur (alike.reply_equals_concur value context)
  · apply alike.answer_concur
    rw [alike.reply_lessThan]
    exact .refl (fun _ => rfl) _
  · apply alike.answer_concur
    rw [alike.reply_greaterThan]
    exact .refl (fun _ => rfl) _

/-- `x / y` in a group of its own. -/
def groupedRatio : Arithmetic PathVariable := { ratio with tokens := [.group ratio.tokens] }

theorem groupedRatio_built :
    Arithmetic.ofTokens groupedRatio.tokens (Namespace.paths .number) ":" = .ok groupedRatio := rfl

def nested : Operand PathVariable :=
  .set [.set [.number 0, .string "a"], .arithmetic ratio, .number 0]

/-- The nested set with its members in another order and the other zeros. -/
def renested : Operand PathVariable :=
  .set [.number (-0), .arithmetic groupedRatio, .set [.string "a", .number (-0)]]

def fourHalves : Context := .object [("x", .integer 4), ("y", .integer 2)]

/-- What both of them denote when the ratio is two. -/
def nestedValue : Value := .set [.set [.text "a", .number 0], .number 0, .number 2]

theorem nested_built : nested.Built := by
  simp [nested, Built.arithmetic ratio_built]

theorem renested_built : renested.Built := by
  simp [renested, Built.arithmetic groupedRatio_built]

theorem nested_isEquivalent : nested.isEquivalent renested := by
  decide +kernel

theorem nested_denotes :
    nested.Built ∧ renested.Built ∧ nested.isEquivalent renested ∧
      nested.equals nestedValue fourHalves = .ok true ∧
      Concur (fun x y => x.toElement.same y.toElement)
        (nested.toValue fourHalves) (renested.toValue fourHalves) ∧
      Concur Eq (nested.equals nestedValue fourHalves) (renested.equals nestedValue fourHalves) ∧
      Concur Eq (nested.answer (.lessThan nestedValue) fourHalves)
        (renested.answer (.lessThan nestedValue) fourHalves) ∧
      Concur Eq (nested.answer (.greaterThan nestedValue) fourHalves)
        (renested.answer (.greaterThan nestedValue) fourHalves) :=
  ⟨nested_built, renested_built, nested_isEquivalent, by decide +kernel,
    denotes_of_isEquivalent nested_built renested_built nested_isEquivalent nestedValue fourHalves⟩

end Operand

end Comparand
