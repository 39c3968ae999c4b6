import Comparand.Operand.Comparison
import Comparand.Proofs.Collecting
import Comparand.Variable.Path

/-!
# One text for each set

The texts of the items of a set are sorted at every level, so the text does not tell in what order
items stand at any depth. Nor does it tell equal sets apart, unless zero stands in one of them for
negative zero in the other: apart from that, equal sets that hold no element twice have the same
items in another order. A text operand therefore compares alike with all of them.
-/
namespace Comparand

/-! ## Sorting -/

theorem sortTexts_eq_of_perm {texts others : List String} (h : texts.Perm others) :
    sortTexts texts = sortTexts others := by
  let below (a b : String) : Bool := !decide (b < a)
  have below_iff (a b : String) : below a b ↔ a ≤ b := by
    simp only [below, Bool.not_eq_true', decide_eq_false_iff_not, String.not_lt]
  have sorted (texts : List String) : (texts.mergeSort below).Pairwise fun a b => below a b := by
    apply List.pairwise_mergeSort
    · simp only [below_iff]
      exact fun _ _ _ => String.le_trans
    · simp only [Bool.or_eq_true, below_iff]
      exact String.le_total
  refine List.Perm.eq_of_pairwise (fun a b _ _ hab hba => ?_) (sorted texts) (sorted others) ?_
  · exact String.le_antisymm ((below_iff a b).mp hab) ((below_iff b a).mp hba)
  · calc (texts.mergeSort below).Perm texts := List.mergeSort_perm texts below
      _ |>.Perm others := h
      _ |>.Perm (others.mergeSort below) := (List.mergeSort_perm others below).symm

namespace Element
variable {x y : Element} {xs ys : List Element}

/-! ## Order -/

/-- One element becomes another when the items of sets, at any depth, stand in another order. -/
inductive Reordered : Element → Element → Prop
  | refl {x : Element} : Reordered x x
  | set {xs ys : List Element} (pairing : Fin xs.length ≃ Fin ys.length) :
      (∀ i, Reordered (xs.get i) (ys.get (pairing i))) → Reordered (.set xs) (.set ys)

theorem printAll_eq_map (items : List Element) : printAll items = items.map print := by
  induction items with
  | nil => rfl
  | cons item items ih => rw [printAll, ih, List.map_cons]

/-- The text of an element does not tell in what order items stand. -/
theorem Reordered.print_eq (h : Reordered x y) : x.print = y.print := by
  induction h with
  | refl => rfl
  | set pairing _ ih =>
    rw [print, print, printAll_eq_map, printAll_eq_map]
    rw [sortTexts_eq_of_perm (Pairing.map_perm_of_pairing pairing ih)]

/-! ## Equal sets -/

/-- No number in an element, at any depth, is negative zero. -/
inductive NegZeroFree : Element → Prop
  | number {x : Float} : x ≠ -0 → NegZeroFree (.number x)
  | bool {b : Bool} : NegZeroFree (.bool b)
  | text {t : String} : NegZeroFree (.text t)
  | set {items : List Element} : (∀ item ∈ items, NegZeroFree item) → NegZeroFree (.set items)

attribute [simp] NegZeroFree.bool NegZeroFree.text

@[simp] theorem negZeroFree_number_iff {x : Float} : (Element.number x).NegZeroFree ↔ x ≠ -0 :=
  ⟨fun h => by cases h; assumption, .number⟩

@[simp] theorem negZeroFree_set_iff {items : List Element} :
    (Element.set items).NegZeroFree ↔ ∀ item ∈ items, item.NegZeroFree :=
  ⟨fun h => by cases h; assumption, .set⟩

theorem eq_of_sameNumber {x y : Float} (hx : x ≠ -0) (hy : y ≠ -0) (h : sameNumber x y) :
    x = y := by
  rcases sameNumber_iff.mp h with hbeq | ⟨rfl, rfl⟩
  · rcases Binary64.eq_or_zeros_of_beq hbeq with heq | ⟨-, hzero⟩ | ⟨hzero, -⟩
    · exact heq
    · exact absurd hzero hy
    · exact absurd hzero hx
  · rfl

/-- Elements that are the same differ in nothing but order. -/
theorem reordered_of_same (h : same x y) (hx : x.Distinct) (hy : y.Distinct)
    (free : x.NegZeroFree) (free' : y.NegZeroFree) : Reordered x y := by
  induction x using induction generalizing y with
  | number x =>
    cases y with
    | number y =>
      rw [eq_of_sameNumber (negZeroFree_number_iff.mp free) (negZeroFree_number_iff.mp free') h]
      exact .refl
    | bool | text | set => cases h
  | bool b =>
    cases y with
    | bool c =>
      obtain rfl := same_bool_iff.mp h
      exact .refl
    | number | text | set => cases h
  | text t =>
    cases y with
    | text u =>
      obtain rfl := same_text_iff.mp h
      exact .refl
    | number | bool | set => cases h
  | set xs ih =>
    cases y with
    | set ys =>
      rw [distinct_set_iff] at hx hy
      rw [negZeroFree_set_iff] at free free'
      obtain ⟨pairing, hpairs⟩ := pairsOff_of_sameSet hx.1 hy.1 h
      refine .set pairing fun i => ?_
      have mem : xs[i] ∈ xs := List.getElem_mem _
      have mem' : ys[pairing i] ∈ ys := List.getElem_mem _
      exact ih _ mem (hpairs i) (hx.2 _ mem) (hy.2 _ mem') (free _ mem) (free' _ mem')
    | number | bool | text => cases h

end Element

namespace Operand

theorem string_equals_of_reordered {V : Type} [Variable V] {xs ys : List Element}
    (h : (Element.set xs).Reordered (.set ys)) (text : String) (context : Context) :
    (Operand.string text : Operand V).equals (.set xs) context =
      (Operand.string text : Operand V).equals (.set ys) context := by
  have hprint : (Value.set xs).print = (Value.set ys).print := h.print_eq
  change Except.ok ((Value.set xs).print == text) = .ok ((Value.set ys).print == text)
  rw [hprint]

/--
Equal sets without negative zero have one text, and a text operand gives one answer on them. The
items of a set are distinct, as those of every set in the value of a document are.
-/
theorem print_canonical {V : Type} [Variable V] {xs ys : List Element}
    (equal : Value.set xs == Value.set ys)
    (distinct : (Element.set xs).Distinct) (distinct' : (Element.set ys).Distinct)
    (free : (Element.set xs).NegZeroFree) (free' : (Element.set ys).NegZeroFree) :
    (Value.set xs).print = (Value.set ys).print ∧
      ∀ (text : String) (context : Context),
        (Operand.string text : Operand V).equals (.set xs) context =
          (Operand.string text : Operand V).equals (.set ys) context := by
  have reordered : (Element.set xs).Reordered (.set ys) :=
    Element.reordered_of_same equal distinct distinct' free free'
  exact ⟨reordered.print_eq, string_equals_of_reordered reordered⟩

/-- The inner set has two elements with one text. -/
def shelf : List Element := [.set [.number 1, .text "1"], .bool true, .text "a"]

/-- The same set, in another order at both levels. -/
def turnedShelf : List Element := [.text "a", .set [.text "1", .number 1], .bool true]

theorem shelf_print_canonical :
    Value.set shelf == Value.set turnedShelf ∧
      (Element.set shelf).Distinct ∧ (Element.set turnedShelf).Distinct ∧
      (Element.set shelf).NegZeroFree ∧ (Element.set turnedShelf).NegZeroFree ∧
      (Value.set shelf).print = (Value.set turnedShelf).print ∧
      ∀ (text : String) (context : Context),
        (Operand.string text : Operand PathVariable).equals (.set shelf) context =
          (Operand.string text : Operand PathVariable).equals (.set turnedShelf) context := by
  have equal : Value.set shelf == Value.set turnedShelf := by decide +kernel
  have inner : (Element.set [.number 1, .text "1"]).Distinct :=
    .set (by decide +kernel) (by simp)
  have inner' : (Element.set [.text "1", .number 1]).Distinct :=
    .set (by decide +kernel) (by simp)
  have distinct : (Element.set shelf).Distinct :=
    .set (by decide +kernel) (List.forall_mem_cons.mpr ⟨inner, by simp⟩)
  have distinct' : (Element.set turnedShelf).Distinct :=
    .set (by decide +kernel) (List.forall_mem_cons.mpr ⟨by simp, by simpa using inner'⟩)
  have one_ne : (1 : Float) ≠ -0 := by decide +kernel
  have free : (Element.set shelf).NegZeroFree := by simp [shelf, one_ne]
  have free' : (Element.set turnedShelf).NegZeroFree := by simp [turnedShelf, one_ne]
  exact ⟨equal, distinct, distinct', free, free',
    print_canonical equal distinct distinct' free free'⟩

/-- Zero and negative zero are the same element, with different texts. -/
example :
    Value.set [.number 0] == Value.set [.number (-0)] ∧
      (Value.set [.number 0]).print ≠ (Value.set [.number (-0)]).print := by
  decide +kernel

end Operand

end Comparand
