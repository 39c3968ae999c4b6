import Comparand.Proofs.Pairing
import Comparand.Proofs.Sameness
import Comparand.Value.OfDocument

/-!
# Collecting values

The set of a list of values holds these and no others, and no element twice, at any depth. So two
lists have equal sets if and only if each value of either list is the same element as one of the
other, in whatever order the values stand and however often they are repeated. As long as no set
holds an element twice, two sets are the same already if they are equally large and one of them has
all elements of the other.
-/
namespace Comparand

namespace Element
variable {xs ys : List Element}

/-! ## No element twice -/

/-- No set in an element, at any depth, holds two items that are the same. -/
inductive Distinct : Element → Prop
  | number {x : Float} : Distinct (.number x)
  | bool {b : Bool} : Distinct (.bool b)
  | text {t : String} : Distinct (.text t)
  | set {items : List Element} : (items.Pairwise fun x y => ¬ same x y) →
      (∀ item ∈ items, Distinct item) → Distinct (.set items)

attribute [simp] Distinct.number Distinct.bool Distinct.text

@[simp] theorem distinct_set_iff {items : List Element} :
    (Element.set items).Distinct ↔
      (items.Pairwise fun x y => ¬ same x y) ∧ ∀ item ∈ items, item.Distinct := by
  constructor
  · rintro (_ | _ | _ | ⟨apart, distinct⟩)
    exact ⟨apart, distinct⟩
  · rintro ⟨apart, distinct⟩
    exact .set apart distinct

theorem distinct_collect (distinct : ∀ x ∈ xs, x.Distinct) : (Element.set (collect xs)).Distinct :=
  .set (collect_apart xs) fun x mem => distinct x (mem_of_mem_collect mem)

/-! ## Inclusion and size -/

theorem isSubset_iff : isSubset xs ys ↔ ∀ x ∈ xs, ∃ y ∈ ys, same x y := by
  simp only [isSubset, List.all_eq_true, isIn_iff]

theorem sameSet_iff_isSubset : sameSet xs ys ↔ isSubset xs ys ∧ isSubset ys xs := by
  rw [sameSet, same_set_iff, isSubset_iff, isSubset_iff]
  refine and_congr_right fun _ => forall₂_congr fun y _ => exists_congr fun x => ?_
  exact and_congr_right fun _ => ⟨same_symm, same_symm⟩

/-- Different elements of a set are the same as different elements of a larger one. -/
theorem exists_injective (apart : xs.Pairwise fun x y => ¬ same x y) (h : isSubset xs ys) :
    ∃ partner : Fin xs.length → Fin ys.length,
      Function.Injective partner ∧ ∀ i, same xs[i] ys[partner i] := by
  have exists_partner (i : Fin xs.length) : ∃ j : Fin ys.length, same xs[i] ys[j] := by
    obtain ⟨y, hy, hsame⟩ := isSubset_iff.mp h xs[i] (List.getElem_mem _)
    obtain ⟨j, hj, rfl⟩ := List.getElem_of_mem hy
    exact ⟨⟨j, hj⟩, hsame⟩
  choose partner hpartner using exists_partner
  refine ⟨partner, fun i j hij => ?_, hpartner⟩
  have hsame : same xs[i] xs[j] := same_trans (hpartner i) (same_symm (hij ▸ hpartner j))
  by_contra hne
  rcases Nat.lt_or_gt_of_ne (Fin.val_ne_of_ne hne) with hlt | hlt
  · exact List.pairwise_iff_getElem.mp apart i j i.isLt j.isLt hlt hsame
  · exact List.pairwise_iff_getElem.mp apart j i j.isLt i.isLt hlt (same_symm hsame)

theorem length_le_of_isSubset (apart : xs.Pairwise fun x y => ¬ same x y) (h : isSubset xs ys) :
    xs.length ≤ ys.length := by
  obtain ⟨partner, injective, -⟩ := exists_injective apart h
  simpa using Fintype.card_le_of_injective partner injective

/-- A set that is no larger than one of its subsets can be paired off with it. -/
theorem pairsOff_of_isSubset (apart : xs.Pairwise fun x y => ¬ same x y) (h : isSubset xs ys)
    (hlength : xs.length = ys.length) : Pairing.PairsOff same xs ys := by
  obtain ⟨partner, injective, hsame⟩ := exists_injective apart h
  have bijective : Function.Bijective partner :=
    (Fintype.bijective_iff_injective_and_card partner).mpr ⟨injective, by simp [hlength]⟩
  exact ⟨Equiv.ofBijective partner bijective, hsame⟩

theorem sameSet_of_pairsOff (h : Pairing.PairsOff same xs ys) : sameSet xs ys := by
  have back : Pairing.PairsOff same ys xs := h.symm fun _ _ _ _ => same_symm
  exact sameSet_iff_isSubset.mpr
    ⟨isSubset_iff.mpr fun _ => h.exists_right, isSubset_iff.mpr fun _ => back.exists_right⟩

theorem pairsOff_of_sameSet (apart : xs.Pairwise fun x y => ¬ same x y)
    (apart' : ys.Pairwise fun x y => ¬ same x y) (h : sameSet xs ys) :
    Pairing.PairsOff same xs ys := by
  obtain ⟨hleft, hright⟩ := sameSet_iff_isSubset.mp h
  exact pairsOff_of_isSubset apart hleft
    (Nat.le_antisymm (length_le_of_isSubset apart hleft) (length_le_of_isSubset apart' hright))

/-- Sets of one size are the same as soon as one of them is a subset of the other. -/
theorem sameSet_iff_length (apart : xs.Pairwise fun x y => ¬ same x y)
    (apart' : ys.Pairwise fun x y => ¬ same x y) :
    sameSet xs ys ↔ xs.length = ys.length ∧ isSubset xs ys := by
  constructor
  · intro h
    exact ⟨(pairsOff_of_sameSet apart apart' h).length_eq, (sameSet_iff_isSubset.mp h).1⟩
  · rintro ⟨hlength, h⟩
    exact sameSet_of_pairsOff (pairsOff_of_isSubset apart h hlength)

theorem same_equivalence : Equivalence fun x y : Element => same x y :=
  ⟨same_refl, same_symm, same_trans⟩

end Element

namespace Value
open Element (same isIn isSubset sameSet)

/-! ## Collected values -/

/-- What a set keeps of some values: the same elements, each of them once. -/
structure Collects (values : List Value) (items : List Element) : Prop where
  apart : items.Pairwise fun x y => ¬ same x y
  isIn_iff (x : Element) : isIn x items ↔ ∃ value ∈ values, same x value.toElement

theorem isIn_map_toElement {x : Element} {values : List Value} :
    isIn x (values.map toElement) ↔ ∃ value ∈ values, same x value.toElement := by
  rw [Element.isIn_iff]
  simp

theorem collects_collect (values : List Value) :
    Collects values (Element.collect (values.map toElement)) where
  apart := Element.collect_apart _
  isIn_iff x := by rw [Element.isIn_collect, isIn_map_toElement]

theorem distinct_collect {values : List Value}
    (distinct : ∀ value ∈ values, value.toElement.Distinct) :
    (collect values).toElement.Distinct :=
  Element.distinct_collect (List.forall_mem_map.mpr distinct)

theorem set_beq_iff {xs ys : List Element} : Value.set xs == Value.set ys ↔ sameSet xs ys := .rfl

theorem collect_beq_iff {values others : List Value} :
    collect values == collect others ↔
      ∀ x, (∃ value ∈ values, same x value.toElement) ↔ ∃ other ∈ others, same x other.toElement := by
  rw [collect, collect, set_beq_iff, Element.sameSet_iff_isIn]
  refine forall_congr' fun x => ?_
  rw [Bool.eq_iff_iff, (collects_collect values).isIn_iff, (collects_collect others).isIn_iff]

theorem elementsOf?_eq_mapM (items : List Document) :
    elementsOf? items = (items.mapM ofDocument?).map (List.map toElement) := by
  induction items with
  | nil => rfl
  | cons item items ih =>
    rw [elementsOf?, ih, List.mapM_cons]
    cases ofDocument? item with
    | none => rfl
    | some value => cases items.mapM ofDocument? <;> rfl

theorem ofDocument?_array (items : List Document) :
    ofDocument? (.array items) = (items.mapM ofDocument?).map collect := by
  rw [ofDocument?, elementsOf?_eq_mapM, Option.map_map]
  rfl

mutual

/-- Nothing that a document is read as holds an element twice. -/
theorem distinct_of_ofDocument? :
    {document : Document} → {value : Value} → ofDocument? document = some value →
      value.toElement.Distinct
  | .null, _, h | .object _, _, h => by cases h
  | .bool _, _, h | .real _, _, h | .text _, _, h => by
    cases h
    simp [toElement]
  | .integer n, _, h => by
    cases h
    cases Word.ofInt? n <;> simp [toElement]
  | .array items, _, h => by
    obtain ⟨xs, hxs, rfl⟩ := Option.map_eq_some_iff.mp h
    exact Element.distinct_collect (distinct_of_elementsOf? hxs)

theorem distinct_of_elementsOf? :
    {items : List Document} → {xs : List Element} → elementsOf? items = some xs →
      ∀ x ∈ xs, x.Distinct
  | [], _, h => by
    cases h
    simp
  | item :: items, _, h => by
    obtain ⟨value, hvalue, h⟩ := Option.bind_eq_some_iff.mp h
    obtain ⟨xs, hxs, h⟩ := Option.bind_eq_some_iff.mp h
    cases h
    exact List.forall_mem_cons.mpr ⟨distinct_of_ofDocument? hvalue, distinct_of_elementsOf? hxs⟩

end

/--
The set of some values holds these and no others, each of them once; no set in it holds an element
twice if none in the values does. Two lists have equal sets if and only if they have the same
elements, so neither order nor repetition matters, and sets are equal as well if they are equally
large and one is a subset of the other. Arrays of documents are collected likewise at every level.
To be the same is an equivalence relation, under which zero is negative zero, not-a-number is
itself, and sets with the same elements are the same.
-/
theorem collect_laws (values others : List Value) :
    (∃ items, collect values = .set items ∧ Collects values items) ∧
    ((∀ value ∈ values, value.toElement.Distinct) → (collect values).toElement.Distinct) ∧
    (collect values == collect others ↔
      ∀ x, (∃ value ∈ values, same x value.toElement) ↔
        ∃ other ∈ others, same x other.toElement) ∧
    ((∀ value, value ∈ values ↔ value ∈ others) → collect values == collect others) ∧
    (∀ xs ys, collect values = .set xs → collect others = .set ys →
      (collect values == collect others ↔ xs.length = ys.length ∧ isSubset xs ys)) ∧
    (∀ items, ofDocument? (.array items) = (items.mapM ofDocument?).map collect) ∧
    (Equivalence fun x y : Element => same x y) ∧
    (∀ x y : Float, same (.number x) (.number y) ↔ x == y ∨ x.isNaN ∧ y.isNaN) ∧
    ∀ xs ys : List Element, same (.set xs) (.set ys) ↔ ∀ x, isIn x xs ↔ isIn x ys := by
  refine ⟨⟨_, rfl, collects_collect values⟩, distinct_collect, collect_beq_iff, fun members => ?_,
    ?_, ofDocument?_array, Element.same_equivalence, fun x y => ?_, fun xs ys => ?_⟩
  · rw [collect_beq_iff]
    exact fun x => exists_congr fun value => and_congr_left fun _ => members value
  · rintro xs ys hxs hys
    cases hxs
    cases hys
    exact Element.sameSet_iff_length (Element.collect_apart _) (Element.collect_apart _)
  · simp [same, Element.sameNumber]
  · exact Element.sameSet_iff_isIn.trans (forall_congr' fun x => Bool.eq_iff_iff)

def couple : List Value := [collect [.real 0, .text "a"], .integer 3]

def repeatedCouple : List Value := couple.reverse ++ couple

/-- The same elements, in another order in the inner set as well. -/
def turnedCouple : List Value := [.integer 3, collect [.text "a", .real (-0)]]

theorem couple_distinct : ∀ value ∈ couple, value.toElement.Distinct := by
  have inner : (collect [.real 0, .text "a"]).toElement.Distinct :=
    distinct_collect (by simp [toElement])
  exact List.forall_mem_cons.mpr ⟨inner, by simp [toElement]⟩

theorem couple_collect_laws :
    (∀ value ∈ couple, value.toElement.Distinct) ∧
      (∀ value, value ∈ couple ↔ value ∈ repeatedCouple) ∧
      (collect couple).toElement.Distinct ∧ collect couple == collect repeatedCouple ∧
      collect couple == collect turnedCouple := by
  obtain ⟨-, distinct, -, unordered, -⟩ := collect_laws couple repeatedCouple
  obtain ⟨-, -, -, -, sizes, -⟩ := collect_laws couple turnedCouple
  have members : ∀ value, value ∈ couple ↔ value ∈ repeatedCouple := by simp [repeatedCouple]
  exact ⟨couple_distinct, members, distinct couple_distinct, unordered members,
    (sizes _ _ rfl rfl).mpr ⟨by decide +kernel, by decide +kernel⟩⟩

end Value

end Comparand
