/-!
# Pairing off

Two lists are paired off greedily: each element of the second takes the first element of the first
that fits and is still there. The gap that it leaves is filled by the last one. What remains on
either side is unmatched.
-/
namespace Comparand.Pairing
variable {α β : Type}

/-- Takes out the element at an index and moves the last one into its place. -/
def removeAt (xs : List α) (index : Nat) : List α :=
  match xs.getLast? with
  | none => []
  | some last => if index + 1 = xs.length then xs.dropLast else (xs.set index last).dropLast

theorem length_removeAt {xs : List α} {index : Nat} (h : index < xs.length) :
    (removeAt xs index).length + 1 = xs.length := by
  unfold removeAt
  split
  · simp_all
  · split <;> simp <;> omega

/-- What remains of both lists; the second remainder is in the order of its list. -/
def unmatched (fits : α → β → Bool) : List α → List β → List α × List β
  | left, [] => (left, [])
  | left, y :: right =>
    match left.findIdx? (fits · y) with
    | some index => unmatched fits (removeAt left index) right
    | none =>
      let (left, orphans) := unmatched fits left right
      (left, y :: orphans)

/-- Every pair takes one element from either list. -/
theorem length_unmatched (fits : α → β → Bool) (left : List α) (right : List β) :
    (unmatched fits left right).1.length + right.length =
      left.length + (unmatched fits left right).2.length := by
  induction right generalizing left with
  | nil => simp [unmatched]
  | cons y right ih =>
    simp only [unmatched]
    split
    · next index h =>
      have h := List.findIdx?_eq_some_iff_getElem.1 h
      have := length_removeAt h.1
      have := ih (removeAt left index)
      simp
      omega
    · have := ih left
      simp
      omega

end Comparand.Pairing
