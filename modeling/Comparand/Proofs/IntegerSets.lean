import Comparand.Proofs.IntegerReadings
import Comparand.Proofs.Sameness

/-!
# Sets of integers

The integers of an array become the elements of a set as their nearest doubles, and so does the
integer that is looked for among them. So the set holds an integer if and only if some integer of
the array has the same nearest double, and it has an element for each of these doubles. Up to
`Word.maxSafe` in magnitude that is the integer itself.
-/
namespace Comparand

/-! ## Nearest doubles -/

/-- The double nearest to a word. -/
def Word.widen (n : Int64) : Float := Binary64.ofInt n.toInt

namespace Binary64

theorem ofInt_ne_negZero (n : Int) : ofInt n ≠ -0 := by
  intro heq
  by_cases small : n.natAbs < 2 ^ 53
  · have hn := isExactly_ofInt small
    have hzero : IsExactly (-0) 0 := ⟨by decide +kernel, by decide +kernel⟩
    rw [heq] at hn
    rw [hn.unique hzero] at heq
    exact absurd heq (by decide +kernel)
  · have hbits := le_nearestBits (Nat.not_lt.mp small)
    rw [← magnitudeBits_ofInt, heq, show magnitudeBits (-0) = 0 by decide +kernel] at hbits
    omega

end Binary64

namespace Word
open Element

theorem widen_eq_iff {n k : Int64} (small : n.toInt.natAbs ≤ maxSafe) :
    widen k = widen n ↔ k = n := by
  refine ⟨fun heq => Int64.toInt_inj.mp (Binary64.eq_of_ofInt_eq ?_ heq), fun heq => heq ▸ rfl⟩
  exact Nat.lt_of_le_of_lt small (by decide)

/-- Two words are one element if and only if they have the same nearest double. -/
theorem same_widen_iff {k n : Int64} :
    same (.number (widen k)) (.number (widen n)) ↔ widen n = widen k := by
  refine ⟨fun h => ?_, fun heq => heq ▸ same_refl _⟩
  rcases sameNumber_iff.mp h with hbeq | ⟨hnan, -⟩
  · rcases Binary64.eq_or_zeros_of_beq hbeq with heq | ⟨-, hzero⟩ | ⟨hzero, -⟩
    · exact heq.symm
    · exact absurd hzero (Binary64.ofInt_ne_negZero _)
    · exact absurd hzero (Binary64.ofInt_ne_negZero _)
  · exact absurd hnan (Binary64.ofInt_ne_nan _)

variable {items : List Int64}

theorem isIn_collect_widen {k : Int64} :
    isIn (.number (widen k)) (collect ((items.map widen).map .number)) ↔
      widen k ∈ items.toFinset.image widen := by
  rw [isIn_collect, isIn]
  simp only [List.any_map, List.any_eq_true, Function.comp_apply, same_widen_iff,
    Finset.mem_image, List.mem_toFinset]

theorem length_collect_widen (items : List Int64) :
    (collect ((items.map widen).map .number)).length = (items.toFinset.image widen).card := by
  have himage : (items.map widen).toFinset = items.toFinset.image widen := by
    ext x
    simp
  rw [← himage]
  apply length_collect_map
  intro x hx y hy hsame
  obtain ⟨n, -, rfl⟩ := List.mem_map.mp hx
  obtain ⟨k, -, rfl⟩ := List.mem_map.mp hy
  exact (same_widen_iff.mp hsame).symm

theorem widen_mem_image_iff {k : Int64}
    (small : k.toInt.natAbs ≤ maxSafe ∨ ∀ n ∈ items, n.toInt.natAbs ≤ maxSafe) :
    widen k ∈ items.toFinset.image widen ↔ k ∈ items := by
  refine ⟨fun h => ?_, fun hk => Finset.mem_image_of_mem _ (List.mem_toFinset.mpr hk)⟩
  obtain ⟨n, hn, heq⟩ := Finset.mem_image.mp h
  have hn := List.mem_toFinset.mp hn
  rcases small with small | small
  · rwa [← (widen_eq_iff small).mp heq]
  · rwa [(widen_eq_iff (small n hn)).mp heq.symm]

theorem card_image_widen (small : ∀ n ∈ items, n.toInt.natAbs ≤ maxSafe) :
    (items.toFinset.image widen).card = items.toFinset.card := by
  refine Finset.card_image_of_injOn fun n _ k hk heq => ?_
  exact (widen_eq_iff (small k (List.mem_toFinset.mp hk))).mp heq

end Word

/-! ## Set variables -/

namespace Value

theorem elementsOf?_integers (items : List Int64) :
    elementsOf? (items.map fun n => .integer n.toInt) =
      some (items.map fun n => .number (Word.widen n)) := by
  induction items with
  | nil => rfl
  | cons n items ih =>
    rw [List.map_cons, elementsOf?, ofDocument?, Word.ofInt?_toInt, ih]
    rfl

end Value

namespace PathVariable
variable {v : PathVariable} {context : Context} {items : List Int64}

theorem read_integers (kind : v.kind = .set)
    (found : context.lookup v.resolvedPath = some (.array (items.map fun n => .integer n.toInt))) :
    v.read context = .ok (.set (Element.collect ((items.map Word.widen).map .number))) := by
  rw [read, found, kind]
  simp only [Value.ofDocument?, Value.elementsOf?_integers, Option.map_some, FieldKind.read?,
    List.map_map]
  rfl

theorem answer_belongsTo {elements : List Element} (kind : v.kind = .set)
    (hread : v.read context = .ok (.set elements)) (value : Value) :
    (Operand.variable v).answer (.belongsTo value) context =
      .ok (value.toElement.isIn elements) := by
  have supported : (Operand.variable v).supports .membership := by
    change v.kind.capabilities.contains .membership
    rw [kind]
    rfl
  change (do
    (Operand.variable v).require .membership "belongs_to"
    (← v.read context).holds value) = _
  rw [Operand.require, if_pos supported, hread]
  rfl

/--
An array of integers is read as the set of their nearest doubles. An integer belongs to it if and
only if its nearest double is one of these, which is exact as long as that integer or all integers
of the array are in the safe range.
-/
theorem belongsTo_integers (kind : v.kind = .set)
    (found : context.lookup v.resolvedPath = some (.array (items.map fun n => .integer n.toInt))) :
    (∃ elements, v.read context = .ok (.set elements) ∧
      elements.length = (items.toFinset.image Word.widen).card ∧
      ((∀ n ∈ items, n.toInt.natAbs ≤ Word.maxSafe) → elements.length = items.toFinset.card)) ∧
    ∀ k : Int64,
      (Operand.variable v).answer (.belongsTo (.integer k)) context =
        .ok (decide (Word.widen k ∈ items.toFinset.image Word.widen)) ∧
      ((k.toInt.natAbs ≤ Word.maxSafe ∨ ∀ n ∈ items, n.toInt.natAbs ≤ Word.maxSafe) →
        (Operand.variable v).answer (.belongsTo (.integer k)) context =
          .ok (decide (k ∈ items))) := by
  have hread := read_integers kind found
  have hlength := Word.length_collect_widen items
  have hsafe := fun small => hlength.trans (Word.card_image_widen small)
  refine ⟨⟨_, hread, hlength, hsafe⟩, fun k => ?_⟩
  have hanswer : (Operand.variable v).answer (.belongsTo (.integer k)) context =
      .ok (decide (Word.widen k ∈ items.toFinset.image Word.widen)) := by
    rw [answer_belongsTo kind hread]
    exact congrArg _ (Bool.eq_iff_iff.mpr (Word.isIn_collect_widen.trans decide_eq_true_iff.symm))
  refine ⟨hanswer, fun small => hanswer.trans ?_⟩
  exact congrArg _ (decide_eq_decide.mpr (Word.widen_mem_image_iff small))

def listField : PathVariable := { path := ["ns"], kind := .set }

/-- The integer above the safe range belongs to an array that only has the next one. -/
theorem listField_holds_neighbour :
    (Operand.variable listField).answer (.belongsTo (.integer 9007199254740992))
        (.object [("ns", .array [.integer 9007199254740993])]) = .ok true ∧
      (9007199254740992 : Int64) ∉ [(9007199254740993 : Int64)] :=
  ⟨by decide +kernel, by decide⟩

theorem listField_holds_seven :
    ∃ elements,
      listField.read (.object [("ns", .array [.integer 7, .integer (-3), .integer 7])]) =
        .ok (.set elements) ∧ elements.length = 2 ∧
      (Operand.variable listField).answer (.belongsTo (.integer 7))
        (.object [("ns", .array [.integer 7, .integer (-3), .integer 7])]) = .ok true := by
  obtain ⟨⟨elements, hread, -, hlength⟩, hanswer⟩ :=
    @belongsTo_integers listField
      (.object [("ns", .array [.integer 7, .integer (-3), .integer 7])]) [7, -3, 7] rfl rfl
  have small : ∀ n ∈ ([7, -3, 7] : List Int64), n.toInt.natAbs ≤ Word.maxSafe := by
    simp [Word.maxSafe]
  exact ⟨elements, hread, hlength small, (hanswer 7).2 (.inr small)⟩

end PathVariable

end Comparand
