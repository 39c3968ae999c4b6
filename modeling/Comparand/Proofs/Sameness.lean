import Comparand.Value
import Mathlib

/-!
# What it means to be the same element

Being the same element is an equivalence relation at every depth, and two sets are the same if and
only if they hold the same elements. So it makes no difference to a set in what order its elements
were inserted, and how often. Equal doubles are the same number, and they cannot be told apart by
comparing them with others either, although zero has two signs.
-/
namespace Comparand

/-! ## Numbers -/

namespace Binary64

open Float.Model (UnpackedFloat)

theorem lt_iff_unpack {x y : Float} : x < y ↔ x.toModel.unpack.lt y.toModel.unpack := by
  change decide (x.toModel < y.toModel) = true ↔ _
  rw [decide_eq_true_iff]
  rfl

theorem le_iff_unpack {x y : Float} : x ≤ y ↔ x.toModel.unpack.le y.toModel.unpack := by
  change decide (x.toModel ≤ y.toModel) = true ↔ _
  rw [decide_eq_true_iff]
  rfl

theorem unpack_zero : (0 : Float).toModel.unpack = .zero .positive :=
  UnpackedFloat.unpack_packedZero

theorem unpack_negZero : (-0 : Float).toModel.unpack = .zero .negative :=
  UnpackedFloat.unpack_packedZero

theorem lt_zero_iff_lt_negZero (x : Float) : x < 0 ↔ x < -0 := by
  rw [lt_iff_unpack, lt_iff_unpack, unpack_zero, unpack_negZero]
  cases x.toModel.unpack with
  | infinity sign => cases sign <;> rfl
  | notANumber | zero sign => rfl
  | finite sign => cases sign <;> rfl

theorem zero_lt_iff_negZero_lt (x : Float) : 0 < x ↔ -0 < x := by
  rw [lt_iff_unpack, lt_iff_unpack, unpack_zero, unpack_negZero]
  cases x.toModel.unpack with
  | infinity sign => cases sign <;> rfl
  | notANumber | zero sign => rfl
  | finite sign => cases sign <;> rfl

variable {x y : Float}

/-- Equal doubles are identical or the two zeros. -/
theorem eq_or_zeros_of_beq (h : x == y) : x = y ∨ (x = 0 ∧ y = -0) ∨ (x = -0 ∧ y = 0) :=
  (Float.beq_iff_ne_nan_and_eq.mp h).2.2

theorem lt_iff_of_beq_left (h : x == y) (z : Float) : x < z ↔ y < z := by
  rcases eq_or_zeros_of_beq h with rfl | ⟨rfl, rfl⟩ | ⟨rfl, rfl⟩
  · rfl
  · exact zero_lt_iff_negZero_lt z
  · exact (zero_lt_iff_negZero_lt z).symm

theorem lt_iff_of_beq_right (h : x == y) (z : Float) : z < x ↔ z < y := by
  rcases eq_or_zeros_of_beq h with rfl | ⟨rfl, rfl⟩ | ⟨rfl, rfl⟩
  · rfl
  · exact lt_zero_iff_lt_negZero z
  · exact (lt_zero_iff_lt_negZero z).symm

end Binary64

namespace Element

theorem sameNumber_iff {x y : Float} :
    sameNumber x y ↔ x == y ∨ (x = Float.nan ∧ y = Float.nan) := by
  simp [sameNumber]

theorem sameNumber_refl (x : Float) : sameNumber x x := by
  by_cases h : x = Float.nan
  · exact sameNumber_iff.mpr (.inr ⟨h, h⟩)
  · exact sameNumber_iff.mpr (.inl (Float.beq_self_iff.mpr h))

theorem sameNumber_symm {x y : Float} (h : sameNumber x y) : sameNumber y x := by
  rcases sameNumber_iff.mp h with h | ⟨hx, hy⟩
  · exact sameNumber_iff.mpr (.inl (BEq.symm h))
  · exact sameNumber_iff.mpr (.inr ⟨hy, hx⟩)

theorem sameNumber_trans {x y z : Float} (h : sameNumber x y) (h' : sameNumber y z) :
    sameNumber x z := by
  rcases sameNumber_iff.mp h with hxy | ⟨rfl, rfl⟩
  · rcases sameNumber_iff.mp h' with hyz | ⟨rfl, rfl⟩
    · exact sameNumber_iff.mpr (.inl (BEq.trans hxy hyz))
    · simp at hxy
  · exact h'

/-! ## Elements -/

/-- What holds of all numbers, truth values and texts, and of each set whose items have it. -/
@[elab_as_elim]
theorem induction {motive : Element → Prop} (number : ∀ x, motive (.number x))
    (bool : ∀ b, motive (.bool b)) (text : ∀ t, motive (.text t))
    (set : ∀ items, (∀ item ∈ items, motive item) → motive (.set items)) : ∀ x, motive x
  | .number x => number x
  | .bool b => bool b
  | .text t => text t
  | .set items => set items fun item _ => induction number bool text set item

theorem sameTable_eq_map (xs ys : List Element) :
    sameTable xs ys = xs.map fun x => ys.map (same x) := by
  induction xs with
  | nil => rfl
  | cons x xs ih => rw [sameTable, ih, List.map_cons]

/-- The columns of a table added up row by row. -/
theorem foldl_zipWith_or {α β : Type} (f : α → β → Bool) (g : β → Bool) (xs : List α)
    (ys : List β) :
    (xs.map fun x => ys.map (f x)).foldl (List.zipWith or) (ys.map g) =
      ys.map fun y => g y || xs.any (f · y) := by
  induction xs generalizing g with
  | nil => simp
  | cons x xs ih =>
    have hrow : List.zipWith or (ys.map g) (ys.map (f x)) = ys.map fun y => g y || f x y := by
      rw [List.zipWith_map, List.zipWith_self]
    rw [List.map_cons, List.foldl_cons, hrow, ih]
    simp only [List.any_cons, Bool.or_assoc]

/-- Two sets are the same if each item of either is the same as one of the other. -/
theorem same_set_iff {xs ys : List Element} :
    same (.set xs) (.set ys) ↔
      (∀ x ∈ xs, ∃ y ∈ ys, same x y) ∧ ∀ y ∈ ys, ∃ x ∈ xs, same x y := by
  have hstart : List.replicate ys.length false = ys.map fun _ => false := by simp
  rw [same, covers, sameTable_eq_map, hstart, foldl_zipWith_or]
  simp

theorem same_refl (x : Element) : same x x := by
  induction x using induction with
  | number x => exact sameNumber_refl x
  | bool | text => simp [same]
  | set items ih =>
    exact same_set_iff.mpr ⟨fun x hx => ⟨x, hx, ih x hx⟩, fun x hx => ⟨x, hx, ih x hx⟩⟩

theorem same_bool_iff {b c : Bool} : same (.bool b) (.bool c) ↔ b = c := by
  rw [same, beq_iff_eq]

theorem same_text_iff {t u : String} : same (.text t) (.text u) ↔ t = u := by
  rw [same, beq_iff_eq]

theorem same_symm {x y : Element} (h : same x y) : same y x := by
  induction x using induction generalizing y with
  | number x =>
    cases y with
    | number y => exact sameNumber_symm h
    | bool | text | set => cases h
  | bool b =>
    cases y with
    | bool c => exact same_bool_iff.mpr (same_bool_iff.mp h).symm
    | number | text | set => cases h
  | text t =>
    cases y with
    | text u => exact same_text_iff.mpr (same_text_iff.mp h).symm
    | number | bool | set => cases h
  | set xs ih =>
    cases y with
    | set ys =>
      obtain ⟨hleft, hright⟩ := same_set_iff.mp h
      refine same_set_iff.mpr ⟨fun y hy => ?_, fun x hx => ?_⟩
      · obtain ⟨x, hx, hxy⟩ := hright y hy
        exact ⟨x, hx, ih x hx hxy⟩
      · obtain ⟨y, hy, hxy⟩ := hleft x hx
        exact ⟨y, hy, ih x hx hxy⟩
    | number | bool | text => cases h

theorem same_trans {x y z : Element} (h : same x y) (h' : same y z) : same x z := by
  induction x using induction generalizing y z with
  | number x =>
    cases y with
    | number y =>
      cases z with
      | number z => exact sameNumber_trans h h'
      | bool | text | set => cases h'
    | bool | text | set => cases h
  | bool b =>
    cases y with
    | bool c =>
      obtain rfl := same_bool_iff.mp h
      exact h'
    | number | text | set => cases h
  | text t =>
    cases y with
    | text u =>
      obtain rfl := same_text_iff.mp h
      exact h'
    | number | bool | set => cases h
  | set xs ih =>
    cases y with
    | set ys =>
      cases z with
      | set zs =>
        obtain ⟨hleft, hright⟩ := same_set_iff.mp h
        obtain ⟨hleft', hright'⟩ := same_set_iff.mp h'
        refine same_set_iff.mpr ⟨fun x hx => ?_, fun z hz => ?_⟩
        · obtain ⟨y, hy, hxy⟩ := hleft x hx
          obtain ⟨z, hz, hyz⟩ := hleft' y hy
          exact ⟨z, hz, ih x hx hxy hyz⟩
        · obtain ⟨y, hy, hyz⟩ := hright' z hz
          obtain ⟨x, hx, hxy⟩ := hright y hy
          exact ⟨x, hx, ih x hx hxy hyz⟩
      | number | bool | text => cases h'
    | number | bool | text => cases h

/-! ## Sets -/

theorem isIn_iff {x : Element} {xs : List Element} : isIn x xs ↔ ∃ y ∈ xs, same x y :=
  List.any_eq_true

/-- Two sets are the same if and only if they hold the same elements. -/
theorem sameSet_iff_isIn {xs ys : List Element} : sameSet xs ys ↔ ∀ z, isIn z xs = isIn z ys := by
  rw [sameSet, same_set_iff]
  constructor
  · rintro ⟨hleft, hright⟩ z
    rw [Bool.eq_iff_iff, isIn_iff, isIn_iff]
    constructor
    · rintro ⟨x, hx, hzx⟩
      obtain ⟨y, hy, hxy⟩ := hleft x hx
      exact ⟨y, hy, same_trans hzx hxy⟩
    · rintro ⟨y, hy, hzy⟩
      obtain ⟨x, hx, hxy⟩ := hright y hy
      exact ⟨x, hx, same_trans hzy (same_symm hxy)⟩
  · intro h
    constructor
    · intro x hx
      exact isIn_iff.mp (h x ▸ isIn_iff.mpr ⟨x, hx, same_refl x⟩)
    · intro y hy
      obtain ⟨x, hx, hyx⟩ := isIn_iff.mp ((h y).symm ▸ isIn_iff.mpr ⟨y, hy, same_refl y⟩)
      exact ⟨x, hx, same_symm hyx⟩

theorem sameSet_comm (xs ys : List Element) : sameSet xs ys = sameSet ys xs := by
  rw [Bool.eq_iff_iff]
  exact ⟨same_symm, same_symm⟩

theorem sameSet_eq_of_sameSet {xs ys : List Element} (h : sameSet xs ys) (zs : List Element) :
    sameSet zs xs = sameSet zs ys := by
  rw [Bool.eq_iff_iff]
  exact ⟨fun hz => same_trans hz h, fun hz => same_trans hz (same_symm h)⟩

theorem isIn_insert (z x : Element) (xs : List Element) :
    isIn z (insert xs x) = (isIn z xs || same z x) := by
  unfold insert
  split
  · rename_i present
    rw [Bool.eq_iff_iff, Bool.or_eq_true]
    refine ⟨.inl, fun h => h.elim id fun hzx => ?_⟩
    obtain ⟨y, hy, hxy⟩ := isIn_iff.mp present
    exact isIn_iff.mpr ⟨y, hy, same_trans hzx hxy⟩
  · simp [isIn]

theorem isIn_foldl_insert (z : Element) (xs held : List Element) :
    isIn z (xs.foldl insert held) = (isIn z held || isIn z xs) := by
  induction xs generalizing held with
  | nil => simp [isIn]
  | cons x xs ih =>
    rw [List.foldl_cons, ih, isIn_insert, Bool.or_assoc]
    rfl

theorem isIn_collect (z : Element) (xs : List Element) : isIn z (collect xs) = isIn z xs := by
  rw [collect, isIn_foldl_insert]
  simp [isIn]

theorem sameSet_collect_iff {xs ys : List Element} :
    sameSet (collect xs) (collect ys) ↔ sameSet xs ys := by
  simp only [sameSet_iff_isIn, isIn_collect]

/-- Inserting keeps the elements of a set apart, and adds none but the one inserted. -/
theorem insert_apart {x : Element} {xs : List Element} (apart : xs.Pairwise fun y z => ¬ same y z) :
    (insert xs x).Pairwise fun y z => ¬ same y z := by
  unfold insert
  split
  · exact apart
  · rename_i absent
    refine List.pairwise_append.mpr ⟨apart, List.pairwise_singleton _ _, fun y hy z hz hyz => ?_⟩
    obtain rfl := List.mem_singleton.mp hz
    exact absent (isIn_iff.mpr ⟨y, hy, same_symm hyz⟩)

theorem mem_insert {x y : Element} {xs : List Element} (h : y ∈ insert xs x) : y ∈ xs ∨ y = x := by
  unfold insert at h
  split at h
  · exact .inl h
  · simpa using h

theorem collect_apart (xs : List Element) : (collect xs).Pairwise fun y z => ¬ same y z :=
  List.foldlRecOn xs insert List.Pairwise.nil fun _ apart _ _ => insert_apart apart

theorem mem_of_mem_collect {x : Element} {xs : List Element} (h : x ∈ collect xs) : x ∈ xs := by
  have held : ∀ y ∈ collect xs, y ∈ xs :=
    List.foldlRecOn (motive := fun held => ∀ y ∈ held, y ∈ xs) xs insert nofun
      fun held ih x hx y hy => (mem_insert hy).elim (ih y) fun heq => heq ▸ hx
  exact held x h

/-- Where only equal elements are the same, a set has as many as there are different ones. -/
theorem length_collect_map {α : Type} [DecidableEq α] {f : α → Element} {xs : List α}
    (apart : ∀ a ∈ xs, ∀ b ∈ xs, same (f a) (f b) → a = b) :
    (collect (xs.map f)).length = xs.toFinset.card := by
  classical
  have nodup : (collect (xs.map f)).Nodup := by
    refine (collect_apart (xs.map f)).imp ?_
    rintro y z hyz rfl
    exact hyz (same_refl y)
  have himage : (collect (xs.map f)).toFinset = xs.toFinset.image f := by
    ext y
    rw [List.mem_toFinset, Finset.mem_image]
    constructor
    · intro hy
      obtain ⟨a, ha, rfl⟩ := List.mem_map.mp (mem_of_mem_collect hy)
      exact ⟨a, List.mem_toFinset.mpr ha, rfl⟩
    · rintro ⟨a, ha, rfl⟩
      have ha := List.mem_toFinset.mp ha
      have hin : isIn (f a) (collect (xs.map f)) := by
        rw [isIn_collect]
        exact isIn_iff.mpr ⟨f a, List.mem_map_of_mem ha, same_refl _⟩
      obtain ⟨z, hz, hsame⟩ := isIn_iff.mp hin
      obtain ⟨b, hb, rfl⟩ := List.mem_map.mp (mem_of_mem_collect hz)
      rwa [apart a ha b hb hsame]
  rw [← List.toFinset_card_of_nodup nodup, himage]
  refine Finset.card_image_of_injOn fun a ha b hb heq => ?_
  exact apart a (List.mem_toFinset.mp ha) b (List.mem_toFinset.mp hb) (heq ▸ same_refl _)

end Element

end Comparand
