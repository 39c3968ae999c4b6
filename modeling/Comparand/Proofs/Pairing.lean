import Comparand.Pairing
import Mathlib.Data.Fintype.Fin
import Mathlib.Data.List.Forall2

/-!
# Pairing off greedily misses no pairing

Whatever is paired off fits, and nothing that is left over on one side fits anything that is left
over on the other. That alone does not make a greedy pairing a largest one. But if things that fit
one thing in common fit all the same things, both lists fall into classes, and whoever is paired off
takes his partner from his own class. A pairing of everything shows that each class is as large on
one side as on the other, so a class cannot have a member left over on one side only.
-/
namespace Comparand.Pairing
variable {α β γ : Type}

/-! ## Pairings -/

/-- A one-to-one correspondence of the places in two lists under which opposite elements fit. -/
def PairsOff (fits : α → β → Bool) (xs : List α) (ys : List β) : Prop :=
  ∃ pairing : Fin xs.length ≃ Fin ys.length, ∀ i, fits xs[i] ys[pairing i]

namespace PairsOff
variable {fits : α → β → Bool} {xs : List α} {ys : List β}

theorem length_eq (h : PairsOff fits xs ys) : xs.length = ys.length := by
  obtain ⟨pairing, -⟩ := h
  simpa using Fintype.card_congr pairing

theorem exists_right (h : PairsOff fits xs ys) {x : α} (mem : x ∈ xs) : ∃ y ∈ ys, fits x y := by
  obtain ⟨pairing, hfits⟩ := h
  obtain ⟨i, hi, rfl⟩ := List.getElem_of_mem mem
  exact ⟨_, List.getElem_mem _, hfits ⟨i, hi⟩⟩

theorem symm {fits' : β → α → Bool} (h : PairsOff fits xs ys)
    (turn : ∀ x ∈ xs, ∀ y ∈ ys, fits x y → fits' y x) : PairsOff fits' ys xs := by
  obtain ⟨pairing, hfits⟩ := h
  refine ⟨pairing.symm, fun j => ?_⟩
  apply turn _ (List.getElem_mem _) _ (List.getElem_mem _)
  simpa using hfits (pairing.symm j)

theorem trans {zs : List γ} {fits' : β → γ → Bool} {fits'' : α → γ → Bool}
    (h : PairsOff fits xs ys) (h' : PairsOff fits' ys zs)
    (compose : ∀ x ∈ xs, ∀ y ∈ ys, ∀ z ∈ zs, fits x y → fits' y z → fits'' x z) :
    PairsOff fits'' xs zs := by
  obtain ⟨pairing, hfits⟩ := h
  obtain ⟨pairing', hfits'⟩ := h'
  exact ⟨pairing.trans pairing', fun i =>
    compose _ (List.getElem_mem _) _ (List.getElem_mem _) _ (List.getElem_mem _) (hfits i)
      (hfits' (pairing i))⟩

end PairsOff

theorem exists_equiv_of_perm {xs ys : List α} (h : xs.Perm ys) :
    ∃ move : Fin xs.length ≃ Fin ys.length, ∀ i, ys[move i] = xs[i] := by
  classical
  have hcount (zs : List α) (a : α) :
      Fintype.card { i : Fin zs.length // zs[i] = a } = zs.count a := by
    rw [Fintype.card_subtype]
    exact Fin.card_filter_univ_eq_vector_get_eq_count a (⟨zs, rfl⟩ : List.Vector α zs.length)
  have hcard (a : α) : Fintype.card { i : Fin xs.length // xs[i] = a } =
      Fintype.card { j : Fin ys.length // ys[j] = a } := by
    rw [hcount, hcount, h.count_eq]
  exact ⟨Equiv.ofFiberEquiv fun a => Fintype.equivOfCardEq (hcard a),
    Equiv.ofFiberEquiv_map _⟩

/-- To pair two lists off is to reorder one of them so that what stands opposite fits. -/
theorem pairsOff_iff_exists_perm {fits : α → β → Bool} {xs : List α} {ys : List β} :
    PairsOff fits xs ys ↔ ∃ zs, zs.Perm ys ∧ List.Forall₂ (fun x z => fits x z) xs zs := by
  constructor
  · rintro ⟨pairing, hfits⟩
    refine ⟨List.ofFn fun i => ys[pairing i], ?_, ?_⟩
    · apply Multiset.coe_eq_coe.mp
      calc (List.ofFn fun i => ys[pairing i] : Multiset β)
        _ = Finset.univ.val.map (ys.get ∘ pairing) := (Fin.univ_val_map _).symm
        _ = Finset.univ.val.map ys.get := by
          rw [← Multiset.map_map, Multiset.map_univ_val_equiv]
        _ = ys := by rw [Fin.univ_val_map, List.ofFn_get]
    · rw [List.forall₂_iff_get]
      refine ⟨by simp, fun i hi _ => ?_⟩
      simpa using hfits ⟨i, hi⟩
  · rintro ⟨zs, hperm, hfits⟩
    obtain ⟨move, hmove⟩ := exists_equiv_of_perm hperm
    obtain ⟨hlength, hfits⟩ := List.forall₂_iff_get.mp hfits
    refine ⟨(finCongr hlength).trans move, fun i => ?_⟩
    have hi := hfits i i.isLt (hlength ▸ i.isLt)
    simpa [hmove] using hi

/-- If opposite elements show the same, both lists show the same up to order. -/
theorem map_perm_of_pairing {f : α → γ} {g : β → γ} {xs : List α} {ys : List β}
    (pairing : Fin xs.length ≃ Fin ys.length) (h : ∀ i, f xs[i] = g ys[pairing i]) :
    (xs.map f).Perm (ys.map g) := by
  apply Multiset.coe_eq_coe.mp
  calc (xs.map f : Multiset γ)
    _ = Finset.univ.val.map fun i : Fin xs.length => f xs[i] := by
      rw [Fin.univ_val_map, ← List.ofFn_getElem_eq_map xs f]
      rfl
    _ = Finset.univ.val.map ((fun j : Fin ys.length => g ys[j]) ∘ pairing) :=
      congrArg (Multiset.map · _) (funext h)
    _ = Finset.univ.val.map fun j : Fin ys.length => g ys[j] := by
      rw [← Multiset.map_map, Multiset.map_univ_val_equiv]
    _ = ys.map g := by
      rw [Fin.univ_val_map, ← List.ofFn_getElem_eq_map ys g]
      rfl

/-! ## What is paired off and what is left over -/

theorem perm_removeAt {xs : List α} {index : Nat} (h : index < xs.length) :
    xs.Perm (xs[index] :: removeAt xs index) := by
  unfold removeAt
  split
  · rename_i hlast
    rw [List.getLast?_eq_none_iff] at hlast
    subst hlast
    cases h
  · rename_i last hlast
    obtain ⟨ys, rfl⟩ := List.getLast?_eq_some_iff.mp hlast
    split
    · rename_i atEnd
      obtain rfl : index = ys.length := by simpa using atEnd
      simp [List.perm_append_singleton]
    · rename_i inside
      have hindex : index < ys.length := by
        simp only [List.length_append, List.length_singleton] at h inside
        omega
      rw [List.set_append_left _ _ hindex, List.dropLast_concat,
        List.getElem_append_left hindex]
      calc (ys ++ [last]).Perm (last :: ys) := List.perm_append_singleton last ys
        _ |>.Perm (last :: ys[index] :: ys.eraseIdx index) :=
          (List.getElem_cons_eraseIdx_perm hindex).symm.cons last
        _ |>.Perm (ys[index] :: last :: ys.eraseIdx index) := List.Perm.swap _ _ _
        _ |>.Perm (ys[index] :: ys.set index last) :=
          (List.set_perm_cons_eraseIdx hindex last).symm.cons ys[index]

theorem unmatched_cons_of_findIdx? {fits : α → β → Bool} {left : List α} {y : β} {right : List β}
    {index : Nat} (h : left.findIdx? (fits · y) = some index) :
    unmatched fits left (y :: right) = unmatched fits (removeAt left index) right := by
  rw [unmatched, h]

theorem unmatched_cons_of_findIdx?_eq_none {fits : α → β → Bool} {left : List α} {y : β}
    {right : List β} (h : left.findIdx? (fits · y) = none) :
    unmatched fits left (y :: right) =
      ((unmatched fits left right).1, y :: (unmatched fits left right).2) := by
  rw [unmatched, h]

theorem exists_paired (fits : α → β → Bool) (left : List α) (right : List β) :
    ∃ paired partners, left.Perm ((unmatched fits left right).1 ++ paired) ∧
      right.Perm ((unmatched fits left right).2 ++ partners) ∧
      List.Forall₂ (fun x y => fits x y) paired partners := by
  induction right generalizing left with
  | nil => exact ⟨[], [], by simp [unmatched], by simp [unmatched], .nil⟩
  | cons y right ih =>
    cases hfind : left.findIdx? (fits · y) with
    | some index =>
      rw [unmatched_cons_of_findIdx? hfind]
      obtain ⟨hindex, hfits, -⟩ := List.findIdx?_eq_some_iff_getElem.mp hfind
      obtain ⟨paired, partners, hleft, hright, hpairs⟩ := ih (removeAt left index)
      refine ⟨left[index] :: paired, y :: partners, ?_, ?_, .cons hfits hpairs⟩
      · exact (perm_removeAt hindex).trans ((hleft.cons _).trans List.perm_middle.symm)
      · exact (hright.cons y).trans List.perm_middle.symm
    | none =>
      rw [unmatched_cons_of_findIdx?_eq_none hfind]
      obtain ⟨paired, partners, hleft, hright, hpairs⟩ := ih left
      exact ⟨paired, partners, hleft, hright.cons y, hpairs⟩

theorem mem_of_mem_unmatched {fits : α → β → Bool} {left : List α} {right : List β} {x : α}
    (hx : x ∈ (unmatched fits left right).1) : x ∈ left := by
  obtain ⟨paired, -, hleft, -⟩ := exists_paired fits left right
  exact hleft.mem_iff.mpr (List.mem_append_left _ hx)

theorem mem_of_mem_orphans {fits : α → β → Bool} {left : List α} {right : List β} {y : β}
    (hy : y ∈ (unmatched fits left right).2) : y ∈ right := by
  obtain ⟨-, partners, -, hright, -⟩ := exists_paired fits left right
  exact hright.mem_iff.mpr (List.mem_append_left _ hy)

/-- Nothing that is left over fits anything that is left over. -/
theorem not_fits_of_unmatched {fits : α → β → Bool} {left : List α} {right : List β} {x : α}
    {y : β} (hx : x ∈ (unmatched fits left right).1) (hy : y ∈ (unmatched fits left right).2) :
    ¬ fits x y := by
  induction right generalizing left with
  | nil => cases hy
  | cons z right ih =>
    cases hfind : left.findIdx? (fits · z) with
    | some index =>
      rw [unmatched_cons_of_findIdx? hfind] at hx hy
      exact ih hx hy
    | none =>
      rw [unmatched_cons_of_findIdx?_eq_none hfind] at hx hy
      rcases List.mem_cons.mp hy with rfl | hy
      · simpa using List.findIdx?_eq_none_iff.mp hfind x (mem_of_mem_unmatched hx)
      · exact ih hx hy

/-! ## Classes -/

/-- Whatever fits one thing in common fits the same things. -/
def Coherent (fits : α → β → Bool) (xs : List α) (ys : List β) : Prop :=
  ∀ x ∈ xs, ∀ x' ∈ xs, ∀ y ∈ ys, ∀ y' ∈ ys, fits x y → fits x' y → fits x' y' → fits x y'

theorem Coherent.flip {fits : α → β → Bool} {fits' : β → α → Bool} {xs : List α} {ys : List β}
    (h : Coherent fits xs ys) (turn : ∀ x ∈ xs, ∀ y ∈ ys, fits x y ↔ fits' y x) :
    Coherent fits' ys xs := by
  intro y hy y' hy' x hx x' hx' hyx hy'x hy'x'
  rw [← turn x hx y hy] at hyx
  rw [← turn x hx y' hy'] at hy'x
  rw [← turn x' hx' y' hy'] at hy'x'
  exact (turn x' hx' y hy).mp (h x' hx' x hx y' hy' y hy hy'x' hy'x hyx)

theorem countP_eq_of_forall₂ {fits : α → β → Bool} {p : α → Bool} {q : β → Bool} {xs : List α}
    {ys : List β} (h : List.Forall₂ (fun x y => fits x y) xs ys)
    (agree : ∀ x ∈ xs, ∀ y ∈ ys, fits x y → p x = q y) : xs.countP p = ys.countP q := by
  induction h with
  | nil => rfl
  | @cons x y xs ys hxy _ ih =>
    have hhead := agree x List.mem_cons_self y List.mem_cons_self hxy
    have htail := ih fun x' hx' y' hy' =>
      agree x' (List.mem_cons_of_mem _ hx') y' (List.mem_cons_of_mem _ hy')
    rw [List.countP_cons, List.countP_cons, hhead, htail]

theorem countP_eq_of_pairsOff {fits : α → β → Bool} {p : α → Bool} {q : β → Bool} {xs : List α}
    {ys : List β} (h : PairsOff fits xs ys)
    (agree : ∀ x ∈ xs, ∀ y ∈ ys, fits x y → p x = q y) : xs.countP p = ys.countP q := by
  obtain ⟨zs, hperm, hfits⟩ := pairsOff_iff_exists_perm.mp h
  rw [← hperm.countP_eq]
  exact countP_eq_of_forall₂ hfits fun x hx z hz => agree x hx z (hperm.mem_iff.mp hz)

/-- A property that partners share is left over equally often if it occurs equally often. -/
theorem countP_unmatched {fits : α → β → Bool} {p : α → Bool} {q : β → Bool} {xs : List α}
    {ys : List β} (agree : ∀ x ∈ xs, ∀ y ∈ ys, fits x y → p x = q y)
    (hall : xs.countP p = ys.countP q) :
    (unmatched fits xs ys).1.countP p = (unmatched fits xs ys).2.countP q := by
  obtain ⟨paired, partners, hleft, hright, hpairs⟩ := exists_paired fits xs ys
  have hpaired : paired.countP p = partners.countP q :=
    countP_eq_of_forall₂ hpairs fun x hx y hy =>
      agree x (hleft.mem_iff.mpr (List.mem_append_right _ hx)) y
        (hright.mem_iff.mpr (List.mem_append_right _ hy))
  rw [hleft.countP_eq, hright.countP_eq, List.countP_append, List.countP_append] at hall
  omega

theorem unmatched_eq_nil_of_pairsOff {fits : α → β → Bool} {xs : List α} {ys : List β}
    (coherent : Coherent fits xs ys) (h : PairsOff fits xs ys) : (unmatched fits xs ys).1 = [] := by
  by_contra some
  obtain ⟨u, hu⟩ := List.exists_mem_of_ne_nil _ some
  have hux : u ∈ xs := mem_of_mem_unmatched hu
  let mates (y : β) : Bool := fits u y
  let peers (x : α) : Bool := ys.any fun y => fits u y && fits x y
  have agree : ∀ x ∈ xs, ∀ y ∈ ys, fits x y → peers x = mates y := by
    intro x hx y hy hxy
    rw [Bool.eq_iff_iff]
    constructor
    · intro hpeer
      obtain ⟨z, hz, huz⟩ := List.any_eq_true.mp hpeer
      rw [Bool.and_eq_true] at huz
      exact coherent u hux x hx z hz y hy huz.1 huz.2 hxy
    · intro hmate
      exact List.any_eq_true.mpr ⟨y, hy, Bool.and_eq_true_iff.mpr ⟨hmate, hxy⟩⟩
  have hrest := countP_unmatched agree (countP_eq_of_pairsOff h agree)
  obtain ⟨y, hy, huy⟩ := h.exists_right hux
  have hpeer : peers u := List.any_eq_true.mpr ⟨y, hy, by simp [huy]⟩
  have hpos := hrest ▸ List.countP_pos_iff.mpr ⟨u, hu, hpeer⟩
  obtain ⟨w, hw, huw⟩ := List.countP_pos_iff.mp hpos
  exact not_fits_of_unmatched hu hw huw

theorem pairsOff_of_unmatched {fits : α → β → Bool} {xs : List α} {ys : List β}
    (hlength : xs.length = ys.length) (hnone : (unmatched fits xs ys).1 = []) :
    PairsOff fits xs ys := by
  obtain ⟨paired, partners, hleft, hright, hpairs⟩ := exists_paired fits xs ys
  have horphans : (unmatched fits xs ys).2 = [] := by
    have hcount := length_unmatched fits xs ys
    rw [hnone, List.length_nil] at hcount
    exact List.eq_nil_of_length_eq_zero (by omega)
  rw [hnone, List.nil_append] at hleft
  rw [horphans, List.nil_append] at hright
  obtain ⟨zs, hzs, hperm⟩ := List.perm_comp_forall₂ hleft hpairs
  exact pairsOff_iff_exists_perm.mpr ⟨zs, hperm.trans hright.symm, hzs⟩

/-- Where things fall into classes, greedy pairing pairs off everything if that can be done. -/
theorem unmatched_eq_nil_iff {fits : α → β → Bool} {xs : List α} {ys : List β}
    (coherent : Coherent fits xs ys) :
    xs.length = ys.length ∧ (unmatched fits xs ys).1 = [] ↔ PairsOff fits xs ys :=
  ⟨fun h => pairsOff_of_unmatched h.1 h.2,
    fun h => ⟨h.length_eq, unmatched_eq_nil_of_pairsOff coherent h⟩⟩

/-! ## Pairing off under a map -/

theorem removeAt_map (f : α → γ) (xs : List α) (index : Nat) :
    removeAt (xs.map f) index = (removeAt xs index).map f := by
  unfold removeAt
  rw [List.getLast?_map, List.length_map]
  cases xs.getLast? with
  | none => rfl
  | some last =>
    rw [Option.map_some]
    dsimp only
    split
    · rw [List.map_dropLast]
    · rw [← List.map_set, List.map_dropLast]

theorem unmatched_map (f : α → γ) (fits : γ → β → Bool) (xs : List α) (ys : List β) :
    unmatched fits (xs.map f) ys =
      ((unmatched (fun x => fits (f x)) xs ys).1.map f,
        (unmatched (fun x => fits (f x)) xs ys).2) := by
  induction ys generalizing xs with
  | nil => rfl
  | cons y ys ih =>
    have hfind : (xs.map f).findIdx? (fits · y) = xs.findIdx? (fun x => fits (f x) y) := by
      rw [List.findIdx?_map]
      rfl
    cases hindex : xs.findIdx? (fun x => fits (f x) y) with
    | some index =>
      rw [unmatched_cons_of_findIdx? (hfind.trans hindex), unmatched_cons_of_findIdx? hindex,
        removeAt_map, ih]
    | none =>
      rw [unmatched_cons_of_findIdx?_eq_none (hfind.trans hindex),
        unmatched_cons_of_findIdx?_eq_none hindex, ih]

end Comparand.Pairing
