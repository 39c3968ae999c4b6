import Comparand.Proofs.Equivalence

/-!
# Classes of operands

Equivalence divides the operands without not-a-number into classes. Not-a-number is what keeps an
operand from being equivalent to itself, at whatever depth it stands, and it is all that does. Two
sets are equivalent if and only if every class has as many members in the one as in the other, so the
order of the members means nothing, at any depth, and their number means something.
-/
namespace Comparand

/-! ## Counting classes -/

namespace Pairing
variable {α : Type}

theorem PairsOff.refl {fits : α → α → Bool} {xs : List α} (h : ∀ x ∈ xs, fits x x) :
    PairsOff fits xs xs :=
  ⟨.refl _, fun _ => h _ (List.getElem_mem _)⟩

/-- Lists in which every class is equally large can be paired off. -/
theorem pairsOff_of_countP {fits : α → α → Bool} {xs ys : List α}
    (reflexive : ∀ z ∈ xs ++ ys, fits z z)
    (agree : ∀ z ∈ xs ++ ys, ∀ x ∈ xs, ∀ y ∈ ys, fits x y → fits z x = fits z y)
    (hcount : ∀ z ∈ xs ++ ys, xs.countP (fits z) = ys.countP (fits z)) : PairsOff fits xs ys := by
  have hrest : ∀ z ∈ xs ++ ys,
      (unmatched fits xs ys).1.countP (fits z) = (unmatched fits xs ys).2.countP (fits z) :=
    fun z hz => countP_unmatched (agree z hz) (hcount z hz)
  have hleft : (unmatched fits xs ys).1 = [] := by
    by_contra some
    obtain ⟨u, hu⟩ := List.exists_mem_of_ne_nil _ some
    have hz : u ∈ xs ++ ys := List.mem_append_left _ (mem_of_mem_unmatched hu)
    have hpos := hrest u hz ▸ List.countP_pos_iff.mpr ⟨u, hu, reflexive u hz⟩
    obtain ⟨w, hw, huw⟩ := List.countP_pos_iff.mp hpos
    exact not_fits_of_unmatched hu hw huw
  have hright : (unmatched fits xs ys).2 = [] := by
    by_contra some
    obtain ⟨w, hw⟩ := List.exists_mem_of_ne_nil _ some
    have hz : w ∈ xs ++ ys := List.mem_append_right _ (mem_of_mem_orphans hw)
    have hpos := List.countP_pos_iff.mpr ⟨w, hw, reflexive w hz⟩
    rw [← hrest w hz, hleft] at hpos
    cases hpos
  have hlength := length_unmatched fits xs ys
  rw [hleft, hright] at hlength
  exact pairsOff_of_unmatched (by simpa using hlength.symm) hleft

end Pairing

namespace Operand
variable {V : Type}

/-! ## Not-a-number -/

/-- No number in an operand, at any depth, is not-a-number. -/
inductive NaNFree : Operand V → Prop
  | string {text : String} : NaNFree (.string text)
  | number {value : Float} : ¬ value.isNaN → NaNFree (.number value)
  | arithmetic {expression : Arithmetic V} : NaNFree (.arithmetic expression)
  | set {members : List (Operand V)} : (∀ member ∈ members, NaNFree member) → NaNFree (.set members)
  | var {v : V} : NaNFree (.variable v)

attribute [simp] NaNFree.string NaNFree.arithmetic NaNFree.var

@[simp] theorem naNFree_number_iff {value : Float} :
    (Operand.number value : Operand V).NaNFree ↔ ¬ value.isNaN :=
  ⟨fun h => by cases h; assumption, .number⟩

@[simp] theorem naNFree_set_iff {members : List (Operand V)} :
    (Operand.set members).NaNFree ↔ ∀ member ∈ members, member.NaNFree :=
  ⟨fun h => by cases h; assumption, .set⟩

/-! ## Order -/

/-- One operand becomes another when members of sets, at any depth, are put in another order. -/
inductive Rearranged : Operand V → Operand V → Prop
  | refl {a : Operand V} : Rearranged a a
  | perm {members others : List (Operand V)} :
      members.Perm others → Rearranged (.set members) (.set others)
  | inside {front rest : List (Operand V)} {a b : Operand V} :
      Rearranged a b → Rearranged (.set (front ++ a :: rest)) (.set (front ++ b :: rest))
  | trans {a b c : Operand V} : Rearranged a b → Rearranged b c → Rearranged a c

namespace Rearranged
variable {a b : Operand V}

/-- What holds of a set if it holds of its members is not lost when members are moved. -/
theorem keeps {P : Operand V → Prop}
    (memberwise : ∀ members, P (.set members) ↔ ∀ member ∈ members, P member)
    (h : Rearranged a b) (ha : P a) : P b := by
  induction h with
  | refl => exact ha
  | perm perm =>
    rw [memberwise] at ha ⊢
    exact fun member mem => ha member (perm.mem_iff.mpr mem)
  | inside _ ih =>
    rw [memberwise, List.forall_mem_append, List.forall_mem_cons] at ha ⊢
    exact ⟨ha.1, ih ha.2.1, ha.2.2⟩
  | trans _ _ ih ih' => exact ih' (ih ha)

theorem built (h : Rearranged a b) (ha : a.Built) : b.Built := h.keeps (fun _ => built_set_iff) ha

theorem naNFree (h : Rearranged a b) (ha : a.NaNFree) : b.NaNFree :=
  h.keeps (fun _ => naNFree_set_iff) ha

end Rearranged

/-! ## Classes -/

section Equivalence
variable [DecidableEq V] {a b c : Operand V}

theorem Built.isEquivalent_symm (ha : a.Built) (hb : b.Built) (h : a.isEquivalent b) :
    b.isEquivalent a :=
  (ha.turns b hb).1.mp h

theorem Built.isEquivalent_trans (ha : a.Built) (hb : b.Built) (hc : c.Built)
    (hab : a.isEquivalent b) (hbc : b.isEquivalent c) : a.isEquivalent c :=
  (ha.turns b hb).2 c hc hab hbc

theorem Built.isEquivalent_congr (ha : a.Built) (hb : b.Built) (hc : c.Built)
    (h : a.isEquivalent b) : c.isEquivalent a = c.isEquivalent b := by
  rw [Bool.eq_iff_iff]
  exact ⟨fun hca => hc.isEquivalent_trans ha hb hca h,
    fun hcb => hc.isEquivalent_trans hb ha hcb (ha.isEquivalent_symm hb h)⟩

theorem Built.isEquivalent_self_iff (ha : a.Built) : a.isEquivalent a ↔ a.NaNFree := by
  induction ha with
  | string => simp [isEquivalent]
  | number => simp [isEquivalent, Float.beq_self_iff]
  | arithmetic built =>
    simp only [NaNFree.arithmetic, iff_true, isEquivalent]
    exact (Arithmetic.isEquivalent_iff built built).mpr ⟨rfl, rfl, rfl, fun _ => rfl⟩
  | @set members hmembers ih =>
    rw [isEquivalent_set_iff (.set hmembers) (.set hmembers), naNFree_set_iff]
    constructor
    · intro h member mem
      obtain ⟨other, mem', hother⟩ := h.exists_right mem
      have built := hmembers member mem
      have built' := hmembers other mem'
      exact (ih member mem).mp
        (built.isEquivalent_trans built' built hother (built.isEquivalent_symm built' hother))
    · exact fun free => .refl fun member mem => (ih member mem).mpr (free member mem)
  | var => simp [isEquivalent]

/-! ## Sets -/

/-- Sets are equivalent if and only if every class has equally many members in both. -/
theorem isEquivalent_set_iff_countP {members others : List (Operand V)}
    (built : (Operand.set members).Built) (built' : (Operand.set others).Built)
    (free : (Operand.set members).NaNFree) (free' : (Operand.set others).NaNFree) :
    (Operand.set members).isEquivalent (.set others) ↔
      ∀ c : Operand V, c.Built → members.countP c.isEquivalent = others.countP c.isEquivalent := by
  rw [isEquivalent_set_iff built built']
  simp only [built_set_iff, naNFree_set_iff] at built built' free free'
  have agree : ∀ c : Operand V, c.Built → ∀ x ∈ members, ∀ y ∈ others, x.isEquivalent y →
      c.isEquivalent x = c.isEquivalent y :=
    fun c hc x hx y hy hxy => (built x hx).isEquivalent_congr (built' y hy) hc hxy
  constructor
  · exact fun h c hc => Pairing.countP_eq_of_pairsOff h (agree c hc)
  · intro hcount
    have hbuilt : ∀ z ∈ members ++ others, z.Built := List.forall_mem_append.mpr ⟨built, built'⟩
    have hfree : ∀ z ∈ members ++ others, z.NaNFree := List.forall_mem_append.mpr ⟨free, free'⟩
    exact Pairing.pairsOff_of_countP
      (fun z hz => (hbuilt z hz).isEquivalent_self_iff.mpr (hfree z hz))
      (fun z hz => agree z (hbuilt z hz)) fun z hz => hcount z (hbuilt z hz)

theorem Rearranged.isEquivalent (h : Rearranged a b) (ha : a.Built) (free : a.NaNFree) :
    a.isEquivalent b := by
  induction h with
  | refl => exact ha.isEquivalent_self_iff.mpr free
  | perm perm =>
    have moved := Rearranged.perm perm
    rw [isEquivalent_set_iff_countP ha (moved.built ha) free (moved.naNFree free)]
    exact fun c _ => perm.countP_eq _
  | @inside front rest a b h ih =>
    have moved : Rearranged (.set (front ++ a :: rest)) (.set (front ++ b :: rest)) := .inside h
    rw [isEquivalent_set_iff_countP ha (moved.built ha) free (moved.naNFree free)]
    rw [built_set_iff, List.forall_mem_append, List.forall_mem_cons] at ha
    rw [naNFree_set_iff, List.forall_mem_append, List.forall_mem_cons] at free
    intro c hc
    have same := ha.2.1.isEquivalent_congr (h.built ha.2.1) hc (ih ha.2.1 free.2.1)
    rw [List.countP_append, List.countP_append, List.countP_cons, List.countP_cons, same]
  | trans h h' ih ih' =>
    exact ha.isEquivalent_trans (h.built ha) (h'.built (h.built ha)) (ih ha free)
      (ih' (h.built ha) (h.naNFree free))

/-! ## The check -/

variable [Variable V]

theorem setMismatch?_eq_none_iff {members others : List (Operand V)} :
    setMismatch? members others = none ↔ (Operand.set members).isEquivalent (.set others) := by
  rw [isEquivalent_set, setMismatch?]
  by_cases hlength : members.length = others.length
  · rw [if_neg (not_not_intro hlength)]
    cases hleft : Pairing.unmatched isEquivalent members others with
    | mk left orphans => cases left <;> simp [hlength]
  · simp [hlength]

theorem mismatch?_eq_none_iff {a b : Operand V} : a.mismatch? b = none ↔ a.isEquivalent b := by
  have passes (equivalent : Bool) (mismatch : Mismatch) :
      (if equivalent then none else some mismatch) = none ↔ equivalent := by
    cases equivalent <;> simp
  unfold mismatch?
  by_cases hkind : a.kind = b.kind
  · rw [if_neg (not_not_intro hkind)]
    cases a <;> cases b <;>
      first | exact setMismatch?_eq_none_iff | exact passes _ _
  · rw [if_pos hkind]
    exact iff_of_false nofun fun equivalent => hkind (kind_eq_of_isEquivalent equivalent)

theorem checkEquivalence_eq_ok_iff (a b : Operand V) :
    a.checkEquivalence b = .ok () ↔ a.isEquivalent b := by
  rw [← mismatch?_eq_none_iff, checkEquivalence]
  cases a.mismatch? b <;> simp

/--
On operands without not-a-number equivalence is reflexive, and it is symmetric and transitive on all
operands. The check passes equivalent operands and no others. Members of sets may be put in another
order at any depth, but each class has to have as many members in one set as in the other.
-/
theorem isEquivalent_laws :
    (∀ a : Operand V, a.Built → (a.isEquivalent a ↔ a.NaNFree)) ∧
    (∀ a b : Operand V, a.Built → b.Built → a.isEquivalent b → b.isEquivalent a) ∧
    (∀ a b c : Operand V, a.Built → b.Built → c.Built →
      a.isEquivalent b → b.isEquivalent c → a.isEquivalent c) ∧
    (∀ a b : Operand V, a.checkEquivalence b = .ok () ↔ a.isEquivalent b) ∧
    (∀ a b : Operand V, a.Built → a.NaNFree → a.Rearranged b → a.isEquivalent b) ∧
    ∀ members others : List (Operand V), (Operand.set members).Built → (Operand.set others).Built →
      (Operand.set members).NaNFree → (Operand.set others).NaNFree →
      ((Operand.set members).isEquivalent (.set others) ↔
        ∀ c : Operand V, c.Built →
          members.countP c.isEquivalent = others.countP c.isEquivalent) :=
  ⟨fun _ ha => ha.isEquivalent_self_iff, fun _ _ ha hb => ha.isEquivalent_symm hb,
    fun _ _ _ ha hb hc => ha.isEquivalent_trans hb hc, checkEquivalence_eq_ok_iff,
    fun _ _ ha free h => h.isEquivalent ha free,
    fun _ _ built built' free free' => isEquivalent_set_iff_countP built built' free free'⟩

end Equivalence

def folded : Operand PathVariable := .set [.set [.number 0, .string "a"], .arithmetic ratio]

/-- The same members, in another order inside and outside. -/
def refolded : Operand PathVariable := .set [.arithmetic ratio, .set [.string "a", .number 0]]

theorem folded_rearranged : folded.Rearranged refolded := by
  have outside : folded.Rearranged (.set [.arithmetic ratio, .set [.number 0, .string "a"]]) :=
    .perm (.swap _ _ _)
  have inside : Rearranged (.set ([.arithmetic ratio] ++ .set [.number 0, .string "a"] :: []))
      refolded := .inside (.perm (.swap _ _ _))
  exact outside.trans inside

theorem folded_built : folded.Built := by
  simp [folded, Built.arithmetic ratio_built]

theorem folded_naNFree : folded.NaNFree := by
  have number : ¬ (0 : Float).isNaN := by decide +kernel
  simpa [folded] using number

theorem folded_isEquivalent :
    folded.Built ∧ folded.NaNFree ∧ folded.Rearranged refolded ∧ folded.isEquivalent folded ∧
      folded.isEquivalent refolded ∧ refolded.isEquivalent folded ∧
      folded.checkEquivalence refolded = .ok () ∧
      ¬ (Operand.set [folded, .string "a", .string "a"]).isEquivalent
        (.set [folded, folded, .string "a"]) := by
  obtain ⟨self, symm, trans, check, order, count⟩ := isEquivalent_laws (V := PathVariable)
  have rebuilt : refolded.Built := folded_rearranged.built folded_built
  have equivalent := order folded refolded folded_built folded_naNFree folded_rearranged
  refine ⟨folded_built, folded_naNFree, folded_rearranged, (self _ folded_built).mpr folded_naNFree,
    equivalent, symm _ _ folded_built rebuilt equivalent, (check _ _).mpr equivalent, fun h => ?_⟩
  have hcount := (count _ _ (by simp [folded_built]) (by simp [folded_built])
    (by simp [folded_naNFree]) (by simp [folded_naNFree])).mp h (.string "a") .string
  revert hcount
  decide +kernel

end Operand

end Comparand
