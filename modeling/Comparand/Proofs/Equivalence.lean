import Comparand.Operand.Equivalence
import Comparand.Proofs.Bindings
import Comparand.Proofs.Pairing
import Comparand.Proofs.Sameness
import Comparand.Variable.Path

/-!
# Equivalent operands

Equivalence is symmetric and transitive on the operands that can be built. It is not reflexive, for
not-a-number is not equal to itself; but things that are equivalent to one thing in common are
equivalent to the same things, and so the greedy pairing of the members of two sets finds a pairing
whenever there is one. The induction is on how the operand on the left is built. Symmetry and
transitivity of the members are what makes the pairing of their sets complete, and a complete
pairing is what makes the sets symmetric and transitive again.
-/
namespace Comparand

/-! ## Expressions -/

namespace Arithmetic
variable {V : Type} [DecidableEq V] {ns ns' : Namespace V} {separator separator' : String}
  {trees trees' : List TokenTree} {a b : Arithmetic V}

/-- Equivalent expressions agree in all that an evaluation looks at. -/
theorem isEquivalent_iff (ha : ofTokens trees ns separator = .ok a)
    (hb : ofTokens trees' ns' separator' = .ok b) :
    a.isEquivalent b ↔ a.flattened = b.flattened ∧ a.separator = b.separator ∧
      a.bindings.length = b.bindings.length ∧
      ∀ identifier, a.bindings.lookup identifier = b.bindings.lookup identifier := by
  obtain ⟨-, -, -, resolved⟩ := resolved_of_ofTokens ha
  obtain ⟨-, -, -, resolved'⟩ := resolved_of_ofTokens hb
  have once := bindsOnce_of_ofTokens ha
  simp only [isEquivalent, Bool.and_eq_true, beq_iff_eq, List.all_eq_true, decide_eq_true_eq,
    and_assoc]
  constructor
  · rintro ⟨hflattened, hseparator, hlength, hall⟩
    refine ⟨hflattened, hseparator, hlength, fun identifier => ?_⟩
    cases hv : a.bindings.lookup identifier with
    | some v =>
      obtain ⟨front, rest, hsplit, -⟩ := List.lookup_eq_some_iff.mp hv
      exact (hall (identifier, v) (hsplit ▸ by simp)).symm
    | none =>
      cases hw : b.bindings.lookup identifier with
      | none => rfl
      | some w =>
        obtain ⟨hmem, hcandidate, -, -⟩ := resolved'.sound identifier w hw
        rw [← hflattened] at hmem
        rw [← hseparator] at hcandidate
        have bound := resolved.complete identifier hmem hcandidate
        rw [hv] at bound
        cases bound
  · rintro ⟨hflattened, hseparator, hlength, hlookup⟩
    refine ⟨hflattened, hseparator, hlength, fun binding mem => ?_⟩
    rw [← hlookup, once binding.1 binding.2 mem]

theorem isEquivalent_comm (ha : ofTokens trees ns separator = .ok a)
    (hb : ofTokens trees' ns' separator' = .ok b) : a.isEquivalent b ↔ b.isEquivalent a := by
  rw [isEquivalent_iff ha hb, isEquivalent_iff hb ha]
  constructor <;>
    exact fun ⟨hflattened, hseparator, hlength, hlookup⟩ =>
      ⟨hflattened.symm, hseparator.symm, hlength.symm, fun identifier => (hlookup identifier).symm⟩

theorem isEquivalent_trans {ns'' : Namespace V} {separator'' : String} {trees'' : List TokenTree}
    {c : Arithmetic V} (ha : ofTokens trees ns separator = .ok a)
    (hb : ofTokens trees' ns' separator' = .ok b) (hc : ofTokens trees'' ns'' separator'' = .ok c)
    (hab : a.isEquivalent b) (hbc : b.isEquivalent c) : a.isEquivalent c := by
  obtain ⟨hflattened, hseparator, hlength, hlookup⟩ := (isEquivalent_iff ha hb).mp hab
  obtain ⟨hflattened', hseparator', hlength', hlookup'⟩ := (isEquivalent_iff hb hc).mp hbc
  exact (isEquivalent_iff ha hc).mpr ⟨hflattened.trans hflattened',
    hseparator.trans hseparator', hlength.trans hlength',
    fun identifier => (hlookup identifier).trans (hlookup' identifier)⟩

end Arithmetic

namespace Operand
variable {V : Type}

/-! ## Operands that can be built -/

/-- Every expression in an operand, at any depth, is built from tokens over some namespace. -/
inductive Built : Operand V → Prop
  | string {text : String} : Built (.string text)
  | number {value : Float} : Built (.number value)
  | arithmetic {trees : List TokenTree} {ns : Namespace V} {separator : String}
      {expression : Arithmetic V} :
      Arithmetic.ofTokens trees ns separator = .ok expression → Built (.arithmetic expression)
  | set {members : List (Operand V)} : (∀ member ∈ members, Built member) → Built (.set members)
  | var {v : V} : Built (.variable v)

attribute [simp] Built.string Built.number Built.var

@[simp] theorem built_set_iff {members : List (Operand V)} :
    (Operand.set members).Built ↔ ∀ member ∈ members, member.Built :=
  ⟨fun h => by cases h; assumption, .set⟩

section Equivalence
variable [DecidableEq V]

theorem kind_eq_of_isEquivalent {a b : Operand V} (h : a.isEquivalent b) : a.kind = b.kind := by
  cases a <;> cases b <;> first | rfl | cases h

theorem isEquivalent_string_iff {text : String} {b : Operand V} :
    (Operand.string text).isEquivalent b ↔ b = .string text := by
  cases b <;> simp [isEquivalent, eq_comm (a := text)]

theorem isEquivalent_variable_iff {v : V} {b : Operand V} :
    (Operand.variable v).isEquivalent b ↔ b = .variable v := by
  cases b <;> simp [isEquivalent, eq_comm (a := v)]

theorem isEquivalent_set {members others : List (Operand V)} :
    (Operand.set members).isEquivalent (.set others) ↔
      members.length = others.length ∧
        (Pairing.unmatched isEquivalent members others).1 = [] := by
  rw [isEquivalent, equivalenceTests_eq_map, Pairing.unmatched_map]
  simp

/-- Equivalence with `a` on the left can be turned around and composed. -/
def Turns (a : Operand V) : Prop :=
  ∀ b, b.Built → (a.isEquivalent b ↔ b.isEquivalent a) ∧
    ∀ c, c.Built → a.isEquivalent b → b.isEquivalent c → a.isEquivalent c

/-- Members whose equivalences can be turned around and composed fall into classes. -/
theorem coherent_of_turns {members others : List (Operand V)}
    (turns : ∀ member ∈ members, member.Turns) (built : ∀ member ∈ members, member.Built)
    (built' : ∀ other ∈ others, other.Built) :
    Pairing.Coherent isEquivalent members others := by
  intro x hx x' hx' y hy y' hy' hxy hx'y hx'y'
  have hyx' : y.isEquivalent x' := ((turns x' hx' y (built' y hy)).1).mp hx'y
  have hxx' : x.isEquivalent x' := (turns x hx y (built' y hy)).2 x' (built x' hx') hxy hyx'
  exact (turns x hx x' (built x' hx')).2 y' (built' y' hy') hxx' hx'y'

theorem turn_of_kind_ne {a b : Operand V} (h : a.kind ≠ b.kind) :
    (a.isEquivalent b ↔ b.isEquivalent a) ∧
      ∀ c, c.Built → a.isEquivalent b → b.isEquivalent c → a.isEquivalent c :=
  ⟨⟨fun hab => absurd (kind_eq_of_isEquivalent hab) h,
    fun hba => absurd (kind_eq_of_isEquivalent hba).symm h⟩,
    fun _ _ hab => absurd (kind_eq_of_isEquivalent hab) h⟩

/-- A pairing of members that turn is turned around place by place, and composed likewise. -/
theorem turns_set {members : List (Operand V)} (turns : ∀ member ∈ members, member.Turns)
    (built : ∀ member ∈ members, member.Built) : (Operand.set members).Turns := by
  intro b hb
  cases hb with
  | @set others hothers =>
    have coherent := coherent_of_turns turns built hothers
    have turn : ∀ x ∈ members, ∀ y ∈ others, x.isEquivalent y ↔ y.isEquivalent x :=
      fun x hx y hy => (turns x hx y (hothers y hy)).1
    refine ⟨?_, fun c hc hab hbc => ?_⟩
    · rw [isEquivalent_set, isEquivalent_set, Pairing.unmatched_eq_nil_iff coherent,
        Pairing.unmatched_eq_nil_iff (coherent.flip turn)]
      exact ⟨fun h => h.symm fun x hx y hy => (turn x hx y hy).mp,
        fun h => h.symm fun y hy x hx => (turn x hx y hy).mpr⟩
    · cases hc with
      | @set rest hrest =>
        rw [isEquivalent_set] at hab hbc ⊢
        have hpairs := Pairing.pairsOff_of_unmatched hab.1 hab.2
        have hpairs' := Pairing.pairsOff_of_unmatched hbc.1 hbc.2
        rw [Pairing.unmatched_eq_nil_iff (coherent_of_turns turns built hrest)]
        exact hpairs.trans hpairs' fun x hx y hy z hz =>
          (turns x hx y (hothers y hy)).2 z (hrest z hz)
      | _ => cases hbc
  | _ => exact turn_of_kind_ne (by simp [kind])

theorem Built.turns {a : Operand V} (ha : a.Built) : a.Turns := by
  induction ha with
  | string =>
    intro b hb
    cases hb with
    | string =>
      simp only [isEquivalent_string_iff]
      exact ⟨eq_comm, fun c _ hab hbc => hbc.trans hab⟩
    | _ => exact turn_of_kind_ne (by simp [kind])
  | number =>
    intro b hb
    cases hb with
    | number =>
      refine ⟨⟨BEq.symm, BEq.symm⟩, fun c hc hab hbc => ?_⟩
      cases hc with
      | number => exact BEq.trans hab hbc
      | _ => cases hbc
    | _ => exact turn_of_kind_ne (by simp [kind])
  | arithmetic he =>
    intro b hb
    cases hb with
    | arithmetic he' =>
      refine ⟨Arithmetic.isEquivalent_comm he he', fun c hc hab hbc => ?_⟩
      cases hc with
      | arithmetic he'' => exact Arithmetic.isEquivalent_trans he he' he'' hab hbc
      | _ => cases hbc
    | _ => exact turn_of_kind_ne (by simp [kind])
  | set hmembers turns => exact turns_set turns hmembers
  | var =>
    intro b hb
    cases hb with
    | var =>
      simp only [isEquivalent_variable_iff]
      exact ⟨eq_comm, fun c _ hab hbc => hbc.trans hab⟩
    | _ => exact turn_of_kind_ne (by simp [kind])

theorem coherent_of_built {members others : List (Operand V)}
    (built : (Operand.set members).Built) (built' : (Operand.set others).Built) :
    Pairing.Coherent isEquivalent members others := by
  rw [built_set_iff] at built built'
  exact coherent_of_turns (fun member mem => (built member mem).turns) built built'

/-- Two sets are equivalent if and only if their members can be paired off by equivalence. -/
theorem isEquivalent_set_iff {members others : List (Operand V)}
    (built : (Operand.set members).Built) (built' : (Operand.set others).Built) :
    (Operand.set members).isEquivalent (.set others) ↔
      Pairing.PairsOff isEquivalent members others := by
  rw [isEquivalent_set, Pairing.unmatched_eq_nil_iff (coherent_of_built built built')]

end Equivalence

variable [Variable V]

theorem printAll_eq_map (members : List (Operand V)) : printAll members = members.map print := by
  induction members with
  | nil => rfl
  | cons member members ih => rw [printAll, ih, List.map_cons]

variable [DecidableEq V]

theorem checkEquivalence_set_eq {members others : List (Operand V)}
    (hlength : members.length = others.length) :
    (Operand.set members).checkEquivalence (.set others) =
      if (Pairing.unmatched isEquivalent members others).1 = [] then .ok ()
      else .error (.equivalenceMismatch (.members
        ((Pairing.unmatched isEquivalent members others).1.map print ++
          (Pairing.unmatched isEquivalent members others).2.map print))) := by
  simp only [checkEquivalence, mismatch?, kind, ne_eq, not_true_eq_false, if_false, setMismatch?,
    hlength, printAll_eq_map, List.map_append]
  split <;> split at * <;> simp_all

theorem checkEquivalence_set_of_length_ne {members others : List (Operand V)}
    (hlength : members.length ≠ others.length) :
    (Operand.set members).checkEquivalence (.set others) =
      .error (.equivalenceMismatch
        (.cardinalities (print (.set members)) (print (.set others)))) := by
  simp [checkEquivalence, mismatch?, kind, setMismatch?, hlength]

/--
Two sets pass the check if and only if their members can be paired off. If there are as many members
on either side, a failure names all members that are left over when as many as possible are paired
off: as many of one set as of the other, none of which is equivalent to any of the other set's.
-/
theorem checkEquivalence_set {members others : List (Operand V)}
    (built : (Operand.set members).Built) (built' : (Operand.set others).Built) :
    ((Operand.set members).checkEquivalence (.set others) = .ok () ↔
      Pairing.PairsOff isEquivalent members others) ∧
    ∀ failure, members.length = others.length →
      (Operand.set members).checkEquivalence (.set others) = .error failure →
      ∃ left orphans paired partners,
        failure = .equivalenceMismatch (.members (left.map print ++ orphans.map print)) ∧
        members.Perm (left ++ paired) ∧ others.Perm (orphans ++ partners) ∧
        left.length = orphans.length ∧ 0 < left.length ∧
        (∀ u ∈ left, ∀ w ∈ orphans, ¬ u.isEquivalent w) ∧
        Pairing.PairsOff isEquivalent paired partners := by
  constructor
  · rw [← isEquivalent_set_iff built built', isEquivalent_set]
    constructor
    · intro h
      by_cases hlength : members.length = others.length
      · rw [checkEquivalence_set_eq hlength] at h
        split at h
        · rename_i hnone
          exact ⟨hlength, hnone⟩
        · cases h
      · rw [checkEquivalence_set_of_length_ne hlength] at h
        cases h
    · rintro ⟨hlength, hnone⟩
      rw [checkEquivalence_set_eq hlength, if_pos hnone]
  · intro failure hlength h
    rw [checkEquivalence_set_eq hlength] at h
    split at h
    · cases h
    · rename_i some
      cases h
      obtain ⟨paired, partners, hleft, hright, hpairs⟩ :=
        Pairing.exists_paired isEquivalent members others
      have hcount := Pairing.length_unmatched isEquivalent members others
      exact ⟨_, _, paired, partners, rfl, hleft, hright, by omega, List.length_pos_iff.mpr some,
        fun u hu w hw => Pairing.not_fits_of_unmatched hu hw,
        Pairing.pairsOff_iff_exists_perm.mpr ⟨partners, .refl _, hpairs⟩⟩

/-- `x / y` over fields that hold numbers. -/
def ratio : Arithmetic PathVariable where
  tokens := [.token "x", .token "/", .token "y"]
  bindings := [("x", { path := ["x"], kind := .number }), ("y", { path := ["y"], kind := .number })]
  separator := ":"

theorem ratio_built :
    Arithmetic.ofTokens ratio.tokens (Namespace.paths .number) ":" = .ok ratio := rfl

def assorted : List (Operand PathVariable) :=
  [.set [.number 0, .string "a"], .arithmetic ratio, .variable { path := ["x"], kind := .number },
    .number Float.nan, .string "b"]

/-- Equivalents of three of the assorted members, and two operands that have none among them. -/
def shuffled : List (Operand PathVariable) :=
  [.string "c", .number Float.nan, .variable { path := ["x"], kind := .number },
    .set [.string "a", .number (-0)], .arithmetic ratio]

theorem assorted_built : (Operand.set assorted).Built := by
  simp [assorted, Built.arithmetic ratio_built]

theorem shuffled_built : (Operand.set shuffled).Built := by
  simp [shuffled, Built.arithmetic ratio_built]

theorem assorted_check : (Operand.set assorted).checkEquivalence (.set shuffled) =
    .error (.equivalenceMismatch (.members ["NaN", "\"b\"", "\"c\"", "NaN"])) := by
  decide +kernel

theorem assorted_mismatch :
    (Operand.set assorted).Built ∧ (Operand.set shuffled).Built ∧
      assorted.length = shuffled.length ∧
      (Operand.set assorted).checkEquivalence (.set shuffled) =
        .error (.equivalenceMismatch (.members ["NaN", "\"b\"", "\"c\"", "NaN"])) ∧
      ¬ Pairing.PairsOff isEquivalent assorted shuffled ∧
      ∃ left orphans paired partners,
        Failure.equivalenceMismatch (.members ["NaN", "\"b\"", "\"c\"", "NaN"]) =
          .equivalenceMismatch (.members (left.map print ++ orphans.map print)) ∧
        assorted.Perm (left ++ paired) ∧ shuffled.Perm (orphans ++ partners) ∧
        left.length = orphans.length ∧ 0 < left.length ∧
        (∀ u ∈ left, ∀ w ∈ orphans, ¬ u.isEquivalent w) ∧
        Pairing.PairsOff isEquivalent paired partners := by
  obtain ⟨hpasses, hfails⟩ := checkEquivalence_set assorted_built shuffled_built
  refine ⟨assorted_built, shuffled_built, rfl, assorted_check, fun hpairs => ?_,
    hfails _ rfl assorted_check⟩
  cases assorted_check.symm.trans (hpasses.mpr hpairs)

end Operand

end Comparand
