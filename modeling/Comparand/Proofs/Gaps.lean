import Comparand.Proofs.Parsing
import Mathlib.Data.Fintype.EquivFin

/-!
# Operands in parentheses

Wherever a number may stand in a formula, an expression in parentheses may stand as well, and
nothing around it is read in another way. The machine looks into no operand that it has taken in. So
its states depend on one operand in a fixed place, a gap that is filled with a number in the one run
and with the expression in the other, and the gap outlives every further token.
-/
namespace Comparand.Formula

/-! ## Literals -/

def Expr.literals : Expr → List (Float × Nat)
  | .literal value position => [(value, position)]
  | .negate operand _ => operand.literals
  | .binary left _ right _ => left.literals ++ right.literals

def Token.number? : Placed → Option (Float × Nat)
  | (.number value, position) => some (value, position)
  | _ => none

def numbers (tokens : List Placed) : List (Float × Nat) := tokens.filterMap Token.number?

theorem numbers_append (ts us : List Placed) : numbers (ts ++ us) = numbers ts ++ numbers us :=
  List.filterMap_append

@[simp] theorem numbers_operator (operator : Operator) (position : Nat) (ts : List Placed) :
    numbers ((operator.token, position) :: ts) = numbers ts := by
  cases operator <;> rfl

theorem Derives.literals {level : Level} {ts : List Placed} {e : Expr} (h : Derives level ts e) :
    e.literals = numbers ts := by
  induction h with
  | term _ ih | factor _ ih | unsigned _ ih | base _ ih => exact ih
  | sum _ _ _ ihl ihr | product _ _ _ ihl ihr =>
    rw [numbers_append, numbers_operator, Expr.literals, ihl, ihr]
  | power _ _ ihl ihr =>
    rw [numbers_append, Expr.literals, ihl, ihr]
    rfl
  | negation _ ih => exact ih
  | number => rfl
  | group _ ih =>
    rw [numbers_append, ih]
    exact (List.append_nil _).symm

/-! ## Gaps -/

/-- An expression that lacks one operand. -/
inductive Gap where
  | here
  | negate (gap : Gap) (position : Nat)
  | first (gap : Gap) (operator : Operator) (right : Expr) (position : Nat)
  | second (left : Expr) (operator : Operator) (gap : Gap) (position : Nat)

namespace Gap

def fill : Gap → Expr → Expr
  | here, e => e
  | negate gap position, e => .negate (gap.fill e) position
  | first gap operator right position, e => .binary (gap.fill e) operator right position
  | second left operator gap position, e => .binary left operator (gap.fill e) position

def before : Gap → List (Float × Nat)
  | here => []
  | negate gap _ => gap.before
  | first gap _ _ _ => gap.before
  | second left _ gap _ => left.literals ++ gap.before

def after : Gap → List (Float × Nat)
  | here => []
  | negate gap _ => gap.after
  | first gap _ right _ => gap.after ++ right.literals
  | second _ _ gap _ => gap.after

theorem literals_fill (gap : Gap) (e : Expr) :
    (gap.fill e).literals = gap.before ++ e.literals ++ gap.after := by
  induction gap with
  | here => simp [fill, before, after]
  | negate gap position ih => exact ih
  | first gap operator right position ih => simp [fill, before, after, Expr.literals, ih]
  | second left operator gap position ih => simp [fill, before, after, Expr.literals, ih]

theorem length_before_lt (gap : Gap) (value : Float) (position : Nat) :
    gap.before.length < (gap.fill (.literal value position)).literals.length := by
  simp only [literals_fill, Expr.literals, List.length_append, List.length_singleton]
  omega

/-- The literals before it tell a gap in an expression from all others. -/
theorem eq_of_fill_eq {gap gap' : Gap} {value : Float} {position : Nat}
    (h : gap.fill (.literal value position) = gap'.fill (.literal value position))
    (same : gap.before.length = gap'.before.length) : gap = gap' := by
  induction gap generalizing gap' with
  | here =>
    cases gap' with
    | here => rfl
    | negate | first | second => cases h
  | negate gap p ih =>
    cases gap' with
    | negate gap' p' =>
      obtain ⟨hfill, rfl⟩ := Expr.negate.inj h
      rw [ih hfill same]
    | here | first | second => cases h
  | first gap operator right p ih =>
    cases gap' with
    | first gap' operator' right' p' =>
      obtain ⟨hfill, rfl, rfl, rfl⟩ := Expr.binary.inj h
      rw [ih hfill same]
    | second left' operator' gap' p' =>
      obtain ⟨hfill, -⟩ := Expr.binary.inj h
      have hlt := gap.length_before_lt value position
      simp only [before, List.length_append, ← hfill] at same
      omega
    | here | negate => cases h
  | second left operator gap p ih =>
    cases gap' with
    | first gap' operator' right' p' =>
      obtain ⟨hfill, -⟩ := Expr.binary.inj h
      have hlt := gap'.length_before_lt value position
      simp only [before, List.length_append, hfill] at same
      omega
    | second left' operator' gap' p' =>
      obtain ⟨rfl, rfl, hfill, rfl⟩ := Expr.binary.inj h
      simp only [before, List.length_append, Nat.add_left_cancel_iff] at same
      rw [ih hfill same]
    | here | negate => cases h

end Gap

/-! ## States with a gap -/

/-- A stack with a gap in the left operand of one of its operators. -/
inductive GappedStack : (Expr → List Frame) → Prop
  | here {gap : Gap} {operator : Operator} {position : Nat} {stack : List Frame} :
      GappedStack fun e => .binary (gap.fill e) operator position :: stack
  | push {frame : Frame} {stack : Expr → List Frame} :
      GappedStack stack → GappedStack fun e => frame :: stack e

/-- A complete operand on a stack with a gap in the one or in the other. -/
inductive GappedOperand : (Expr → Expr × List Frame) → Prop
  | here {gap : Gap} {stack : List Frame} : GappedOperand fun e => (gap.fill e, stack)
  | below {operand : Expr} {stack : Expr → List Frame} :
      GappedStack stack → GappedOperand fun e => (operand, stack e)

inductive GappedState : (Expr → State) → Prop
  | wanting {stack : Expr → List Frame} :
      GappedStack stack → GappedState fun e => .wanting (stack e)
  | having {top : Expr → Expr × List Frame} :
      GappedOperand top → GappedState fun e => .having (top e).1 (top e).2

/-- An outcome that is a success for all operands or the same fault for all. -/
inductive Steady {α : Type} (gapped : (Expr → α) → Prop) : (Expr → Except Fault α) → Prop
  | ok {f : Expr → α} : gapped f → Steady gapped fun e => .ok (f e)
  | error {fault : Fault} : Steady gapped fun _ => .error fault

theorem Steady.bind {α β : Type} {gapped : (Expr → α) → Prop} {gapped' : (Expr → β) → Prop}
    {x : Expr → Except Fault α} {f : α → Except Fault β} (h : Steady gapped x)
    (hf : ∀ g, gapped g → Steady gapped' fun e => f (g e)) :
    Steady gapped' fun e => x e >>= f := by
  cases h with
  | ok hg => exact hf _ hg
  | error => exact .error

theorem Steady.ok_or_error {α : Type} {gapped : (Expr → α) → Prop} {x : Expr → Except Fault α}
    (h : Steady gapped x) :
    (∃ f, gapped f ∧ ∀ e, x e = .ok (f e)) ∨ ∃ fault, ∀ e, x e = .error fault := by
  cases h with
  | ok hf => exact .inl ⟨_, hf, fun _ => rfl⟩
  | error => exact .inr ⟨_, fun _ => rfl⟩

theorem finish_gapped (pull : Nat) (gap : Gap) (stack : List Frame) :
    GappedOperand fun e => finish pull (gap.fill e) stack := by
  induction stack generalizing gap with
  | nil => exact .here
  | cons frame stack ih =>
    cases frame with
    | group position => exact .here
    | negate position =>
      simp only [finish]
      split
      · exact ih (.negate gap position)
      · exact .here
    | binary left operator position =>
      simp only [finish]
      split
      · exact ih (.second left operator gap position)
      · exact .here

namespace GappedStack
variable {stack : Expr → List Frame}

/-- Finishing stops above the gap or takes its operator along. -/
theorem finish (h : GappedStack stack) (pull : Nat) (operand : Expr) :
    GappedOperand fun e => finish pull operand (stack e) := by
  induction h generalizing operand with
  | @here gap operator position stack =>
    simp only [Formula.finish]
    split
    · exact finish_gapped pull (.first gap operator operand position) stack
    · exact .below .here
  | @push frame stack h ih =>
    cases frame with
    | group position => exact .below (.push h)
    | negate position =>
      simp only [Formula.finish]
      split
      · exact ih (.negate operand position)
      · exact .below (.push h)
    | binary left operator position =>
      simp only [Formula.finish]
      split
      · exact ih (.binary left operator operand position)
      · exact .below (.push h)

theorem exists_innermostGroup? (h : GappedStack stack) :
    ∃ found, ∀ e, innermostGroup? (stack e) = found := by
  induction h with
  | here => exact ⟨_, fun _ => rfl⟩
  | @push frame stack h ih =>
    cases frame with
    | group position => exact ⟨some position, fun _ => rfl⟩
    | negate | binary => exact ih

end GappedStack

namespace GappedOperand
variable {top : Expr → Expr × List Frame}

theorem finish (h : GappedOperand top) (pull : Nat) :
    GappedOperand fun e => finish pull (top e).1 (top e).2 := by
  cases h with
  | @here gap stack => exact finish_gapped pull gap stack
  | @below operand stack h => exact h.finish pull operand

theorem exists_leftover (h : GappedOperand top) (otherwise : Fault) :
    ∃ fault, ∀ e, leftover (top e).2 otherwise = fault := by
  have hfound : ∃ found, ∀ e, innermostGroup? (top e).2 = found := by
    cases h with
    | @here gap stack => exact ⟨innermostGroup? stack, fun _ => rfl⟩
    | below h => exact h.exists_innermostGroup?
  obtain ⟨found, hfound⟩ := hfound
  exact ⟨_, fun e => by rw [leftover, hfound]⟩

theorem operator (h : GappedOperand top) (operator : Operator) (position : Nat) :
    GappedStack fun e => .binary (top e).1 operator position :: (top e).2 := by
  cases h with
  | here => exact .here
  | @below operand stack h =>
    change GappedStack fun e => .binary operand operator position :: stack e
    exact .push h

end GappedOperand

namespace GappedState
variable {s : Expr → State}

/-- No token is read in another way for what the gap is filled with. -/
theorem step (h : GappedState s) (token : Placed) :
    Steady GappedState fun e => (s e).step token := by
  obtain ⟨token, position⟩ := token
  cases h with
  | wanting h =>
    cases token with
    | number value => exact .ok (.having (.below h))
    | minus => exact .ok (.wanting (.push h))
    | opening => exact .ok (.wanting (.push h))
    | doubleStar | plus | star | slash | closing | blank => exact .error
  | @having top h =>
    simp only [State.step]
    cases hoperator : token.operator? with
    | some operator => exact .ok (.wanting ((h.finish operator.pull).operator operator position))
    | none =>
      obtain ⟨fault, hfault⟩ := h.exists_leftover (.trailingTokens token.print position)
      have hfinish := h.finish 0
      generalize hrest : (fun e => Formula.finish 0 (top e).1 (top e).2) = rest at hfinish
      simp only [hfault, congrFun hrest]
      by_cases hclosing : token = .closing
      · subst hclosing
        cases hfinish with
        | @here gap stack =>
          cases stack with
          | nil => exact .error
          | cons frame stack =>
            cases frame with
            | group => exact .ok (.having .here)
            | negate | binary => exact .error
        | below h =>
          cases h with
          | here => exact .error
          | @push frame stack h =>
            cases frame with
            | group => exact .ok (.having (.below h))
            | negate | binary => exact .error
      · cases token <;> first | exact .error | exact absurd rfl hclosing

theorem run (h : GappedState s) (tokens : List Placed) :
    Steady GappedState fun e => tokens.foldlM State.step (s e) := by
  induction tokens generalizing s with
  | nil => exact .ok h
  | cons token tokens ih =>
    simp only [List.foldlM_cons]
    exact (h.step token).bind fun _ hnext => ih hnext

theorem close (h : GappedState s) :
    Steady (fun f => ∃ gap : Gap, f = gap.fill) fun e => (s e).close := by
  cases h with
  | wanting => exact .error
  | @having top h =>
    obtain ⟨fault, hfault⟩ := h.exists_leftover .unexpectedEnd
    have hfinish := h.finish 0
    generalize hrest : (fun e => Formula.finish 0 (top e).1 (top e).2) = rest at hfinish
    simp only [State.close, hfault, congrFun hrest]
    cases hfinish with
    | @here gap stack =>
      cases stack with
      | nil => exact .ok ⟨gap, rfl⟩
      | cons => exact .error
    | below h =>
      cases h with
      | here | push => exact .error

end GappedState

/-! ## Parentheses -/

/-- Tokens that are taken in as one operand where one is wanted, and nowhere else. -/
structure Stands (tokens : List Placed) (e : Expr) : Prop where
  taken : ∀ stack, tokens.foldlM State.step (.wanting stack) = .ok (.having e stack)
  refused : ∀ operand stack, ∃ fault,
    tokens.foldlM State.step (.having operand stack) = .error fault

namespace Stands

theorem number (value : Float) (position : Nat) :
    Stands [(.number value, position)] (.literal value position) where
  taken _ := rfl
  refused _ _ := ⟨_, rfl⟩

theorem enclosed {ts : List Placed} {t : Expr} (h : Expr.ofTokens ts = .ok t)
    (opened closed : Nat) : Stands ((.opening, opened) :: ts ++ [(.closing, closed)]) t where
  taken stack :=
    Delivers.run_group ((derives_of_ofTokens h).delivers (.group opened :: stack) (Nat.le_refl _))
  refused _ _ := ⟨_, rfl⟩

end Stands

/-- All operands leave the same gap in what stands around them, or all are refused there. -/
theorem exists_gap_or_refused (pre post : List Placed) :
    (∃ gap : Gap, ∀ tokens e, Stands tokens e →
        Expr.ofTokens (pre ++ tokens ++ post) = .ok (gap.fill e)) ∨
      ∀ tokens e, Stands tokens e →
        ∃ fault, Expr.ofTokens (pre ++ tokens ++ post) = .error fault := by
  have hruns : ∀ tokens, Expr.ofTokens (pre ++ tokens ++ post) =
      pre.foldlM State.step (.wanting []) >>= fun s => tokens.foldlM State.step s >>= fun s =>
        post.foldlM State.step s >>= State.close := by
    intro tokens
    rw [Expr.ofTokens, List.foldlM_append, List.foldlM_append, bind_assoc, bind_assoc]
  simp only [hruns]
  cases pre.foldlM State.step (.wanting []) with
  | error fault => exact .inr fun _ _ _ => ⟨fault, rfl⟩
  | ok s =>
    simp only [ok_bind]
    cases s with
    | having operand stack =>
      right
      intro tokens e hstands
      obtain ⟨fault, hrefused⟩ := hstands.refused operand stack
      exact ⟨fault, by rw [hrefused, error_bind]⟩
    | wanting stack =>
      have hgapped : GappedState fun e => .having e stack :=
        .having (@GappedOperand.here .here stack)
      have hsteady := (hgapped.run post).bind fun _ h => h.close
      rcases hsteady.ok_or_error with ⟨_, ⟨gap, rfl⟩, hok⟩ | ⟨fault, herror⟩
      · left
        refine ⟨gap, fun tokens e hstands => ?_⟩
        rw [hstands.taken stack, ok_bind, hok e]
      · right
        intro tokens e hstands
        exact ⟨fault, by rw [hstands.taken stack, ok_bind, herror e]⟩

theorem Gap.before_and_after {gap : Gap} {pre post : List Placed}
    (h : ∀ value position, Expr.ofTokens (pre ++ [(.number value, position)] ++ post) =
      .ok (gap.fill (.literal value position))) :
    gap.before = numbers pre ∧ gap.after = numbers post := by
  obtain ⟨position, fresh⟩ :=
    Infinite.exists_notMem_finset ((gap.before ++ gap.after).map Prod.snd).toFinset
  simp only [List.mem_toFinset, List.map_append, List.mem_append, not_or] at fresh
  have hliterals := (derives_of_ofTokens (h 0 position)).literals
  simp only [literals_fill, numbers_append, List.append_assoc, List.singleton_append,
    Expr.literals] at hliterals
  obtain ⟨hbefore, -, hafter⟩ :=
    (List.append_cons_inj_of_notMem (fun mem => fresh.1 (List.mem_map_of_mem mem))
      (fun mem => fresh.2 (List.mem_map_of_mem mem))).mp hliterals
  exact ⟨hbefore, hafter⟩

/--
Wherever one number may stand, an expression in parentheses may, and the other way around. The
expression takes the place of the number, which is the literal between those of the numbers on both
sides, and nothing else changes.
-/
theorem ofTokens_enclosed {ts : List Placed} {t : Expr} (h : Expr.ofTokens ts = .ok t)
    (pre post : List Placed) (value : Float) (position opened closed : Nat) :
    ((∃ e, Expr.ofTokens (pre ++ [(.number value, position)] ++ post) = .ok e) ↔
      ∃ e', Expr.ofTokens (pre ++ ((.opening, opened) :: ts ++ [(.closing, closed)]) ++ post) =
        .ok e') ∧
      ∀ e e', Expr.ofTokens (pre ++ [(.number value, position)] ++ post) = .ok e →
        Expr.ofTokens (pre ++ ((.opening, opened) :: ts ++ [(.closing, closed)]) ++ post) =
          .ok e' →
        ∃! gap : Gap, (gap.before = numbers pre ∧ gap.after = numbers post) ∧
          e = gap.fill (.literal value position) ∧ e' = gap.fill t := by
  have hnumber := Stands.number value position
  have henclosed := Stands.enclosed h opened closed
  rcases exists_gap_or_refused pre post with ⟨gap, hgap⟩ | hrefused
  · have hplace := Gap.before_and_after fun value position =>
      hgap _ _ (Stands.number value position)
    rw [hgap _ _ hnumber, hgap _ _ henclosed]
    refine ⟨⟨fun _ => ⟨_, rfl⟩, fun _ => ⟨_, rfl⟩⟩, ?_⟩
    intro e e' he he'
    cases he
    cases he'
    refine ⟨gap, ⟨hplace, rfl, rfl⟩, ?_⟩
    intro gap' ⟨hplace', hfill, _⟩
    exact (Gap.eq_of_fill_eq hfill (by rw [hplace.1, hplace'.1])).symm
  · obtain ⟨fault, hfault⟩ := hrefused _ _ hnumber
    obtain ⟨fault', hfault'⟩ := hrefused _ _ henclosed
    rw [hfault, hfault']
    simp

theorem exponent_enclosed :
    Expr.ofTokens [(.minus, 4), (.number 5, 5)] = .ok (.negate (.literal 5 5) 4) ∧
      ∃ e e', Expr.ofTokens [(.minus, 0), (.number 2, 1), (.doubleStar, 2), (.number 3, 3),
          (.star, 7), (.number 4, 8)] = .ok e ∧
        Expr.ofTokens [(.minus, 0), (.number 2, 1), (.doubleStar, 2), (.opening, 3), (.minus, 4),
          (.number 5, 5), (.closing, 6), (.star, 7), (.number 4, 8)] = .ok e' ∧
        ∃! gap : Gap, (gap.before = [(2, 1)] ∧ gap.after = [(4, 8)]) ∧
          e = gap.fill (.literal 3 3) ∧ e' = gap.fill (.negate (.literal 5 5) 4) := by
  have hnegation : Expr.ofTokens [(.minus, 4), (.number 5, 5)] = .ok (.negate (.literal 5 5) 4) :=
    rfl
  have henclosed := ofTokens_enclosed hnegation [(.minus, 0), (.number 2, 1), (.doubleStar, 2)]
    [(.star, 7), (.number 4, 8)] 3 3 3 6
  exact ⟨hnegation, _, _, rfl, rfl, henclosed.2 _ _ rfl rfl⟩

end Comparand.Formula
