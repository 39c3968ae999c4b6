import Comparand.Formula.Expr.OfTokens
import Comparand.Proofs.Results
import Mathlib.Data.List.Forall2

/-!
# Negative numbers in parentheses

It makes no difference to a formula whether a negative number stands in it as one token or as a
negation in parentheses. The machine that reads the one and the machine that reads the other go
through states that are alike, and so they end in expressions of the same value, or in faults that
differ in nothing but texts and places.
-/
namespace Comparand.Formula

/-- Whether two faults are of the same kind. -/
def Fault.SameCause (fault fault' : Fault) : Prop := fault.ctorIdx = fault'.ctorIdx

theorem Fault.SameCause.refl (fault : Fault) : fault.SameCause fault := rfl

/-- Related results, or faults of the same kind. -/
inductive Agree {α β : Type} (related : α → β → Prop) : Except Fault α → Except Fault β → Prop
  | ok {a : α} {b : β} : related a b → Agree related (.ok a) (.ok b)
  | error {fault fault' : Fault} :
      fault.SameCause fault' → Agree related (.error fault) (.error fault')

theorem Agree.bind {α β γ δ : Type} {related : α → β → Prop} {related' : γ → δ → Prop}
    {x : Except Fault α} {y : Except Fault β} {f : α → Except Fault γ} {g : β → Except Fault δ}
    (h : Agree related x y) (hf : ∀ a b, related a b → Agree related' (f a) (g b)) :
    Agree related' (x >>= f) (y >>= g) := by
  cases h with
  | ok hab => exact hf _ _ hab
  | error same => exact .error same

theorem Agree.trans {α β γ : Type} {related : α → β → Prop} {related' : β → γ → Prop}
    {related'' : α → γ → Prop} {x : Except Fault α} {y : Except Fault β} {z : Except Fault γ}
    (h : Agree related x y) (h' : Agree related' y z)
    (compose : ∀ a b c, related a b → related' b c → related'' a c) : Agree related'' x z := by
  cases h with
  | ok hab =>
    cases h' with
    | ok hbc => exact .ok (compose _ _ _ hab hbc)
  | error same =>
    cases h' with
    | error same' => exact .error (Eq.trans same same')

theorem Agree.ok_or_error {α β : Type} {related : α → β → Prop} {x : Except Fault α}
    {y : Except Fault β} (h : Agree related x y) :
    (∃ a b, x = .ok a ∧ y = .ok b ∧ related a b) ∨
      ∃ fault fault', x = .error fault ∧ y = .error fault' ∧ fault.SameCause fault' := by
  cases h with
  | ok hab => exact .inl ⟨_, _, rfl, rfl, hab⟩
  | error same => exact .inr ⟨_, _, rfl, rfl, same⟩

/-! ## Expressions -/

/-- Expressions that differ in positions and in the way negative literals are written. -/
inductive Expr.Alike : Expr → Expr → Prop
  | literal {value : Float} {p q : Nat} : Alike (.literal value p) (.literal value q)
  | negative {value : Float} {p q r : Nat} :
      Alike (.literal (-value) p) (.negate (.literal value q) r)
  | negate {e e' : Expr} {p q : Nat} : Alike e e' → Alike (.negate e p) (.negate e' q)
  | binary {left left' right right' : Expr} {operator : Operator} {p q : Nat} :
      Alike left left' → Alike right right' →
      Alike (.binary left operator right p) (.binary left' operator right' q)

theorem Expr.Alike.value_eq {e e' : Expr} (h : e.Alike e') : e.value = e'.value := by
  induction h with
  | literal | negative => rfl
  | negate _ ih => rw [Expr.value, Expr.value, ih]
  | binary _ _ ihl ihr => rw [Expr.value, Expr.value, ihl, ihr]

/-! ## States -/

/-- Unfinished constructions of one kind over alike expressions. -/
inductive Frame.Alike : Frame → Frame → Prop
  | group {p q : Nat} : Alike (.group p) (.group q)
  | negate {p q : Nat} : Alike (.negate p) (.negate q)
  | binary {left left' : Expr} {operator : Operator} {p q : Nat} :
      left.Alike left' → Alike (.binary left operator p) (.binary left' operator q)

inductive State.Alike : State → State → Prop
  | wanting {stack stack' : List Frame} :
      List.Forall₂ Frame.Alike stack stack' → Alike (.wanting stack) (.wanting stack')
  | having {e e' : Expr} {stack stack' : List Frame} :
      e.Alike e' → List.Forall₂ Frame.Alike stack stack' →
      Alike (.having e stack) (.having e' stack')

theorem finish_alike (pull : Nat) {e e' : Expr} {stack stack' : List Frame} (he : e.Alike e')
    (hs : List.Forall₂ Frame.Alike stack stack') :
    (finish pull e stack).1.Alike (finish pull e' stack').1 ∧
      List.Forall₂ Frame.Alike (finish pull e stack).2 (finish pull e' stack').2 := by
  induction hs generalizing e e' with
  | nil => exact ⟨he, .nil⟩
  | cons hframe hs ih =>
    cases hframe with
    | group => exact ⟨he, .cons .group hs⟩
    | negate =>
      simp only [finish]
      split
      · exact ih (.negate he)
      · exact ⟨he, .cons .negate hs⟩
    | binary hleft =>
      simp only [finish]
      split
      · exact ih (.binary hleft he)
      · exact ⟨he, .cons (.binary hleft) hs⟩

theorem innermostGroup?_alike {stack stack' : List Frame}
    (hs : List.Forall₂ Frame.Alike stack stack') :
    (innermostGroup? stack).isSome = (innermostGroup? stack').isSome := by
  induction hs with
  | nil => rfl
  | cons hframe _ ih =>
    cases hframe with
    | group => rfl
    | negate => exact ih
    | binary _ => exact ih

theorem leftover_sameCause {stack stack' : List Frame} {fault fault' : Fault}
    (hs : List.Forall₂ Frame.Alike stack stack') (same : fault.SameCause fault') :
    (leftover stack fault).SameCause (leftover stack' fault') := by
  have hsome := innermostGroup?_alike hs
  unfold leftover
  cases h : innermostGroup? stack <;> cases h' : innermostGroup? stack' <;> simp_all
  exact Fault.SameCause.refl _

/-- The same token leads from alike states to alike states. -/
theorem State.Alike.step {s s' : State} (h : s.Alike s') (token : Token) (p q : Nat) :
    Agree State.Alike (s.step (token, p)) (s'.step (token, q)) := by
  cases h with
  | wanting hs =>
    cases token with
    | number value => exact .ok (.having .literal hs)
    | minus => exact .ok (.wanting (.cons .negate hs))
    | opening => exact .ok (.wanting (.cons .group hs))
    | doubleStar | plus | star | slash | closing | blank => exact .error rfl
  | @having e e' stack stack' he hs =>
    simp only [State.step]
    cases hoperator : token.operator? with
    | some operator =>
      obtain ⟨hleft, hrest⟩ := finish_alike operator.pull he hs
      exact .ok (.wanting (.cons (.binary hleft) hrest))
    | none =>
      have hextra : Agree State.Alike (.error (leftover stack (.trailingTokens token.print p)))
          (.error (leftover stack' (.trailingTokens token.print q))) :=
        .error (leftover_sameCause hs rfl)
      by_cases hclosing : token = .closing
      · subst hclosing
        obtain ⟨hresult, hrest⟩ := finish_alike 0 he hs
        cases hf : finish 0 e stack with
        | mk result rest =>
          cases hf' : finish 0 e' stack' with
          | mk result' rest' =>
            rw [hf, hf'] at hresult hrest
            cases hrest with
            | nil => exact hextra
            | cons hframe hrest =>
              cases hframe with
              | group => exact .ok (.having hresult hrest)
              | negate => exact hextra
              | binary => exact hextra
      · cases token <;> first | exact hextra | exact absurd rfl hclosing

/-- A negative number is taken in like its negation in parentheses. -/
theorem State.Alike.negative {s s' : State} (h : s.Alike s') (value : Float)
    (p p₁ p₂ p₃ p₄ : Nat) :
    Agree State.Alike (s.step (.number (-value), p))
      ([(.opening, p₁), (.minus, p₂), (.number value, p₃), (.closing, p₄)].foldlM State.step
        s') := by
  cases h with
  | wanting hs => exact .ok (.having .negative hs)
  | having he hs => exact .error (leftover_sameCause hs rfl)

/-! ## Lists of tokens -/

/-- Tokens and how they are written when no literal may be negative. -/
inductive Spells : List Token → List Placed → Prop
  | nil : Spells [] []
  | same {token : Token} {position : Nat} {ts : List Token} {us : List Placed} :
      Spells ts us → Spells (token :: ts) ((token, position) :: us)
  | negative {value : Float} {p₁ p₂ p₃ p₄ : Nat} {ts : List Token} {us : List Placed} :
      Spells ts us →
      Spells (.number (-value) :: ts)
        ((.opening, p₁) :: (.minus, p₂) :: (.number value, p₃) :: (.closing, p₄) :: us)

theorem Spells.append {ts ts' : List Token} {us us' : List Placed} (h : Spells ts us)
    (h' : Spells ts' us') : Spells (ts ++ ts') (us ++ us') := by
  induction h with
  | nil => exact h'
  | same _ ih => exact .same ih
  | negative _ ih => exact .negative ih

theorem Spells.of_map_fst_eq {ts : List Token} {us vs : List Placed} (h : Spells ts us)
    (same : us.map Prod.fst = vs.map Prod.fst) : Spells ts vs := by
  induction h generalizing vs with
  | nil =>
    obtain rfl := List.map_eq_nil_iff.mp same.symm
    exact .nil
  | @same token position ts us _ ih =>
    obtain ⟨⟨_, p⟩, vs, rfl, rfl, hvs⟩ := List.map_eq_cons_iff.mp same.symm
    exact .same (ih hvs.symm)
  | @negative value p₁ p₂ p₃ p₄ ts us _ ih =>
    obtain ⟨⟨_, q₁⟩, _, rfl, rfl, h₁⟩ := List.map_eq_cons_iff.mp same.symm
    obtain ⟨⟨_, q₂⟩, _, rfl, rfl, h₂⟩ := List.map_eq_cons_iff.mp h₁
    obtain ⟨⟨_, q₃⟩, _, rfl, rfl, h₃⟩ := List.map_eq_cons_iff.mp h₂
    obtain ⟨⟨_, q₄⟩, _, rfl, rfl, h₄⟩ := List.map_eq_cons_iff.mp h₃
    exact .negative (ih h₄.symm)

theorem Spells.run {ts : List Token} {us : List Placed} (h : Spells ts us) {s s' : State}
    (hs : s.Alike s') (n : Nat) :
    Agree State.Alike ((ts.zipIdx n).foldlM State.step s) (us.foldlM State.step s') := by
  induction h generalizing s s' n with
  | nil => exact .ok hs
  | @same token position ts us _ ih =>
    rw [List.zipIdx_cons, List.foldlM_cons, List.foldlM_cons]
    exact (hs.step token n position).bind fun _ _ hnext => ih hnext (n + 1)
  | @negative value p₁ p₂ p₃ p₄ ts us _ ih =>
    rw [List.zipIdx_cons, List.foldlM_cons]
    change Agree _ _ (List.foldlM State.step s'
      ([(.opening, p₁), (.minus, p₂), (.number value, p₃), (.closing, p₄)] ++ us))
    rw [List.foldlM_append]
    exact (hs.negative value n p₁ p₂ p₃ p₄).bind fun _ _ hnext => ih hnext (n + 1)

theorem State.Alike.close {s s' : State} (h : s.Alike s') :
    Agree Expr.Alike s.close s'.close := by
  cases h with
  | wanting _ => exact .error rfl
  | @having e e' stack stack' he hs =>
    obtain ⟨hresult, hrest⟩ := finish_alike 0 he hs
    have hextra : Agree Expr.Alike (.error (leftover stack .unexpectedEnd))
        (.error (leftover stack' .unexpectedEnd)) := .error (leftover_sameCause hs rfl)
    simp only [State.close]
    cases hf : finish 0 e stack with
    | mk result rest =>
      cases hf' : finish 0 e' stack' with
      | mk result' rest' =>
        rw [hf, hf'] at hresult hrest
        cases hrest with
        | nil => exact .ok hresult
        | cons _ _ => exact hextra

/-- Both ways to write a list of tokens spell alike expressions. -/
theorem Spells.ofTokens {ts : List Token} {us : List Placed} (h : Spells ts us) :
    Agree Expr.Alike (Expr.ofTokens ts.zipIdx) (Expr.ofTokens us) :=
  (h.run (.wanting .nil) 0).bind fun _ _ hs => hs.close

end Comparand.Formula
