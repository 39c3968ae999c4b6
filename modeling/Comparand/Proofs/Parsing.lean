import Comparand.Formula.Expr.OfTokens
import Comparand.Proofs.Grammar
import Comparand.Proofs.Results

/-!
# Reading tokens one at a time is deriving them from the grammar

Soundness follows the machine. `Reads` says which tokens a stack of unfinished constructions has
taken in, and that each of them may stand on the ones below; every step keeps that true.
Completeness follows a derivation. What it derives is taken in on top of any stack that it may stand
on, and behaves from then on like one complete operand, up to the strongest pull that leaves an
expression of its level in one piece.
-/
namespace Comparand.Formula

def Operator.level : Operator → Level
  | .add | .sub => .additive
  | .mul | .div => .multiplicative
  | .pow => .power

def Operator.left : Operator → Level
  | .add | .sub => .additive
  | .mul | .div => .multiplicative
  | .pow => .primary

def Operator.right : Operator → Level
  | .add | .sub => .multiplicative
  | .mul | .div | .pow => .unary

theorem Derives.binary {ts us : List Placed} {left right : Expr} {operator : Operator}
    {position : Nat} (hl : Derives operator.left ts left) (hr : Derives operator.right us right) :
    Derives operator.level (ts ++ (operator.token, position) :: us)
      (.binary left operator right position) := by
  cases operator with
  | add | sub => exact .sum (by simp) hl hr
  | mul | div => exact .product (by simp) hl hr
  | pow => exact .power hl hr

theorem Operator.binding_eq (operator : Operator) :
    operator.binding = operator.level.rank + 1 := by
  cases operator <;> rfl

theorem Operator.pull_eq (operator : Operator) : operator.pull = operator.left.rank + 1 := by
  cases operator <;> rfl

/-- The level of the operand that comes next. -/
def wanted : List Frame → Level
  | .negate _ :: _ => .unary
  | .binary _ operator _ :: _ => operator.right
  | _ => .additive

theorem wanted_rank_le (stack : List Frame) : (wanted stack).rank ≤ Level.unary.rank := by
  unfold wanted
  split
  · exact Nat.le_refl _
  · rename_i operator _ _
    cases operator <;> simp [Operator.right, Level.rank]
  · simp [Level.rank]

theorem rank_right_lt (operator : Operator) {pull : Nat} (h : ¬ pull ≤ operator.binding) :
    operator.right.rank < pull := by
  cases operator <;> simp_all [Operator.binding, Operator.right, Level.rank]
  omega

/-! ## Soundness -/

/-- The tokens that a stack has taken in, each construction fitting the one below. -/
inductive Reads : List Frame → List Placed → Prop
  | nil : Reads [] []
  | group {stack : List Frame} {ts : List Placed} {position : Nat} :
      Reads stack ts → Reads (.group position :: stack) (ts ++ [(.opening, position)])
  | negate {stack : List Frame} {ts : List Placed} {position : Nat} :
      Reads stack ts → Reads (.negate position :: stack) (ts ++ [(.minus, position)])
  | binary {stack : List Frame} {ts us : List Placed} {left : Expr} {operator : Operator}
      {position : Nat} :
      Reads stack ts → (wanted stack).rank ≤ operator.level.rank →
      Derives operator.left us left →
      Reads (.binary left operator position :: stack) (ts ++ us ++ [(operator.token, position)])

/-- A stack `stack`, with an operand on it, that has taken in all of `tokens`. -/
def Splits (pull : Nat) (tokens : List Placed) (e : Expr) (stack : List Frame) : Prop :=
  ∃ ts us level, tokens = ts ++ us ∧ Reads stack ts ∧ Derives level us e ∧
    pull ≤ level.rank + 1 ∧ (wanted stack).rank ≤ level.rank

/-- Finishing constructions moves tokens from the stack to the operand and loses none. -/
theorem Splits.finish {pull : Nat} {tokens : List Placed} {e : Expr} {stack : List Frame}
    (h : Splits pull tokens e stack) :
    Splits pull tokens (finish pull e stack).1 (finish pull e stack).2 := by
  fun_induction Formula.finish pull e stack with
  | case1 e position stack le ih =>
    obtain ⟨_, us, level, rfl, hr, hd, -, fits⟩ := h
    cases hr with
    | @negate _ ts _ hr =>
      apply ih
      refine ⟨ts, (.minus, position) :: us, .unary, by simp, hr, ?_, le, wanted_rank_le stack⟩
      exact .negation (hd.weaken fits)
  | case3 e left operator position stack le ih =>
    obtain ⟨_, us, level, rfl, hr, hd, -, fits⟩ := h
    cases hr with
    | @binary _ ts vs _ _ _ hr hl hleft =>
      apply ih
      refine ⟨ts, vs ++ (operator.token, position) :: us, operator.level, by simp, hr, ?_, ?_, hl⟩
      · exact .binary hleft (hd.weaken fits)
      · rwa [← operator.binding_eq]
  | case2 | case4 | case5 => exact h

theorem wanted_finish (pull : Nat) (e : Expr) (stack : List Frame) :
    (wanted (finish pull e stack).2).rank ≤ pull - 1 := by
  fun_induction finish pull e stack with
  | case1 _ _ _ _ ih | case3 _ _ _ _ _ _ ih => exact ih
  | case2 e position stack loose =>
    simp only [negationBinding, Nat.not_le] at loose
    simp only [wanted, Level.rank]
    omega
  | case4 e left operator position stack loose =>
    have := rank_right_lt operator loose
    simp only [wanted]
    omega
  | case5 e stack notNegate notBinary =>
    cases stack with
    | nil => simp [wanted, Level.rank]
    | cons frame stack =>
      cases frame with
      | group position => simp [wanted, Level.rank]
      | negate position => exact (notNegate _ _ rfl).elim
      | binary left operator position => exact (notBinary _ _ _ _ rfl).elim

/-- The tokens behind a state of the machine. A complete operand is still a primary one. -/
inductive State.Consumed : State → List Placed → Prop
  | wanting {stack : List Frame} {ts : List Placed} :
      Reads stack ts → Consumed (.wanting stack) ts
  | having {operand : Expr} {stack : List Frame} {ts us : List Placed} :
      Reads stack ts → Derives .primary us operand → Consumed (.having operand stack) (ts ++ us)

theorem Splits.of_primary {pull : Nat} {stack : List Frame} {ts us : List Placed} {e : Expr}
    (hr : Reads stack ts) (hd : Derives .primary us e) (small : pull ≤ 5) :
    Splits pull (ts ++ us) e stack :=
  ⟨ts, us, .primary, rfl, hr, hd, small, Nat.le_trans (wanted_rank_le stack) (by simp [Level.rank])⟩

namespace State.Consumed
variable {ts us : List Placed} {operand : Expr} {stack : List Frame} {position : Nat}

theorem operator (hr : Reads stack ts) (hd : Derives .primary us operand) (operator : Operator) :
    Consumed (.wanting (.binary (finish operator.pull operand stack).1 operator position ::
      (finish operator.pull operand stack).2)) (ts ++ us ++ [(operator.token, position)]) := by
  have small : operator.pull ≤ 5 := by cases operator <;> simp [Operator.pull]
  obtain ⟨ts', us', level, htokens, hr', hd', pulled, -⟩ :=
    (Splits.of_primary hr hd small).finish
  have hw := wanted_finish operator.pull operand stack
  have hu := wanted_rank_le (finish operator.pull operand stack).2
  rw [htokens]
  refine .wanting (.binary hr' ?_ (hd'.weaken ?_))
  · cases operator <;> simp_all [Operator.pull, Operator.level, Level.rank]
    omega
  · rw [operator.pull_eq] at pulled
    omega

theorem closing {e : Expr} {rest : List Frame} {opened : Nat} (hr : Reads stack ts)
    (hd : Derives .primary us operand)
    (hf : finish 0 operand stack = (e, .group opened :: rest)) :
    Consumed (.having e rest) (ts ++ us ++ [(.closing, position)]) := by
  obtain ⟨_, us', level, htokens, hr', hd', -, fits⟩ :=
    (Splits.of_primary hr hd (Nat.zero_le 5)).finish
  rw [hf] at hr' hd'
  rw [htokens]
  cases hr' with
  | @group _ ts' _ hr' =>
    have hgroup : Derives .primary ((.opening, opened) :: us' ++ [(.closing, position)]) e :=
      .group (hd'.weaken (by simp [Level.rank]))
    simpa using Consumed.having hr' hgroup

theorem step {s s' : State} {token : Placed} (h : Consumed s ts) (hs : s.step token = .ok s') :
    Consumed s' (ts ++ [token]) := by
  obtain ⟨token, position⟩ := token
  cases h with
  | wanting hr =>
    cases token with
    | number value => cases hs; exact .having hr .number
    | minus => cases hs; exact .wanting (.negate hr)
    | opening => cases hs; exact .wanting (.group hr)
    | doubleStar | plus | star | slash | closing | blank => cases hs
  | having hr hd =>
    simp only [State.step] at hs
    split at hs
    · rename_i op hop
      cases hs
      obtain rfl := Token.operator?_eq_some_iff.mp hop
      exact operator hr hd op
    · split at hs
      · rename_i hf _
        cases hs
        exact closing hr hd hf
      · cases hs

theorem run {s s' : State} {vs : List Placed} (h : Consumed s ts)
    (hs : vs.foldlM State.step s = .ok s') : Consumed s' (ts ++ vs) := by
  induction vs generalizing s ts with
  | nil => cases hs; simpa using h
  | cons v vs ih =>
    rw [List.foldlM_cons, bind_eq_ok_iff] at hs
    obtain ⟨t, hv, hs⟩ := hs
    simpa using ih (h.step hv) hs

theorem close {s : State} {e : Expr} (h : Consumed s ts) (hs : s.close = .ok e) :
    Derives .additive ts e := by
  cases h with
  | wanting hr => cases hs
  | having hr hd =>
    simp only [State.close] at hs
    split at hs
    · rename_i hf
      cases hs
      obtain ⟨_, us', level, htokens, hr', hd', -, -⟩ :=
        (Splits.of_primary hr hd (Nat.zero_le 5)).finish
      rw [hf] at hr' hd'
      rw [htokens]
      cases hr'
      exact hd'.weaken (by simp [Level.rank])
    · cases hs

end State.Consumed

/-- Whatever the machine makes of a list of tokens, the grammar derives from it. -/
theorem derives_of_ofTokens {tokens : List Placed} {e : Expr}
    (h : Expr.ofTokens tokens = .ok e) : Derives .additive tokens e := by
  obtain ⟨s, hrun, hclose⟩ := bind_eq_ok_iff.mp h
  exact (State.Consumed.run (.wanting .nil) hrun).close hclose

/-! ## Completeness -/

/-- The strongest pull under which an expression of a level stays in one piece. -/
def Level.grip : Level → Nat
  | .additive => 1
  | .multiplicative => 2
  | .unary | .power => 3
  | .primary => 5

/-- An operator finishes nothing below the place where its left operand may stand. -/
theorem finish_pull {stack : List Frame} {operator : Operator}
    (fits : (wanted stack).rank ≤ operator.level.rank) (e : Expr) :
    finish operator.pull e stack = (e, stack) := by
  match stack with
  | [] | .group _ :: _ => rfl
  | .negate _ :: _ =>
    cases operator <;> simp_all [wanted, Operator.level, Level.rank, finish, Operator.pull,
      negationBinding]
  | .binary _ below _ :: _ =>
    cases operator <;> cases below <;>
      simp_all [wanted, Operator.level, Operator.right, Level.rank, finish, Operator.pull,
        Operator.binding]

/-- From wanting an operand on top of `stack`, the tokens lead to having all of `e` there. -/
def Delivers (grip : Nat) (ts : List Placed) (e : Expr) (stack : List Frame) : Prop :=
  ∃ operand stack', ts.foldlM State.step (State.wanting stack) = .ok (.having operand stack') ∧
    ∀ pull ≤ grip, finish pull operand stack' = finish pull e stack

theorem Delivers.mono {grip grip' : Nat} {ts : List Placed} {e : Expr} {stack : List Frame}
    (h : Delivers grip ts e stack) (le : grip' ≤ grip) : Delivers grip' ts e stack := by
  obtain ⟨operand, stack', hrun, hfinish⟩ := h
  exact ⟨operand, stack', hrun, fun pull hp => hfinish pull (Nat.le_trans hp le)⟩

theorem Delivers.binary {grip : Nat} {operator : Operator} {ts us : List Placed}
    {left right : Expr} {stack : List Frame} {position : Nat}
    (fits : (wanted stack).rank ≤ operator.level.rank) (le : grip ≤ operator.binding)
    (hl : Delivers operator.pull ts left stack)
    (hr : Delivers grip us right (.binary left operator position :: stack)) :
    Delivers grip (ts ++ (operator.token, position) :: us)
      (.binary left operator right position) stack := by
  obtain ⟨a, stack₁, hrun₁, hfinish₁⟩ := hl
  obtain ⟨b, stack₂, hrun₂, hfinish₂⟩ := hr
  refine ⟨b, stack₂, ?_, ?_⟩
  · have hstep : State.step (.having a stack₁) (operator.token, position) =
        .ok (.wanting (.binary left operator position :: stack)) := by
      simp [State.step, hfinish₁ _ (Nat.le_refl _), finish_pull fits]
    rw [List.foldlM_append, hrun₁, ok_bind, List.foldlM_cons, hstep, ok_bind]
    exact hrun₂
  · intro pull hp
    rw [hfinish₂ pull hp, finish, if_pos (Nat.le_trans hp le)]

theorem Delivers.negation {ts : List Placed} {e : Expr} {stack : List Frame} {position : Nat}
    (h : Delivers negationBinding ts e (.negate position :: stack)) :
    Delivers negationBinding ((.minus, position) :: ts) (.negate e position) stack := by
  obtain ⟨a, stack', hrun, hfinish⟩ := h
  refine ⟨a, stack', ?_, ?_⟩
  · rw [List.foldlM_cons]
    exact hrun
  · intro pull hp
    rw [hfinish pull hp, finish, if_pos hp]

theorem Delivers.run_group {grip : Nat} {ts : List Placed} {e : Expr} {stack : List Frame}
    {opened closed : Nat} (h : Delivers grip ts e (.group opened :: stack)) :
    ((Token.opening, opened) :: ts ++ [(Token.closing, closed)]).foldlM State.step
        (State.wanting stack) =
      .ok (.having e stack) := by
  obtain ⟨a, stack', hrun, hfinish⟩ := h
  have hopen : State.step (.wanting stack) (.opening, opened) =
      .ok (.wanting (.group opened :: stack)) := rfl
  have hclose : State.step (.having a stack') (.closing, closed) = .ok (.having e stack) := by
    simp [State.step, Token.operator?, hfinish 0 (Nat.zero_le _), finish]
  rw [List.cons_append, List.foldlM_cons, hopen, ok_bind, List.foldlM_append, hrun, ok_bind,
    List.foldlM_cons, hclose]
  rfl

theorem Delivers.group {grip grip' : Nat} {ts : List Placed} {e : Expr} {stack : List Frame}
    {opened closed : Nat} (h : Delivers grip ts e (.group opened :: stack)) :
    Delivers grip' ((.opening, opened) :: ts ++ [(.closing, closed)]) e stack :=
  ⟨e, stack, h.run_group, fun _ _ => rfl⟩

/-- What the grammar derives is delivered on top of every stack that it may stand on. -/
theorem Derives.delivers {level : Level} {ts : List Placed} {e : Expr} (h : Derives level ts e)
    (stack : List Frame) (fits : (wanted stack).rank ≤ level.rank) :
    Delivers level.grip ts e stack := by
  induction h generalizing stack with
  | term _ ih => exact (ih stack (Nat.le_trans fits (by decide))).mono (by decide)
  | factor _ ih => exact (ih stack (Nat.le_trans fits (by decide))).mono (by decide)
  | unsigned _ ih => exact ih stack (Nat.le_trans fits (by decide))
  | base _ ih => exact (ih stack (Nat.le_trans fits (by decide))).mono (by decide)
  | sum hop _ _ ihl ihr =>
    rcases hop with rfl | rfl <;>
      exact .binary fits (Nat.le_refl 1) (ihl stack fits)
        ((ihr _ (Nat.le_refl _)).mono (by decide))
  | product hop _ _ ihl ihr =>
    rcases hop with rfl | rfl <;>
      exact .binary fits (Nat.le_refl 2) (ihl stack fits)
        ((ihr _ (Nat.le_refl _)).mono (by decide))
  | power _ _ ihl ihr =>
    have hl := ihl stack (Nat.le_trans (wanted_rank_le stack) (by decide))
    have hfits : (wanted stack).rank ≤ Operator.pow.level.rank := fits
    exact .binary hfits (by decide) hl (ihr _ (Nat.le_refl _))
  | negation _ ih => exact .negation (ih _ (Nat.le_refl _))
  | number => exact ⟨_, _, rfl, fun _ _ => rfl⟩
  | group _ ih => exact .group (ih _ (Nat.le_refl _))

theorem ofTokens_of_derives {tokens : List Placed} {e : Expr} (h : Derives .additive tokens e) :
    Expr.ofTokens tokens = .ok e := by
  obtain ⟨operand, stack, hrun, hfinish⟩ := h.delivers [] (Nat.le_refl _)
  have hclose : (State.having operand stack).close = .ok e := by
    simp [State.close, hfinish 0 (Nat.zero_le _), finish]
  rw [Expr.ofTokens, hrun, ok_bind, hclose]

/--
Reading succeeds exactly on the lists that the grammar derives, with the tree of the derivation, and
all derivations of one list have the same tree.
-/
theorem ofTokens_eq_ok_iff_derives (tokens : List Placed) :
    (∀ e, Expr.ofTokens tokens = .ok e ↔ Derives .additive tokens e) ∧
      ∀ e e', Derives .additive tokens e → Derives .additive tokens e' → e = e' := by
  refine ⟨fun e => ⟨derives_of_ofTokens, ofTokens_of_derives⟩, ?_⟩
  intro e e' h h'
  have hok := ofTokens_of_derives h
  rw [ofTokens_of_derives h'] at hok
  exact (Except.ok.inj hok).symm

theorem negated_power_derives :
    Expr.ofTokens [(.minus, 0), (.number 2, 1), (.doubleStar, 3), (.number 4, 6)] =
        .ok (.negate (.binary (.literal 2 1) .pow (.literal 4 6) 3) 0) ∧
      Derives .additive [(.minus, 0), (.number 2, 1), (.doubleStar, 3), (.number 4, 6)]
        (.negate (.binary (.literal 2 1) .pow (.literal 4 6) 3) 0) :=
  ⟨rfl, ((ofTokens_eq_ok_iff_derives _).1 _).mp rfl⟩

end Comparand.Formula
