import Comparand.Proofs.Parsing

/-!
# What is wrong with a list of tokens

A list of tokens is viable if some sentence of the grammar begins with it. The machine that reads
tokens gets through exactly the viable lists: behind each token that it accepts, the operand that is
wanted and the closing parentheses of the open groups complete a sentence. So it stops behind the
longest viable part of a list, and the fault that it reports there is settled by that part and by
the next token alone.
-/
namespace Comparand.Formula

/-! ## Viable lists, by the grammar -/

/-- Some sentence of the grammar begins with these tokens. -/
def Viable (ts : List Placed) : Prop := ∃ us e, Derives .additive (ts ++ us) e

/-- No longer part of `front ++ rest`, from the left, than `front` is viable. -/
structure LongestViable (front rest : List Placed) : Prop where
  viable : Viable front
  longest : ∀ us vs, us ++ vs = front ++ rest → Viable us → us.length ≤ front.length

/-- Whether an operand may begin with a token. -/
def Token.beginsOperand : Token → Bool
  | .number _ | .minus | .opening => true
  | _ => false

/-- Every sentence that begins with these tokens goes on with an operand. -/
def RequiresOperand (ts : List Placed) : Prop :=
  ∀ us e, Derives .additive (ts ++ us) e → ∃ u vs, us = u :: vs ∧ u.1.beginsOperand

/-- The last of these tokens complete an operand. -/
def EndsOperand (ts : List Placed) : Prop := ∃ us vs e, ts = us ++ vs ∧ Derives .primary vs e

/-- What a token does to the groups that are open. -/
def trackGroups (groups : List Nat) : Placed → List Nat
  | (.opening, position) => position :: groups
  | (.closing, _) => groups.tail
  | _ => groups

/-- Where the groups begin that are open behind some tokens, the innermost one first. -/
def openGroups (ts : List Placed) : List Nat := ts.foldl trackGroups []

/-- The fault of a list with the longest viable part `front` and the tokens `rest` behind it. -/
inductive Dictates (front : List Placed) : (rest : List Placed) → Fault → Prop
  | unexpectedToken {token : Token} {position : Nat} {rest : List Placed} :
      RequiresOperand front →
      Dictates front ((token, position) :: rest) (.unexpectedToken token.print position)
  | unexpectedEnd : RequiresOperand front → Dictates front [] .unexpectedEnd
  | expectedClosing {rest : List Placed} {opened : Nat} {outer : List Nat} :
      EndsOperand front → openGroups front = opened :: outer →
      Dictates front rest (.expectedClosing opened)
  | trailingTokens {token : Token} {position : Nat} {rest : List Placed} {e : Expr} :
      Derives .additive front e →
      Dictates front ((token, position) :: rest) (.trailingTokens token.print position)

/-! ## Open groups of a state -/

/-- Where the groups on a stack begin, the innermost one first. -/
def groupsOf : List Frame → List Nat
  | [] => []
  | .group position :: stack => position :: groupsOf stack
  | _ :: stack => groupsOf stack

def State.stack : State → List Frame
  | .wanting stack | .having _ stack => stack

theorem innermostGroup?_eq_head? (stack : List Frame) :
    innermostGroup? stack = (groupsOf stack).head? := by
  fun_induction innermostGroup? stack with
  | case1 => rfl
  | case2 => rfl
  | case3 frame stack notGroup ih =>
    cases frame with
    | group position => exact (notGroup position rfl).elim
    | negate | binary => exact ih

theorem groupsOf_finish (pull : Nat) (e : Expr) (stack : List Frame) :
    groupsOf (finish pull e stack).2 = groupsOf stack := by
  fun_induction finish pull e stack with
  | case1 _ _ _ _ ih => exact ih
  | case3 _ _ _ _ _ _ ih => exact ih
  | case2 | case4 | case5 => rfl

/-- At a pull of zero only open groups stay unfinished, and what stands in them. -/
theorem finish_zero (e : Expr) (stack : List Frame) :
    (groupsOf stack = [] ∧ ∃ e', finish 0 e stack = (e', [])) ∨
      ∃ position below, groupsOf stack = position :: groupsOf below ∧
        ∃ e', finish 0 e stack = (e', .group position :: below) := by
  fun_induction finish 0 e stack with
  | case1 _ _ _ _ ih => exact ih
  | case3 _ _ _ _ _ _ ih => exact ih
  | case2 _ _ _ loose => exact absurd (Nat.zero_le _) loose
  | case4 _ _ _ _ _ loose => exact absurd (Nat.zero_le _) loose
  | case5 e stack notNegate notBinary =>
    cases stack with
    | nil => exact .inl ⟨rfl, e, rfl⟩
    | cons frame stack =>
      cases frame with
      | group position => exact .inr ⟨position, stack, rfl, e, rfl⟩
      | negate position => exact (notNegate _ _ rfl).elim
      | binary left operator position => exact (notBinary _ _ _ _ rfl).elim

theorem State.groupsOf_step {s s' : State} {t : Placed} (h : s.step t = .ok s') :
    groupsOf s'.stack = trackGroups (groupsOf s.stack) t := by
  obtain ⟨token, position⟩ := t
  cases s with
  | wanting stack =>
    cases token with
    | number | minus | opening => cases h; rfl
    | doubleStar | plus | star | slash | closing | blank => cases h
  | having operand stack =>
    simp only [State.step] at h
    split at h
    · rename_i operator hoperator
      cases h
      obtain rfl := Token.operator?_eq_some_iff.mp hoperator
      have hgroups := groupsOf_finish operator.pull operand stack
      cases operator <;> exact hgroups
    · split at h
      · rename_i hfinish _
        cases h
        have hgroups := groupsOf_finish 0 operand stack
        rw [hfinish] at hgroups
        simp only [State.stack, trackGroups, ← hgroups, groupsOf, List.tail_cons]
      · cases h

theorem State.groupsOf_run {s s' : State} {ts : List Placed}
    (h : ts.foldlM State.step s = .ok s') :
    groupsOf s'.stack = ts.foldl trackGroups (groupsOf s.stack) := by
  induction ts generalizing s with
  | nil => cases h; rfl
  | cons t ts ih =>
    rw [List.foldlM_cons, bind_eq_ok_iff] at h
    obtain ⟨next, hstep, hrun⟩ := h
    rw [ih hrun, State.groupsOf_step hstep, List.foldl_cons]

/-! ## Reading viable lists -/

/-- Behind a complete operand, closing all open groups completes a sentence. -/
theorem State.exists_close (operand : Expr) (stack : List Frame) :
    ∃ us e, (us = [] ∨ ∃ position vs, us = (.closing, position) :: vs) ∧
      (us.foldlM State.step (State.having operand stack) >>= State.close) = .ok e := by
  generalize hgroups : groupsOf stack = groups
  induction groups generalizing operand stack with
  | nil =>
    rcases finish_zero operand stack with ⟨-, e, hfinish⟩ | ⟨position, below, hopen, -⟩
    · refine ⟨[], e, .inl rfl, ?_⟩
      simp only [List.foldlM_nil, pure_bind, State.close, hfinish]
    · cases hgroups.symm.trans hopen
  | cons opened outer ih =>
    rcases finish_zero operand stack with ⟨hnone, -⟩ | ⟨position, below, hopen, e, hfinish⟩
    · cases hgroups.symm.trans hnone
    · cases hgroups.symm.trans hopen
      obtain ⟨us, e', -, hclose⟩ := ih e below rfl
      have hstep : State.step (.having operand stack) (.closing, 0) = .ok (.having e below) := by
        simp only [State.step, Token.operator?, hfinish]
      refine ⟨(.closing, 0) :: us, e', .inr ⟨0, us, rfl⟩, ?_⟩
      rw [List.foldlM_cons, hstep, ok_bind]
      exact hclose

theorem derives_append_of_run {s : State} {ts us : List Placed} {e : Expr}
    (hrun : ts.foldlM State.step (State.wanting []) = .ok s)
    (hclose : (us.foldlM State.step s >>= State.close) = .ok e) :
    Derives .additive (ts ++ us) e := by
  apply derives_of_ofTokens
  rw [Expr.ofTokens, List.foldlM_append, hrun, ok_bind]
  exact hclose

theorem run_of_derives_append {ts us : List Placed} {e : Expr}
    (h : Derives .additive (ts ++ us) e) :
    ∃ s, ts.foldlM State.step (State.wanting []) = .ok s ∧
      (us.foldlM State.step s >>= State.close) = .ok e := by
  have hok := ofTokens_of_derives h
  rw [Expr.ofTokens, List.foldlM_append, bind_assoc] at hok
  exact bind_eq_ok_iff.mp hok

/-- The machine gets through exactly the viable lists. -/
theorem viable_iff_run {ts : List Placed} :
    Viable ts ↔ ∃ s, ts.foldlM State.step (State.wanting []) = .ok s := by
  constructor
  · rintro ⟨us, e, h⟩
    obtain ⟨s, hrun, -⟩ := run_of_derives_append h
    exact ⟨s, hrun⟩
  · rintro ⟨s, hrun⟩
    cases s with
    | wanting stack =>
      obtain ⟨us, e, -, hclose⟩ := State.exists_close (.literal 0 0) stack
      exact ⟨(.number 0, 0) :: us, e, derives_append_of_run hrun hclose⟩
    | having operand stack =>
      obtain ⟨us, e, -, hclose⟩ := State.exists_close operand stack
      exact ⟨us, e, derives_append_of_run hrun hclose⟩

section Run
variable {ts : List Placed} {operand : Expr} {stack : List Frame}

theorem requiresOperand_of_run
    (hrun : ts.foldlM State.step (State.wanting []) = .ok (.wanting stack)) :
    RequiresOperand ts := by
  intro us e h
  obtain ⟨s, hrun', hclose⟩ := run_of_derives_append h
  obtain rfl : State.wanting stack = s := Except.ok.inj (hrun.symm.trans hrun')
  cases us with
  | nil => cases hclose
  | cons u vs =>
    refine ⟨u, vs, rfl, ?_⟩
    obtain ⟨token, position⟩ := u
    cases token with
    | number | minus | opening => rfl
    | doubleStar | plus | star | slash | closing | blank => cases hclose

theorem not_requiresOperand_of_run
    (hrun : ts.foldlM State.step (State.wanting []) = .ok (.having operand stack)) :
    ¬ RequiresOperand ts := by
  intro required
  obtain ⟨us, e, hus, hclose⟩ := State.exists_close operand stack
  obtain ⟨u, vs, rfl, begins⟩ := required us e (derives_append_of_run hrun hclose)
  rcases hus with hnil | ⟨position, ws, hcons⟩
  · cases hnil
  · cases hcons
    cases begins

theorem endsOperand_of_run
    (hrun : ts.foldlM State.step (State.wanting []) = .ok (.having operand stack)) :
    EndsOperand ts := by
  have hconsumed := State.Consumed.run (.wanting .nil) hrun
  rw [List.nil_append] at hconsumed
  cases hconsumed with
  | having _ hderives => exact ⟨_, _, _, rfl, hderives⟩

theorem having_of_endsOperand {s : State} (ends : EndsOperand ts)
    (hrun : ts.foldlM State.step (State.wanting []) = .ok s) :
    ∃ operand stack, s = .having operand stack := by
  obtain ⟨us, vs, e, rfl, hderives⟩ := ends
  rw [List.foldlM_append] at hrun
  obtain ⟨between, -, hrun⟩ := bind_eq_ok_iff.mp hrun
  cases between with
  | wanting below =>
    obtain ⟨operand, above, hdelivered, -⟩ :=
      hderives.delivers below (Nat.le_trans (wanted_rank_le below) (by decide))
    exact ⟨operand, above, Except.ok.inj (hrun.symm.trans hdelivered)⟩
  | having => cases hderives <;> cases hrun

theorem openGroups_of_run {s : State}
    (hrun : ts.foldlM State.step (State.wanting []) = .ok s) :
    openGroups ts = groupsOf s.stack :=
  (State.groupsOf_run hrun).symm

theorem exists_close_eq_ok_iff :
    (∃ e, (State.having operand stack).close = .ok e) ↔ groupsOf stack = [] := by
  rcases finish_zero operand stack with ⟨hnone, e, hfinish⟩ | ⟨position, below, hopen, e, hfinish⟩
  · simp [State.close, hfinish, hnone]
  · simp [State.close, hfinish, hopen]

end Run

/-! ## The fault of a list -/

/-- What is wrong, in a state that reads no further, with the tokens that are left. -/
def State.complaint : State → List Placed → Fault
  | .wanting _, [] => .unexpectedEnd
  | .wanting _, (token, position) :: _ => .unexpectedToken token.print position
  | .having _ stack, [] => leftover stack .unexpectedEnd
  | .having _ stack, (token, position) :: _ =>
    leftover stack (.trailingTokens token.print position)

theorem State.step_eq_error {s : State} {t : Placed} {fault : Fault} (rest : List Placed)
    (h : s.step t = .error fault) : fault = s.complaint (t :: rest) := by
  obtain ⟨token, position⟩ := t
  cases s with
  | wanting stack =>
    cases token with
    | number | minus | opening => cases h
    | doubleStar | plus | star | slash | closing | blank => cases h; rfl
  | having operand stack =>
    simp only [State.step] at h
    split at h
    · cases h
    · split at h
      · cases h
      · cases h
        rfl

theorem State.close_eq_error {s : State} {fault : Fault} (h : s.close = .error fault) :
    fault = s.complaint [] := by
  cases s with
  | wanting stack => cases h; rfl
  | having operand stack =>
    simp only [State.close] at h
    split at h
    · cases h
    · cases h
      rfl

theorem leftover_of_groupsOf_eq_nil {stack : List Frame} (h : groupsOf stack = [])
    (otherwise : Fault) : leftover stack otherwise = otherwise := by
  rw [leftover, innermostGroup?_eq_head?, h, List.head?_nil]

theorem leftover_of_groupsOf_eq_cons {stack : List Frame} {opened : Nat} {outer : List Nat}
    (h : groupsOf stack = opened :: outer) (otherwise : Fault) :
    leftover stack otherwise = .expectedClosing opened := by
  rw [leftover, innermostGroup?_eq_head?, h, List.head?_cons]

/-- What the longest viable part dictates is what the machine complains about behind it. -/
theorem dictates_iff {front rest : List Placed} {fault : Fault} {s : State}
    (hrun : front.foldlM State.step (State.wanting []) = .ok s) :
    Dictates front rest fault ↔
      fault = s.complaint rest ∧ ¬ (rest = [] ∧ ∃ e, s.close = .ok e) := by
  constructor
  · intro h
    cases h with
    | @unexpectedToken token position rest required =>
      cases s with
      | wanting => exact ⟨rfl, fun h => List.cons_ne_nil _ _ h.1⟩
      | having => exact absurd required (not_requiresOperand_of_run hrun)
    | unexpectedEnd required =>
      cases s with
      | wanting => exact ⟨rfl, fun h => nomatch h.2⟩
      | having => exact absurd required (not_requiresOperand_of_run hrun)
    | @expectedClosing rest opened outer ends hopen =>
      obtain ⟨operand, stack, rfl⟩ := having_of_endsOperand ends hrun
      rw [openGroups_of_run hrun] at hopen
      constructor
      · cases rest <;> exact (leftover_of_groupsOf_eq_cons hopen _).symm
      · rintro ⟨-, hclose⟩
        cases hopen.symm.trans (exists_close_eq_ok_iff.mp hclose)
    | @trailingTokens token position rest e sentence =>
      rw [← List.append_nil front] at sentence
      obtain ⟨s', hrun', hclose⟩ := run_of_derives_append sentence
      obtain rfl : s = s' := Except.ok.inj (hrun.symm.trans hrun')
      cases s with
      | wanting => cases hclose
      | having operand stack =>
        have hnone := exists_close_eq_ok_iff.mp ⟨e, hclose⟩
        exact ⟨(leftover_of_groupsOf_eq_nil hnone _).symm, fun h => List.cons_ne_nil _ _ h.1⟩
  · rintro ⟨rfl, incomplete⟩
    cases s with
    | wanting stack =>
      cases rest with
      | nil => exact .unexpectedEnd (requiresOperand_of_run hrun)
      | cons t rest => exact .unexpectedToken (requiresOperand_of_run hrun)
    | having operand stack =>
      cases hgroups : groupsOf stack with
      | nil =>
        obtain ⟨e, hclose⟩ := exists_close_eq_ok_iff.mpr hgroups
        cases rest with
        | nil => exact absurd ⟨rfl, e, hclose⟩ incomplete
        | cons t rest =>
          have sentence : Derives .additive (front ++ []) e := derives_append_of_run hrun hclose
          rw [List.append_nil] at sentence
          rw [State.complaint, leftover_of_groupsOf_eq_nil hgroups]
          exact .trailingTokens sentence
      | cons opened outer =>
        have hopen : openGroups front = opened :: outer := (openGroups_of_run hrun).trans hgroups
        have hfault : State.complaint (.having operand stack) rest = .expectedClosing opened := by
          cases rest <;> exact leftover_of_groupsOf_eq_cons hgroups _
        rw [hfault]
        exact .expectedClosing (endsOperand_of_run hrun) hopen

theorem ofTokens_append_eq_error_iff {front rest : List Placed} {fault : Fault} {s : State}
    (h : LongestViable front rest)
    (hrun : front.foldlM State.step (State.wanting []) = .ok s) :
    Expr.ofTokens (front ++ rest) = .error fault ↔
      fault = s.complaint rest ∧ ¬ (rest = [] ∧ ∃ e, s.close = .ok e) := by
  rw [Expr.ofTokens, List.foldlM_append, hrun, ok_bind]
  cases rest with
  | nil =>
    rw [List.foldlM_nil, pure_bind]
    cases hclose : s.close with
    | ok e => simp
    | error fault' =>
      obtain rfl := State.close_eq_error hclose
      simp [eq_comm]
  | cons t rest =>
    rw [List.foldlM_cons]
    cases hstep : s.step t with
    | ok next =>
      have viable : Viable (front ++ [t]) := by
        refine viable_iff_run.mpr ⟨next, ?_⟩
        rw [List.foldlM_append, hrun, ok_bind, List.foldlM_cons, hstep]
        rfl
      exact absurd (h.longest (front ++ [t]) rest (by simp) viable) (by simp)
    | error fault' =>
      obtain rfl := State.step_eq_error rest hstep
      simp [eq_comm]

theorem exists_longestViable (tokens : List Placed) :
    ∃ front rest, tokens = front ++ rest ∧ LongestViable front rest := by
  cases hrun : tokens.foldlM State.step (State.wanting []) with
  | ok s =>
    refine ⟨tokens, [], (List.append_nil _).symm, viable_iff_run.mpr ⟨s, hrun⟩, ?_⟩
    intro us vs hsplit _
    rw [List.append_nil] at hsplit
    simp [← hsplit]
  | error fault =>
    obtain ⟨front, t, rest, s, rfl, hfront, hstep⟩ := exists_of_foldlM_eq_error hrun
    refine ⟨front, t :: rest, rfl, viable_iff_run.mpr ⟨s, hfront⟩, ?_⟩
    intro us vs hsplit viable
    rcases List.append_eq_append_iff.mp hsplit with ⟨ws, rfl, -⟩ | ⟨ws, rfl, hws⟩
    · simp
    · cases ws with
      | nil => simp
      | cons w ws =>
        obtain ⟨s', hrun'⟩ := viable_iff_run.mp viable
        obtain rfl : t = w := (List.cons.inj hws).1
        rw [List.foldlM_append, hfront, ok_bind, List.foldlM_cons, hstep] at hrun'
        cases hrun'

/--
A list of tokens is no sentence if and only if it has the fault that its longest viable part and the
tokens behind it dictate.
-/
theorem ofTokens_eq_error_iff (tokens : List Placed) (fault : Fault) :
    Expr.ofTokens tokens = .error fault ↔
      ∃ front rest, tokens = front ++ rest ∧ LongestViable front rest ∧
        Dictates front rest fault := by
  constructor
  · intro h
    obtain ⟨front, rest, rfl, longest⟩ := exists_longestViable tokens
    obtain ⟨s, hrun⟩ := viable_iff_run.mp longest.viable
    exact ⟨front, rest, rfl, longest,
      (dictates_iff hrun).mpr ((ofTokens_append_eq_error_iff longest hrun).mp h)⟩
  · rintro ⟨front, rest, rfl, longest, dictates⟩
    obtain ⟨s, hrun⟩ := viable_iff_run.mp longest.viable
    exact (ofTokens_append_eq_error_iff longest hrun).mpr ((dictates_iff hrun).mp dictates)

/-- The group that is open is to blame, and not the number that cannot follow. -/
example : Expr.ofTokens [(.opening, 0), (.number 1, 1), (.number 2, 3)] =
    .error (.expectedClosing 0) := rfl

end Comparand.Formula
