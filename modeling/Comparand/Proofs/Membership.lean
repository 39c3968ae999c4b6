import Comparand.Proofs.Subsets

/-!
# Membership and the order of members

A set asks its members in turn whether they equal a value. Members that do not equal it, and members
that it does not fit, are passed over; a member that equals it, or that fails for another reason,
settles the question, and the set has the answer of the first one that does. So the order of the
members matters if and only if two of those that settle the question differ: one equals the value
and the other one fails, or they fail for different reasons.
-/
namespace Comparand.Operand
variable {V : Type} [Variable V] {value : Value} {context : Context} {member : Operand V}
  {members : List (Operand V)}

/-- Whether a member decides if a value belongs to a set, unless one before it does. -/
def settles (value : Value) (context : Context) (member : Operand V) : Bool :=
  match member.equals value context with
  | .ok equal => equal
  | .error failure => !failure.isTypeMismatch

theorem settles_of_equals (h : member.equals value context = .ok true) :
    member.settles value context := by
  rw [settles, h]

theorem equals_of_settles (h : member.settles value context)
    (mismatch : ∀ failure, member.equals value context = .error failure → failure.isTypeMismatch) :
    member.equals value context = .ok true := by
  cases hmember : member.equals value context with
  | ok equal =>
    rw [settles, hmember] at h
    exact congrArg _ h
  | error failure =>
    rw [settles, hmember] at h
    simp [mismatch failure hmember] at h

theorem isTypeMismatch_of_not_settles {failure : Failure} (h : ¬ member.settles value context)
    (fails : member.equals value context = .error failure) : failure.isTypeMismatch := by
  simpa [settles, fails] using h

/-! ## One scan -/

theorem someEquals_cons_of_settles (h : member.settles value context) :
    someEquals value context (member :: members) = member.equals value context := by
  rw [someEquals]
  cases hmember : member.equals value context with
  | ok equal =>
    rw [settles, hmember] at h
    obtain rfl : equal = true := h
    rfl
  | error failure =>
    rw [settles, hmember] at h
    have reason : failure.isTypeMismatch = false := by simpa using h
    simp [reason]

theorem someEquals_cons_of_not_settles (h : ¬ member.settles value context) :
    someEquals value context (member :: members) = someEquals value context members := by
  rw [someEquals]
  cases hmember : member.equals value context with
  | ok equal =>
    rw [settles, hmember] at h
    obtain rfl : equal = false := Bool.eq_false_iff.mpr h
    rfl
  | error failure => simp [isTypeMismatch_of_not_settles h hmember]

/-- The first member that settles the question has the answer of the set. -/
theorem someEquals_cases (value : Value) (context : Context) (members : List (Operand V)) :
    ((∀ member ∈ members, ¬ member.settles value context) ∧
      someEquals value context members = .ok false) ∨
    ∃ front member rest, members = front ++ member :: rest ∧
      (∀ earlier ∈ front, ¬ earlier.settles value context) ∧ member.settles value context ∧
      someEquals value context members = member.equals value context := by
  induction members with
  | nil => exact .inl ⟨by simp, rfl⟩
  | cons first members ih =>
    by_cases hfirst : first.settles value context
    · exact .inr ⟨[], first, members, rfl, by simp, hfirst, someEquals_cons_of_settles hfirst⟩
    · rw [someEquals_cons_of_not_settles hfirst]
      rcases ih with ⟨hnone, hfalse⟩ | ⟨front, member, rest, rfl, hfront, hmember, hanswer⟩
      · exact .inl ⟨List.forall_mem_cons.mpr ⟨hfirst, hnone⟩, hfalse⟩
      · exact .inr ⟨first :: front, member, rest, rfl,
          List.forall_mem_cons.mpr ⟨hfirst, hfront⟩, hmember, hanswer⟩

theorem exists_settles_of_someEquals_ne (h : someEquals value context members ≠ .ok false) :
    ∃ member ∈ members, member.settles value context ∧
      someEquals value context members = member.equals value context := by
  rcases someEquals_cases value context members with
    ⟨-, hfalse⟩ | ⟨front, member, rest, rfl, -, hmember, hanswer⟩
  · exact absurd hfalse h
  · exact ⟨member, by simp, hmember, hanswer⟩

theorem someEquals_eq_ok_true {front rest : List (Operand V)}
    (h : member.equals value context = .ok true)
    (mismatch : ∀ earlier ∈ front, ∀ failure, earlier.equals value context = .error failure →
      failure.isTypeMismatch) :
    someEquals value context (front ++ member :: rest) = .ok true := by
  induction front with
  | nil => exact (someEquals_cons_of_settles (settles_of_equals h)).trans h
  | cons first front ih =>
    rw [List.forall_mem_cons] at mismatch
    rw [List.cons_append]
    by_cases hfirst : first.settles value context
    · exact (someEquals_cons_of_settles hfirst).trans (equals_of_settles hfirst mismatch.1)
    · exact (someEquals_cons_of_not_settles hfirst).trans (ih mismatch.2)

theorem someEquals_eq_ok_true_iff :
    someEquals value context members = .ok true ↔
      ∃ front member rest, members = front ++ member :: rest ∧
        member.equals value context = .ok true ∧
        ∀ earlier ∈ front, ∀ failure, earlier.equals value context = .error failure →
          failure.isTypeMismatch := by
  constructor
  · intro h
    rcases someEquals_cases value context members with
      ⟨-, hfalse⟩ | ⟨front, member, rest, hsplit, hfront, -, hanswer⟩
    · rw [hfalse] at h
      cases h
    · exact ⟨front, member, rest, hsplit, hanswer.symm.trans h, fun earlier mem _ fails =>
        isTypeMismatch_of_not_settles (hfront earlier mem) fails⟩
  · rintro ⟨front, member, rest, rfl, h, mismatch⟩
    exact someEquals_eq_ok_true h mismatch

/-! ## All orders -/

theorem exists_perm_someEquals_eq (mem : member ∈ members) (h : member.settles value context) :
    ∃ others, others.Perm members ∧
      someEquals value context others = member.equals value context := by
  obtain ⟨front, rest, rfl⟩ := List.append_of_mem mem
  exact ⟨member :: (front ++ rest), List.perm_middle.symm, someEquals_cons_of_settles h⟩

theorem someEquals_eq_of_perm {others : List (Operand V)} (perm : others.Perm members)
    (agree : ∀ a ∈ members, ∀ b ∈ members, a.settles value context → b.settles value context →
      a.equals value context = b.equals value context) :
    someEquals value context others = someEquals value context members := by
  rcases someEquals_cases value context members with
    ⟨hnone, hfalse⟩ | ⟨front, member, rest, hsplit, -, hmember, hanswer⟩
  · rw [hfalse]
    by_contra hne
    obtain ⟨other, mem, hother, -⟩ := exists_settles_of_someEquals_ne hne
    exact hnone other (perm.mem_iff.mp mem) hother
  · have mem : member ∈ members := by simp [hsplit]
    rcases someEquals_cases value context others with
      ⟨hnone, -⟩ | ⟨front', other, rest', hsplit', -, hother, hanswer'⟩
    · exact absurd hmember (hnone member (perm.mem_iff.mpr mem))
    · have mem' : other ∈ members := perm.mem_iff.mp (by simp [hsplit'])
      rw [hanswer, hanswer', agree other mem' member mem hother hmember]

/--
Membership comes out the same in every order of the members if and only if all members that settle
it agree. A value belongs to a set if and only if a member equals it, and none in front of that one
fails other than by a mismatch.
-/
theorem belongsTo_perm_iff (members : List (Operand V)) (value : Value) (context : Context) :
    ((∀ others, others.Perm members →
        (Operand.set others).answer (.belongsTo value) context =
          (Operand.set members).answer (.belongsTo value) context) ↔
      ∀ a ∈ members, ∀ b ∈ members, a.settles value context → b.settles value context →
        a.equals value context = b.equals value context) ∧
    ((Operand.set members).answer (.belongsTo value) context = .ok true ↔
      ∃ front member rest, members = front ++ member :: rest ∧
        member.equals value context = .ok true ∧
        ∀ earlier ∈ front, ∀ failure, earlier.equals value context = .error failure →
          failure.isTypeMismatch) := by
  simp only [answer_belongsTo_set]
  refine ⟨⟨fun same a ha b hb settlesA settlesB => ?_, fun agree others perm => ?_⟩,
    someEquals_eq_ok_true_iff⟩
  · obtain ⟨xs, hxs, hanswer⟩ := exists_perm_someEquals_eq ha settlesA
    obtain ⟨ys, hys, hanswer'⟩ := exists_perm_someEquals_eq hb settlesB
    rw [← hanswer, ← hanswer', same xs hxs, same ys hys]
  · exact someEquals_eq_of_perm perm agree

def absentField : Operand PathVariable := .variable { path := ["x"], kind := .number }

/-- One equals one, but a set that asks an absent field first does not get so far. -/
theorem absentField_hides_one :
    [Operand.number 1, absentField].Perm [absentField, .number 1] ∧
      (Operand.number 1 : Operand PathVariable).equals (.integer 1) .null = .ok true ∧
      (Operand.set [.number 1, absentField]).answer (.belongsTo (.integer 1)) .null = .ok true ∧
      (Operand.set [absentField, .number 1]).answer (.belongsTo (.integer 1)) .null =
        .error (.missingContextValue "x") :=
  ⟨.swap _ _ _, by decide +kernel, by decide +kernel, by decide +kernel⟩

end Comparand.Operand
