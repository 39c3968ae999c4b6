import Mathlib.Data.List.Forall2

/-!
# Results of steps that can fail

The equations by which a chain of steps is taken apart: it succeeds if each step does, and the first
failure is the failure of the whole.
-/
namespace Comparand
variable {ε α β : Type}

@[simp] theorem ok_bind (a : α) (f : α → Except ε β) : (Except.ok a >>= f) = f a := rfl

@[simp] theorem error_bind (failure : ε) (f : α → Except ε β) :
    ((Except.error failure : Except ε α) >>= f) = .error failure := rfl

theorem bind_eq_ok_iff {x : Except ε α} {f : α → Except ε β} {b : β} :
    x >>= f = .ok b ↔ ∃ a, x = .ok a ∧ f a = .ok b := by
  cases x <;> simp

theorem bind_eq_error_iff {x : Except ε α} {f : α → Except ε β} {failure : ε} :
    x >>= f = .error failure ↔ x = .error failure ∨ ∃ a, x = .ok a ∧ f a = .error failure := by
  cases x <;> simp

theorem mapError_eq_ok_iff {ε' : Type} {x : Except ε α} {f : ε → ε'} {a : α} :
    x.mapError f = .ok a ↔ x = .ok a := by
  cases x <;> simp [Except.mapError]

theorem mapM_cons_eq_ok_iff {f : α → Except ε β} {x : α} {xs : List α} {ys : List β} :
    (x :: xs).mapM f = .ok ys ↔ ∃ y ys', f x = .ok y ∧ xs.mapM f = .ok ys' ∧ ys = y :: ys' := by
  rw [List.mapM_cons, bind_eq_ok_iff]
  constructor
  · rintro ⟨y, hy, h⟩
    obtain ⟨ys', hys, hpure⟩ := bind_eq_ok_iff.mp h
    cases hpure
    exact ⟨y, ys', hy, hys, rfl⟩
  · rintro ⟨y, ys', hy, hys, rfl⟩
    exact ⟨y, hy, bind_eq_ok_iff.mpr ⟨ys', hys, rfl⟩⟩

theorem mapM_eq_ok_iff {f : α → Except ε β} {xs : List α} {ys : List β} :
    xs.mapM f = .ok ys ↔ List.Forall₂ (fun x y => f x = .ok y) xs ys := by
  induction xs generalizing ys with
  | nil =>
    simp only [List.mapM_nil, List.forall₂_nil_left_iff]
    exact ⟨fun h => (Except.ok.inj h).symm, fun h => h ▸ rfl⟩
  | cons x xs ih =>
    simp only [mapM_cons_eq_ok_iff, List.forall₂_cons_left_iff, ih]

theorem exists_of_mapM_eq_ok {f : α → Except ε β} {xs : List α} {ys : List β}
    (h : xs.mapM f = .ok ys) {x : α} (mem : x ∈ xs) : ∃ y ∈ ys, f x = .ok y := by
  induction xs generalizing ys with
  | nil => cases mem
  | cons x' xs ih =>
    obtain ⟨y, ys', hy, hys, rfl⟩ := mapM_cons_eq_ok_iff.mp h
    rcases List.mem_cons.mp mem with rfl | mem
    · exact ⟨y, by simp, hy⟩
    · obtain ⟨z, hz, hfz⟩ := ih hys mem
      exact ⟨z, List.mem_cons_of_mem y hz, hfz⟩

theorem exists_of_mem_mapM {f : α → Except ε β} {xs : List α} {ys : List β}
    (h : xs.mapM f = .ok ys) {y : β} (mem : y ∈ ys) : ∃ x ∈ xs, f x = .ok y := by
  induction xs generalizing ys with
  | nil =>
    cases h
    cases mem
  | cons x xs ih =>
    obtain ⟨y', ys', hy, hys, rfl⟩ := mapM_cons_eq_ok_iff.mp h
    rcases List.mem_cons.mp mem with rfl | mem
    · exact ⟨x, by simp, hy⟩
    · obtain ⟨z, hz, hfz⟩ := ih hys mem
      exact ⟨z, List.mem_cons_of_mem x hz, hfz⟩

theorem exists_mapM_eq_error_iff {f : α → Except ε β} {xs : List α} :
    (∃ failure, xs.mapM f = .error failure) ↔ ∃ x ∈ xs, ∃ failure, f x = .error failure := by
  induction xs with
  | nil => simp [pure, Except.pure]
  | cons x xs ih =>
    rw [List.mapM_cons]
    cases hx : f x with
    | error failure => exact ⟨fun _ => ⟨x, by simp, failure, hx⟩, fun _ => ⟨failure, rfl⟩⟩
    | ok y =>
      simp only [List.exists_mem_cons_iff, hx, reduceCtorEq, exists_false, false_or, ← ih]
      cases xs.mapM f <;> simp [pure, Except.pure]

theorem mapM_eq_ok_map {f : α → Except ε β} {g : α → β} {xs : List α}
    (h : ∀ x ∈ xs, f x = .ok (g x)) : xs.mapM f = .ok (xs.map g) := by
  rw [mapM_eq_ok_iff, List.forall₂_map_right_iff, List.forall₂_same]
  exact h

/-- The failure that an outcome is, if it is one. -/
def failure? : Except ε α → Option ε
  | .ok _ => none
  | .error failure => some failure

theorem failure?_eq_some_iff {x : Except ε α} {failure : ε} :
    failure? x = some failure ↔ x = .error failure := by
  cases x <;> simp [failure?]

theorem failure?_eq_none_iff {x : Except ε α} : failure? x = none ↔ ∃ a, x = .ok a := by
  cases x <;> simp [failure?]

/-- A row of steps fails with the first failure among them. -/
theorem failure?_mapM (f : α → Except ε β) (xs : List α) :
    failure? (xs.mapM f) = xs.findSome? fun x => failure? (f x) := by
  induction xs with
  | nil => rfl
  | cons x xs ih =>
    rw [List.mapM_cons, List.findSome?_cons, ← ih]
    cases f x with
    | error failure => rfl
    | ok y => cases xs.mapM f <;> rfl

/-- Two outcomes that concur: related results, or a failure on both sides. -/
inductive Concur (related : α → β → Prop) : Except ε α → Except ε β → Prop
  | ok {a : α} {b : β} : related a b → Concur related (.ok a) (.ok b)
  | error {failure failure' : ε} : Concur related (.error failure) (.error failure')

theorem Concur.refl {related : α → α → Prop} (reflexive : ∀ a, related a a) (x : Except ε α) :
    Concur related x x := by
  cases x with
  | ok a => exact .ok (reflexive a)
  | error failure => exact .error

theorem Concur.bind {γ δ : Type} {related : α → β → Prop} {related' : γ → δ → Prop}
    {x : Except ε α} {y : Except ε β} {f : α → Except ε γ} {g : β → Except ε δ}
    (h : Concur related x y) (step : ∀ a b, related a b → Concur related' (f a) (g b)) :
    Concur related' (x >>= f) (y >>= g) := by
  cases h with
  | ok hab => exact step _ _ hab
  | error => exact .error

theorem Concur.error_iff {related : α → β → Prop} {x : Except ε α} {y : Except ε β}
    (h : Concur related x y) :
    (∃ failure, x = .error failure) ↔ ∃ failure, y = .error failure := by
  cases h <;> simp

/--
Two rows of steps concur if each step of either row concurs with one of the other, in whatever order
they stand. Every result on either side is then related to one on the other.
-/
theorem Concur.mapM {γ δ : Type} {related : β → δ → Prop} {f : α → Except ε β}
    {g : γ → Except ε δ} {xs : List α} {ys : List γ}
    (left : ∀ x ∈ xs, ∃ y ∈ ys, Concur related (f x) (g y))
    (right : ∀ y ∈ ys, ∃ x ∈ xs, Concur related (f x) (g y)) :
    Concur (fun bs ds => (∀ b ∈ bs, ∃ d ∈ ds, related b d) ∧ ∀ d ∈ ds, ∃ b ∈ bs, related b d)
      (xs.mapM f) (ys.mapM g) := by
  have failing : (∃ failure, xs.mapM f = .error failure) ↔
      ∃ failure, ys.mapM g = .error failure := by
    rw [exists_mapM_eq_error_iff, exists_mapM_eq_error_iff]
    constructor
    · rintro ⟨x, mem, hx⟩
      obtain ⟨y, mem', hxy⟩ := left x mem
      exact ⟨y, mem', hxy.error_iff.mp hx⟩
    · rintro ⟨y, mem, hy⟩
      obtain ⟨x, mem', hxy⟩ := right y mem
      exact ⟨x, mem', hxy.error_iff.mpr hy⟩
  cases hbs : xs.mapM f with
  | error failure =>
    obtain ⟨failure', hds⟩ := failing.mp ⟨failure, hbs⟩
    rw [hds]
    exact .error
  | ok bs =>
    cases hds : ys.mapM g with
    | error failure =>
      obtain ⟨failure', hbs'⟩ := failing.mpr ⟨failure, hds⟩
      cases hbs.symm.trans hbs'
    | ok ds =>
      refine .ok ⟨fun b hb => ?_, fun d hd => ?_⟩
      · obtain ⟨x, mem, hx⟩ := exists_of_mem_mapM hbs hb
        obtain ⟨y, mem', hxy⟩ := left x mem
        obtain ⟨d, hd, hy⟩ := exists_of_mapM_eq_ok hds mem'
        rw [hx, hy] at hxy
        cases hxy with
        | ok hbd => exact ⟨d, hd, hbd⟩
      · obtain ⟨y, mem, hy⟩ := exists_of_mem_mapM hds hd
        obtain ⟨x, mem', hxy⟩ := right y mem
        obtain ⟨b, hb, hx⟩ := exists_of_mapM_eq_ok hbs mem'
        rw [hx, hy] at hxy
        cases hxy with
        | ok hbd => exact ⟨b, hb, hbd⟩

/-- Steps in a row fail at one of them, and those before it succeed. -/
theorem exists_of_foldlM_eq_error {f : β → α → Except ε β} {xs : List α} {b : β} {failure : ε}
    (h : xs.foldlM f b = .error failure) :
    ∃ ys x zs c, xs = ys ++ x :: zs ∧ ys.foldlM f b = .ok c ∧ f c x = .error failure := by
  induction xs generalizing b with
  | nil => cases h
  | cons x xs ih =>
    rw [List.foldlM_cons] at h
    cases hx : f b x with
    | error failure' =>
      rw [hx, error_bind] at h
      cases h
      exact ⟨[], x, xs, b, rfl, rfl, hx⟩
    | ok c =>
      rw [hx, ok_bind] at h
      obtain ⟨ys, y, zs, d, rfl, hys, hy⟩ := ih h
      refine ⟨x :: ys, y, zs, d, rfl, ?_, hy⟩
      rw [List.foldlM_cons, hx, ok_bind, hys]

end Comparand
