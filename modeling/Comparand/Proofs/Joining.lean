import Comparand.Arithmetic.Substitution
import Mathlib.Data.List.Forall2

/-!
# Texts joined by single spaces

Joining loses nothing as long as it is known where the spaces are: if of two lists of texts the
second has a space at most where the first has the same text, then they are equal as soon as they
are equal joined. Writing `**` for `^` commutes with joining and changes no text without a `^`.
-/
namespace Comparand.Arithmetic

/-- A text with `**` for `^`. -/
def spelled (text : List Char) : List Char :=
  text.flatMap fun c => if c = '^' then ['*', '*'] else [c]

@[simp] theorem toList_spellPowers (text : String) :
    (spellPowers text).toList = spelled text.toList := by
  simp [spellPowers, spelled]

@[simp] theorem spelled_nil : spelled [] = [] := rfl

@[simp] theorem spelled_append (xs ys : List Char) :
    spelled (xs ++ ys) = spelled xs ++ spelled ys := by
  simp [spelled]

theorem spelled_cons (c : Char) (text : List Char) :
    spelled (c :: text) = (if c = '^' then ['*', '*'] else [c]) ++ spelled text := rfl

theorem spelled_eq_self {text : List Char} (h : '^' ∉ text) : spelled text = text := by
  induction text with
  | nil => rfl
  | cons c text ih =>
    have hc : c ≠ '^' := fun hc => h (by simp [hc])
    rw [spelled_cons, if_neg hc, ih (fun hm => h (List.mem_cons_of_mem c hm))]
    rfl

theorem star_mem_spelled {text : List Char} (h : '^' ∈ text) : '*' ∈ spelled text := by
  obtain ⟨xs, ys, rfl⟩ := List.append_of_mem h
  simp [spelled_cons]

theorem spelled_intercalate (texts : List (List Char)) :
    spelled ([' '].intercalate texts) = [' '].intercalate (texts.map spelled) := by
  induction texts with
  | nil => rfl
  | cons x xs ih =>
    cases xs with
    | nil => simp
    | cons y ys =>
      rw [List.intercalate_cons_cons, spelled_append, ih]
      simp [spelled_cons]

theorem toList_spellPowers_intercalate (texts : List String) :
    (spellPowers (" ".intercalate texts)).toList =
      [' '].intercalate (texts.map fun text => spelled text.toList) := by
  rw [toList_spellPowers, String.toList_intercalate]
  change spelled ([' '].intercalate _) = _
  rw [spelled_intercalate, List.map_map]
  rfl

theorem append_cons_cancel {α : Type} [BEq α] [LawfulBEq α] {a : α} {xs xs' ys ys' : List α}
    (h : xs ++ a :: xs' = ys ++ a :: ys') (count : xs.count a = ys.count a) :
    xs = ys ∧ xs' = ys' := by
  induction xs generalizing ys with
  | nil =>
    cases ys with
    | nil => simpa using h
    | cons y ys =>
      obtain ⟨rfl, -⟩ : a = y ∧ _ := by simpa using h
      simp at count
  | cons x xs ih =>
    cases ys with
    | nil =>
      obtain ⟨rfl, -⟩ : x = a ∧ _ := by simpa using h
      simp at count
    | cons y ys =>
      obtain ⟨rfl, tails⟩ : x = y ∧ xs ++ a :: xs' = ys ++ a :: ys' := by simpa using h
      obtain ⟨rfl, rfl⟩ := ih tails (by simpa [List.count_cons] using count)
      exact ⟨rfl, rfl⟩

/-- The second text is the first one, or has no space. -/
def Unspaced (x y : List Char) : Prop := x = y ∨ ' ' ∉ y

theorem Unspaced.count_le {x y : List Char} (h : Unspaced x y) : y.count ' ' ≤ x.count ' ' := by
  rcases h with rfl | h
  · exact Nat.le_refl _
  · simp [List.count_eq_zero_of_not_mem h]

theorem count_intercalate_le {xs ys : List (List Char)} (h : List.Forall₂ Unspaced xs ys) :
    ([' '].intercalate ys).count ' ' ≤ ([' '].intercalate xs).count ' ' := by
  induction h with
  | nil => exact Nat.le_refl _
  | @cons x y xs ys hxy hrest ih =>
    have hc := hxy.count_le
    cases hrest with
    | nil => simpa using hc
    | cons _ _ =>
      simp only [List.intercalate_cons_cons, List.count_append] at ih ⊢
      omega

/-- The spaces of the joined texts show where each text ends. -/
theorem eq_of_intercalate_eq {xs ys : List (List Char)} (h : List.Forall₂ Unspaced xs ys)
    (joined : [' '].intercalate xs = [' '].intercalate ys) : xs = ys := by
  induction h with
  | nil => rfl
  | @cons x y xs ys hxy hrest ih =>
    cases hrest with
    | nil => simpa using joined
    | @cons x' y' xs ys hxy' hrest =>
      have hle := count_intercalate_le (.cons hxy' hrest)
      have hc := hxy.count_le
      simp only [List.intercalate_cons_cons, List.append_assoc, List.singleton_append]
        at joined hle
      have hcount := congrArg (List.count ' ') joined
      simp only [List.count_append, List.count_cons_self] at hcount
      have hxy_count : x.count ' ' = y.count ' ' := by omega
      obtain ⟨rfl, htail⟩ := append_cons_cancel joined hxy_count
      rw [ih htail]

end Comparand.Arithmetic
