import Comparand.TokenTree
import Mathlib.Data.List.Basic

/-!
# Parentheses

Tokens are balanced if every parenthesis has its partner. A group of a token tree is what stands
between two partners, so the trees of balanced tokens have a parenthesis at either end of each group
and nowhere else. Of tokens that are cut off somewhere, some parentheses may still be open.
-/
namespace Comparand.TokenTree

/-- Tokens in which every parenthesis has its partner. -/
inductive Balanced : List String → Prop
  | nil : Balanced []
  | token {text : String} : text ≠ "(" → text ≠ ")" → Balanced [text]
  | append {xs ys : List String} : Balanced xs → Balanced ys → Balanced (xs ++ ys)
  | group {xs : List String} : Balanced xs → Balanced ("(" :: xs ++ [")"])

/-! ## Groups -/

/-- A parenthesis stands at either end of a group and nowhere else. -/
inductive Enclosed : TokenTree → Prop
  | token {text : String} : text ≠ "(" → text ≠ ")" → Enclosed (.token text)
  | group {items : List TokenTree} : (∀ item ∈ items, Enclosed item) →
      Enclosed (.group (.token "(" :: items ++ [.token ")"]))

theorem nestInto_token {text : String} (opening : text ≠ "(") (closing : text ≠ ")")
    (current : List TokenTree) (outer : List (List TokenTree)) (rest : List String) :
    nestInto current outer (text :: rest) = nestInto (.token text :: current) outer rest := by
  rw [nestInto, if_neg opening]
  cases outer with
  | nil => rfl
  | cons parent outer => exact if_neg closing

theorem nestInto_opening (current : List TokenTree) (outer : List (List TokenTree))
    (rest : List String) :
    nestInto current outer ("(" :: rest) = nestInto [.token "("] (current :: outer) rest := by
  rw [nestInto, if_pos rfl]

theorem nestInto_closing (current parent : List TokenTree) (outer : List (List TokenTree))
    (rest : List String) :
    nestInto current (parent :: outer) (")" :: rest) =
      nestInto (.group ((.token ")" :: current).reverse) :: parent) outer rest := by
  rw [nestInto, if_neg (by decide)]
  exact if_pos rfl

/-- Balanced tokens are trees of their own in the group that is open, whatever follows. -/
theorem Balanced.exists_nestInto {tokens : List String} (h : Balanced tokens) :
    ∃ trees : List TokenTree, (∀ tree ∈ trees, Enclosed tree) ∧ ∀ current outer rest,
      nestInto current outer (tokens ++ rest) = nestInto (trees.reverse ++ current) outer rest := by
  induction h with
  | nil => exact ⟨[], by simp, fun _ _ _ => rfl⟩
  | @token text opening closing =>
    refine ⟨[.token text], by simpa using Enclosed.token opening closing,
      fun current outer rest => ?_⟩
    exact nestInto_token opening closing current outer rest
  | append _ _ ihx ihy =>
    obtain ⟨trees, henclosed, hnest⟩ := ihx
    obtain ⟨trees', henclosed', hnest'⟩ := ihy
    refine ⟨trees ++ trees', fun tree mem => ?_, fun current outer rest => ?_⟩
    · exact (List.mem_append.mp mem).elim (henclosed tree) (henclosed' tree)
    · rw [List.append_assoc, hnest, hnest', List.reverse_append, List.append_assoc]
  | @group tokens _ ih =>
    obtain ⟨trees, henclosed, hnest⟩ := ih
    refine ⟨[.group (.token "(" :: trees ++ [.token ")"])], by simpa using Enclosed.group henclosed,
      fun current outer rest => ?_⟩
    rw [List.append_assoc, List.cons_append, nestInto_opening, hnest, List.singleton_append,
      nestInto_closing]
    simp

theorem Balanced.enclosed {tokens : List String} (h : Balanced tokens) :
    ∀ tree ∈ nest tokens, Enclosed tree := by
  obtain ⟨trees, henclosed, hnest⟩ := h.exists_nestInto
  have htrees : nest tokens = trees := by
    rw [nest, ← List.append_nil tokens, hnest, nestInto, closeAll]
    simp
  exact htrees ▸ henclosed

/-! ## Open parentheses -/

/--
Slices of a text in which the parentheses at the given offsets are open, the last one in front, and
all others have their partners.
-/
inductive LeavesOpen : List (String × Nat) → List Nat → Prop
  | balanced {slices : List (String × Nat)} : Balanced (slices.map Prod.fst) → LeavesOpen slices []
  | opening {before inner : List (String × Nat)} {position : Nat} {opened : List Nat} :
      LeavesOpen before opened → Balanced (inner.map Prod.fst) →
      LeavesOpen (before ++ ("(", position) :: inner) (position :: opened)

theorem LeavesOpen.append {slices behind : List (String × Nat)} {opened : List Nat}
    (h : LeavesOpen slices opened) (balanced : Balanced (behind.map Prod.fst)) :
    LeavesOpen (slices ++ behind) opened := by
  cases h with
  | balanced front => exact .balanced (by rw [List.map_append]; exact .append front balanced)
  | opening front inner =>
    rw [List.append_assoc, List.cons_append]
    exact .opening front (by rw [List.map_append]; exact .append inner balanced)

theorem LeavesOpen.open {slices : List (String × Nat)} {opened : List Nat}
    (h : LeavesOpen slices opened) (position : Nat) :
    LeavesOpen (slices ++ [("(", position)]) (position :: opened) :=
  .opening h .nil

theorem LeavesOpen.close {slices : List (String × Nat)} {innermost : Nat} {opened : List Nat}
    (h : LeavesOpen slices (innermost :: opened)) (position : Nat) :
    LeavesOpen (slices ++ [(")", position)]) opened := by
  cases h with
  | @opening before inner _ _ front hinner =>
    rw [List.append_assoc, List.cons_append]
    refine front.append ?_
    rw [List.map_cons, List.map_append]
    exact .group hinner

/-- The open groups behind a slice, if it does not close one where none is open. -/
def follow (opened : List Nat) (slice : String × Nat) : Option (List Nat) :=
  if slice.1 = "(" then some (slice.2 :: opened)
  else if slice.1 = ")" then opened.tail?
  else some opened

/-- Balanced slices close the groups that they open, and no others. -/
theorem foldlM_follow_of_balanced {slices : List (String × Nat)}
    (h : Balanced (slices.map Prod.fst)) (opened : List Nat) :
    slices.foldlM follow opened = some opened := by
  generalize htexts : slices.map Prod.fst = texts at h
  induction h generalizing slices opened with
  | nil => rw [List.map_eq_nil_iff.mp htexts]; rfl
  | token opening closing =>
    obtain ⟨slice, rfl, rfl⟩ := List.map_eq_singleton_iff.mp htexts
    simp [follow, opening, closing]
  | append _ _ ihx ihy =>
    obtain ⟨front, behind, rfl, hfront, hbehind⟩ := List.map_eq_append_iff.mp htexts
    rw [List.foldlM_append, ihx opened hfront]
    exact ihy opened hbehind
  | group _ ih =>
    obtain ⟨front, behind, rfl, hfront, hbehind⟩ := List.map_eq_append_iff.mp htexts
    obtain ⟨first, inner, rfl, hfirst, hinner⟩ := List.map_eq_cons_iff.mp hfront
    obtain ⟨last, rfl, hlast⟩ := List.map_eq_singleton_iff.mp hbehind
    have hopen : follow opened first = some (first.2 :: opened) := if_pos hfirst
    have hclose : follow (first.2 :: opened) last = some opened := by
      rw [follow, hlast, if_neg (by decide), if_pos rfl]
      rfl
    rw [List.foldlM_append, List.foldlM_cons, hopen]
    simp only [Option.bind_eq_bind, Option.bind_some]
    rw [ih _ hinner]
    simp [hclose]

theorem LeavesOpen.foldlM_follow {slices : List (String × Nat)} {opened : List Nat}
    (h : LeavesOpen slices opened) : slices.foldlM follow [] = some opened := by
  induction h with
  | balanced front => exact foldlM_follow_of_balanced front []
  | opening _ hinner ih =>
    rw [List.foldlM_append, ih, Option.bind_eq_bind, Option.bind_some, List.foldlM_cons]
    exact foldlM_follow_of_balanced hinner _

end Comparand.TokenTree
