import Comparand.Arithmetic
import Comparand.Proofs.Results

/-!
# What an expression binds

The walk over the token tree resolves the tokens from left to right and does not see the groups. At
its end every token that has to be resolved is bound, and whatever is bound is a well-formed
identifier among the tokens, with the variable that the namespace gives for its name and scopes.
-/
namespace Comparand.Arithmetic
variable {V : Type} {ns : Namespace V} {separator : String}

def resolveTokens (ns : Namespace V) (separator : String) (tokens : List String)
    (known : List (String × V)) : Except Failure (List (String × V)) :=
  tokens.foldlM (fun known text => resolveToken ns separator text known) known

theorem resolveTokens_append (xs ys : List String) (known : List (String × V)) :
    resolveTokens ns separator (xs ++ ys) known =
      resolveTokens ns separator xs known >>= resolveTokens ns separator ys := by
  rw [resolveTokens, List.foldlM_append]
  rfl

mutual

theorem resolveTree_eq (tree : TokenTree) (known : List (String × V)) :
    resolveTree ns separator tree known =
      resolveTokens ns separator tree.leaves known := by
  cases tree with
  | token text =>
    simp only [resolveTree, TokenTree.leaves, resolveTokens, List.foldlM_cons, List.foldlM_nil]
    exact (bind_pure _).symm
  | group items =>
    simp only [resolveTree, TokenTree.leaves]
    exact resolveTrees_eq items known

theorem resolveTrees_eq (trees : List TokenTree) (known : List (String × V)) :
    resolveTrees ns separator trees known =
      resolveTokens ns separator (TokenTree.flatten trees) known := by
  cases trees with
  | nil => rfl
  | cons tree trees =>
    simp only [resolveTrees, TokenTree.flatten, resolveTokens_append, resolveTree_eq tree]
    congr 1
    funext known'
    exact resolveTrees_eq trees known'

end

/-- Tokens that need not be resolved bind nothing. -/
theorem resolveTokens_of_not_isCandidate {tokens : List String}
    (free : ∀ token ∈ tokens, ¬ Identifier.isCandidate separator.toList token.toList)
    (known : List (String × V)) : resolveTokens ns separator tokens known = .ok known := by
  induction tokens with
  | nil => rfl
  | cons token tokens ih =>
    have hkeep : resolveToken ns separator token known = .ok known := by
      simp [resolveToken, free token List.mem_cons_self]
    rw [resolveTokens, List.foldlM_cons, hkeep, ok_bind]
    exact ih fun other mem => free other (List.mem_cons_of_mem token mem)

/-- The bindings that belong to a list of tokens. -/
structure Resolved (ns : Namespace V) (separator : String) (tokens : List String)
    (bindings : List (String × V)) : Prop where
  /-- What is bound is an identifier among the tokens, bound to its own variable. -/
  sound : ∀ text v, bindings.lookup text = some v →
    text ∈ tokens ∧ Identifier.isCandidate separator.toList text.toList ∧
      Identifier.isWellFormed separator.toList text.toList ∧
      ns (Identifier.split separator text).1 (Identifier.split separator text).2 = .ok v
  /-- What has to be resolved is bound. -/
  complete : ∀ text ∈ tokens, Identifier.isCandidate separator.toList text.toList →
    (bindings.lookup text).isSome

theorem resolveToken_eq_ok {text : String} {known known' : List (String × V)}
    (h : resolveToken ns separator text known = .ok known') :
    (known' = known ∧
      (Identifier.isCandidate separator.toList text.toList → (known.lookup text).isSome)) ∨
    (Identifier.isCandidate separator.toList text.toList ∧ known.lookup text = none ∧
      Identifier.isWellFormed separator.toList text.toList ∧
      ∃ v, ns (Identifier.split separator text).1 (Identifier.split separator text).2 = .ok v ∧
        known' = known ++ [(text, v)]) := by
  unfold resolveToken at h
  split at h
  · rename_i skipped
    cases h
    refine .inl ⟨rfl, fun hc => ?_⟩
    simpa [hc] using skipped
  · rename_i open'
    simp only [Bool.or_eq_true, Bool.not_eq_true', not_or, Bool.not_eq_true, Bool.not_eq_false,
      Option.isSome_eq_false_iff, Option.isNone_iff_eq_none] at open'
    split at h
    · cases h
    · rename_i formed
      obtain ⟨v, hv, hpure⟩ := bind_eq_ok_iff.mp h
      cases hpure
      exact .inr ⟨open'.1, open'.2, by simpa using formed, v, hv, rfl⟩

theorem Resolved.step {tokens : List String} {text : String} {known known' : List (String × V)}
    (h : Resolved ns separator tokens known)
    (hstep : resolveToken ns separator text known = .ok known') :
    Resolved ns separator (tokens ++ [text]) known' := by
  rcases resolveToken_eq_ok hstep with ⟨rfl, bound⟩ | ⟨hc, fresh, formed, v, hv, rfl⟩
  · constructor
    · intro t w hw
      obtain ⟨hmem, hrest⟩ := h.sound t w hw
      exact ⟨List.mem_append_left _ hmem, hrest⟩
    · intro t ht hc
      rcases List.mem_append.mp ht with ht | ht
      · exact h.complete t ht hc
      · rw [List.mem_singleton.mp ht] at hc ⊢
        exact bound hc
  · constructor
    · intro t w hw
      rw [List.lookup_append] at hw
      cases hk : known.lookup t with
      | some w' =>
        obtain rfl : w' = w := by simpa [hk] using hw
        obtain ⟨hmem, hrest⟩ := h.sound t w' hk
        exact ⟨List.mem_append_left _ hmem, hrest⟩
      | none =>
        have hw : t = text ∧ v = w := by
          rw [hk, Option.none_or, List.lookup_cons] at hw
          by_cases ht : t = text
          · simpa [ht] using hw
          · rw [beq_eq_false_iff_ne.mpr ht] at hw
            cases hw
        obtain ⟨rfl, rfl⟩ := hw
        exact ⟨by simp, hc, formed, hv⟩
    · intro t ht htc
      rw [List.lookup_append]
      rcases List.mem_append.mp ht with ht | ht
      · simp [h.complete t ht htc]
      · simp [List.mem_singleton.mp ht]

theorem Resolved.run {tokens more : List String} {known known' : List (String × V)}
    (h : Resolved ns separator tokens known)
    (hrun : resolveTokens ns separator more known = .ok known') :
    Resolved ns separator (tokens ++ more) known' := by
  induction more generalizing tokens known with
  | nil =>
    cases hrun
    simpa using h
  | cons text more ih =>
    obtain ⟨next, hstep, hrest⟩ := bind_eq_ok_iff.mp hrun
    simpa using ih (h.step hstep) hrest

/-- Every identifier is bound once: each binding is the one that is found for its identifier. -/
def BindsOnce (bindings : List (String × V)) : Prop :=
  ∀ text v, (text, v) ∈ bindings → bindings.lookup text = some v

theorem BindsOnce.step {text : String} {known known' : List (String × V)} (h : BindsOnce known)
    (hstep : resolveToken ns separator text known = .ok known') : BindsOnce known' := by
  rcases resolveToken_eq_ok hstep with ⟨rfl, -⟩ | ⟨-, fresh, -, v, -, rfl⟩
  · exact h
  · intro t w mem
    rw [List.lookup_append]
    rcases List.mem_append.mp mem with mem | mem
    · rw [h t w mem, Option.some_or]
    · cases List.mem_singleton.mp mem
      rw [fresh, Option.none_or, List.lookup_cons_self]

theorem BindsOnce.run {tokens : List String} {known known' : List (String × V)}
    (h : BindsOnce known) (hrun : resolveTokens ns separator tokens known = .ok known') :
    BindsOnce known' := by
  induction tokens generalizing known with
  | nil =>
    cases hrun
    exact h
  | cons text tokens ih =>
    obtain ⟨next, hstep, hrest⟩ := bind_eq_ok_iff.mp hrun
    exact ih (h.step hstep) hrest

theorem bindsOnce_of_ofTokens {trees : List TokenTree} {a : Arithmetic V}
    (built : ofTokens trees ns separator = .ok a) : BindsOnce a.bindings := by
  unfold ofTokens at built
  split at built
  · cases built
  · obtain ⟨bindings, hrun, hpure⟩ := bind_eq_ok_iff.mp built
    cases hpure
    rw [resolveTrees_eq] at hrun
    exact BindsOnce.run (by simp [BindsOnce]) hrun

/-- An expression that could be built has the bindings of its tokens. -/
theorem resolved_of_ofTokens {trees : List TokenTree} {a : Arithmetic V}
    (built : ofTokens trees ns separator = .ok a) :
    a.tokens = trees ∧ a.separator = separator ∧ separator ≠ "" ∧
      Resolved ns a.separator a.flattened a.bindings := by
  unfold ofTokens at built
  split at built
  · cases built
  · rename_i given
    obtain ⟨bindings, hrun, hpure⟩ := bind_eq_ok_iff.mp built
    cases hpure
    refine ⟨rfl, rfl, by simpa using given, ?_⟩
    rw [resolveTrees_eq] at hrun
    have start : Resolved ns separator [] ([] : List (String × V)) :=
      ⟨by simp, by simp⟩
    simpa [flattened] using start.run hrun

end Comparand.Arithmetic
