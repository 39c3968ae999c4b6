import Comparand.Proofs.Bindings

/-!
# Resolution

A token that has to be resolved has a variable, if it is written like an identifier and the
namespace knows the name that it ends in within the scopes in front; otherwise it is refused. An
expression binds the tokens that have to be resolved, each to its own variable, and the first token
that is refused is the failure. Groups have no part in it: the tokens in a row are bound, or refused,
as they are in their trees.
-/
namespace Comparand

/-- The name is the last piece of a token, and the scopes are the pieces in front of it. -/
theorem Identifier.split_eq_iff {separator token name : String} {scopes : List String} :
    Identifier.split separator token = (name, scopes) ↔
      (Text.pieces separator.toList token.toList).map String.ofList = scopes ++ [name] := by
  have some_piece : (Text.pieces separator.toList token.toList).map String.ofList ≠ [] :=
    fun none => Text.piecesFrom_ne_nil separator.toList 0 token.toList (List.map_eq_nil_iff.mp none)
  unfold Identifier.split
  generalize (Text.pieces separator.toList token.toList).map String.ofList = pieces at some_piece ⊢
  dsimp only
  rw [List.getLast?_eq_getLast_of_ne_nil some_piece, Option.getD_some, Prod.mk.injEq]
  constructor
  · rintro ⟨rfl, rfl⟩
    exact (List.dropLast_append_getLast some_piece).symm
  · rintro rfl
    simp

theorem TokenTree.flatten_map_token (tokens : List String) :
    TokenTree.flatten (tokens.map .token) = tokens := by
  induction tokens with
  | nil => rfl
  | cons token tokens ih => rw [List.map_cons, TokenTree.flatten, TokenTree.leaves, ih]; rfl

namespace Arithmetic
variable {V : Type} {ns : Namespace V} {separator : String}

def identifiers (a : Arithmetic V) : List String := a.bindings.map Prod.fst

/--
A token that has to be resolved and can be: its last piece is a name that the namespace knows in the
scopes that the pieces in front of it are.
-/
structure Resolves (ns : Namespace V) (separator token : String) (v : V) : Prop where
  isCandidate : Identifier.isCandidate separator.toList token.toList
  isWellFormed : Identifier.isWellFormed separator.toList token.toList
  exists_name : ∃ scopes name,
    (Text.pieces separator.toList token.toList).map String.ofList = scopes ++ [name] ∧
      ns name scopes = .ok v

/-- A token that has to be resolved and cannot be, with the failure that it is. -/
inductive Refuses (ns : Namespace V) (separator token : String) : Failure → Prop
  | malformed : Identifier.isCandidate separator.toList token.toList →
      ¬ Identifier.isWellFormed separator.toList token.toList →
      Refuses ns separator token (.invalidIdentifier token)
  | unresolved {scopes : List String} {name : String} {failure : Failure} :
      Identifier.isCandidate separator.toList token.toList →
      Identifier.isWellFormed separator.toList token.toList →
      (Text.pieces separator.toList token.toList).map String.ofList = scopes ++ [name] →
      ns name scopes = .error failure → Refuses ns separator token failure

/-! ## One token -/

theorem resolves_iff {token : String} {v : V} :
    Resolves ns separator token v ↔ Identifier.isCandidate separator.toList token.toList ∧
      Identifier.isWellFormed separator.toList token.toList ∧
      ns (Identifier.split separator token).1 (Identifier.split separator token).2 = .ok v := by
  constructor
  · intro h
    obtain ⟨scopes, name, hpieces, hv⟩ := h.exists_name
    rw [Identifier.split_eq_iff.mpr hpieces]
    exact ⟨h.isCandidate, h.isWellFormed, hv⟩
  · intro ⟨hc, formed, hv⟩
    exact ⟨hc, formed, _, _, Identifier.split_eq_iff.mp rfl, hv⟩

theorem refuses_iff {token : String} {failure : Failure} :
    Refuses ns separator token failure ↔ Identifier.isCandidate separator.toList token.toList ∧
      (¬ Identifier.isWellFormed separator.toList token.toList ∧
          failure = .invalidIdentifier token ∨
        Identifier.isWellFormed separator.toList token.toList ∧
          ns (Identifier.split separator token).1 (Identifier.split separator token).2 =
            .error failure) := by
  constructor
  · intro h
    cases h with
    | malformed hc malformed => exact ⟨hc, .inl ⟨malformed, rfl⟩⟩
    | unresolved hc formed hpieces hfailure =>
      rw [Identifier.split_eq_iff.mpr hpieces]
      exact ⟨hc, .inr ⟨formed, hfailure⟩⟩
  · intro ⟨hc, h⟩
    rcases h with ⟨malformed, rfl⟩ | ⟨formed, hfailure⟩
    · exact .malformed hc malformed
    · exact .unresolved hc formed (Identifier.split_eq_iff.mp rfl) hfailure

theorem Refuses.isCandidate {token : String} {failure : Failure}
    (h : Refuses ns separator token failure) :
    Identifier.isCandidate separator.toList token.toList := (refuses_iff.mp h).1

theorem Refuses.not_resolves {token : String} {failure : Failure}
    (h : Refuses ns separator token failure) (v : V) : ¬ Resolves ns separator token v := by
  intro resolves
  have hv := (resolves_iff.mp resolves).2.2
  rcases (refuses_iff.mp h).2 with ⟨malformed, -⟩ | ⟨-, hfailure⟩
  · exact malformed resolves.isWellFormed
  · rw [hfailure] at hv
    cases hv

theorem resolveToken_of_lookup {token : String} {known : List (String × V)}
    (fresh : known.lookup token = none) :
    resolveToken ns separator token known =
      if Identifier.isCandidate separator.toList token.toList then
        if Identifier.isWellFormed separator.toList token.toList then do
          let v ← ns (Identifier.split separator token).1 (Identifier.split separator token).2
          return known ++ [(token, v)]
        else .error (.invalidIdentifier token)
      else .ok known := by
  unfold resolveToken
  by_cases hc : Identifier.isCandidate separator.toList token.toList <;>
    by_cases formed : Identifier.isWellFormed separator.toList token.toList <;>
    simp [fresh, hc, formed]

/-- A token that is not bound yet fails if it is refused, and only then. -/
theorem resolveToken_eq_error_iff {token : String} {known : List (String × V)}
    {failure : Failure} :
    resolveToken ns separator token known = .error failure ↔
      known.lookup token = none ∧ Refuses ns separator token failure := by
  cases hlookup : known.lookup token with
  | some v => simp [resolveToken, hlookup]
  | none =>
    rw [resolveToken_of_lookup hlookup, refuses_iff]
    split
    · rename_i hc
      split
      · rename_i formed
        rw [bind_eq_error_iff]
        simp [hc, formed, pure, Except.pure]
      · rename_i malformed
        simp [hc, malformed, eq_comm]
    · rename_i hc
      simp [hc]

/-! ## Tokens in a row -/

theorem resolved_of_resolveTokens {tokens : List String} {bindings : List (String × V)}
    (h : resolveTokens ns separator tokens [] = .ok bindings) :
    Resolved ns separator tokens bindings := by
  have start : Resolved ns separator [] ([] : List (String × V)) := ⟨by simp, by simp⟩
  simpa using start.run h

/-- Whatever is bound is what resolves, and nothing else does. -/
theorem Resolved.lookup_eq_some_iff {tokens : List String} {bindings : List (String × V)}
    (h : Resolved ns separator tokens bindings) {token : String} {v : V} :
    bindings.lookup token = some v ↔ token ∈ tokens ∧ Resolves ns separator token v := by
  constructor
  · intro hv
    obtain ⟨mem, hc, formed, hns⟩ := h.sound token v hv
    exact ⟨mem, resolves_iff.mpr ⟨hc, formed, hns⟩⟩
  · intro ⟨mem, resolves⟩
    obtain ⟨w, hw⟩ := Option.isSome_iff_exists.mp (h.complete token mem resolves.isCandidate)
    have hns := (h.sound token w hw).2.2.2
    rw [(resolves_iff.mp resolves).2.2] at hns
    rw [hw, Except.ok.inj hns]

theorem exists_of_resolveTokens_eq_error {tokens : List String} {failure : Failure}
    (h : resolveTokens ns separator tokens [] = .error failure) :
    ∃ front token behind known, tokens = front ++ token :: behind ∧
      resolveTokens ns separator front [] = .ok known ∧
      Refuses ns separator token failure := by
  obtain ⟨front, token, behind, known, rfl, hfront, htoken⟩ := exists_of_foldlM_eq_error h
  exact ⟨front, token, behind, known, rfl, hfront, (resolveToken_eq_error_iff.mp htoken).2⟩

theorem exists_resolveTokens_iff {tokens : List String} :
    (∃ bindings, resolveTokens ns separator tokens [] = .ok bindings) ↔
      ∀ token ∈ tokens, Identifier.isCandidate separator.toList token.toList →
        ∃ v, Resolves ns separator token v := by
  constructor
  · intro ⟨bindings, hrun⟩ token mem hc
    have resolved := resolved_of_resolveTokens hrun
    obtain ⟨v, hv⟩ := Option.isSome_iff_exists.mp (resolved.complete token mem hc)
    exact ⟨v, (resolved.lookup_eq_some_iff.mp hv).2⟩
  · intro all
    cases hrun : resolveTokens ns separator tokens [] with
    | ok bindings => exact ⟨bindings, rfl⟩
    | error failure =>
      obtain ⟨front, token, behind, known, rfl, -, refuses⟩ :=
        exists_of_resolveTokens_eq_error hrun
      obtain ⟨v, hv⟩ := all token (by simp) refuses.isCandidate
      exact absurd hv (refuses.not_resolves v)

theorem resolveTokens_eq_error_iff {tokens : List String} {failure : Failure} :
    resolveTokens ns separator tokens [] = .error failure ↔
      ∃ front token behind, tokens = front ++ token :: behind ∧
        (∀ other ∈ front, Identifier.isCandidate separator.toList other.toList →
          ∃ v, Resolves ns separator other v) ∧
        Refuses ns separator token failure := by
  constructor
  · intro h
    obtain ⟨front, token, behind, known, heq, hfront, refuses⟩ :=
      exists_of_resolveTokens_eq_error h
    exact ⟨front, token, behind, heq, exists_resolveTokens_iff.mp ⟨known, hfront⟩, refuses⟩
  · intro ⟨front, token, behind, heq, all, refuses⟩
    obtain ⟨known, hfront⟩ := exists_resolveTokens_iff.mpr all
    have fresh : known.lookup token = none := by
      rw [Option.eq_none_iff_forall_ne_some]
      intro v hv
      have hresolves := (resolved_of_resolveTokens hfront).lookup_eq_some_iff.mp hv
      exact refuses.not_resolves v hresolves.2
    have hstep := resolveToken_eq_error_iff.mpr ⟨fresh, refuses⟩
    rw [heq, resolveTokens_append, hfront, ok_bind, resolveTokens, List.foldlM_cons, hstep,
      error_bind]

/-! ## Trees -/

theorem ofTokens_eq (given : separator ≠ "") (trees : List TokenTree) :
    ofTokens trees ns separator = do
      let bindings ← resolveTokens ns separator (TokenTree.flatten trees) []
      return { tokens := trees, separator, bindings } := by
  rw [ofTokens, if_neg (by simpa using given), resolveTrees_eq]

theorem ofTokens_fails_iff (given : separator ≠ "") {trees : List TokenTree}
    {failure : Failure} :
    ofTokens trees ns separator = .error failure ↔
      ∃ front token behind, TokenTree.flatten trees = front ++ token :: behind ∧
        (∀ other ∈ front, Identifier.isCandidate separator.toList other.toList →
          ∃ v, Resolves ns separator other v) ∧
        Refuses ns separator token failure := by
  rw [ofTokens_eq given, ← resolveTokens_eq_error_iff, bind_eq_error_iff]
  simp [pure, Except.pure]

variable {a : Arithmetic V} {trees : List TokenTree}

theorem mem_identifiers_iff_isSome {token : String} :
    token ∈ a.identifiers ↔ (a.bindings.lookup token).isSome := by
  rw [identifiers, List.lookup_isSome_iff]
  simp

theorem mem_identifiers_iff (built : ofTokens trees ns separator = .ok a) {token : String} :
    token ∈ a.identifiers ↔
      token ∈ a.flattened ∧ Identifier.isCandidate separator.toList token.toList := by
  obtain ⟨-, rfl, -, resolved⟩ := resolved_of_ofTokens built
  rw [mem_identifiers_iff_isSome]
  constructor
  · intro bound
    obtain ⟨v, hv⟩ := Option.isSome_iff_exists.mp bound
    have hresolves := resolved.lookup_eq_some_iff.mp hv
    exact ⟨hresolves.1, hresolves.2.isCandidate⟩
  · intro ⟨mem, hc⟩
    exact resolved.complete token mem hc

/--
The tokens in a row make the same expression as their trees, or the same failure. An expression
binds exactly the tokens that have to be resolved, each one to the variable of its name and scopes.
There is a failure if and only if some token is refused, and it is that of the first one.
-/
theorem ofTokens_resolves (trees : List TokenTree) (ns : Namespace V) (given : separator ≠ "") :
    (ofTokens ((TokenTree.flatten trees).map .token) ns separator).map
        (fun a => (a.flattened, a.bindings)) =
      (ofTokens trees ns separator).map (fun a => (a.flattened, a.bindings)) ∧
    (∀ a, ofTokens trees ns separator = .ok a →
      a.flattened = TokenTree.flatten trees ∧
      (∀ token, token ∈ a.identifiers ↔ token ∈ TokenTree.flatten trees ∧
        Identifier.isCandidate separator.toList token.toList) ∧
      ∀ token v, a.bindings.lookup token = some v ↔
        token ∈ TokenTree.flatten trees ∧ Resolves ns separator token v) ∧
    ∀ failure, ofTokens trees ns separator = .error failure ↔
      ∃ front token behind, TokenTree.flatten trees = front ++ token :: behind ∧
        (∀ other ∈ front, Identifier.isCandidate separator.toList other.toList →
          ∃ v, Resolves ns separator other v) ∧
        Refuses ns separator token failure := by
  refine ⟨?_, ?_, fun failure => ofTokens_fails_iff given⟩
  · rw [ofTokens_eq given, ofTokens_eq given, TokenTree.flatten_map_token]
    cases resolveTokens ns separator (TokenTree.flatten trees) [] with
    | error failure => rfl
    | ok bindings =>
      simp [pure, Except.pure, Except.map, flattened, TokenTree.flatten_map_token]
  · intro a built
    obtain ⟨htokens, hseparator, -, resolved⟩ := resolved_of_ofTokens built
    have hflat : a.flattened = TokenTree.flatten trees := congrArg TokenTree.flatten htokens
    rw [hseparator, hflat] at resolved
    refine ⟨hflat, fun token => ?_, fun token v => resolved.lookup_eq_some_iff⟩
    rw [mem_identifiers_iff built, hflat]

/-- The trees of `(ns:x + x) * os.system b$`. -/
def tangled : List TokenTree :=
  [.group [.token "(", .token "ns:x", .group [.token "+", .token "x"], .token ")"], .token "*",
    .token "os.system", .token "b$"]

theorem tangled_resolves :
    ":" ≠ "" ∧
      (ofTokens ((TokenTree.flatten tangled).map .token) (Namespace.paths .number) ":").map
          (fun a => (a.flattened, a.bindings)) =
        (ofTokens tangled (Namespace.paths .number) ":").map
          (fun a => (a.flattened, a.bindings)) ∧
      ofTokens tangled (Namespace.paths .number) ":" = .error (.invalidIdentifier "os.system") := by
  have given : ":" ≠ "" := by decide
  have h := ofTokens_resolves tangled (Namespace.paths .number) given
  refine ⟨given, h.1, (h.2.2 _).mpr ⟨["(", "ns:x", "+", "x", ")", "*"], "os.system", ["b$"], rfl,
    ?_, .malformed (by decide +kernel) (by decide +kernel)⟩⟩
  have symbols : ∀ token ∈ ["(", "+", ")", "*"],
      ¬ Identifier.isCandidate ":".toList token.toList := by decide +kernel
  have qualified : Resolves (Namespace.paths .number) ":" "ns:x"
      { path := ["ns", "x"], kind := .number } :=
    resolves_iff.mpr ⟨by decide +kernel, by decide +kernel, rfl⟩
  have bare : Resolves (Namespace.paths .number) ":" "x" { path := ["x"], kind := .number } :=
    resolves_iff.mpr ⟨by decide +kernel, by decide +kernel, rfl⟩
  intro other mem hc
  simp only [List.mem_cons, List.not_mem_nil, or_false] at mem
  rcases mem with rfl | rfl | rfl | rfl | rfl | rfl
  case inr.inl => exact ⟨_, qualified⟩
  case inr.inr.inr.inl => exact ⟨_, bare⟩
  all_goals exact absurd hc (symbols _ (by simp))

end Arithmetic

end Comparand
