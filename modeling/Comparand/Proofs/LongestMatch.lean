import Comparand.Text.Blank
import Comparand.Text.Split
import Mathlib.Data.List.Infix
import Mathlib.Data.Nat.Find

/-!
# Cutting a text by longest match

A scan goes by its lexemes. It passes over blanks, and of the lexemes that the text begins with
where it has come to, it cuts off the longest one. `Sliced` says how far a text has been cut like
this, whatever the lexemes are. All that scans have in common follows from it: nothing is lost or
comes twice, every slice stands where it is said to stand, a text is cut up to the first place that
does not go on, and slices that are joined by spaces are cut apart again.
-/
namespace Comparand.Text

/-- A text begins with a slice, which is a lexeme, and with no longer lexeme. -/
structure Longest (Lexeme : List Char → Prop) (slice rest : List Char) : Prop where
  lexeme : Lexeme slice
  length_le : ∀ longer, longer <+: slice ++ rest → Lexeme longer → longer.length ≤ slice.length

def Unmatched (Lexeme : List Char → Prop) (text : List Char) : Prop :=
  ∀ slice, slice <+: text → ¬ Lexeme slice

/-- No lexeme is empty, and none holds a blank. -/
structure Solid (Lexeme : List Char → Prop) : Prop where
  ne_nil : ∀ {slice}, Lexeme slice → slice ≠ []
  not_isBlank : ∀ {slice}, Lexeme slice → ∀ c ∈ slice, ¬ isBlank c

/--
A text that begins at a byte offset, cut by longest match up to the offset `stop`: the slices, each
with the offset where it begins, and the rest of the text, which is not cut.
-/
inductive Sliced (Lexeme : List Char → Prop) :
    (position : Nat) → (text : List Char) → (slices : List (String × Nat)) →
      (stop : Nat) → (rest : List Char) → Prop
  | done {position : Nat} {rest : List Char} : Sliced Lexeme position rest [] position rest
  | blank {c : Char} {position stop : Nat} {text rest : List Char} {slices : List (String × Nat)} :
      isBlank c → Sliced Lexeme (position + c.utf8Size) text slices stop rest →
      Sliced Lexeme position (c :: text) slices stop rest
  | slice {slice : String} {position stop : Nat} {text rest : List Char}
      {slices : List (String × Nat)} :
      Longest Lexeme slice.toList text →
      Sliced Lexeme (position + utf8Length slice.toList) text slices stop rest →
      Sliced Lexeme position (slice.toList ++ text) ((slice, position) :: slices) stop rest

variable {Lexeme : List Char → Prop}

/-! ## Longest lexemes -/

theorem exists_longest {text : List Char} (h : ¬ Unmatched Lexeme text) :
    ∃ (slice : String) (rest : List Char),
      text = slice.toList ++ rest ∧ Longest Lexeme slice.toList rest := by
  classical
  obtain ⟨found, hprefix, hfound⟩ : ∃ found, found <+: text ∧ Lexeme found := by
    simpa [Unmatched] using h
  have htake : ∀ {slice : List Char}, slice <+: text → text.take slice.length = slice :=
    fun hslice => (List.prefix_iff_eq_take.mp hslice).symm
  let P (n : Nat) : Prop := Lexeme (text.take n)
  set n := Nat.findGreatest P text.length
  have hlexeme : Lexeme (text.take n) :=
    Nat.findGreatest_spec (P := P) hprefix.length_le (by rwa [← htake hprefix] at hfound)
  refine ⟨String.ofList (text.take n), text.drop n, ?_, ?_, ?_⟩
  · rw [String.toList_ofList, List.take_append_drop]
  · rwa [String.toList_ofList]
  · intro longer hlonger hlexeme'
    rw [String.toList_ofList, List.take_append_drop] at hlonger
    have hle : longer.length ≤ n :=
      Nat.le_findGreatest (P := P) hlonger.length_le (by rwa [← htake hlonger] at hlexeme')
    rw [String.toList_ofList, List.length_take]
    exact Nat.le_min.mpr ⟨hle, hlonger.length_le⟩

theorem Longest.length_eq {slice rest : List Char} (h : Longest Lexeme slice rest) {length : Nat}
    (hlexeme : Lexeme ((slice ++ rest).take length)) (hle : length ≤ (slice ++ rest).length)
    (least : slice.length ≤ length) : length = slice.length := by
  have := h.length_le _ (List.take_prefix length (slice ++ rest)) hlexeme
  rw [List.length_take, Nat.min_eq_left hle] at this
  omega

/-- A lexeme at the head of a text does not reach into what is joined to the text by a space. -/
theorem Solid.prefix_of_append (solid : Solid Lexeme) {slice text behind : List Char}
    (hbehind : behind = [] ∨ behind.head? = some ' ') (hslice : slice <+: text ++ behind)
    (hlexeme : Lexeme slice) : slice <+: text := by
  rcases hbehind with rfl | hspace
  · rwa [List.append_nil] at hslice
  · obtain ⟨tail, rfl⟩ := List.head?_eq_some_iff.mp hspace
    apply List.prefix_of_prefix_length_le hslice (List.prefix_append text _)
    by_contra hlt
    have hspaced : text ++ [' '] <+: slice :=
      List.prefix_of_prefix_length_le (by simp) hslice (by
        rw [List.length_append, List.length_singleton]
        omega)
    exact solid.not_isBlank hlexeme ' ' (hspaced.subset (by simp)) rfl

theorem Solid.longest_of_space (solid : Solid Lexeme) {slice : List Char} (h : Lexeme slice)
    {behind : List Char} (hbehind : behind = [] ∨ behind.head? = some ' ') :
    Longest Lexeme slice behind :=
  ⟨h, fun _ hlonger hlexeme => (solid.prefix_of_append hbehind hlonger hlexeme).length_le⟩

/-! ## Slices -/

theorem Sliced.lexeme {position stop : Nat} {text rest : List Char}
    {slices : List (String × Nat)} (h : Sliced Lexeme position text slices stop rest) :
    ∀ slice ∈ slices, Lexeme slice.1.toList := by
  induction h with
  | done => simp
  | blank _ _ ih => exact ih
  | slice hlongest _ ih => exact List.forall_mem_cons.mpr ⟨hlongest.lexeme, ih⟩

theorem Sliced.exists_cut {position stop : Nat} {text rest : List Char}
    {slices : List (String × Nat)} (h : Sliced Lexeme position text slices stop rest) :
    ∃ cut, text = cut ++ rest ∧ stop = position + utf8Length cut := by
  induction h with
  | done => exact ⟨[], rfl, rfl⟩
  | @blank c _ _ _ _ _ _ _ ih =>
    obtain ⟨cut, rfl, rfl⟩ := ih
    exact ⟨c :: cut, rfl, by rw [utf8Length_cons, Nat.add_assoc]⟩
  | @slice slice _ _ _ _ _ _ _ ih =>
    obtain ⟨cut, rfl, rfl⟩ := ih
    exact ⟨slice.toList ++ cut, by rw [List.append_assoc], by rw [utf8Length_append, Nat.add_assoc]⟩

theorem Sliced.exists_append {position stop : Nat} {text rest : List Char}
    {slices : List (String × Nat)} (h : Sliced Lexeme position text slices stop rest) :
    ∀ slice ∈ slices, ∃ before behind,
      text = before ++ (slice.1.toList ++ behind) ∧ slice.2 = position + utf8Length before := by
  induction h with
  | done => simp
  | @blank c _ _ _ _ _ _ _ ih =>
    intro slice mem
    obtain ⟨before, behind, rfl, hoffset⟩ := ih slice mem
    exact ⟨c :: before, behind, rfl, by rw [hoffset, utf8Length_cons, Nat.add_assoc]⟩
  | @slice first _ _ text _ _ _ _ ih =>
    refine List.forall_mem_cons.mpr ⟨⟨[], text, rfl, rfl⟩, fun slice mem => ?_⟩
    obtain ⟨before, behind, rfl, hoffset⟩ := ih slice mem
    refine ⟨first.toList ++ before, behind, by simp, ?_⟩
    rw [hoffset, utf8Length_append, Nat.add_assoc]

theorem Sliced.pairwise_lt (solid : Solid Lexeme) {position stop : Nat} {text rest : List Char}
    {slices : List (String × Nat)} (h : Sliced Lexeme position text slices stop rest) :
    slices.Pairwise fun slice next => slice.2 < next.2 := by
  induction h with
  | done => exact .nil
  | blank _ _ ih => exact ih
  | @slice first position _ _ _ _ hlongest hrest ih =>
    refine .cons (fun next mem => ?_) ih
    obtain ⟨before, -, -, hoffset⟩ := hrest.exists_append next mem
    obtain ⟨c, cs, hcons⟩ := List.exists_cons_of_ne_nil (solid.ne_nil hlongest.lexeme)
    have hsize := c.utf8Size_pos
    rw [hoffset, hcons, utf8Length_cons]
    dsimp only
    omega

theorem Sliced.filter_eq (solid : Solid Lexeme) {position stop : Nat} {text rest : List Char}
    {slices : List (String × Nat)} (h : Sliced Lexeme position text slices stop rest) :
    text.filter (!isBlank ·) =
      slices.flatMap (fun slice => slice.1.toList) ++ rest.filter (!isBlank ·) := by
  induction h with
  | done => rfl
  | blank hc _ ih => rw [List.filter_cons_of_neg (by simp [hc]), ih]
  | slice hlongest _ ih =>
    have hall : ∀ c ∈ _, (!isBlank c) = true :=
      fun c mem => by simpa using solid.not_isBlank hlongest.lexeme c mem
    rw [List.filter_append, List.filter_eq_self.mpr hall, ih, List.flatMap_cons, List.append_assoc]

/-- Lexemes that are joined by single spaces are cut apart again. -/
theorem Solid.sliced_intercalate (solid : Solid Lexeme) {lexemes : List String}
    (h : ∀ lexeme ∈ lexemes, Lexeme lexeme.toList) (position : Nat) :
    ∃ slices stop,
      Sliced Lexeme position ([' '].intercalate (lexemes.map String.toList)) slices stop [] ∧
        slices.map Prod.fst = lexemes := by
  induction lexemes generalizing position with
  | nil => exact ⟨[], position, .done, rfl⟩
  | cons first lexemes ih =>
    obtain ⟨hfirst, hlexemes⟩ := List.forall_mem_cons.mp h
    cases lexemes with
    | nil =>
      have hcut : Sliced Lexeme position (first.toList ++ []) [(first, position)]
          (position + utf8Length first.toList) [] :=
        .slice (solid.longest_of_space hfirst (.inl rfl)) .done
      rw [List.append_nil] at hcut
      exact ⟨_, _, by simpa using hcut, rfl⟩
    | cons second lexemes =>
      obtain ⟨slices, stop, hslices, hmap⟩ :=
        ih hlexemes (position + utf8Length first.toList + ' '.utf8Size)
      refine ⟨(first, position) :: slices, stop, ?_, by rw [List.map_cons, hmap]⟩
      rw [List.map_cons, List.map_cons, List.intercalate_cons_cons, List.append_assoc]
      exact .slice (solid.longest_of_space hfirst (.inr rfl)) (.blank rfl hslices)

/-- Where a text is not cut any further, though it does not end there. -/
inductive Halts (Lexeme : List Char → Prop) (Admitted : List (String × Nat) → Prop)
    (slices : List (String × Nat)) (stop : Nat) : List Char → Prop
  /-- No lexeme begins there. -/
  | unmatched {c : Char} {behind : List Char} : ¬ isBlank c → Unmatched Lexeme (c :: behind) →
      Halts Lexeme Admitted slices stop (c :: behind)
  /-- The lexeme that begins there may not follow the slices before. -/
  | refused {slice : String} {behind : List Char} : Longest Lexeme slice.toList behind →
      ¬ Admitted (slices ++ [(slice, stop)]) →
      Halts Lexeme Admitted slices stop (slice.toList ++ behind)

/-- A text can be cut up to its end, or to the first place where it does not go on. -/
theorem Solid.exists_sliced (solid : Solid Lexeme) (Admitted : List (String × Nat) → Prop)
    (admitted : Admitted []) (text : List Char) :
    ∃ slices stop rest, Sliced Lexeme 0 text slices stop rest ∧ Admitted slices ∧
      (rest = [] ∨ Halts Lexeme Admitted slices stop rest) := by
  suffices h : ∀ n (before : List (String × Nat)) position (text : List Char), text.length = n →
      Admitted before → ∃ slices stop rest, Sliced Lexeme position text slices stop rest ∧
        Admitted (before ++ slices) ∧
        (rest = [] ∨ Halts Lexeme Admitted (before ++ slices) stop rest) from
    h text.length [] 0 text rfl admitted
  intro n
  induction n using Nat.strong_induction_on with
  | _ n ih =>
    intro before position text hn hbefore
    have hstay : Admitted (before ++ []) := by rwa [List.append_nil]
    cases text with
    | nil => exact ⟨[], position, [], .done, hstay, .inl rfl⟩
    | cons c rest =>
      by_cases hc : isBlank c
      · obtain ⟨slices, stop, remaining, hsliced, hadmitted, hend⟩ :=
          ih rest.length (by simp [← hn]) before (position + c.utf8Size) rest rfl hbefore
        exact ⟨slices, stop, remaining, .blank hc hsliced, hadmitted, hend⟩
      · by_cases unmatched : Unmatched Lexeme (c :: rest)
        · exact ⟨[], position, _, .done, hstay, .inr (.unmatched hc unmatched)⟩
        · obtain ⟨slice, behind, heq, hlongest⟩ := exists_longest unmatched
          by_cases goes_on : Admitted (before ++ [(slice, position)])
          · have hpositive := List.length_pos_iff.mpr (solid.ne_nil hlongest.lexeme)
            have hshorter : behind.length < n := by
              rw [← hn, heq, List.length_append]
              omega
            obtain ⟨slices, stop, remaining, hsliced, hadmitted, hend⟩ :=
              ih behind.length hshorter (before ++ [(slice, position)])
                (position + utf8Length slice.toList) behind rfl goes_on
            rw [List.append_assoc, List.singleton_append] at hadmitted hend
            rw [heq]
            exact ⟨(slice, position) :: slices, stop, remaining, .slice hlongest hsliced,
              hadmitted, hend⟩
          · refine ⟨[], position, _, .done, hstay, .inr ?_⟩
            rw [heq]
            refine .refused hlongest ?_
            rwa [List.append_nil]

end Comparand.Text
