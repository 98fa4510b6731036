import Typeahead.Proofs.Alignment.Prefilter

/-!
# The two variants of a needle

A query is cut before it is looked at any further, so both variants of its needle come from the
part that is kept, and that part prepared anew gives the same two variants. The variant without
blanks is a subsequence of the query as typed. So it occurs wherever the query as typed does, and
asking for one and then for the other finds exactly the texts in which the characters that are
wanted occur in order: those of the kept part without the blanks, or all of them if there is no
second variant (`twoVariants`).

The occurrence has to begin at the offset or later and to lie within the part of the text that is
looked at. A text that has the wanted characters only further on is not found
(`scoreEither_past_longest`).
-/

namespace Typeahead

/-- What occurs in a text occurs there also when some of it is left out. -/
theorem Haystack.occursFrom_of_sublist {letters letters' : List Letter} {text : List Char}
    {offset : Nat} (hsub : letters.Sublist letters')
    (h : occursFrom letters' text offset = true) : occursFrom letters text offset = true := by
  rw [occursFrom, occursIn_iff] at h ⊢
  exact (hsub.map Letter.folded).trans h

namespace Needle

/-- The part of a query that is kept. -/
def kept (query : String) : List Char := query.toList.take longest

/-- The characters that are wanted: those of the part that is kept, without the blanks if there is a
variant without them. -/
def wanted (query : String) : List Char :=
  if (prepare query).spaceless.isSome then (kept query).filter fun c => !Text.isBlank c
  else kept query

variable {query : String} {letters : List Letter}

theorem length_kept_le (query : String) : (kept query).length ≤ longest := List.length_take_le _ _

/-- A needle is made from the part that is kept. -/
theorem prepare_eq (query : String) : prepare query =
    { primary := (kept query).map Letter.of
      spaceless := spacelessOf (kept query)
      truncated := longest < query.toList.length } := by
  have hlength : longest < (query.toList.take (longest + 1)).length ↔
      longest < query.toList.length := by
    rw [List.length_take]
    omega
  simp only [prepare, ofChars, kept, hlength]

theorem primary_eq (query : String) : (prepare query).primary = (kept query).map Letter.of := rfl

theorem spaceless_eq (query : String) : (prepare query).spaceless = spacelessOf (kept query) := rfl

/-! ### Preparing the part that is kept -/

@[simp] theorem toList_query (query : String) : (prepare query).query.toList = kept query := by
  simp [Needle.query, textOf, primary_eq, Function.comp_def, Letter.of]

/-- The part that is kept is kept whole. -/
@[simp] theorem kept_query (query : String) : kept (prepare query).query = kept query := by
  rw [kept, toList_query, List.take_of_length_le (length_kept_le query)]

/-- **Preparing what is kept changes nothing**, but that nothing is cut off any more. -/
theorem prepare_query (query : String) :
    prepare (prepare query).query = { prepare query with truncated := false } := by
  have hwhole : ¬ longest < (kept query).length := Nat.not_lt.mpr (length_kept_le query)
  rw [prepare_eq, kept_query, toList_query, decide_eq_false hwhole]
  rfl

/-! ### The variant without blanks -/

/-- There is a second variant exactly if there are blanks and other characters. -/
theorem isSome_spaceless_iff (query : String) : (prepare query).spaceless.isSome = true ↔
    (∃ c ∈ kept query, Text.isBlank c = true) ∧ ∃ c ∈ kept query, Text.isBlank c = false := by
  have hsolid : (kept query).filter (fun c => !Text.isBlank c) ≠ [] ↔
      ∃ c ∈ kept query, Text.isBlank c = false := by
    simp [List.filter_eq_nil_iff]
  rw [spaceless_eq, spacelessOf]
  split_ifs with h
  · rw [List.any_eq_true, hsolid] at h
    exact iff_of_true rfl h
  · rw [List.any_eq_true, hsolid] at h
    exact iff_of_false Bool.false_ne_true h

theorem eq_of_spaceless (h : (prepare query).spaceless = some letters) :
    letters = ((kept query).filter fun c => !Text.isBlank c).map Letter.of := by
  rw [spaceless_eq, spacelessOf] at h
  split_ifs at h
  exact (Option.some.inj h).symm

theorem sublist_primary (h : (prepare query).spaceless = some letters) :
    letters.Sublist (prepare query).primary := by
  rw [eq_of_spaceless h, primary_eq]
  exact List.filter_sublist.map Letter.of

/-- The second variant occurs wherever the first one does. -/
theorem occursFrom_spaceless (h : (prepare query).spaceless = some letters) {text : List Char}
    {offset : Nat} (hfound : Haystack.occursFrom (prepare query).primary text offset = true) :
    Haystack.occursFrom letters text offset = true :=
  Haystack.occursFrom_of_sublist (sublist_primary h) hfound

/-- The letters of the second variant, or else of the first, are the characters that are wanted. -/
theorem getD_spaceless (query : String) :
    (prepare query).spaceless.getD (prepare query).primary = (wanted query).map Letter.of := by
  rw [wanted]
  cases h : (prepare query).spaceless with
  | none => simp [primary_eq]
  | some letters => simp [eq_of_spaceless h]

/-- Letters occur if their characters are a subsequence of what is in view, but for case. -/
theorem occursFrom_map_of_iff {chars text : List Char} {offset : Nat} :
    Haystack.occursFrom (chars.map Letter.of) text offset = true ↔
      (chars.map Text.foldCase).Sublist ((Haystack.visible text offset).map Text.foldCase) := by
  have hfolded : (chars.map Letter.of).map Letter.folded = chars.map Text.foldCase := by
    rw [List.map_map]
    exact List.map_congr_left fun c _ => by rw [Function.comp_apply, Letter.of]
  rw [Haystack.occursFrom, Haystack.occursIn_iff, hfolded]

/-! ### One variant, then the other -/

/-- Asking for one variant and then for the other finds what asking for the last one finds. -/
theorem isMatch_scoreEither (s : Scorer) (query text : String) (offset : Nat) :
    (s.scoreEither (prepare query) text offset).isMatch =
      Haystack.occursFrom ((prepare query).spaceless.getD (prepare query).primary) text.toList
        offset := by
  rw [s.scoreEither_eq, s.isMatch_scoreLetters]
  cases hfound : Haystack.occursFrom (prepare query).primary text.toList offset with
  | true =>
    rw [if_pos rfl, s.isMatch_scoreLetters, hfound]
    cases h : (prepare query).spaceless with
    | none => exact hfound.symm
    | some letters => exact (occursFrom_spaceless h hfound).symm
  | false =>
    rw [if_neg Bool.false_ne_true]
    cases (prepare query).spaceless with
    | none => exact s.isMatch_scoreLetters _ _ _
    | some letters => exact s.isMatch_scoreLetters _ _ _

/-- **What holds of the variants of a needle.** -/
structure TwoVariants (query : String) : Prop where
  /-- Preparing the part that is kept gives the same first variant, -/
  primary_query : (prepare (prepare query).query).primary = (prepare query).primary
  /-- and the same second one, -/
  spaceless_query : (prepare (prepare query).query).spaceless = (prepare query).spaceless
  /-- and cuts nothing off. -/
  truncated_query : (prepare (prepare query).query).truncated = false
  /-- There is a second variant exactly if the part that is kept has blanks and other characters. -/
  isSome_iff : (prepare query).spaceless.isSome = true ↔
    (∃ c ∈ kept query, Text.isBlank c = true) ∧ ∃ c ∈ kept query, Text.isBlank c = false
  /-- It occurs in every text in which the first one does, from any offset on. -/
  occursFrom_spaceless : ∀ letters, (prepare query).spaceless = some letters → ∀ text offset,
    Haystack.occursFrom (prepare query).primary text offset = true →
      Haystack.occursFrom letters text offset = true
  /-- By any weights, it has a score that is a match if the first one has. -/
  isMatch_spaceless : ∀ letters, (prepare query).spaceless = some letters →
    ∀ (s : Scorer) text offset,
      (s.scoreLetters (prepare query).primary text offset).isMatch = true →
        (s.scoreLetters letters text offset).isMatch = true
  /-- One variant or the other matches exactly if the characters that are wanted are a subsequence,
  but for case, of those characters of the text that are in view. -/
  isMatch_either : ∀ (s : Scorer) (text : String) offset,
    (s.scoreEither (prepare query) text offset).isMatch = true ↔
      ((wanted query).map Text.foldCase).Sublist
        (((text.toList.take 1024).drop offset).map Text.foldCase)

/-- **The variants of every needle fit together.** -/
theorem twoVariants (query : String) : TwoVariants query where
  primary_query := by rw [prepare_query]
  spaceless_query := by rw [prepare_query]
  truncated_query := by rw [prepare_query]
  isSome_iff := isSome_spaceless_iff query
  occursFrom_spaceless _ h _ _ hfound := occursFrom_spaceless h hfound
  isMatch_spaceless letters h s text offset hmatch := by
    rw [s.isMatch_scoreLetters] at hmatch ⊢
    exact occursFrom_spaceless h hmatch
  isMatch_either s text offset := by
    rw [isMatch_scoreEither, getD_spaceless, occursFrom_map_of_iff]
    rfl

/-- A text that has the characters that are wanted, but the last of them too late. -/
def late : List Char := '/' :: 'a' :: List.replicate 1022 'x' ++ ['b']

/-- **What comes after the first 1024 characters of a text is not found.** -/
theorem scoreEither_past_longest :
    ((wanted "a b").map Text.foldCase).Sublist
        (((String.ofList late).toList.drop 0).map Text.foldCase) ∧
      (Scorer.standard.scoreEither (prepare "a b") (String.ofList late) 0).isMatch = false := by
  have hwanted : wanted "a b" = ['a', 'b'] := by decide +kernel
  rw [isMatch_scoreEither, getD_spaceless, hwanted, String.toList_ofList]
  constructor
  · decide +kernel
  · decide +kernel

end Needle

end Typeahead
