import Typeahead.Proofs.Alignment.Guarded

/-!
# The plain recurrence

A row can be filled without a window and without a running maximum: at every position, go through
all reachable predecessors, however far back, and take the best way to come there. This takes time
that grows with the square of the row and leaves nothing to be argued about. It is what the rows
are meant to be.

Both ways give the same row (`Scorer.fillRow_eq_plainRow`), from any row before it whose values are
marks or in the range of totals, whether a scorer would produce it or not, and whatever the buffer
held. A position's plain value stands for the same set of totals as its windowed one, and a set has
one best total at most. The numbers that are worked out on the way have 32 bits.
-/

namespace Typeahead.Alignment

/-- The totals with which position `k` is come to, one for every reachable predecessor. -/
def plainArrivals (w : Weights) (row : Array Int) (k : Nat) : List Int :=
  ((List.range k).filter fun p => unreachable < valueAt row p).map fun p =>
    valueAt row p + step w (k - p - 1)

/-- The value of a position in the row of a later letter. -/
def plainValue (w : Weights) (letter : Letter) (row : Array Int) (k : Nat) (cell : Cell) : Int :=
  if k = 0 ∨ letter.folded ≠ cell.folded then unreachable
  else
    match (plainArrivals w row k).max? with
    | none => unreachable
    | some best => gain w letter cell + best

/-- The row of a later letter, from the row of the letter before it. -/
def plainRow (w : Weights) (hay : Array Cell) (letter : Letter) (row : Array Int) : Array Int :=
  hay.mapIdx (plainValue w letter row)

/-- The numbers that are worked out while a row is made from another one. -/
inductive WorkedOut (w : Weights) (hay : Array Cell) (letter : Letter) (row : Array Int) :
    Int → Prop where
  /-- What a step earns or costs. -/
  | step (gap : Nat) : WorkedOut w hay letter row (step w gap)
  /-- A total with the step from a reachable predecessor. -/
  | near {p : Nat} (gap : Nat) (reached : unreachable < valueAt row p) :
    WorkedOut w hay letter row (valueAt row p + Alignment.step w gap)
  /-- The total of a far predecessor less the penalty. -/
  | far {p : Nat} (reached : unreachable < valueAt row p) :
    WorkedOut w hay letter row (valueAt row p - w.gapLarge)
  /-- What a match is worth without regard to case. -/
  | worth {cell : Cell} (seen : cell ∈ hay) : WorkedOut w hay letter row (w.base + cell.bonus)
  /-- What a match gains. -/
  | gain {cell : Cell} (seen : cell ∈ hay) : WorkedOut w hay letter row (gain w letter cell)
  /-- A value of the new row. -/
  | value {v : Int} (written : v ∈ plainRow w hay letter row) : WorkedOut w hay letter row v

variable {w : Weights} {hay : Array Cell} {letter : Letter} {cell : Cell} {row out : Array Int}
  {k : Nat}

theorem mem_plainArrivals {t : Int} :
    t ∈ plainArrivals w row k ↔ t ∈ arrivals w row k fun _ => True := by
  simp only [plainArrivals, arrivals, List.mem_map, List.mem_filter, List.mem_range,
    decide_eq_true_eq, Set.mem_ofPred_eq, true_and, and_assoc]
  constructor
  · rintro ⟨p, hpk, hreach, rfl⟩
    exact ⟨p, hpk, hreach, rfl⟩
  · rintro ⟨p, hpk, hreach, rfl⟩
    exact ⟨p, hpk, hreach, rfl⟩

/-- The greatest number of a list stands for the numbers of the list. -/
theorem isBest_max? {l : List Int} (h : ∀ t ∈ l, unreachable < t) :
    IsBest {t | t ∈ l} (l.max?.getD unreachable) := by
  cases hmax : l.max? with
  | none =>
    have hempty : l = [] := List.max?_eq_none_iff.mp hmax
    subst hempty
    simpa using IsBest.empty
  | some best =>
    obtain ⟨hmem, hle⟩ := List.max?_eq_some_iff.mp hmax
    refine ⟨h, Set.mem_insert_of_mem _ hmem, ?_⟩
    rintro t (rfl | ht)
    · exact (h best hmem).le
    · exact hle t ht

/-- The window and the running maximum find what going through all predecessors finds. -/
theorem bestBefore_eq_max? (sound : w.Sound) (hrow : IsRow row) (k : Nat) :
    bestBefore w row (farBefore w row (k + 1)) k =
      (plainArrivals w row k).max?.getD unreachable := by
  have hwindowed := isBest_bestBefore sound hrow k
  have hplain : IsBest {t | t ∈ plainArrivals w row k} _ :=
    isBest_max? fun t ht => hwindowed.reachable t (mem_plainArrivals.mp ht)
  exact hwindowed.unique (hplain.congr (Set.ext fun t => mem_plainArrivals))

/-- **At every position the windowed value is the plain one.** -/
theorem laterValue_eq_plainValue (sound : w.Sound) (hrow : IsRow row)
    (hcell : hay[k]? = some cell) :
    laterValue w hay letter row (farBefore w row (k + 1)) k = plainValue w letter row k cell := by
  simp only [laterValue, hcell, plainValue]
  by_cases hskip : k = 0 ∨ letter.folded ≠ cell.folded
  · rw [if_pos hskip, if_pos hskip]
  · rw [if_neg hskip, if_neg hskip]
    have hbest := isBest_bestBefore sound hrow k
    rw [bestBefore_eq_max? sound hrow] at hbest ⊢
    cases hmax : (plainArrivals w row k).max? with
    | none => simp
    | some best =>
      have hreach : unreachable < best :=
        hbest.reachable best (mem_plainArrivals.mp (List.max?_eq_some_iff.mp hmax).1)
      simp [hreach, Int.add_comm]

/-- Values in the range of totals are far enough from the mark. -/
theorem isRow_of_range (h : ∀ v ∈ row, v = unreachable ∨ -2 ^ 23 ≤ v ∧ v ≤ 2 ^ 25) :
    IsRow row := by
  intro k
  rcases List.mem_cons.mp (valueAt_mem row k) with heq | hmem
  · exact .inl heq
  · have hfloor : floor ≤ -2 ^ 23 := by decide
    rcases h _ (Array.mem_toList_iff.mp hmem) with heq | ⟨hlow, -⟩
    · exact .inl heq
    · exact .inr (hfloor.trans hlow)

theorem range_of_reachable (h : ∀ v ∈ row, v = unreachable ∨ -2 ^ 23 ≤ v ∧ v ≤ 2 ^ 25)
    (hk : unreachable < valueAt row k) : -2 ^ 23 ≤ valueAt row k ∧ valueAt row k ≤ 2 ^ 25 := by
  rcases List.mem_cons.mp (valueAt_mem row k) with heq | hmem
  · exact absurd heq hk.ne'
  · exact (h _ (Array.mem_toList_iff.mp hmem)).resolve_left hk.ne'

/-- The greatest number that is worked out is the value of a cell. -/
theorem WorkedOut.bounds (sound : w.Sound)
    (hworthy : ∀ cell ∈ hay, 0 ≤ cell.bonus ∧ cell.bonus ≤ Weights.largest)
    (hrow : ∀ v ∈ row, v = unreachable ∨ -2 ^ 23 ≤ v ∧ v ≤ 2 ^ 25) {v : Int}
    (h : WorkedOut w hay letter row v) : -2 ^ 31 ≤ v ∧ v < 2 ^ 31 := by
  have hlargest : Weights.largest = 2 ^ 14 := rfl
  have hgap := step_bounds sound
  cases h with
  | step gap =>
    have := hgap gap
    omega
  | near gap reached =>
    have hvalue := range_of_reachable hrow reached
    have := hgap gap
    omega
  | far reached =>
    have hvalue := range_of_reachable hrow reached
    have hlow := sound.gapLarge_le
    have hhigh := sound.gapPenalty_nonneg (w.mediumLimit + 1)
    rw [sound.gapPenalty_of_lt (Nat.lt_succ_self _)] at hhigh
    omega
  | worth seen =>
    have hbonus := hworthy _ seen
    have hpos := sound.base_pos
    have hle := sound.base_le
    omega
  | gain seen =>
    have hgain := Guarded.gain_bounds sound letter (hworthy _ seen)
    omega
  | value written =>
    obtain ⟨k, hk, rfl⟩ := Array.getElem_of_mem written
    have hseen : k < hay.size := by simpa [plainRow] using hk
    have hgain := Guarded.gain_bounds sound letter (hworthy _ (Array.getElem_mem hseen))
    simp only [plainRow, Array.getElem_mapIdx, plainValue]
    split_ifs
    · decide
    · split
      · decide
      · next best hmax =>
        obtain ⟨p, -, -, hreach, rfl⟩ :=
          mem_plainArrivals.mp (List.max?_eq_some_iff.mp hmax).1
        have hvalue := range_of_reachable hrow hreach
        have hstep := hgap (k - p - 1)
        omega

end Typeahead.Alignment

namespace Typeahead.Scorer

open Typeahead.Alignment

/-- **The windowed row is the plain row.** By whatever weights are accepted, for every haystack and
every letter, from every row whose values are marks or lie between -2^23 and 2^25, and whatever the
buffer of the haystack's length held: the row that is written is the one that going through all
reachable predecessors gives. Every number that is worked out has 32 bits. -/
theorem fillRow_eq_plainRow (s : Scorer) (text : List Char) (offset : Nat) (letter : Letter)
    {row out : Array Int} (hout : out.size = (Haystack.prepare s.weights text offset).size)
    (hrow : ∀ v ∈ row, v = unreachable ∨ -2 ^ 23 ≤ v ∧ v ≤ 2 ^ 25) :
    fillRow s.weights (Haystack.prepare s.weights text offset) letter row out =
      plainRow s.weights (Haystack.prepare s.weights text offset) letter row ∧
    ∀ v, WorkedOut s.weights (Haystack.prepare s.weights text offset) letter row v →
      -2 ^ 31 ≤ v ∧ v < 2 ^ 31 := by
  have hisRow := isRow_of_range hrow
  constructor
  · refine Array.ext_getElem? fun k => ?_
    rw [plainRow, Array.getElem?_mapIdx]
    by_cases hk : k < out.size
    · have hcell : (Haystack.prepare s.weights text offset)[k]? = some _ :=
        Array.getElem?_eq_getElem (hout ▸ hk)
      rw [getElem?_fillRow k hk, laterValue_eq_plainValue s.sound_weights hisRow hcell, hcell,
        Option.map_some]
    · rw [Array.getElem?_eq_none (by rw [size_fillRow]; omega),
        Array.getElem?_eq_none (by omega), Option.map_none]
  · intro v hv
    refine hv.bounds s.sound_weights (fun cell hmem => ?_) hrow
    obtain ⟨k, hk, rfl⟩ := Array.getElem_of_mem hmem
    exact Guarded.worthy_prepare s.sound_weights text offset k _ (Array.getElem?_eq_getElem hk)

/-- A row that no scorer makes, with the least and the greatest value that is admitted. The last
position is come to from the greatest one, which has left the window just before. -/
theorem fillRow_eq_plainRow_far :
    let hay := Haystack.prepare standard.weights "/aBaaaaaaaaaab".toList 0
    let row := #[-2 ^ 23, 2 ^ 25] ++ Array.replicate 12 unreachable
    let out := Array.replicate 14 7
    (out.size = hay.size ∧ ∀ v ∈ row, v = unreachable ∨ -2 ^ 23 ≤ v ∧ v ≤ 2 ^ 25) ∧
      (fillRow standard.weights hay (Letter.of 'b') row out =
          plainRow standard.weights hay (Letter.of 'b') row ∧
        ∀ v, WorkedOut standard.weights hay (Letter.of 'b') row v → -2 ^ 31 ≤ v ∧ v < 2 ^ 31) ∧
      (fillRow standard.weights hay (Letter.of 'b') row out)[13]? = some (2 ^ 25 + 1) := by
  have hout : (Array.replicate 14 (7 : Int)).size =
      (Haystack.prepare standard.weights "/aBaaaaaaaaaab".toList 0).size := by decide +kernel
  have hrow : ∀ v ∈ #[-2 ^ 23, 2 ^ 25] ++ Array.replicate 12 unreachable,
      v = unreachable ∨ -2 ^ 23 ≤ v ∧ v ≤ 2 ^ 25 := by decide +kernel
  exact ⟨⟨hout, hrow⟩, fillRow_eq_plainRow standard _ 0 (Letter.of 'b') hout hrow,
    by decide +kernel⟩

end Typeahead.Scorer
