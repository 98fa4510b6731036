import Typeahead.Proofs.Alignment.Recurrence
import Typeahead.Proofs.Haystack

/-!
# Scores are optimal

A row holds the best totals of a needle if its value at every position is the best of the
placements that end there. The first row does (`holdsBest_fillFirst`), and a row made from one
that does so again, with a letter more (`HoldsBest.fillRow`). So the last row of a needle decides
its score: the total of the best of all its placements, clamped, or no match if it has none.

Nothing of this depends on what the buffers held that the rows are written into.
-/

namespace Typeahead.Alignment

variable {w : Weights} {text : List Char} {offset : Nat} {letters : List Letter}
  {letter : Letter} {row out spare : Array Int}

/-- A row of the haystack's length with the best totals of a needle, by the position where its
last letter is matched. -/
structure HoldsBest (w : Weights) (text : List Char) (offset : Nat) (letters : List Letter)
    (row : Array Int) : Prop where
  /-- There is a value for every cell. -/
  size_eq : row.size = (Haystack.prepare w text offset).size
  /-- It is the best of the placements that end at the cell. -/
  best : ∀ k, IsBest (endTotals w text offset letters (offset + k)) (valueAt row k)

/-- Rows of best totals hold only totals and marks. -/
theorem HoldsBest.isRow (sound : w.Sound) (h : HoldsBest w text offset letters row) :
    IsRow row := by
  intro k
  rcases lt_or_eq_of_le (h.best k).unreachable_le with hk | hk
  · exact Or.inr (floor_le_total sound ((h.best k).mem hk))
  · exact Or.inl hk.symm

theorem unreachable_lt_of_mem_endTotals (sound : w.Sound) {p : Nat} {t : Int}
    (h : t ∈ endTotals w text offset letters p) : unreachable < t := by
  have h₁ := floor_le_total sound h
  have h₂ := unreachable_lt_floor
  simp only [Weights.largest] at h₂
  omega

theorem valueAt_fillFirst (hsize : out.size = (Haystack.prepare w text offset).size) (k : Nat) :
    valueAt (fillFirst w (Haystack.prepare w text offset) letter out) k =
      firstValue w (Haystack.prepare w text offset) letter k := by
  rw [valueAt, Array.getD_eq_getD_getElem?, fillFirst, Array.getElem?_mapIdx]
  by_cases hk : k < out.size
  · rw [Array.getElem?_eq_getElem hk, Option.map_some, Option.getD_some]
  · rw [Array.getElem?_eq_none (by omega), firstValue, Array.getElem?_eq_none (by omega)]
    rfl

/-- A blank buffer has the length that is asked for, whatever it held. -/
theorem size_blank (buffer : Array Int) (count : Nat) : (blank buffer count).size = count := by
  rw [blank, Array.size_append, Array.size_replicate]
  simp

/-- The row of the first letter. -/
theorem holdsBest_fillFirst (sound : w.Sound)
    (hsize : out.size = (Haystack.prepare w text offset).size) :
    HoldsBest w text offset [letter]
      (fillFirst w (Haystack.prepare w text offset) letter out) := by
  refine ⟨by rw [fillFirst, Array.size_mapIdx, hsize], fun k => ?_⟩
  rw [valueAt_fillFirst hsize]
  refine ⟨fun t ht => unreachable_lt_of_mem_endTotals sound ht, ?_⟩
  by_cases hfit : Fits text offset letter (offset + k)
  · obtain ⟨cell, hcell, hfold⟩ := (Haystack.fits_iff_cell (w := w)).mp hfit
    have hset : endTotals w text offset [letter] (offset + k) =
        {gainAt w text letter (offset + k) - w.gapPenalty k} := by
      ext t
      rw [mem_endTotals_singleton, Nat.add_sub_cancel_left, Set.mem_singleton_iff]
      exact and_iff_right hfit
    have hval : firstValue w (Haystack.prepare w text offset) letter k =
        gainAt w text letter (offset + k) - w.gapPenalty k := by
      rw [firstValue, hcell]
      simp only
      rw [if_pos hfold, Haystack.gain_of_getElem? hcell]
    have hmem : firstValue w (Haystack.prepare w text offset) letter k ∈
        endTotals w text offset [letter] (offset + k) := by
      rw [hset, hval]
      exact Set.mem_singleton _
    refine ⟨Set.mem_insert_of_mem _ hmem, ?_⟩
    rintro t (rfl | ht)
    · exact (unreachable_lt_of_mem_endTotals sound hmem).le
    · rw [hset] at ht
      rw [hval, Set.mem_singleton_iff.mp ht]
  · have hset : endTotals w text offset [letter] (offset + k) = ∅ := by
      refine Set.eq_empty_of_forall_notMem fun t ht => ?_
      exact hfit (mem_endTotals_singleton.mp ht).1
    have hval : firstValue w (Haystack.prepare w text offset) letter k = unreachable := by
      rw [firstValue]
      split
      · next cell hcell =>
        rw [if_neg fun hfold => hfit (Haystack.fits_iff_cell.mpr ⟨cell, hcell, hfold⟩)]
      · rfl
    rw [hset, hval]
    exact IsBest.empty.greatest

/-- The best way to come to a position from the row before is the best of all ways to continue a
placement to it. -/
theorem HoldsBest.isBest_continued (sound : w.Sound) (h : HoldsBest w text offset letters row)
    (k : Nat) {v : Int} (hv : IsBest (arrivals w row k fun _ => True) v) :
    IsBest {t | ∃ p < offset + k, ∃ s ∈ endTotals w text offset letters p,
      t = s + step w (offset + k - p - 1)} v := by
  have hgap : ∀ p, offset + k - (offset + p) - 1 = k - p - 1 := fun p => by omega
  refine hv.extend ?_ ?_
  · rintro t ⟨p, hpk, -, hp, rfl⟩
    exact ⟨offset + p, by omega, valueAt row p, (h.best p).mem hp, by rw [hgap]⟩
  · rintro t ⟨p, hpk, s, hs, rfl⟩
    obtain ⟨p, rfl⟩ : ∃ p', p = offset + p' := by
      obtain ⟨front, hplaced, -⟩ := hs
      exact hplaced.fits_last.elim fun _ hfit => hfit.exists_eq_add
    rw [hgap]
    have hp : unreachable < valueAt row p := (h.best p).lt_iff.mpr ⟨s, hs⟩
    have harrives : valueAt row p + step w (k - p - 1) ∈ arrivals w row k fun _ => True :=
      ⟨p, by omega, trivial, hp, rfl⟩
    have hle : s + step w (k - p - 1) ≤ valueAt row p + step w (k - p - 1) :=
      Int.add_le_add_right ((h.best p).le hs) _
    refine ⟨?_, hle.trans (hv.le harrives)⟩
    have h₁ := floor_le_total sound hs
    have h₂ := (step_bounds sound (k - p - 1)).1
    have h₃ := unreachable_lt_floor
    simp only [Weights.largest] at h₂ h₃
    omega

/-- A row made from a row of best totals holds those of the needle with a letter more. -/
theorem HoldsBest.fillRow (sound : w.Sound) (h : HoldsBest w text offset letters row)
    (hne : letters ≠ []) (hsize : out.size = (Haystack.prepare w text offset).size) :
    HoldsBest w text offset (letters ++ [letter])
      (fillRow w (Haystack.prepare w text offset) letter row out) := by
  refine ⟨by rw [size_fillRow, hsize], fun k => ?_⟩
  rw [valueAt_fillRow hsize]
  by_cases hfit : Fits text offset letter (offset + k)
  · obtain ⟨cell, hcell, hfold⟩ := (Haystack.fits_iff_cell (w := w)).mp hfit
    rw [laterValue_of_matches sound (h.isRow sound) hcell hfold,
      Haystack.gain_of_getElem? hcell]
    have hcontinued := h.isBest_continued sound k (isBest_bestBefore sound (h.isRow sound) k)
    have hset : endTotals w text offset (letters ++ [letter]) (offset + k) =
        (· + gainAt w text letter (offset + k)) ''
          {t | ∃ p < offset + k, ∃ s ∈ endTotals w text offset letters p,
            t = s + step w (offset + k - p - 1)} := by
      ext t
      rw [mem_endTotals_concat hne]
      constructor
      · rintro ⟨-, p, hp, s, hs, rfl⟩
        exact ⟨_, ⟨p, hp, s, hs, rfl⟩, rfl⟩
      · rintro ⟨_, ⟨p, hp, s, hs, rfl⟩, rfl⟩
        exact ⟨hfit, p, hp, s, hs, rfl⟩
    rw [hset]
    refine hcontinued.translate _ fun t ht => ?_
    have hgain := (gainAt_bounds sound hfit).1
    have := hcontinued.reachable t ht
    omega
  · have hnone : endTotals w text offset (letters ++ [letter]) (offset + k) = ∅ := by
      refine Set.eq_empty_of_forall_notMem fun t ht => ?_
      exact hfit ((mem_endTotals_concat hne).mp ht).1
    rw [hnone, laterValue_of_not_matches fun cell hcell hfold =>
      hfit (Haystack.fits_iff_cell.mpr ⟨cell, hcell, hfold⟩)]
    exact IsBest.empty

/-- The rows of the later letters, written in turn into two buffers. -/
theorem HoldsBest.fillRows (sound : w.Sound) (h : HoldsBest w text offset letters row)
    (hne : letters ≠ []) (hsize : spare.size = (Haystack.prepare w text offset).size)
    (later : List Letter) :
    HoldsBest w text offset (letters ++ later)
      (fillRows w (Haystack.prepare w text offset) later row spare).1 := by
  induction later generalizing letters row spare with
  | nil => rwa [List.append_nil]
  | cons letter later ih =>
    have hnext : HoldsBest w text offset (letters ++ [letter]) _ := h.fillRow sound hne hsize
    have := ih hnext (List.append_ne_nil_of_left_ne_nil hne _) h.size_eq
    rwa [List.append_assoc, List.singleton_append] at this

/-- The row that is left of a needle whose rows are written in turn into two buffers. -/
def rowIn (w : Weights) (hay : Array Cell) (row spare : Array Int) : List Letter → Array Int
  | [] => row
  | first :: later =>
    (fillRows w hay later (fillFirst w hay first (blank row hay.size)) (blank spare hay.size)).1

/-- Whatever the buffers held, it is a row of best totals. -/
theorem holdsBest_rowIn (sound : w.Sound) (hne : letters ≠ []) (row spare : Array Int) :
    HoldsBest w text offset letters
      (rowIn w (Haystack.prepare w text offset) row spare letters) := by
  obtain ⟨first, later, rfl⟩ := List.exists_cons_of_ne_nil hne
  have hfirst : HoldsBest w text offset [first] _ :=
    holdsBest_fillFirst sound (size_blank row (Haystack.prepare w text offset).size)
  exact hfirst.fillRows sound (List.cons_ne_nil _ _) (size_blank spare _) later

/-! ### The best of a row -/

/-- The best value of a row is the greatest of its values and the mark. -/
theorem best_spec (row : Array Int) :
    best row ∈ unreachable :: row.toList ∧ ∀ v ∈ unreachable :: row.toList, v ≤ best row := by
  have h : (unreachable :: row.toList).max? = some (best row) := by
    rw [List.max?_cons', best, Array.foldl_toList]
  exact List.max?_eq_some_iff.mp h

theorem valueAt_mem (row : Array Int) (k : Nat) : valueAt row k ∈ unreachable :: row.toList := by
  rw [valueAt, Array.getD_eq_getD_getElem?]
  by_cases hk : k < row.size
  · rw [Array.getElem?_eq_getElem hk]
    exact List.mem_cons_of_mem _ (Array.getElem_mem_toList hk)
  · rw [Array.getElem?_eq_none (Nat.le_of_not_lt hk)]
    exact List.mem_cons_self

theorem valueAt_le_best (row : Array Int) (k : Nat) : valueAt row k ≤ best row :=
  (best_spec row).2 _ (valueAt_mem row k)

theorem best_eq (row : Array Int) : best row = unreachable ∨ ∃ k, best row = valueAt row k := by
  rcases List.mem_cons.mp (best_spec row).1 with h | h
  · exact Or.inl h
  · obtain ⟨k, hk, hget⟩ := List.getElem_of_mem h
    refine Or.inr ⟨k, ?_⟩
    rw [Array.length_toList] at hk
    rw [valueAt, Array.getD_eq_getD_getElem?, Array.getElem?_eq_getElem hk, Option.getD_some,
      ← hget, Array.getElem_toList]

/-- The best value of a row of best totals is the best of all placements. -/
theorem HoldsBest.isBest_best (sound : w.Sound) (h : HoldsBest w text offset letters row)
    (hne : letters ≠ []) : IsBest (totals w text offset letters) (Alignment.best row) := by
  refine ⟨fun t ht => ?_, ?_, ?_⟩
  · obtain ⟨p, hp⟩ := (mem_totals_iff hne).mp ht
    exact unreachable_lt_of_mem_endTotals sound hp
  · rcases best_eq row with hbest | ⟨k, hbest⟩
    · exact Or.inl hbest
    · rw [hbest]
      rcases (h.best k).greatest.1 with hk | hk
      · exact Or.inl hk
      · exact Or.inr ((mem_totals_iff hne).mpr ⟨_, hk⟩)
  · rintro t (rfl | ht)
    · exact (h.best 0).unreachable_le.trans (valueAt_le_best row 0)
    · obtain ⟨p, hp⟩ := (mem_totals_iff hne).mp ht
      obtain ⟨k, rfl⟩ : ∃ k, p = offset + k := by
        obtain ⟨front, hplaced, -⟩ := hp
        exact hplaced.fits_last.elim fun _ hfit => hfit.exists_eq_add
      exact ((h.best k).le hp).trans (valueAt_le_best row k)

end Typeahead.Alignment

namespace Typeahead.Scorer

open Typeahead.Alignment

theorem sound_weights (s : Scorer) : s.weights.Sound :=
  (Weights.fault?_eq_none_iff _).mp s.sound

/-- The score of a needle that occurs is decided by the best of its last row, and that stands for
the totals of its placements. -/
theorem isBest_of_occursFrom (s : Scorer) (scratch : Scratch) (first : Letter)
    (later : List Letter) (text : List Char) (offset : Nat)
    (h : Haystack.occursFrom (first :: later) text offset = true) :
    ∃ best, IsBest (totals s.weights text offset (first :: later)) best ∧
      (s.scoreLettersIn scratch (first :: later) text offset).1 =
        if unreachable < best then Score.clamp best else Score.noMatch := by
  have hlast : HoldsBest s.weights text offset (first :: later) _ :=
    holdsBest_rowIn s.sound_weights (List.cons_ne_nil _ _) scratch.row scratch.spare
  refine ⟨_, hlast.isBest_best s.sound_weights (List.cons_ne_nil _ _), ?_⟩
  rw [scoreLettersIn, if_pos h]
  simp only [Haystack.fill_eq_prepare]
  rfl

/-- What the buffers hold makes no difference to the score. -/
theorem scoreLettersIn_fst (s : Scorer) (scratch : Scratch) (letters : List Letter)
    (text : List Char) (offset : Nat) :
    (s.scoreLettersIn scratch letters text offset).1 = s.scoreLetters letters text offset := by
  cases letters with
  | nil => rfl
  | cons first later =>
    by_cases h : Haystack.occursFrom (first :: later) text offset = true
    · obtain ⟨best, hbest, hscore⟩ := s.isBest_of_occursFrom scratch first later text offset h
      obtain ⟨best', hbest', hscore'⟩ := s.isBest_of_occursFrom {} first later text offset h
      rw [scoreLetters, hscore, hscore', hbest.unique hbest']
    · rw [scoreLetters, scoreLettersIn, if_neg h, scoreLettersIn, if_neg h]

/-- The second variant is asked if the first one does not match. That it is scored in the buffers
that the first one leaves makes no difference. -/
theorem scoreEither_eq (s : Scorer) (needle : Needle) (text : String) (offset : Nat) :
    s.scoreEither needle text offset =
      if (s.scoreLetters needle.primary text.toList offset).isMatch then
        s.scoreLetters needle.primary text.toList offset
      else
        match needle.spaceless with
        | some letters => s.scoreLetters letters text.toList offset
        | none => s.scoreLetters needle.primary text.toList offset := by
  rw [scoreEither]
  have htyped := s.scoreLettersIn_fst {} needle.primary text.toList offset
  dsimp only
  generalize s.scoreLettersIn {} needle.primary text.toList offset = typed at htyped
  obtain ⟨typed, scratch⟩ := typed
  dsimp only at htyped ⊢
  rw [htyped]
  cases needle.spaceless with
  | none => rfl
  | some letters => simp only [scoreLettersIn_fst]

/-- **The score is optimal.** Whatever the buffers hold, a needle that is not empty matches a text
exactly if it has a placement there, and then its score is the greatest total of all its
placements, clamped. -/
theorem scoreLettersIn_optimal (s : Scorer) (scratch : Scratch) (letters : List Letter)
    (hne : letters ≠ []) (text : List Char) (offset : Nat) :
    ((s.scoreLettersIn scratch letters text offset).1 = Score.noMatch ↔
      ∀ ps, ¬ IsPlacement text offset letters ps) ∧
    ((∃ ps, IsPlacement text offset letters ps) →
      ∃ best, IsGreatest (totals s.weights text offset letters) best ∧
        (s.scoreLettersIn scratch letters text offset).1 = Score.clamp best) := by
  obtain ⟨first, later, rfl⟩ := List.exists_cons_of_ne_nil hne
  by_cases h : Haystack.occursFrom (first :: later) text offset = true
  · obtain ⟨best, hbest, hscore⟩ := s.isBest_of_occursFrom scratch first later text offset h
    obtain ⟨ps, hps⟩ := Haystack.occursFrom_iff.mp h
    have hreach : unreachable < best := hbest.lt_iff.mpr ⟨_, ps, hps, rfl⟩
    rw [if_pos hreach] at hscore
    refine ⟨⟨fun hno => ?_, fun hno => absurd hps (hno ps)⟩, fun _ => ?_⟩
    · have hmatch := Score.isMatch_clamp best
      rw [← hscore, hno] at hmatch
      exact absurd hmatch (by decide)
    · exact ⟨best, hbest.isGreatest hreach, hscore⟩
  · have hnone : ∀ ps, ¬ IsPlacement text offset (first :: later) ps := by
      intro ps hps
      exact h (Haystack.occursFrom_iff.mpr ⟨ps, hps⟩)
    refine ⟨⟨fun _ => hnone, fun _ => ?_⟩, fun ⟨ps, hps⟩ => absurd hps (hnone ps)⟩
    rw [scoreLettersIn, if_neg h]

/-- A text cut in front of its second character, scored in buffers that hold other things. -/
theorem scoreLettersIn_optimal_used_buffers :
    [Letter.of 'b', Letter.of 'c'] ≠ [] ∧
    ∃ best, IsGreatest (totals {} ['/', 'B', 'x', 'c'] 1 [Letter.of 'b', Letter.of 'c']) best ∧
      (standard.scoreLettersIn ⟨#[⟨'q', 'Q', 9⟩], #[7, 7, 7, 7], #[1]⟩
        [Letter.of 'b', Letter.of 'c'] ['/', 'B', 'x', 'c'] 1).1 = Score.clamp best := by
  have hne : [Letter.of 'b', Letter.of 'c'] ≠ [] := List.cons_ne_nil _ _
  refine ⟨hne, (scoreLettersIn_optimal standard _ _ hne _ _).2 ⟨[1, 3], by decide, ?_⟩⟩
  exact .cons (by unfold Fits; decide +kernel) (.cons (by unfold Fits; decide +kernel) .nil)

end Typeahead.Scorer
