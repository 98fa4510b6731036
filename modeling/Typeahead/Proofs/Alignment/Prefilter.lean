import Typeahead.Proofs.Alignment.Traceback

/-!
# Looking before filling

A needle is looked for in a text before any row is filled, by a scan that knows no weights. The
scan decides what the rows would show: some position of the last row is reachable exactly if the
needle occurs (`HoldsBest.occursFrom_iff`). So filling the rows without the scan would give the
same scores and the same positions, only later.
-/

namespace Typeahead.Alignment

variable {w : Weights} {text : List Char} {offset : Nat} {letters : List Letter} {row : Array Int}

theorem mem_of_lt_valueAt {k : Nat} (h : unreachable < valueAt row k) : valueAt row k ∈ row := by
  rcases List.mem_cons.mp (valueAt_mem row k) with heq | hmem
  · exact absurd heq h.ne'
  · exact Array.mem_toList_iff.mp hmem

/-- **The scan decides what the row shows**: a needle occurs in a text exactly if a position of its
row is reachable. -/
theorem HoldsBest.occursFrom_iff (h : HoldsBest w text offset letters row) (hne : letters ≠ []) :
    Haystack.occursFrom letters text offset = true ↔ ∃ v ∈ row, unreachable < v := by
  rw [Haystack.occursFrom_iff]
  constructor
  · rintro ⟨ps, hps⟩
    obtain ⟨front, p, rfl⟩ := hps.exists_last hne
    obtain ⟨k, rfl⟩ : ∃ k, p = offset + k :=
      hps.fits_last.elim fun _ hfit => hfit.exists_eq_add
    have hk : unreachable < valueAt row k := (h.best k).lt_iff.mpr ⟨_, front, hps, rfl⟩
    exact ⟨_, mem_of_lt_valueAt hk, hk⟩
  · rintro ⟨v, hmem, hv⟩
    obtain ⟨k, hk, rfl⟩ := Array.getElem_of_mem hmem
    have hvalue : valueAt row k = row[k] := by
      rw [valueAt, Array.getD_eq_getD_getElem?, Array.getElem?_eq_getElem hk, Option.getD_some]
    obtain ⟨front, hps, -⟩ := (h.best k).mem (hvalue ▸ hv)
    exact ⟨_, hps⟩

/-- Where no position is reachable, none is the best. -/
theorem earliestBest_eq_none (h : ∀ v ∈ row, ¬ unreachable < v) : earliestBest row = none := by
  cases hfound : earliestBest row with
  | none => rfl
  | some found =>
    obtain ⟨heq, hreach, -⟩ := (foundUpTo_earliestBest row).of_some found.1 found.2 hfound
    rw [heq] at hreach
    exact absurd hreach (h _ (mem_of_lt_valueAt hreach))

/-- There is nothing to trace for a needle that does not occur. -/
theorem trace_eq_none (sound : w.Sound) (hne : letters ≠ [])
    (h : ¬ Haystack.occursFrom letters text 0 = true) :
    trace w (Haystack.prepare w text 0) letters = none := by
  have hlast : HoldsBest w text 0 letters _ := holdsBest_lastRow sound hne
  have hnone := earliestBest_eq_none fun v hmem hv =>
    h ((hlast.occursFrom_iff hne).mpr ⟨v, hmem, hv⟩)
  rw [lastRow] at hnone
  simp only [trace, hnone, Option.bind_eq_bind, Option.bind_none]

end Typeahead.Alignment

namespace Typeahead.Scorer

open Typeahead.Alignment

/-! ### Without the scan -/

/-- The score of a needle's letters by its rows alone, in buffers which are given back. -/
def scoreRowsIn (s : Scorer) (scratch : Scratch) (letters : List Letter) (text : List Char)
    (offset : Nat) : Score × Scratch :=
  match letters with
  | [] => (Score.zero, scratch)
  | first :: later =>
    let { hay, row, spare } := scratch
    let hay := Haystack.fill hay s.weights text offset
    let row := fillFirst s.weights hay first (blank row hay.size)
    let (row, spare) := fillRows s.weights hay later row (blank spare hay.size)
    let best := best row
    (if unreachable < best then Score.clamp best else Score.noMatch, { hay, row, spare })

/-- The score of a needle and its positions by its rows alone. -/
def positionsByRows (s : Scorer) (needle : Needle) (text : String) : Option (Score × List Nat) :=
  if needle.primary.isEmpty then some (Score.zero, [])
  else do
    let hay := Haystack.prepare s.weights text.toList 0
    let (total, found) ← trace s.weights hay needle.primary
    return (Score.clamp total, found)

theorem scoreRowsIn_fst (s : Scorer) (scratch : Scratch) (letters : List Letter)
    (text : List Char) (offset : Nat) :
    (s.scoreRowsIn scratch letters text offset).1 =
      (s.scoreLettersIn scratch letters text offset).1 := by
  cases letters with
  | nil => rfl
  | cons first later =>
    by_cases h : Haystack.occursFrom (first :: later) text offset = true
    · rw [scoreLettersIn, if_pos h]
      rfl
    · have hne : first :: later ≠ [] := List.cons_ne_nil _ _
      have hlast : HoldsBest s.weights text offset (first :: later) _ :=
        holdsBest_rowIn s.sound_weights hne scratch.row scratch.spare
      have hnone : ¬ unreachable < best (rowIn s.weights (Haystack.prepare s.weights text offset)
          scratch.row scratch.spare (first :: later)) := by
        intro hbest
        obtain ⟨p, hp⟩ := (hlast.isBest_best s.sound_weights hne).mem hbest
        exact h (Haystack.occursFrom_iff.mpr ⟨p, hp.1⟩)
      rw [scoreLettersIn, if_neg h, scoreRowsIn]
      simp only [Haystack.fill_eq_prepare]
      exact if_neg hnone

theorem positionsByRows_eq (s : Scorer) (needle : Needle) (text : String) :
    s.positionsByRows needle text = s.positions needle text := by
  rw [positionsByRows, positions]
  by_cases hne : needle.primary = []
  · simp [hne]
  · rw [if_neg (by simpa using hne), if_neg (by simpa using hne)]
    by_cases h : Haystack.occursFrom needle.primary text.toList 0 = true
    · rw [if_pos h]
    · rw [if_neg h]
      simp only [trace_eq_none s.sound_weights hne h, Option.bind_eq_bind, Option.bind_none]

/-- Letters match exactly if they occur, also if there are none. -/
theorem isMatch_scoreLetters (s : Scorer) (letters : List Letter) (text : List Char)
    (offset : Nat) :
    (s.scoreLetters letters text offset).isMatch = Haystack.occursFrom letters text offset := by
  rw [scoreLetters]
  cases letters with
  | nil =>
    have hfound : Haystack.occursFrom [] text offset = true :=
      Haystack.occursFrom_iff.mpr ⟨[], isPlacement_nil.mpr rfl⟩
    rw [hfound]
    rfl
  | cons first later =>
    cases h : Haystack.occursFrom (first :: later) text offset with
    | true =>
      obtain ⟨best, hbest, hscore⟩ := s.isBest_of_occursFrom {} first later text offset h
      obtain ⟨ps, hps⟩ := Haystack.occursFrom_iff.mp h
      rw [hscore, if_pos (hbest.lt_iff.mpr ⟨_, ps, hps, rfl⟩), Score.isMatch_clamp]
    | false =>
      rw [scoreLettersIn, if_neg (by simp [h])]
      rfl

/-- A needle matches exactly if it occurs. -/
theorem isMatch_score (s : Scorer) (needle : Needle) (text : String) (offset : Nat) :
    (s.score needle text offset).isMatch = needle.occursIn text offset :=
  s.isMatch_scoreLetters needle.primary text.toList offset

/-- There are positions exactly if the needle occurs. -/
theorem isSome_positions (s : Scorer) (needle : Needle) (text : String) :
    (s.positions needle text).isSome = needle.occursIn text := by
  rw [positions, Needle.occursIn]
  by_cases hne : needle.primary = []
  · rw [hne, Haystack.occursFrom_iff.mpr ⟨[], isPlacement_nil.mpr rfl⟩]
    rfl
  · rw [if_neg (by simpa using hne)]
    by_cases h : Haystack.occursFrom needle.primary text.toList 0 = true
    · obtain ⟨best, ps, htrace, -⟩ :=
        trace_isWinner s.sound_weights hne (Haystack.occursFrom_iff.mp h)
      rw [if_pos h, h]
      simp only [htrace, Option.bind_eq_bind, Option.bind_some]
      rfl
    · rw [if_neg h]
      exact (Bool.eq_false_of_not_eq_true h).symm

/-- **What looking before filling amounts to**: what the rows would show, and nothing else. -/
structure Prefiltered (s : Scorer) : Prop where
  /-- The scan finds a needle exactly if the row that is left in the buffers has a position that is
  reachable, whatever the buffers held. -/
  row_iff : ∀ first later text offset row spare,
    Haystack.occursFrom (first :: later) text offset = true ↔
      ∃ v ∈ rowIn s.weights (Haystack.prepare s.weights text offset) row spare (first :: later),
        unreachable < v
  /-- It finds it exactly if the last row of the table has one. -/
  lastRow_iff : ∀ first later text,
    Haystack.occursFrom (first :: later) text 0 = true ↔
      ∃ v ∈ lastRow s.weights (Haystack.prepare s.weights text 0) (first :: later), unreachable < v
  /-- Without the scan, scores are the same. -/
  score_eq : ∀ scratch letters text offset,
    (s.scoreRowsIn scratch letters text offset).1 =
      (s.scoreLettersIn scratch letters text offset).1
  /-- Positions are the same. -/
  positions_eq : ∀ needle text, s.positionsByRows needle text = s.positions needle text
  /-- A needle matches exactly if the scan finds it, also the empty one. -/
  isMatch_eq : ∀ needle text offset,
    (s.score needle text offset).isMatch = needle.occursIn text offset
  /-- There are positions exactly if the scan finds it. -/
  isSome_eq : ∀ needle text, (s.positions needle text).isSome = needle.occursIn text

/-- **The scan and the rows agree**, by whatever weights. -/
theorem prefiltered (s : Scorer) : s.Prefiltered where
  row_iff _ _ _ _ row spare :=
    (holdsBest_rowIn s.sound_weights (List.cons_ne_nil _ _) row spare).occursFrom_iff
      (List.cons_ne_nil _ _)
  lastRow_iff _ _ _ :=
    (holdsBest_lastRow s.sound_weights (List.cons_ne_nil _ _)).occursFrom_iff
      (List.cons_ne_nil _ _)
  score_eq := s.scoreRowsIn_fst
  positions_eq := s.positionsByRows_eq
  isMatch_eq := s.isMatch_score
  isSome_eq := s.isSome_positions

end Typeahead.Scorer
