/-!
# Scores

A score is a number between -16383 and 16383, or the mark of a candidate that does not match,
which is below every number. Totals outside the range are clamped into it.
-/

namespace Typeahead

/-- A relevancy: a number in range, or -32768 for no match. -/
structure Score where
  /-- The number. -/
  value : Int
  /-- It is in range, or marks no match. -/
  valid : value = -32768 ∨ (-16383 ≤ value ∧ value ≤ 16383)
  deriving DecidableEq

namespace Score

/-- The mark of a candidate that does not match. -/
def noMatch : Score := ⟨-32768, by decide⟩

/-- The score of every candidate under the empty query. -/
def zero : Score := ⟨0, by decide⟩

/-- The greatest score. -/
def greatest : Score := ⟨16383, by decide⟩

/-- The least score of a match. -/
def least : Score := ⟨-16383, by decide⟩

/-- The nearest score of a match to a total. -/
def clamp (total : Int) : Score :=
  ⟨max (-16383) (min total 16383), by omega⟩

/-- Whether this is the score of a match. -/
def isMatch (s : Score) : Bool := s.value != -32768

instance : LE Score := ⟨fun s t => s.value ≤ t.value⟩

instance : LT Score := ⟨fun s t => s.value < t.value⟩

instance (s t : Score) : Decidable (s ≤ t) := inferInstanceAs (Decidable (s.value ≤ t.value))

instance (s t : Score) : Decidable (s < t) := inferInstanceAs (Decidable (s.value < t.value))

/-- How a score is shown. -/
def display (s : Score) : String := if s.isMatch then toString s.value else "no-match"

@[ext] theorem ext {s t : Score} (h : s.value = t.value) : s = t := by
  cases s; cases t; simp_all

@[simp] theorem isMatch_clamp (total : Int) : (clamp total).isMatch = true := by
  simp only [isMatch, clamp, bne_iff_ne]; omega

end Score

end Typeahead
