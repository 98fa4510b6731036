import Typeahead.Fault

/-!
# Weights

What an alignment of a query with a text is worth: a base for every character that matches,
bonuses for matches that follow one another, begin a part of the text, or agree in case, and
penalties for the characters skipped in between. A gap's penalty depends on its length by three
tiers; the limits are the longest gaps of the two lower tiers.

Any numbers can be written down as weights; `Weights.check` says which ones keep the promises
that scoring relies on.
-/

namespace Typeahead

/-- Bonuses, penalties and the limits of the gap tiers. -/
structure Weights where
  /-- Awarded for every character that matches. -/
  base : Int := 16
  /-- Awarded for a match right after the match before it. -/
  consecutive : Int := 24
  /-- Awarded right after a path separator. -/
  pathBoundary : Int := 40
  /-- Awarded right after a word separator. -/
  wordBoundary : Int := 32
  /-- Awarded where case rises or a number follows a letter. -/
  camelBoundary : Int := 28
  /-- Awarded on the first character of the text. -/
  start : Int := 48
  /-- Awarded when case agrees as well. -/
  exactCase : Int := 1
  /-- The penalty of a gap of the lowest tier. -/
  gapSmall : Int := 3
  /-- The penalty of a gap of the middle tier. -/
  gapMedium : Int := 8
  /-- The penalty of any longer gap. -/
  gapLarge : Int := 16
  /-- The longest gap of the lowest tier. -/
  smallLimit : Nat := 3
  /-- The longest gap of the middle tier. -/
  mediumLimit : Nat := 10
  deriving DecidableEq

namespace Weights

/-- The largest value a weight may have. -/
def largest : Int := 16384

/-- The longest gap that may still belong to the middle tier. -/
def largestLimit : Nat := 64

/-- The penalty for skipping `gap` characters. -/
def gapPenalty (w : Weights) (gap : Nat) : Int :=
  if gap = 0 then 0
  else if gap ≤ w.smallLimit then w.gapSmall
  else if gap ≤ w.mediumLimit then w.gapMedium
  else w.gapLarge

/-- The bonuses, which may not be negative. -/
def bonuses (w : Weights) : List Int :=
  [w.consecutive, w.pathBoundary, w.wordBoundary, w.camelBoundary, w.start, w.exactCase]

/-- All weights by name, in the order in which they are checked. -/
def named (w : Weights) : List (String × Int) :=
  [("base", w.base), ("consecutive", w.consecutive), ("path_boundary", w.pathBoundary),
    ("word_boundary", w.wordBoundary), ("camel_boundary", w.camelBoundary), ("start", w.start),
    ("exact_case", w.exactCase), ("gap_small", w.gapSmall), ("gap_medium", w.gapMedium),
    ("gap_large", w.gapLarge)]

/-- The first reason to refuse the weights, if there is one: a weight that is too large, a base
that is not positive, a negative bonus, penalties that do not ascend, limits that do not ascend
or reach too far. -/
def fault? (w : Weights) : Option ConfigFault :=
  match w.named.find? (fun (_, value) => largest < value) with
  | some (field, value) => some (.weightTooLarge field value largest)
  | none =>
    if w.base ≤ 0 then some .baseNotPositive
    else if w.bonuses.any (· < 0) then some .negativeBonus
    else if w.gapSmall < 0 ∨ w.gapMedium < w.gapSmall ∨ w.gapLarge < w.gapMedium then
      some (.untieredPenalties w.gapSmall w.gapMedium w.gapLarge)
    else if w.smallLimit = 0 ∨ w.mediumLimit ≤ w.smallLimit ∨ largestLimit < w.mediumLimit then
      some (.unorderedLimits w.smallLimit w.mediumLimit largestLimit)
    else none

/-- Refuses weights that break the promises scoring relies on. -/
def check (w : Weights) : Except Fault Unit :=
  match w.fault? with
  | some why => .error (.invalidConfig why)
  | none => .ok ()

end Weights

end Typeahead
