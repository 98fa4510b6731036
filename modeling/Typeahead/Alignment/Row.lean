import Typeahead.Haystack

/-!
# Rows of best totals

An alignment chooses a position of the haystack for every letter of the needle, each after the
one before. Its total adds up, for every letter, what the match gains at its position and what
the step from the match before it costs or earns; the first match pays for the characters it
skips.

The best totals are found letter by letter. The row of a letter holds, for every position, the
best total of the alignments of the needle up to that letter that end there. A position's value
comes from the best predecessor in the row before. Predecessors that leave a gap of the two
lower tiers are compared one by one; all those further back pay the same penalty, so only their
maximum counts. A row is filled from left to right, and that maximum grows on the way: at every
position one more predecessor leaves the window of the near ones.

A row is written into a buffer that may hold anything. Two buffers take turns, so that a row is
written over the row before the one it is made from.
-/

namespace Typeahead.Alignment

/-- The value of a position where no alignment ends. It lies below every total. -/
def unreachable : Int := -536870912

/-- What matching a letter at a cell gains. -/
def gain (w : Weights) (letter : Letter) (cell : Cell) : Int :=
  w.base + cell.bonus + if letter.char = cell.char then w.exactCase else 0

/-- What going on to the next match earns or costs, across `gap` skipped characters. -/
def step (w : Weights) (gap : Nat) : Int :=
  if gap = 0 then w.consecutive else -w.gapPenalty gap

/-- A buffer emptied and filled up with so many unreachable positions. -/
def blank (buffer : Array Int) (count : Nat) : Array Int :=
  buffer.shrink 0 ++ Array.replicate count unreachable

/-! ### The first row -/

/-- The value of a position in the row of the first letter. -/
def firstValue (w : Weights) (hay : Array Cell) (letter : Letter) (k : Nat) : Int :=
  match hay[k]? with
  | some cell =>
    if letter.folded = cell.folded then gain w letter cell - w.gapPenalty k else unreachable
  | none => unreachable

/-- Writes the row of the first letter into a buffer. -/
def fillFirst (w : Weights) (hay : Array Cell) (letter : Letter) (out : Array Int) : Array Int :=
  out.mapIdx fun k _ => firstValue w hay letter k

/-! ### Later rows -/

/-- The best way to come to position `k` from a predecessor across a gap below `gaps`. -/
def nearBest (w : Weights) (row : Array Int) (k : Nat) : Nat → Int
  | 0 => unreachable
  | gap + 1 =>
    let before := row.getD (k - 1 - gap) unreachable
    if unreachable < before then max (nearBest w row k gap) (before + step w gap)
    else nearBest w row k gap

/-- The greatest value of a far predecessor of position `k`, given that of position `k - 1`: the
predecessor that leaves the window of the near ones is added. -/
def farNext (w : Weights) (row : Array Int) (k : Nat) (far : Int) : Int :=
  if w.mediumLimit + 2 ≤ k then max far (row.getD (k - (w.mediumLimit + 2)) unreachable) else far

/-- The best way to come to position `k` from any predecessor, given the greatest value of the
far ones. -/
def bestBefore (w : Weights) (row : Array Int) (far : Int) (k : Nat) : Int :=
  let near := nearBest w row k (min (w.mediumLimit + 1) k)
  if unreachable < far then max near (far - w.gapLarge) else near

/-- The value of a position in the row of a later letter. -/
def laterValue (w : Weights) (hay : Array Cell) (letter : Letter) (row : Array Int) (far : Int)
    (k : Nat) : Int :=
  match hay[k]? with
  | some cell =>
    if k = 0 ∨ letter.folded ≠ cell.folded then unreachable
    else
      let best := bestBefore w row far k
      if unreachable < best then best + gain w letter cell else unreachable
  | none => unreachable

/-- Writes the first positions of the row of a later letter into a buffer. Answers the greatest
value of a far predecessor as well. -/
def sweep (w : Weights) (hay : Array Cell) (letter : Letter) (row out : Array Int) :
    Nat → Int × Array Int
  | 0 => (unreachable, out)
  | k + 1 =>
    match sweep w hay letter row out k with
    | (far, out) =>
      let far := farNext w row k far
      (far, out.setIfInBounds k (laterValue w hay letter row far k))

/-- Writes the row of a later letter into a buffer, from the row of the letter before it. -/
def fillRow (w : Weights) (hay : Array Cell) (letter : Letter) (row out : Array Int) : Array Int :=
  (sweep w hay letter row out out.size).2

/-- Writes the rows of the later letters in turn, each over the row before the last. Answers the
last row and the other buffer. -/
def fillRows (w : Weights) (hay : Array Cell) : List Letter → Array Int → Array Int →
    Array Int × Array Int
  | [], row, spare => (row, spare)
  | letter :: letters, row, spare =>
    fillRows w hay letters (fillRow w hay letter row spare) row

/-- The best total of a row. -/
def best (row : Array Int) : Int := row.foldl max unreachable

end Typeahead.Alignment
