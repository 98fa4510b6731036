import Typeahead.Alignment.Row

/-!
# Tracing the best alignment back

The rows of all letters are kept in one table, one after the other. The positions of a best
alignment are read off it from the last row to the first. The last match is the earliest position
that holds the best total. From there, each match before is the nearest position whose value
explains the value it leads to.
-/

namespace Typeahead.Alignment

/-! ### The table -/

/-- Row `i` of a table of rows of so many positions. -/
def rowAt (table : Array Int) (width i : Nat) : Array Int :=
  table.extract (i * width) (i * width + width)

/-- Writes the first positions of a row into a table, from `start` on. -/
def copyInto (table row : Array Int) (start : Nat) : Nat → Array Int
  | 0 => table
  | k + 1 => (copyInto table row start k).setIfInBounds (start + k) (row.getD k unreachable)

/-- Overwrites row `i` of a table. -/
def setRow (table : Array Int) (i : Nat) (row : Array Int) : Array Int :=
  copyInto table row (i * row.size) row.size

/-- Writes the rows of the later letters into a table, the first of them as row `i`, each from the
row before it. -/
def fillTable (w : Weights) (hay : Array Cell) : List Letter → Nat → Array Int → Array Int
  | [], _, table => table
  | letter :: letters, i, table =>
    let row := fillRow w hay letter (rowAt table hay.size (i - 1)) (rowAt table hay.size i)
    fillTable w hay letters (i + 1) (setRow table i row)

/-- The rows of a needle in one table. -/
def tabulate (w : Weights) (hay : Array Cell) : List Letter → Array Int
  | [] => #[]
  | first :: later =>
    let table := Array.replicate ((later.length + 1) * hay.size) unreachable
    let row := fillFirst w hay first (rowAt table hay.size 0)
    fillTable w hay later 1 (setRow table 0 row)

/-! ### The walk back -/

/-- The earliest position that holds the greatest value above `unreachable`, with that value. -/
def earliestBest (row : Array Int) : Option (Nat × Int) :=
  (row.foldl
    (fun (found, k) value =>
      let better : Bool := match found with
        | none => unreachable < value
        | some (_, best) => best < value
      (if better then some (k, value) else found, k + 1))
    ((none : Option (Nat × Int)), 0)).1

/-- The nearest position before `j`, looking at the positions below `k`, whose value explains
`target`. -/
def predecessor (w : Weights) (row : Array Int) (j : Nat) (target : Int) : Nat → Option Nat
  | 0 => none
  | k + 1 =>
    let before := row.getD k unreachable
    if unreachable < before ∧ before + step w (j - k - 1) = target then some k
    else predecessor w row j target k

/-- The positions of the best alignment whose match of letter `i` is at `j`, in front of the
positions found already. -/
def traceFrom (w : Weights) (hay : Array Cell) (letters : List Letter) (table : Array Int) :
    Nat → Nat → List Nat → Option (List Nat)
  | 0, j, found => some (j :: found)
  | i + 1, j, found => do
    let letter ← letters[i + 1]?
    let cell ← hay[j]?
    let target := table.getD ((i + 1) * hay.size + j) unreachable - gain w letter cell
    let k ← predecessor w (rowAt table hay.size i) j target j
    traceFrom w hay letters table i k (j :: found)

/-- The best total of a needle's alignments and the positions that reach it: the last match as
early as possible, then every match before as late as possible. -/
def trace (w : Weights) (hay : Array Cell) (letters : List Letter) : Option (Int × List Nat) := do
  let table := tabulate w hay letters
  let last := letters.length - 1
  let (j, total) ← earliestBest (rowAt table hay.size last)
  let positions ← traceFrom w hay letters table last j []
  return (total, positions)

end Typeahead.Alignment
