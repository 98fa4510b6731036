import Typeahead.Registry
import Typeahead.Score

/-!
# Candidates

A candidate is what a pool remembers of something that matched: how relevant it is, which thing
it is, where the pool keeps it, and the slots of its callbacks. Better candidates come first:
the more relevant one, then the smaller identity, then the earlier place.
-/

namespace Typeahead

/-- A place in a pool. -/
structure Location where
  /-- The sheet. -/
  sheet : Nat
  /-- The item on the sheet. -/
  item : Nat
  deriving DecidableEq

/-- A candidate. -/
structure Candidate where
  /-- How relevant it is. -/
  relevancy : Score
  /-- Which thing it is, for telling duplicates. -/
  identity : UInt32
  /-- Where the pool keeps it. -/
  location : Location
  /-- The slot of its factory. -/
  factory : SlotId
  /-- The slot of its release callback, if it has one. -/
  release : Option SlotId
  deriving DecidableEq

/-- How two candidates rank: `lt` when the first is the better one. -/
def Candidate.rank (a b : Candidate) : Ordering :=
  (compare b.relevancy.value a.relevancy.value).then <|
    (compare a.identity b.identity).then <|
      (compare a.location.sheet b.location.sheet).then
        (compare a.location.item b.location.item)

/-- Candidates from best to worst. Candidates of the same rank keep their order. -/
def Candidate.sort (candidates : List Candidate) : List Candidate :=
  candidates.mergeSort fun a b => (a.rank b).isLE

/-- The candidates that rank better than a pivot. -/
def Candidate.betterThan (pivot : Candidate) (candidates : List Candidate) : List Candidate :=
  candidates.filter fun c => (c.rank pivot).isLT

/-- The candidates that rank no better than a pivot. -/
def Candidate.noBetterThan (pivot : Candidate) (candidates : List Candidate) : List Candidate :=
  candidates.filter fun c => !(c.rank pivot).isLT

/-- The `k` best candidates, in no particular order. The first candidate parts the others into
those that are better and those that are not, and only the part in which the `k`-th best one lies
is gone through further. -/
def Candidate.select (k : Nat) : List Candidate → List Candidate
  | [] => []
  | pivot :: others =>
    let better := betterThan pivot others
    if k ≤ better.length then select k better
    else better ++ pivot :: select (k - better.length - 1) (noBetterThan pivot others)
termination_by candidates => candidates.length
decreasing_by
  all_goals exact Nat.lt_succ_of_le (List.length_filter_le _ _)

/-- The `k` best candidates from best to worst. If there are more than `k`, only the `k` best are
sorted. -/
def Candidate.best (k : Nat) (candidates : List Candidate) : List Candidate :=
  sort (if k < candidates.length then select k candidates else candidates)

end Typeahead
