/-!
# Sets of characters

A set of characters is kept as the ascending list of code points at which membership changes:
the first bound is where the first run of members begins, the second is the first code point
after that run, and so on. A character belongs to the set when an odd number of bounds are at
most its code point. That number is found by bisection.
-/

namespace Typeahead.Text

/-- Bisection: the least index in `lo..hi` whose key is above `c`, for keys that ascend. The
first argument bounds the number of halvings. -/
def rankFrom (key : Nat → Nat) (c : Nat) : Nat → Nat → Nat → Nat
  | 0, lo, _ => lo
  | halvings + 1, lo, hi =>
    if lo < hi then
      let mid := (lo + hi) / 2
      if key mid ≤ c then rankFrom key c halvings (mid + 1) hi else rankFrom key c halvings lo mid
    else lo

/-- How many of the first `size` keys are at most `c`, for keys that ascend. -/
def rank (key : Nat → Nat) (c size : Nat) : Nat := rankFrom key c (size.log2 + 1) 0 size

/-- A set of characters, by the code points where membership changes. -/
structure CharSet where
  /-- The changes, ascending: into the set, out of it, into it again, and so on. -/
  bounds : Array Nat

/-- Whether a character belongs to the set. -/
def CharSet.contains (s : CharSet) (c : Char) : Bool :=
  rank (fun i => s.bounds.getD i 0) c.toNat s.bounds.size % 2 == 1

end Typeahead.Text
