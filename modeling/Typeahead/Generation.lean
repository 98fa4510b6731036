/-!
# Generations

Every query belongs to a generation. A counter holds the current generation of whoever submits
the queries; submitting another query advances it, and from then on everything that belongs to
an older generation is stale. A token names a counter and a generation; work that carries a
token asks now and then whether it has become stale. Long loops ask only at multiples of 4096.
-/

namespace Typeahead

/-- The number of a generation counter. -/
abbrev CounterId := Nat

/-- The current generation of every counter. -/
structure Generations where
  /-- The generations by counter. -/
  current : Array UInt64 := #[]

namespace Generations

/-- The current generation of a counter. -/
def of (g : Generations) (counter : CounterId) : UInt64 := g.current.getD counter 0

/-- Begins the next generation of a counter. -/
def advance (g : Generations) (counter : CounterId) : Generations :=
  ⟨g.current.modify counter (· + 1)⟩

/-- Adds a counter, which starts at generation zero. -/
def newCounter (g : Generations) : Generations × CounterId := (⟨g.current.push 0⟩, g.current.size)

end Generations

/-- What work carries to find out whether it has been superseded. -/
structure Token where
  /-- The counter to compare with; without one the work never becomes stale. -/
  counter : Option CounterId
  /-- The generation the work belongs to. -/
  generation : UInt64
  deriving DecidableEq

namespace Token

/-- The token of work that is never superseded. -/
def never : Token := ⟨none, 0⟩

/-- Whether the counter has left the token's generation. -/
def isStale (t : Token) (g : Generations) : Bool :=
  match t.counter with
  | none => false
  | some counter => g.of counter != t.generation

/-- How many rounds of a loop go by between two questions. -/
def interval : Nat := 4096

/-- Whether a loop that has done `count` rounds finds the token stale: it asks at multiples of
the interval only. -/
def isStaleAt (t : Token) (g : Generations) (count : Nat) : Bool :=
  count % interval == 0 && t.isStale g

end Token

end Typeahead
