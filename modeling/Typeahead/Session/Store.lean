/-!
# Stores

A store keeps values by name, one to a name. Which of them was put in first does not matter.
-/

namespace Typeahead

/-- Values by name. -/
structure Store (α : Type) where
  /-- The values with their names; no name occurs twice. -/
  entries : List (String × α) := []

namespace Store

variable {α : Type}

/-- The value of a name. -/
def get? (s : Store α) (name : String) : Option α := s.entries.lookup name

/-- Whether there is a value of a name. -/
def contains (s : Store α) (name : String) : Bool := (s.get? name).isSome

/-- All values. -/
def values (s : Store α) : List α := s.entries.map Prod.snd

/-- Takes the value of a name out of some entries. -/
def takeFrom (name : String) : List (String × α) → Option α × List (String × α)
  | [] => (none, [])
  | (other, value) :: rest =>
    if other = name then (some value, rest)
    else
      let (found, rest) := takeFrom name rest
      (found, (other, value) :: rest)

/-- Takes the value of a name out. -/
def take (s : Store α) (name : String) : Option α × Store α :=
  let (found, rest) := takeFrom name s.entries
  (found, ⟨rest⟩)

/-- Puts a value in under a name, in place of any value the name had. -/
def put (s : Store α) (name : String) (value : α) : Store α :=
  ⟨(name, value) :: (s.take name).2.entries⟩

end Store

end Typeahead
