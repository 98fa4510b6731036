import Typeahead.Callback
import Typeahead.Text.Inspect

/-!
# The callback registry

Candidates name their callbacks by small slot numbers, and a registry says which callback a slot
stands for. It keeps no callback alive: a callback lives as long as somebody outside holds it,
and once nobody does, its slot may be given to another. So every operation that depends on it is
told which callbacks are alive.
-/

namespace Typeahead

/-- The number of a slot. -/
abbrev SlotId := Nat

/-- The slots of a registry, each with the callback it was last given to. -/
structure Registry where
  /-- How many slots there may be. -/
  capacity : Nat
  /-- The callbacks by slot. -/
  slots : Array Callback

namespace Registry

/-- The most slots a registry can number. -/
def most : Nat := 256

/-- A registry with up to `capacity` slots, as far as slots can be numbered. -/
def ofCapacity (capacity : Nat) : Registry := ⟨min capacity most, #[]⟩

/-- A registry of the usual size. -/
def standard : Registry := ofCapacity 64

/-- Gives a callback its slot: the one it has, else the first whose callback is dead, else a new
one if the registry has room. -/
def register (alive : Callback → Bool) (r : Registry) (c : Callback) :
    Registry × Option SlotId :=
  match r.slots.idxOf? c with
  | some slot => (r, some slot)
  | none =>
    match r.slots.findIdx? (fun held => !alive held) with
    | some slot => ({ r with slots := r.slots.setIfInBounds slot c }, some slot)
    | none =>
      if r.capacity ≤ r.slots.size then (r, none)
      else ({ r with slots := r.slots.push c }, some r.slots.size)

/-- The callback of a slot, if it is alive and has the role that is asked for. -/
def lookup (alive : Callback → Bool) (r : Registry) (role : Role) (slot : SlotId) :
    Option Callback :=
  r.slots[slot]?.filter fun held => held.role = role && alive held

/-- How many slots hold a callback that is alive. -/
def size (alive : Callback → Bool) (r : Registry) : Nat := r.slots.countP alive

/-- Whether no slot holds a callback that is alive. -/
def isEmpty (alive : Callback → Bool) (r : Registry) : Bool := r.size alive == 0

/-- Whether as many slots hold callbacks that are alive as there may be slots. -/
def isFull (alive : Callback → Bool) (r : Registry) : Bool := r.capacity ≤ r.size alive

/-- How a registry is shown for inspection. -/
def inspect (alive : Callback → Bool) (r : Registry) : String :=
  Text.inspectRecord "CallbackRegistry"
    [("len", toString (r.size alive)), ("capacity", toString r.capacity)]

end Registry

end Typeahead
