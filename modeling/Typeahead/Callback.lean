import Typeahead.Generation

/-!
# Callbacks

A candidate is shown by its factory, which builds a text from the candidate's payload, and may
have a release callback, which takes the payload back at the end. Callbacks have an identity:
two that do the same are still two.

Nothing here runs a callback. The operations that come to the point of running one say so by a
call, and leave it to whoever holds the objects that the callback refers to.
-/

namespace Typeahead

/-- The number of a path index. -/
abbrev IndexId := Nat

/-- What a callback does when it is called. -/
inductive Action where
  /-- Builds the name and the payload's tag. -/
  | label (name : String)
  /-- Builds the label and the path that the payload refers to in an index. -/
  | showPath (index : IndexId) (label : String)
  /-- Takes a payload back, and may advance a generation counter. -/
  | swallow (name : String) (advances : Option CounterId)
  deriving DecidableEq

/-- The two roles of callbacks. -/
inductive Role where
  /-- Builds what is shown. -/
  | factory
  /-- Takes payloads back. -/
  | release
  deriving DecidableEq

/-- A callback. -/
structure Callback where
  /-- Its identity. -/
  id : Nat
  /-- What it does. -/
  action : Action
  deriving DecidableEq

/-- The role of a callback, which what it does decides. -/
def Callback.role (c : Callback) : Role :=
  match c.action with
  | .label _ | .showPath _ _ => .factory
  | .swallow _ _ => .release

/-- How a callback is shown for inspection. -/
def Callback.inspect (c : Callback) : String :=
  match c.role with
  | .factory => "Factory(<fn>)"
  | .release => "Release(<fn>)"

/-- A call that has come due, with the payload it is about. -/
inductive Call (π : Type) where
  /-- The factory is to build from the payload. -/
  | build (factory : Callback) (payload : π)
  /-- The callback is to take the payload back. -/
  | release (callback : Callback) (payload : π)
  /-- The payload is to be dropped: nobody takes it back. -/
  | discard (payload : π)
  deriving DecidableEq

/-- The call that ends a payload: its release callback takes it back, or nobody does. -/
def Call.back {π : Type} (release : Option Callback) (payload : π) : Call π :=
  match release with
  | some callback => .release callback payload
  | none => .discard payload

/-- The generations after a call: a release callback may advance a counter. -/
def Call.advance {π : Type} (call : Call π) (g : Generations) : Generations :=
  match call with
  | .release ⟨_, .swallow _ (some counter)⟩ _ => g.advance counter
  | _ => g

end Typeahead
