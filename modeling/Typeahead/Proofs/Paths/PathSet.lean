import Mathlib.Data.Finset.Card
import Typeahead.Paths.Index
import Typeahead.Proofs.Paths.OrderedSet

/-!
# Sets of paths

What an index can be asked, and what a set of texts would answer. How many shards there are and
how paths are hashed matters to the set only where a request names a shard.

What a set of texts does not know is when there is no room for one more: an arena is full, which has
two to the power 32 bytes less one then at least, or there is no memory for a larger table. So the
set is told so with the request.
-/

namespace Typeahead

/-! ### Requests -/

/-- What an index is asked to do. -/
inductive PathRequest where
  /-- Add a path. -/
  | add (path : String)
  /-- Remove a path. -/
  | remove (path : String)
  /-- Remove what a shard holds below a directory. -/
  | removeBelow (shard : Nat) (directory : String)
  /-- Remove everything below a directory. -/
  | removeAllBelow (directory : String)
  /-- Say whether a path is there. -/
  | contains (path : String)
  /-- Say how many paths there are. -/
  | size
  /-- Say how many paths a shard has. -/
  | shardSize (shard : Nat)
  /-- Shut down. -/
  | shutdown

/-- What it answers. -/
inductive PathReply where
  /-- Whether a path was added or removed. -/
  | changed (result : Except Fault Bool)
  /-- How many paths a shard has lost. -/
  | removed (result : Except Fault Nat)
  /-- A truth value. -/
  | holds (answer : Bool)
  /-- A number. -/
  | number (count : Nat)
  /-- Nothing. -/
  | done
  deriving DecidableEq

namespace PathIndex

variable [Memory]

/-- Serves a request. -/
def respond (ix : PathIndex) : PathRequest → PathIndex × PathReply
  | .add path => ((ix.tryAdd path).1, .changed (ix.tryAdd path).2)
  | .remove path => ((ix.tryRemove path).1, .changed (ix.tryRemove path).2)
  | .removeBelow shard directory =>
    ((ix.tryRemoveBelow shard directory).1, .removed (ix.tryRemoveBelow shard directory).2)
  | .removeAllBelow directory =>
    ((ix.removeAllBelow directory).1, .number (ix.removeAllBelow directory).2)
  | .contains path => (ix, .holds (ix.contains path))
  | .size => (ix, .number ix.size)
  | .shardSize shard => (ix, .number (ix.shardSize shard))
  | .shutdown => (ix.shutdown, .done)

/-- Serves requests one after the other. -/
def respondAll (ix : PathIndex) : List PathRequest → List PathReply
  | [] => []
  | request :: requests => (ix.respond request).2 :: (ix.respond request).1.respondAll requests

/-- What keeps the shard that a request would add a path to from taking in another one. -/
def shortageFor? (ix : PathIndex) : PathRequest → Option Fault
  | .add path => ix.shards[ix.shardFor path]?.bind Shard.shortage?
  | _ => none

/-- Requests, each with what there is no room for when they are served in turn. -/
def noted (ix : PathIndex) : List PathRequest → List (PathRequest × Option Fault)
  | [] => []
  | request :: requests =>
    (request, ix.shortageFor? request) :: (ix.respond request).1.noted requests

end PathIndex

/-! ### The reference -/

/-- **A set of paths**, some of which belong to each of a number of shards. -/
structure PathSet where
  /-- How many shards there are. -/
  shardCount : Nat
  /-- What tells paths apart. -/
  digest : String → UInt64
  /-- The paths. -/
  paths : Finset String := ∅
  /-- Whether the set has been shut down. -/
  isShutdown : Bool := false

namespace PathSet

/-- The shard that a path belongs to. -/
def shardFor (set : PathSet) (path : String) : Nat :=
  (set.digest path).toUInt32.toNat % set.shardCount

/-- Whether a path lies below a directory: it begins with the directory and a slash. -/
def liesBelow (directory path : String) : Bool :=
  (trimSlashes directory ++ "/").toList.isPrefixOf path.toList

/-- Why a change of a path is refused, if it is. -/
def refusal? (set : PathSet) (path : String) : Option Fault :=
  if set.isShutdown then some .indexShutdown
  else if path = "" then some (.invalidPath .empty)
  else if 65535 < path.utf8ByteSize then some (.invalidPath (.tooLong path.utf8ByteSize))
  else none

/-- Adds a path. A new one needs room. -/
def add (set : PathSet) (path : String) (shortage : Option Fault) :
    PathSet × Except Fault Bool :=
  match set.refusal? path with
  | some fault => (set, .error fault)
  | none =>
    if path ∈ set.paths then (set, .ok false)
    else
      match shortage with
      | some fault => (set, .error fault)
      | none => ({ set with paths := insert path set.paths }, .ok true)

/-- Removes a path. -/
def remove (set : PathSet) (path : String) : PathSet × Except Fault Bool :=
  match set.refusal? path with
  | some fault => (set, .error fault)
  | none => ({ set with paths := set.paths.erase path }, .ok (decide (path ∈ set.paths)))

/-- Removes the paths that meet a condition. -/
def without (set : PathSet) (meets : String → Bool) : PathSet :=
  { set with paths := set.paths.filter fun path => meets path = false }

/-- How many paths meet a condition. -/
def count (set : PathSet) (meets : String → Bool) : Nat :=
  (set.paths.filter fun path => meets path = true).card

/-- Whether a path belongs to a shard and lies below a directory. -/
def liesBelowIn (set : PathSet) (shard : Nat) (directory path : String) : Bool :=
  set.shardFor path == shard && liesBelow directory path

/-- Removes what belongs to a shard and lies below a directory. -/
def removeBelow (set : PathSet) (shard : Nat) (directory : String) :
    PathSet × Except Fault Nat :=
  if set.isShutdown then (set, .error .indexShutdown)
  else if shard < set.shardCount then
    (set.without (set.liesBelowIn shard directory),
      .ok (set.count (set.liesBelowIn shard directory)))
  else (set, .error (.invalidShard shard set.shardCount))

/-- Serves a request, knowing what there is no room for. -/
def respond (set : PathSet) (shortage : Option Fault) : PathRequest → PathSet × PathReply
  | .add path => ((set.add path shortage).1, .changed (set.add path shortage).2)
  | .remove path => ((set.remove path).1, .changed (set.remove path).2)
  | .removeBelow shard directory =>
    ((set.removeBelow shard directory).1, .removed (set.removeBelow shard directory).2)
  | .removeAllBelow directory =>
    (set.without (liesBelow directory), .number (set.count (liesBelow directory)))
  | .contains path => (set, .holds (path ∈ set.paths))
  | .size => (set, .number set.paths.card)
  | .shardSize shard => (set, .number (set.count fun path => set.shardFor path == shard))
  | .shutdown => ({ set with paths := ∅, isShutdown := true }, .done)

/-- Serves requests one after the other. -/
def respondAll (set : PathSet) : List (PathRequest × Option Fault) → List PathReply
  | [] => []
  | (request, shortage) :: requests =>
    (set.respond shortage request).2 :: (set.respond shortage request).1.respondAll requests

end PathSet

end Typeahead
