import Typeahead.Config
import Typeahead.Scorer
import Typeahead.Paths.CommonDirectory
import Typeahead.Paths.Fingerprint
import Typeahead.Paths.Shard
import Typeahead.Text.Inspect

/-!
# Path indexes

An index holds a set of paths, spread over shards by their hashes. It can be shut down, which
empties it for good: afterwards every change is refused. Any function from texts to 64 bits will
do for a digest; the one in use is the fingerprint.

The operations of this module are those of a set: adding, removing, asking. Finding the paths
that match a query is the subject of `Typeahead.Paths.Scan`.
-/

namespace Typeahead

/-- A set of paths. -/
structure PathIndex where
  /-- The parts that share the paths. -/
  shards : Array Shard
  /-- The directory that most paths lie under. -/
  common : Option CommonDirectory
  /-- Whether the index has been shut down. -/
  isShutdown : Bool
  /-- Scores the paths. -/
  scorer : Scorer
  /-- Only paths that score above this are candidates. -/
  threshold : Score
  /-- What tells paths apart, as far as 64 bits can. -/
  digest : String → UInt64 := fingerprint

namespace PathIndex

/-- The bytes that a shard takes with its lock, its entries apart. -/
def shardBytes : Nat := 80

/-- An empty index. -/
def create [Memory] (config : IndexConfig) (scorer : Scorer)
    (digest : String → UInt64 := fingerprint) : Except Fault PathIndex := do
  config.check
  if !Memory.grants (config.shardCount * shardBytes) then throw (.allocation "path index shards")
  let shard ← Shard.empty config.arenaBytes config.initialSlots
  return {
    shards := Array.replicate config.shardCount shard
    common := config.commonPrefix.bind CommonDirectory.ofText?
    isShutdown := false
    scorer
    threshold := Score.clamp config.minRelevancy
    digest }

/-- How many shards the index has. -/
def shardCount (ix : PathIndex) : Nat := ix.shards.size

/-- The hash that a path is found by. -/
def hashOf (ix : PathIndex) (path : String) : UInt32 := (ix.digest path).toUInt32

/-- The shard that owns a path. -/
def shardFor (ix : PathIndex) (path : String) : Nat := (ix.hashOf path).toNat % ix.shardCount

/-- The path of the common directory. -/
def commonPath? (ix : PathIndex) : Option String := ix.common.map CommonDirectory.path

/-- Changes a shard, and answers what the change answers, if there is such a shard. -/
def changeShard {β : Type} (ix : PathIndex) (shard : Nat) (change : Shard → Shard × β) :
    PathIndex × Option β :=
  let { shards, common, isShutdown, scorer, threshold, digest } := ix
  match shards[shard]? with
  | none => ({ shards, common, isShutdown, scorer, threshold, digest }, none)
  | some s =>
    let others := shards.setIfInBounds shard {}
    let (s, answer) := change s
    ({ shards := others.setIfInBounds shard s, common, isShutdown, scorer, threshold, digest },
      some answer)

/-- Why a text cannot be a path of the index, if it cannot. -/
def pathFault? (path : String) : Option PathFault :=
  if path.isEmpty then some .empty
  else if Arena.longestText < path.utf8ByteSize then some (.tooLong path.utf8ByteSize)
  else none

/-- Changes the shard that owns a path, unless the index has been shut down or the text cannot be
a path. -/
def changeOwner {β : Type} (ix : PathIndex) (path : String)
    (change : UInt32 → StoredPath → Shard → Shard × Except Fault β) :
    PathIndex × Except Fault β :=
  if ix.isShutdown then (ix, .error .indexShutdown)
  else
    match pathFault? path with
    | some why => (ix, .error (.invalidPath why))
    | none =>
      let owner := ix.shardFor path
      let count := ix.shardCount
      let (ix, answer) := ix.changeShard owner (change (ix.hashOf path) (.of ix.common path))
      (ix, answer.getD (.error (.invalidShard owner count)))

/-- Adds a path. Answers whether it is new. -/
def tryAdd [Memory] (ix : PathIndex) (path : String) : PathIndex × Except Fault Bool :=
  ix.changeOwner path fun hash stored shard => shard.insert hash stored.absolute stored.text

/-- Removes a path. Answers whether it was there. -/
def tryRemove [Memory] (ix : PathIndex) (path : String) : PathIndex × Except Fault Bool :=
  ix.changeOwner path fun hash stored shard =>
    let (shard, removed) := shard.remove hash stored.absolute stored.text
    (shard, .ok removed)

/-- Adds a path. Answers whether the index holds it afterwards. -/
def add [Memory] (ix : PathIndex) (path : String) : PathIndex × Bool :=
  match ix.tryAdd path with
  | (ix, .ok _) => (ix, true)
  | (ix, .error _) => (ix, false)

/-- Removes a path. Answers whether it was there; a refusal counts as not there. -/
def remove [Memory] (ix : PathIndex) (path : String) : PathIndex × Bool :=
  match ix.tryRemove path with
  | (ix, .ok removed) => (ix, removed)
  | (ix, .error _) => (ix, false)

/-- Removes what a shard holds below a directory. Answers how many paths that were. -/
def tryRemoveBelow [Memory] (ix : PathIndex) (shard : Nat) (directory : String) :
    PathIndex × Except Fault Nat :=
  if ix.isShutdown then (ix, .error .indexShutdown)
  else
    let pattern := (trimSlashes directory ++ "/").toUTF8
    let common := ix.common
    let count := ix.shardCount
    let (ix, answer) := ix.changeShard shard fun s =>
      s.removeWhere fun entry => entry.pathBeginsWith common pattern
    (ix, match answer with
      | some removed => .ok removed
      | none => .error (.invalidShard shard count))

/-- Removes what a shard holds below a directory, or nothing if that is refused. -/
def removeBelow [Memory] (ix : PathIndex) (shard : Nat) (directory : String) : PathIndex × Nat :=
  match ix.tryRemoveBelow shard directory with
  | (ix, .ok removed) => (ix, removed)
  | (ix, .error _) => (ix, 0)

/-- Removes everything below a directory. Answers how many paths that were. -/
def removeAllBelow [Memory] (ix : PathIndex) (directory : String) : PathIndex × Nat :=
  (List.range ix.shardCount).foldl
    (fun (ix, total) shard =>
      let (ix, removed) := ix.removeBelow shard directory
      (ix, total + removed))
    (ix, 0)

/-- Whether a path is in the index. -/
def contains (ix : PathIndex) (path : String) : Bool :=
  if path.isEmpty || ix.isShutdown then false
  else
    let stored := StoredPath.of ix.common path
    match ix.shards[ix.shardFor path]? with
    | none => false
    | some shard => (shard.find? (ix.hashOf path) stored.absolute stored.text).isSome

/-- How many paths a shard has; none if there is no such shard. -/
def shardSize (ix : PathIndex) (shard : Nat) : Nat := (ix.shards[shard]?.map Shard.size).getD 0

/-- How many paths the index has. -/
def size (ix : PathIndex) : Nat := ix.shards.foldl (fun total shard => total + shard.size) 0

/-- Shuts the index down. -/
def shutdown (ix : PathIndex) : PathIndex :=
  if ix.isShutdown then ix
  else { ix with isShutdown := true, shards := ix.shards.map fun _ => {} }

/-- The path that a reference refers to, if it is still in the index. A path is spelled out for each
entry that is tested; the last one tested is the one that passes, and its path is the answer. -/
def resolve? (ix : PathIndex) (ref : PathRef) : Option String := do
  let shard ← ix.shards[ref.shard]?
  let entry ← shard.resolve? ref.hash ref.offset fun entry =>
    match entry.path? ix.common with
    | none => false
    | some (path, _) => ix.digest path == ref.fingerprint
  let (path, _) ← entry.path? ix.common
  return path

/-- How an index is shown for inspection. -/
def inspect (ix : PathIndex) : String :=
  Text.inspectRecord "PathIndex" [
    ("shards", toString ix.shardCount),
    ("prefix", Text.inspectOption (ix.commonPath?.map Text.quote)),
    ("size", toString ix.size), ("shutdown", toString ix.isShutdown)]

end PathIndex

end Typeahead
