import Typeahead.Desk
import Typeahead.Paths.Index

/-!
# Scanning an index

A scan scores every path of a shard and offers the ones above the threshold to a pool. A path
under the common directory is scored from the directory's end on, so that the directory itself
never matches. First all paths are scored; then the hits are offered in order. Between paths, and
between offers, the scan asks now and then whether its generation has been superseded, and stops if
so. It also stops when the pool refuses a hit.

The shards of an index may be scanned at the same time. Here they are scanned one after the other,
in any order (`scanShards`).
-/

namespace Typeahead

/-- How a scan ended. -/
inductive ScanEnd where
  /-- Every hit was offered. -/
  | completed
  /-- The generation was superseded. -/
  | cancelled
  /-- The pool refused a hit. -/
  | saturated
  deriving DecidableEq

/-- What a scan reports. -/
structure ScanOutcome where
  /-- How it ended. -/
  ending : ScanEnd
  /-- How many paths were scored. -/
  scanned : Nat := 0
  /-- How many hits went into the pool. -/
  inserted : Nat := 0
  deriving DecidableEq

/-- A path that scored above the threshold. -/
structure Hit where
  /-- Its score. -/
  relevancy : Score
  /-- Where it was. -/
  ref : PathRef
  deriving DecidableEq

namespace PathIndex

/-- The hit of an entry, if it is one. -/
def hit? (ix : PathIndex) (needle : Needle) (shard offset : Nat) (entry : Entry) : Option Hit := do
  let (path, start) ← entry.path? ix.common
  let relevancy := ix.scorer.scoreEither needle path start
  if ix.threshold < relevancy then some ⟨relevancy, shard, offset, ix.digest path⟩ else none

/-- The hits of a shard in order. -/
def hits (ix : PathIndex) (needle : Needle) (number : Nat) (shard : Shard) : List Hit :=
  shard.entries.filterMap fun (offset, entry) => ix.hit? needle number offset entry

/-- Scores the paths of entries in order, after so many others. Answers how many have been scored
then, and the hits unless the generation was superseded. -/
def collectHits (ix : PathIndex) (needle : Needle) (number : Nat) (d : Desk) :
    List (Nat × Entry) → Nat → Nat × Option (List Hit)
  | [], scanned => (scanned, some [])
  | (offset, entry) :: entries, scanned =>
    if 0 < scanned ∧ d.pool.token.isStaleAt d.generations scanned then (scanned, none)
    else
      let (scanned, later) := ix.collectHits needle number d entries (scanned + 1)
      (scanned, later.map ((ix.hit? needle number offset entry).toList ++ ·))

/-- Offers hits in order, after so many others. -/
def offerHits (outside : Callback → Bool) (factory : Callback) (scanned : Nat) :
    List Hit → Nat → Desk → Desk × ScanOutcome
  | [], inserted, d => (d, ⟨.completed, scanned, inserted⟩)
  | hit :: hits, inserted, d =>
    if 0 < inserted ∧ d.pool.token.isStaleAt d.generations inserted then
      (d, ⟨.cancelled, scanned, inserted⟩)
    else
      let (d, answer) := d.offer outside {
        identity := some hit.ref.hash, relevancy := hit.relevancy, payload := .path hit.ref,
        factory, release := none }
      if Pool.goesOn answer then offerHits outside factory scanned hits (inserted + 1) d
      else (d, ⟨.saturated, scanned, inserted⟩)

/-- Scans a shard. `factory` is to build the hits. -/
def tryScan (ix : PathIndex) (outside : Callback → Bool) (factory : Callback) (needle : Needle)
    (shard : Nat) (d : Desk) : Desk × Except Fault ScanOutcome :=
  if ix.isShutdown then (d, .error .indexShutdown)
  else if 65535 < shard then (d, .error (.invalidShard shard ix.shardCount))
  else if d.isStale then (d, .ok ⟨.cancelled, 0, 0⟩)
  else
    match ix.shards[shard]? with
    | none => (d, .error (.invalidShard shard ix.shardCount))
    | some store =>
      match ix.collectHits needle shard d store.entries 0 with
      | (scanned, none) => (d, .ok ⟨.cancelled, scanned, 0⟩)
      | (scanned, some hits) =>
        let (d, outcome) := offerHits outside factory scanned hits 0 d
        (d, .ok outcome)

/-- Scans a shard. There is nothing to scan in an index that has been shut down or in a shard
that there is not. -/
def scan (ix : PathIndex) (outside : Callback → Bool) (factory : Callback) (needle : Needle)
    (shard : Nat) (d : Desk) : Desk × ScanOutcome :=
  match ix.tryScan outside factory needle shard d with
  | (d, .ok outcome) => (d, outcome)
  | (d, .error _) => (d, ⟨.completed, 0, 0⟩)

/-- Scans the shards of a list in order. -/
def scanShards (ix : PathIndex) (outside : Callback → Bool) (factory : Callback)
    (needle : Needle) : List Nat → Desk → Desk × List ScanOutcome
  | [], d => (d, [])
  | shard :: shards, d =>
    let (d, outcome) := ix.scan outside factory needle shard d
    let (d, outcomes) := ix.scanShards outside factory needle shards d
    (d, outcome :: outcomes)

/-- Scans every shard, in ascending order. -/
def scanAll (ix : PathIndex) (outside : Callback → Bool) (factory : Callback) (needle : Needle)
    (d : Desk) : Desk × List ScanOutcome :=
  ix.scanShards outside factory needle (List.range ix.shardCount) d

end PathIndex

end Typeahead
