import Typeahead.Weights

/-!
# Configuration

What can be tuned: the weights of scoring, how far a pool may grow, and how a path index is laid
out. Every part has a default, and every part says which of its values it refuses.
-/

namespace Typeahead

/-- How far a pool of candidates may grow. -/
structure PoolLimits where
  /-- The most sheets it may have. -/
  maxSheets : Nat := 256
  deriving DecidableEq

/-- Refuses a pool without sheets and one whose sheets cannot be numbered. -/
def PoolLimits.check (l : PoolLimits) : Except Fault Unit :=
  if l.maxSheets = 0 ∨ 65535 < l.maxSheets then
    .error (.invalidConfig (.sheetLimit 65535 l.maxSheets))
  else .ok ()

/-- How a path index is laid out. -/
structure IndexConfig where
  /-- How many shards share the paths. -/
  shardCount : Nat := 8
  /-- A directory that most paths lie under. -/
  commonPrefix : Option String := none
  /-- Only paths that score above this are candidates. -/
  minRelevancy : Int := 0
  /-- How many bytes every shard's arena starts with. -/
  arenaBytes : Nat := 65536
  /-- How many slots every shard's table starts with, at least. -/
  initialSlots : Nat := 1024
  deriving DecidableEq

/-- Refuses an index without shards, one whose shards cannot be numbered, and one without
slots. -/
def IndexConfig.check (c : IndexConfig) : Except Fault Unit :=
  if c.shardCount = 0 ∨ 65535 < c.shardCount then
    .error (.invalidConfig (.shardCount 65535 c.shardCount))
  else if c.initialSlots = 0 then .error (.invalidConfig .noInitialSlots)
  else .ok ()

/-- The whole configuration. -/
structure Config where
  /-- The weights of scoring. -/
  scoring : Weights := {}
  /-- How far a round's pool may grow. -/
  pool : PoolLimits := {}
  /-- How the path index is laid out. -/
  index : IndexConfig := {}
  deriving DecidableEq

/-- Refuses a configuration for the first of its parts that is refused: the weights, the pool,
the index. -/
def Config.check (c : Config) : Except Fault Unit := do
  c.scoring.check
  c.pool.check
  c.index.check

end Typeahead
