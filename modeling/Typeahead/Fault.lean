/-!
# Faults

Everything that can go wrong, by its cause. A fault carries what its wording needs and nothing
else; `Fault.message` is the only place where faults are put into words.
-/

namespace Typeahead

/-- Why a text cannot be indexed as a path. -/
inductive PathFault where
  /-- It has no character. -/
  | empty
  /-- It is longer than an arena entry can hold. -/
  | tooLong (bytes : Nat)
  deriving DecidableEq

/-- Why a configuration is refused. -/
inductive ConfigFault where
  /-- A weight is above the largest one allowed. -/
  | weightTooLarge (field : String) (value largest : Int)
  /-- The base score of a match is zero or less. -/
  | baseNotPositive
  /-- A bonus is below zero. -/
  | negativeBonus
  /-- The gap penalties do not ascend from zero. -/
  | untieredPenalties (small medium large : Int)
  /-- The gap limits do not ascend, or reach too far. -/
  | unorderedLimits (small medium largest : Nat)
  /-- A pool may not have that many sheets. -/
  | sheetLimit (largest got : Nat)
  /-- An index may not have that many shards. -/
  | shardCount (largest got : Nat)
  /-- An index needs at least one initial slot. -/
  | noInitialSlots
  deriving DecidableEq

/-- Whatever can go wrong. -/
inductive Fault where
  /-- Every slot of the callback registry holds a callback that is alive. -/
  | registryFull (slots : Nat)
  /-- The pool has no room for another candidate. -/
  | poolSaturated (candidates : Nat)
  /-- The index has been shut down. -/
  | indexShutdown
  /-- There is no shard of that number. -/
  | invalidShard (shard count : Nat)
  /-- The text cannot be indexed as a path. -/
  | invalidPath (why : PathFault)
  /-- Memory for the named thing cannot be reserved. -/
  | allocation (what : String)
  /-- A size has more than 64 bits. This ends the program. -/
  | overflow
  /-- The configuration is refused. -/
  | invalidConfig (why : ConfigFault)
  /-- A file cannot be read as text. -/
  | unreadable
  /-- A configuration document is not well formed. -/
  | malformed
  deriving DecidableEq

/-- The wording of a path fault. -/
def PathFault.message : PathFault → String
  | .empty => "empty path"
  | .tooLong bytes => s!"{bytes} bytes exceeds 65535"

/-- The wording of a configuration fault. -/
def ConfigFault.message : ConfigFault → String
  | .weightTooLarge field value largest => s!"scoring.{field} ({value}) exceeds {largest}"
  | .baseNotPositive => "scoring.base must be positive"
  | .negativeBonus => "scoring bonuses must not be negative"
  | .untieredPenalties small medium large =>
    s!"gap penalties must be tiered: 0 <= small ({small}) <= medium ({medium}) <= large ({large})"
  | .unorderedLimits small medium largest =>
    s!"gap tier limits must satisfy 0 < small ({small}) < medium ({medium}) <= {largest}"
  | .sheetLimit largest got => s!"container.max_sheets must be in 1..={largest}, got {got}"
  | .shardCount largest got => s!"index.shard_count must be in 1..={largest}, got {got}"
  | .noInitialSlots => "index.initial_slots must be positive"

/-- The wording of a fault. -/
def Fault.message : Fault → String
  | .registryFull slots => s!"Callback registry is full ({slots} slots)"
  | .poolSaturated candidates => s!"Result container is saturated ({candidates} candidates)"
  | .indexShutdown => "Path index has been shut down"
  | .invalidShard shard count => s!"Invalid shard {shard} (index has {count} shards)"
  | .invalidPath why => "Invalid path: " ++ why.message
  | .allocation what => "Allocation failed: " ++ what
  | .overflow => "arithmetic overflow"
  | .invalidConfig why => "Invalid configuration: " ++ why.message
  | .unreadable => "IO error"
  | .malformed => "JSON error"

end Typeahead
