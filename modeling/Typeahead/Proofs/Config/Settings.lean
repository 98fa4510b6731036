import Mathlib.Data.Finset.Insert
import Typeahead.Config
import Typeahead.Proofs.Json.Grammar

/-!
# What a configuration document sets

A configuration has eighteen fields in three parts. A document names some of them, and what it
says is the default configuration with these fields replaced. It is an object of objects: fields
are grouped by part, in any order, among keys that name nothing.
-/

namespace Typeahead

open Typeahead.Json (Item Member ObjectSpelled TextSpelled WellFormed)

/-! ### Fields -/

/-- The parts of a configuration. -/
inductive Part where
  /-- The weights of scoring. -/
  | scoring
  /-- How far a pool may grow. -/
  | container
  /-- How a path index is laid out. -/
  | index
  deriving DecidableEq

/-- The key of a part. -/
def Part.key : Part → String
  | .scoring => "scoring"
  | .container => "container"
  | .index => "index"

/-- The fields of a configuration. -/
inductive Setting where
  /-- `Weights.base`. -/
  | base
  /-- `Weights.consecutive`. -/
  | consecutive
  /-- `Weights.pathBoundary`. -/
  | pathBoundary
  /-- `Weights.wordBoundary`. -/
  | wordBoundary
  /-- `Weights.camelBoundary`. -/
  | camelBoundary
  /-- `Weights.start`. -/
  | start
  /-- `Weights.exactCase`. -/
  | exactCase
  /-- `Weights.gapSmall`. -/
  | gapSmall
  /-- `Weights.gapMedium`. -/
  | gapMedium
  /-- `Weights.gapLarge`. -/
  | gapLarge
  /-- `Weights.smallLimit`. -/
  | smallLimit
  /-- `Weights.mediumLimit`. -/
  | mediumLimit
  /-- `PoolLimits.maxSheets`. -/
  | maxSheets
  /-- `IndexConfig.shardCount`. -/
  | shardCount
  /-- `IndexConfig.commonPrefix`. -/
  | commonPrefix
  /-- `IndexConfig.minRelevancy`. -/
  | minRelevancy
  /-- `IndexConfig.arenaBytes`. -/
  | arenaBytes
  /-- `IndexConfig.initialSlots`. -/
  | initialSlots
  deriving DecidableEq

namespace Setting

/-- The part of a field. -/
def part : Setting → Part
  | .maxSheets => .container
  | .shardCount | .commonPrefix | .minRelevancy | .arenaBytes | .initialSlots => .index
  | _ => .scoring

/-- The key of a field. -/
def key : Setting → String
  | .base => "base"
  | .consecutive => "consecutive"
  | .pathBoundary => "path_boundary"
  | .wordBoundary => "word_boundary"
  | .camelBoundary => "camel_boundary"
  | .start => "start"
  | .exactCase => "exact_case"
  | .gapSmall => "gap_small"
  | .gapMedium => "gap_medium"
  | .gapLarge => "gap_large"
  | .smallLimit => "small_gap_limit"
  | .mediumLimit => "medium_gap_limit"
  | .maxSheets => "max_sheets"
  | .shardCount => "shard_count"
  | .commonPrefix => "common_prefix"
  | .minRelevancy => "min_relevancy"
  | .arenaBytes => "initial_arena_bytes"
  | .initialSlots => "initial_slots"

/-- The least and the greatest number that a field can hold: 32 bits with a sign for a weight, 16
for a score, 64 without one for a size. -/
def range : Setting → Int × Int
  | .smallLimit | .mediumLimit | .maxSheets | .shardCount | .arenaBytes | .initialSlots =>
    (0, 18446744073709551615)
  | .minRelevancy => (-32768, 32767)
  | _ => (-2147483648, 2147483647)

end Setting

/-- What a field holds. -/
inductive Leaf where
  /-- A number. -/
  | number (n : Int)
  /-- A text or none. -/
  | text (s : Option String)

namespace Config

/-- What a field holds in a configuration. -/
def leaf (c : Config) : Setting → Leaf
  | .base => .number c.scoring.base
  | .consecutive => .number c.scoring.consecutive
  | .pathBoundary => .number c.scoring.pathBoundary
  | .wordBoundary => .number c.scoring.wordBoundary
  | .camelBoundary => .number c.scoring.camelBoundary
  | .start => .number c.scoring.start
  | .exactCase => .number c.scoring.exactCase
  | .gapSmall => .number c.scoring.gapSmall
  | .gapMedium => .number c.scoring.gapMedium
  | .gapLarge => .number c.scoring.gapLarge
  | .smallLimit => .number c.scoring.smallLimit
  | .mediumLimit => .number c.scoring.mediumLimit
  | .maxSheets => .number c.pool.maxSheets
  | .shardCount => .number c.index.shardCount
  | .commonPrefix => .text c.index.commonPrefix
  | .minRelevancy => .number c.index.minRelevancy
  | .arenaBytes => .number c.index.arenaBytes
  | .initialSlots => .number c.index.initialSlots

/-- Every number can be held by its field. -/
def InRange (c : Config) : Prop :=
  ∀ s n, c.leaf s = .number n → s.range.1 ≤ n ∧ n ≤ s.range.2

/-- **The default configuration with some fields replaced** by those of another. -/
def overDefaults (c : Config) (F : Finset Setting) : Config :=
  let d : Config := {}
  { scoring := {
      base := if .base ∈ F then c.scoring.base else d.scoring.base
      consecutive := if .consecutive ∈ F then c.scoring.consecutive else d.scoring.consecutive
      pathBoundary := if .pathBoundary ∈ F then c.scoring.pathBoundary else d.scoring.pathBoundary
      wordBoundary := if .wordBoundary ∈ F then c.scoring.wordBoundary else d.scoring.wordBoundary
      camelBoundary :=
        if .camelBoundary ∈ F then c.scoring.camelBoundary else d.scoring.camelBoundary
      start := if .start ∈ F then c.scoring.start else d.scoring.start
      exactCase := if .exactCase ∈ F then c.scoring.exactCase else d.scoring.exactCase
      gapSmall := if .gapSmall ∈ F then c.scoring.gapSmall else d.scoring.gapSmall
      gapMedium := if .gapMedium ∈ F then c.scoring.gapMedium else d.scoring.gapMedium
      gapLarge := if .gapLarge ∈ F then c.scoring.gapLarge else d.scoring.gapLarge
      smallLimit := if .smallLimit ∈ F then c.scoring.smallLimit else d.scoring.smallLimit
      mediumLimit := if .mediumLimit ∈ F then c.scoring.mediumLimit else d.scoring.mediumLimit }
    pool := {
      maxSheets := if .maxSheets ∈ F then c.pool.maxSheets else d.pool.maxSheets }
    index := {
      shardCount := if .shardCount ∈ F then c.index.shardCount else d.index.shardCount
      commonPrefix := if .commonPrefix ∈ F then c.index.commonPrefix else d.index.commonPrefix
      minRelevancy := if .minRelevancy ∈ F then c.index.minRelevancy else d.index.minRelevancy
      arenaBytes := if .arenaBytes ∈ F then c.index.arenaBytes else d.index.arenaBytes
      initialSlots := if .initialSlots ∈ F then c.index.initialSlots else d.index.initialSlots } }

end Config

/-! ### Documents -/

/-- How what a field holds is written: a number in plain decimal, a text in any spelling. -/
def Leaf.Spelled : Leaf → List Char → Prop
  | .number n, cs => cs = (toString n).toList
  | .text none, cs => cs = ['n', 'u', 'l', 'l']
  | .text (some s), cs => TextSpelled s cs

/-- Members that give things their values. Each thing is given at most once, those that are wanted
are given, and keys that name no thing have any values. -/
structure Gives {ι : Type} (IsNamed : ι → Prop) (name : ι → String) (IsWanted : ι → Prop)
    (IsValue : ι → List Char → Prop) (members : List (String × Member)) : Prop where
  /-- No key that names a thing is used twice. -/
  once : ∀ i, IsNamed i → (members.map Prod.fst).count (name i) ≤ 1
  /-- What is wanted is given. -/
  wanted : ∀ i, IsNamed i → IsWanted i → name i ∈ members.map Prod.fst
  /-- What is given has its value. -/
  value : ∀ m ∈ members, ∀ i, IsNamed i → m.1 = name i → IsValue i m.2.value.body
  /-- Other keys have any values. -/
  other : ∀ m ∈ members, (∀ i, IsNamed i → m.1 ≠ name i) → WellFormed m.2.value.body

namespace Config

/-- How a part is written that gives those fields of a configuration which are in a set. -/
def PartSpelled (c : Config) (F : Finset Setting) (p : Part) (cs : List Char) : Prop :=
  ∃ members, ObjectSpelled members cs ∧
    Gives (·.part = p) Setting.key (· ∈ F) (fun s cs => s ∈ F ∧ (c.leaf s).Spelled cs) members

/-- **How a document is written** that gives those fields of a configuration which are in a
set. -/
def DocumentSpelled (c : Config) (F : Finset Setting) (cs : List Char) : Prop :=
  ∃ x : Item, x.IsPadded ∧ cs = x.text ∧ ∃ members, ObjectSpelled members x.body ∧
    Gives (fun _ => True) Part.key (fun p => ∃ s ∈ F, s.part = p) (c.PartSpelled F) members

end Config

end Typeahead
