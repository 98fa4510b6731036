import Typeahead.Config
import Typeahead.Json.Record

/-!
# Configuration documents

A configuration is written as a JSON document that sets some fields and leaves the others at
their defaults. The document is read as a whole before the configuration is checked, so a fault
in its form comes before any fault in its values.
-/

namespace Typeahead

open Typeahead.Json (RecordField Value)

/-- A field for a signed number of 32 bits. -/
def signedField {α : Type} (name : String) (put : α → Int → α) : RecordField α where
  name := name
  set value record := (value.int? (-2147483648) 2147483647).map (put record)

/-- A field for a size, an unsigned number of 64 bits. -/
def sizeField {α : Type} (name : String) (put : α → Nat → α) : RecordField α where
  name := name
  set value record := (value.nat? (UInt64.size - 1)).map (put record)

/-- The fields of the weights, in order. -/
def Weights.fields : List (RecordField Weights) := [
  signedField "base" fun w v => { w with base := v },
  signedField "consecutive" fun w v => { w with consecutive := v },
  signedField "path_boundary" fun w v => { w with pathBoundary := v },
  signedField "word_boundary" fun w v => { w with wordBoundary := v },
  signedField "camel_boundary" fun w v => { w with camelBoundary := v },
  signedField "start" fun w v => { w with start := v },
  signedField "exact_case" fun w v => { w with exactCase := v },
  signedField "gap_small" fun w v => { w with gapSmall := v },
  signedField "gap_medium" fun w v => { w with gapMedium := v },
  signedField "gap_large" fun w v => { w with gapLarge := v },
  sizeField "small_gap_limit" fun w v => { w with smallLimit := v },
  sizeField "medium_gap_limit" fun w v => { w with mediumLimit := v }]

/-- Reads weights; the fields that are not given have their defaults. -/
def Weights.ofValue? : Value → Option Weights := RecordField.readRecord fields {}

/-- The fields of the pool's limits. -/
def PoolLimits.fields : List (RecordField PoolLimits) := [
  sizeField "max_sheets" fun _ v => ⟨v⟩]

/-- Reads the limits of a pool. -/
def PoolLimits.ofValue? : Value → Option PoolLimits := RecordField.readRecord fields {}

/-- The fields of the index's layout, in order. -/
def IndexConfig.fields : List (RecordField IndexConfig) := [
  sizeField "shard_count" fun c v => { c with shardCount := v },
  { name := "common_prefix"
    set := fun value c => value.optionalText?.map fun v => { c with commonPrefix := v } },
  { name := "min_relevancy"
    set := fun value c =>
      (value.int? (-32768) 32767).map fun v => { c with minRelevancy := v } },
  sizeField "initial_arena_bytes" fun c v => { c with arenaBytes := v },
  sizeField "initial_slots" fun c v => { c with initialSlots := v }]

/-- Reads the layout of an index. -/
def IndexConfig.ofValue? : Value → Option IndexConfig := RecordField.readRecord fields {}

/-- The parts of a configuration, in order. -/
def Config.fields : List (RecordField Config) := [
  { name := "scoring"
    set := fun value c => (Weights.ofValue? value).map fun v => { c with scoring := v } },
  { name := "container"
    set := fun value c => (PoolLimits.ofValue? value).map fun v => { c with pool := v } },
  { name := "index"
    set := fun value c => (IndexConfig.ofValue? value).map fun v => { c with index := v } }]

/-- Reads a configuration. -/
def Config.ofValue? : Value → Option Config := RecordField.readRecord fields {}

/-- The configuration of a document: what the document says, if it is well formed and the
configuration is not refused. -/
def Config.ofDocument (document : String) : Except Fault Config :=
  match Json.parse? document.toList >>= Config.ofValue? with
  | none => .error .malformed
  | some config => do
    config.check
    return config

/-- The configuration of a file, given the bytes it holds, if there is such a file. -/
def Config.ofFile (content : Option ByteArray) : Except Fault Config :=
  match content >>= String.fromUTF8? with
  | none => .error .unreadable
  | some document => Config.ofDocument document

end Typeahead
