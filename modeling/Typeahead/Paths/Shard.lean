import Typeahead.Paths.Arena
import Typeahead.Paths.ProbeTable

/-!
# Shards

A shard is an arena of entries with a table that finds them by hash. No two live entries of a
shard are equal; entries with equal hashes are told apart by their texts. Once removed entries
take more than half of the arena, the live ones are written anew, which changes their offsets
and nothing else.

A table grows if there is memory for it, and so do the shards that are written anew. That an arena
finds memory to grow by an entry is taken for granted.
-/

namespace Typeahead

/-- A part of a path index. -/
structure Shard where
  /-- The entries. -/
  arena : Arena := {}
  /-- Where they are, by hash. -/
  table : ProbeTable := {}

instance : Inhabited Shard := ⟨{}⟩

namespace Shard

/-- An empty shard with memory for so many bytes and slots. -/
def empty [Memory] (bytes slots : Nat) : Except Fault Shard := do
  if !Memory.grants bytes then throw (.allocation "path arena")
  return { table := ← ProbeTable.withSlots slots }

/-- How many entries the shard has. -/
def size (s : Shard) : Nat := s.arena.liveEntries

/-- The entries in order, each with its offset. -/
def entries (s : Shard) : List (Nat × Entry) := s.arena.entries

/-- Whether a live entry with a text is at an offset. -/
def holdsAt (a : Arena) (absolute : Bool) (stored : ByteArray) (offset : Nat) : Bool :=
  match a.entryAt? offset with
  | none => false
  | some entry => !entry.dead && entry.absolute == absolute && entry.stored == stored

/-- The offset of the entry with a hash and a text. -/
def find? (s : Shard) (hash : UInt32) (absolute : Bool) (stored : ByteArray) : Option Nat :=
  s.table.find? hash (holdsAt s.arena absolute stored)

/-- Adds an entry unless it is there. Answers whether it is new. -/
def insert [Memory] (s : Shard) (hash : UInt32) (absolute : Bool) (stored : ByteArray) :
    Shard × Except Fault Bool :=
  if (s.find? hash absolute stored).isSome then (s, .ok false)
  else
    match s.table.reserve 1 with
    | .error fault => (s, .error fault)
    | .ok table =>
      match s.arena.refusal? stored with
      | some fault => ({ s with table }, .error fault)
      | none =>
        let { arena, .. } := s
        let offset := arena.bytes.size
        ({ arena := arena.push hash absolute stored, table := table.place hash offset },
          .ok true)

/-- Writes the live entries anew. -/
def compact [Memory] (s : Shard) : Except Fault Shard := do
  let fresh ← empty s.arena.liveBytes (ProbeTable.demandFor s.arena.liveEntries)
  s.entries.foldlM (fun fresh (_, entry) => do
    match fresh.arena.refusal? entry.stored with
    | some fault => throw fault
    | none =>
      let { arena, table } := fresh
      let offset := arena.bytes.size
      let table ← table.insert entry.hash offset
      return { arena := arena.push entry.hash entry.absolute entry.stored, table })
    fresh

/-- Writes the live entries anew if the arena is wasteful and there is memory for it. -/
def tidy [Memory] (s : Shard) : Shard :=
  if s.arena.isWasteful then
    match s.compact with
    | .ok fresh => fresh
    | .error _ => s
  else s

/-- Removes the entry with a hash and a text. Answers whether it was there. -/
def remove [Memory] (s : Shard) (hash : UInt32) (absolute : Bool) (stored : ByteArray) :
    Shard × Bool :=
  let { arena, table } := s
  match table.remove hash (holdsAt arena absolute stored) with
  | (table, none) => ({ arena, table }, false)
  | (table, some offset) => (tidy { arena := (arena.kill offset).1, table }, true)

/-- Removes the entry at an offset from table and arena. -/
def erase (s : Shard) (offset : Nat) (entry : Entry) : Shard :=
  let { arena, table } := s
  { table := (table.remove entry.hash (· == offset)).1, arena := (arena.kill offset).1 }

/-- Removes every entry that meets a condition, and answers how many did. -/
def removeWhere [Memory] (s : Shard) (meets : Entry → Bool) : Shard × Nat :=
  let doomed := s.entries.filter fun (_, entry) => meets entry
  let rest := doomed.foldl (fun s (offset, entry) => s.erase offset entry) s
  (if doomed.isEmpty then rest else rest.tidy, doomed.length)

/-- The live entry with a hash that passes a test: the one at the offset where it was, or else
the first one that the table finds. -/
def resolve? (s : Shard) (hash : UInt32) (offset : Nat) (test : Entry → Bool) : Option Entry :=
  let passes (offset : Nat) : Bool :=
    match s.arena.entryAt? offset with
    | none => false
    | some entry => !entry.dead && entry.hash == hash && test entry
  if passes offset then s.arena.entryAt? offset
  else (s.table.find? hash passes).bind s.arena.entryAt?

end Shard

end Typeahead
