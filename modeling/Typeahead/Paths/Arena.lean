import Typeahead.Fault

/-!
# Arenas

A shard keeps its paths in one string of bytes, entry after entry. An entry is a header of seven
bytes (the hash in four, flags in one, the length in two, all little-endian) and the bytes of
the stored text. One flag says that the text is the whole path and not the part after the common
directory; the other marks an entry that has been removed. Removing an entry only sets its mark,
so that entries stay where they are.

An entry is named by the offset of its header. Reading is defined at every offset, also where no
entry begins, and answers whatever the bytes there spell.
-/

namespace Typeahead

/-- An entry of an arena. -/
structure Entry where
  /-- The hash it is found by. -/
  hash : UInt32
  /-- Whether the stored text is the whole path. -/
  absolute : Bool
  /-- Whether the entry has been removed. -/
  dead : Bool
  /-- The stored text. -/
  stored : ByteArray

/-- The bytes in front of an entry's text. -/
def Entry.headerSize : Nat := 7

/-- How many bytes an entry takes. -/
def Entry.size (e : Entry) : Nat := headerSize + e.stored.size

/-- A string of entries. -/
structure Arena where
  /-- The bytes of the entries. -/
  bytes : ByteArray := .empty
  /-- How many of the bytes belong to entries that have been removed. -/
  deadBytes : Nat := 0
  /-- How many entries have not been removed. -/
  liveEntries : Nat := 0

namespace Arena

/-- The longest text an entry can hold, in bytes. -/
def longestText : Nat := 65535

/-- Offsets have 32 bits, and the last of them names no entry. -/
def offsetLimit : Nat := UInt32.size - 1

/-- The byte at an index, or zero past the end. -/
def byteAt (bytes : ByteArray) (i : Nat) : Nat := if h : i < bytes.size then bytes[i].toNat else 0

/-- The little-endian number of `count` bytes from `i` on. -/
def numberAt (bytes : ByteArray) (i : Nat) : Nat → Nat
  | 0 => 0
  | count + 1 => byteAt bytes i + 256 * numberAt bytes (i + 1) count

/-- The `count` lowest bytes of a number, little-endian. -/
def pushNumber (bytes : ByteArray) (n : Nat) : Nat → ByteArray
  | 0 => bytes
  | count + 1 => pushNumber (bytes.push n.toUInt8) (n / 256) count

/-- Why a text cannot be appended, if it cannot. -/
def refusal? (a : Arena) (stored : ByteArray) : Option Fault :=
  if longestText < stored.size then some (.invalidPath (.tooLong stored.size))
  else if offsetLimit ≤ a.bytes.size then some (.allocation "path arena is full")
  else none

/-- Appends an entry, whose offset is the size of the arena before. -/
def push (a : Arena) (hash : UInt32) (absolute : Bool) (stored : ByteArray) : Arena :=
  let { bytes, deadBytes, liveEntries } := a
  let bytes := pushNumber bytes hash.toNat 4
  let bytes := bytes.push (if absolute then 1 else 0)
  let bytes := pushNumber bytes stored.size 2
  { bytes := bytes ++ stored, deadBytes, liveEntries := liveEntries + 1 }

/-- The entry at an offset, if the bytes from there on hold a header and the text it promises. -/
def entryAt? (a : Arena) (offset : Nat) : Option Entry :=
  let start := offset + Entry.headerSize
  if a.bytes.size < start then none
  else
    let flags := byteAt a.bytes (offset + 4)
    let length := numberAt a.bytes (offset + 5) 2
    if a.bytes.size < start + length then none
    else some {
      hash := (numberAt a.bytes offset 4).toUInt32
      absolute := flags % 2 == 1
      dead := flags / 2 % 2 == 1
      stored := a.bytes.extract start (start + length) }

/-- Marks the entry at an offset as removed. Answers whether it was there and not marked yet. -/
def kill (a : Arena) (offset : Nat) : Arena × Bool :=
  match a.entryAt? offset with
  | none => (a, false)
  | some entry =>
    if entry.dead then (a, false)
    else
      let { bytes, deadBytes, liveEntries } := a
      let flags := (byteAt bytes (offset + 4)).toUInt8 ||| 2
      ({ bytes := bytes.set! (offset + 4) flags, deadBytes := deadBytes + entry.size,
         liveEntries := liveEntries - 1 }, true)

theorem lt_size_of_entryAt? {a : Arena} {offset : Nat} {e : Entry}
    (h : a.entryAt? offset = some e) : offset < a.bytes.size := by
  by_cases short : a.bytes.size < offset + Entry.headerSize
  · simp [entryAt?, short] at h
  · simp only [Entry.headerSize] at short
    omega

/-- The entry that a walk comes to at an offset. A walk goes no further than offsets of 32 bits. -/
def entryAhead? (a : Arena) (offset : Nat) : Option Entry :=
  if offset < UInt32.size then a.entryAt? offset else none

theorem entryAt?_of_entryAhead? {a : Arena} {offset : Nat} {e : Entry}
    (h : a.entryAhead? offset = some e) : a.entryAt? offset = some e := by
  rw [entryAhead?] at h
  split at h
  · exact h
  · exact absurd h (by simp)

/-- The live entries from an offset on where an entry begins, each with its offset. -/
def entriesFrom (a : Arena) (offset : Nat) : List (Nat × Entry) :=
  match h : a.entryAhead? offset with
  | none => []
  | some entry =>
    have _ := lt_size_of_entryAt? (entryAt?_of_entryAhead? h)
    if entry.dead then entriesFrom a (offset + entry.size)
    else (offset, entry) :: entriesFrom a (offset + entry.size)
termination_by a.bytes.size - offset
decreasing_by
  all_goals
    simp only [Entry.size, Entry.headerSize]
    omega

/-- The live entries in the order in which they were appended, each with its offset. -/
def entries (a : Arena) : List (Nat × Entry) := a.entriesFrom 0

/-- How many bytes belong to entries that have not been removed. -/
def liveBytes (a : Arena) : Nat := a.bytes.size - a.deadBytes

/-- Whether removed entries take more than half of the arena. -/
def isWasteful (a : Arena) : Bool := a.bytes.size / 2 < a.deadBytes

end Arena

end Typeahead
