import Typeahead.Memory

/-!
# Probe tables

A table finds the offsets of entries by their hash. Its slots number a power of two. An entry's
ideal slot is its hash modulo that number; where slots are taken, an entry sits at the first one
after them that was free, going around the end. At most three quarters of the slots are taken.

Removing an entry leaves no mark: entries behind the hole that would no longer be found are moved
back, one after the other, so that looking for an entry never has to go on past a free slot.

How many slots a table needs is computed with numbers of 64 bits and may overflow; if it does not,
there may still be no memory for them.
-/

namespace Typeahead

/-- What a taken slot holds. -/
structure ProbeEntry where
  /-- The hash. -/
  hash : UInt32
  /-- The offset. -/
  offset : Nat
  deriving DecidableEq

/-- An open-addressed table. -/
structure ProbeTable where
  /-- The slots; a free one holds nothing. -/
  slots : Array (Option ProbeEntry) := #[]
  /-- How many slots are taken. -/
  size : Nat := 0

namespace ProbeTable

/-- The fewest slots of a table that has any. -/
def fewestSlots : Nat := 8

/-- The bytes that a slot takes. -/
def slotBytes : Nat := 8

/-- The first doubling of a number of slots that meets a demand. -/
def doubled (demand slots : Nat) : Nat :=
  if 0 < slots ∧ slots < demand then doubled demand (slots * 2) else slots
termination_by demand - slots

/-- The number of slots for a demand: the next power of two, and at least 8. It overflows for
demands above the greatest power of two that has 64 bits. -/
def slotsFor (demand : Nat) : Except Fault Nat := Size.checked (doubled demand fewestSlots)

/-- Free slots, if there is memory for them. -/
def reserveSlots [Memory] (count : Nat) : Except Fault (Array (Option ProbeEntry)) :=
  if Memory.grants (count * slotBytes) then .ok (Array.replicate count none)
  else .error (.allocation "path hash index")

/-- An empty table with at least so many slots. -/
def withSlots [Memory] (demand : Nat) : Except Fault ProbeTable := do
  return { slots := ← reserveSlots (← slotsFor demand) }

/-- The demand of a table that is to take so many entries without growing. -/
def demandFor (entries : Nat) : Nat := min (entries * 4) (UInt64.size - 1) / 3 + 1

/-- The slot after a slot, going around the end. -/
def after (t : ProbeTable) (i : Nat) : Nat := (i + 1) % t.slots.size

/-- The ideal slot of a hash. -/
def ideal (t : ProbeTable) (hash : UInt32) : Nat := hash.toNat % t.slots.size

/-- How far slot `i` lies after the ideal slot of a hash, going around the end. -/
def distance (t : ProbeTable) (hash : UInt32) (i : Nat) : Nat :=
  (i + t.slots.size - t.ideal hash) % t.slots.size

/-- The first free slot from `i` on, looking at so many slots. -/
def freeFrom (t : ProbeTable) (i : Nat) : Nat → Option Nat
  | 0 => none
  | tries + 1 =>
    match t.slots.getD i none with
    | none => some i
    | some _ => t.freeFrom (t.after i) tries

/-- Overwrites a slot. -/
def setSlot (t : ProbeTable) (i : Nat) (slot : Option ProbeEntry) : ProbeTable :=
  let { slots, size } := t
  { slots := slots.setIfInBounds i slot, size }

/-- Changes the count of taken slots. -/
def setSize (t : ProbeTable) (size : Nat) : ProbeTable :=
  let { slots, .. } := t
  { slots, size }

/-- Puts an entry into a table that has a free slot. -/
def place (t : ProbeTable) (hash : UInt32) (offset : Nat) : ProbeTable :=
  match t.freeFrom (t.ideal hash) t.slots.size with
  | none => t
  | some i =>
    let size := t.size + 1
    (t.setSlot i (some ⟨hash, offset⟩)).setSize size

/-- Doubles a number of slots until four times the number of entries is at most three times the
number of slots. Doubling itself does not overflow as long as three times the number does not. -/
def grow (fourfold slots : Nat) : Except Fault Nat :=
  if UInt64.size ≤ slots * 3 then .error .overflow
  else if 0 < slots ∧ slots * 3 < fourfold then grow fourfold (slots * 2)
  else .ok slots
termination_by UInt64.size - slots

/-- A table of so many slots with the same entries. -/
def resize [Memory] (t : ProbeTable) (count : Nat) : Except Fault ProbeTable := do
  let slots ← reserveSlots count
  return t.slots.foldl (fun table slot =>
    match slot with
    | none => table
    | some entry => table.place entry.hash entry.offset) { slots }

/-- Makes room for so many more entries. -/
def reserve [Memory] (t : ProbeTable) (more : Nat) : Except Fault ProbeTable := do
  let entries ← Size.checked (t.size + more)
  let fourfold ← Size.checked (entries * 4)
  let threefold ← Size.checked (t.slots.size * 3)
  if t.slots.size ≠ 0 ∧ fourfold ≤ threefold then return t
  let count ← grow fourfold (max t.slots.size fewestSlots)
  if count = t.slots.size then return t
  t.resize count

/-- Inserts an entry, whether or not an equal one is there. -/
def insert [Memory] (t : ProbeTable) (hash : UInt32) (offset : Nat) : Except Fault ProbeTable := do
  return (← t.reserve 1).place hash offset

/-- The first slot from `i` on whose entry has the hash and an offset that is accepted, looking
at so many slots and no further than the first free one. -/
def findFrom (t : ProbeTable) (hash : UInt32) (accept : Nat → Bool) (i : Nat) :
    Nat → Option (Nat × Nat)
  | 0 => none
  | tries + 1 =>
    match t.slots.getD i none with
    | none => none
    | some entry =>
      if entry.hash = hash ∧ accept entry.offset then some (i, entry.offset)
      else t.findFrom hash accept (t.after i) tries

/-- The slot and the offset of the first entry with a hash and an offset that is accepted. -/
def locate? (t : ProbeTable) (hash : UInt32) (accept : Nat → Bool) : Option (Nat × Nat) :=
  t.findFrom hash accept (t.ideal hash) t.slots.size

/-- The offset of the first entry with a hash and an offset that is accepted. -/
def find? (t : ProbeTable) (hash : UInt32) (accept : Nat → Bool) : Option Nat :=
  (t.locate? hash accept).map Prod.snd

/-- Closes a hole. An entry behind it, up to the first free slot, is moved into the hole when the
hole lies between its ideal slot and itself, and then leaves a hole of its own. -/
def closeHole (t : ProbeTable) (hole i : Nat) : Nat → ProbeTable
  | 0 => t.setSlot hole none
  | tries + 1 =>
    match t.slots.getD i none with
    | none => t.setSlot hole none
    | some entry =>
      let next := t.after i
      if t.distance entry.hash hole < t.distance entry.hash i then
        closeHole (t.setSlot hole (some entry)) i next tries
      else closeHole t hole next tries

/-- Removes the first entry with a hash and an offset that is accepted, and answers the offset. -/
def remove (t : ProbeTable) (hash : UInt32) (accept : Nat → Bool) : ProbeTable × Option Nat :=
  match t.locate? hash accept with
  | none => (t, none)
  | some (hole, offset) =>
    let size := t.size - 1
    ((t.closeHole hole (t.after hole) t.slots.size).setSize size, some offset)

end ProbeTable

end Typeahead
