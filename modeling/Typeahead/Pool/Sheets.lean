import Typeahead.Pool.Candidate

/-!
# Sheets

A pool keeps its candidates on sheets of 512 places. A place keeps its candidate for good, so
that the thing it stands for stays known, but its payload only as long as the candidate is live:
whoever takes the payload consumes the candidate. Beside its places a sheet has a mark for each of
them, by which its live candidates are found.

That there is memory for another sheet is taken for granted.
-/

namespace Typeahead

/-- A place on a sheet: its candidate, and the payload while the candidate is live. -/
structure Place (π : Type) where
  /-- The candidate. -/
  candidate : Candidate
  /-- The payload; none once the candidate has been consumed. -/
  payload : Option π

/-- A sheet. -/
structure Sheet (π : Type) where
  /-- The places used so far. -/
  places : Array (Place π) := #[]
  /-- The marks of 512 places, 64 a word. -/
  marks : Vector UInt64 8 := .replicate 8 0

namespace Sheet

variable {π : Type}

/-- The bit of the mark of place `i` in its word. -/
def bit (i : Nat) : UInt64 := 1 <<< (i % 64).toUInt64

/-- Whether place `i` is marked. -/
def isMarked (sheet : Sheet π) (i : Nat) : Bool :=
  match sheet.marks[i / 64]? with
  | some word => word &&& bit i != 0
  | none => false

/-- Changes the word that the mark of place `i` is in. -/
def changeWord (sheet : Sheet π) (i : Nat) (change : UInt64 → UInt64) : Sheet π :=
  let { places, marks } := sheet
  match marks[i / 64]? with
  | some word => { places, marks := marks.setIfInBounds (i / 64) (change word) }
  | none => { places, marks }

/-- Marks place `i`. -/
def mark (sheet : Sheet π) (i : Nat) : Sheet π := sheet.changeWord i (· ||| bit i)

/-- Takes the mark of place `i` away. -/
def unmark (sheet : Sheet π) (i : Nat) : Sheet π := sheet.changeWord i (· &&& ~~~bit i)

/-- Overwrites place `i`. -/
def setPlace (sheet : Sheet π) (i : Nat) (place : Place π) : Sheet π :=
  let { places, marks } := sheet
  { places := places.setIfInBounds i place, marks }

/-- Puts a live candidate at the next place. -/
def push (sheet : Sheet π) (place : Place π) : Sheet π :=
  let { places, marks } := sheet
  let i := places.size
  { places := places.push place, marks : Sheet π }.mark i

/-- The candidates that are marked, in the order of their places. -/
def live (sheet : Sheet π) : List Candidate :=
  (sheet.places.toList.zipIdx.filter fun (_, i) => sheet.isMarked i).map fun (place, _) =>
    place.candidate

/-- The candidate and the payload at place `i`, if it is marked. -/
def held? (sheet : Sheet π) (i : Nat) : Option (Candidate × π) :=
  if sheet.isMarked i then
    sheet.places[i]?.bind fun place => place.payload.map fun payload => (place.candidate, payload)
  else none

end Sheet

/-- The sheets of a pool. -/
abbrev Sheets (π : Type) := Array (Sheet π)

namespace Sheets

variable {π : Type}

/-- How many places a sheet has. -/
def placesPerSheet : Nat := 512

/-- The place at a location. -/
def place? (sheets : Sheets π) (loc : Location) : Option (Place π) :=
  sheets[loc.sheet]?.bind fun sheet => sheet.places[loc.item]?

/-- The live candidate at a location, with its payload. -/
def held? (sheets : Sheets π) (loc : Location) : Option (Candidate × π) :=
  sheets[loc.sheet]?.bind fun sheet => sheet.held? loc.item

/-- Overwrites the place at a location. -/
def setPlace (sheets : Sheets π) (loc : Location) (place : Place π) : Sheets π :=
  sheets.modify loc.sheet fun sheet => sheet.setPlace loc.item place

/-- Whether every place of the sheets is used. -/
def allFull (sheets : Sheets π) : Bool :=
  match sheets.back? with
  | none => true
  | some sheet => placesPerSheet ≤ sheet.places.size

/-- Where the next candidate goes, in numbers of 16 bits: the next place of the last sheet, or the
first place of a new one. -/
def next (sheets : Sheets π) : Location :=
  if sheets.allFull then ⟨sheets.size % UInt16.size, 0⟩
  else ⟨(sheets.size - 1) % UInt16.size,
    (sheets.back?.map fun sheet => sheet.places.size).getD 0 % UInt16.size⟩

/-- Puts a candidate with its payload at the next place, on a new sheet if all are full. -/
def push (sheets : Sheets π) (candidate : Candidate) (payload : π) : Sheets π :=
  let place := ⟨{ candidate with location := sheets.next }, some payload⟩
  if sheets.allFull then Array.push sheets (Sheet.push {} place)
  else sheets.modify (sheets.size - 1) (·.push place)

/-- All places in the order of their locations. -/
def places (sheets : Sheets π) : List (Place π) :=
  sheets.toList.flatMap fun sheet => sheet.places.toList

/-- The live candidates in the order of their locations. -/
def live (sheets : Sheets π) : List Candidate := sheets.toList.flatMap Sheet.live

/-- Leaves a candidate at its location without its payload, and without a mark. -/
def clear (sheets : Sheets π) (loc : Location) (candidate : Candidate) : Sheets π :=
  sheets.modify loc.sheet fun sheet =>
    (sheet.setPlace loc.item ⟨candidate, none⟩).unmark loc.item

/-- Takes the payload at a location, which consumes the candidate there. -/
def consume (sheets : Sheets π) (loc : Location) : Sheets π × Option (Candidate × π) :=
  match sheets.held? loc with
  | some (candidate, payload) => (sheets.clear loc candidate, some (candidate, payload))
  | none => (sheets, none)

end Sheets

end Typeahead
